import EmergencyNet.App.Events

/-!
# The metric a node advertises

`best_neighbor_bp_to_our_bp` adds the metric of the best neighbour and the weighed distance
to it in 16 bits.  The sum should saturate at `METRIC_T_MAX`, the metric of a node without
a path; it wraps instead.  A burning node is the case in point: its `max_node` has metric
`0xFFFF`, and the weight of the fire carries the sum past zero, so that a node without a
path advertises one.

## Main definitions

* `Node.exactMetric` — the sum as an unbounded number.
* `Node.AdvertisesExactly` — the advertised metric is the saturated exact sum.
* `Node.SumFits` — the condition under which that is so.

## Main results

* `Node.advertisesExactly_iff` — **the metric is right exactly when the sum fits.**
* `Node.not_advertisesExactly` — a burning node without a path advertises a short one.
-/

namespace EmergencyNet

namespace Node

variable {s t s' : Node}

/-- `weigh_metrics` without the cut to 16 bits. -/
def exactWeight (s : Node) (distance : UInt16) : ℕ :=
  if s.state.isBurning then
    1000 + distance.toNat + (uint8ToUint16 s.currentSensorsMetric).toNat
  else distance.toNat

/-- The sum `best_neighbor_bp_to_our_bp` forms, without the cut to 16 bits. -/
def exactMetric (s : Node) : ℕ :=
  (s.deref s.bpn).metric.toNat + s.exactWeight (s.deref s.bpn).dist

/-- The metric a node advertises. -/
def advertisedMetric (s : Node) : UInt16 := s.bestNeighborBpToOurBp.metric16

theorem toNat_weighMetrics (s : Node) (d : UInt16) :
    (s.weighMetrics d).toNat = s.exactWeight d % 65536 := by
  unfold weighMetrics exactWeight weighDistance
  split
  · simp only [UInt16.toNat_add, show (1000 : UInt16).toNat = 1000 from rfl]
    omega
  · exact (Nat.mod_eq_of_lt d.toNat_lt).symm

/-- The advertised metric is the exact sum modulo `2 ^ 16`. -/
theorem toNat_advertisedMetric (s : Node) : s.advertisedMetric.toNat = s.exactMetric % 65536 := by
  simp only [advertisedMetric, NeighborNodeBestPath.metric16, bestNeighborBpToOurBp,
    uint8ToUint16_uint16ToUint8, UInt16.toNat_add, toNat_weighMetrics, exactMetric]
  omega

/-- The advertised metric is what it should be: no smaller than that of the best neighbour,
the exact sum saturated at `METRIC_T_MAX`, and `METRIC_T_MAX` for a node without a path, so
that no neighbour takes it for a way out. -/
def AdvertisesExactly (s : Node) : Prop :=
  (s.deref s.bpn).metric ≤ s.advertisedMetric ∧
  s.advertisedMetric.toNat = min s.exactMetric metricTMax.toNat ∧
  (s.bpn = .maxNode → s.advertisedMetric = metricTMax ∧
    ∀ (receiver : Node) (nn : NeighborNode),
      receiver.eligible (nn.setBestPath s.bestNeighborBpToOurBp) = false)

/-- The sum does not wrap, or wraps onto `METRIC_T_MAX`.  Without a path that is a matter of
the fire alone: `max_node` has metric `METRIC_T_MAX` and distance zero once the node is set
up, and is all zero before. -/
def SumFits (s : Node) : Prop :=
  if s.bpn = .maxNode then
    if s.ecNs then s.state.isBurning = false ∨ uint8ToUint16 s.currentSensorsMetric = 64536
    else s.state.isBurning = true ∧ uint8ToUint16 s.currentSensorsMetric = 64535
  else s.exactMetric < 65536 ∨ s.exactMetric % 65536 = 65535

/-! ### What `max_node` holds -/

/-- `max_node` is all zero until `setup_parse` sets its path; its distance is never set. -/
structure MaxNodeOk (s : Node) : Prop where
  dist : s.maxNode.dist = 0
  metric : s.maxNode.metric = if s.ecNs then metricTMax else 0

theorem MaxNodeOk.of_eq (h : MaxNodeOk s) (hmax : s'.maxNode = s.maxNode) (hns : s'.ecNs = s.ecNs) :
    MaxNodeOk s' := ⟨hmax ▸ h.dist, by rw [hmax, hns]; exact h.metric⟩

theorem MaxNodeOk.of_configured (h : MaxNodeOk s) (hconf : Configured s s') : MaxNodeOk s' where
  dist := by rw [hconf.maxNode]; exact h.dist
  metric := by rw [hconf.maxNode, hconf.ecNs]; exact metric16_max

/-- No event touches `max_node` other than by setting the node up. -/
theorem MaxNodeOk.outcome {ev : AppEvent} {ads : List PathPacket} (h : MaxNodeOk s)
    (ho : Outcome s ev s' ads) : MaxNodeOk s' := by
  cases ho with
  | configured _ hc => exact h.of_configured hc
  | quiet hr => exact h.of_eq hr.maxNode hr.ecNs
  | resetMode _ hr _ => exact h.of_eq hr.maxNode hr.ecNs
  | newNeighbor _ hr => exact h.of_eq hr.maxNode hr.ecNs
  | keepAlive _ hr => exact h.of_eq hr.maxNode hr.ecNs
  | initialized _ _ _ hr => exact h.of_eq hr.maxNode hr.ecNs
  | path _ _ _ hpath =>
    cases hpath with
    | first _ _ hr => exact h.of_eq hr.maxNode hr.ecNs
    | switched _ _ hr => exact h.of_eq hr.maxNode hr.ecNs
    | kept _ _ hr => exact h.of_eq hr.maxNode hr.ecNs
  | sensed _ _ hr => exact h.of_eq hr.maxNode hr.ecNs
  | sensedSent _ _ _ hr => exact h.of_eq hr.maxNode hr.ecNs
  | dropped _ _ hr => exact h.of_eq hr.maxNode hr.ecNs
  | droppedSwitched _ _ _ hr => exact h.of_eq hr.maxNode hr.ecNs

theorem maxNodeOk_zero (addr : Rimeaddr) (flash : Option (List UInt8)) :
    MaxNodeOk (zero addr flash) where
  dist := (by decide : uint8ToUint16 ⟨0, 0⟩ = 0)
  metric := (by decide : uint8ToUint16 ⟨0, 0⟩ = 0)

theorem maxNodeOk_of_reachable (h : nodeMachine.Reachable s) : MaxNodeOk s := by
  refine h.invariant ?_ ?_
  · rintro s ⟨addr, flash, rfl, -⟩
    cases flash with
    | none => exact maxNodeOk_zero addr none
    | some f => exact (maxNodeOk_zero addr (some f)).of_configured (configured_setupParse _ true _).1
  · rintro s e s' hs - ⟨-, rfl, hc⟩
    exact hs.outcome (outcome_step hc)

/-! ### When the metric is right -/

/-- Nobody takes a path of metric `METRIC_T_MAX`. -/
theorem eligible_of_metricTMax {nn : NeighborNode} (h : nn.metric = metricTMax) :
    s.eligible nn = false := by
  simp [eligible, h]

/-- A sum that starts from `m` saturates correctly exactly when it does not wrap below its
last value. -/
theorem saturates_iff {m sum : ℕ} (hm : m ≤ sum) (hlt : m < 65536) :
    (m ≤ sum % 65536 ∧ sum % 65536 = min sum 65535) ↔ (sum < 65536 ∨ sum % 65536 = 65535) := by
  omega

theorem metric_le_advertised_iff :
    ((s.deref s.bpn).metric ≤ s.advertisedMetric ∧
      s.advertisedMetric.toNat = min s.exactMetric metricTMax.toNat) ↔
    (s.exactMetric < 65536 ∨ s.exactMetric % 65536 = 65535) := by
  rw [UInt16.le_iff_toNat_le, toNat_advertisedMetric, toNat_metricTMax]
  exact saturates_iff (Nat.le_add_right _ _) (s.deref s.bpn).metric.toNat_lt

/-- Without a path the advertised metric depends on the fire alone. -/
theorem advertisedMetric_maxNode (hok : MaxNodeOk s) (hbpn : s.bpn = .maxNode) :
    s.advertisedMetric = metricTMax ↔
      if s.ecNs then s.state.isBurning = false ∨ uint8ToUint16 s.currentSensorsMetric = 64536
      else s.state.isBurning = true ∧ uint8ToUint16 s.currentSensorsMetric = 64535 := by
  have hlt := (uint8ToUint16 s.currentSensorsMetric).toNat_lt
  rw [← UInt16.toNat_inj, toNat_advertisedMetric]
  simp only [← UInt16.toNat_inj (a := uint8ToUint16 _), exactMetric, exactWeight, hbpn,
    deref_maxNode, hok.dist, hok.metric, toNat_metricTMax,
    show (64536 : UInt16).toNat = 64536 from rfl, show (64535 : UInt16).toNat = 64535 from rfl,
    show (0 : UInt16).toNat = 0 from rfl]
  cases s.ecNs <;> cases s.state.isBurning <;>
    simp only [if_true, if_false, Bool.false_eq_true, toNat_metricTMax, true_or, false_or,
      true_and, false_and, reduceCtorEq, show (0 : UInt16).toNat = 0 from rfl] <;> omega

/-- **The metric a node advertises is right exactly when the sum fits**, in every reachable
state, whether or not the node burns and whatever its sensor reads. -/
theorem advertisesExactly_iff (h : nodeMachine.Reachable s) (burning : Bool) (light : UInt16) :
    AdvertisesExactly (setBurning burning (s.sensed light)) ↔
      SumFits (setBurning burning (s.sensed light)) := by
  have hok : MaxNodeOk (setBurning burning (s.sensed light)) :=
    (maxNodeOk_of_reachable h).of_eq rfl rfl
  generalize setBurning burning (s.sensed light) = t at hok
  unfold AdvertisesExactly SumFits
  rw [← and_assoc, metric_le_advertised_iff]
  by_cases hmax : t.bpn = .maxNode
  · rw [if_pos hmax, ← advertisedMetric_maxNode hok hmax]
    constructor
    · exact fun h => (h.2 hmax).1
    · intro hadv
      refine ⟨Or.inr ?_, fun _ => ⟨hadv, fun r nn => eligible_of_metricTMax hadv⟩⟩
      rw [← toNat_advertisedMetric, hadv]
      rfl
  · rw [if_neg hmax]
    exact ⟨And.left, fun h => ⟨h, fun hm => absurd hm hmax⟩⟩

/-! ### A node without a path in a fire -/

/-- A node at `(0, 10)` whose only neighbour has no path, and which then catches fire. -/
def lonelyFire : List (AppEvent × ClockReading) :=
  [(.serial (.simulationSetup ⟨⟨10, 0⟩, ⟨⟨0, 0⟩, ⟨0, 10⟩⟩, 0, [⟨20, 0⟩]⟩), ⟨0, 0⟩),
   (.neighborRecv ⟨⟨20, 0⟩, ⟨20, 0⟩, 0, 0,
      (PathPacket.nodeInfo ⟨⟨0, 0⟩, ⟨0, 20⟩⟩ neighborNodeBestPathMax).bytes, 10⟩, ⟨0, 0⟩),
   (.emergencyCheck 500, ⟨0, 0⟩)]

/-- What a run of the node from power-up leads to. -/
theorem reachable_of_run {evs : List (AppEvent × ClockReading)}
    (hrun : Machine.run advance evs (resetNodeProperties rimeaddrNull none) = some s) :
    nodeMachine.Reachable s :=
  Machine.Reachable.of_run (fun _ _ _ => nodeMachine_step_of_advance) evs
    (.init ⟨rimeaddrNull, none, rfl, completes_nil⟩) hrun

/-- The node on fire advertises a path of metric `1499` it does not have. -/
theorem run_lonelyFire :
    ∃ s, Machine.run advance lonelyFire (resetNodeProperties rimeaddrNull none) = some s ∧
      s.bpn = .maxNode ∧ s.ecNs = true ∧ s.advertisedMetric = 1499 := by
  have h : ((Machine.run advance lonelyFire (resetNodeProperties rimeaddrNull none)).map
      fun s => (s.bpn, s.ecNs, s.advertisedMetric)) = some (.maxNode, true, 1499) := by
    decide +kernel
  obtain ⟨s, hs, heq⟩ := Option.map_eq_some_iff.mp h
  simp only [Prod.mk.injEq] at heq
  exact ⟨s, hs, heq⟩

/-- **A node without a path can advertise one**: the sum wraps. -/
theorem not_advertisesExactly :
    ¬ ∀ s : Node, nodeMachine.Reachable s → s.bpn ≠ .null → AdvertisesExactly s := by
  obtain ⟨s, hrun, hbpn, -, hadv⟩ := run_lonelyFire
  intro h
  have hmax := ((h s (reachable_of_run hrun) (hbpn ▸ NeighborPtr.noConfusion)).2.2 hbpn).1
  rw [hadv] at hmax
  exact absurd hmax (by decide)

/-- The same node without the fire, where the sum fits. -/
theorem advertisesExactly_lonelyFire :
    ∃ s, nodeMachine.Reachable s ∧ AdvertisesExactly (setBurning false (s.sensed 0)) := by
  obtain ⟨s, hrun, hbpn, hns, -⟩ := run_lonelyFire
  refine ⟨s, reachable_of_run hrun, (advertisesExactly_iff (reachable_of_run hrun) false 0).mpr ?_⟩
  unfold SumFits
  rw [if_pos (show (setBurning false (s.sensed 0)).bpn = .maxNode from hbpn),
    if_pos (show (setBurning false (s.sensed 0)).ecNs = true from hns)]
  exact Or.inl rfl

end Node

end EmergencyNet
