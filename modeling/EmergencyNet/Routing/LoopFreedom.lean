import EmergencyNet.Lib.Paths
import EmergencyNet.Routing.Network
import Mathlib.Data.Fin.VecNotation

/-!
# Following the best neighbours leads to an exit

In a quiescent network, following `bpn` from node to node should end at an exit.  It does
as long as every node has announced a larger metric than its best neighbour's, for then the
announced metrics decrease along the way.  A node that keeps a best neighbour whose metric
has grown past what the node has announced breaks this: two nodes that lose their exits at
the same time can each take the other for its way out and keep it.

## Main definitions

* `Node.KeepsDescent`, `Node.LocalFits`, `Topology.DescentGuard` — the condition on each step.
* `Node.Descends` — a node has announced more than its best neighbour.

## Main results

* `Topology.simplePath_of_reachable` — **in a guarded run there are no loops.**
* `Topology.not_simplePath` — a run into a loop.
-/

namespace EmergencyNet

open Node Paths

namespace Node

variable {s t s' : Node} {i j : ℕ} {p : PathPacket} {ads : List PathPacket}
  {last : Option NeighborNodeBestPath}

/-! ### The guard -/

/-- A packet of the best neighbour makes the node switch, or leaves that neighbour's metric
below the one the node has announced. -/
def KeepsDescent (i : ℕ) (p : PathPacket) (last : Option NeighborNodeBestPath) (s : Node) : Prop :=
  s.bpn = .slot i →
    (s.pathWritten i p).Switches (.slot i) ∨ ∃ a ∈ last, p.bp.metric16 < a.metric16

/-- What the sensor and the keep-alive check make the node announce does not wrap, and the
check does not drop the only neighbour while it is the best one. -/
def LocalFits (ev : AppEvent) (s : Node) : Prop :=
  match ev with
  | .emergencyCheck light => s.abruptMetricChangePoll light = true → s.bpn ≠ .null →
      (setBurning (isEmergency light) (s.sensed light)).exactMetric < 65536
  | .keepaliveCheck => s.state.isBlinking = true → s.KeepsLast ∧
      (s.sweep.needBroadcastNewPath = true → s.dropSilent.Switches .null →
        s.dropSilent.toBest.exactMetric < 65536)
  | _ => True

instance (i : ℕ) (p : PathPacket) (last : Option NeighborNodeBestPath) (s : Node) :
    Decidable (s.KeepsDescent i p last) := by
  unfold KeepsDescent; infer_instance

instance (ev : AppEvent) (s : Node) : Decidable (s.LocalFits ev) := by
  rcases ev <;> unfold LocalFits <;> infer_instance

/-! ### What a node announces is more than its best neighbour's metric -/

/-- At a node that is no exit: what it has announced last is more than the metric of its best
neighbour, and is `METRIC_T_MAX` without one. -/
structure Descends (s : Node) (last : Option NeighborNodeBestPath) : Prop where
  slot : ∀ i, s.bpn = .slot i → i ∈ s.ns.used ∧ ∃ a ∈ last, (s.ns.item i).metric < a.metric16
  maxNode : s.bpn = .maxNode → ∀ a ∈ last, a.metric16 = metricTMax
  null : s.bpn = .null → last = none
  exitNode : s.bpn ≠ .exitNode

theorem Descends.of_routing (h : Descends s last) (hr : SameRouting s t) : Descends t last where
  slot := by
    rw [hr.bpn, hr.ns]
    exact h.slot
  maxNode := by
    rw [hr.bpn]
    exact h.maxNode
  null := by
    rw [hr.bpn]
    exact h.null
  exitNode := by
    rw [hr.bpn]
    exact h.exitNode

/-- An announced sum that does not wrap is larger than the metric it starts from. -/
theorem metric_lt_announced (hfit : s.exactMetric < 65536) (hbpn : s.bpn = .slot i)
    (hpos : 0 < (s.ns.item i).dist) : (s.ns.item i).metric < s.bestNeighborBpToOurBp.metric16 := by
  have hadv := s.toNat_advertisedMetric
  rw [Nat.mod_eq_of_lt hfit] at hadv
  have hsum : s.exactMetric =
      (s.ns.item i).metric.toNat + s.exactWeight (s.ns.item i).dist := by
    rw [exactMetric, hbpn, deref_slot]
  have hweight : (s.ns.item i).dist.toNat ≤ s.exactWeight (s.ns.item i).dist := by
    unfold exactWeight
    split <;> omega
  have hd : 0 < (s.ns.item i).dist.toNat := UInt16.lt_iff_toNat_lt.mp hpos
  apply UInt16.lt_iff_toNat_lt.mpr
  change _ < s.advertisedMetric.toNat
  omega

/-- Without a path, a sum that does not wrap is `METRIC_T_MAX`. -/
theorem announced_maxNode (hfit : s.exactMetric < 65536) (hbpn : s.bpn = .maxNode)
    (hmax : s.maxNode.metric = metricTMax) : s.bestNeighborBpToOurBp.metric16 = metricTMax := by
  have hadv := s.toNat_advertisedMetric
  rw [Nat.mod_eq_of_lt hfit] at hadv
  have hsum : s.exactMetric = 65535 + s.exactWeight s.maxNode.dist := by
    rw [exactMetric, hbpn, deref_maxNode, hmax, toNat_metricTMax]
  apply UInt16.toNat_inj.mp
  change s.advertisedMetric.toNat = 65535
  omega

/-- A node that announces a path through its best neighbour descends. -/
theorem descends_announced (hfit : s.exactMetric < 65536) (hmax : s.maxNode.metric = metricTMax)
    (hnull : s.bpn ≠ .null) (hexit : s.bpn ≠ .exitNode)
    (hslot : ∀ i, s.bpn = .slot i → i ∈ s.ns.used ∧ 0 < (s.ns.item i).dist) :
    Descends s (some s.bestNeighborBpToOurBp) where
  slot := fun i hi => ⟨(hslot i hi).1, _, rfl, metric_lt_announced hfit hi (hslot i hi).2⟩
  maxNode := by
    rintro hbpn a ⟨⟩
    exact announced_maxNode hfit hbpn hmax
  null := fun h => absurd h hnull
  exitNode := hexit

/-- A node that switches and announces descends. -/
theorem descends_toBest (hexit : s.state.isExitNode = false) (hfit : s.toBest.exactMetric < 65536)
    (hmax : s.maxNode.metric = metricTMax)
    (hpos : ∀ i ∈ s.ns.used, (s.ns.item i).metric ≠ metricTMax → 0 < (s.ns.item i).dist) :
    Descends s.toBest (some s.toBest.bestNeighborBpToOurBp) := by
  apply descends_announced hfit hmax
  · exact findBest_ne_null
  · rw [toBest_bpn]
    rcases findBest_slot_or_maxNode hexit with ⟨i, hi⟩ | hm
    · rw [hi]
      exact NeighborPtr.noConfusion
    · rw [hm]
      exact NeighborPtr.noConfusion
  · intro i hi
    obtain ⟨hmem, hel, -⟩ := findBest_slot_spec hexit hi
    refine ⟨hmem, hpos i hmem fun hm => ?_⟩
    rw [eligible_of_metricTMax hm] at hel
    exact absurd hel Bool.false_ne_true

/-! ### Every event -/

/-- Path packets. -/
theorem Descends.path (h : Descends s last) (hexit : s.state.isExitNode = false)
    (hns : s.ecNs = true) (hne : s.ns.used ≠ []) (hmax : s.maxNode.metric = metricTMax)
    (hpos : ∀ j ∈ s.ns.used, ((s.pathWritten i p).ns.item j).metric ≠ metricTMax →
      0 < ((s.pathWritten i p).ns.item j).dist)
    (hunsent : s.state.hasSentNodeInfo = false → s.bpn = .null)
    (hkeep : s.KeepsDescent i p last)
    (hfit : (s.pathWritten i p).Switches (.slot i) → (s.pathWritten i p).toBest.exactMetric < 65536)
    (hpath : PathOutcome s i p s' ads) : Descends s' (lastAdvert last ads) := by
  cases hpath with
  | first _ hsent hr =>
    have hsw : (s.pathWritten i p).Switches (.slot i) := Or.inl (hunsent hsent)
    rw [lastAdvert_announce hns hne]
    have hd := descends_toBest (s := s.pathWritten i p) hexit (hfit hsw) hmax hpos
    have hd' : Descends (s.pathWritten i p).toBest.sentNodeInfo
        (some (s.pathWritten i p).toBest.bestNeighborBpToOurBp) :=
      ⟨hd.slot, hd.maxNode, hd.null, hd.exitNode⟩
    exact hd'.of_routing hr.toSameRouting
  | switched _ hsw hr =>
    rw [lastAdvert_announce hns hne]
    have hd := descends_toBest (s := s.pathWritten i p) hexit (hfit hsw) hmax hpos
    exact hd.of_routing hr.toSameRouting
  | kept _ hsw hr =>
    have hnsw : ¬ (s.pathWritten i p).Switches (.slot i) := by
      rcases hsw with hsw | ⟨-, hx⟩
      · exact hsw
      · exact absurd (hx.symm.trans hexit) (by decide)
    have hd : Descends (s.pathWritten i p) last := by
      refine ⟨fun j hj => ?_, h.maxNode, h.null, h.exitNode⟩
      obtain ⟨hmem, a, ha, hlt⟩ := h.slot j hj
      refine ⟨hmem, ?_⟩
      by_cases hji : j = i
      · -- the best neighbour's own packet
        subst hji
        obtain ⟨a, ha, hlt⟩ := (hkeep hj).resolve_left hnsw
        refine ⟨a, ha, ?_⟩
        rw [pathWritten_item_self, NeighborNode.metric, entryAfter_bp]
        exact hlt
      · rw [pathWritten_item_of_ne p hji]
        exact ⟨a, ha, hlt⟩
    exact hd.of_routing hr.toSameRouting

/-- A keep-alive check after which nothing is announced. -/
theorem Descends.dropped (h : Descends s last) (hlast : s.KeepsLast) (hun : s.BpnUnshadowed)
    (hsw : s.sweep.needBroadcastNewPath = true → ¬ s.dropSilent.Switches .null) :
    Descends s.dropSilent last := by
  have hbpn : s.dropSilent.bpn = s.bpn := by
    rcases s.sweep_bpn with hsame | ⟨-, hnull⟩
    · exact hsame
    · rcases s.sweep_cases with hsame | ⟨i, hone, hsilent, -, -, hb⟩ | ⟨hneed, -⟩
      · exact congrArg Sweep.bpn hsame
      · split at hb
        · next hi =>
          rw [hlast i hi hone] at hsilent
          exact absurd hsilent.symm Bool.false_ne_true
        · exact hb
      · exact absurd (Or.inl hnull) (hsw hneed)
  refine ⟨fun i hi => ?_, fun hm => h.maxNode (hbpn ▸ hm), fun hn => h.null (hbpn ▸ hn),
    hbpn ▸ h.exitNode⟩
  obtain ⟨hmem, a, ha, hlt⟩ := h.slot i (hbpn ▸ hi)
  refine ⟨?_, a, ha, ?_⟩
  · rw [dropSilent_used]
    exact mem_sweep_of_bpn hun hi hmem
  · obtain ⟨b, hb⟩ := s.dropSilent_item i
    rw [hb]
    exact hlt

/-- The other events. -/
theorem Descends.local {ev : AppEvent} (h : Descends s last) (hloc : ev.Local)
    (hexit : s.state.isExitNode = false) (hns : s.ecNs = true)
    (hmax : s.maxNode.metric = metricTMax)
    (hpos : ∀ j ∈ s.ns.used, (s.ns.item j).metric ≠ metricTMax → 0 < (s.ns.item j).dist)
    (hun : s.BpnUnshadowed) (hfit : s.LocalFits ev) (ho : Outcome s ev s' ads) :
    Descends s' (lastAdvert last ads) := by
  cases ho with
  | configured hev _ => exact absurd hev hloc.1
  | resetMode hev _ _ => exact absurd hev hloc.1
  | newNeighbor _ _ => exact absurd hloc.2 id
  | path _ hp _ _ => exact absurd (hp.symm.trans hloc.2) (Option.some_ne_none _)
  | initialized _ hx _ _ => exact absurd (hx.symm.trans hexit) (by decide)
  | quiet hr => exact h.of_routing hr.toSameRouting
  -- a flag changes and no path
  | @keepAlive r _ i hi hr =>
    have hd : Descends (s.withEntry i ((s.ns.item i).setHasSentKeepAlive true)) last := by
      refine ⟨fun j hj => ?_, h.maxNode, h.null, h.exitNode⟩
      obtain ⟨hmem, a, ha, hlt⟩ := h.slot j hj
      obtain ⟨b, hb⟩ := keepAlive_item (s := s) i j
      refine ⟨hmem, a, ha, ?_⟩
      rw [hb]
      exact hlt
    exact hd.of_routing hr.toSameRouting
  | @sensed light _ _ _ hr =>
    have hd : Descends (s.sensed light) last := ⟨h.slot, h.maxNode, h.null, h.exitNode⟩
    exact hd.of_routing hr.toSameRouting
  | @sensedSent light _ habrupt hbpn _ hr _ =>
    have hfit' := hfit habrupt hbpn
    refine Descends.of_routing (s := setBurning (isEmergency light) (s.sensed light)) ?_
      hr.toSameRouting
    by_cases hne : s.ns.used = []
    · -- without neighbours nothing is announced, and there is no best one
      have hnone : s.announce (.bestPathUpdate (setBurning (isEmergency light)
          (s.sensed light)).bestNeighborBpToOurBp) = [] := if_neg fun hc => hc.2 hne
      rw [hnone, lastAdvert_nil]
      exact ⟨h.slot, h.maxNode, h.null, h.exitNode⟩
    · rw [lastAdvert_announce hns hne]
      refine descends_announced hfit' hmax hbpn h.exitNode fun i hi => ?_
      obtain ⟨hmem, a, -, hlt⟩ := h.slot i hi
      refine ⟨hmem, hpos i hmem fun hm => ?_⟩
      rw [hm, UInt16.lt_iff_toNat_lt, toNat_metricTMax] at hlt
      have := a.metric16.toNat_lt
      omega
  -- silent neighbours are removed, and the best one stays
  | dropped hblink hsw hr =>
    exact (h.dropped (hfit hblink).1 hun hsw).of_routing hr.toSameRouting
  -- the best one is chosen anew among those left
  | droppedSwitched hblink hneed hsw hr =>
    have hne := dropSilent_used_ne_nil hneed
    rw [lastAdvert_announce (s := s.dropSilent) hns hne]
    have hd : Descends s.dropSilent.toBest (some s.dropSilent.toBest.bestNeighborBpToOurBp) := by
      refine descends_toBest (s := s.dropSilent) hexit ((hfit hblink).2 hneed hsw) hmax fun j hj => ?_
      obtain ⟨b, hb⟩ := s.dropSilent_item j
      rw [hb]
      exact hpos j (s.dropSilent_used_sublist.subset hj)
    exact hd.of_routing hr.toSameRouting

end Node

namespace Topology

variable {V : Type*} {T : Topology V} {n n' : Net V} {u v w : V} {e : NetEvent V}

/-! ### The announced metrics decrease -/

/-- Every node that is no exit has announced more than its best neighbour. -/
def Descending (T : Topology V) (n : Net V) : Prop :=
  ∀ v, T.isExit v = false → Descends (n.node v) (n.last v)

/-- An entry that holds a path is at a positive distance. -/
theorem AllLinked.dist_pos (h : T.AllLinked n) (hp : T.Placed v (n.node v)) :
    ∀ j ∈ (n.node v).ns.used, ((n.node v).ns.item j).metric ≠ metricTMax →
      0 < ((n.node v).ns.item j).dist := by
  intro j hj hne
  obtain ⟨w, hw, haddr⟩ := hp.table j hj
  rw [(h v w j hj hw haddr).dist hne]
  exact T.pos hw

/-- Distinct addresses cast no shadow. -/
theorem Placed.bpnUnshadowed {s : Node} {last : Option NeighborNodeBestPath} (hp : T.Placed v s)
    (hd : Descends s last) : s.BpnUnshadowed := by
  intro i hi j hj hne haddr
  exact absurd (hp.distinct j hj i (hd.slot i hi).1 haddr) hne

theorem descending_start (T : Topology V) : T.Descending T.start := by
  intro v _
  have hbpn : (T.boot v).bpn = .null :=
    (configured_setupParse (T.setupPacket v).bytes false (zero rimeaddrNull none)).1.bpn
  change Descends (T.boot v) none
  refine ⟨fun i hi => ?_, fun _ a ha => (nomatch ha), fun _ => rfl, ?_⟩
  · rw [hbpn] at hi
    exact NeighborPtr.noConfusion hi
  · rw [hbpn]
    exact NeighborPtr.noConfusion

/-- The node announces a path. -/
def HasPath (n : Net V) (v : V) : Prop := ∃ a ∈ n.last v, a.metric16 ≠ metricTMax

/-- The metric a node has announced last. -/
def announced (n : Net V) (v : V) : ℕ := ((n.last v).map fun a => a.metric16.toNat).getD 0

/-- In a quiescent state the best neighbour of a node with a path has announced a smaller
metric. -/
theorem exists_follows (hw : T.Wired n) (hd : T.Descending n) (hq : n.Quiescent)
    (hexit : T.isExit v = false) (hpath : HasPath n v) :
    ∃ w, n.Follows T v w ∧ HasPath n w ∧ announced n w < announced n v := by
  obtain ⟨a, ha, hne⟩ := hpath
  have hdv := hd v hexit
  cases hbpn : (n.node v).bpn with
  | null =>
    rw [hdv.null hbpn] at ha
    cases ha
  | exitNode => exact absurd hbpn hdv.exitNode
  | maxNode => exact absurd (hdv.maxNode hbpn a ha) hne
  | slot i =>
    obtain ⟨hmem, b, hb, hlt⟩ := hdv.slot i hbpn
    obtain rfl : a = b := Option.some.inj (ha.symm.trans hb)
    obtain ⟨w, hwv, haddr⟩ := (hw.placed v).table i hmem
    have hbelow : ((n.node v).ns.item i).metric ≠ metricTMax := by
      intro hm
      rw [hm, UInt16.lt_iff_toNat_lt, toNat_metricTMax] at hlt
      have := a.metric16.toNat_lt
      omega
    -- nothing is under way, so the entry is what the neighbour has announced
    have hlinked := hw.linked v w i hmem hwv haddr
    rw [hq w v] at hlinked
    have hlast := hlinked.eq_last hbelow
    refine ⟨w, ⟨i, hbpn, haddr⟩, ⟨_, hlast, hbelow⟩, ?_⟩
    rw [announced, announced, hlast, Option.mem_def.mp ha]
    exact UInt16.lt_iff_toNat_lt.mp hlt

/-- The address of the neighbour a node routes to. -/
def followed (s : Node) : Option Rimeaddr :=
  match s.bpn with
  | .slot i => some (s.ns.item i).addr
  | _ => none

theorem followed_of_follows {n : Net V} {a b : V} (h : n.Follows T a b) :
    followed (n.node a) = some (T.addr b) := by
  obtain ⟨i, hi, haddr⟩ := h
  simp only [followed, hi, haddr]

/-! ### Every step of the network -/

variable [DecidableEq V]

/-- The condition on a step under which the announced metrics decrease along the best
neighbours: at a node that is no exit, a packet of the best neighbour that makes its metric
too large makes the node switch, and no announced sum wraps. -/
def DescentGuard (T : Topology V) (n : Net V) : NetEvent V → Prop
  | .deliver u v _ => T.isExit v = false →
      ∀ i ∈ neighborsFindNeighborNode (n.node v).ns (T.addr u), ∀ p ∈ (n.link u v).head?,
        (n.node v).KeepsDescent i p (n.last v) ∧
        (((n.node v).pathWritten i p).Switches (.slot i) →
          ((n.node v).pathWritten i p).toBest.exactMetric < 65536)
  | .other v ev _ => T.isExit v = false → (n.node v).LocalFits ev

instance (T : Topology V) (n : Net V) (e : NetEvent V) : Decidable (T.DescentGuard n e) := by
  rcases e <;> unfold DescentGuard <;> infer_instance

/-- Only the node that moves has to be looked at. -/
theorem Descending.moved {m : Net V} {s' : Node} (h : T.Descending n) (hnode : m.node = n.node)
    (hlast : m.last = n.last)
    (hv : T.isExit v = false → Descends s' (lastAdvert (n.last v) (adverts s'.calls))) :
    T.Descending (T.moved m v s') := by
  intro x hx
  simp only [Topology.moved, hnode, hlast]
  by_cases hxv : x = v
  · subst hxv
    simpa only [Function.update_self] using hv hx
  · simpa only [Function.update_of_ne hxv] using h x hx

/-- **Every guarded step keeps the announced metrics decreasing.** -/
theorem Descending.change (h : T.Descending n) (hw : T.Wired n) (hg : T.DescentGuard n e)
    (hc : T.Change n e n') : T.Descending n' := by
  cases hc with
  | ignored _ => exact h
  | @heard u v c p rest i s' hlink hi hpath =>
    refine h.moved rfl rfl fun hx => ?_
    have hp := hw.placed v
    obtain ⟨hkeep, hfit⟩ := hg hx i hi p (by rw [hlink]; rfl)
    have hlinked := (hw.linked.heard hp hlink hi).dist_pos (v := v) (by
      simpa only [Function.update_self] using hp.pathWritten i p)
    simp only [Function.update_self] at hlinked
    exact (h v hx).path (hp.isExitNode.trans hx) hp.ecNs (used_ne_nil_of_find hi) hp.maxNode.2
      hlinked (fun hu => (hw.unsent v hu).1.bpn) hkeep hfit hpath
  | @acted v ev c s' hloc _ ho =>
    refine h.moved rfl rfl fun hx => ?_
    have hp := hw.placed v
    exact (h v hx).local hloc (hp.isExitNode.trans hx) hp.ecNs hp.maxNode.2
      (hw.linked.dist_pos hp) (hp.bpnUnshadowed (h v hx)) (hg hx) ho

theorem descending_of_reachable (h : T.machine.ReachableWhen T.DescentGuard n) :
    T.Wired n ∧ T.Descending n := by
  refine h.invariant (I := fun n => T.Wired n ∧ T.Descending n) ?_ ?_
  · rintro n rfl
    exact ⟨T.wired_start, T.descending_start⟩
  · rintro n e n' ⟨hw, hd⟩ hg hstep
    have hc := change_of_step hw.placed hstep
    exact ⟨hw.change hc, hd.change hw hg hc⟩

/-- **In every run whose steps all meet the guard, in a quiescent state, following the best
neighbours from a node that announces a path leads to an exit without visiting a node
twice.** -/
theorem simplePath_of_reachable (h : T.machine.ReachableWhen T.DescentGuard n) (hq : n.Quiescent)
    (hpath : HasPath n v) :
    ∃ l, SimplePath (n.Follows T) (fun w => T.isExit w = true) v l := by
  obtain ⟨hw, hd⟩ := descending_of_reachable h
  refine exists_simplePath (HasPath n) (announced n) (fun x hx => ?_) hpath
  cases hexit : T.isExit x with
  | true => exact Or.inl rfl
  | false => exact Or.inr (exists_follows hw hd hq hexit hx)

/-! ### Two nodes that lose their exits together -/

/-- Four nodes in a row, `10` apart, with an exit at each end. -/
def corridor : Topology (Fin 4) where
  addr v := ⟨10 * (v.val.toUInt8 + 1), 0⟩
  addr_inj := by
    intro a b
    revert a b
    decide
  coord v := ⟨⟨0, 10 * v.val.toUInt8⟩, ⟨0, 0⟩⟩
  isExit v := v = 0 ∨ v = 3
  nbrs := ![[1], [0, 2], [1, 3], [2]]
  nodup := by decide
  le := by decide
  symm := by decide
  pos := by decide

/-- An event of the node `v`. -/
def eventAt (v : Fin 4) (ev : AppEvent) : NetEvent (Fin 4) := .other v ev ⟨0, 0⟩

/-- A delivery from `u` to `v`. -/
def deliveryTo (u v : Fin 4) : NetEvent (Fin 4) := .deliver u v ⟨0, 0⟩

/-- The exits announce themselves, and the two nodes in between route to the nearer one. -/
def formation : List (NetEvent (Fin 4)) :=
  [eventAt 0 (.serial .init), eventAt 3 (.serial .init), deliveryTo 0 1, deliveryTo 3 2,
    deliveryTo 1 0, deliveryTo 1 2, deliveryTo 2 1, deliveryTo 2 3]

/-- Both exits catch fire, and either node takes the other for its way out; the updates
cross. -/
def crossing : List (NetEvent (Fin 4)) :=
  [eventAt 0 (.emergencyCheck 500), eventAt 3 (.emergencyCheck 500), deliveryTo 0 1,
    deliveryTo 3 2, deliveryTo 1 0, deliveryTo 1 2, deliveryTo 2 1, deliveryTo 2 3]

/-- What the runs are about: whether nothing is under way, whom the two nodes in between
follow, and which metric the first has announced. -/
def corridorView (n : Net (Fin 4)) : Bool × Option Rimeaddr × Option Rimeaddr × Option UInt16 :=
  (decide (∀ u v, (n.link u v).isEmpty = true), followed (n.node 1), followed (n.node 2),
    (n.last 1).map NeighborNodeBestPath.metric16)

/-- A state of the corridor as `corridorView` sees it. -/
theorem corridorView_eq {n : Net (Fin 4)} {a b : Option Rimeaddr} {m : UInt16}
    (h : corridorView n = (true, a, b, some m)) (hm : m ≠ metricTMax) :
    n.Quiescent ∧ followed (n.node 1) = a ∧ followed (n.node 2) = b ∧ HasPath n 1 := by
  simp only [corridorView, Prod.mk.injEq, decide_eq_true_eq, List.isEmpty_iff] at h
  obtain ⟨hq, h1, h2, hlast⟩ := h
  obtain ⟨bp, hbp, hmetric⟩ := Option.map_eq_some_iff.mp hlast
  exact ⟨hq, h1, h2, bp, hbp, hmetric ▸ hm⟩

/-- A quiescent state after the formation, in which both nodes have a path to an exit. -/
theorem simplePath_formation :
    ∃ n, corridor.machine.ReachableWhen corridor.DescentGuard n ∧ n.Quiescent ∧
      ∃ l, SimplePath (n.Follows corridor) (fun w => corridor.isExit w = true) 1 l := by
  have h : (Machine.run corridor.step formation corridor.start).map corridorView =
      some (true, some ⟨10, 0⟩, some ⟨40, 0⟩, some 10) := by decide +kernel
  obtain ⟨n, hrun, heq⟩ := Option.map_eq_some_iff.mp h
  obtain ⟨hq, -, -, hpath⟩ := corridorView_eq heq (by decide)
  have hreach : corridor.machine.ReachableWhen corridor.DescentGuard n :=
    Machine.ReachableWhen.of_run (b := fun n e => decide (corridor.DescentGuard n e))
      (fun _ _ => of_decide_eq_true) (fun _ _ _ h => h) formation (.init rfl) (by decide +kernel) hrun
  exact ⟨n, hreach, hq, simplePath_of_reachable hreach hq hpath⟩

theorem run_crossing :
    ∃ n, Machine.run corridor.step (formation ++ crossing) corridor.start = some n ∧
      n.Quiescent ∧ followed (n.node 1) = some (corridor.addr 2) ∧
      followed (n.node 2) = some (corridor.addr 1) ∧ HasPath n 1 := by
  have h : (Machine.run corridor.step (formation ++ crossing) corridor.start).map corridorView =
      some (true, some (corridor.addr 2), some (corridor.addr 1), some 20) := by decide +kernel
  obtain ⟨n, hrun, heq⟩ := Option.map_eq_some_iff.mp h
  exact ⟨n, hrun, corridorView_eq heq (by decide)⟩

/-- **Two nodes can end up following each other.** -/
theorem not_simplePath :
    ¬ ∀ n : Net (Fin 4), corridor.machine.Reachable n → n.Quiescent →
      ∀ v, corridor.isExit v = false → HasPath n v →
        ∃ l, SimplePath (n.Follows corridor) (fun w => corridor.isExit w = true) v l := by
  obtain ⟨n, hrun, hq, h1, h2, hpath⟩ := run_crossing
  intro h
  have hreach : corridor.machine.Reachable n :=
    Machine.Reachable.of_run (fun _ _ _ h => h) _ (.init rfl) hrun
  obtain ⟨l, hl⟩ := h n hreach hq 1 (by decide) hpath
  -- the two nodes follow nobody but each other
  have hclosed : ∀ a b : Fin 4, (a = 1 ∨ a = 2) → n.Follows corridor a b → (b = 1 ∨ b = 2) := by
    rintro a b (rfl | rfl) hab
    · have haddr := (followed_of_follows hab).symm.trans h1
      exact Or.inr (corridor.addr_inj (Option.some.inj haddr))
    · have haddr := (followed_of_follows hab).symm.trans h2
      exact Or.inl (corridor.addr_inj (Option.some.inj haddr))
  obtain ⟨g, hexit, hg⟩ := hl.mem_of_closed hclosed (Or.inl rfl)
  rcases hg with rfl | rfl
  · exact absurd hexit (by decide)
  · exact absurd hexit (by decide)

end Topology

end EmergencyNet
