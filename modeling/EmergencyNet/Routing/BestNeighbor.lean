import EmergencyNet.Routing.KeepAlive
import EmergencyNet.Routing.Metric

/-!
# The best neighbour is the one the scan would choose

A node that has sent its node info should route to the neighbour
`find_best_exit_path_neighbor` would return on its table.  The handlers decide by the raw
metric whether to switch, the scan by the sum of metric and distance, and so a best
neighbour that gets worse can be kept although another one is better.  The keep-alive check
in turn can leave a node with no best neighbour, or with one whose entry is gone.

## Main definitions

* `Node.KeepsBest` — a path packet does not take that branch.
* `Node.BestGuard` — the condition on each event of a run.
* `Node.BestNeighborOk` — what the invariant says about a state.

## Main results

* `Node.bestNeighborOk_of_reachable` — **in a guarded run the best neighbour is the one the
  scan would choose.**
* `Node.not_bestNeighbor` — a run in which it is not.
-/

namespace EmergencyNet

namespace Node

variable {s t s' : Node} {i j : ℕ} {p : PathPacket}

/-! ### The guard -/

/-- If the sender of `p` in slot `i` is the best neighbour, then after the packet it still
is, or no path is left, or the best one has a smaller metric than the packet. -/
def KeepsBest (i : ℕ) (p : PathPacket) (s : Node) : Prop :=
  s.bpn = .slot i →
    (s.pathWritten i p).findBestExitPathNeighbor = .slot i ∨
    (s.pathWritten i p).findBestExitPathNeighbor = .maxNode ∨
    ((s.pathWritten i p).deref (s.pathWritten i p).findBestExitPathNeighbor).metric < p.bp.metric16

/-- The entries the scan may use have sums below `2 ^ 16`. -/
def SumFitsAt (i : ℕ) (s : Node) : Prop :=
  s.eligible (s.ns.item i) = true →
    (s.ns.item i).dist.toNat + (s.ns.item i).metric.toNat < 65536

/-- The only entry of the table is not that of a silent best neighbour. -/
def KeepsLast (s : Node) : Prop :=
  ∀ i, s.bpn = .slot i → s.ns.used = [i] → (s.ns.item i).hasSentKeepAlive = true

/-- The condition on an event under which the best neighbour stays the best one. -/
def BestGuard (s : Node) (e : AppEvent × ClockReading) : Prop :=
  match e.1 with
  | .neighborRecv r => s.Listens → s.state.isExitNode = false →
      ∀ i ∈ neighborsFindNeighborNode s.ns r.sender, ∀ p ∈ advertOf r.data,
        SumFitsAt i (s.pathWritten i p) ∧ (s.state.hasSentNodeInfo = true → s.KeepsBest i p)
  | .keepaliveCheck => s.state.isBlinking = true → s.state.isExitNode = false →
      s.state.hasSentNodeInfo = true → s.BpnUnshadowed ∧ s.KeepsLast
  | _ => True

instance (i : ℕ) (p : PathPacket) (s : Node) : Decidable (s.KeepsBest i p) := by
  unfold KeepsBest; infer_instance

instance (i : ℕ) (s : Node) : Decidable (s.SumFitsAt i) := by unfold SumFitsAt; infer_instance

instance (s : Node) : Decidable s.KeepsLast := by unfold KeepsLast; infer_instance

instance (s : Node) (e : AppEvent × ClockReading) : Decidable (s.BestGuard e) := by
  obtain ⟨ev, c⟩ := e
  rcases ev <;> unfold BestGuard <;> infer_instance

/-! ### The invariant -/

/-- At a node that is no exit: once the node info is sent the best neighbour is the one the
scan chooses, and no sum the scan compares wraps. -/
structure BestInv (s : Node) : Prop where
  best : s.state.isExitNode = false → s.state.hasSentNodeInfo = true →
    s.bpn = s.findBestExitPathNeighbor
  sums : s.state.isExitNode = false → ∀ j ∈ s.ns.used, s.SumFitsAt j

theorem BestInv.of_routing (h : BestInv s) (hr : SameRouting s t) : BestInv t where
  best := by
    rw [hr.isExitNode, hr.hasSentNodeInfo, hr.bpn, hr.findBest]
    exact h.best
  sums := by
    simp only [SumFitsAt, hr.isExitNode, hr.ns, hr.eligible]
    exact h.sums

/-- The best neighbour is the best one if it is on a table with the same costs. -/
theorem best_of_cost (hexit : s.state.isExitNode = false) (ht : t.state.isExitNode = false)
    (hbpn : t.bpn = s.findBestExitPathNeighbor) (hused : t.ns.used = s.ns.used)
    (hcost : ∀ j ∈ s.ns.used, t.cost j = s.cost j) : t.bpn = t.findBestExitPathNeighbor := by
  rw [hbpn, findBest_of_cost hexit ht hused hcost]

theorem BestInv.of_configured (hc : Configured s t) : BestInv t where
  best := fun _ hsent => absurd (hc.hasSentNodeInfo.symm.trans hsent) Bool.false_ne_true
  sums := by
    intro _ j hj hel
    obtain ⟨a, ha⟩ := hc.fresh j hj
    rw [ha, eligible_of_metricTMax (NeighborNode.metric_fresh a)] at hel
    exact absurd hel Bool.false_ne_true

/-! ### Path packets -/

theorem cost_pathWritten_of_ne (h : j ≠ i) : (s.pathWritten i p).cost j = s.cost j := by
  simp only [cost, total, pathWritten_item_of_ne p h]
  rfl

theorem sumFitsAt_pathWritten_of_ne (h : j ≠ i) (hs : s.SumFitsAt j) :
    (s.pathWritten i p).SumFitsAt j := by
  unfold SumFitsAt at hs ⊢
  rw [pathWritten_item_of_ne p h]
  exact hs

theorem sums_pathWritten (hs : ∀ j ∈ s.ns.used, s.SumFitsAt j)
    (hi : SumFitsAt i (s.pathWritten i p)) :
    ∀ j ∈ (s.pathWritten i p).ns.used, (s.pathWritten i p).SumFitsAt j := by
  intro j hj
  by_cases hji : j = i
  · exact hji ▸ hi
  · exact sumFitsAt_pathWritten_of_ne hji (hs j hj)

/-- Under the guard a packet of the best neighbour makes the node switch. -/
theorem switches_of_keepsBest (hbpn : s.bpn = .slot i) (hkeep : s.KeepsBest i p) :
    (s.pathWritten i p).Switches (.slot i) := by
  rcases hkeep hbpn with hi | hm | hlt
  · exact Or.inr (Or.inr (Or.inl hi.symm))
  · exact Or.inr (Or.inr (Or.inr ⟨fun h => NeighborPtr.noConfusion (hbpn.symm.trans h), hm⟩))
  · refine Or.inr (Or.inl ?_)
    have hmetric : ((s.pathWritten i p).deref (s.pathWritten i p).bpn).metric = p.bp.metric16 := by
      change ((s.pathWritten i p).deref s.bpn).metric = _
      rw [hbpn, deref_slot, pathWritten_item_self]
      exact congrArg NeighborNodeBestPath.metric16 (entryAfter_bp s i p)
    rw [hmetric]
    exact hlt

/-- **A packet that changes nothing but an entry keeps the best neighbour the best one**,
unless the node should have switched. -/
theorem best_of_pathKept (hexit : s.state.isExitNode = false)
    (hbest : s.bpn = s.findBestExitPathNeighbor) (hkeep : s.KeepsBest i p)
    (hsw : ¬ (s.pathWritten i p).Switches (.slot i)) :
    s.bpn = (s.pathWritten i p).findBestExitPathNeighbor := by
  have hnew : (s.pathWritten i p).findBestExitPathNeighbor ≠ .slot i := fun h =>
    hsw (Or.inr (Or.inr (Or.inl h.symm)))
  have hold : s.findBestExitPathNeighbor ≠ .slot i := fun h =>
    hsw (switches_of_keepsBest (hbest.trans h) hkeep)
  exact hbest.trans (findBest_of_changed (t := s.pathWritten i p) hexit hexit rfl
    (fun j _ hj => cost_pathWritten_of_ne hj) hnew hold).symm

/-! ### The keep-alive check -/

/-- Under the guard the check keeps the best neighbour the best one, or announces a new
one. -/
theorem best_of_dropped (hexit : s.state.isExitNode = false)
    (hbest : s.bpn = s.findBestExitPathNeighbor) (hun : s.BpnUnshadowed) (hlast : s.KeepsLast)
    (hsw : s.sweep.needBroadcastNewPath = true → ¬ s.dropSilent.Switches .null) :
    s.dropSilent.bpn = s.dropSilent.findBestExitPathNeighbor := by
  have hin : ∀ i, s.findBestExitPathNeighbor = .slot i → i ∈ s.ns.used := fun i hi =>
    (findBest_slot_spec hexit hi).1
  -- if the best neighbour is still there, so is its entry
  have hkept : s.sweep.bpn = s.bpn → s.dropSilent.bpn = s.dropSilent.findBestExitPathNeighbor := by
    intro hbpn
    have hkeep : ∀ i, s.findBestExitPathNeighbor = .slot i → i ∈ s.dropSilent.ns.used := by
      intro i hi
      rw [dropSilent_used]
      exact mem_sweep_of_bpn hun (hbpn.trans (hbest.trans hi)) (hin i hi)
    rw [findBest_dropSilent hexit hkeep, ← hbest]
    exact hbpn
  rcases s.sweep_bpn with hbpn | ⟨-, hnull⟩
  · exact hkept hbpn
  · rcases s.sweep_cases with hsame | ⟨i, hone, hsilent, -, -, hbpn⟩ | ⟨hneed, -⟩
    · exact hkept (by rw [hsame])
    · split at hbpn
      · next hi =>
        rw [hlast i hi hone] at hsilent
        exact absurd hsilent.symm Bool.false_ne_true
      · exact hkept hbpn
    · exact absurd (Or.inl hnull) (hsw hneed)

/-- The flag is no part of the sum either. -/
theorem sumFitsAt_of_keepAlive {b : Bool} (haddr : t.rimeaddrNodeAddr = s.rimeaddrNodeAddr)
    (hitem : t.ns.item j = (s.ns.item j).setHasSentKeepAlive b) (h : s.SumFitsAt j) :
    t.SumFitsAt j := by
  unfold SumFitsAt eligible at h ⊢
  rw [hitem, haddr]
  exact h

theorem sums_dropSilent (hs : ∀ j ∈ s.ns.used, s.SumFitsAt j) :
    ∀ j ∈ s.dropSilent.ns.used, s.dropSilent.SumFitsAt j := by
  intro j hj
  obtain ⟨b, hb⟩ := s.dropSilent_item j
  exact sumFitsAt_of_keepAlive (s := s) rfl hb (hs j (s.dropSilent_used_sublist.subset hj))

/-- What a keep-alive packet does to the entries. -/
theorem keepAlive_item (i j : ℕ) : ∃ b,
    (s.withEntry i ((s.ns.item i).setHasSentKeepAlive true)).ns.item j =
      (s.ns.item j).setHasSentKeepAlive b := by
  by_cases hji : j = i
  · exact ⟨true, hji ▸ QueueBuffer.set_item_self _ _ _⟩
  · exact ⟨(s.ns.item j).hasSentKeepAlive, QueueBuffer.set_item_of_ne _ _ hji⟩

/-- An entry nothing is known about yet is none the scan may use. -/
theorem sumFitsAt_newNeighbor {ns : Neighbors} {addr : Rimeaddr}
    (hns : neighborsAdd s.ns addr = some ns) (hs : ∀ j ∈ s.ns.used, s.SumFitsAt j)
    (hj : j ∈ ns.used) : (s.withTable ns).SumFitsAt j := by
  obtain ⟨b, hb, hused, hitem, -⟩ := QueueBuffer.pushFront_eq_some hns
  unfold SumFitsAt
  simp only [withTable, hitem]
  rw [hused, List.mem_cons] at hj
  rcases hj with rfl | hj
  · rw [Function.update_self, eligible_of_metricTMax (NeighborNode.metric_fresh _)]
    exact fun h => absurd h Bool.false_ne_true
  · have hne : j ≠ b := fun hjb => s.ns.disjoint hb (hjb ▸ hj)
    rw [Function.update_of_ne hne]
    exact hs j hj

/-! ### Every event -/

/-- The invariant is kept by every guarded path packet. -/
theorem BestInv.path {ads : List PathPacket} (h : BestInv s)
    (hg : s.state.isExitNode = false →
      SumFitsAt i (s.pathWritten i p) ∧ (s.state.hasSentNodeInfo = true → s.KeepsBest i p))
    (hpath : PathOutcome s i p s' ads) : BestInv s' := by
  have hsums : s.state.isExitNode = false →
      ∀ j ∈ (s.pathWritten i p).ns.used, (s.pathWritten i p).SumFitsAt j := by
    intro hx
    exact sums_pathWritten (h.sums hx) (hg hx).1
  cases hpath with
  | first _ _ hr =>
    have hb : BestInv (s.pathWritten i p).toBest.sentNodeInfo :=
      ⟨fun hx _ => best_of_cost (s := s.pathWritten i p) hx hx rfl rfl fun _ _ => rfl, hsums⟩
    exact hb.of_routing hr.toSameRouting
  | switched _ _ hr =>
    have hb : BestInv (s.pathWritten i p).toBest :=
      ⟨fun hx _ => best_of_cost (s := s.pathWritten i p) hx hx rfl rfl fun _ _ => rfl, hsums⟩
    exact hb.of_routing hr.toSameRouting
  | kept _ hsw hr =>
    have hb : BestInv (s.pathWritten i p) := by
      refine ⟨fun hx hsent => ?_, hsums⟩
      have hnsw : ¬ (s.pathWritten i p).Switches (.slot i) := by
        rcases hsw with hsw | ⟨-, hexit⟩
        · exact hsw
        · exact absurd (hexit.symm.trans hx) (by decide)
      exact best_of_pathKept (s := s) hx (h.best hx hsent) ((hg hx).2 hsent) hnsw
    exact hb.of_routing hr.toSameRouting

/-- The invariant is kept by every guarded event. -/
theorem BestInv.outcome {e : AppEvent × ClockReading} {ads : List PathPacket} (h : BestInv s)
    (hg : s.BestGuard e) (ho : Outcome s e.1 s' ads) : BestInv s' := by
  obtain ⟨ev, c⟩ := e
  cases ho with
  | quiet hr => exact h.of_routing hr.toSameRouting
  | resetMode _ hr _ => exact h.of_routing hr
  | configured _ hc => exact .of_configured hc
  | @newNeighbor r _ ns hns hr =>
    have hb : BestInv (s.withTable ns) := by
      refine ⟨fun hx hsent => ?_, fun hx j hj => ?_⟩
      · exact (h.best hx hsent).trans (findBest_of_newNeighbor (s := s) hx hns).symm
      · exact sumFitsAt_newNeighbor hns (h.sums hx) hj
    exact hb.of_routing hr.toSameRouting
  | @keepAlive r _ i hi hr =>
    have hb : BestInv (s.withEntry i ((s.ns.item i).setHasSentKeepAlive true)) := by
      refine ⟨fun hx hsent => ?_, fun hx j hj => ?_⟩
      · refine best_of_cost (s := s) hx hx (h.best hx hsent) rfl fun j _ => ?_
        obtain ⟨b, hb⟩ := keepAlive_item (s := s) i j
        exact cost_of_keepAlive rfl hb
      · obtain ⟨b, hb⟩ := keepAlive_item (s := s) i j
        exact sumFitsAt_of_keepAlive (s := s) rfl hb (h.sums hx j hj)
    exact hb.of_routing hr.toSameRouting
  | initialized _ hexit _ hr =>
    have hb : BestInv s.toBest.sentNodeInfo :=
      ⟨fun hx => absurd (hexit.symm.trans hx) (by decide),
        fun hx => absurd (hexit.symm.trans hx) (by decide)⟩
    exact hb.of_routing hr.toSameRouting
  | @path r _ _ i p hon hp hi hpath =>
    exact h.path (fun hx => hg hon hx i hi p hp) hpath
  | @sensed light _ _ _ hr =>
    have hb : BestInv (s.sensed light) :=
      ⟨fun hx hsent => best_of_cost (s := s) hx hx (h.best hx hsent) rfl fun _ _ => rfl, h.sums⟩
    exact hb.of_routing hr.toSameRouting
  | @sensedSent light _ _ _ _ hr =>
    have hb : BestInv (setBurning (isEmergency light) (s.sensed light)) :=
      ⟨fun hx hsent => best_of_cost (s := s) hx hx (h.best hx hsent) rfl fun _ _ => rfl, h.sums⟩
    exact hb.of_routing hr.toSameRouting
  | dropped hblink hsw hr =>
    have hb : BestInv s.dropSilent := by
      refine ⟨fun hx hsent => ?_, fun hx => sums_dropSilent (h.sums hx)⟩
      -- the guard: the best neighbour is neither shadowed nor the last one
      obtain ⟨hun, hlast⟩ := hg hblink hx hsent
      exact best_of_dropped (s := s) hx (h.best hx hsent) hun hlast hsw
    exact hb.of_routing hr.toSameRouting
  | droppedSwitched hblink _ _ hr =>
    have hb : BestInv s.dropSilent.toBest :=
      ⟨fun hx _ => best_of_cost (s := s.dropSilent) hx hx rfl rfl fun _ _ => rfl,
        fun hx => sums_dropSilent (s := s) (h.sums hx)⟩
    exact hb.of_routing hr.toSameRouting

theorem bestInv_of_reachable (h : nodeMachine.ReachableWhen BestGuard s) : BestInv s := by
  refine h.invariant ?_ ?_
  · rintro s ⟨addr, flash, rfl, -⟩
    cases flash with
    | none => exact ⟨fun _ h => absurd h Bool.false_ne_true, fun _ j hj => absurd hj List.not_mem_nil⟩
    | some f => exact .of_configured (configured_setupParse _ true _).1
  · rintro s e s' hs hok ⟨-, rfl, hc⟩
    exact hs.outcome hok (outcome_step hc)

/-- What holds of the best neighbour: it is the one the scan would choose.  A slot does not
point back, has a path that is short enough, and no entry the scan may use has a smaller
sum; without one no such entry has a sum below `METRIC_T_MAX`. -/
structure BestNeighborOk (s : Node) : Prop where
  best : s.bpn = s.findBestExitPathNeighbor
  slot : ∀ i, s.bpn = .slot i → i ∈ s.ns.used ∧
    (s.ns.item i).pointsToUs s.rimeaddrNodeAddr = false ∧ (s.ns.item i).metric ≠ metricTMax ∧
    (s.ns.item i).hops < maxNumberOfHopsToExit ∧
    ∀ j ∈ s.ns.used, s.eligible (s.ns.item j) = true →
      (s.ns.item i).dist.toNat + (s.ns.item i).metric.toNat ≤
        (s.ns.item j).dist.toNat + (s.ns.item j).metric.toNat
  maxNode : s.bpn = .maxNode → ∀ j ∈ s.ns.used, s.eligible (s.ns.item j) = true →
    metricTMax.toNat ≤ (s.ns.item j).dist.toNat + (s.ns.item j).metric.toNat

/-- A sum that does not wrap is the total the scan compares. -/
theorem toNat_total (h : s.SumFitsAt j) (hel : s.eligible (s.ns.item j) = true) :
    (s.total j).toNat = (s.ns.item j).dist.toNat + (s.ns.item j).metric.toNat := by
  rw [total, weighDistance, UInt16.toNat_add]
  exact Nat.mod_eq_of_lt (h hel)

/-- **In every run whose events all meet the guard, the best neighbour of a node that is no
exit and has sent its node info is the one the scan would choose.** -/
theorem bestNeighborOk_of_reachable (h : nodeMachine.ReachableWhen BestGuard s)
    (hexit : s.state.isExitNode = false) (hsent : s.state.hasSentNodeInfo = true) :
    BestNeighborOk s := by
  have hinv := bestInv_of_reachable h
  have hbest := hinv.best hexit hsent
  refine ⟨hbest, fun i hi => ?_, fun hmax j hj hel => ?_⟩
  · obtain ⟨hmem, hel, -, hle⟩ := findBest_slot_spec hexit (hbest.symm.trans hi)
    have hel' := hel
    simp only [eligible, Bool.and_eq_true, Bool.not_eq_true', bne_iff_ne, decide_eq_true_eq] at hel'
    refine ⟨hmem, hel'.1.1, hel'.1.2, hel'.2, fun j hj hj' => ?_⟩
    rw [← toNat_total (hinv.sums hexit i hmem) hel, ← toNat_total (hinv.sums hexit j hj) hj']
    exact hle j hj hj'
  · have hcost := (findBest_eq_maxNode_iff hexit).mp (hbest.symm.trans hmax) j hj
    rw [cost, if_pos hel, toNat_total (hinv.sums hexit j hj) hel] at hcost
    exact hcost

/-! ### Two paths, one of which gets worse -/

/-- A path packet of neighbour `addr`, with metric `metric` below `256` and its path leading
to another node. -/
def pathEvent (addr : Rimeaddr) (packet : NeighborNodeBestPath → PathPacket) (metric : UInt8) :
    AppEvent × ClockReading :=
  (.neighborRecv ⟨addr, addr, 0, 0, (packet ⟨⟨0, metric⟩, ⟨90, 0⟩, 1⟩).bytes, 10⟩, ⟨0, 0⟩)

/-- A node at `(0, 0)` hears of a path of metric `0` at distance `20` and of one of metric
`15` at distance `10`. -/
def twoPaths : List (AppEvent × ClockReading) :=
  [(.serial (.simulationSetup ⟨⟨10, 0⟩, ⟨⟨0, 0⟩, ⟨0, 0⟩⟩, 0, [⟨20, 0⟩, ⟨30, 0⟩]⟩), ⟨0, 0⟩),
   pathEvent ⟨20, 0⟩ (.nodeInfo ⟨⟨0, 0⟩, ⟨0, 20⟩⟩) 0,
   pathEvent ⟨30, 0⟩ (.nodeInfo ⟨⟨0, 0⟩, ⟨0, 10⟩⟩) 15]

/-- The first path gets worse, to a sum of `30` against `25`, but not past the other one's
raw metric. -/
def worsePath : AppEvent × ClockReading := pathEvent ⟨20, 0⟩ .bestPathUpdate 10

/-- A guarded run of the node from power-up. -/
theorem reachableWhen_of_run {ok : Node → AppEvent × ClockReading → Prop}
    [∀ s e, Decidable (ok s e)] {evs : List (AppEvent × ClockReading)}
    (hmeets : Machine.runMeets advance (fun s e => decide (ok s e)) evs
      (resetNodeProperties rimeaddrNull none) = true)
    (hrun : Machine.run advance evs (resetNodeProperties rimeaddrNull none) = some s) :
    nodeMachine.ReachableWhen ok s :=
  Machine.ReachableWhen.of_run (b := fun s e => decide (ok s e)) (fun _ _ => of_decide_eq_true)
    (fun _ _ _ => nodeMachine_step_of_advance) evs
    (.init ⟨rimeaddrNull, none, rfl, completes_nil⟩) hmeets hrun

/-- A run with both paths, in which the first is chosen. -/
theorem bestNeighborOk_twoPaths :
    ∃ s, nodeMachine.ReachableWhen BestGuard s ∧ s.bpn = .slot 0 ∧ BestNeighborOk s := by
  have h : ((Machine.run advance twoPaths (resetNodeProperties rimeaddrNull none)).map
      fun s => (s.bpn, s.state.isExitNode, s.state.hasSentNodeInfo)) =
      some (.slot 0, false, true) := by decide +kernel
  obtain ⟨s, hrun, heq⟩ := Option.map_eq_some_iff.mp h
  simp only [Prod.mk.injEq] at heq
  have hreach : nodeMachine.ReachableWhen BestGuard s :=
    reachableWhen_of_run (by decide +kernel) hrun
  exact ⟨s, hreach, heq.1, bestNeighborOk_of_reachable hreach heq.2.1 heq.2.2⟩

theorem run_worsePath :
    ∃ s, Machine.run advance (twoPaths ++ [worsePath]) (resetNodeProperties rimeaddrNull none) =
        some s ∧
      s.state.isExitNode = false ∧ s.state.hasSentNodeInfo = true ∧
      s.bpn = .slot 0 ∧ s.findBestExitPathNeighbor = .slot 1 := by
  have h : ((Machine.run advance (twoPaths ++ [worsePath])
      (resetNodeProperties rimeaddrNull none)).map fun s =>
        (s.state.isExitNode, s.state.hasSentNodeInfo, s.bpn, s.findBestExitPathNeighbor)) =
      some (false, true, .slot 0, .slot 1) := by decide +kernel
  obtain ⟨s, hs, heq⟩ := Option.map_eq_some_iff.mp h
  simp only [Prod.mk.injEq] at heq
  exact ⟨s, hs, heq⟩

/-- **A best neighbour that gets worse can be kept although another is better.** -/
theorem not_bestNeighbor :
    ¬ ∀ s : Node, nodeMachine.Reachable s → s.state.isExitNode = false →
      s.state.hasSentNodeInfo = true → s.bpn = s.findBestExitPathNeighbor := by
  obtain ⟨s, hrun, hexit, hsent, hbpn, hbest⟩ := run_worsePath
  intro h
  have hsame := h s (reachable_of_run hrun) hexit hsent
  rw [hbpn, hbest] at hsame
  exact absurd hsame (by decide)

end Node

end EmergencyNet
