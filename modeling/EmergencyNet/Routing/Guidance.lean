import EmergencyNet.App.Setup
import EmergencyNet.Routing.KeepAlive
import EmergencyNet.Routing.Metric

/-!
# Where the best paths of a node come from

An exit advertises no hops.  Every other node advertises one hop more than its best neighbour did,
so the hops it advertises are those of a way to it, if those its neighbours advertised were.  Only a
node without a path makes one up: it advertises the greatest metric, and when it burns the sum wraps
and it advertises a path of one hop.  The invariant is about any set of numbers of hops, into which
an exit puts zero and a fire one.

## Main definitions

* `Advertises`, `Believes` — what is said of a best path by who sends it, and by who has it.
* `Node.Equipped` — what `setup_parse` does to the neighbour nodes.
* `Node.Guided` — the invariant of a node.

## Main results

* `Node.Guided.advertises` — a node advertises the hops of a way to it.
* `Node.Guided.step` — **an event keeps the invariant, and announces such paths only.**
-/

namespace EmergencyNet

variable {Comes Comes' : UInt8 → Prop}

/-- A node to which ways come over the numbers of hops in `Comes` advertises the path `bp`: there is
no path, or a way over its hops. -/
def Advertises (Comes : UInt8 → Prop) (bp : NeighborNodeBestPath) : Prop :=
  bp.metric16 = metricTMax ∨ Comes bp.hops

/-- Such a node has the path `bp` from a neighbour, from which it is one hop more. -/
def Believes (Comes : UInt8 → Prop) (bp : NeighborNodeBestPath) : Prop :=
  bp.metric16 = metricTMax ∨ Comes (bp.hops + 1)

theorem Believes.mono {bp : NeighborNodeBestPath} (h : Believes Comes bp)
    (hle : ∀ k, Comes k → Comes' k) : Believes Comes' bp := h.imp_right (hle _)

theorem believes_fresh (addr : Rimeaddr) : Believes Comes (NeighborNode.fresh addr).bp :=
  .inl metric16_max

namespace Node

variable {s t s' : Node} {i j : ℕ}

/-! ### Setting up -/

/-- Adding neighbours leaves an entry alone or makes a fresh one. -/
theorem item_addNeighbors : ∀ (l : List Rimeaddr) (s : Node) (i : ℕ),
    (addNeighbors l s).ns.item i = s.ns.item i ∨
      ∃ a, (addNeighbors l s).ns.item i = NeighborNode.fresh a := by
  intro l
  induction l with
  | nil => exact fun s i => .inl rfl
  | cons a rest ih =>
    intro s i
    cases hns : neighborsAdd s.ns a with
    | none =>
      simp only [addNeighbors, hns]
      exact ih _ i
    | some ns =>
      simp only [addNeighbors, hns]
      obtain ⟨b, -, -, hitem, -⟩ := QueueBuffer.pushFront_eq_some hns
      rcases ih { s with ns := ns } i with heq | hfresh
      · rw [heq]
        simp only [hitem]
        by_cases hib : i = b
        · subst hib
          exact .inr ⟨a, Function.update_self ..⟩
        · exact .inl (Function.update_of_ne hib ..)
      · exact .inr hfresh

/-- What `setup_parse` does to the neighbour nodes, those in use and the others. -/
structure Equipped (s t : Node) : Prop extends Configured s t where
  item : ∀ i, t.ns.item i = s.ns.item i ∨ ∃ a, t.ns.item i = NeighborNode.fresh a
  /-- The exit node of an exit is there, at hops `-1`. -/
  exitNode : t.exitNode.metric = 0 ∧ t.exitNode.hops = -1 ∨
    t.state.isExitNode = false ∧ t.exitNode.bp = s.exitNode.bp

theorem equipped_setupParse (m : List UInt8) (b : Bool) (s : Node) :
    Equipped s (setupParse m b s) := by
  refine { (configured_setupParse m b s).1 with item := fun i => ?_, exitNode := ?_ }
  · have hitem := item_addNeighbors (SetupPacket.read m).neighbors
      (setupCleared (SetupPacket.read m) s) i
    have hns : (setupParse m b s).ns = (addNeighbors (SetupPacket.read m).neighbors
        (setupCleared (SetupPacket.read m) s)).ns := by
      unfold setupParse setupFinished
      simp only
      split <;> rfl
    rw [hns]
    exact hitem
  · obtain ⟨calls, heq, -⟩ :=
      addNeighbors_eq (SetupPacket.read m).neighbors (setupCleared (SetupPacket.read m) s)
    unfold setupParse
    simp only
    rw [heq]
    cases (SetupPacket.read m).isExitNode != 0 with
    | true => exact .inl ⟨(by decide : uint8ToUint16 ⟨0, 0⟩ = 0), rfl⟩
    | false => exact .inr ⟨rfl, rfl⟩

/-- What is left of the relation when the code around `setup_parse` is taken in. -/
theorem Equipped.of_eq {u u' : Node} (h : Equipped u u') (hs : SameRouting s u)
    (hns : t.ns = u'.ns) (hbpn : t.bpn = u'.bpn) (hexit : t.exitNode = u'.exitNode)
    (hmax : t.maxNode = u'.maxNode) (hecNs : t.ecNs = u'.ecNs)
    (hburn : t.state.isBurning = u'.state.isBurning)
    (hisExit : t.state.isExitNode = u'.state.isExitNode)
    (hsent : t.state.hasSentNodeInfo = u'.state.hasSentNodeInfo) : Equipped s t where
  ecNs := hecNs.trans h.ecNs
  bpn := hbpn.trans (h.bpn.trans hs.bpn)
  maxNode := by rw [hmax, h.maxNode, hs.maxNode]
  fresh := hns ▸ h.fresh
  hasSentNodeInfo := hsent.trans h.hasSentNodeInfo
  isBurning := hburn.trans h.isBurning
  item := by
    rw [hns, ← hs.ns]
    exact h.item
  exitNode := by
    rw [hexit, hisExit, ← hs.exitNode]
    exact h.exitNode

/-- A reset sets the node up anew or leaves its routing alone. -/
theorem equipped_resetSystem (s : Node) :
    Equipped s s.resetSystemPacketHandler ∨ SameRouting s s.resetSystemPacketHandler := by
  unfold resetSystemPacketHandler
  cases s.flash with
  | none => exact .inr ⟨rfl⟩
  | some f =>
    have h := equipped_setupParse (memRead f setupBufferSize) true s
    exact .inl (h.of_eq ⟨rfl⟩ rfl rfl rfl rfl rfl rfl rfl rfl)

/-- The reset that follows when the packet is passed on. -/
theorem equipped_passedReset (c : EcCall) : Equipped s (s.call c).resetSystemPacketHandler ∨
    SameRouting s (s.call c).resetSystemPacketHandler := by
  have hcall : SameRouting s (s.call c) := ⟨rfl⟩
  rcases equipped_resetSystem (s.call c) with h | h
  · exact .inl (h.of_eq hcall rfl rfl rfl rfl rfl rfl rfl rfl)
  · exact .inr ⟨h.routing.trans hcall.routing⟩

/-- **An event that may set the node up does so or leaves its routing alone.** -/
theorem equipped_step {e : AppEvent × ClockReading} (h : e.1.Reconfigures) :
    Equipped s (s.step e) ∨ SameRouting s (s.step e) := by
  obtain ⟨ev, c⟩ := e
  have hwake : SameRouting s (s.wake c) := ⟨rfl⟩
  suffices hhandle : Equipped (s.wake c) (handle ev (s.wake c)) ∨
      SameRouting (s.wake c) (handle ev (s.wake c)) by
    rcases hhandle with hset | hsame
    · exact .inl (hset.of_eq hwake rfl rfl rfl rfl rfl rfl rfl rfl)
    · exact .inr ⟨hsame.routing.trans hwake.routing⟩
  generalize s.wake c = s at h ⊢
  cases ev with
  | broadcastRecv r =>
    change Equipped s (ecBroadcastsRecv r s) ∨ SameRouting s (ecBroadcastsRecv r s)
    unfold ecBroadcastsRecv
    split
    · exact .inr ⟨rfl⟩
    split
    · refine .inr ⟨?_⟩
      rw [sinkBroadcastsRecv]
      rcases h with ht | ht <;> rw [ht]
    · rw [sensorBroadcastsRecv]
      rcases h with ht | ht <;> rw [ht] <;> simp only
      · split
        · have hset := equipped_setupParse r.data false
            { s with state := { s.state with isAwaitingSetupPacket := false } }
          exact .inl (hset.of_eq ⟨rfl⟩ rfl rfl rfl rfl rfl rfl rfl rfl)
        · exact .inr ⟨rfl⟩
      · exact equipped_passedReset _
  | neighborRecv r =>
    change Equipped s (ecNeighborsRecv r s) ∨ SameRouting s (ecNeighborsRecv r s)
    unfold ecNeighborsRecv
    split
    · exact .inr ⟨rfl⟩
    split
    · exact .inr ⟨rfl⟩
    · rw [neighborsRecv, show packetTypeAt r.data = some .resetSystem from h]
      exact equipped_passedReset _
  | serial c =>
    cases c with
    | simulationSetup sp => exact .inl (equipped_setupParse sp.bytes false s)
    | sink =>
      have hset := equipped_setupParse (PacketType.setup.toByte :: List.replicate 10 0) false s
      exact .inl (hset.of_eq ⟨rfl⟩ rfl rfl rfl rfl rfl rfl rfl rfl)
    | _ => exact h.elim
  | _ => exact h.elim

/-! ### The invariant -/

/-- What a node knows of ways, whichever neighbour it takes for the best one. -/
structure Informed (Comes : UInt8 → Prop) (s : Node) : Prop where
  burning : s.state.isBurning = true → Comes 1
  exit : s.state.isExitNode = true → Comes 0 ∧ s.exitNode.metric = 0 ∧ s.exitNode.hops = -1
  table : ∀ i ∈ s.ns.used, Believes Comes (s.ns.item i).bp
  maxNode : s.maxNode.dist = 0 ∧ s.maxNode.hops = 0 ∧
    (s.ecNs = true → s.maxNode.metric = metricTMax)

/-- The invariant of a node: its best neighbour has a path that leads to it, or is one of which
nothing is known yet. -/
structure Guided (Comes : UInt8 → Prop) (s : Node) : Prop extends Informed Comes s where
  best : ∀ i, s.bpn = .slot i → Believes Comes (s.ns.item i).bp ∧
    ((s.ns.item i).metric = metricTMax → (s.ns.item i).dist = 0 ∧ (s.ns.item i).hops = 0)
  bestExit : s.bpn = .exitNode → Comes 0 ∧ s.exitNode.hops = -1
  sent : s.state.isExitNode = true → s.state.hasSentNodeInfo = true → s.bpn = .exitNode

/-- A fresh entry. -/
theorem fresh_unknown (addr : Rimeaddr) :
    (NeighborNode.fresh addr).dist = 0 ∧ (NeighborNode.fresh addr).hops = 0 :=
  ⟨(by decide : uint8ToUint16 ⟨0, 0⟩ = 0), rfl⟩

theorem Informed.mono (h : Informed Comes s) (hle : ∀ k, Comes k → Comes' k) :
    Informed Comes' s where
  burning hb := hle _ (h.burning hb)
  exit he := ⟨hle _ (h.exit he).1, (h.exit he).2⟩
  table i hi := (h.table i hi).mono hle
  maxNode := h.maxNode

theorem Guided.mono (h : Guided Comes s) (hle : ∀ k, Comes k → Comes' k) : Guided Comes' s where
  toInformed := h.toInformed.mono hle
  best i hi := ⟨(h.best i hi).1.mono hle, (h.best i hi).2⟩
  bestExit hx := ⟨hle _ (h.bestExit hx).1, (h.bestExit hx).2⟩
  sent := h.sent

theorem Informed.of_routing (h : Informed Comes s) (hr : SameRouting s t) : Informed Comes t where
  burning := by rw [hr.isBurning]; exact h.burning
  exit := by rw [hr.isExitNode, hr.exitNode]; exact h.exit
  table := by rw [hr.ns]; exact h.table
  maxNode := by rw [hr.maxNode, hr.ecNs]; exact h.maxNode

theorem Guided.of_routing (h : Guided Comes s) (hr : SameRouting s t) : Guided Comes t where
  toInformed := h.toInformed.of_routing hr
  best := by rw [hr.ns, hr.bpn]; exact h.best
  bestExit := by rw [hr.bpn, hr.exitNode]; exact h.bestExit
  sent := by rw [hr.isExitNode, hr.hasSentNodeInfo, hr.bpn]; exact h.sent

/-! ### What is advertised -/

/-- **A node advertises the hops of a way to it**, or no path. -/
theorem Guided.advertises (h : Guided Comes s) (hns : s.ecNs = true) (hbpn : s.bpn ≠ .null) :
    Advertises Comes s.bestNeighborBpToOurBp := by
  have hhops : s.bestNeighborBpToOurBp.hops = (s.deref s.bpn).hops + 1 := rfl
  have hmetric : s.bestNeighborBpToOurBp.metric16 =
      (s.deref s.bpn).metric + s.weighMetrics (s.deref s.bpn).dist := uint8ToUint16_uint16ToUint8 _
  -- a best neighbour without a path: the fire of the node itself adds to the greatest metric
  have hnone : (s.deref s.bpn).metric = metricTMax → (s.deref s.bpn).dist = 0 →
      (s.deref s.bpn).hops = 0 → Advertises Comes s.bestNeighborBpToOurBp := by
    intro hm hd hh
    cases hburn : s.state.isBurning with
    | true =>
      right
      rw [hhops, hh]
      exact h.burning hburn
    | false =>
      left
      rw [hmetric, hm, hd, weighMetrics, hburn]
      rfl
  cases hptr : s.bpn with
  | null => exact absurd hptr hbpn
  | exitNode =>
    obtain ⟨hzero, hh⟩ := h.bestExit hptr
    right
    rw [hhops, hptr, deref_exitNode, hh]
    exact hzero
  | maxNode =>
    obtain ⟨hd, hh, hm⟩ := h.maxNode
    rw [hptr, deref_maxNode] at hnone
    exact hnone (hm hns) hd hh
  | slot i =>
    obtain ⟨hbelieves, hunknown⟩ := h.best i hptr
    rw [hptr, deref_slot] at hnone
    rcases hbelieves with hm | hcomes
    · obtain ⟨hd, hh⟩ := hunknown hm
      exact hnone hm hd hh
    · right
      rw [hhops, hptr, deref_slot]
      exact hcomes

/-- What the announcement of a path puts into the queue. -/
theorem ecNs_of_mem_announce {p q : PathPacket} (h : p ∈ s.announce q) : p = q ∧ s.ecNs = true := by
  unfold announce at h
  split at h
  · next hon => exact ⟨List.mem_singleton.mp h, hon.1⟩
  · cases h

theorem Guided.announces (h : Guided Comes s) (hs : s.ecNs = t.ecNs) {p q : PathPacket}
    (hbpn : s.bpn ≠ .null) (hq : q.bp = s.bestNeighborBpToOurBp) (hp : p ∈ t.announce q) :
    Advertises Comes p.bp := by
  obtain ⟨rfl, hns⟩ := ecNs_of_mem_announce hp
  rw [hq]
  exact h.advertises (hs.trans hns) hbpn

/-! ### What the code for an event does -/

/-- The node switches to the best neighbour it knows. -/
theorem Informed.toBest (h : Informed Comes s) : Guided Comes s.toBest := by
  refine ⟨⟨h.burning, h.exit, h.table, h.maxNode⟩, fun i hi => ?_, fun hx => ?_, fun he _ => ?_⟩
  · have hexit : s.state.isExitNode = false := by
      by_contra hne
      rw [toBest_bpn, findBest_exit (Bool.eq_true_of_not_eq_false hne)] at hi
      cases hi
    obtain ⟨hmem, hel, -⟩ := findBest_slot_spec hexit hi
    refine ⟨h.table i hmem, fun hm => ?_⟩
    cases hel.symm.trans (eligible_of_metricTMax hm)
  · have hexit : s.state.isExitNode = true := by
      by_contra hne
      rw [toBest_bpn] at hx
      rcases findBest_slot_or_maxNode (Bool.eq_false_of_not_eq_true hne) with ⟨i, hi⟩ | hm
      · cases hi.symm.trans hx
      · cases hm.symm.trans hx
    exact ⟨(h.exit hexit).1, (h.exit hexit).2.2⟩
  · exact findBest_exit he

/-- The node has sent its node info, with the path through the best neighbour it knows. -/
theorem Informed.sentNodeInfo (h : Informed Comes s) : Guided Comes s.toBest.sentNodeInfo :=
  let hbest := h.toBest
  ⟨⟨h.burning, h.exit, h.table, h.maxNode⟩, hbest.best, hbest.bestExit,
    fun he _ => findBest_exit (s := s) he⟩

/-- A path packet is written to the table. -/
theorem Informed.pathWritten {p : PathPacket} (h : Informed Comes s) (hp : Believes Comes p.bp) :
    Informed Comes (s.pathWritten i p) := by
  refine ⟨h.burning, h.exit, fun j hj => ?_, h.maxNode⟩
  by_cases hji : j = i
  · subst hji
    rw [pathWritten_item_self, entryAfter_bp]
    exact hp
  · rw [pathWritten_item_of_ne p hji]
    exact h.table j hj

/-- A node that does not switch after a path packet of its best neighbour has a path still. -/
theorem metric_ne_of_kept {p : PathPacket} (h : Informed Comes s)
    (hbpn : s.bpn = .slot i) (hsw : ¬ (s.pathWritten i p).Switches (.slot i)) :
    ((s.pathWritten i p).ns.item i).metric ≠ metricTMax := by
  intro hm
  have hderef : ((s.pathWritten i p).deref (s.pathWritten i p).bpn).metric = metricTMax := by
    change ((s.pathWritten i p).deref s.bpn).metric = _
    rw [hbpn]
    exact hm
  obtain ⟨-, hless, -, hlast⟩ : _ ∧ _ ∧ _ ∧ _ := by
    simpa only [Switches, not_or] using hsw
  cases hx : s.state.isExitNode with
  | true =>
    -- an exit switches to itself
    have hbest : (s.pathWritten i p).findBestExitPathNeighbor = .exitNode :=
      findBest_exit (s := s.pathWritten i p) hx
    rw [hbest, hderef] at hless
    change ¬ s.exitNode.metric < _ at hless
    rw [(h.exit hx).2.1] at hless
    exact hless (by decide)
  | false =>
    rcases findBest_slot_or_maxNode (s := s.pathWritten i p) hx with ⟨j, hj⟩ | hmax
    · obtain ⟨-, hel, -⟩ := findBest_slot_spec (s := s.pathWritten i p) hx hj
      rw [hj, hderef] at hless
      have hle : ((s.pathWritten i p).ns.item j).metric = metricTMax := by
        have hmetric := UInt16.not_lt.mp hless
        exact UInt16.le_antisymm (UInt16.le_iff_toNat_le.mpr
          (Nat.le_of_lt_succ (UInt16.toNat_lt _))) hmetric
      rw [eligible_of_metricTMax hle] at hel
      cases hel
    · refine hlast ⟨?_, hmax⟩
      change s.bpn ≠ _
      rw [hbpn]
      exact NeighborPtr.noConfusion

/-- The node keeps its best neighbour after a path packet. -/
theorem Guided.pathKept {p : PathPacket} (h : Guided Comes s) (hp : Believes Comes p.bp)
    (hsw : ¬ (s.pathWritten i p).Switches (.slot i) ∨
      s.state.hasSentNodeInfo = true ∧ s.state.isExitNode = true) :
    Guided Comes (s.pathWritten i p) := by
  refine ⟨h.toInformed.pathWritten hp, fun j hj => ?_, h.bestExit, h.sent⟩
  change s.bpn = .slot j at hj
  by_cases hji : j = i
  · subst hji
    refine ⟨by rw [pathWritten_item_self, entryAfter_bp]; exact hp, fun hm => ?_⟩
    rcases hsw with hsw | ⟨hsent, hexit⟩
    · exact absurd hm (metric_ne_of_kept h.toInformed hj hsw)
    · cases hj.symm.trans (h.sent hexit hsent)
  · rw [pathWritten_item_of_ne p hji]
    exact h.best j hj

/-- An entry is changed in what no path depends on. -/
theorem Guided.withEntries (h : Guided Comes s) {ns : Neighbors} {ptr : NeighborPtr}
    (hused : ∀ i ∈ ns.used, i ∈ s.ns.used)
    (hitem : ∀ i, ∃ b, ns.item i = (s.ns.item i).setHasSentKeepAlive b)
    (hptr : ptr = s.bpn ∨ ptr = .null ∧ ∃ i, s.bpn = .slot i) :
    Guided Comes { s with ns := ns, bpn := ptr } := by
  have hbest : ∀ i, ptr = .slot i → s.bpn = .slot i := by
    rintro i rfl
    rcases hptr with heq | ⟨hnull, -⟩
    · exact heq.symm
    · cases hnull
  refine ⟨⟨h.burning, h.exit, fun i hi => ?_, h.maxNode⟩, fun i hi => ?_, fun hx => ?_,
    fun he hsent => ?_⟩
  · obtain ⟨b, hb⟩ := hitem i
    change Believes Comes (ns.item i).bp
    rw [hb]
    exact h.table i (hused i hi)
  · obtain ⟨b, hb⟩ := hitem i
    change Believes Comes (ns.item i).bp ∧
      ((ns.item i).metric = _ → (ns.item i).dist = 0 ∧ (ns.item i).hops = 0)
    rw [hb]
    exact h.best i (hbest i hi)
  · rcases hptr with heq | ⟨hnull, -⟩
    · exact h.bestExit (heq.symm.trans hx)
    · cases hnull.symm.trans hx
  · rcases hptr with heq | ⟨-, i, hi⟩
    · exact heq.trans (h.sent he hsent)
    · cases hi.symm.trans (h.sent he hsent)

/-- The node drops its silent neighbours. -/
theorem Guided.dropSilent (h : Guided Comes s) : Guided Comes s.dropSilent := by
  refine h.withEntries (fun i hi => s.dropSilent_used_sublist.subset hi) s.dropSilent_item ?_
  rcases s.sweep_bpn with heq | ⟨⟨i, -, hi, -⟩, hnull⟩
  · exact .inl heq
  · exact .inr ⟨hnull, i, hi⟩

/-- A neighbour makes itself known. -/
theorem Guided.newNeighbor (h : Guided Comes s) {ns : Neighbors} {addr : Rimeaddr}
    (hns : neighborsAdd s.ns addr = some ns) : Guided Comes (s.withTable ns) := by
  obtain ⟨b, hb, hused, hitem, -⟩ := QueueBuffer.pushFront_eq_some hns
  have hcases : ∀ i, i = b ∧ ns.item i = NeighborNode.fresh addr ∨
      i ≠ b ∧ ns.item i = s.ns.item i := by
    intro i
    rw [hitem]
    by_cases hib : i = b
    · subst hib
      exact .inl ⟨rfl, Function.update_self ..⟩
    · exact .inr ⟨hib, Function.update_of_ne hib ..⟩
  refine ⟨⟨h.burning, h.exit, fun i hi => ?_, h.maxNode⟩, fun i hi => ?_, h.bestExit, h.sent⟩
  · change i ∈ ns.used at hi
    change Believes Comes (ns.item i).bp
    rcases hcases i with ⟨-, heq⟩ | ⟨hne, heq⟩ <;> rw [heq]
    · exact believes_fresh addr
    · rw [hused, List.mem_cons] at hi
      exact h.table i (hi.resolve_left hne)
  · change Believes Comes (ns.item i).bp ∧
      ((ns.item i).metric = _ → (ns.item i).dist = 0 ∧ (ns.item i).hops = 0)
    rcases hcases i with ⟨-, heq⟩ | ⟨-, heq⟩ <;> rw [heq]
    · exact ⟨believes_fresh addr, fun _ => fresh_unknown addr⟩
    · exact h.best i hi

/-- The node is set up. -/
theorem Guided.equipped (h : Guided Comes s) (he : Equipped s t)
    (hexit : t.state.isExitNode = true → Comes 0) : Guided Comes t := by
  have hmax := he.maxNode
  refine ⟨⟨fun hburn => ?_, fun hx => ?_, fun i hi => ?_, ?_⟩, fun i hi => ?_, fun hx => ?_,
    fun _ hsent => ?_⟩
  · rw [he.isBurning] at hburn
    cases hburn
  · rcases he.exitNode with hnode | ⟨hno, -⟩
    · exact ⟨hexit hx, hnode⟩
    · cases hno.symm.trans hx
  · obtain ⟨a, ha⟩ := he.fresh i hi
    rw [ha]
    exact believes_fresh a
  · rw [hmax]
    exact ⟨h.maxNode.1, rfl, fun _ => metric16_max⟩
  · rw [he.bpn] at hi
    rcases he.item i with heq | ⟨a, heq⟩ <;> rw [heq]
    · exact h.best i hi
    · exact ⟨believes_fresh a, fun _ => fresh_unknown a⟩
  · obtain ⟨hzero, hhops⟩ := h.bestExit (he.bpn.symm.trans hx)
    rcases he.exitNode with hnode | ⟨-, hsame⟩
    · exact ⟨hzero, hnode.2⟩
    · refine ⟨hzero, ?_⟩
      rw [NeighborNode.hops, hsame]
      exact hhops
  · rw [he.hasSentNodeInfo] at hsent
    cases hsent

/-! ### An event -/

/-- What is asked of an event: a reading of a fire is a fire here, and a path packet brings a path
that leads here. -/
structure BringsWays (Comes : UInt8 → Prop) (ev : AppEvent) : Prop where
  fire : ∀ light, ev = .emergencyCheck light → isEmergency light = true → Comes 1
  path : ∀ r p, ev = .neighborRecv r → advertOf r.data = some p → Believes Comes p.bp

theorem BringsWays.mono {ev : AppEvent} (h : BringsWays Comes ev)
    (hle : ∀ k, Comes k → Comes' k) : BringsWays Comes' ev where
  fire light hlight hem := hle _ (h.fire light hlight hem)
  path r p hr hp := (h.path r p hr hp).mono hle

/-- A path packet is handled. -/
theorem Guided.path {p : PathPacket} {ads : List PathPacket} (h : Guided Comes s)
    (hp : Believes Comes p.bp) (ho : PathOutcome s i p s' ads) :
    Guided Comes s' ∧ ∀ q ∈ ads, Advertises Comes q.bp := by
  have hbest : Guided Comes (s.pathWritten i p).toBest := (h.toInformed.pathWritten hp).toBest
  cases ho with
  | first _ _ hr =>
    exact ⟨(h.toInformed.pathWritten hp).sentNodeInfo.of_routing hr.toSameRouting,
      fun q => hbest.announces rfl findBest_ne_null rfl⟩
  | switched _ _ hr =>
    exact ⟨hbest.of_routing hr.toSameRouting, fun q => hbest.announces rfl findBest_ne_null rfl⟩
  | kept _ hsw hr =>
    exact ⟨(h.pathKept hp hsw).of_routing hr.toSameRouting, fun q hq => absurd hq List.not_mem_nil⟩

/-- What an outcome announces; a new set-up is left out, for the outcome does not say what becomes
of the exit node. -/
theorem Guided.outcome {ev : AppEvent} {ads : List PathPacket} (h : Guided Comes s)
    (hev : BringsWays Comes ev) (ho : Outcome s ev s' ads) :
    (¬ ev.Reconfigures → Guided Comes s') ∧ ∀ p ∈ ads, Advertises Comes p.bp := by
  have hnone : ∀ p ∈ ([] : List PathPacket), Advertises Comes p.bp :=
    fun p hp => absurd hp List.not_mem_nil
  cases ho with
  | quiet hr => exact ⟨fun _ => h.of_routing hr.toSameRouting, hnone⟩
  | configured hre => exact ⟨fun hnot => absurd hre hnot, hnone⟩
  | resetMode hre => exact ⟨fun hnot => absurd hre hnot, hnone⟩
  | newNeighbor hns hr => exact ⟨fun _ => (h.newNeighbor hns).of_routing hr.toSameRouting, hnone⟩
  | @keepAlive r _ i hi hr =>
    refine ⟨fun _ => Guided.of_routing ?_ hr.toSameRouting, hnone⟩
    refine h.withEntries (fun _ => id) (fun j => ?_) (.inl rfl)
    by_cases hji : j = i
    · subst hji
      exact ⟨true, QueueBuffer.set_item_self ..⟩
    · exact ⟨(s.ns.item j).hasSentKeepAlive, QueueBuffer.set_item_of_ne _ _ hji⟩
  | initialized _ _ _ hr =>
    exact ⟨fun _ => h.sentNodeInfo.of_routing hr.toSameRouting,
      fun q => h.toBest.announces rfl findBest_ne_null rfl⟩
  | path _ hp _ hpath =>
    obtain ⟨hs', hads⟩ := h.path (hev.path _ _ rfl hp) hpath
    exact ⟨fun _ => hs', hads⟩
  | @sensed light _ _ _ hr =>
    have hsensed : Guided Comes (s.sensed light) :=
      ⟨⟨h.burning, h.exit, h.table, h.maxNode⟩, h.best, h.bestExit, h.sent⟩
    exact ⟨fun _ => hsensed.of_routing hr.toSameRouting, hnone⟩
  | @sensedSent light _ _ hbpn _ hr _ =>
    have hset : Guided Comes (setBurning (isEmergency light) (s.sensed light)) :=
      ⟨⟨hev.fire light rfl, h.exit, h.table, h.maxNode⟩, h.best, h.bestExit, h.sent⟩
    exact ⟨fun _ => hset.of_routing hr.toSameRouting, fun q => hset.announces rfl hbpn rfl⟩
  | dropped _ _ hr => exact ⟨fun _ => h.dropSilent.of_routing hr.toSameRouting, hnone⟩
  | droppedSwitched _ _ _ hr =>
    exact ⟨fun _ => h.dropSilent.toBest.of_routing hr.toSameRouting,
      fun q => h.dropSilent.toBest.announces rfl findBest_ne_null rfl⟩

/-- **An event keeps the invariant, and announces paths that lead to the node only.** -/
theorem Guided.step {e : AppEvent × ClockReading} (h : Guided Comes s) (hev : BringsWays Comes e.1)
    (hc : Completes (s.step e).calls) (hexit : (s.step e).state.isExitNode = true → Comes 0) :
    Guided Comes (s.step e) ∧ ∀ p ∈ adverts (s.step e).calls, Advertises Comes p.bp := by
  obtain ⟨hkept, hads⟩ := h.outcome hev (outcome_step hc)
  refine ⟨?_, hads⟩
  by_cases hre : e.1.Reconfigures
  · rcases equipped_step (s := s) hre with he | hr
    · exact h.equipped he hexit
    · exact h.of_routing hr
  · exact hkept hre

/-- A node that has powered up knows of no way, but that it is an exit. -/
theorem guided_resetNodeProperties {addr : Rimeaddr} {flash : Option (List UInt8)}
    (hexit : (resetNodeProperties addr flash).state.isExitNode = true → Comes 0) :
    Guided Comes (resetNodeProperties addr flash) := by
  have hzero : Guided Comes (zero addr flash) := by
    have hdist : (zero addr flash).maxNode.dist = 0 := (by decide : uint8ToUint16 ⟨0, 0⟩ = 0)
    refine ⟨⟨fun hb => ?_, fun hx => ?_, fun i hi => ?_, hdist, rfl, fun hns => ?_⟩, fun i hi => ?_,
      fun hx => ?_, fun hx => ?_⟩
    · cases hb
    · cases hx
    · cases hi
    · cases hns
    · cases hi
    · cases hx
    · cases hx
  cases flash with
  | none => exact hzero
  | some f => exact hzero.equipped (equipped_setupParse _ true _) hexit

end Node

end EmergencyNet
