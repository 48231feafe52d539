import EmergencyNet.Routing.Network

/-!
# A node's path only gets better

As long as nothing burns, and what a neighbour announces is no worse than what it announced
before, a node that has a path keeps one and never announces a worse one.  A path that leads
back to the node is longer than the node's own, so the best neighbour never starts to lead
back.

## Main definitions

* `Topology.Tabled`, `Topology.Chosen` — what a table holds, and the choice made from it.
* `Topology.Reported` — what a node does once its table is written.

## Main results

* `Topology.reported_path`, `Topology.reported_initializes` — **every event of a formation
  reports a path that is no worse.**
-/

namespace EmergencyNet

open Node

namespace Topology

variable {V : Type*} {T : Topology V} {n n' : Net V} {u v w : V} {s t s' : Node} {i j : ℕ}
  {p : PathPacket} {ads : List PathPacket} {last : Option NeighborNodeBestPath}
  {bp : NeighborNodeBestPath}

/-- The distance from `v` to `w`. -/
def dist (T : Topology V) (v w : V) : ℕ := manhattan (T.coord w) (T.coord v)

theorem dist_comm (T : Topology V) (v w : V) : T.dist v w = T.dist w v := manhattan_comm _ _

theorem dist_pos (h : w ∈ T.nbrs v) : 0 < T.dist v w := by
  have hpos := UInt16.lt_iff_toNat_lt.mp (T.pos h)
  rw [toNat_coordinateDistance] at hpos
  by_contra hzero
  rw [show manhattan (T.coord w) (T.coord v) = 0 by unfold dist at hzero; omega] at hpos
  exact absurd hpos (by decide)

/-! ### The table of a node -/

/-- A path `v` has heard from `w`: it is finite and short, and leads back to `v` or gives a
sum below `METRIC_T_MAX`. -/
structure Heard (T : Topology V) (v w : V) (bp : NeighborNodeBestPath) : Prop where
  metric : bp.metric16 ≠ metricTMax
  hops : bp.hops < maxNumberOfHopsToExit
  sum : bp.pointsTo = T.addr v ∨ bp.metric16.toNat + T.dist v w < 65535

/-- The table of `v` holds paths that were heard, at their distances, and nothing burns. -/
structure Tabled (T : Topology V) (v : V) (s : Node) : Prop where
  addr : s.rimeaddrNodeAddr = T.addr v
  calm : s.state.isBurning = false
  entry : ∀ j ∈ s.ns.used, ∃ w ∈ T.nbrs v, (s.ns.item j).addr = T.addr w ∧
    ((s.ns.item j).bp = neighborNodeBestPathMax ∨ T.Heard v w (s.ns.item j).bp ∧
      (s.ns.item j).dist = coordinateDistance (T.coord w) (T.coord v))

/-- An entry that leads elsewhere may be used. -/
theorem eligible_of_heard {nn : NeighborNode} (h : T.Heard v w nn.bp)
    (haddr : s.rimeaddrNodeAddr = T.addr v) (hnot : nn.bp.pointsTo ≠ T.addr v) :
    s.eligible nn = true := by
  have hmetric : nn.metric ≠ metricTMax := h.metric
  have hhops : nn.hops < maxNumberOfHopsToExit := h.hops
  simp [eligible, NeighborNode.pointsToUs, haddr, hnot, hmetric, hhops]

theorem pointsTo_of_eligible {nn : NeighborNode} (h : s.eligible nn = true) :
    nn.bp.pointsTo ≠ s.rimeaddrNodeAddr := by
  simp only [eligible, NeighborNode.pointsToUs, Bool.and_eq_true, Bool.not_eq_true',
    beq_eq_false_iff_ne] at h
  exact h.1.1

/-- What an entry costs is the exact sum of metric and distance. -/
theorem Tabled.cost (h : T.Tabled v s) (hj : j ∈ s.ns.used)
    (hel : s.eligible (s.ns.item j) = true) :
    ∃ w ∈ T.nbrs v, (s.ns.item j).addr = T.addr w ∧ T.Heard v w (s.ns.item j).bp ∧
      s.cost j = (s.ns.item j).metric.toNat + T.dist v w ∧ s.cost j < 65535 := by
  obtain ⟨w, hw, haddr, hmax | ⟨hheard, hd⟩⟩ := h.entry j hj
  · have hm : (s.ns.item j).metric = metricTMax :=
      (congrArg NeighborNodeBestPath.metric16 hmax).trans metric16_max
    rw [eligible_of_metricTMax hm] at hel
    exact absurd hel Bool.false_ne_true
  · have hsum : (s.ns.item j).metric.toNat + T.dist v w < 65535 :=
      hheard.sum.resolve_left (h.addr ▸ pointsTo_of_eligible hel)
    have hdist : (s.ns.item j).dist.toNat = T.dist v w := by
      rw [hd, toNat_coordinateDistance]
      apply Nat.mod_eq_of_lt
      unfold dist at hsum
      omega
    have hcost : s.cost j = (s.ns.item j).metric.toNat + T.dist v w := by
      rw [Node.cost, if_pos hel, total, weighDistance, UInt16.toNat_add, hdist]
      rw [Nat.add_comm]
      exact Nat.mod_eq_of_lt (by omega)
    exact ⟨w, hw, haddr, hheard, hcost, by omega⟩

/-- The metric a node announces through a slot is what the slot costs. -/
theorem announced_eq_cost (hcalm : s.state.isBurning = false) (hb : s.bpn = .slot i)
    (hel : s.eligible (s.ns.item i) = true) :
    s.bestNeighborBpToOurBp.metric16.toNat = s.cost i := by
  have hadv : s.bestNeighborBpToOurBp.metric16 = s.total i := by
    simp only [bestNeighborBpToOurBp, NeighborNodeBestPath.metric16, uint8ToUint16_uint16ToUint8,
      hb, deref_slot, weighMetrics, hcalm, Bool.false_eq_true, if_false, total]
    exact UInt16.add_comm _ _
  rw [hadv, Node.cost, if_pos hel]

/-- A node that has sent its node info routes through the best neighbour and has one, and
that is the path it has announced. -/
structure Chosen (s : Node) (last : Option NeighborNodeBestPath) : Prop where
  best : s.bpn = s.findBestExitPathNeighbor
  path : s.bpn ≠ .maxNode
  fresh : s.ns.used ≠ [] → last = some s.bestNeighborBpToOurBp

/-- The slot such a node routes through. -/
theorem Chosen.slot (h : Chosen s last) (ht : T.Tabled v s) (hexit : s.state.isExitNode = false) :
    ∃ b, s.bpn = .slot b ∧ b ∈ s.ns.used ∧ s.eligible (s.ns.item b) = true ∧
      s.bestNeighborBpToOurBp.metric16.toNat = s.cost b ∧ ∀ j ∈ s.ns.used, s.cost b ≤ s.cost j := by
  rcases findBest_slot_or_maxNode hexit with ⟨b, hb⟩ | hm
  · obtain ⟨hmem, hel, -⟩ := findBest_slot_spec hexit hb
    obtain ⟨hmin, -⟩ := (findBest_eq_slot_iff hexit).mp hb
    have hbpn := h.best.trans hb
    exact ⟨b, hbpn, hmem, hel, announced_eq_cost ht.calm hbpn hel,
      fun j hj => List.le_of_mem_argmin hj hmin⟩
  · exact absurd (h.best.trans hm) h.path

/-- An exit announces metric zero, at itself. -/
theorem announced_exit (hp : T.Placed v s) (hx : T.isExit v = true)
    (hcalm : s.state.isBurning = false) (hb : s.bpn = s.findBestExitPathNeighbor) :
    s.bpn = .exitNode ∧ s.bestNeighborBpToOurBp.metric16 = 0 ∧
      s.bestNeighborBpToOurBp.pointsTo = T.addr v := by
  have hbpn : s.bpn = .exitNode := hb.trans (findBest_exit (hp.isExitNode.trans hx))
  obtain ⟨haddr, hdist, hmetric⟩ := hp.exitNode hx
  refine ⟨hbpn, ?_, ?_⟩
  · simp only [bestNeighborBpToOurBp, NeighborNodeBestPath.metric16, uint8ToUint16_uint16ToUint8,
      hbpn, deref_exitNode, weighMetrics, hcalm, Bool.false_eq_true, if_false, hmetric, hdist]
    decide
  · rw [bestNeighborBpToOurBp, hbpn]
    exact haddr

/-! ### What a node reports -/

/-- What becomes of the node `t`, once what it has heard is in its table: it keeps its
entries, routes through the best one, and what it announces is its path, which is no worse
than the one before. -/
structure Reported (t s' : Node) (last : Option NeighborNodeBestPath) (ads : List PathPacket) :
    Prop where
  calm : s'.state.isBurning = false
  used : s'.ns.used = t.ns.used
  item : ∀ j, ∃ b, s'.ns.item j = (t.ns.item j).setHasSentKeepAlive b
  chosen : s'.state.hasSentNodeInfo = true → Chosen s' (lastAdvert last ads)
  ads : ads = [] ∨ ∃ q, ads = [q] ∧ q.bp = s'.bestNeighborBpToOurBp ∧
    s'.state.hasSentNodeInfo = true ∧ ∀ a ∈ last, s'.bestNeighborBpToOurBp.metric16 ≤ a.metric16

theorem Chosen.of_routing (h : Chosen s last) (hr : SameRouting s t) : Chosen t last where
  best := by
    rw [hr.bpn, hr.findBest]
    exact h.best
  path := by
    rw [hr.bpn]
    exact h.path
  fresh := by
    rw [hr.ns, hr.ourBp]
    exact h.fresh

/-- A node that switches to the best neighbour it knows and announces it. -/
theorem reported_switched {q : PathPacket} {x : Node} (hx : x = t.toBest ∨ x = t.toBest.sentNodeInfo)
    (hr : SameRouting x s') (hcalm : t.state.isBurning = false) (hns : t.ecNs = true)
    (hpath : t.findBestExitPathNeighbor ≠ .maxNode) (hq : q.bp = t.toBest.bestNeighborBpToOurBp)
    (hsent : s'.state.hasSentNodeInfo = true)
    (hle : ∀ a ∈ last, t.toBest.bestNeighborBpToOurBp.metric16 ≤ a.metric16) :
    Reported t s' last (t.announce q) := by
  have hsame : x.ns = t.ns ∧ x.state.isBurning = t.state.isBurning ∧
      x.bpn = t.findBestExitPathNeighbor ∧
      x.findBestExitPathNeighbor = t.findBestExitPathNeighbor ∧
      x.bestNeighborBpToOurBp = t.toBest.bestNeighborBpToOurBp := by
    rcases hx with rfl | rfl
    · exact ⟨rfl, rfl, rfl, findBest_toBest, rfl⟩
    · exact ⟨rfl, rfl, rfl, findBest_congr rfl rfl rfl, rfl⟩
  obtain ⟨hxns, hxburn, hxbpn, hxbest, hxbp⟩ := hsame
  have hused : s'.ns = t.ns := hr.ns.trans hxns
  refine ⟨hr.isBurning.trans (hxburn.trans hcalm), congrArg QueueBuffer.used hused, fun j => ?_,
    fun _ => Chosen.of_routing ⟨?_, ?_, fun hne => ?_⟩ hr, ?_⟩
  · rw [hused]
    exact exists_setHasSentKeepAlive t j
  · rw [hxbpn, hxbest]
  · rw [hxbpn]
    exact hpath
  · rw [hxns] at hne
    rw [lastAdvert_announce hns hne, hq, hxbp]
  · rw [hr.ourBp, hxbp]
    by_cases hne : t.ns.used = []
    · exact Or.inl (if_neg fun h => h.2 hne)
    · exact Or.inr ⟨q, announce_of_ne_nil hns hne q, hq, hsent, hle⟩

/-- A node that announces nothing. -/
theorem reported_kept (hr : SameRouting t s') (hcalm : t.state.isBurning = false)
    (hchosen : t.state.hasSentNodeInfo = true → Chosen t last) : Reported t s' last [] where
  calm := hr.isBurning.trans hcalm
  used := congrArg QueueBuffer.used hr.ns
  item := by
    rw [hr.ns]
    exact exists_setHasSentKeepAlive t
  chosen := fun hs => (hchosen (hr.hasSentNodeInfo.symm.trans hs)).of_routing hr
  ads := Or.inl rfl

/-! ### A path packet -/

/-- What a path packet `p` for slot `i` of `v` is known to be: it comes from the neighbour
`u`, is no worse than the entry it replaces, and if it leads back to `v` it does so over the
path `v` has announced. -/
structure Arrives (T : Topology V) (u v : V) (s : Node) (i : ℕ) (p : PathPacket)
    (last : Option NeighborNodeBestPath) : Prop where
  mem : i ∈ s.ns.used
  heard : T.Heard v u p.bp
  falls : p.bp.metric16 ≤ (s.ns.item i).metric
  back : p.bp.pointsTo = T.addr v → ∃ a ∈ last, a.metric16.toNat + T.dist v u ≤ p.bp.metric16.toNat
  pos : 0 < T.dist v u

/-- A path that leads elsewhere may be used. -/
theorem Arrives.eligible (h : T.Arrives u v s i p last) (ht : T.Tabled v (s.pathWritten i p))
    (hnot : p.bp.pointsTo ≠ T.addr v) :
    (s.pathWritten i p).eligible ((s.pathWritten i p).ns.item i) = true := by
  rw [pathWritten_item_self]
  apply eligible_of_heard (w := u)
  · rw [entryAfter_bp]
    exact h.heard
  · exact ht.addr
  · rw [entryAfter_bp]
    exact hnot

/-- The first path a node hears is the best one. -/
theorem findBest_of_first (h : T.Arrives u v s i p last) (ht : T.Tabled v (s.pathWritten i p))
    (hexit : s.state.isExitNode = false) (hlast : last = none)
    (hmax : ∀ j ∈ s.ns.used, (s.ns.item j).metric = metricTMax) :
    (s.pathWritten i p).findBestExitPathNeighbor = .slot i := by
  have hnot : p.bp.pointsTo ≠ T.addr v := by
    intro hback
    obtain ⟨a, ha, -⟩ := h.back hback
    rw [hlast] at ha
    cases ha
  obtain ⟨-, -, -, -, -, hlt⟩ := ht.cost h.mem (h.eligible ht hnot)
  rcases findBest_slot_or_maxNode (s := s.pathWritten i p) hexit with ⟨j, hj⟩ | hm
  · obtain ⟨hmem, hel', -⟩ := findBest_slot_spec (s := s.pathWritten i p) hexit hj
    by_cases hji : j = i
    · rw [hj, hji]
    · rw [pathWritten_item_of_ne p hji, eligible_of_metricTMax (hmax j hmem)] at hel'
      exact absurd hel' Bool.false_ne_true
  · have := (findBest_eq_maxNode_iff (s := s.pathWritten i p) hexit).mp hm i h.mem
    omega

/-- An update of the best neighbour makes it better. -/
theorem cost_of_update (h : T.Arrives u v s i p last) (hs : T.Tabled v s)
    (ht : T.Tabled v (s.pathWritten i p)) (haddr : (s.ns.item i).addr = T.addr u)
    (hel : s.eligible (s.ns.item i) = true)
    (hlast : ∀ a ∈ last, a.metric16.toNat = s.cost i) :
    (s.pathWritten i p).cost i ≤ s.cost i := by
  obtain ⟨w, -, hw, -, hcost, -⟩ := hs.cost h.mem hel
  obtain rfl := T.addr_inj (haddr.symm.trans hw)
  have hle := UInt16.le_iff_toNat_le.mp h.falls
  -- the path cannot lead back to `v`: `v` has announced more than it
  have hnot : p.bp.pointsTo ≠ T.addr v := by
    intro hback
    obtain ⟨a, ha, hsum⟩ := h.back hback
    have := hlast a ha
    have := h.pos
    omega
  obtain ⟨w', -, hw', -, hcost', -⟩ := ht.cost h.mem (h.eligible ht hnot)
  rw [pathWritten_item_self, entryAfter_addr] at hw'
  obtain rfl := T.addr_inj (haddr.symm.trans hw')
  have hmetric : ((s.pathWritten i p).ns.item i).metric = p.bp.metric16 := by
    rw [pathWritten_item_self, NeighborNode.metric, entryAfter_bp]
    rfl
  rw [hcost, hcost', hmetric]
  omega

/-- What a node knows before a path packet arrives: it has heard nothing, or it routes through
its best neighbour. -/
structure Knows (T : Topology V) (v : V) (s : Node) (last : Option NeighborNodeBestPath) : Prop where
  tabled : T.Tabled v s
  unsent : s.state.hasSentNodeInfo = false →
    last = none ∧ ∀ j ∈ s.ns.used, (s.ns.item j).metric = metricTMax
  chosen : s.state.hasSentNodeInfo = true → Chosen s last

/-- Once it has sent its node info, a node that is no exit keeps routing through the best
neighbour, and its path does not get worse. -/
theorem improves_of_sent (h : T.Arrives u v s i p last) (hk : T.Knows v s last)
    (ht : T.Tabled v (s.pathWritten i p)) (haddr : (s.ns.item i).addr = T.addr u)
    (hexit : s.state.isExitNode = false) (hsent : s.state.hasSentNodeInfo = true) :
    s.KeepsBest i p ∧ (s.pathWritten i p).findBestExitPathNeighbor ≠ .maxNode ∧
      ∀ a ∈ last, (s.pathWritten i p).toBest.bestNeighborBpToOurBp.metric16 ≤ a.metric16 := by
  have hch := hk.chosen hsent
  obtain ⟨b, hbpn, hmem, hel, hann, hmin⟩ := hch.slot hk.tabled hexit
  have hlast : ∀ a ∈ last, a.metric16.toNat = s.cost b := by
    intro a ha
    rw [hch.fresh (List.ne_nil_of_mem hmem)] at ha
    cases ha
    exact hann
  have hfind : s.findBestExitPathNeighbor = .slot b := hch.best.symm.trans hbpn
  obtain ⟨hargmin, hlt⟩ := (findBest_eq_slot_iff hexit).mp hfind
  -- the old best neighbour has not become worse
  have hle : (s.pathWritten i p).cost b ≤ s.cost b := by
    by_cases hbi : b = i
    · subst hbi
      exact cost_of_update h hk.tabled ht haddr hel hlast
    · exact (cost_pathWritten_of_ne hbi).le
  have hne : (s.pathWritten i p).findBestExitPathNeighbor ≠ .maxNode := by
    intro hm
    have := (findBest_eq_maxNode_iff (s := s.pathWritten i p) hexit).mp hm b hmem
    omega
  refine ⟨fun hi => ?_, hne, fun a ha => ?_⟩
  · obtain rfl := NeighborPtr.slot.inj (hbpn.symm.trans hi)
    refine Or.inl ((findBest_eq_slot_iff (s := s.pathWritten b p) hexit).mpr ⟨?_, by omega⟩)
    exact FirstMin.argmin_of_improved hargmin (fun j _ hj => cost_pathWritten_of_ne hj) hle
  · rcases findBest_slot_or_maxNode (s := s.pathWritten i p) hexit with ⟨k, hkb⟩ | hm
    · obtain ⟨hkmem, hkel, -⟩ := findBest_slot_spec (s := s.pathWritten i p) hexit hkb
      obtain ⟨hkmin, -⟩ := (findBest_eq_slot_iff (s := s.pathWritten i p) hexit).mp hkb
      have hnew := announced_eq_cost (s := (s.pathWritten i p).toBest) ht.calm hkb hkel
      have hbest : (s.pathWritten i p).cost k ≤ (s.pathWritten i p).cost b :=
        List.le_of_mem_argmin hmem hkmin
      apply UInt16.le_iff_toNat_le.mpr
      rw [hnew, hlast a ha]
      exact hbest.trans hle
    · exact absurd hm hne

/-- **What a path packet makes a node report.** -/
theorem reported_path (h : T.Arrives u v s i p last) (hp : T.Placed v s) (hk : T.Knows v s last)
    (ht : T.Tabled v (s.pathWritten i p)) (haddr : (s.ns.item i).addr = T.addr u)
    (hinfo : s.state.hasSentNodeInfo = false → ∃ coord bp, p = .nodeInfo coord bp)
    (ho : PathOutcome s i p s' ads) : Reported (s.pathWritten i p) s' last ads := by
  have hsent' := (settles_of_path hinfo ho).2
  -- what is announced is no worse than before, at an exit as elsewhere
  have himp : (s.pathWritten i p).findBestExitPathNeighbor ≠ .maxNode ∧
      ∀ a ∈ last, (s.pathWritten i p).toBest.bestNeighborBpToOurBp.metric16 ≤ a.metric16 := by
    cases hx : T.isExit v with
    | true =>
      have hx' : (s.pathWritten i p).state.isExitNode = true := hp.isExitNode.trans hx
      obtain ⟨-, hzero, -⟩ := announced_exit (s := (s.pathWritten i p).toBest)
        ((hp.pathWritten i p).of_site rfl id (List.Sublist.refl _) fun _ => rfl) hx ht.calm
        findBest_toBest.symm
      refine ⟨?_, fun a _ => ?_⟩
      · rw [findBest_exit hx']
        exact NeighborPtr.noConfusion
      · rw [hzero]
        exact UInt16.zero_le
    | false =>
      have hx' : s.state.isExitNode = false := hp.isExitNode.trans hx
      cases hsent : s.state.hasSentNodeInfo with
      | true => exact (improves_of_sent h hk ht haddr hx' hsent).2
      | false =>
        obtain ⟨hlast, hmax⟩ := hk.unsent hsent
        rw [findBest_of_first h ht hx' hlast hmax, hlast]
        exact ⟨NeighborPtr.noConfusion, fun a ha => nomatch ha⟩
  cases ho with
  | first _ _ hr =>
    exact reported_switched (Or.inr rfl) hr.toSameRouting ht.calm hp.ecNs himp.1 rfl hsent' himp.2
  | switched _ _ hr =>
    exact reported_switched (Or.inl rfl) hr.toSameRouting ht.calm hp.ecNs himp.1 rfl hsent' himp.2
  | kept hs hsw hr =>
    refine reported_kept hr.toSameRouting ht.calm fun hsent => ?_
    have hch := hk.chosen hsent
    cases hx : T.isExit v with
    | true =>
      obtain ⟨hbpn, -, -⟩ := announced_exit hp hx hk.tabled.calm hch.best
      refine ⟨?_, hch.path, fun hne => ?_⟩
      · exact hbpn.trans (findBest_exit (s := s.pathWritten i p) (hp.isExitNode.trans hx)).symm
      · rw [ourBp_pathWritten_of_ne (hbpn ▸ NeighborPtr.noConfusion)]
        exact hch.fresh hne
    | false =>
      have hx' : s.state.isExitNode = false := hp.isExitNode.trans hx
      have hnsw : ¬ (s.pathWritten i p).Switches (.slot i) := by
        rcases hsw with hsw | ⟨-, hexit⟩
        · exact hsw
        · exact absurd (hexit.symm.trans hx') (by decide)
      have hkeep := (improves_of_sent h hk ht haddr hx' hsent).1
      have hne : s.bpn ≠ .slot i := fun hb => hnsw (switches_of_keepsBest hb hkeep)
      refine ⟨best_of_pathKept hx' hch.best hkeep hnsw, hch.path, fun hused => ?_⟩
      rw [ourBp_pathWritten_of_ne hne]
      exact hch.fresh hused

/-! ### The initialisation -/

/-- The keep-alive flags play no part in the choice. -/
theorem Chosen.keepAlive (h : Chosen s last) (i : ℕ) :
    Chosen (s.withEntry i ((s.ns.item i).setHasSentKeepAlive true)) last where
  best := by
    cases hx : s.state.isExitNode with
    | true =>
      refine h.best.trans ((findBest_exit hx).trans (findBest_exit ?_).symm)
      exact hx
    | false =>
      refine best_of_cost (s := s) hx hx h.best rfl fun j _ => ?_
      obtain ⟨b, hb⟩ := keepAlive_item (s := s) i j
      exact cost_of_keepAlive rfl hb
  path := h.path
  fresh := by
    intro hne
    rw [h.fresh hne]
    exact congrArg some (ourBp_withTable fun j _ => keepAlive_item (s := s) i j).symm

/-- **What an initialisation packet makes a node report.** -/
theorem reported_initializes {ev : AppEvent} (hloc : ev.Local) (hev : ev.Initializes)
    (hp : T.Placed v s) (hk : T.Knows v s last) (ho : Outcome s ev s' ads) :
    Reported s s' last ads := by
  cases ho with
  | configured h _ => exact absurd h hloc.1
  | resetMode h _ _ => exact absurd h hloc.1
  | newNeighbor _ _ => exact absurd hev id
  | path _ h _ _ => exact absurd (h.symm.trans hloc.2) (Option.some_ne_none _)
  | sensed _ _ _ => exact absurd hev id
  | sensedSent _ _ _ _ _ => exact absurd hev id
  | dropped _ _ _ => exact absurd hev id
  | droppedSwitched _ _ _ _ => exact absurd hev id
  | quiet hr => exact reported_kept hr.toSameRouting hk.tabled.calm hk.chosen
  | @keepAlive r _ i hi hr =>
    have hkept : Reported (s.withEntry i ((s.ns.item i).setHasSentKeepAlive true)) s' last [] :=
      reported_kept hr.toSameRouting hk.tabled.calm fun hs => (hk.chosen hs).keepAlive i
    refine ⟨hkept.calm, hkept.used, fun j => ?_, hkept.chosen, hkept.ads⟩
    rw [hr.ns]
    exact keepAlive_item i j
  | initialized _ hx hs hr =>
    refine reported_switched (Or.inr rfl) hr.toSameRouting hk.tabled.calm hp.ecNs ?_ rfl
      hr.hasSentNodeInfo ?_
    · rw [findBest_exit hx]
      exact NeighborPtr.noConfusion
    · rw [(hk.unsent hs).1]
      exact fun a ha => nomatch ha

end Topology

end EmergencyNet
