import EmergencyNet.Routing.Improvement
import EmergencyNet.Routing.LoopFreedom

/-!
# Paths form

After the exits have been initialised, and as long as nothing burns and nothing fails, the
network computes least distances to the exits: an asynchronous Bellman–Ford run.  Along every
link the metrics only fall, and a path that leads back to a node does so over a path the node
has announced.  When nothing is under way any more, the announced metrics solve Bellman's
equations; the entries that lead back to the node itself are never needed.

## Main definitions

* `Topology.FormationGuard` — the condition on each step of a run.
* `Topology.Falling`, `Topology.Flows` — the invariants of a link and of the network.
* `Topology.Formed` — what holds of a node in the end.

## Main results

* `Topology.formed_of_reachable` — **in a quiescent state a node that is connected to an exit
  has announced the least distance, and routes along a least path.**
-/

namespace EmergencyNet

open Node Paths

namespace Topology

variable {V : Type*} {T : Topology V} {n n' : Net V} {u v w : V} {s s' : Node} {i : ℕ}
  {p : PathPacket} {bp : NeighborNodeBestPath} {t : Node} {ads : List PathPacket}
  {last : Option NeighborNodeBestPath}

/-! ### Links -/

/-- The paths of `w` that `v` holds and will hear, oldest first, do not get worse, and those
that lead back to `v` do so over the path `v` has announced. -/
structure Falling (T : Topology V) (v w : V) (paths : List NeighborNodeBestPath)
    (lastw lastv : Option NeighborNodeBestPath) : Prop where
  pairwise : paths.Pairwise fun a b => b.metric16 ≤ a.metric16
  last : ∀ a ∈ lastw, ∀ bp ∈ paths, a.metric16 ≤ bp.metric16
  back : ∀ bp ∈ paths, bp.metric16 ≠ metricTMax → bp.pointsTo = T.addr v →
    ∃ a ∈ lastv, a.metric16.toNat + T.dist v w ≤ bp.metric16.toNat

section Falling

variable {paths : List NeighborNodeBestPath} {lastw lastv lastv' : Option NeighborNodeBestPath}

/-- The oldest path is replaced by the next one. -/
theorem Falling.tail (h : T.Falling v w (bp :: paths) lastw lastv) :
    T.Falling v w paths lastw lastv where
  pairwise := (List.pairwise_cons.mp h.pairwise).2
  last := fun a ha b hb => h.last a ha b (List.mem_cons_of_mem _ hb)
  back := fun b hb => h.back b (List.mem_cons_of_mem _ hb)

/-- `v` announces a path that is no worse. -/
theorem Falling.improved (h : T.Falling v w paths lastw lastv)
    (hle : ∀ a ∈ lastv, ∃ a' ∈ lastv', a'.metric16 ≤ a.metric16) :
    T.Falling v w paths lastw lastv' where
  pairwise := h.pairwise
  last := h.last
  back := by
    intro bp hbp hne hback
    obtain ⟨a, ha, hsum⟩ := h.back bp hbp hne hback
    obtain ⟨a', ha', hle'⟩ := hle a ha
    have := UInt16.le_iff_toNat_le.mp hle'
    exact ⟨a', ha', by omega⟩

/-- `w` announces a path that is no worse. -/
theorem Falling.append (h : T.Falling v w paths lastw lastv)
    (hle : ∀ b ∈ paths, bp.metric16 ≤ b.metric16)
    (hback : bp.pointsTo = T.addr v →
      ∃ a ∈ lastv, a.metric16.toNat + T.dist v w ≤ bp.metric16.toNat) :
    T.Falling v w (paths ++ [bp]) (some bp) lastv where
  pairwise := by
    rw [List.pairwise_append]
    refine ⟨h.pairwise, List.pairwise_singleton _ _, fun a ha b hb => ?_⟩
    rw [List.mem_singleton.mp hb]
    exact hle a ha
  last := by
    rintro a ⟨⟩ b hb
    rcases List.mem_append.mp hb with hb | hb
    · exact hle b hb
    · rw [List.mem_singleton.mp hb]
      exact UInt16.le_refl _
  back := by
    intro b hb hne
    rcases List.mem_append.mp hb with hb | hb
    · exact h.back b hb hne
    · rw [List.mem_singleton.mp hb]
      exact hback

end Falling

/-! ### The network -/

/-- The paths `v` holds and will hear from `w`, if its entry for `w` is `nn`. -/
def pathsOf (nn : NeighborNode) (link : List PathPacket) : List NeighborNodeBestPath :=
  nn.bp :: link.map PathPacket.bp

/-- What flows through the network: tables are full, nothing burns, and paths that were
heard or are under way fall. -/
structure Flows (T : Topology V) (n : Net V) : Prop where
  full : ∀ v, ∀ w ∈ T.nbrs v, ∃ i ∈ (n.node v).ns.used, ((n.node v).ns.item i).addr = T.addr w
  calm : ∀ v, (n.node v).state.isBurning = false
  heard : ∀ v w i, i ∈ (n.node v).ns.used → w ∈ T.nbrs v →
    ((n.node v).ns.item i).addr = T.addr w →
    ((n.node v).ns.item i).bp = neighborNodeBestPathMax ∨ T.Heard v w ((n.node v).ns.item i).bp
  finite : ∀ v w, w ∈ T.nbrs v → ∀ p ∈ n.link w v, p.bp.metric16 ≠ metricTMax
  falling : ∀ v w i, i ∈ (n.node v).ns.used → w ∈ T.nbrs v →
    ((n.node v).ns.item i).addr = T.addr w →
    T.Falling v w (pathsOf ((n.node v).ns.item i) (n.link w v)) (n.last w) (n.last v)

/-- The tables hold paths that were heard. -/
theorem Flows.tabled (h : T.Flows n) (hl : T.AllLinked n) (hp : T.Placed v (n.node v)) :
    T.Tabled v (n.node v) := by
  refine ⟨hp.rimeaddrNodeAddr, h.calm v, fun j hj => ?_⟩
  obtain ⟨w, hw, haddr⟩ := hp.table j hj
  refine ⟨w, hw, haddr, ?_⟩
  rcases h.heard v w j hj hw haddr with hmax | hheard
  · exact Or.inl hmax
  · exact Or.inr ⟨hheard, (hl v w j hj hw haddr).dist hheard.metric⟩

/-- What is known of a node that is to handle an event. -/
theorem Flows.knows (h : T.Flows n) (hw : T.Wired n)
    (hch : (n.node v).state.hasSentNodeInfo = true → Chosen (n.node v) (n.last v)) :
    T.Knows v (n.node v) (n.last v) := by
  refine ⟨h.tabled hw.linked (hw.placed v), fun hs => ?_, hch⟩
  obtain ⟨-, hlast, hdist⟩ := hw.unsent v hs
  refine ⟨hlast, fun j hj => ?_⟩
  -- an entry with a path is at a positive distance
  by_contra hne
  have hpos := hw.linked.dist_pos (hw.placed v) j hj hne
  rw [hdist j hj] at hpos
  exact absurd hpos (by decide)

/-- The path of a node that has sent its node info is finite; if it leads to the neighbour
`x`, it is the one `x` has announced, and one more distance. -/
theorem Chosen.announces (h : Chosen s last) (hp : T.Placed v s) (ht : T.Tabled v s) :
    s.bestNeighborBpToOurBp.metric16 ≠ metricTMax ∧
      ∀ x ∈ T.nbrs v, s.bestNeighborBpToOurBp.pointsTo = T.addr x →
        ∃ b ∈ s.ns.used, (s.ns.item b).addr = T.addr x ∧ T.Heard v x (s.ns.item b).bp ∧
          s.bestNeighborBpToOurBp.metric16.toNat = (s.ns.item b).metric.toNat + T.dist v x := by
  cases hx : T.isExit v with
  | true =>
    obtain ⟨-, hzero, hself⟩ := announced_exit hp hx ht.calm h.best
    refine ⟨?_, fun x hxv hback => ?_⟩
    · rw [hzero]
      decide
    · exact absurd (T.addr_inj (hself.symm.trans hback)).symm (ne_of_mem_nbrs hxv)
  | false =>
    obtain ⟨b, hbpn, hmem, hel, hann, -⟩ := h.slot ht (hp.isExitNode.trans hx)
    obtain ⟨w, -, haddr, hheard, hcost, hlt⟩ := ht.cost hmem hel
    refine ⟨fun hm => ?_, fun x _ hback => ?_⟩
    · rw [hm, toNat_metricTMax] at hann
      omega
    · have hto : s.bestNeighborBpToOurBp.pointsTo = (s.ns.item b).addr := by
        rw [bestNeighborBpToOurBp, hbpn]
        rfl
      obtain rfl := T.addr_inj (haddr.symm.trans (hto.symm.trans hback))
      exact ⟨b, hmem, haddr, hheard, hann.trans hcost⟩

/-- An entry with a path was announced, and what was announced last is no worse. -/
theorem Flows.announced_le (h : T.Flows n) (hl : T.AllLinked n) (hi : i ∈ (n.node v).ns.used)
    (hw : w ∈ T.nbrs v) (haddr : ((n.node v).ns.item i).addr = T.addr w)
    (hne : ((n.node v).ns.item i).metric ≠ metricTMax) :
    ∃ a ∈ n.last w, a.metric16 ≤ ((n.node v).ns.item i).metric := by
  have hfall := h.falling v w i hi hw haddr
  obtain ⟨heard, hheard, hlast⟩ := (hl v w i hi hw haddr).synced
  cases hlw : n.last w with
  | some a => exact ⟨a, rfl, hfall.last a hlw _ List.mem_cons_self⟩
  | none =>
    rw [hlw] at hlast
    rcases hheard with ⟨-, hmax⟩ | hheard
    · exact absurd ((congrArg NeighborNodeBestPath.metric16 hmax).trans metric16_max) hne
    · rw [hheard] at hlast
      exact absurd (lastAdvert_eq_none.mp hlast.symm).1 (Option.some_ne_none _)

/-- What a node has announced last after it has reported. -/
theorem Reported.last_le (h : Reported t s' last ads) : ∀ a ∈ last,
    ∃ a' ∈ lastAdvert last ads, a'.metric16 ≤ a.metric16 := by
  intro a ha
  rcases h.ads with rfl | ⟨q, rfl, hq, -, hle⟩
  · exact ⟨a, ha, UInt16.le_refl _⟩
  · exact ⟨q.bp, rfl, hq ▸ hle a ha⟩

theorem Reported.item_addr (h : Reported t s' last ads) (j : ℕ) :
    (s'.ns.item j).addr = (t.ns.item j).addr := by
  obtain ⟨b, hb⟩ := h.item j
  rw [hb]
  rfl

theorem Reported.item_bp (h : Reported t s' last ads) (j : ℕ) :
    (s'.ns.item j).bp = (t.ns.item j).bp := by
  obtain ⟨b, hb⟩ := h.item j
  rw [hb]
  rfl

/-- The table a node has after it has reported is the one it chose from. -/
theorem Reported.tabled (h : Reported t s' last ads) (ht : T.Tabled v t)
    (hp' : T.Placed v s') : T.Tabled v s' := by
  refine ⟨hp'.rimeaddrNodeAddr, h.calm, fun j hj => ?_⟩
  rw [h.used] at hj
  obtain ⟨b, hb⟩ := h.item j
  rw [hb]
  exact ht.entry j hj

/-- Of a neighbour that has announced nothing, nothing is known and nothing is under way. -/
theorem Linked.pathsOf_eq {nn : NeighborNode} {link : List PathPacket}
    (h : T.Linked v w nn link none) : pathsOf nn link = [neighborNodeBestPathMax] := by
  obtain ⟨heard, hheard, hlast⟩ := h.synced
  rw [h.eq_nil] at hlast ⊢
  have hnone : heard = none := hlast.symm
  rcases hheard with ⟨-, hmax⟩ | hsome
  · rw [pathsOf, hmax, List.map_nil]
  · rw [hnone] at hsome
    exact absurd hsome.symm (Option.some_ne_none _)

/-- Every path a node reports is finite and no worse than the one before; if it leads to a
neighbour, it is the one the neighbour has announced, and one more distance. -/
theorem Flows.announces (h : T.Flows n) (hl : T.AllLinked n) (hp : T.Placed v (n.node v))
    (hp' : T.Placed v s') (hr : Reported (n.node v) s' (n.last v) ads) :
    ∀ q ∈ ads, q.bp.metric16 ≠ metricTMax ∧
      (∀ a ∈ n.last v, q.bp.metric16 ≤ a.metric16) ∧
      ∀ x ∈ T.nbrs v, q.bp.pointsTo = T.addr x →
        ∃ a ∈ n.last x, a.metric16.toNat + T.dist v x ≤ q.bp.metric16.toNat := by
  intro q hq
  rcases hr.ads with hnil | ⟨q', heq, hbp, hsent, hle⟩
  · rw [hnil] at hq
    exact absurd hq List.not_mem_nil
  · rw [heq] at hq
    obtain rfl := List.mem_singleton.mp hq
    have ht' : T.Tabled v s' := hr.tabled (h.tabled hl hp) hp'
    obtain ⟨hne, hto⟩ := (hr.chosen hsent).announces hp' ht'
    rw [hbp]
    refine ⟨hne, hle, fun x hx hback => ?_⟩
    obtain ⟨b, hb, haddr, hheard, hsum⟩ := hto x hx hback
    rw [hr.used] at hb
    rw [hr.item_addr] at haddr
    rw [hr.item_bp] at hheard
    have hmetric : (s'.ns.item b).metric = ((n.node v).ns.item b).metric := by
      rw [NeighborNode.metric, NeighborNode.metric, hr.item_bp]
    obtain ⟨a, ha, hle'⟩ := h.announced_le hl hb hx haddr hheard.metric
    have := UInt16.le_iff_toNat_le.mp hle'
    exact ⟨a, ha, by rw [hsum, hmetric]; omega⟩

variable [DecidableEq V]

/-- The condition on the steps of a formation: only initialisations and deliveries happen, no
hop count reaches `MAX_NUMBER_OF_HOPS_TO_EXIT`, and the sums stay below `METRIC_T_MAX`. -/
def FormationGuard (T : Topology V) (n : Net V) : NetEvent V → Prop
  | .deliver u v _ => ∀ p ∈ (n.link u v).head?, p.bp.hops < maxNumberOfHopsToExit ∧
      (p.bp.pointsTo = T.addr v ∨ p.bp.metric16.toNat + T.dist v u < 65535)
  | .other _ ev _ => ev.Initializes

instance (T : Topology V) (n : Net V) (e : NetEvent V) : Decidable (T.FormationGuard n e) := by
  rcases e <;> unfold FormationGuard <;> infer_instance

/-- Every neighbour is in the table, so what is ignored is not from a neighbour. -/
theorem Flows.ignored (h : T.Flows n)
    (hi : neighborsFindNeighborNode (n.node v).ns (T.addr u) = none) : T.Flows (popped n u v) := by
  have hnot : u ∉ T.nbrs v := by
    intro hu
    obtain ⟨j, hj, haddr⟩ := h.full v u hu
    rw [neighborsFindNeighborNode, QueueBuffer.find, List.find?_eq_none] at hi
    exact hi j hj (by simpa using haddr)
  have hlink : ∀ x w, w ∈ T.nbrs x → (popped n u v).link w x = n.link w x := by
    intro x w hw
    apply if_neg
    rintro ⟨rfl, rfl⟩
    exact hnot hw
  refine ⟨h.full, h.calm, h.heard, fun x w hw => ?_, fun x w j hj hw haddr => ?_⟩
  · rw [hlink x w hw]
    exact h.finite x w hw
  · rw [hlink x w hw]
    exact h.falling x w j hj hw haddr

/-- A packet that is heard takes the place of the entry's path. -/
theorem Flows.heard_packet {rest : List PathPacket} (h : T.Flows n) (hp : T.Placed v (n.node v))
    (hlink : n.link u v = p :: rest)
    (hi : neighborsFindNeighborNode (n.node v).ns (T.addr u) = some i)
    (hheard : T.Heard v u p.bp) :
    T.Flows { popped n u v with
      node := Function.update n.node v ((n.node v).pathWritten i p) } := by
  obtain ⟨himem, hiaddr⟩ := mem_of_neighborsFindNeighborNode hi
  -- the table of `v` has the same slots and addresses as before
  have hused : ∀ x, (Function.update n.node v ((n.node v).pathWritten i p) x).ns.used =
      (n.node x).ns.used := by
    intro x
    by_cases hx : x = v
    · rw [hx, Function.update_self, pathWritten_used]
    · rw [Function.update_of_ne hx]
  have haddrs : ∀ x j, ((Function.update n.node v ((n.node v).pathWritten i p) x).ns.item j).addr =
      ((n.node x).ns.item j).addr := by
    intro x j
    by_cases hx : x = v
    · rw [hx, Function.update_self]
      by_cases hji : j = i
      · rw [hji, pathWritten_item_self, entryAfter_addr]
      · rw [pathWritten_item_of_ne p hji]
    · rw [Function.update_of_ne hx]
  -- every entry and its link are as before, or those the packet is about
  have hentry : ∀ x w j, j ∈ (n.node x).ns.used → w ∈ T.nbrs x →
      ((n.node x).ns.item j).addr = T.addr w →
      (x = v ∧ w = u ∧ ((Function.update n.node v ((n.node v).pathWritten i p) x).ns.item j).bp =
        p.bp ∧ (popped n u v).link w x = rest ∧ j = i) ∨
      (((Function.update n.node v ((n.node v).pathWritten i p) x).ns.item j).bp =
        ((n.node x).ns.item j).bp ∧ (popped n u v).link w x = n.link w x) := by
    intro x w j hj hw haddr
    by_cases hx : x = v
    · subst hx
      rw [Function.update_self]
      by_cases hji : j = i
      · subst hji
        obtain rfl := T.addr_inj (haddr.symm.trans hiaddr)
        refine Or.inl ⟨rfl, rfl, ?_, ?_, rfl⟩
        · rw [pathWritten_item_self, entryAfter_bp]
        · simp only [popped, hlink, and_self, if_true, List.tail_cons]
      · have hwu : w ≠ u := by
          rintro rfl
          exact hji (hp.distinct j hj i himem (haddr.trans hiaddr.symm))
        refine Or.inr ⟨?_, if_neg fun hc => hwu hc.1⟩
        rw [pathWritten_item_of_ne p hji]
    · rw [Function.update_of_ne hx]
      exact Or.inr ⟨rfl, if_neg fun hc => hx hc.2⟩
  refine ⟨fun x w hw => ?_, fun x => ?_, fun x w j hj hw haddr => ?_, fun x w hw q hq => ?_,
    fun x w j hj hw haddr => ?_⟩
  · obtain ⟨j, hj, haddr⟩ := h.full x w hw
    exact ⟨j, (hused x).symm ▸ hj, (haddrs x j).trans haddr⟩
  · change (Function.update n.node v ((n.node v).pathWritten i p) x).state.isBurning = false
    by_cases hx : x = v
    · rw [hx, Function.update_self]
      exact h.calm v
    · rw [Function.update_of_ne hx]
      exact h.calm x
  · simp only at hj haddr ⊢
    rw [hused] at hj
    rw [haddrs] at haddr
    rcases hentry x w j hj hw haddr with ⟨rfl, rfl, hbp, -, -⟩ | ⟨hbp, -⟩
    · rw [hbp]
      exact Or.inr hheard
    · rw [hbp]
      exact h.heard x w j hj hw haddr
  · refine h.finite x w hw q ?_
    simp only [popped] at hq
    split at hq
    · next hc =>
      obtain ⟨rfl, rfl⟩ := hc
      exact List.mem_of_mem_tail hq
    · exact hq
  · simp only at hj haddr ⊢
    rw [hused] at hj
    rw [haddrs] at haddr
    have hold := h.falling x w j hj hw haddr
    rcases hentry x w j hj hw haddr with ⟨rfl, rfl, hbp, hrest, rfl⟩ | ⟨hbp, hsame⟩
    · rw [pathsOf, hbp, hrest]
      rw [pathsOf, hlink, List.map_cons] at hold
      exact hold.tail
    · rw [pathsOf, hbp, hsame]
      exact hold

/-- What a node reports keeps the paths falling. -/
theorem Flows.reported (h : T.Flows n) (hl : T.AllLinked n) (hp : T.Placed v (n.node v))
    (hp' : T.Placed v s') (hr : Reported (n.node v) s' (n.last v) (adverts s'.calls)) :
    T.Flows (T.moved n v s') := by
  have hads := h.announces hl hp hp' hr
  refine ⟨fun x w hw => ?_, fun x => ?_, fun x w j hj hw haddr => ?_, fun x w hw q hq => ?_,
    fun x w j hj hw haddr => ?_⟩
  · simp only [moved]
    by_cases hx : x = v
    · subst hx
      obtain ⟨j, hj, haddr⟩ := h.full x w hw
      rw [Function.update_self]
      exact ⟨j, hr.used ▸ hj, (hr.item_addr j).trans haddr⟩
    · rw [Function.update_of_ne hx]
      exact h.full x w hw
  · simp only [moved]
    by_cases hx : x = v
    · rw [hx, Function.update_self]
      exact hr.calm
    · rw [Function.update_of_ne hx]
      exact h.calm x
  · simp only [moved] at hj haddr ⊢
    by_cases hx : x = v
    · subst hx
      rw [Function.update_self] at hj haddr ⊢
      rw [hr.used] at hj
      rw [hr.item_addr] at haddr
      rw [hr.item_bp]
      exact h.heard x w j hj hw haddr
    · rw [Function.update_of_ne hx] at hj haddr ⊢
      exact h.heard x w j hj hw haddr
  · simp only [moved] at hq
    split at hq
    · rcases List.mem_append.mp hq with hq | hq
      · exact h.finite x w hw q hq
      · exact (hads q hq).1
    · exact h.finite x w hw q hq
  · simp only [moved] at hj haddr ⊢
    by_cases hx : x = v
    · -- the node's own entries: it has announced a path that is no worse
      subst hx
      have hwx : w ≠ x := ne_of_mem_nbrs hw
      rw [Function.update_self] at hj haddr ⊢
      rw [Function.update_self, if_neg (fun hc => hwx hc.1), Function.update_of_ne hwx]
      rw [hr.used] at hj
      rw [hr.item_addr] at haddr
      rw [pathsOf, hr.item_bp]
      exact (h.falling x w j hj hw haddr).improved hr.last_le
    · rw [Function.update_of_ne hx] at hj haddr ⊢
      rw [Function.update_of_ne hx]
      by_cases hwv : w = v
      · -- the entries of its neighbours for it
        subst hwv
        have hxw := T.symm hw
        have hold := h.falling x w j hj hw haddr
        rw [if_pos ⟨rfl, hxw⟩, Function.update_self]
        rcases hr.ads with hnil | ⟨q, heq, -, -, -⟩
        · rw [hnil, List.append_nil, lastAdvert_nil]
          exact hold
        · obtain ⟨-, hle, hback⟩ := hads q (by rw [heq]; exact List.mem_cons_self)
          rw [heq, lastAdvert_singleton, pathsOf, List.map_append, List.map_singleton,
            ← List.cons_append]
          refine hold.append (fun b hb => ?_) fun hto => ?_
          · cases hlw : n.last w with
            | some a => exact UInt16.le_trans (hle a hlw) (hold.last a hlw b hb)
            | none =>
              -- nothing announced yet: the entry is fresh and the link empty
              have hlinked := hl x w j hj hw haddr
              rw [hlw] at hlinked
              rw [hlinked.pathsOf_eq, List.mem_singleton] at hb
              rw [hb, metric16_max, UInt16.le_iff_toNat_le, toNat_metricTMax]
              have := q.bp.metric16.toNat_lt
              omega
          · obtain ⟨a, ha, hsum⟩ := hback x hxw hto
            rw [dist_comm] at hsum
            exact ⟨a, ha, hsum⟩
      · rw [if_neg (fun hc => hwv hc.1), Function.update_of_ne hwv]
        exact h.falling x w j hj hw haddr

/-- The invariant of a formation. -/
structure Forming (T : Topology V) (n : Net V) : Prop where
  wired : T.Wired n
  flows : T.Flows n
  chosen : ∀ v, (n.node v).state.hasSentNodeInfo = true → Chosen (n.node v) (n.last v)

omit [DecidableEq V] in
theorem forming_start (T : Topology V) : T.Forming T.start := by
  have hconf : ∀ v, Configured (zero rimeaddrNull none) (T.boot v) := fun v =>
    (configured_setupParse (T.setupPacket v).bytes false (zero rimeaddrNull none)).1
  have hmax : ∀ v i, i ∈ (T.boot v).ns.used →
      ((T.boot v).ns.item i).bp = neighborNodeBestPathMax := by
    intro v i hi
    obtain ⟨a, ha⟩ := (hconf v).fresh i hi
    rw [ha]
    rfl
  refine ⟨T.wired_start, ⟨fun v w hw => ?_, fun v => (hconf v).isBurning, fun v w i hi _ _ => ?_,
    fun v w _ p hp => absurd hp List.not_mem_nil, fun v w i hi _ _ => ⟨?_, ?_, ?_⟩⟩, fun v hs => ?_⟩
  · -- the table holds the neighbours of the setup packet
    have hlen : (T.setupPacket v).neighbors.length ≤ maxNeighbors := by
      rw [setupPacket, List.length_map]
      exact T.le v
    have haddrs : (T.boot v).addrs = ((T.nbrs v).map T.addr).reverse :=
      (setupParse_bytes (T.setupPacket v) hlen false (zero rimeaddrNull none)).addrs
    have hmem : T.addr w ∈ (T.boot v).addrs := by
      rw [haddrs, List.mem_reverse]
      exact List.mem_map_of_mem hw
    exact List.mem_map.mp hmem
  · exact Or.inl (hmax v i hi)
  · exact List.pairwise_singleton _ _
  · intro a ha
    cases ha
  · intro bp hbp hne
    rw [pathsOf, show T.start.link w v = [] from rfl, List.map_nil, List.mem_singleton] at hbp
    rw [hbp, show (T.start.node v).ns.item i = (T.boot v).ns.item i from rfl, hmax v i hi,
      metric16_max] at hne
    exact absurd rfl hne
  · exact absurd ((hconf v).hasSentNodeInfo.symm.trans hs) (by decide)

/-- Only the node that moves chooses anew. -/
theorem chosen_moved {m : Net V} (h : ∀ x, (n.node x).state.hasSentNodeInfo = true →
      Chosen (n.node x) (n.last x)) (hnode : m.node = n.node) (hlast : m.last = n.last)
    (hv : s'.state.hasSentNodeInfo = true →
      Chosen s' (lastAdvert (n.last v) (adverts s'.calls))) :
    ∀ x, ((T.moved m v s').node x).state.hasSentNodeInfo = true →
      Chosen ((T.moved m v s').node x) ((T.moved m v s').last x) := by
  intro x
  simp only [moved, hnode, hlast]
  by_cases hx : x = v
  · subst hx
    simpa only [Function.update_self] using hv
  · simpa only [Function.update_of_ne hx] using h x

/-- **Every guarded step keeps the paths forming.** -/
theorem Forming.change {e : NetEvent V} (h : T.Forming n) (hg : T.FormationGuard n e)
    (hc : T.Change n e n') : T.Forming n' := by
  have hw' := h.wired.change hc
  cases hc with
  | @ignored u v c hi =>
    exact ⟨hw', h.flows.ignored hi, h.chosen⟩
  | @heard u v c p rest i s' hlink hi hpath =>
    obtain ⟨himem, hiaddr⟩ := mem_of_neighborsFindNeighborNode hi
    have hp := h.wired.placed v
    obtain ⟨w, huv, haddr⟩ := hp.table i himem
    obtain rfl := T.addr_inj (hiaddr.symm.trans haddr)
    have hk := h.flows.knows h.wired (h.chosen v)
    have hfall := h.flows.falling v u i himem huv hiaddr
    rw [pathsOf, hlink, List.map_cons] at hfall
    obtain ⟨hhops, hsum⟩ := hg p (by rw [hlink]; rfl)
    have hfin : p.bp.metric16 ≠ metricTMax :=
      h.flows.finite v u huv p (by rw [hlink]; exact List.mem_cons_self)
    have harr : T.Arrives u v (n.node v) i p (n.last v) :=
      ⟨himem, ⟨hfin, hhops, hsum⟩, (List.pairwise_cons.mp hfall.pairwise).1 _ List.mem_cons_self,
        hfall.back p.bp (List.mem_cons_of_mem _ List.mem_cons_self) hfin, dist_pos huv⟩
    let m : Net V := { popped n u v with
      node := Function.update n.node v ((n.node v).pathWritten i p) }
    have hnode : m.node v = (n.node v).pathWritten i p := Function.update_self ..
    have hlinked : T.AllLinked m := h.wired.linked.heard hp hlink hi
    have hflows : T.Flows m := h.flows.heard_packet hp hlink hi harr.heard
    have hpw : T.Placed v (m.node v) := hnode ▸ hp.pathWritten i p
    have ht : T.Tabled v ((n.node v).pathWritten i p) := hnode ▸ hflows.tabled hlinked hpw
    have hrep := reported_path harr hp hk ht hiaddr (h.wired.first_info hlink hi) hpath
    have hmoved : T.moved (popped n u v) v s' = T.moved m v s' := by
      simp only [moved, m, Function.update_idem]
      rfl
    refine ⟨hw', ?_, chosen_moved h.chosen rfl rfl hrep.chosen⟩
    have hp' : T.Placed v s' := by simpa only [moved, Function.update_self] using hw'.placed v
    rw [hmoved]
    exact hflows.reported hlinked hpw hp' (hnode ▸ hrep)
  | @acted v ev c s' hloc _ ho =>
    have hp := h.wired.placed v
    have hk := h.flows.knows h.wired (h.chosen v)
    have hrep := reported_initializes hloc hg hp hk ho
    refine ⟨hw', ?_, chosen_moved h.chosen rfl rfl hrep.chosen⟩
    have hp' : T.Placed v s' := by simpa only [moved, Function.update_self] using hw'.placed v
    exact h.flows.reported h.wired.linked hp hp' hrep

theorem forming_of_reachable (h : T.machine.ReachableWhen T.FormationGuard n) : T.Forming n := by
  refine h.invariant ?_ ?_
  · rintro n rfl
    exact T.forming_start
  · intro n e n' hf hg hstep
    exact hf.change hg (change_of_step hf.wired.placed hstep)

/-! ### When nothing is under way -/

section Quiescent

omit [DecidableEq V]

/-- The nodes that have sent their node info. -/
def Sent (n : Net V) (v : V) : Prop := (n.node v).state.hasSentNodeInfo = true

/-- The metric of the path a node holds. -/
def metricOf (n : Net V) (v : V) : ℕ := (n.node v).bestNeighborBpToOurBp.metric16.toNat

theorem Forming.used_ne_nil (h : T.Forming n) (hw : w ∈ T.nbrs v) : (n.node v).ns.used ≠ [] := by
  obtain ⟨i, hi, -⟩ := h.flows.full v w hw
  exact List.ne_nil_of_mem hi

/-- In a quiescent state a neighbour of a node that has sent its node info holds the path of
that node, and has sent its own. -/
theorem Forming.entry (h : T.Forming n) (hq : n.Quiescent) (hs : Sent n w) (hw : w ∈ T.nbrs v) :
    Sent n v ∧ ∃ i ∈ (n.node v).ns.used, ((n.node v).ns.item i).addr = T.addr w ∧
      ((n.node v).ns.item i).bp = (n.node w).bestNeighborBpToOurBp ∧
      T.Heard v w ((n.node v).ns.item i).bp := by
  obtain ⟨i, hi, haddr⟩ := h.flows.full v w hw
  have hlinked := h.wired.linked v w i hi hw haddr
  have hch := h.chosen w hs
  have hlast := hch.fresh (h.used_ne_nil (T.symm hw))
  obtain ⟨hne, -⟩ := hch.announces (h.wired.placed w)
    (h.flows.tabled h.wired.linked (h.wired.placed w))
  rw [hq w v] at hlinked
  obtain ⟨heard, hheard, hsync⟩ := hlinked.synced
  rw [lastAdvert_nil, hlast] at hsync
  have hbp : ((n.node v).ns.item i).bp = (n.node w).bestNeighborBpToOurBp := by
    rcases hheard with ⟨hnone, -⟩ | hsome
    · rw [hnone] at hsync
      exact absurd hsync (Option.some_ne_none _)
    · exact Option.some.inj (hsome.symm.trans hsync.symm)
  have hmetric : ((n.node v).ns.item i).metric ≠ metricTMax := by
    rw [NeighborNode.metric, hbp]
    exact hne
  refine ⟨?_, i, hi, haddr, hbp, ?_⟩
  · -- a node that has not sent its node info has heard nothing
    cases hsent : (n.node v).state.hasSentNodeInfo with
    | true => exact hsent
    | false =>
      exact absurd ((h.flows.knows h.wired (h.chosen v)).unsent hsent |>.2 i hi) hmetric
  · rcases h.flows.heard v w i hi hw haddr with hmax | hheard
    · exact absurd ((congrArg NeighborNodeBestPath.metric16 hmax).trans metric16_max) hmetric
    · exact hheard

/-- **The metrics solve Bellman's equations, from above**: a node is no further from an exit
than over any of its neighbours. -/
theorem Forming.metric_le (h : T.Forming n) (hq : n.Quiescent) (hs : Sent n v)
    (hw : w ∈ T.nbrs v) : metricOf n v ≤ T.dist v w + metricOf n w := by
  have hsw : Sent n w := (h.entry hq hs (T.symm hw)).1
  obtain ⟨-, i, hi, haddr, hbp, hheard⟩ := h.entry hq hsw hw
  have hp := h.wired.placed v
  have ht := h.flows.tabled h.wired.linked hp
  have hch := h.chosen v hs
  have hmetric : ((n.node v).ns.item i).metric.toNat = metricOf n w := by
    rw [NeighborNode.metric, hbp]
    rfl
  cases hx : T.isExit v with
  | true =>
    obtain ⟨-, hzero, -⟩ := announced_exit hp hx ht.calm hch.best
    rw [metricOf, hzero]
    exact Nat.zero_le _
  | false =>
    by_cases hback : ((n.node v).ns.item i).bp.pointsTo = T.addr v
    · -- a path over the node itself is longer than the node's own
      have hfall := h.flows.falling v w i hi hw haddr
      obtain ⟨a, ha, hle⟩ := hfall.back _ List.mem_cons_self hheard.metric hback
      rw [hch.fresh (List.ne_nil_of_mem hi)] at ha
      cases ha
      have hsame : ((n.node v).ns.item i).bp.metric16.toNat = metricOf n w := hmetric
      unfold metricOf at hsame ⊢
      omega
    · obtain ⟨b, -, -, -, hann, hmin⟩ := hch.slot ht (hp.isExitNode.trans hx)
      have hel := eligible_of_heard hheard ht.addr hback
      obtain ⟨x, -, hxaddr, -, hcost, -⟩ := ht.cost hi hel
      obtain rfl := T.addr_inj (haddr.symm.trans hxaddr)
      have hle := hmin i hi
      rw [hcost, hmetric] at hle
      rw [metricOf, hann]
      omega

/-- **The metrics solve Bellman's equations, exactly**: a node that is no exit routes to a
neighbour over which its metric is attained. -/
theorem Forming.exists_next (h : T.Forming n) (hq : n.Quiescent) (hs : Sent n v)
    (hx : T.isExit v = false) :
    ∃ w ∈ T.nbrs v, n.Follows T v w ∧ metricOf n v = T.dist v w + metricOf n w := by
  have hp := h.wired.placed v
  have ht := h.flows.tabled h.wired.linked hp
  obtain ⟨b, hbpn, hb, hel, hann, -⟩ := (h.chosen v hs).slot ht (hp.isExitNode.trans hx)
  obtain ⟨w, hw, haddr, -, hcost, -⟩ := ht.cost hb hel
  have hsw : Sent n w := (h.entry hq hs (T.symm hw)).1
  obtain ⟨-, i, hi, hiaddr, hbp, -⟩ := h.entry hq hsw hw
  obtain rfl := hp.distinct i hi b hb (hiaddr.trans haddr.symm)
  have hmetric : ((n.node v).ns.item i).metric.toNat = metricOf n w := by
    rw [NeighborNode.metric, hbp]
    rfl
  refine ⟨w, hw, ⟨i, hbpn, haddr⟩, ?_⟩
  rw [metricOf, hann, hcost, hmetric, Nat.add_comm]

/-- A walk over neighbours to an exit, and its total distance. -/
abbrev WalkToExit (T : Topology V) : V → ℕ → Prop :=
  Walk (fun a b => b ∈ T.nbrs a) T.dist fun v => T.isExit v = true

/-- What holds of a node after the formation: the metric it has announced, if it has anybody
to announce it to, is the least total distance over all walks to an exit; and it routes along
such a walk. -/
structure Formed (T : Topology V) (n : Net V) (v : V) : Prop where
  announced : T.nbrs v ≠ [] → n.last v = some (n.node v).bestNeighborBpToOurBp
  least : IsLeast { k | T.WalkToExit v k } (metricOf n v)
  exit : T.isExit v = true → (n.node v).bpn = .exitNode
  next : T.isExit v = false → ∃ w ∈ T.nbrs v, n.Follows T v w ∧
    ∃ k, T.WalkToExit w k ∧ T.dist v w + k = metricOf n v

theorem Forming.formed (h : T.Forming n) (hq : n.Quiescent) (hs : Sent n v) : T.Formed n v := by
  have hclosed : ∀ a b, Sent n a → b ∈ T.nbrs a → Sent n b := fun a b ha hb =>
    (h.entry hq ha (T.symm hb)).1
  have hexit : ∀ a, Sent n a → T.isExit a = true →
      (n.node a).bpn = .exitNode ∧ metricOf n a = 0 := by
    intro a ha hx
    have hp := h.wired.placed a
    obtain ⟨hbpn, hzero, -⟩ := announced_exit hp hx (h.flows.calm a) (h.chosen a ha).best
    refine ⟨hbpn, ?_⟩
    rw [metricOf, hzero]
    rfl
  have hleast : ∀ a, Sent n a → IsLeast { k | T.WalkToExit a k } (metricOf n a) := by
    intro a ha
    refine isLeast_of_bellman (Sent n) (fun _ _ => dist_pos) hclosed
      (fun b hb hx => (hexit b hb hx).2) (fun b w hb hw => h.metric_le hq hb hw) (fun b hb => ?_) ha
    cases hx : T.isExit b with
    | true => exact Or.inl rfl
    | false =>
      obtain ⟨w, hw, -, heq⟩ := h.exists_next hq hb hx
      exact Or.inr ⟨w, hw, heq⟩
  refine ⟨fun hne => ?_, hleast v hs, fun hx => (hexit v hs hx).1, fun hx => ?_⟩
  · obtain ⟨w, hw⟩ := List.exists_mem_of_ne_nil _ hne
    exact (h.chosen v hs).fresh (h.used_ne_nil hw)
  · obtain ⟨w, hw, hfollows, heq⟩ := h.exists_next hq hs hx
    exact ⟨w, hw, hfollows, metricOf n w, (hleast w (hclosed v w hs hw)).1, heq.symm⟩

end Quiescent

/-- **In every formation, in a quiescent state, a node that is connected to an initialised exit
has announced the least total distance over all paths to an exit, and routes to the next node
on such a path.** -/
theorem formed_of_reachable {e : V} (h : T.machine.ReachableWhen T.FormationGuard n)
    (hq : n.Quiescent) (hinit : Sent n e)
    (hconn : Relation.ReflTransGen (fun a b => b ∈ T.nbrs a) e v) : T.Formed n v := by
  have hf := forming_of_reachable h
  apply hf.formed hq
  induction hconn with
  | refl => exact hinit
  | tail _ hab ih => exact (hf.entry hq ih (T.symm hab)).1

/-- The formation of the corridor. -/
theorem formed_formation :
    ∃ n, corridor.machine.ReachableWhen corridor.FormationGuard n ∧ n.Quiescent ∧
      corridor.Formed n 1 := by
  have h : (Machine.run corridor.step formation corridor.start).map (fun n =>
      (decide (∀ u v, (n.link u v).isEmpty = true), (n.node 0).state.hasSentNodeInfo)) =
      some (true, true) := by decide +kernel
  obtain ⟨n, hrun, heq⟩ := Option.map_eq_some_iff.mp h
  simp only [Prod.mk.injEq, decide_eq_true_eq, List.isEmpty_iff] at heq
  have hreach : corridor.machine.ReachableWhen corridor.FormationGuard n :=
    Machine.ReachableWhen.of_run (b := fun n e => decide (corridor.FormationGuard n e))
      (fun _ _ => of_decide_eq_true) (fun _ _ _ h => h) formation (.init rfl) (by decide +kernel) hrun
  exact ⟨n, hreach, heq.1, formed_of_reachable (e := 0) hreach heq.1 heq.2
    (.single (by decide))⟩

end Topology

end EmergencyNet
