import EmergencyNet.Routing.KeepAlive
import EmergencyNet.Sensor.NeighborTable

/-!
# What the keep-alive check removes

The loop of the check removes from the list it walks.  After a removal it starts over at the
head of the list, and its own step then passes the head over.  So the head is looked at once,
at the very beginning, and when it is removed the entry behind it becomes a head that is never
looked at.  When the list has become empty, the loop is left before a new path is asked for.

## Main definitions

* `Node.ClearsSilent` — what one run of the check should do.
* `Node.SkipsSilent`, `Node.LosesOnlyBest` — the two ways it does not.

## Main results

* `Node.sweep_used`, `Node.sweep_used_of_skips` — which entries the first loop leaves.
* `Node.clearsSilent_iff` — **the check does what it should unless the first two neighbours are
  silent, or the only one is silent and the best.**
-/

namespace EmergencyNet

namespace Node

variable {s : Node} {w : Sweep} {i h : ℕ}

/-- The entry in slot `i` has sent a keep-alive packet. -/
def flagged (ns : Neighbors) (i : ℕ) : Bool := (ns.item i).hasSentKeepAlive

/-! ### The loop behind the head -/

/-- No two entries have the same address. -/
def DistinctAddrs (ns : Neighbors) : Prop :=
  ∀ a ∈ ns.used, ∀ b ∈ ns.used, (ns.item a).addr = (ns.item b).addr → a = b

theorem distinctAddrs_of_nodup {ns : Neighbors} (hnodup : ns.addrs.addrs.Nodup) :
    DistinctAddrs ns := fun _ ha _ hb heq => List.inj_on_of_nodup_map hnodup ha hb heq

/-- With distinct addresses a removal by address removes the entry itself. -/
theorem drop_used (hdistinct : DistinctAddrs w.ns) (hi : i ∈ w.ns.used) :
    (w.drop i).ns.used = w.ns.used.erase i := by
  show (neighborsRemove w.ns (w.ns.item i).addr).used = _
  rw [neighborsRemove, neighborsFindNeighborNode_addr hi hdistinct]
  exact QueueBuffer.free_used _ _

theorem drop_item : (w.drop i).ns.item = w.ns.item := neighborsRemove_item _ _

theorem DistinctAddrs.drop (hdistinct : DistinctAddrs w.ns) : DistinctAddrs (w.drop i).ns := by
  intro a ha b hb heq
  have hsub := neighborsRemove_used_sublist w.ns (w.ns.item i).addr
  rw [drop_item] at heq
  exact hdistinct a (hsub.subset ha) b (hsub.subset hb) heq

/-- Once the head has been passed over, every silent entry behind it is removed.  Of the
entries behind it, those in `mid` have been looked at already. -/
theorem sweepSilent_used : ∀ (fuel : ℕ) (rest mid : List ℕ) (w : Sweep), DistinctAddrs w.ns →
    w.ns.used = h :: (mid ++ rest) → (∀ j ∈ mid, flagged w.ns j = true) →
    (rest.filter fun j => !flagged w.ns j).length ≤ fuel →
    (sweepSilent fuel rest w).ns.used = h :: (mid ++ rest).filter (flagged w.ns) := by
  intro fuel
  induction fuel with
  | zero =>
    intro rest mid w hdistinct hused hmid hsilent
    have hall : ∀ j ∈ rest, flagged w.ns j = true := by
      simpa [List.filter_eq_nil_iff] using hsilent
    rw [sweepSilent, hused, List.filter_append, List.filter_eq_self.mpr hmid,
      List.filter_eq_self.mpr hall]
  | succ fuel ih =>
    intro rest mid w hdistinct hused hmid hsilent
    unfold sweepSilent
    split
    · -- nobody is silent any more
      next hnone =>
      have hall : ∀ j ∈ rest, flagged w.ns j = true := by
        simpa [List.find?_eq_none, flagged] using hnone
      rw [hused, List.filter_append, List.filter_eq_self.mpr hmid, List.filter_eq_self.mpr hall]
    · next i hsome =>
      obtain ⟨hi, seen, behind, rfl, hseen⟩ := List.find?_eq_some_iff_append.mp hsome
      have hi : flagged w.ns i = false := by simpa [flagged] using hi
      have hseen : ∀ j ∈ seen, flagged w.ns j = true := fun j hj => by
        simpa [flagged] using hseen j hj
      have hnodup := w.ns.used_nodup
      rw [hused] at hnodup
      have hsplit : h :: (mid ++ (seen ++ i :: behind)) = (h :: (mid ++ seen)) ++ i :: behind := by
        simp
      rw [hsplit] at hused hnodup
      have hnot : i ∉ h :: (mid ++ seen) := fun hmem =>
        (List.nodup_append.mp hnodup).2.2 i hmem i List.mem_cons_self rfl
      have hdrop : (w.drop i).ns.used = h :: ((mid ++ seen) ++ behind) := by
        rw [drop_used hdistinct (by rw [hused]; simp), hused, List.erase_append_right _ hnot,
          List.erase_cons_head, List.cons_append]
      rw [hdrop]
      -- the loop goes on behind the head, over those that were looked at once more
      have hrest := ih ((mid ++ seen) ++ behind) []
        { w.drop i with needBroadcastNewPath := true } hdistinct.drop hdrop (by simp)
      have hflagged : flagged (w.drop i).ns = flagged w.ns := by
        unfold flagged
        rw [drop_item]
      simp only [hflagged, List.nil_append] at hrest
      refine (hrest ?_).trans ?_
      · have hpassed : (mid ++ seen).filter (fun j => !flagged w.ns j) = [] := by
          rw [List.filter_eq_nil_iff]
          intro j hj
          rcases List.mem_append.mp hj with hj | hj
          · simp [hmid j hj]
          · simp [hseen j hj]
        rw [List.filter_append, hpassed]
        rw [List.filter_append, List.filter_cons_of_pos (by simp [hi])] at hsilent
        simp only [List.length_append, List.length_cons] at hsilent
        simp only [List.nil_append]
        omega
      · simp [List.filter_append, hi]

/-! ### The loop -/

/-- The first two neighbours are silent. -/
def SkipsSilent (s : Node) : Prop :=
  ∃ a b l, s.ns.used = a :: b :: l ∧ flagged s.ns a = false ∧ flagged s.ns b = false

/-- The only neighbour is silent, and the best one. -/
def LosesOnlyBest (s : Node) : Prop :=
  ∃ a, s.ns.used = [a] ∧ flagged s.ns a = false ∧ s.bpn = .slot a

/-- A silent head is removed, and the entry behind it is kept, silent or not. -/
theorem sweep_used_of_silent_head {a b : ℕ} {l : List ℕ} (hdistinct : DistinctAddrs s.ns)
    (hused : s.ns.used = a :: b :: l) (ha : flagged s.ns a = false) :
    s.sweep.ns.used = b :: l.filter (flagged s.ns) := by
  have hdrop : (Sweep.drop a ⟨s.ns, s.bpn, false⟩).ns.used = b :: l := by
    rw [drop_used hdistinct (by rw [hused]; exact List.mem_cons_self), hused,
      List.erase_cons_head]
  have hflagged : flagged (Sweep.drop a ⟨s.ns, s.bpn, false⟩).ns = flagged s.ns := by
    unfold flagged
    rw [drop_item]
  rw [sweep, hused, List.length_cons, sweepSilent,
    List.find?_cons_of_pos (by simpa [flagged] using ha)]
  simp only [hdrop]
  have hrest := sweepSilent_used (b :: l).length l []
    { Sweep.drop a ⟨s.ns, s.bpn, false⟩ with needBroadcastNewPath := true }
    (DistinctAddrs.drop (w := ⟨s.ns, s.bpn, false⟩) hdistinct) hdrop (by simp)
    ((List.length_filter_le _ l).trans (Nat.le_succ _))
  simp only [hflagged] at hrest
  exact hrest

/-- **The first loop leaves those that are not silent**, unless the first two are silent. -/
theorem sweep_used (hdistinct : DistinctAddrs s.ns) (hskip : ¬ s.SkipsSilent) :
    s.sweep.ns.used = s.ns.used.filter (flagged s.ns) := by
  cases hused : s.ns.used with
  | nil =>
    rw [sweep, hused]
    exact hused
  | cons a l =>
    cases ha : flagged s.ns a with
    | true =>
      -- the loop passes the head over
      have hpass : sweepSilent (a :: l).length (a :: l) ⟨s.ns, s.bpn, false⟩ =
          sweepSilent (a :: l).length l ⟨s.ns, s.bpn, false⟩ := by
        rw [List.length_cons, sweepSilent, sweepSilent,
          List.find?_cons_of_neg (by simpa [flagged] using ha)]
      have hle := List.length_filter_le (fun j => !flagged s.ns j) l
      rw [sweep, hused, hpass, sweepSilent_used _ l [] _ hdistinct hused (by simp)
        (hle.trans (Nat.le_succ _)), List.filter_cons_of_pos ha]
      rfl
    | false =>
      cases l with
      | nil =>
        have hdrop : (Sweep.drop a ⟨s.ns, s.bpn, false⟩).ns.used = [] := by
          rw [drop_used hdistinct (by rw [hused]; exact List.mem_cons_self), hused,
            List.erase_cons_head]
        rw [sweep, hused, List.length_cons, sweepSilent,
          List.find?_cons_of_pos (by simpa [flagged] using ha)]
        simp only [hdrop]
        rw [List.filter_cons_of_neg (by simp [ha]), List.filter_nil]
      | cons b l =>
        have hb : flagged s.ns b = true := by
          by_contra hb
          exact hskip ⟨a, b, l, hused, ha, by simpa using hb⟩
        rw [sweep_used_of_silent_head hdistinct hused ha, List.filter_cons_of_neg (by simp [ha]),
          List.filter_cons_of_pos hb]

/-- When the first two are silent, the second stays. -/
theorem sweep_used_of_skips (hdistinct : DistinctAddrs s.ns) (hskip : s.SkipsSilent) :
    s.sweep.ns.used ≠ s.ns.used.filter (flagged s.ns) := by
  obtain ⟨a, b, l, hused, ha, hb⟩ := hskip
  rw [sweep_used_of_silent_head hdistinct hused ha]
  intro heq
  have hmem : b ∈ s.ns.used.filter (flagged s.ns) := heq ▸ List.mem_cons_self
  rw [List.mem_filter, hb] at hmem
  exact absurd hmem.2 Bool.false_ne_true

/-! ### The check -/

/-- What the check does to the table, at a node that blinks. -/
theorem keepaliveCheck_ns (hblink : s.state.isBlinking = true) :
    s.keepaliveCheck.ns = s.dropSilent.ns := by
  rw [keepaliveCheck, if_pos hblink]
  split
  · have hupdate : (updateBpnAndBroadcastNewPathIfChanged .null s.dropSilent).1.ns =
        s.dropSilent.ns := by
      unfold updateBpnAndBroadcastNewPathIfChanged
      simp only
      split
      · rfl
      · split <;> rfl
    simp only
    split
    · exact sameRoute_blinkingUpdate.ns.trans hupdate
    · exact hupdate
  · rfl

/-- The second loop clears the flags of the slots it visits. -/
theorem clearKeepAlive_item_eq : ∀ (l : List ℕ) (ns : Neighbors) (j : ℕ),
    (clearKeepAlive l ns).item j =
      if j ∈ l then (ns.item j).setHasSentKeepAlive false else ns.item j := by
  intro l
  induction l with
  | nil => simp [clearKeepAlive]
  | cons i rest ih =>
    intro ns j
    rw [clearKeepAlive, ih]
    by_cases hij : j = i
    · subst hij
      rw [QueueBuffer.set_item_self, if_pos List.mem_cons_self]
      split <;> rfl
    · simp only [QueueBuffer.set_item_of_ne _ _ hij, List.mem_cons, hij, false_or]

theorem keepaliveCheck_used (hblink : s.state.isBlinking = true) :
    s.keepaliveCheck.ns.used = s.sweep.ns.used := by
  rw [keepaliveCheck_ns hblink, dropSilent_used]

theorem keepaliveCheck_item (hblink : s.state.isBlinking = true)
    (hi : i ∈ s.keepaliveCheck.ns.used) :
    s.keepaliveCheck.ns.item i = (s.ns.item i).setHasSentKeepAlive false := by
  rw [keepaliveCheck_used hblink] at hi
  rw [keepaliveCheck_ns hblink]
  show (clearKeepAlive s.sweep.ns.used s.sweep.ns).item i = _
  rw [clearKeepAlive_item_eq, if_pos hi, (sweepOk s).item]

/-- A best neighbour whose entry has been removed is missing after the loop. -/
theorem sweep_bpn_of_removed (hdistinct : DistinctAddrs s.ns) (hi : i ∈ s.ns.used)
    (hbpn : s.bpn = .slot i) (hout : i ∉ s.sweep.ns.used) : s.sweep.bpn = .null := by
  have hunshadowed : s.BpnUnshadowed := by
    intro j hj k hk hne haddr
    obtain rfl : i = j := NeighborPtr.slot.inj (hbpn.symm.trans hj)
    exact absurd (hdistinct k hk i hi haddr) hne
  rcases s.sweep_bpn with hsame | ⟨-, hnull⟩
  · exact absurd (mem_sweep_of_bpn hunshadowed (hsame.trans hbpn) hi) hout
  · exact hnull

/-- The node that has lost its best neighbour, when it announces the new one. -/
def replacesBest (s : Node) : Node :=
  { s.dropSilent.assert (s.dropSilent.findBestExitPathNeighbor ≠ .null) with
    bpn := s.dropSilent.findBestExitPathNeighbor }

/-- A lost best neighbour is replaced, as long as somebody is left. -/
theorem keepaliveCheck_of_lost (hblink : s.state.isBlinking = true)
    (hneed : s.sweep.needBroadcastNewPath = true) (hnull : s.sweep.bpn = .null) :
    s.keepaliveCheck = s.replacesBest.broadcastBestPath.blinkingUpdate := by
  have hupdate : updateBpnAndBroadcastNewPathIfChanged .null s.dropSilent =
      (s.replacesBest.broadcastBestPath, true) := if_pos (Or.inl hnull)
  rw [keepaliveCheck, if_pos hblink, if_pos hneed, hupdate]
  rfl

theorem calls_blinkingUpdate_prefix (t : Node) : t.calls <+: t.blinkingUpdate.calls := by
  unfold blinkingUpdate
  split
  · exact List.prefix_append _ _
  · exact List.prefix_refl _

/-- The new best neighbour is announced to those that are left. -/
theorem replacesBest_announced (hset : s.ecNs = true) :
    ∃ l, s.replacesBest.broadcastBestPath.blinkingUpdate.calls = s.calls ++ l ∧
      .call (.reliableBroadcastNs (some s.replacesBest.ns.addrs)
        ⟨s.rimeaddrNodeAddr, s.rimeaddrNodeAddr, 0, s.seqno,
          (PathPacket.bestPathUpdate s.replacesBest.bestNeighborBpToOurBp).bytes⟩) ∈ l := by
  obtain ⟨rest, hrest⟩ := calls_blinkingUpdate_prefix s.replacesBest.broadcastBestPath
  have hns : (s.replacesBest.assert (s.replacesBest.bpn ≠ .null)).connNs =
      some s.replacesBest.ns.addrs := if_pos hset
  have hcalls : s.replacesBest.broadcastBestPath.calls = s.calls ++
      [.assert (s.dropSilent.findBestExitPathNeighbor ≠ .null),
        .assert (s.replacesBest.bpn ≠ .null),
        .call (.reliableBroadcastNs (s.replacesBest.assert (s.replacesBest.bpn ≠ .null)).connNs
          ⟨s.rimeaddrNodeAddr, s.rimeaddrNodeAddr, 0, s.seqno,
            (PathPacket.bestPathUpdate s.replacesBest.bestNeighborBpToOurBp).bytes⟩)] := by
    show (s.calls ++ [_]) ++ [_] ++ [_] = _
    rw [List.append_assoc, List.append_assoc]
    rfl
  rw [hns] at hcalls
  exact ⟨_, hrest.symm.trans ((congrArg (· ++ rest) hcalls).trans (List.append_assoc _ _ _)),
    by simp⟩

/-- What one run of the check should do at a node that blinks: the neighbours that were not
silent stay where they are, with their flags cleared, and a best neighbour that was silent is
replaced by the best of those that are left, which is announced to them. -/
structure ClearsSilent (s : Node) : Prop where
  used : s.keepaliveCheck.ns.used = s.ns.used.filter (flagged s.ns)
  item : ∀ i ∈ s.keepaliveCheck.ns.used,
    s.keepaliveCheck.ns.item i = (s.ns.item i).setHasSentKeepAlive false
  bpn : ∀ i ∈ s.ns.used, s.bpn = .slot i → flagged s.ns i = false →
    s.keepaliveCheck.bpn = s.keepaliveCheck.findBestExitPathNeighbor
  announced : ∀ i ∈ s.ns.used, s.bpn = .slot i → flagged s.ns i = false →
    s.keepaliveCheck.ns.used ≠ [] →
      ∃ l, s.keepaliveCheck.calls = s.calls ++ l ∧
        .call (.reliableBroadcastNs (some s.keepaliveCheck.ns.addrs)
          ⟨s.rimeaddrNodeAddr, s.rimeaddrNodeAddr, 0, s.seqno,
            (PathPacket.bestPathUpdate s.keepaliveCheck.bestNeighborBpToOurBp).bytes⟩) ∈ l

/-- A silent best neighbour is replaced, unless it is the only neighbour. -/
theorem keepaliveCheck_of_silent_best (hblink : s.state.isBlinking = true)
    (hdistinct : DistinctAddrs s.ns)
    (hskip : ¬ s.SkipsSilent) (hlast : ¬ s.LosesOnlyBest) (hi : i ∈ s.ns.used)
    (hbpn : s.bpn = .slot i) (hsilent : flagged s.ns i = false) :
    s.keepaliveCheck = s.replacesBest.broadcastBestPath.blinkingUpdate := by
  have hused := sweep_used hdistinct hskip
  have hout : i ∉ s.sweep.ns.used := by
    rw [hused, List.mem_filter, hsilent]
    exact fun h => Bool.false_ne_true h.2
  apply keepaliveCheck_of_lost hblink ?_ (sweep_bpn_of_removed hdistinct hi hbpn hout)
  rcases s.sweep_cases with hsame | ⟨a, honly, ha, -, -, -⟩ | ⟨hneed, -⟩
  · -- nobody was removed, not even the best neighbour
    rw [hsame] at hout
    exact absurd hi hout
  · rw [honly, List.mem_singleton] at hi
    exact absurd ⟨a, honly, ha, hi ▸ hbpn⟩ hlast
  · exact hneed

/-- **The check removes exactly the silent neighbours and replaces a best one among them**,
unless the first two neighbours are silent, or the only one is silent and the best. -/
theorem clearsSilent_iff (hblink : s.state.isBlinking = true) (hknows : s.KnowsNeighbors)
    (hnodup : s.ns.addrs.addrs.Nodup) :
    s.ClearsSilent ↔ ¬ s.SkipsSilent ∧ ¬ s.LosesOnlyBest := by
  have hdistinct := distinctAddrs_of_nodup hnodup
  have hset : s.ecNs = true := hknows.resolve_right fun hunset =>
    Bool.false_ne_true (hunset.isBlinking.symm.trans hblink)
  constructor
  · intro h
    refine ⟨fun hskip => ?_, fun hlast => ?_⟩
    · exact sweep_used_of_skips hdistinct hskip ((keepaliveCheck_used hblink).symm.trans h.used)
    · -- the list is empty, and nobody looks for a new best neighbour
      obtain ⟨a, honly, ha, hbpn⟩ := hlast
      have hmem : a ∈ s.ns.used := by simp [honly]
      have hempty : s.sweep.ns.used = [] := by
        rw [← keepaliveCheck_used hblink, h.used, honly, List.filter_cons_of_neg (by simp [ha]),
          List.filter_nil]
      have hneed : s.sweep.needBroadcastNewPath = false := by
        by_contra hneed
        exact dropSilent_used_ne_nil (by simpa using hneed) (s.dropSilent_used.trans hempty)
      have hnull : s.keepaliveCheck.bpn = .null := by
        rw [keepaliveCheck, if_pos hblink, if_neg (by simp [hneed])]
        exact sweep_bpn_of_removed hdistinct hmem hbpn (by simp [hempty])
      exact findBest_ne_null ((h.bpn a hmem hbpn ha).symm.trans hnull)
  · rintro ⟨hskip, hlast⟩
    refine ⟨(keepaliveCheck_used hblink).trans (sweep_used hdistinct hskip),
      fun i hi => keepaliveCheck_item hblink hi, fun i hi hbpn hsilent => ?_,
      fun i hi hbpn hsilent hleft => ?_⟩
    · have hroute : SameRoute s.replacesBest s.replacesBest.broadcastBestPath.blinkingUpdate :=
        sameRoute_broadcastBestPath.trans sameRoute_blinkingUpdate
      rw [keepaliveCheck_of_silent_best hblink hdistinct hskip hlast hi hbpn hsilent, hroute.bpn]
      exact (findBest_congr (s := s.dropSilent) hroute.rimeaddrNodeAddr hroute.ns
        hroute.isExitNode).symm
    · have hroute : SameRoute s.replacesBest s.replacesBest.broadcastBestPath.blinkingUpdate :=
        sameRoute_broadcastBestPath.trans sameRoute_blinkingUpdate
      rw [keepaliveCheck_of_silent_best hblink hdistinct hskip hlast hi hbpn hsilent, hroute.ns,
        hroute.ourBp]
      exact replacesBest_announced hset

/-- A blinking node whose best neighbour is the second of two neighbours that have both been
silent, or the only one of them. -/
def besideSilent (addrs : List Rimeaddr) : Node :=
  let ns := (addrs.foldl (fun ns a => ns.bind fun ns => neighborsAdd ns a)
    (some neighborsInit)).getD neighborsInit
  { zero ⟨9, 0⟩ none with
    ns := ns.used.foldl (fun ns i => ns.set i ((ns.item i).setHasSentKeepAlive false)) ns
    bpn := .slot 0
    state := { isBlinking := true }
    ecNs := true }

/-- Of two silent neighbours one stays; when the only neighbour was the best one, the node is
left without a best neighbour. -/
theorem not_clearsSilent : ¬ (besideSilent [⟨1, 0⟩, ⟨2, 0⟩]).ClearsSilent ∧
    ¬ (besideSilent [⟨1, 0⟩]).ClearsSilent := by
  constructor
  · intro h
    exact absurd h.used (by decide +kernel)
  · intro h
    exact absurd (h.bpn 0 (by decide +kernel) rfl (by decide +kernel)) (by decide +kernel)

/-- Of the three neighbours of a blinking node the best, in the middle of the table, is silent. -/
def besideOneSilent : Node :=
  let s := besideSilent [⟨1, 0⟩, ⟨2, 0⟩, ⟨3, 0⟩]
  let answered (i : ℕ) : NeighborNode :=
    { s.ns.item i with bp := ⟨uint16ToUint8 50, ⟨5, 0⟩, 1⟩, hasSentKeepAlive := true }
  { s with
    ns := (s.ns.set 0 (answered 0)).set 2 (answered 2)
    bpn := .slot 1 }

/-- It is removed, and another one is the best. -/
theorem clearsSilent_besideOneSilent : besideOneSilent.ns.used = [2, 1, 0] ∧
    besideOneSilent.ClearsSilent ∧ besideOneSilent.keepaliveCheck.ns.used = [2, 0] ∧
      besideOneSilent.keepaliveCheck.bpn = .slot 2 := by
  have hused : besideOneSilent.ns.used = [2, 1, 0] := by decide +kernel
  have hskip : ¬ besideOneSilent.SkipsSilent := by
    rintro ⟨a, b, l, hab, ha, -⟩
    obtain rfl : 2 = a := (List.cons.inj (hused.symm.trans hab)).1
    exact absurd ha (by decide +kernel)
  have honly : ¬ besideOneSilent.LosesOnlyBest := by
    rintro ⟨a, ha, -⟩
    cases hused.symm.trans ha
  exact ⟨hused, (clearsSilent_iff rfl (.inl rfl) (by decide +kernel)).mpr ⟨hskip, honly⟩,
    by decide +kernel, by decide +kernel⟩

end Node

end EmergencyNet
