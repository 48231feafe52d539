import EmergencyNet.Gui.SerialCommunication

/-!
# Fire announcements

What the fire announcements that the map keeps mean: they are worked off in order, a fire
stays in the list, and the end of a fire is removed together with the fire before it.

## Main definitions

* `Announcement` — a fire, or the end of one.
* `Announcement.lastOf` — what the list says last about a node.
* `Board` — the nodes of the map and the announcements, `Board.process`, `Board.processFrom`
  — working them off.
* `Board.value`, `Board.outlook` — what the flag of a node comes to.

## Main results

* `Board.outlook_processFrom` — **working off does not change what the nodes come to.**
* `Board.value_of_prefix` — when the list left over begins the one worked off, the flags of its
  nodes say what it said.
-/

namespace EmergencyNet

/-- An announcement about the node `rimeID`: a fire, or the end of one. -/
structure Announcement where
  rimeID : Text
  fire : Bool
  deriving DecidableEq

namespace Announcement

variable {l l' : List Announcement} {a b : Announcement} {r : Text} {v : Bool}

/-- The entry in `fireData`. -/
def text (a : Announcement) : Text := 
  if a.fire then a.rimeID else SerialCommunication.cleanPrefix ++ a.rimeID

/-- What the list says about the node `r`, in order. -/
def about (r : Text) (l : List Announcement) : List Announcement := l.filter (·.rimeID = r)

/-- What the list says last about the node `r`. -/
def lastOf (r : Text) (l : List Announcement) : Option Bool := (about r l).getLast?.map (·.fire)

theorem mem_about : a ∈ about r l ↔ a ∈ l ∧ a.rimeID = r := by simp [about]

theorem about_append : about r (l ++ l') = about r l ++ about r l' := List.filter_append ..

theorem about_cons_of_ne (h : a.rimeID ≠ r) : about r (a :: l) = about r l := by simp [about, h]

theorem lastOf_eq_none : lastOf r l = none ↔ ∀ a ∈ l, a.rimeID ≠ r := by
  rw [lastOf, Option.map_eq_none_iff, List.getLast?_eq_none_iff, about, List.filter_eq_nil_iff]
  simp

/-- An announcement at the end is the last one about its node. -/
theorem lastOf_concat_self : lastOf a.rimeID (l ++ [a]) = some a.fire := by
  have hone : about a.rimeID [a] = [a] := by simp [about]
  rw [lastOf, about_append, hone]
  simp

theorem lastOf_concat_of_ne (h : a.rimeID ≠ r) : lastOf r (l ++ [a]) = lastOf r l := by
  rw [lastOf, about_append, about_cons_of_ne h]
  simp [lastOf, about]

theorem lastOf_append_of_none (h : lastOf r l' = none) : lastOf r (l ++ l') = lastOf r l := by
  have hnil : about r l' = [] := by simpa [lastOf] using h
  rw [lastOf, about_append, hnil, List.append_nil, lastOf]

theorem lastOf_append_of_some (h : lastOf r l' = some v) : lastOf r (l ++ l') = some v := by
  have hne : about r l' ≠ [] := fun hnil => by simp [lastOf, hnil] at h
  rw [lastOf, about_append, List.getLast?_append_of_ne_nil _ hne]
  exact h

theorem lastOf_congr (h : about r l = about r l') : lastOf r l = lastOf r l' := by
  rw [lastOf, lastOf, h]

/-- What is listed, and not followed by the contrary, is what the list says last. -/
theorem lastOf_of_mem (hmem : ⟨r, v⟩ ∈ l) (h : ¬ [⟨r, v⟩, ⟨r, !v⟩].Sublist l) :
    lastOf r l = some v := by
  have habout : (⟨r, v⟩ : Announcement) ∈ about r l := mem_about.mpr ⟨hmem, rfl⟩
  obtain ⟨front, b, heq⟩ := (List.eq_nil_or_concat (about r l)).resolve_left
    (List.ne_nil_of_mem habout)
  rw [List.concat_eq_append] at heq
  have hb : b.rimeID = r := (mem_about.mp (heq ▸ List.mem_append_right _ List.mem_cons_self)).2
  have hfire : b.fire = v := by
    by_contra hne
    -- otherwise the contrary stands behind it
    have hbv : b = ⟨r, !v⟩ := by
      obtain ⟨br, bf⟩ := b
      subst hb
      cases bf <;> cases v <;> simp_all
    rw [heq, List.mem_append, List.mem_singleton] at habout
    have hfront : (⟨r, v⟩ : Announcement) ∈ front := by
      refine habout.resolve_right fun hself => ?_
      rw [hbv, Announcement.mk.injEq] at hself
      cases v <;> simp at hself
    have hsub : [(⟨r, v⟩ : Announcement), ⟨r, !v⟩].Sublist (about r l) := by
      rw [heq, hbv]
      exact (List.singleton_sublist.mpr hfront).append (List.Sublist.refl _)
    exact h (hsub.trans List.filter_sublist)
  rw [lastOf, heq]
  simp [hfire]

/-! ### The end of a fire -/

/-- `cleanFire` of the announcement at place `x`, the end of a fire of `r`: it is removed, and
the fires of `r` before it. -/
def clean (x : ℕ) (r : Text) (l : List Announcement) : List Announcement :=
  (l.take x).filter (· ≠ ⟨r, true⟩) ++ l.drop (x + 1)

theorem clean_sublist (x : ℕ) (r : Text) (l : List Announcement) : (clean x r l).Sublist l := by
  calc (clean x r l).Sublist (l.take x ++ l.drop (x + 1)) :=
        List.Sublist.append List.filter_sublist (List.Sublist.refl _)
    _ |>.Sublist l := by
        conv_rhs => rw [← List.take_append_drop x l]
        exact (List.Sublist.refl _).append (by
          rw [← List.drop_drop]
          exact List.drop_sublist _ _)

theorem eq_take_append {x : ℕ} (hx : l[x]? = some a) : l = l.take x ++ a :: l.drop (x + 1) := by
  obtain ⟨hlt, hget⟩ := List.getElem?_eq_some_iff.mp hx
  conv_lhs => rw [← List.take_append_drop x l, List.drop_eq_getElem_cons hlt, hget]

/-- The announcement at a place is not listed at another. -/
theorem notMem_of_nodup {x : ℕ} (hl : l.Nodup) (hx : l[x]? = some a) :
    a ∉ l.take x ∧ a ∉ l.drop (x + 1) := by
  rw [eq_take_append hx, List.nodup_middle, List.nodup_cons, List.mem_append, not_or] at hl
  exact hl.1

/-- What is listed before a place is not listed behind it. -/
theorem notMem_drop_of_mem_take {x : ℕ} (hl : l.Nodup) (ha : a ∈ l.take x) :
    a ∉ l.drop (x + 1) := by
  intro hdrop
  have hdis := List.disjoint_of_nodup_append ((List.take_append_drop x l).symm ▸ hl)
  have hsub : l.drop (x + 1) ⊆ l.drop x := by
    rw [← List.drop_drop]
    exact List.drop_subset _ _
  exact hdis ha (hsub hdrop)

theorem about_clean_of_ne {x : ℕ} {r' : Text} (hx : l[x]? = some ⟨r, false⟩) (hne : r' ≠ r) :
    about r' (clean x r l) = about r' l := by
  have hfilter : about r' ((l.take x).filter (· ≠ ⟨r, true⟩)) = about r' (l.take x) := by
    rw [about, List.filter_filter, about]
    apply List.filter_congr
    intro a _
    by_cases ha : a.rimeID = r'
    · have hna : a ≠ ⟨r, true⟩ := fun heq => hne (by rw [← ha, heq])
      simp [ha, hna]
    · simp [ha]
  conv_rhs => rw [eq_take_append hx]
  rw [clean, about_append, about_append, hfilter, about_cons_of_ne hne.symm]

/-- Of the node whose fire has ended the list says what it says behind the end. -/
theorem lastOf_clean_self {x : ℕ} (hl : l.Nodup) (hx : l[x]? = some ⟨r, false⟩) :
    lastOf r (clean x r l) = lastOf r (l.drop (x + 1)) := by
  have hnil : about r ((l.take x).filter (· ≠ ⟨r, true⟩)) = [] := by
    rw [about, List.filter_filter, List.filter_eq_nil_iff]
    rintro ⟨ar, af⟩ ha hcond
    simp only [Bool.and_eq_true, decide_eq_true_eq] at hcond
    obtain ⟨rfl, hne⟩ := hcond
    cases af with
    | true => exact hne rfl
    | false => exact (notMem_of_nodup hl hx).1 ha
  apply lastOf_congr
  rw [clean, about_append, hnil, List.nil_append]

/-- The end of a fire is the last that is said of the node if nothing is said behind it. -/
theorem lastOf_of_drop_none {x : ℕ} (hx : l[x]? = some a)
    (hnone : lastOf a.rimeID (l.drop (x + 1)) = none) : lastOf a.rimeID l = some a.fire := by
  rw [eq_take_append hx, List.append_cons, lastOf_append_of_none hnone, lastOf_concat_self]

theorem lastOf_of_drop_some {x : ℕ} (hx : l[x]? = some a)
    (hsome : lastOf r (l.drop (x + 1)) = some v) : lastOf r l = some v := by
  rw [eq_take_append hx, List.append_cons, lastOf_append_of_some hsome]

end Announcement

/-! ### Working the announcements off -/

open Announcement

/-- The nodes of the map and the announcements that have come in. -/
structure Board where
  nodes : List SensorNode
  fires : List Announcement

namespace Board

/-- A node after an announcement. -/
def mark (a : Announcement) (sn : SensorNode) : SensorNode :=
  if sn.rimeID = a.rimeID then sn.setOnFire a.fire else sn

/-- Working off the announcement at place `x`. -/
def process (x : ℕ) (b : Board) : Board :=
  match b.fires[x]? with
  | none => b
  | some a =>
    { nodes := b.nodes.map (mark a)
      fires := if a.fire then b.fires else clean x a.rimeID b.fires }

/-- Working off the announcements from place `x` on; after a removal some are passed over. -/
def processFrom : ℕ → ℕ → Board → Board
  | 0, _, b => b
  | fuel + 1, x, b => if x < b.fires.length then processFrom fuel (x + 1) (b.process x) else b

/-- What the flag of a node comes to: what the announcements say last, or else what it is. -/
def value (b : Board) (sn : SensorNode) : Bool := (lastOf sn.rimeID b.fires).getD sn.isOnFire

/-- The nodes as they are once their flags have come to what they come to. -/
def outlook (b : Board) : List SensorNode := b.nodes.map fun sn => sn.setOnFire (b.value sn)

variable {b : Board} {a : Announcement} {x j : ℕ} {L : List Announcement}

@[simp] theorem mark_rimeID (a : Announcement) (sn : SensorNode) :
    (mark a sn).rimeID = sn.rimeID := by
  unfold mark
  split <;> rfl

theorem mark_of_ne {sn : SensorNode} (h : sn.rimeID ≠ a.rimeID) : mark a sn = sn := if_neg h

theorem mark_of_eq {sn : SensorNode} (h : sn.rimeID = a.rimeID) : mark a sn = sn.setOnFire a.fire :=
  if_pos h

theorem process_eq (h : b.fires[x]? = some a) : b.process x =
    ⟨b.nodes.map (mark a), if a.fire then b.fires else clean x a.rimeID b.fires⟩ := by
  rw [process, h]

theorem process_sublist (x : ℕ) (b : Board) : (b.process x).fires.Sublist b.fires := by
  cases h : b.fires[x]? with
  | none => rw [process, h]
  | some a =>
    rw [process_eq h]
    simp only
    split
    · exact List.Sublist.refl _
    · exact clean_sublist _ _ _

/-- Working an announcement off does not change what a flag comes to. -/
theorem value_process (hl : b.fires.Nodup) (h : b.fires[x]? = some a) (sn : SensorNode) :
    (b.process x).value (mark a sn) = b.value sn := by
  obtain ⟨r, v⟩ := a
  rw [process_eq h]
  simp only [value, mark_rimeID]
  cases v with
  | true =>
    rw [if_pos rfl]
    by_cases hr : sn.rimeID = r
    · have hsome : lastOf sn.rimeID b.fires ≠ none := fun hnone =>
        lastOf_eq_none.mp hnone _ (List.mem_of_getElem? h) hr.symm
      obtain ⟨w, hw⟩ := Option.ne_none_iff_exists'.mp hsome
      rw [hw]
      rfl
    · rw [mark_of_ne hr]
  | false =>
    rw [if_neg Bool.false_ne_true]
    by_cases hr : sn.rimeID = r
    · subst hr
      rw [lastOf_clean_self hl h]
      cases hdrop : lastOf sn.rimeID (b.fires.drop (x + 1)) with
      | none =>
        rw [lastOf_of_drop_none h hdrop, mark_of_eq rfl]
        rfl
      | some w =>
        rw [lastOf_of_drop_some h hdrop]
        rfl
    · rw [mark_of_ne hr, lastOf_congr (about_clean_of_ne h hr)]

theorem outlook_process (hl : b.fires.Nodup) (x : ℕ) : (b.process x).outlook = b.outlook := by
  cases h : b.fires[x]? with
  | none => rw [process, h]
  | some a =>
    have hnodes : (b.process x).nodes = b.nodes.map (mark a) := by rw [process_eq h]
    have hmark : ∀ sn v, (mark a sn).setOnFire v = sn.setOnFire v := fun sn v => by
      unfold mark
      split <;> rfl
    rw [outlook, hnodes, List.map_map]
    apply List.map_congr_left
    intro sn _
    simp only [Function.comp_apply, hmark, value_process hl h]

/-- **Working the announcements off does not change what the nodes come to.** -/
theorem outlook_processFrom : ∀ (fuel x : ℕ) (b : Board), b.fires.Nodup →
    (processFrom fuel x b).outlook = b.outlook := by
  intro fuel
  induction fuel with
  | zero => intro x b _; rfl
  | succ fuel ih =>
    intro x b hl
    rw [processFrom]
    split
    · rw [ih _ _ (hl.sublist (process_sublist x b)), outlook_process hl]
    · rfl

/-! ### What has been worked off -/

/-- The first `j` announcements of the list `L`, as far as they are still listed, are fires
that have been worked off. -/
def Seen (L : List Announcement) (j x : ℕ) (b : Board) : Prop :=
  ∀ a ∈ L.take j, a ∈ b.fires → a.fire = true ∧ a ∈ b.fires.take x ∧
    ∀ sn ∈ b.nodes, sn.rimeID = a.rimeID → sn.isOnFire = true

/-- While `L` is worked off: either nothing has been removed yet, and all before the place
`x` has been worked off, or so has all before the first place from which something has been
removed. -/
structure Working (L : List Announcement) (x : ℕ) (b : Board) : Prop where
  nodup : b.fires.Nodup
  seen : ∃ j, Seen L j x b ∧ (b.fires = L ∧ j = x ∨ ∃ a, L[j]? = some a ∧ a ∉ b.fires)

theorem Seen.process_fire (hs : Seen L j x b) (h : b.fires[x]? = some a) (ha : a.fire = true) :
    Seen L j (x + 1) (b.process x) := by
  rw [process_eq h, if_pos ha]
  intro c hc hlisted
  obtain ⟨hfire, htake, hflags⟩ := hs c hc hlisted
  refine ⟨hfire, ?_, ?_⟩
  · have hsub : b.fires.take x ⊆ b.fires.take (x + 1) :=
      (List.take_prefix_take_left (Nat.le_succ x)).subset
    exact hsub htake
  · intro sn hsn hid
    obtain ⟨sn', hsn', rfl⟩ := List.mem_map.mp hsn
    rw [mark_rimeID] at hid
    by_cases hr : sn'.rimeID = a.rimeID
    · rw [mark_of_eq hr]
      exact ha
    · rw [mark_of_ne hr]
      exact hflags sn' hsn' hid

theorem Seen.process_clean (hs : Seen L j x b) (hl : b.fires.Nodup) (h : b.fires[x]? = some a)
    (ha : a.fire = false) : Seen L j (x + 1) (b.process x) := by
  obtain ⟨r, v⟩ := a
  subst ha
  rw [process_eq h, if_neg Bool.false_ne_true]
  intro c hc hlisted
  obtain ⟨hfire, htake, hflags⟩ := hs c hc ((clean_sublist _ _ _).subset hlisted)
  -- `c` is listed before the end of the fire, and it is not the fire that has ended
  have hfront : c ∈ (b.fires.take x).filter (· ≠ ⟨r, true⟩) :=
    (List.mem_append.mp hlisted).resolve_right (notMem_drop_of_mem_take hl htake)
  have hr : c.rimeID ≠ r := by
    intro hcr
    have hne : c ≠ ⟨r, true⟩ := by simpa using (List.mem_filter.mp hfront).2
    obtain ⟨cr, cf⟩ := c
    subst hcr
    subst hfire
    exact hne rfl
  refine ⟨hfire, ?_, ?_⟩
  · have hlen : ((b.fires.take x).filter (· ≠ ⟨r, true⟩)).length ≤ x + 1 :=
      (List.length_filter_le _ _).trans ((List.length_take_le _ _).trans (Nat.le_succ x))
    change c ∈ (clean x r b.fires).take (x + 1)
    rw [clean, List.take_append, List.take_of_length_le hlen]
    exact List.mem_append_left _ hfront
  · intro sn hsn hid
    obtain ⟨sn', hsn', rfl⟩ := List.mem_map.mp hsn
    rw [mark_rimeID] at hid
    rw [mark_of_ne (fun heq => hr (hid.symm.trans heq))]
    exact hflags sn' hsn' hid

theorem Working.process (h : Working L x b) (hlt : x < b.fires.length) :
    Working L (x + 1) (b.process x) := by
  obtain ⟨j, hs, hj⟩ := h.seen
  have ha : b.fires[x]? = some b.fires[x] := List.getElem?_eq_getElem hlt
  have hsub := process_sublist x b
  refine ⟨h.nodup.sublist hsub, ?_⟩
  generalize b.fires[x] = a at ha
  cases hfire : a.fire with
  | true =>
    have hs' := hs.process_fire ha hfire
    rcases hj with ⟨rfl, rfl⟩ | ⟨c, hc, hgone⟩
    · refine ⟨j + 1, ?_, .inl ⟨by rw [process_eq ha, if_pos hfire], rfl⟩⟩
      intro c hc hlisted
      rw [List.take_add_one, ha, Option.toList_some, List.mem_append, List.mem_singleton] at hc
      rcases hc with hc | rfl
      · exact hs' c hc hlisted
      · refine ⟨hfire, ?_, ?_⟩
        · rw [process_eq ha, if_pos hfire]
          simp only
          rw [List.take_add_one, ha]
          simp
        · rw [process_eq ha]
          intro sn hsn hid
          obtain ⟨sn', -, rfl⟩ := List.mem_map.mp hsn
          rw [mark_rimeID] at hid
          rw [mark_of_eq hid]
          exact hfire
    · exact ⟨j, hs', .inr ⟨c, hc, fun hmem => hgone (hsub.subset hmem)⟩⟩
  | false =>
    have hs' := hs.process_clean h.nodup ha hfire
    rcases hj with ⟨rfl, rfl⟩ | ⟨c, hc, hgone⟩
    · refine ⟨j, hs', .inr ⟨a, ha, ?_⟩⟩
      obtain ⟨hbefore, hbehind⟩ := notMem_of_nodup h.nodup ha
      rw [process_eq ha, if_neg (by simp [hfire])]
      intro hmem
      rcases List.mem_append.mp hmem with hmem | hmem
      · exact hbefore (List.mem_of_mem_filter hmem)
      · exact hbehind hmem
    · exact ⟨j, hs', .inr ⟨c, hc, fun hmem => hgone (hsub.subset hmem)⟩⟩

theorem Working.processFrom : ∀ (fuel x : ℕ) (b : Board), Working L x b →
    b.fires.length ≤ x + fuel →
    ∃ x', Working L x' (Board.processFrom fuel x b) ∧
      (Board.processFrom fuel x b).fires.length ≤ x' := by
  intro fuel
  induction fuel with
  | zero => intro x b h hlen; exact ⟨x, h, hlen⟩
  | succ fuel ih =>
    intro x b h hlen
    rw [Board.processFrom]
    split
    · next hlt =>
      refine ih (x + 1) (b.process x) (h.process hlt) ?_
      have hle := (process_sublist x b).length_le
      omega
    · next hge => exact ⟨x, h, Nat.le_of_not_lt hge⟩

/-- The board after all announcements have been worked off. -/
def processAll (b : Board) : Board := processFrom b.fires.length 0 b

/-- What is left over, if it begins the list that has been worked off, are fires that have been
worked off. -/
theorem fires_of_prefix (hl : b.fires.Nodup) (hpre : b.processAll.fires <+: b.fires) {c : Announcement}
    (hc : c ∈ b.processAll.fires) :
    c.fire = true ∧ ∀ sn ∈ b.processAll.nodes, sn.rimeID = c.rimeID → sn.isOnFire = true := by
  have hstart : Working b.fires 0 b := by
    refine ⟨hl, 0, ?_, .inl ⟨rfl, rfl⟩⟩
    intro a ha
    rw [List.take_zero] at ha
    cases ha
  obtain ⟨x', hw, hx'⟩ := hstart.processFrom b.fires.length 0 b (by omega)
  obtain ⟨j, hs, hj⟩ := hw.seen
  change Seen b.fires j x' b.processAll at hs
  have hmem : c ∈ b.fires.take j := by
    rcases hj with ⟨heq, rfl⟩ | ⟨d, hd, hgone⟩
    · change b.processAll.fires = b.fires at heq
      rw [List.take_of_length_le (heq ▸ hx'), ← heq]
      exact hc
    · have heq := List.prefix_iff_eq_take.mp hpre
      have hle : b.processAll.fires.length ≤ j := by
        by_contra hlt
        refine hgone ?_
        change d ∈ b.processAll.fires
        rw [heq]
        exact List.mem_of_getElem? (i := j) (by
          rw [List.getElem?_take_of_lt (by omega)]
          exact hd)
      rw [heq] at hc
      exact (List.take_prefix_take_left hle).subset hc
  obtain ⟨hfire, -, hflags⟩ := hs c hmem hc
  exact ⟨hfire, hflags⟩

/-- **When the list left over begins the one worked off, the flags of its nodes say what it
said last.** -/
theorem value_of_prefix (hl : b.fires.Nodup) (hpre : b.processAll.fires <+: b.fires)
    {sn : SensorNode} (hsn : sn ∈ b.processAll.nodes) {v : Bool}
    (hv : lastOf sn.rimeID b.fires = some v) : sn.isOnFire = v := by
  have houtlook : b.processAll.outlook = b.outlook := outlook_processFrom b.fires.length 0 b hl
  have hmem : sn.setOnFire (b.processAll.value sn) ∈ b.outlook := by
    rw [← houtlook]
    exact List.mem_map.mpr ⟨sn, hsn, rfl⟩
  obtain ⟨sn', -, heq⟩ := List.mem_map.mp hmem
  have hid : sn'.rimeID = sn.rimeID := by
    have h := congrArg SensorNode.rimeID heq
    exact h
  have hvalue : b.processAll.value sn = v := by
    have hfire := congrArg SensorNode.isOnFire heq
    change b.value sn' = b.processAll.value sn at hfire
    rw [← hfire, value, hid, hv]
    rfl
  cases hlast : lastOf sn.rimeID b.processAll.fires with
  | none =>
    rw [value, hlast] at hvalue
    exact hvalue
  | some w =>
    -- the node is still listed, so it has a fire, and its flag is set
    rw [value, hlast, Option.getD_some] at hvalue
    obtain ⟨c, hc, hcw⟩ := Option.map_eq_some_iff.mp hlast
    obtain ⟨hlisted, hid⟩ := mem_about.mp (List.mem_of_getLast? hc)
    obtain ⟨hfire, hflags⟩ := fires_of_prefix hl hpre hlisted
    rw [hflags sn hsn hid.symm, ← hvalue, ← hcw, hfire]

end Board

end EmergencyNet
