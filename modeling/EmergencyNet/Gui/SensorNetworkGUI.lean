import EmergencyNet.Gui.Announcements

/-!
# The map

`GUI/SensorNetworkGUI.java`: `checkNewData` parses the reports anew, and works the fire
announcements off when their list has changed since it last did.  `cleanFire` removes from
the list while it is gone through by index.

## Main definitions

* `SensorNetworkGUI`, `SensorNetworkGUI.checkNewData` — the map and its polling.
* `SensorNetworkGUI.Shows` — the map and its texts stand for a `Board`.

## Main results

* `SensorNetworkGUI.announce_spec` — one announcement is worked off as `Board.process` does.
* `SensorNetworkGUI.checkNewData_spec` — **a poll does not throw, and it works the
  announcements off as `Board.processAll` does, or leaves them alone.**
-/

namespace EmergencyNet

/-- `SensorNetworkGUI`, with the `SerialCommunication` it reads; `fireVector` is the latter's
`fireData` itself. -/
structure SensorNetworkGUI where
  serialCom : SerialCommunication
  nodeVector : List SensorNode
  oldNodeVector : List SensorNode
  oldFireVector : List Text

namespace SensorNetworkGUI

open SensorNode SerialCommunication

/-! ### Polling -/

/-- The loop that parses the reports into `nodeVector`, entry by entry. -/
def parseNodes : List Text → List SensorNode → Option (List SensorNode)
  | [], nodes => some nodes
  | report :: data, nodes => do
    let sn ← parseSensorNode report
    let rest ← parseNodes data nodes.tail
    return sn :: rest

/-- What the announcement at place `x` does to the node at place `q`; a fire that has ended is
set in `nodeVector` too, up to the next poll. -/
def markNode (fireOccurence : Bool) (temp : Text) (x q : ℕ) (r : SensorNetworkGUI × Bool) :
    Option (SensorNetworkGUI × Bool) := do
  let sn ← r.1.nodeVector[q]?
  if sn.rimeID = temp then
    let nodes := r.1.nodeVector.set q (sn.setOnFire true)
    let c ← r.1.serialCom.changeFireStatus q (flagText fireOccurence)
    let c ← if fireOccurence then some c else c.cleanFire x
    return ({ r.1 with serialCom := c, nodeVector := nodes, oldNodeVector := nodes }, true)
  else return r

/-- The announcement at place `x`. -/
def announce (x : ℕ) (r : SensorNetworkGUI × Bool) : Option (SensorNetworkGUI × Bool) := do
  let temp ← r.1.serialCom.fireData[x]?
  let rimeID ← behindPrefix temp
  (List.range r.1.nodeVector.length).foldlM
    (fun r q => markNode (!cleanPrefix.isPrefixOf temp) rimeID x q r) r

/-- The loop over the announcements; each pass goes on to the next place, and none adds an
announcement, so their number is fuel enough. -/
def announceFrom : ℕ → ℕ → SensorNetworkGUI × Bool → Option (SensorNetworkGUI × Bool)
  | 0, _, r => some r
  | fuel + 1, x, r =>
    if x < r.1.serialCom.fireData.length then (announce x r).bind (announceFrom fuel (x + 1))
    else some r

/-- `checkNewData`; `none` where it throws. -/
def checkNewData (g : SensorNetworkGUI) : Option (SensorNetworkGUI × Bool) := do
  let nodes ← parseNodes g.serialCom.data g.nodeVector
  let newData := decide (g.serialCom.data ≠ [] ∧ nodes ≠ g.oldNodeVector)
  let g' : SensorNetworkGUI :=
    { g with nodeVector := nodes, oldNodeVector := if newData then nodes else g.oldNodeVector }
  if g.serialCom.fireData = g.oldFireVector then return (g', newData)
  else
    announceFrom g.serialCom.fireData.length 0
      ({ g' with oldFireVector := g.serialCom.fireData }, newData)

/-! ### The board behind the texts -/

/-- The reports and the announcements are the texts of a board: its nodes are well formed, each
announcement is about one of them, a fire that has ended about just one, and none is listed
twice. -/
structure Shows (g : SensorNetworkGUI) (b : Board) : Prop where
  data : g.serialCom.data = b.nodes.map SensorNode.text
  fireData : g.serialCom.fireData = b.fires.map Announcement.text
  wellFormed : ∀ sn ∈ b.nodes, sn.WellFormed
  reported : ∀ a ∈ b.fires, a.rimeID ∈ b.nodes.map (·.rimeID)
  once : ∀ a ∈ b.fires, a.fire = false → (b.nodes.map (·.rimeID)).count a.rimeID = 1
  nodup : b.fires.Nodup

/-- The map shows the nodes of the board, up to their flags. -/
structure Tracks (g : SensorNetworkGUI) (b : Board) : Prop extends Shows g b where
  nodeVector : g.nodeVector.map (·.rimeID) = b.nodes.map (·.rimeID)

variable {g : SensorNetworkGUI} {b : Board} {a : Announcement} {x q : ℕ} {n : Bool}

theorem colon_notMem_of_reported {r : Text} {nodes : List SensorNode}
    (hwf : ∀ sn ∈ nodes, sn.WellFormed) (h : r ∈ nodes.map (·.rimeID)) : ':' ∉ r := by
  obtain ⟨sn, hsn, rfl⟩ := List.mem_map.mp h
  exact (hwf sn hsn).rimeID

/-- The texts of announcements about nodes differ. -/
theorem text_injective {c : Announcement} (ha : ':' ∉ a.rimeID) (hc : ':' ∉ c.rimeID)
    (h : a.text = c.text) : a = c := by
  have hcolon : ':' ∈ cleanPrefix := by decide
  obtain ⟨ar, av⟩ := a
  obtain ⟨cr, cv⟩ := c
  cases av <;> cases cv
  · exact congrArg (Announcement.mk · false) (List.append_cancel_left h)
  · have hcr : cleanPrefix ++ ar = cr := h
    exact absurd (hcr ▸ List.mem_append_left ar hcolon) hc
  · have har : ar = cleanPrefix ++ cr := h
    exact absurd (har ▸ List.mem_append_left cr hcolon) ha
  · exact congrArg (Announcement.mk · true) h

/-- So do the texts of lists of them. -/
theorem map_text_injective : ∀ l L : List Announcement, (∀ a ∈ l, ':' ∉ a.rimeID) →
    (∀ a ∈ L, ':' ∉ a.rimeID) → l.map Announcement.text = L.map Announcement.text → l = L := by
  intro l
  induction l with
  | nil =>
    intro L _ _ h
    exact (List.map_eq_nil_iff.mp h.symm).symm
  | cons a l ih =>
    intro L hl hL h
    cases L with
    | nil => cases h
    | cons c L =>
      rw [List.map_cons, List.map_cons, List.cons.injEq] at h
      have hac := text_injective (hl a List.mem_cons_self) (hL c List.mem_cons_self) h.1
      have hrest := ih L (fun d hd => hl d (List.mem_cons_of_mem _ hd))
        (fun d hd => hL d (List.mem_cons_of_mem _ hd)) h.2
      rw [hac, hrest]

theorem isPrefixOf_text (ha : ':' ∉ a.rimeID) : (!cleanPrefix.isPrefixOf a.text) = a.fire := by
  obtain ⟨r, v⟩ := a
  cases v with
  | false =>
    have hpre : cleanPrefix.isPrefixOf (cleanPrefix ++ r) = true :=
      List.isPrefixOf_iff_prefix.mpr (List.prefix_append _ _)
    change (!cleanPrefix.isPrefixOf (cleanPrefix ++ r)) = false
    rw [hpre]
    rfl
  | true =>
    change (!cleanPrefix.isPrefixOf r) = true
    rw [Bool.not_eq_true', ← Bool.not_eq_true, List.isPrefixOf_iff_prefix]
    intro hpre
    exact ha (hpre.subset (by decide))

theorem behindPrefix_text (ha : ':' ∉ a.rimeID) : behindPrefix a.text = some a.rimeID := by
  obtain ⟨r, v⟩ := a
  cases v with
  | false =>
    have hsplit : cleanPrefix = "clean".toList ++ [':'] := by decide
    exact behindPrefix_append r hsplit (by decide)
  | true => exact Text.substringFrom_indexOf_of_notMem ha

/-! ### Removing the end of a fire -/

/-- The loop of `cleanFire` removes what is equal before the place it starts from. -/
theorem removeBefore_eq (t : Text) : ∀ (i : ℕ) (l : List Text), i ≤ l.length →
    removeBefore t i l = (l.take i).filter (· ≠ t) ++ l.drop i := by
  intro i
  induction i with
  | zero => intro l _; simp [removeBefore]
  | succ i ih =>
    intro l hi
    have hget : l[i]? = some l[i] := List.getElem?_eq_getElem hi
    rw [removeBefore, hget, List.take_add_one, hget, Option.toList_some, List.filter_append]
    by_cases heq : l[i] = t
    · have hlen : i ≤ (l.eraseIdx i).length := by
        rw [List.length_eraseIdx_of_lt hi]
        omega
      rw [if_pos (by rw [heq]), ih _ hlen, List.eraseIdx_eq_take_drop_succ,
        List.take_left' (by rw [List.length_take]; omega),
        List.drop_left' (by rw [List.length_take]; omega)]
      simp [heq]
    · have hdrop : l.drop i = l[i] :: l.drop (i + 1) := List.drop_eq_getElem_cons hi
      rw [if_neg (by simpa using heq), ih _ (by omega), hdrop]
      simp [heq]

/-- `cleanFire` of the end of a fire. -/
theorem cleanFire_text {c : SerialCommunication} {l : List Announcement} {r : Text}
    (hc : c.fireData = l.map Announcement.text) (hl : ∀ a ∈ l, ':' ∉ a.rimeID)
    (hx : l[x]? = some ⟨r, false⟩) :
    c.cleanFire x = some { c with fireData := (Announcement.clean x r l).map Announcement.text } := by
  obtain ⟨hlt, -⟩ := List.getElem?_eq_some_iff.mp hx
  have hr : ':' ∉ r := hl _ (List.mem_of_getElem? hx)
  have hget : c.fireData[x]? = some (cleanPrefix ++ r) := by
    rw [hc, List.getElem?_map, hx]
    rfl
  have hpre : cleanPrefix.isPrefixOf (cleanPrefix ++ r) = true :=
    List.isPrefixOf_iff_prefix.mpr (List.prefix_append _ _)
  have hbehind : behindPrefix (cleanPrefix ++ r) = some r := behindPrefix_text (a := ⟨r, false⟩) hr
  have hlen : x ≤ (c.fireData.eraseIdx x).length := by
    rw [hc, List.length_eraseIdx_of_lt (by rwa [List.length_map]), List.length_map]
    omega
  -- among the texts before it those of its fires are removed
  have hfilter : ((l.take x).map Announcement.text).filter (· ≠ r) =
      ((l.take x).filter (· ≠ ⟨r, true⟩)).map Announcement.text := by
    rw [List.filter_map]
    congr 1
    apply List.filter_congr
    intro a ha
    have hiff : a.text = r ↔ a = ⟨r, true⟩ :=
      ⟨fun h => text_injective (c := ⟨r, true⟩) (hl a (List.mem_of_mem_take ha)) hr h,
        fun h => by rw [h]; rfl⟩
    simp [hiff]
  have hremoved : removeBefore r x (c.fireData.eraseIdx x) =
      (Announcement.clean x r l).map Announcement.text := by
    rw [removeBefore_eq _ _ _ hlen, hc, List.eraseIdx_map, List.eraseIdx_eq_take_drop_succ,
      List.map_append, List.take_left' (by simp; omega), List.drop_left' (by simp; omega),
      hfilter, Announcement.clean, List.map_append]
  simp only [cleanFire, hget, Option.bind_eq_bind, Option.bind_some, hpre, if_true, hbehind,
    hremoved]
  rfl

/-! ### One announcement -/

theorem markNode_of_ne {f : Bool} {temp : Text} {r : SensorNetworkGUI × Bool} {sn : SensorNode}
    (hq : r.1.nodeVector[q]? = some sn) (h : sn.rimeID ≠ temp) :
    markNode f temp x q r = some r := by
  simp only [markNode, hq, Option.bind_eq_bind, Option.bind_some, if_neg h]
  rfl

/-- The nodes an announcement is not about stay as they are. -/
theorem foldlM_markNode_of_ne {f : Bool} {temp : Text} {r : SensorNetworkGUI × Bool} :
    ∀ l : List ℕ, (∀ q ∈ l, ∃ sn, r.1.nodeVector[q]? = some sn ∧ sn.rimeID ≠ temp) →
      l.foldlM (fun r q => markNode f temp x q r) r = some r := by
  intro l
  induction l with
  | nil => intro _; rfl
  | cons q l ih =>
    intro h
    obtain ⟨sn, hsn, hne⟩ := h q List.mem_cons_self
    rw [List.foldlM_cons, markNode_of_ne hsn hne, Option.bind_eq_bind, Option.bind_some]
    exact ih fun q hq => h q (List.mem_cons_of_mem _ hq)

/-- The map has a node wherever the board has one, with the same address. -/
theorem Tracks.getElem (hg : Tracks g b) {sn : SensorNode} (hq : b.nodes[q]? = some sn) :
    ∃ vsn, g.nodeVector[q]? = some vsn ∧ vsn.rimeID = sn.rimeID := by
  have h := congrArg (·[q]?) hg.nodeVector
  simp only [List.getElem?_map, hq, Option.map_some] at h
  exact Option.map_eq_some_iff.mp h

theorem set_of_getElem? {α : Type*} {l : List α} {c : α} (h : l[q]? = some c) : l.set q c = l := by
  obtain ⟨hlt, rfl⟩ := List.getElem?_eq_some_iff.mp h
  exact List.set_getElem_self hlt

/-- One node of the board and the list of announcements are changed. -/
theorem Tracks.set (hg : Tracks g b) {sn vsn : SensorNode} {v : Bool} {l : List Announcement}
    (hq : b.nodes[q]? = some sn) (hvq : g.nodeVector[q]? = some vsn) (hl : l.Sublist b.fires) :
    Tracks { g with
        serialCom := ⟨g.serialCom.data.set q (sn.setOnFire v).text, l.map Announcement.text⟩
        nodeVector := g.nodeVector.set q (vsn.setOnFire true)
        oldNodeVector := g.nodeVector.set q (vsn.setOnFire true) }
      ⟨b.nodes.set q (sn.setOnFire v), l⟩ := by
  have hids : (b.nodes.set q (sn.setOnFire v)).map (·.rimeID) = b.nodes.map (·.rimeID) := by
    rw [List.map_set]
    exact set_of_getElem? (by rw [List.getElem?_map, hq]; rfl)
  refine ⟨⟨?_, rfl, ?_, ?_, ?_, hg.nodup.sublist hl⟩, ?_⟩
  · change g.serialCom.data.set q _ = _
    rw [hg.data, List.map_set]
  · intro sn' hsn'
    rcases List.mem_or_eq_of_mem_set hsn' with hmem | rfl
    · exact hg.wellFormed sn' hmem
    · exact (hg.wellFormed sn (List.mem_of_getElem? hq)).setOnFire v
  · intro c hc
    rw [hids]
    exact hg.reported c (hl.subset hc)
  · intro c hc hfire
    rw [hids]
    exact hg.once c (hl.subset hc) hfire
  · change (g.nodeVector.set q (vsn.setOnFire true)).map _ = (b.nodes.set q _).map _
    rw [hids, ← hg.nodeVector, List.map_set]
    exact set_of_getElem? (by rw [List.getElem?_map, hvq]; rfl)

/-- A fire at the node at place `q`. -/
theorem markNode_fire (hg : Tracks g b) {sn : SensorNode} (hq : b.nodes[q]? = some sn) (x : ℕ) :
    ∃ r', markNode true sn.rimeID x q (g, n) = some r' ∧ r'.2 = true ∧
      Tracks r'.1 ⟨b.nodes.set q (sn.setOnFire true), b.fires⟩ ∧
      r'.1.oldFireVector = g.oldFireVector := by
  obtain ⟨vsn, hvq, hid⟩ := hg.getElem hq
  have hdata : g.serialCom.data[q]? = some sn.text := by rw [hg.data, List.getElem?_map, hq]; rfl
  have htracks := hg.set (v := true) hq hvq (List.Sublist.refl _)
  rw [← hg.fireData] at htracks
  refine ⟨(_, true), ?_, rfl, htracks, ?_⟩
  · simp only [markNode, hvq, Option.bind_eq_bind, Option.bind_some, if_pos hid,
      changeFireStatus_text hdata, if_true]
    rfl
  · rfl

/-- The end of a fire at the node at place `q`. -/
theorem markNode_clean (hg : Tracks g b) {sn : SensorNode} (hq : b.nodes[q]? = some sn)
    (hx : b.fires[x]? = some ⟨sn.rimeID, false⟩) :
    ∃ r', markNode false sn.rimeID x q (g, n) = some r' ∧ r'.2 = true ∧
      Tracks r'.1 ⟨b.nodes.set q (sn.setOnFire false), Announcement.clean x sn.rimeID b.fires⟩ ∧
      r'.1.oldFireVector = g.oldFireVector := by
  obtain ⟨vsn, hvq, hid⟩ := hg.getElem hq
  have hdata : g.serialCom.data[q]? = some sn.text := by rw [hg.data, List.getElem?_map, hq]; rfl
  have hcolon : ∀ a ∈ b.fires, ':' ∉ a.rimeID := fun a ha =>
    colon_notMem_of_reported hg.wellFormed (hg.reported a ha)
  have hclean := cleanFire_text (c := { g.serialCom with
    data := g.serialCom.data.set q (sn.setOnFire false).text }) hg.fireData hcolon hx
  have htracks := hg.set (v := false) hq hvq (Announcement.clean_sublist x sn.rimeID b.fires)
  refine ⟨(_, true), ?_, rfl, htracks, ?_⟩
  · simp only [markNode, hvq, Option.bind_eq_bind, Option.bind_some, if_pos hid,
      changeFireStatus_text hdata, hclean, Bool.false_eq_true, if_false]
    rfl
  · rfl

/-- The places of the nodes a fire is about, up to place `k`. -/
theorem foldlM_markNode_fire (hg : Tracks g b) (r : Text) (x : ℕ) : ∀ k ≤ b.nodes.length,
    ∃ r', (List.range k).foldlM (fun p q => markNode true r x q p) (g, n) = some r' ∧
      Tracks r'.1 ⟨(b.nodes.take k).map (Board.mark ⟨r, true⟩) ++ b.nodes.drop k, b.fires⟩ ∧
      r'.1.oldFireVector = g.oldFireVector ∧
      (n = true ∨ (∃ sn ∈ b.nodes.take k, sn.rimeID = r) → r'.2 = true) := by
  intro k
  induction k with
  | zero =>
    intro _
    exact ⟨(g, n), rfl, hg, rfl, fun h => h.resolve_right (by simp)⟩
  | succ k ih =>
    intro hk
    obtain ⟨r', hfold, htracks, hold, hnew⟩ := ih (by omega)
    obtain ⟨g', n'⟩ := r'
    have hget : b.nodes[k]? = some b.nodes[k] := List.getElem?_eq_getElem hk
    have hlen : ((b.nodes.take k).map (Board.mark ⟨r, true⟩)).length = k := by
      rw [List.length_map, List.length_take]
      omega
    have hat : ((b.nodes.take k).map (Board.mark ⟨r, true⟩) ++ b.nodes.drop k)[k]? =
        some b.nodes[k] := by
      rw [List.getElem?_append_right hlen.le, hlen, Nat.sub_self, List.getElem?_drop, Nat.add_zero,
        hget]
    -- place `k` is the first behind the nodes already marked
    have hset : ∀ sn, ((b.nodes.take k).map (Board.mark ⟨r, true⟩) ++ b.nodes.drop k).set k sn =
        (b.nodes.take k).map (Board.mark ⟨r, true⟩) ++ sn :: b.nodes.drop (k + 1) := fun sn => by
      rw [List.set_append_right _ _ hlen.le, hlen, Nat.sub_self, List.drop_eq_getElem_cons hk,
        List.set_cons_zero]
    have hnext : (b.nodes.take (k + 1)).map (Board.mark ⟨r, true⟩) ++ b.nodes.drop (k + 1) =
        (b.nodes.take k).map (Board.mark ⟨r, true⟩) ++
          Board.mark ⟨r, true⟩ b.nodes[k] :: b.nodes.drop (k + 1) := by
      rw [List.take_add_one, hget, Option.toList_some, List.map_append, List.append_assoc]
      rfl
    rw [List.range_succ, List.foldlM_append, hfold, Option.bind_eq_bind, Option.bind_some,
      List.foldlM_cons, hnext]
    by_cases hr : b.nodes[k].rimeID = r
    · obtain ⟨r'', hmark, hnew', htracks', hold'⟩ := markNode_fire (n := n') htracks hat x
      rw [hr] at hmark
      refine ⟨r'', ?_, ?_, hold'.trans hold, fun _ => hnew'⟩
      · rw [hmark]
        rfl
      · rw [Board.mark_of_eq hr, ← hset]
        exact htracks'
    · -- another node is passed over
      obtain ⟨vsn, hvq, hid⟩ := htracks.getElem hat
      have hmark : markNode true r x k (g', n') = some (g', n') :=
        markNode_of_ne hvq (by rwa [hid])
      refine ⟨(g', n'), ?_, ?_, hold, fun h => hnew (h.imp_right ?_)⟩
      · rw [hmark]
        rfl
      · rw [Board.mark_of_ne hr, ← hset]
        rwa [set_of_getElem? hat]
      · rintro ⟨sn, hsn, hsr⟩
        rw [List.take_add_one, hget, Option.toList_some, List.mem_append, List.mem_singleton] at hsn
        rcases hsn with hsn | rfl
        · exact ⟨sn, hsn, hsr⟩
        · exact absurd hsr hr

/-- What is listed once has a place of its own. -/
theorem exists_index_of_count {α : Type*} [BEq α] [LawfulBEq α] {r : α} :
    ∀ l : List α, l.count r = 1 →
    ∃ k, ∀ q : ℕ, l[q]? = some r ↔ q = k := by
  intro l
  induction l with
  | nil => intro h; simp at h
  | cons c l ih =>
    intro h
    by_cases hc : c = r
    · subst hc
      rw [List.count_cons_self, Nat.add_eq_right, List.count_eq_zero] at h
      refine ⟨0, fun q => ?_⟩
      cases q with
      | zero => simp
      | succ q => simpa using fun hq => h (List.mem_of_getElem? hq)
    · rw [List.count_cons_of_ne hc] at h
      obtain ⟨k, hk⟩ := ih h
      refine ⟨k + 1, fun q => ?_⟩
      cases q with
      | zero => simp [hc]
      | succ q => simpa using hk q

/-- **One announcement is worked off.** -/
theorem announce_spec (hg : Tracks g b) (ha : b.fires[x]? = some a) (n : Bool) :
    ∃ g', announce x (g, n) = some (g', true) ∧ Tracks g' (b.process x) ∧
      g'.oldFireVector = g.oldFireVector := by
  have hmem : a ∈ b.fires := List.mem_of_getElem? ha
  have hcolon := colon_notMem_of_reported hg.wellFormed (hg.reported a hmem)
  have hget : g.serialCom.fireData[x]? = some a.text := by
    rw [hg.fireData, List.getElem?_map, ha]
    rfl
  have hlen : g.nodeVector.length = b.nodes.length := by
    have h := congrArg List.length hg.nodeVector
    rwa [List.length_map, List.length_map] at h
  have hann : announce x (g, n) = (List.range b.nodes.length).foldlM
      (fun p q => markNode a.fire a.rimeID x q p) (g, n) := by
    simp only [announce, hget, Option.bind_eq_bind, Option.bind_some, behindPrefix_text hcolon,
      isPrefixOf_text hcolon, hlen]
  obtain ⟨r, v⟩ := a
  rw [hann, Board.process_eq ha]
  cases v with
  | true =>
    obtain ⟨r', hfold, htracks, hold, hnew⟩ :=
      foldlM_markNode_fire (n := n) hg r x b.nodes.length le_rfl
    rw [List.take_length, List.drop_length, List.append_nil] at htracks
    have hfound : r'.2 = true := hnew (.inr (by
      rw [List.take_length]
      exact List.mem_map.mp (hg.reported _ hmem)))
    exact ⟨r'.1, by rw [hfold, ← hfound], htracks, hold⟩
  | false =>
    obtain ⟨k, hk⟩ := exists_index_of_count _ (hg.once _ hmem rfl)
    obtain ⟨sn, hsn, hid⟩ := Option.map_eq_some_iff.mp
      ((List.getElem?_map ..).symm.trans ((hk k).mpr rfl))
    change sn.rimeID = r at hid
    subst hid
    obtain ⟨hklt, -⟩ := List.getElem?_eq_some_iff.mp hsn
    -- the other places hold other nodes
    obtain ⟨before, behind, hrange⟩ := List.append_of_mem (List.mem_range.mpr hklt)
    have hother : ∀ q ∈ before ++ behind, q ≠ k ∧ q < b.nodes.length := by
      intro q hq
      have hnodup : (before ++ k :: behind).Nodup := hrange ▸ List.nodup_range
      rw [List.nodup_middle, List.nodup_cons] at hnodup
      refine ⟨fun heq => hnodup.1 (heq ▸ hq), List.mem_range.mp ?_⟩
      rw [hrange]
      rcases List.mem_append.mp hq with hq | hq
      · exact List.mem_append_left _ hq
      · exact List.mem_append_right _ (List.mem_cons_of_mem _ hq)
    have hne : ∀ q ∈ before ++ behind, ∀ c, b.nodes[q]? = some c → c.rimeID ≠ sn.rimeID := by
      intro q hq c hc hcr
      refine (hother q hq).1 ((hk q).mp ?_)
      rw [List.getElem?_map, hc, ← hcr]
      rfl
    have hskip : ∀ {g' : SensorNetworkGUI} {b' : Board} {n' : Bool} {l : List ℕ}, Tracks g' b' →
        (∀ q ∈ before ++ behind, b'.nodes[q]? = b.nodes[q]?) → l ⊆ before ++ behind →
        l.foldlM (fun p q => markNode false sn.rimeID x q p) (g', n') = some (g', n') := by
      intro g' b' n' l htracks hsame hsub
      refine foldlM_markNode_of_ne l fun q hq => ?_
      have hqlt := (hother q (hsub hq)).2
      have hq' : b'.nodes[q]? = some b.nodes[q] := by
        rw [hsame q (hsub hq), List.getElem?_eq_getElem hqlt]
      obtain ⟨vsn, hvsn, hid⟩ := htracks.getElem hq'
      exact ⟨vsn, hvsn, hid ▸ hne q (hsub hq) _ (List.getElem?_eq_getElem hqlt)⟩
    obtain ⟨⟨g', n'⟩, hmark, hnew, htracks, hold⟩ := markNode_clean (n := n) hg hsn ha
    change n' = true at hnew
    have hnodes : b.nodes.set k (sn.setOnFire false) = b.nodes.map (Board.mark ⟨sn.rimeID, false⟩) := by
      apply List.ext_getElem?
      intro q
      rw [List.getElem?_map, List.getElem?_set]
      by_cases hqk : k = q
      · subst hqk
        rw [if_pos rfl, if_pos hklt, hsn, Option.map_some, Board.mark_of_eq rfl]
      · rw [if_neg hqk]
        cases hq : b.nodes[q]? with
        | none => rfl
        | some c =>
          have hcr : c.rimeID ≠ sn.rimeID := fun hcr => hqk ((hk q).mp (by
            rw [List.getElem?_map, hq, ← hcr]
            rfl)).symm
          rw [Option.map_some, Board.mark_of_ne hcr]
    refine ⟨g', ?_, ?_, hold⟩
    · change (List.range b.nodes.length).foldlM (fun p q => markNode false sn.rimeID x q p) (g, n) = _
      rw [hrange, List.foldlM_append, hskip hg (fun _ _ => rfl) (List.subset_append_left _ _),
        Option.bind_eq_bind, Option.bind_some, List.foldlM_cons, hmark, Option.bind_eq_bind,
        Option.bind_some, hskip htracks ?_ (List.subset_append_right _ _), hnew]
      intro q hq
      rw [List.getElem?_set_ne (hother q hq).1.symm]
    · rw [if_neg Bool.false_ne_true, ← hnodes]
      exact htracks

/-! ### A poll -/

/-- The announcements from place `x` on. -/
theorem announceFrom_spec : ∀ (fuel x : ℕ) (g : SensorNetworkGUI) (b : Board) (n : Bool),
    Tracks g b → ∃ g' n', announceFrom fuel x (g, n) = some (g', n') ∧
      Tracks g' (Board.processFrom fuel x b) ∧ g'.oldFireVector = g.oldFireVector ∧
      (n = true ∨ 0 < fuel ∧ x < b.fires.length → n' = true) := by
  intro fuel
  induction fuel with
  | zero => exact fun x g b n hg => ⟨g, n, rfl, hg, rfl, fun h => h.resolve_right (by simp)⟩
  | succ fuel ih =>
    intro x g b n hg
    have hlen : g.serialCom.fireData.length = b.fires.length := by rw [hg.fireData, List.length_map]
    rw [announceFrom, Board.processFrom, hlen]
    split
    · next hlt =>
      obtain ⟨g₁, hann, htracks, hold⟩ := announce_spec hg (List.getElem?_eq_getElem hlt) n
      obtain ⟨g', n', hrest, htracks', hold', hnew⟩ := ih (x + 1) g₁ (b.process x) true htracks
      rw [hann, Option.bind_some, hrest]
      exact ⟨g', n', rfl, htracks', hold'.trans hold, fun _ => hnew (.inl rfl)⟩
    · next hge =>
      exact ⟨g, n, rfl, hg, rfl, fun h => h.resolve_right fun hlt => hge hlt.2⟩

/-- The reports are parsed one after the other. -/
theorem parseNodes_text : ∀ (nodes vec : List SensorNode), (∀ sn ∈ nodes, sn.WellFormed) →
    parseNodes (nodes.map SensorNode.text) vec = some (nodes ++ vec.drop nodes.length) := by
  intro nodes
  induction nodes with
  | nil => intro vec _; rfl
  | cons sn nodes ih =>
    intro vec h
    have hrest := ih vec.tail fun c hc => h c (List.mem_cons_of_mem _ hc)
    rw [List.map_cons, parseNodes, parseSensorNode_text (h sn List.mem_cons_self)]
    simp only [Option.bind_eq_bind, Option.bind_some, hrest]
    simp

/-- **A poll does not throw.**  If the announcements have not changed, it parses the nodes and
leaves the announcements alone; otherwise it works them off, and reports new data if there
were any. -/
theorem checkNewData_spec (hg : Shows g b) (hlen : g.nodeVector.length ≤ b.nodes.length) :
    ∃ g' n, checkNewData g = some (g', n) ∧
      (g.serialCom.fireData = g.oldFireVector ∧ Tracks g' b ∧ g'.nodeVector = b.nodes ∧
          g'.oldFireVector = g.oldFireVector ∨
        g.serialCom.fireData ≠ g.oldFireVector ∧ Tracks g' b.processAll ∧
          g'.oldFireVector = g.serialCom.fireData ∧
          (n = false → b.fires = [] ∧ g'.nodeVector = b.nodes)) := by
  have hparse : parseNodes g.serialCom.data g.nodeVector = some b.nodes := by
    rw [hg.data, parseNodes_text _ _ hg.wellFormed, List.drop_eq_nil_of_le hlen, List.append_nil]
  have htracks : ∀ old fires : _, Tracks
      { g with nodeVector := b.nodes, oldNodeVector := old, oldFireVector := fires } b :=
    fun old fires =>
      ⟨⟨hg.data, hg.fireData, hg.wellFormed, hg.reported, hg.once, hg.nodup⟩, rfl⟩
  have hfires : g.serialCom.fireData.length = b.fires.length := by rw [hg.fireData, List.length_map]
  simp only [checkNewData, hparse, Option.bind_eq_bind, Option.bind_some]
  generalize hnew : decide (g.serialCom.data ≠ [] ∧ b.nodes ≠ g.oldNodeVector) = new
  by_cases heq : g.serialCom.fireData = g.oldFireVector
  · rw [if_pos heq]
    exact ⟨_, _, rfl, .inl ⟨heq, htracks _ _, rfl, rfl⟩⟩
  · rw [if_neg heq]
    obtain ⟨g', n', hrun, htracks', hold, hnew'⟩ := announceFrom_spec g.serialCom.fireData.length 0
      _ b new (htracks (if new = true then b.nodes else g.oldNodeVector) g.serialCom.fireData)
    refine ⟨g', n', hrun, .inr ⟨heq, ?_, hold, fun hn => ?_⟩⟩
    · rw [Board.processAll, ← hfires]
      exact htracks'
    · have hnil : b.fires = [] := by
        by_contra hne
        have hpos := List.length_pos_of_ne_nil hne
        rw [hnew' (.inr ⟨by omega, hpos⟩)] at hn
        cases hn
      rw [hfires, hnil, List.length_nil, announceFrom, Option.some.injEq, Prod.mk.injEq] at hrun
      exact ⟨hnil, hrun.1 ▸ rfl⟩

end SensorNetworkGUI

end EmergencyNet
