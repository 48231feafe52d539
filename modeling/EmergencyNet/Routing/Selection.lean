import EmergencyNet.App.Events
import EmergencyNet.Lib.FirstMin

/-!
# The choice of the best neighbour

`find_best_exit_path_neighbor` scans the neighbour table for the first entry with the least
total among those it may use.  In terms of a cost function over slots that is a first
minimum, so the facts about first minima say what happens to the choice when one entry
changes or some are dropped.

## Main definitions

* `Node.total` — the sum the scan compares.
* `Node.cost` — the same, and `METRIC_T_MAX` for an entry that may not be used.

## Main results

* `Node.findBest_eq` — **the scan finds the first slot of least cost.**
* `Node.findBest_of_changed` — a change of one entry selects it, keeps the choice, or
  changes the entry that was chosen.
-/

namespace EmergencyNet

namespace Node

variable {s t : Node} {i j : ℕ}

/-- The sum of distance and metric of the entry in slot `i`, as the scan computes it. -/
def total (s : Node) (i : ℕ) : UInt16 := weighDistance (s.ns.item i).dist + (s.ns.item i).metric

/-- The cost of slot `i`: an entry that may not be used costs as much as no path. -/
def cost (s : Node) (i : ℕ) : ℕ :=
  if s.eligible (s.ns.item i) then (s.total i).toNat else metricTMax.toNat

theorem cost_lt_iff : s.cost i < 65535 ↔
    s.eligible (s.ns.item i) = true ∧ (s.total i).toNat < 65535 := by
  unfold cost
  split
  · next h => simp [h]
  · next h => simp [h]

theorem cost_of_lt (h : s.cost i < 65535) : s.cost i = (s.total i).toNat :=
  if_pos (cost_lt_iff.mp h).1

/-! ### The scan is a first minimum -/

/-- The choice among a list of slots, given the first slot of least cost. -/
def choice (s : Node) (bound : ℕ) (best : NeighborPtr) : Option ℕ → NeighborPtr
  | none => best
  | some i => if s.cost i < bound then .slot i else best

theorem scanNeighbors_eq (s : Node) : ∀ (l : List ℕ) (best : NeighborPtr) (m : UInt16),
    s.scanNeighbors l best m = s.choice m.toNat best (l.argmin s.cost) := by
  intro l
  induction l with
  | nil => intro best m; rfl
  | cons i rest ih =>
    intro best m
    have hm : m.toNat ≤ 65535 := by have := m.toNat_lt; omega
    -- one turn of the loop moves to slot `i` exactly when its cost is below the bound
    have hturn : s.scanNeighbors (i :: rest) best m =
        if s.cost i < m.toNat then s.choice (s.cost i) (.slot i) (rest.argmin s.cost)
        else s.choice m.toNat best (rest.argmin s.cost) := by
      simp only [scanNeighbors]
      by_cases hel : s.eligible (s.ns.item i) = true
      · have hcost : s.cost i = (s.total i).toNat := if_pos hel
        rw [if_pos hel, hcost]
        exact if_congr UInt16.lt_iff_toNat_lt (ih _ _) (ih _ _)
      · have hcost : s.cost i = 65535 := if_neg hel
        rw [if_neg hel, hcost, if_neg (by omega), ih]
    rw [hturn, List.argmin_cons]
    cases hc : rest.argmin s.cost with
    | none => rfl
    | some c =>
      change _ = s.choice m.toNat best (if s.cost c < s.cost i then some c else some i)
      by_cases him : s.cost i < m.toNat
      · rw [if_pos him]
        by_cases hci : s.cost c < s.cost i
        · simp only [choice, if_pos hci, if_pos (hci.trans him)]
        · simp only [choice, if_neg hci, if_pos him]
      · rw [if_neg him]
        by_cases hci : s.cost c < s.cost i
        · simp only [choice, if_pos hci]
        · simp only [choice, if_neg hci, if_neg him]
          exact if_neg (by omega)

/-- **The scan finds the first slot of least cost**, if one has a path. -/
theorem findBest_eq (hexit : s.state.isExitNode = false) :
    s.findBestExitPathNeighbor = s.choice 65535 .maxNode (s.ns.used.argmin s.cost) := by
  unfold findBestExitPathNeighbor
  simp only [hexit, Bool.false_eq_true, if_false, scanNeighbors_eq, toNat_metricTMax]
  cases s.ns.used.argmin s.cost with
  | none => rfl
  | some i =>
    simp only [choice]
    split
    · exact if_neg NeighborPtr.noConfusion
    · rfl

theorem findBest_eq_slot_iff (hexit : s.state.isExitNode = false) :
    s.findBestExitPathNeighbor = .slot i ↔
      s.ns.used.argmin s.cost = some i ∧ s.cost i < 65535 := by
  rw [findBest_eq hexit]
  cases hc : s.ns.used.argmin s.cost with
  | none => simp [choice]
  | some j =>
    simp only [choice, Option.some.injEq]
    split
    · next h =>
      constructor
      · rintro ⟨⟩
        exact ⟨rfl, h⟩
      · rintro ⟨rfl, -⟩
        rfl
    · next h =>
      constructor
      · intro hp
        cases hp
      · rintro ⟨rfl, h'⟩
        exact absurd h' h

/-- Without a path, every entry costs as much as none. -/
theorem findBest_eq_maxNode_iff (hexit : s.state.isExitNode = false) :
    s.findBestExitPathNeighbor = .maxNode ↔ ∀ j ∈ s.ns.used, 65535 ≤ s.cost j := by
  rw [findBest_eq hexit]
  cases hc : s.ns.used.argmin s.cost with
  | none =>
    rw [List.argmin_eq_none.mp hc]
    simp [choice]
  | some i =>
    simp only [choice]
    split
    · next h =>
      constructor
      · exact fun hp => nomatch hp
      · intro hall
        exact absurd (hall i (List.argmin_mem hc)) (by omega)
    · next h =>
      refine ⟨fun _ j hj => ?_, fun _ => rfl⟩
      exact (not_lt.mp h).trans (List.le_of_mem_argmin hj hc)

/-- A node that is no exit chooses a slot or has no path. -/
theorem findBest_slot_or_maxNode (hexit : s.state.isExitNode = false) :
    (∃ i, s.findBestExitPathNeighbor = .slot i) ∨ s.findBestExitPathNeighbor = .maxNode := by
  rw [findBest_eq hexit]
  cases s.ns.used.argmin s.cost with
  | none => exact Or.inr rfl
  | some i =>
    simp only [choice]
    split
    exacts [Or.inl ⟨i, rfl⟩, Or.inr rfl]

/-- What is known of a slot that is chosen. -/
theorem findBest_slot_spec (hexit : s.state.isExitNode = false)
    (h : s.findBestExitPathNeighbor = .slot i) :
    i ∈ s.ns.used ∧ s.eligible (s.ns.item i) = true ∧ (s.total i).toNat < 65535 ∧
      ∀ j ∈ s.ns.used, s.eligible (s.ns.item j) = true → (s.total i).toNat ≤ (s.total j).toNat := by
  obtain ⟨hmin, hlt⟩ := (findBest_eq_slot_iff hexit).mp h
  refine ⟨List.argmin_mem hmin, (cost_lt_iff.mp hlt).1, (cost_lt_iff.mp hlt).2, fun j hj hel => ?_⟩
  have hle := List.le_of_mem_argmin hj hmin
  rw [cost_of_lt hlt, cost, if_pos hel] at hle
  exact hle

/-! ### Changes of the table -/

/-- The choice depends on the slots in use and their costs only. -/
theorem findBest_of_cost (hexit : s.state.isExitNode = false) (ht : t.state.isExitNode = false)
    (hused : t.ns.used = s.ns.used) (hcost : ∀ j ∈ s.ns.used, t.cost j = s.cost j) :
    t.findBestExitPathNeighbor = s.findBestExitPathNeighbor := by
  by_cases hall : ∀ j ∈ s.ns.used, 65535 ≤ s.cost j
  · rw [(findBest_eq_maxNode_iff hexit).mpr hall]
    refine (findBest_eq_maxNode_iff ht).mpr fun j hj => ?_
    rw [hused] at hj
    exact (hcost j hj).symm ▸ hall j hj
  · rcases findBest_slot_or_maxNode hexit with ⟨i, hi⟩ | hm
    · obtain ⟨hmin, hlt⟩ := (findBest_eq_slot_iff hexit).mp hi
      have hmem := List.argmin_mem hmin
      rw [hi]
      refine (findBest_eq_slot_iff ht).mpr ⟨?_, (hcost i hmem).symm ▸ hlt⟩
      rw [hused]
      exact FirstMin.argmin_of_improved hmin (fun b hb _ => hcost b hb) (hcost i hmem).le
    · exact absurd ((findBest_eq_maxNode_iff hexit).mp hm) hall

/-- A change of one entry selects it, keeps the choice, or changes the entry that was
chosen. -/
theorem findBest_of_changed (hexit : s.state.isExitNode = false)
    (ht : t.state.isExitNode = false) (hused : t.ns.used = s.ns.used)
    (hcost : ∀ j ∈ s.ns.used, j ≠ i → t.cost j = s.cost j)
    (hnew : t.findBestExitPathNeighbor ≠ .slot i) (hold : s.findBestExitPathNeighbor ≠ .slot i) :
    t.findBestExitPathNeighbor = s.findBestExitPathNeighbor := by
  -- if slot `i` is a minimum on either side, it is one of cost at least that of no path
  by_cases hs : s.ns.used.argmin s.cost = some i
  · have hbig : ¬ s.cost i < 65535 := fun h => hold ((findBest_eq_slot_iff hexit).mpr ⟨hs, h⟩)
    have hall : ∀ j ∈ s.ns.used, 65535 ≤ s.cost j := fun j hj =>
      (not_lt.mp hbig).trans (List.le_of_mem_argmin hj hs)
    rw [(findBest_eq_maxNode_iff hexit).mpr hall]
    rcases findBest_slot_or_maxNode ht with ⟨k, hk⟩ | hm
    · obtain ⟨hmin, hlt⟩ := (findBest_eq_slot_iff ht).mp hk
      have hki : k ≠ i := fun h => hnew (h ▸ hk)
      have hmem : k ∈ s.ns.used := hused ▸ List.argmin_mem hmin
      rw [hcost k hmem hki] at hlt
      exact absurd (hall k hmem) (by omega)
    · exact hm
  · by_cases hmt : s.ns.used.argmin t.cost = some i
    · have hbig : ¬ t.cost i < 65535 := fun h =>
        hnew ((findBest_eq_slot_iff ht).mpr ⟨hused ▸ hmt, h⟩)
      have hall : ∀ j ∈ s.ns.used, 65535 ≤ t.cost j := fun j hj =>
        (not_lt.mp hbig).trans (List.le_of_mem_argmin hj hmt)
      rw [(findBest_eq_maxNode_iff ht).mpr (hused ▸ hall)]
      rcases findBest_slot_or_maxNode hexit with ⟨k, hk⟩ | hm
      · obtain ⟨hmin, hlt⟩ := (findBest_eq_slot_iff hexit).mp hk
        have hki : k ≠ i := fun h => hold (h ▸ hk)
        have hmem := List.argmin_mem hmin
        rw [← hcost k hmem hki] at hlt
        exact absurd (hall k hmem) (by omega)
      · exact hm.symm
    · have hsame := FirstMin.argmin_of_changed hcost hs hmt
      rw [findBest_eq hexit, findBest_eq ht, hused, hsame]
      cases hk : s.ns.used.argmin s.cost with
      | none => rfl
      | some k =>
        have hki : k ≠ i := fun h => hs (h ▸ hk)
        simp only [choice, hcost k (List.argmin_mem hk) hki]

/-- Dropping entries other than the chosen one keeps the choice. -/
theorem findBest_of_dropped (hexit : s.state.isExitNode = false)
    (ht : t.state.isExitNode = false) (hsub : t.ns.used.Sublist s.ns.used)
    (hcost : ∀ j ∈ t.ns.used, t.cost j = s.cost j)
    (hkeep : ∀ i, s.findBestExitPathNeighbor = .slot i → i ∈ t.ns.used) :
    t.findBestExitPathNeighbor = s.findBestExitPathNeighbor := by
  rcases findBest_slot_or_maxNode hexit with ⟨i, hi⟩ | hm
  · obtain ⟨hmin, hlt⟩ := (findBest_eq_slot_iff hexit).mp hi
    have hmem := hkeep i hi
    rw [hi]
    refine (findBest_eq_slot_iff ht).mpr ⟨?_, (hcost i hmem).symm ▸ hlt⟩
    exact FirstMin.argmin_of_improved
      (FirstMin.argmin_of_sublist s.ns.used_nodup hmin hsub hmem)
      (fun b hb _ => hcost b hb) (hcost i hmem).le
  · rw [hm]
    refine (findBest_eq_maxNode_iff ht).mpr fun j hj => ?_
    rw [hcost j hj]
    exact (findBest_eq_maxNode_iff hexit).mp hm j (hsub.subset hj)

/-- An entry nothing is known about yet does not change the choice. -/
theorem findBest_of_newNeighbor (hexit : s.state.isExitNode = false) {ns : Neighbors}
    {addr : Rimeaddr} (hns : neighborsAdd s.ns addr = some ns) :
    (s.withTable ns).findBestExitPathNeighbor = s.findBestExitPathNeighbor := by
  obtain ⟨b, hb, hused, hitem, -⟩ := QueueBuffer.pushFront_eq_some hns
  have hcost : ∀ j ∈ s.ns.used, (s.withTable ns).cost j = s.cost j := by
    intro j hj
    have hne : j ≠ b := fun h => s.ns.disjoint hb (h ▸ hj)
    simp only [cost, total, withTable, hitem, Function.update_of_ne hne]
    rfl
  have hbig : (s.withTable ns).cost b = 65535 := by
    have hnot : (s.withTable ns).eligible ((s.withTable ns).ns.item b) = false := by
      simp [withTable, hitem, eligible]
    simp only [cost, hnot, Bool.false_eq_true, if_false, toNat_metricTMax]
  -- seen from the new table, the old one has the new entry dropped
  refine (findBest_of_dropped (s := s.withTable ns) (t := s) hexit hexit ?_
    (fun j hj => (hcost j hj).symm) fun i hi => ?_).symm
  · change s.ns.used.Sublist ns.used
    rw [hused]
    exact List.sublist_cons_self _ _
  · obtain ⟨hmin, hlt⟩ := (findBest_eq_slot_iff (s := s.withTable ns) hexit).mp hi
    have hmem : i ∈ ns.used := List.argmin_mem hmin
    rw [hused, List.mem_cons] at hmem
    rcases hmem with rfl | hmem
    · exact absurd hlt (by omega)
    · exact hmem

end Node

end EmergencyNet
