import EmergencyNet.Routing.Selection

/-!
# When the choice of the best neighbour is exact

`find_best_exit_path_neighbor` adds distance and metric in 16 bits and begins with the
greatest 16-bit number as the least sum so far.  A sum that wraps looks small, and a sum equal
to that number is never less than it.

## Main definitions

* `Node.trueTotal` — the sum of distance and metric as an unbounded number.
* `Node.exactBest` — the first entry that may be used with the least such sum.
* `Node.SumsInOrder` — wrapping does not put another entry before this one.

## Main results

* `Node.findBest_eq_slot_iff_argmin` — the scan by the entries that may be used only.
* `Node.findBest_exact_iff` — **the choice is exact if and only if the sums stay in order.**
-/

namespace EmergencyNet

namespace Node

variable {s : Node} {i j : ℕ}

/-- The sum of distance and metric of the entry in slot `i`, as an unbounded number. -/
def trueTotal (s : Node) (i : ℕ) : ℕ :=
  (weighDistance (s.ns.item i).dist).toNat + (s.ns.item i).metric.toNat

/-- The slots of the entries that may be used, in the order of the table. -/
def eligibleSlots (s : Node) : List ℕ := s.ns.used.filter fun i => s.eligible (s.ns.item i)

/-- The first entry that may be used with the least sum, and `max_node` if there is none. -/
def exactBest (s : Node) : NeighborPtr :=
  match s.eligibleSlots.argmin s.trueTotal with
  | none => .maxNode
  | some i => .slot i

theorem toNat_total_mod (s : Node) (i : ℕ) : (s.total i).toNat = s.trueTotal i % 65536 :=
  UInt16.toNat_add _ _

theorem mem_eligibleSlots :
    i ∈ s.eligibleSlots ↔ i ∈ s.ns.used ∧ s.eligible (s.ns.item i) = true :=
  List.mem_filter

/-- A metric that may be used is less than the greatest number, so a sum wraps at most once and
then stays below it. -/
theorem trueTotal_lt (h : s.eligible (s.ns.item i) = true) : s.trueTotal i < 131070 := by
  have hmetric : (s.ns.item i).metric ≠ metricTMax := by
    simp only [eligible, Bool.and_eq_true, bne_iff_ne] at h
    exact h.1.2
  have hne : (s.ns.item i).metric.toNat ≠ 65535 := fun heq => hmetric (UInt16.toNat_inj.mp heq)
  have hlt := (s.ns.item i).metric.toNat_lt
  have hdist := (weighDistance (s.ns.item i).dist).toNat_lt
  unfold trueTotal
  omega

/-- The scan chooses slot `i` when it is the first of the entries that may be used with the
least sum of 16 bits, and that sum is not the greatest number. -/
theorem findBest_eq_slot_iff_argmin (hexit : s.state.isExitNode = false) :
    s.findBestExitPathNeighbor = .slot i ↔
      s.eligibleSlots.argmin (fun j => (s.total j).toNat) = some i ∧ (s.total i).toNat < 65535 := by
  have hout : ∀ b ∈ s.ns.used, s.eligible (s.ns.item b) = false → 65535 ≤ s.cost b := by
    intro b _ hb
    simp [cost, hb]
  have hcost : ∀ b ∈ s.eligibleSlots, s.cost b = (s.total b).toNat := fun b hb =>
    if_pos (mem_eligibleSlots.mp hb).2
  rw [findBest_eq_slot_iff hexit]
  constructor
  · rintro ⟨hmin, hlt⟩
    have hin : s.eligibleSlots.argmin s.cost = some i := (FirstMin.argmin_filter hout hlt).mpr hmin
    have hi := hcost i (List.argmin_mem hin)
    exact ⟨FirstMin.argmin_of_improved hin (fun b hb _ => (hcost b hb).symm) hi.ge, hi ▸ hlt⟩
  · rintro ⟨hmin, hlt⟩
    have hi := hcost i (List.argmin_mem hmin)
    have hin : s.eligibleSlots.argmin s.cost = some i :=
      FirstMin.argmin_of_improved hmin (fun b hb _ => hcost b hb) hi.le
    rw [← hi] at hlt
    exact ⟨(FirstMin.argmin_filter hout hlt).mp hin, hlt⟩

/-- Wrapping does not put another entry before the first one with the least sum: this sum wraps
itself, as do all others then; or it is less than the greatest number, and no sum that wraps is
`2 ^ 16` above less than it, nor above exactly it in an earlier entry. -/
def SumsInOrder (s : Node) : Prop :=
  ∀ i, s.eligibleSlots.argmin s.trueTotal = some i →
    65536 ≤ s.trueTotal i ∨
      s.trueTotal i < 65535 ∧ ∀ j ∈ s.eligibleSlots, 65536 ≤ s.trueTotal j →
        s.trueTotal i + 65536 ≤ s.trueTotal j ∧
          (s.trueTotal j = s.trueTotal i + 65536 →
            s.eligibleSlots.idxOf i ≤ s.eligibleSlots.idxOf j)

/-- Where the first least sum is in slot `i`, the scan finds it if and only if wrapping keeps it
first. -/
theorem argmin_total_iff (hmin : s.eligibleSlots.argmin s.trueTotal = some i) :
    s.eligibleSlots.argmin (fun j => (s.total j).toNat) = some i ∧ (s.total i).toNat < 65535 ↔
      s.SumsInOrder := by
  obtain ⟨hmem, hle, hfirst⟩ := List.argmin_eq_some_iff.mp hmin
  have hi := trueTotal_lt (mem_eligibleSlots.mp hmem).2
  simp only [List.argmin_eq_some_iff, toNat_total_mod]
  constructor
  · rintro ⟨⟨-, hwle, hwfirst⟩, hlt⟩ i' hmin'
    obtain rfl : i = i' := Option.some.inj (hmin.symm.trans hmin')
    by_cases hwraps : 65536 ≤ s.trueTotal i
    · exact Or.inl hwraps
    refine Or.inr ⟨by omega, fun j hj hjwraps => ?_⟩
    have hj_lt := trueTotal_lt (mem_eligibleSlots.mp hj).2
    have hij := hwle j hj
    refine ⟨by omega, fun heq => ?_⟩
    exact hwfirst j hj (by omega)
  · intro horder
    rcases horder i hmin with hwraps | ⟨hlt, hothers⟩
    · -- all sums wrap, and keep their order
      refine ⟨⟨hmem, fun j hj => ?_, fun j hj hji => ?_⟩, by omega⟩
      · have hj_lt := trueTotal_lt (mem_eligibleSlots.mp hj).2
        have hij := hle j hj
        omega
      · have hj_lt := trueTotal_lt (mem_eligibleSlots.mp hj).2
        have hij := hle j hj
        exact hfirst j hj (by omega)
    · refine ⟨⟨hmem, fun j hj => ?_, fun j hj hji => ?_⟩, by omega⟩
      · have hj_lt := trueTotal_lt (mem_eligibleSlots.mp hj).2
        have hij := hle j hj
        have hwrapped := hothers j hj
        omega
      · have hj_lt := trueTotal_lt (mem_eligibleSlots.mp hj).2
        by_cases hjwraps : 65536 ≤ s.trueTotal j
        · obtain ⟨habove, hsame⟩ := hothers j hj hjwraps
          exact hsame (by omega)
        · exact hfirst j hj (by omega)

/-- **The choice of the best neighbour is exact if and only if the sums stay in order.** -/
theorem findBest_exact_iff (hexit : s.state.isExitNode = false) :
    s.findBestExitPathNeighbor = s.exactBest ↔ s.SumsInOrder := by
  unfold exactBest
  cases hmin : s.eligibleSlots.argmin s.trueTotal with
  | none =>
    -- nobody may be used: every cost is that of no path
    have hnone : ∀ j ∈ s.ns.used, 65535 ≤ s.cost j := by
      intro j hj
      have hnot : s.eligible (s.ns.item j) ≠ true := fun hel =>
        List.ne_nil_of_mem (mem_eligibleSlots.mpr ⟨hj, hel⟩) (List.argmin_eq_none.mp hmin)
      rw [cost, if_neg hnot]
      exact le_refl _
    refine iff_of_true ((findBest_eq_maxNode_iff hexit).mpr hnone) fun i hi => ?_
    rw [hmin] at hi
    exact absurd hi (Option.some_ne_none i).symm
  | some i =>
    rw [findBest_eq_slot_iff_argmin hexit]
    exact argmin_total_iff hmin

/-! ### A sum that wraps -/

/-- A node with two neighbours at distance 100: the path of the first, whose address is `2.0`,
has metric 65500, and that of the other metric 100. -/
def besideFarExit : Node :=
  let ns := ((neighborsAdd neighborsInit ⟨1, 0⟩).bind
    fun ns => neighborsAdd ns ⟨2, 0⟩).getD neighborsInit
  let entry (addr : Rimeaddr) (metric : UInt16) : NeighborNode :=
    ⟨addr, default, uint16ToUint8 100, ⟨uint16ToUint8 metric, ⟨5, 0⟩, 1⟩, true⟩
  (zero ⟨9, 0⟩ none).withTable ((ns.set 0 (entry ⟨1, 0⟩ 100)).set 1 (entry ⟨2, 0⟩ 65500))

/-- The scan takes 65600 for 64 and chooses the longer path. -/
theorem findBest_besideFarExit :
    besideFarExit.state.isExitNode = false ∧
      besideFarExit.findBestExitPathNeighbor = .slot 1 ∧ besideFarExit.exactBest = .slot 0 := by
  decide +kernel

/-- A node with three neighbours: the sum of the first, `3.0`, is more than 16 bits hold, that of
`2.0` is not, and `1.0`, which is nearest, leads back to the node itself. -/
def besideDetour : Node :=
  let ns := ([⟨1, 0⟩, ⟨2, 0⟩, ⟨3, 0⟩].foldl (fun ns a => ns.bind fun ns => neighborsAdd ns a)
    (some neighborsInit)).getD neighborsInit
  let entry (addr pointsTo : Rimeaddr) (dist metric : UInt16) : NeighborNode :=
    ⟨addr, default, uint16ToUint8 dist, ⟨uint16ToUint8 metric, pointsTo, 1⟩, true⟩
  (zero ⟨9, 0⟩ none).withTable (((ns.set 0 (entry ⟨1, 0⟩ ⟨9, 0⟩ 10 20)).set 1
    (entry ⟨2, 0⟩ ⟨5, 0⟩ 100 50)).set 2 (entry ⟨3, 0⟩ ⟨5, 0⟩ 300 65500))

/-- The wrapped sum, 264, is still more than the least one. -/
theorem findBest_besideDetour : besideDetour.ns.used = [2, 1, 0] ∧
    besideDetour.eligibleSlots = [2, 1] ∧ besideDetour.exactBest = .slot 1 ∧
      besideDetour.findBestExitPathNeighbor = besideDetour.exactBest := by
  have horder : besideDetour.SumsInOrder := by
    intro i hi
    have hmin : besideDetour.eligibleSlots.argmin besideDetour.trueTotal = some 1 := by
      decide +kernel
    obtain rfl : i = 1 := Option.some.inj (hi.symm.trans hmin)
    exact .inr (by decide +kernel)
  exact ⟨by decide +kernel, by decide +kernel, by decide +kernel,
    (findBest_exact_iff (by decide +kernel)).mpr horder⟩

end Node

end EmergencyNet
