import Mathlib.Data.List.MinMax

/-!
# The first minimum of a list

`List.argmin f l` is the first element of `l` at which `f` is least.  What happens to it
when `f` changes at one element, or when elements are dropped.

## Main results

* `argmin_eq_some_iff_append` — the first minimum by the elements before and behind it.
* `argmin_of_improved` — **improving the first minimum keeps it.**
* `argmin_of_changed` — **a change at `a` makes `a` the first minimum or keeps the old one.**
* `argmin_of_sublist` — dropping others keeps the first minimum.
* `argmin_filter` — below a bound the first minimum is that of the elements below it.
-/

namespace EmergencyNet

namespace FirstMin

variable {α β : Type*} [LinearOrder β] {f g : α → β} {l l' : List α} {a : α}

/-- The first minimum is less than everything before it and at most everything behind. -/
theorem argmin_eq_some_iff_append :
    l.argmin f = some a ↔
      ∃ l₁ l₂, l = l₁ ++ a :: l₂ ∧ (∀ b ∈ l₁, f a < f b) ∧ ∀ b ∈ l₂, f a ≤ f b := by
  induction l with
  | nil => simp
  | cons x l ih =>
    rw [List.argmin_cons]
    cases hc : l.argmin f with
    | none =>
      obtain rfl := List.argmin_eq_none.mp hc
      simp only [Option.some.injEq, List.cons_eq_append_iff]
      constructor
      · rintro rfl
        exact ⟨[], [], by simp, by simp, by simp⟩
      · rintro ⟨l₁, l₂, (⟨-, h⟩ | ⟨_, -, h⟩), -⟩
        · exact (List.cons.inj h).1.symm
        · simp at h
    | some c =>
      have hle : ∀ b ∈ l, f c ≤ f b := fun b hb => List.le_of_mem_argmin hb hc
      constructor
      · intro h
        simp only at h
        split at h <;> cases h
        · next hlt =>
          obtain ⟨l₁, l₂, rfl, h₁, h₂⟩ := ih.mp (hc.trans (by simp))
          refine ⟨x :: l₁, l₂, rfl, fun b hb => ?_, h₂⟩
          rcases List.mem_cons.mp hb with rfl | hb
          exacts [hlt, h₁ b hb]
        · next hnot => exact ⟨[], l, rfl, by simp, fun b hb => (not_lt.mp hnot).trans (hle b hb)⟩
      · rintro ⟨l₁, l₂, heq, h₁, h₂⟩
        simp only
        rcases List.cons_eq_append_iff.mp heq with ⟨rfl, h⟩ | ⟨l₁', rfl, rfl⟩
        · obtain ⟨rfl, rfl⟩ := List.cons.inj h
          rw [if_neg (not_lt.mpr (h₂ c (List.argmin_mem hc)))]
        · have ha : some c = some a := hc.symm.trans (ih.mpr
            ⟨l₁', l₂, rfl, fun b hb => h₁ b (List.mem_cons_of_mem _ hb), h₂⟩)
          cases ha
          rw [if_pos (h₁ x List.mem_cons_self)]

/-- **Improving the first minimum keeps it.** -/
theorem argmin_of_improved (h : l.argmin f = some a) (hother : ∀ b ∈ l, b ≠ a → g b = f b)
    (hle : g a ≤ f a) : l.argmin g = some a := by
  obtain ⟨l₁, l₂, rfl, h₁, h₂⟩ := argmin_eq_some_iff_append.mp h
  refine argmin_eq_some_iff_append.mpr ⟨l₁, l₂, rfl, fun b hb => ?_, fun b hb => ?_⟩
  · have hne : b ≠ a := fun heq => absurd (h₁ b hb) (heq ▸ lt_irrefl _)
    rw [hother b (by simp [hb]) hne]
    exact hle.trans_lt (h₁ b hb)
  · by_cases hne : b = a
    · rw [hne]
    · rw [hother b (by simp [hb]) hne]
      exact hle.trans (h₂ b hb)

/-- **A change at `a` makes `a` the first minimum or keeps the old one**, unless `a` was the
first minimum. -/
theorem argmin_of_changed (hother : ∀ b ∈ l, b ≠ a → g b = f b) (hf : l.argmin f ≠ some a)
    (hg : l.argmin g ≠ some a) : l.argmin g = l.argmin f := by
  classical
  cases hc : l.argmin f with
  | none =>
    obtain rfl := List.argmin_eq_none.mp hc
    rfl
  | some c =>
    cases hd : l.argmin g with
    | none =>
      obtain rfl := List.argmin_eq_none.mp hd
      simp at hc
    | some d =>
      obtain ⟨hcl, hcle, hcidx⟩ := List.argmin_eq_some_iff.mp hc
      obtain ⟨hdl, hdle, hdidx⟩ := List.argmin_eq_some_iff.mp hd
      have hgc : g c = f c := hother c hcl fun h => hf (h ▸ hc)
      have hgd : g d = f d := hother d hdl fun h => hg (h ▸ hd)
      -- both are minima of both functions, so each comes first
      have hcd : g d ≤ g c := hdle c hcl
      have hdc : f c ≤ f d := hcle d hdl
      rw [hgc, hgd] at hcd
      have hidx := Nat.le_antisymm (hdidx c hcl (by rw [hgc, hgd]; exact hdc)) (hcidx d hdl hcd)
      rw [(List.idxOf_inj hdl).mp hidx]

/-- Dropping other elements keeps the first minimum. -/
theorem argmin_of_sublist (hnodup : l.Nodup) (h : l.argmin f = some a) (hsub : l'.Sublist l)
    (ha : a ∈ l') : l'.argmin f = some a := by
  obtain ⟨l₁, l₂, rfl, h₁, h₂⟩ := argmin_eq_some_iff_append.mp h
  obtain ⟨r₁, r₂, rfl, hr₁, hr₂⟩ := List.sublist_append_iff.mp hsub
  have hnot₁ : a ∉ l₁ := fun hm => lt_irrefl _ (h₁ a hm)
  have hnot₂ : a ∉ l₂ := (List.nodup_cons.mp (List.nodup_append.mp hnodup).2.1).1
  rcases List.sublist_cons_iff.mp hr₂ with hr | ⟨r, rfl, hr⟩
  · rcases List.mem_append.mp ha with hm | hm
    · exact absurd (hr₁.subset hm) hnot₁
    · exact absurd (hr.subset hm) hnot₂
  · exact argmin_eq_some_iff_append.mpr
      ⟨r₁, r, rfl, fun b hb => h₁ b (hr₁.subset hb), fun b hb => h₂ b (hr.subset hb)⟩

/-- When what is left out is not below `bound`, the first minimum below `bound` stays. -/
theorem argmin_filter {p : α → Bool} {bound : β} (hout : ∀ b ∈ l, p b = false → bound ≤ f b)
    (ha : f a < bound) : (l.filter p).argmin f = some a ↔ l.argmin f = some a := by
  rw [argmin_eq_some_iff_append, argmin_eq_some_iff_append]
  constructor
  · rintro ⟨r₁, r₂, heq, h₁, h₂⟩
    obtain ⟨l₁, m, rfl, rfl, hm⟩ := List.filter_eq_append_iff.mp heq
    obtain ⟨m₁, m₂, rfl, hnot, -, rfl⟩ := List.filter_eq_cons_iff.mp hm
    refine ⟨l₁ ++ m₁, m₂, by simp, fun b hb => ?_, fun b hb => ?_⟩
    · cases hp : p b with
      | false => exact ha.trans_le (hout b (by simp at hb ⊢; tauto) hp)
      | true =>
        rcases List.mem_append.mp hb with hb | hb
        · exact h₁ b (List.mem_filter.mpr ⟨hb, hp⟩)
        · exact absurd hp (hnot b hb)
    · cases hp : p b with
      | false => exact ha.le.trans (hout b (by simp [hb]) hp)
      | true => exact h₂ b (List.mem_filter.mpr ⟨hb, hp⟩)
  · rintro ⟨l₁, l₂, rfl, h₁, h₂⟩
    have hp : p a = true := by
      by_contra hno
      exact absurd (hout a (by simp) (by simpa using hno)) (not_le.mpr ha)
    refine ⟨l₁.filter p, l₂.filter p, by simp [hp], fun b hb => ?_, fun b hb => ?_⟩
    · exact h₁ b (List.mem_of_mem_filter hb)
    · exact h₂ b (List.mem_of_mem_filter hb)

end FirstMin

end EmergencyNet
