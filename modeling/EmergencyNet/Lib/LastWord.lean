import Mathlib.Data.Finset.Card
import Mathlib.Data.List.Nodup

/-!
# The last word on each of many things

A list that is kept by news: a thing comes onto it when it is said to be so, as far as there is
room, and goes off it when it is said to be so no longer.  The history of the news is a list,
newest first.

## Main definitions

* `lastWord x news` — what the news say last about `x`.
* `noted n l news` — list `l` of at most `n` entries after a piece of news.
* `Reflects n l news` — what the list says of the history.

## Main results

* `Reflects.noted` — **a piece of news keeps what the list says**: it holds nothing twice and only
  things that are so, and all of them while no more than `n` have been spoken of.
-/

namespace EmergencyNet

variable {α : Type*} [DecidableEq α] {n : ℕ} {x y : α} {b : Bool} {l : List α}
  {news : List (α × Bool)}

/-- What the news say last about `x`. -/
def lastWord (x : α) (news : List (α × Bool)) : Option Bool :=
  (news.find? fun p => p.1 = x).map Prod.snd

theorem lastWord_cons_self : lastWord x ((x, b) :: news) = some b := by
  simp [lastWord]

theorem lastWord_cons_of_ne (h : y ≠ x) : lastWord x ((y, b) :: news) = lastWord x news := by
  simp [lastWord, h]

/-- Only what has been spoken of is so. -/
theorem mem_of_lastWord (h : lastWord x news = some b) : x ∈ news.map Prod.fst := by
  obtain ⟨p, hp, -⟩ := Option.map_eq_some_iff.mp h
  have hx : p.1 = x := by simpa using List.find?_some hp
  exact List.mem_map.mpr ⟨p, List.mem_of_find?_eq_some hp, hx⟩

/-- List `l` after a piece of news; what does not fit into `n` entries is left out. -/
def noted (n : ℕ) (l : List α) : α × Bool → List α
  | (x, true) => if x ∉ l ∧ l.length < n then x :: l else l
  | (x, false) => l.erase x

theorem noted_eq_ite : noted n l (x, true) = if x ∉ l ∧ l.length < n then x :: l else l := rfl

/-- What list `l` says of the news. -/
structure Reflects (n : ℕ) (l : List α) (news : List (α × Bool)) : Prop where
  nodup : l.Nodup
  le : l.length ≤ n
  sound : ∀ x ∈ l, lastWord x news = some true
  complete : (news.map Prod.fst).toFinset.card ≤ n → ∀ x, lastWord x news = some true → x ∈ l

theorem reflects_nil : Reflects n ([] : List α) [] where
  nodup := List.nodup_nil
  le := Nat.zero_le n
  sound := fun _ h => absurd h List.not_mem_nil
  complete := fun _ _ h => by cases h

/-- A full list that lacks a thing that is so has heard of too many. -/
theorem Reflects.lt_card (h : Reflects n l news) (hx : x ∉ l) (hfull : n ≤ l.length) :
    n < (((x, b) :: news).map Prod.fst).toFinset.card := by
  have hnodup : (x :: l).Nodup := List.nodup_cons.mpr ⟨hx, h.nodup⟩
  have hsub : (x :: l).toFinset ⊆ (((x, b) :: news).map Prod.fst).toFinset := by
    intro y hy
    rw [List.mem_toFinset] at hy ⊢
    rcases List.mem_cons.mp hy with rfl | hy
    · exact List.mem_cons_self
    · exact List.mem_cons_of_mem _ (mem_of_lastWord (h.sound y hy))
  have hcard := Finset.card_le_card hsub
  rw [List.toFinset_card_of_nodup hnodup, List.length_cons] at hcard
  omega

/-- Fewer things have been spoken of before. -/
theorem card_news_le : (news.map Prod.fst).toFinset.card ≤
    (((x, b) :: news).map Prod.fst).toFinset.card := by
  apply Finset.card_le_card
  intro y hy
  rw [List.mem_toFinset] at hy ⊢
  exact List.mem_cons_of_mem _ hy

theorem Reflects.noted_true (h : Reflects n l news) (x : α) :
    Reflects n (noted n l (x, true)) ((x, true) :: news) := by
  -- what is said of `x` does not concern the others
  have hother : ∀ {y}, y ≠ x → lastWord y ((x, true) :: news) = lastWord y news := fun hy =>
    lastWord_cons_of_ne (Ne.symm hy)
  rw [noted_eq_ite]
  split
  · next hroom =>
    refine ⟨List.nodup_cons.mpr ⟨hroom.1, h.nodup⟩, ?_, fun y hy => ?_, fun hcard y hy => ?_⟩
    · rw [List.length_cons]
      exact hroom.2
    · rcases List.mem_cons.mp hy with rfl | hy
      · exact lastWord_cons_self
      · exact (hother fun heq => hroom.1 (heq ▸ hy)).trans (h.sound y hy)
    · by_cases hyx : y = x
      · exact hyx ▸ List.mem_cons_self
      · rw [hother hyx] at hy
        exact List.mem_cons_of_mem x (h.complete (card_news_le.trans hcard) y hy)
  · next hkeep =>
    refine ⟨h.nodup, h.le, fun y hy => ?_, fun hcard y hy => ?_⟩
    · by_cases hyx : y = x
      · exact hyx ▸ lastWord_cons_self
      · exact (hother hyx).trans (h.sound y hy)
    · by_cases hyx : y = x
      · subst hyx
        by_contra hmem
        have hfull : n ≤ l.length := by
          by_contra hlt
          exact hkeep ⟨hmem, by omega⟩
        have hlt := h.lt_card (b := true) hmem hfull
        omega
      · rw [hother hyx] at hy
        exact h.complete (card_news_le.trans hcard) y hy

theorem Reflects.noted_false (h : Reflects n l news) (x : α) :
    Reflects n (noted n l (x, false)) ((x, false) :: news) := by
  refine ⟨h.nodup.erase x, List.length_erase_le.trans h.le, fun y hy => ?_, fun hcard y hy => ?_⟩
  · obtain ⟨hne, hmem⟩ := (h.nodup.mem_erase_iff).mp hy
    exact (lastWord_cons_of_ne (Ne.symm hne)).trans (h.sound y hmem)
  · have hne : y ≠ x := by
      rintro rfl
      rw [lastWord_cons_self] at hy
      cases hy
    rw [lastWord_cons_of_ne (Ne.symm hne)] at hy
    exact (List.mem_erase_of_ne hne).mpr (h.complete (card_news_le.trans hcard) y hy)

/-- **A piece of news keeps what the list says.** -/
theorem Reflects.noted (h : Reflects n l news) (p : α × Bool) :
    Reflects n (noted n l p) (p :: news) := by
  obtain ⟨x, b⟩ := p
  cases b with
  | true => exact h.noted_true x
  | false => exact h.noted_false x

end EmergencyNet
