import Mathlib.Data.List.Nodup
import Mathlib.Logic.Function.Basic

/-!
# Singly linked lists in memory

A memory of cells is a function `next` from a cell to the link stored in it; `none` is the
`NULL` pointer.  `Segment next head l tail` says that the links lead from `head` through
the cells of `l` to the link `tail`; a list is a segment whose tail is `NULL`.  Loops over
the links take fuel, as links may go round in a circle; on a list of at most as many cells
as there is fuel they end.

## Main definitions

* `Segment`, `LinkedFrom` — segments and lists.
* `linkFirst`, `linkLast`, `unlink` — the ways to put a cell on a list and to take one off.
* `cellsFrom`, `lastFrom`, `lastTwoFrom`, `findFrom`, `findTwoFrom` — the loops over a list.

## Main results

* `Segment.nodup` — **a list that ends has no cycle.**
* `LinkedFrom.linkFirst`, `LinkedFrom.linkLast`, `LinkedFrom.unlink` — what the operations do
  to the list.
* `Segment.setLast` — the link of the last cell redirected.
-/

namespace EmergencyNet

/-- The links of `next` lead from `head` through the cells of `l`, in order, to `tail`. -/
def Segment {ι : Type*} (next : ι → Option ι) : Option ι → List ι → Option ι → Prop
  | head, [], tail => head = tail
  | head, i :: l, tail => head = some i ∧ Segment next (next i) l tail

/-- The links of `next` lead from `head` through the cells of `l` to `NULL`. -/
abbrev LinkedFrom {ι : Type*} (next : ι → Option ι) (head : Option ι) (l : List ι) : Prop :=
  Segment next head l none

section Lists

variable {ι : Type*} {next next' : ι → Option ι} {head tail : Option ι} {l l₁ l₂ : List ι}
  {i j : ι}

/-! ### Segments -/

@[simp] theorem segment_nil : Segment next head [] tail ↔ head = tail := Iff.rfl

@[simp] theorem segment_cons :
    Segment next head (i :: l) tail ↔ head = some i ∧ Segment next (next i) l tail := Iff.rfl

namespace Segment

theorem append : ∀ {l₁ : List ι} {head : Option ι},
    Segment next head (l₁ ++ l₂) tail ↔ ∃ m, Segment next head l₁ m ∧ Segment next m l₂ tail
  | [], head => by simp
  | i :: l₁, head => by
    simp only [List.cons_append, segment_cons, @append l₁]
    constructor
    · rintro ⟨hi, m, h₁, h₂⟩
      exact ⟨m, ⟨hi, h₁⟩, h₂⟩
    · rintro ⟨m, ⟨hi, h₁⟩, h₂⟩
      exact ⟨hi, m, h₁, h₂⟩

/-- Only the links of the cells passed matter. -/
theorem congr (hsame : ∀ i ∈ l, next' i = next i) (h : Segment next head l tail) :
    Segment next' head l tail := by
  induction l generalizing head with
  | nil => exact h
  | cons i l ih =>
    refine ⟨h.1, ?_⟩
    rw [hsame i List.mem_cons_self]
    exact ih (fun j hj => hsame j (List.mem_cons_of_mem _ hj)) h.2

/-- The first cell of a list is where its head points to. -/
theorem head_eq (h : LinkedFrom next head l) : head = l.head? := by
  cases l with
  | nil => exact h
  | cons i l => exact h.1

theorem exists_head (h : LinkedFrom next head (l ++ [j])) : ∃ k, head = some k :=
  ⟨(l ++ [j]).head (by simp), by rw [h.head_eq, List.head?_eq_some_head]⟩

/-- Two lists from the same head are the same. -/
theorem unique (h₁ : LinkedFrom next head l₁) (h₂ : LinkedFrom next head l₂) : l₁ = l₂ := by
  induction l₁ generalizing head l₂ with
  | nil =>
    have hhead := h₂.head_eq
    rw [segment_nil.mp h₁] at hhead
    exact (List.head?_eq_none_iff.mp hhead.symm).symm
  | cons i l₁ ih =>
    cases l₂ with
    | nil => exact absurd (h₁.1.symm.trans h₂) (by simp)
    | cons j l₂ =>
      have hij : i = j := Option.some.inj (h₁.1.symm.trans h₂.1)
      subst hij
      rw [ih h₁.2 h₂.2]

/-- **A list that ends has no cycle**: no cell is met twice. -/
theorem nodup (h : LinkedFrom next head l) : l.Nodup := by
  induction l generalizing head with
  | nil => exact List.nodup_nil
  | cons i l ih =>
    refine List.nodup_cons.mpr ⟨fun hi => ?_, ih h.2⟩
    -- from a second occurrence of `i` on, the rest of the list would be the whole rest again
    obtain ⟨l₁, l₂, rfl⟩ := List.append_of_mem hi
    obtain ⟨m, -, hm⟩ := append.mp h.2
    have hloop := congrArg List.length (unique hm.2 h.2)
    simp only [List.length_append, List.length_cons] at hloop
    omega

end Segment

/-! ### A walk along the links -/

/-- The cells the links lead through from `head` on; `none` when the fuel runs out. -/
def cellsFrom (next : ι → Option ι) : ℕ → Option ι → Option (List ι)
  | _, none => some []
  | 0, some _ => none
  | fuel + 1, some i => (cellsFrom next fuel (next i)).map (i :: ·)

/-- A walk that ends has gone along a list. -/
theorem linkedFrom_of_cellsFrom : ∀ {fuel : ℕ} {head : Option ι} {l : List ι},
    cellsFrom next fuel head = some l → LinkedFrom next head l := by
  intro fuel
  induction fuel with
  | zero =>
    intro head l h
    cases head with
    | none =>
      cases h
      exact segment_nil.mpr rfl
    | some i => cases h
  | succ fuel ih =>
    intro head l h
    cases head with
    | none =>
      cases h
      exact segment_nil.mpr rfl
    | some i =>
      obtain ⟨rest, hrest, rfl⟩ := Option.map_eq_some_iff.mp h
      exact ⟨rfl, ih hrest⟩

/-- A cell that is met on such a walk is on a list. -/
theorem exists_linkedFrom_of_mem {fuel : ℕ} (h : i ∈ (cellsFrom next fuel head).getD []) :
    ∃ l, LinkedFrom next head l ∧ i ∈ l := by
  cases hl : cellsFrom next fuel head with
  | none =>
    rw [hl] at h
    cases h
  | some l =>
    rw [hl] at h
    exact ⟨l, linkedFrom_of_cellsFrom hl, h⟩

/-! ### Changing a link -/

section Update

variable [DecidableEq ι]

theorem Segment.update (h : Segment next head l tail) (hi : i ∉ l) (x : Option ι) :
    Segment (Function.update next i x) head l tail :=
  h.congr fun _ hj => Function.update_of_ne (ne_of_mem_of_not_mem hj hi) _ _

/-- Redirecting the link of the last cell redirects the tail. -/
theorem Segment.setLast (h : Segment next head (l ++ [j]) tail) (hj : j ∉ l) (x : Option ι) :
    Segment (Function.update next j x) head (l ++ [j]) x := by
  obtain ⟨m, h₁, h₂⟩ := Segment.append.mp h
  refine Segment.append.mpr ⟨m, h₁.update hj x, h₂.1, ?_⟩
  rw [Function.update_self]
  rfl

/-- Put cell `i` first: the new head and the new links. -/
def linkFirst (head : Option ι) (i : ι) (next : ι → Option ι) : Option ι × (ι → Option ι) :=
  (some i, Function.update next i head)

theorem LinkedFrom.linkFirst (h : LinkedFrom next head l) (hi : i ∉ l) :
    LinkedFrom (linkFirst head i next).2 (linkFirst head i next).1 (i :: l) := by
  refine ⟨rfl, ?_⟩
  change Segment _ (Function.update next i head i) l none
  rw [Function.update_self]
  exact h.update hi _

/-! ### Loops over a list -/

/-- The last cell from `i` on: `while (i->next != NULL) i = i->next`. -/
def lastFrom (next : ι → Option ι) : ℕ → ι → Option ι
  | 0, _ => none
  | fuel + 1, i =>
    match next i with
    | none => some i
    | some j => lastFrom next fuel j

/-- The last cell from `i` on together with the one before it, `prev` when there is none. -/
def lastTwoFrom (next : ι → Option ι) : ℕ → Option ι → ι → Option (Option ι × ι)
  | 0, _, _ => none
  | fuel + 1, prev, i =>
    match next i with
    | none => some (prev, i)
    | some j => lastTwoFrom next fuel (some i) j

/-- The first cell that passes the test, `NULL` if there is none. -/
def findFrom (next : ι → Option ι) (p : ι → Bool) : ℕ → Option ι → Option (Option ι)
  | _, none => some none
  | 0, some _ => none
  | fuel + 1, some i => if p i then some (some i) else findFrom next p fuel (next i)

/-- The first cell that passes the test together with the one before it, if there is one. -/
def findTwoFrom (next : ι → Option ι) (p : ι → Bool) :
    ℕ → Option ι → Option ι → Option (Option (Option ι × ι))
  | _, _, none => some none
  | 0, _, some _ => none
  | fuel + 1, prev, some i =>
    if p i then some (some (prev, i)) else findTwoFrom next p fuel (some i) (next i)

omit [DecidableEq ι]

theorem lastFrom_eq {fuel : ℕ} (hfuel : l.length < fuel)
    (h : LinkedFrom next (some i) (l ++ [j])) : lastFrom next fuel i = some j := by
  induction l generalizing i fuel with
  | nil =>
    obtain ⟨fuel, rfl⟩ := Nat.exists_eq_add_of_lt hfuel
    obtain ⟨hij, hnext⟩ := h
    cases hij
    simp only [List.length_nil, Nat.zero_add, lastFrom]
    rw [segment_nil.mp hnext]
  | cons k l ih =>
    obtain ⟨fuel, rfl⟩ : ∃ n, fuel = n + 1 := ⟨fuel - 1, by omega⟩
    obtain ⟨hik, hrest⟩ : some i = some k ∧ LinkedFrom next (next k) (l ++ [j]) := h
    cases hik
    obtain ⟨m, hm⟩ := hrest.exists_head
    rw [hm] at hrest
    simp only [lastFrom, hm]
    exact ih (by simpa using hfuel) hrest

theorem lastTwoFrom_eq {fuel : ℕ} {prev : Option ι} (hfuel : l.length < fuel)
    (h : LinkedFrom next (some i) (l ++ [j])) :
    lastTwoFrom next fuel prev i = some (l.getLast?.or prev, j) := by
  induction l generalizing i fuel prev with
  | nil =>
    obtain ⟨fuel, rfl⟩ : ∃ n, fuel = n + 1 := ⟨fuel - 1, by omega⟩
    obtain ⟨hij, hnext⟩ := h
    cases hij
    simp only [lastTwoFrom]
    rw [segment_nil.mp hnext]
    rfl
  | cons k l ih =>
    obtain ⟨fuel, rfl⟩ : ∃ n, fuel = n + 1 := ⟨fuel - 1, by omega⟩
    obtain ⟨hik, hrest⟩ : some i = some k ∧ LinkedFrom next (next k) (l ++ [j]) := h
    cases hik
    obtain ⟨m, hm⟩ := hrest.exists_head
    rw [hm] at hrest
    simp only [lastTwoFrom, hm]
    rw [ih (by simpa using hfuel) hrest, List.getLast?_cons]
    cases l.getLast? <;> rfl

theorem findFrom_eq {p : ι → Bool} {fuel : ℕ} (hfuel : l.length ≤ fuel)
    (h : LinkedFrom next head l) : findFrom next p fuel head = some (l.find? p) := by
  induction l generalizing head fuel with
  | nil =>
    rw [segment_nil.mp h]
    cases fuel <;> rfl
  | cons i l ih =>
    obtain ⟨fuel, rfl⟩ : ∃ n, fuel = n + 1 := ⟨fuel - 1, by simp at hfuel; omega⟩
    rw [h.1, findFrom, List.find?_cons]
    cases p i with
    | true => rfl
    | false => exact ih (by simpa using hfuel) h.2

theorem findTwoFrom_eq {p : ι → Bool} {fuel : ℕ} {prev : Option ι} (hfuel : l₁.length < fuel)
    (hno : ∀ j ∈ l₁, p j = false) (hi : p i = true) (h : LinkedFrom next head (l₁ ++ i :: l₂)) :
    findTwoFrom next p fuel prev head = some (some (l₁.getLast?.or prev, i)) := by
  induction l₁ generalizing head fuel prev with
  | nil =>
    obtain ⟨fuel, rfl⟩ : ∃ n, fuel = n + 1 := ⟨fuel - 1, by omega⟩
    rw [h.1, findTwoFrom, if_pos hi]
    rfl
  | cons k l₁ ih =>
    obtain ⟨fuel, rfl⟩ : ∃ n, fuel = n + 1 := ⟨fuel - 1, by omega⟩
    rw [h.1, findTwoFrom, if_neg (by simp [hno k List.mem_cons_self]),
      ih (by simpa using hfuel) (fun j hj => hno j (List.mem_cons_of_mem _ hj)) h.2,
      List.getLast?_cons]
    cases l₁.getLast? <;> rfl

theorem findTwoFrom_eq_none {p : ι → Bool} {fuel : ℕ} {prev : Option ι} (hfuel : l.length ≤ fuel)
    (hno : ∀ j ∈ l, p j = false) (h : LinkedFrom next head l) :
    findTwoFrom next p fuel prev head = some none := by
  induction l generalizing head fuel prev with
  | nil =>
    rw [segment_nil.mp h]
    cases fuel <;> rfl
  | cons i l ih =>
    obtain ⟨fuel, rfl⟩ : ∃ n, fuel = n + 1 := ⟨fuel - 1, by simp at hfuel; omega⟩
    rw [h.1, findTwoFrom, if_neg (by simp [hno i List.mem_cons_self])]
    exact ih (by simpa using hfuel) (fun j hj => hno j (List.mem_cons_of_mem _ hj)) h.2

end Update

/-! ### Putting a cell last and taking a cell off -/

section Operations

variable [DecidableEq ι]

/-- Put cell `i` last: the new head and the new links.  A loop looks for the last cell. -/
def linkLast (fuel : ℕ) (head : Option ι) (i : ι) (next : ι → Option ι) :
    Option (Option ι × (ι → Option ι)) :=
  let next := Function.update next i none
  match head with
  | none => some (some i, next)
  | some j => (lastFrom next fuel j).map fun last => (head, Function.update next last (some i))

/-- Take cell `i` off, which comes right behind `prev` or first: the new head and the new
links. -/
def unlink (head prev : Option ι) (i : ι) (next : ι → Option ι) : Option ι × (ι → Option ι) :=
  match prev with
  | none => (next i, next)
  | some p => (head, Function.update next p (next i))

/-- The links of `next'` are those of `next` outside the cells of `l`. -/
def SameLinksOff (l : List ι) (next next' : ι → Option ι) : Prop := ∀ j, j ∉ l → next' j = next j

theorem LinkedFrom.linkLast {fuel : ℕ} (h : LinkedFrom next head l) (hi : i ∉ l)
    (hfuel : l.length ≤ fuel) : ∃ head' next', EmergencyNet.linkLast fuel head i next =
      some (head', next') ∧ LinkedFrom next' head' (l ++ [i]) ∧
      SameLinksOff (i :: l) next next' := by
  unfold EmergencyNet.linkLast
  rcases List.eq_nil_or_concat' l with rfl | ⟨l, j, rfl⟩
  · refine ⟨some i, Function.update next i none, by rw [segment_nil.mp h], ?_, ?_⟩
    · exact ⟨rfl, Function.update_self ..⟩
    · exact fun j hj => Function.update_of_ne (by simpa using hj) _ _
  · obtain ⟨k, hk⟩ := h.exists_head
    subst hk
    have hij : i ≠ j := fun hij => hi (by simp [hij])
    have hj : j ∉ l := fun hj => (List.nodup_append.mp h.nodup).2.2 j hj j List.mem_cons_self rfl
    have h₁ := h.update hi none
    have hlen : l.length < fuel := by
      rw [List.length_append, List.length_singleton] at hfuel
      omega
    have hlast := lastFrom_eq hlen h₁
    refine ⟨some k, Function.update (Function.update next i none) j (some i), ?_, ?_, ?_⟩
    · simp only [hlast, Option.map_some]
    · refine Segment.append.mpr ⟨some i, h₁.setLast hj _, rfl, ?_⟩
      rw [Function.update_of_ne hij, Function.update_self]
      rfl
    · intro m hm
      simp only [List.mem_cons, List.mem_append, not_or] at hm
      rw [Function.update_of_ne hm.2.2.1, Function.update_of_ne hm.1]

theorem LinkedFrom.unlink (h : LinkedFrom next head (l₁ ++ i :: l₂)) :
    LinkedFrom (unlink head l₁.getLast? i next).2 (unlink head l₁.getLast? i next).1 (l₁ ++ l₂) ∧
      SameLinksOff l₁ next (unlink head l₁.getLast? i next).2 := by
  unfold EmergencyNet.unlink
  rcases List.eq_nil_or_concat' l₁ with rfl | ⟨l, p, rfl⟩
  · exact ⟨h.2, fun _ _ => rfl⟩
  · have hnodup := h.nodup
    obtain ⟨m, h₁, h₂⟩ := Segment.append.mp h
    have hp : p ∉ l := fun hp =>
      (List.nodup_append.mp (List.nodup_append.mp hnodup).1).2.2 p hp p List.mem_cons_self rfl
    have hp₂ : p ∉ l₂ := fun hp =>
      (List.nodup_append.mp hnodup).2.2 p (by simp) p (List.mem_cons_of_mem _ hp) rfl
    rw [List.getLast?_concat]
    refine ⟨Segment.append.mpr ⟨next i, h₁.setLast hp _, h₂.2.update hp₂ _⟩, fun j hj => ?_⟩
    simp only [List.mem_append, List.mem_singleton, not_or] at hj
    exact Function.update_of_ne hj.2 _ _

end Operations

end Lists

end EmergencyNet
