import Mathlib.Data.List.Range
import Mathlib.Data.List.Perm.Basic
import Mathlib.Logic.Function.Basic
import Mathlib.Data.List.Nodup

/-!
# The queue buffer

`base/queue_buffer.c` keeps a fixed number of slots in two singly linked lists, the used
ones and the unused ones.  Here each list is the list of its slots' numbers, front first;
a slot number stands for the address the C code hands out.  A slot keeps its contents when
it is freed, which matters because the program holds on to addresses of freed slots.

## Main definitions

* `QueueBuffer α n` — `n` slots holding items of type `α`.
* `QueueBuffer.init`, `pushFront`, `pushBack`, `allocFront`, `allocBack`, `popFront`,
  `popBack`, `free`, `clear`, `find`, `set` — the operations.

## Main results

* `QueueBuffer.used_nodup`, `size_le` — no slot is used twice, at most `n` are used.
* `QueueBuffer.mem_free`, `mem_pushFront` — which slots an operation leaves in use.
-/

namespace EmergencyNet

/-- A pool of `n` slots, each in exactly one of the two lists. -/
structure QueueBuffer (α : Type*) (n : ℕ) where
  /-- The slots on the list from `used_head`, front first. -/
  used : List ℕ
  /-- The slots on the list from `unused_head`, front first. -/
  unused : List ℕ
  /-- The contents of every slot, used or not. -/
  item : ℕ → α
  /-- The two lists hold every slot exactly once. -/
  slots : (used ++ unused).Perm (List.range n)

namespace QueueBuffer

variable {α : Type*} {n : ℕ} {q q' : QueueBuffer α n} {i j : ℕ}

/-! ### Operations -/

/-- `queue_buffer_init`: every slot is unused, in address order. -/
def init (n : ℕ) (item : ℕ → α) : QueueBuffer α n where
  used := []
  unused := List.range n
  item := item
  slots := .refl _

/-- `queue_buffer_size`. -/
def size (q : QueueBuffer α n) : ℕ := q.used.length

/-- The items front to back, in the order `queue_buffer_begin` and `queue_buffer_next`
visit them. -/
def toList (q : QueueBuffer α n) : List α := q.used.map q.item

/-- The slots in use with their items, front first. -/
def entries (q : QueueBuffer α n) : List (ℕ × α) := q.used.map fun i => (i, q.item i)

/-- `queue_buffer_push_front`: `none` when no slot is free. -/
def pushFront (q : QueueBuffer α n) (x : α) : Option (QueueBuffer α n) :=
  if h : q.unused = [] then none
  else some
    { used := q.unused.head h :: q.used
      unused := q.unused.tail
      item := Function.update q.item (q.unused.head h) x
      slots := by
        refine List.Perm.trans ?_ q.slots
        have hcons : q.unused = q.unused.head h :: q.unused.tail := by simp
        conv_rhs => rw [hcons]
        exact List.perm_middle.symm }

/-- `queue_buffer_alloc_front`: the slot handed out keeps the contents it had. -/
def allocFront (q : QueueBuffer α n) : Option (ℕ × QueueBuffer α n) :=
  if h : q.unused = [] then none
  else some (q.unused.head h,
    { q with
      used := q.unused.head h :: q.used
      unused := q.unused.tail
      slots := by
        refine List.Perm.trans ?_ q.slots
        have hcons : q.unused = q.unused.head h :: q.unused.tail := by simp
        conv_rhs => rw [hcons]
        exact List.perm_middle.symm })

/-- `queue_buffer_alloc_back`: the slot handed out keeps the contents it had. -/
def allocBack (q : QueueBuffer α n) : Option (ℕ × QueueBuffer α n) :=
  if h : q.unused = [] then none
  else some (q.unused.head h,
    { q with
      used := q.used ++ [q.unused.head h]
      unused := q.unused.tail
      slots := by
        have hcons : q.unused.head h :: q.unused.tail = q.unused := List.cons_head_tail h
        rw [List.append_assoc, List.singleton_append, hcons]
        exact q.slots })

/-- `queue_buffer_push_back`: `none` when no slot is free. -/
def pushBack (q : QueueBuffer α n) (x : α) : Option (QueueBuffer α n) :=
  q.allocBack.map fun r => { r.2 with item := Function.update r.2.item r.1 x }

/-- `queue_buffer_pop_front`, of a buffer that has a slot in use. -/
def popFront (q : QueueBuffer α n) : QueueBuffer α n :=
  if h : q.used = [] then q
  else
    { q with
      used := q.used.tail
      unused := q.used.head h :: q.unused
      slots := by
        have hcons : q.used = q.used.head h :: q.used.tail := (List.cons_head_tail h).symm
        refine List.perm_middle.trans ?_
        rw [← List.cons_append, ← hcons]
        exact q.slots }

/-- `queue_buffer_pop_back`, of a buffer that has a slot in use. -/
def popBack (q : QueueBuffer α n) : QueueBuffer α n :=
  if h : q.used = [] then q
  else
    { q with
      used := q.used.dropLast
      unused := q.used.getLast h :: q.unused
      slots := by
        have hlast : q.used.dropLast ++ q.used.getLast h :: q.unused = q.used ++ q.unused := by
          rw [List.append_cons, List.dropLast_concat_getLast]
        rw [hlast]
        exact q.slots }

/-- `queue_buffer_free` of the item in slot `i`; nothing happens when the slot is not in
use. -/
def free (q : QueueBuffer α n) (i : ℕ) : QueueBuffer α n :=
  if h : i ∈ q.used then
    { q with
      used := q.used.erase i
      unused := i :: q.unused
      slots := by
        refine List.Perm.trans ?_ q.slots
        refine List.perm_middle.trans ?_
        exact (List.perm_cons_erase h).symm.append_right q.unused }
  else q

/-- `queue_buffer_clear`: the used list is hung behind the unused one. -/
def clear (q : QueueBuffer α n) : QueueBuffer α n where
  used := []
  unused := q.unused ++ q.used
  item := q.item
  slots := by
    have h : (q.unused ++ q.used).Perm (q.used ++ q.unused) := List.perm_append_comm
    exact h.trans q.slots

/-- `queue_buffer_find`: the first slot in use whose item the comparer accepts. -/
def find (q : QueueBuffer α n) (cmp : α → Bool) : Option ℕ := q.used.find? fun i => cmp (q.item i)

/-- A write through the address of slot `i`. -/
def set (q : QueueBuffer α n) (i : ℕ) (x : α) : QueueBuffer α n :=
  { q with item := Function.update q.item i x }

/-! ### The two lists -/

theorem used_nodup (q : QueueBuffer α n) : q.used.Nodup :=
  ((q.slots.nodup_iff.mpr List.nodup_range).sublist (List.sublist_append_left _ _))

theorem disjoint (q : QueueBuffer α n) (hi : i ∈ q.unused) : i ∉ q.used := by
  have h : (q.used ++ q.unused).Nodup := q.slots.nodup_iff.mpr List.nodup_range
  exact fun hu => (List.nodup_append.mp h).2.2 i hu i hi rfl

theorem length_used_add_length_unused (q : QueueBuffer α n) :
    q.used.length + q.unused.length = n := by
  simpa using q.slots.length_eq

theorem size_le (q : QueueBuffer α n) : q.size ≤ n := by
  have := q.length_used_add_length_unused
  rw [size]
  omega

@[simp] theorem length_toList (q : QueueBuffer α n) : q.toList.length = q.used.length := by
  simp [toList]

@[simp] theorem length_entries (q : QueueBuffer α n) : q.entries.length = q.used.length := by
  simp [entries]

@[simp] theorem map_fst_entries (q : QueueBuffer α n) : q.entries.map Prod.fst = q.used := by
  rw [entries, List.map_map]
  exact List.map_id _

/-- Items off the list may change. -/
theorem map_entries_congr {item : ℕ → α} {l : List ℕ} (h : ∀ i ∈ l, item i = q.item i) :
    l.map (fun i => (i, item i)) = l.map fun i => (i, q.item i) :=
  List.map_congr_left fun i hi => by rw [h i hi]

/-! ### What each operation leaves -/

@[simp] theorem init_used (item : ℕ → α) : (init n item).used = [] := rfl

@[simp] theorem init_item (item : ℕ → α) : (init n item).item = item := rfl

@[simp] theorem clear_used (q : QueueBuffer α n) : q.clear.used = [] := rfl

@[simp] theorem clear_item (q : QueueBuffer α n) : q.clear.item = q.item := rfl

@[simp] theorem set_used (q : QueueBuffer α n) (i : ℕ) (x : α) : (q.set i x).used = q.used := rfl

@[simp] theorem set_item_self (q : QueueBuffer α n) (i : ℕ) (x : α) :
    (q.set i x).item i = x := Function.update_self ..

theorem set_item_of_ne (q : QueueBuffer α n) (x : α) (h : j ≠ i) :
    (q.set i x).item j = q.item j := Function.update_of_ne h ..

theorem set_item_eq_self : q.set i (q.item i) = q := by
  cases q
  simp [set]

theorem free_used (q : QueueBuffer α n) (i : ℕ) : (q.free i).used = q.used.erase i := by
  unfold free
  split
  · rfl
  · next h => rw [List.erase_of_not_mem h]

@[simp] theorem free_item (q : QueueBuffer α n) (i : ℕ) : (q.free i).item = q.item := by
  unfold free
  split <;> rfl

theorem mem_free : j ∈ (q.free i).used ↔ j ∈ q.used ∧ j ≠ i := by
  rw [free_used, q.used_nodup.mem_erase_iff, and_comm]

/-- A push takes the first free slot and changes nothing else. -/
theorem pushFront_eq_some {x : α} (h : q.pushFront x = some q') :
    ∃ b, b ∈ q.unused ∧ q'.used = b :: q.used ∧ q'.item = Function.update q.item b x ∧
      q.unused.head? = some b := by
  unfold pushFront at h
  split at h
  · cases h
  · next hne =>
    cases h
    exact ⟨q.unused.head hne, List.head_mem hne, rfl, rfl, List.head?_eq_some_head hne⟩

/-- A push takes the slot off the unused list. -/
theorem pushFront_unused {x : α} (h : q.pushFront x = some q') :
    ∃ b, q'.used = b :: q.used ∧ q.unused = b :: q'.unused := by
  unfold pushFront at h
  split at h
  · cases h
  · next hne =>
    cases h
    exact ⟨q.unused.head hne, rfl, (List.cons_head_tail hne).symm⟩

/-- A push succeeds as long as a slot is free. -/
theorem exists_pushFront (h : q.unused ≠ []) (x : α) : ∃ q', q.pushFront x = some q' :=
  ⟨_, dif_neg h⟩

/-- An allocation takes the first free slot and writes nothing. -/
theorem allocFront_eq_some (h : q.allocFront = some (i, q')) :
    i ∈ q.unused ∧ q'.used = i :: q.used ∧ q'.item = q.item := by
  unfold allocFront at h
  split at h
  · cases h
  · next hne =>
    cases h
    exact ⟨List.head_mem hne, rfl, rfl⟩

/-- An allocation fails exactly when every slot is in use. -/
theorem allocFront_eq_none : q.allocFront = none ↔ q.size = n := by
  have hlen := q.length_used_add_length_unused
  unfold allocFront size
  split
  · next h =>
    rw [h, List.length_nil] at hlen
    simpa using hlen
  · next h =>
    have hpos := List.length_pos_of_ne_nil h
    simp only [reduceCtorEq, false_iff]
    omega

@[simp] theorem popBack_used (q : QueueBuffer α n) : q.popBack.used = q.used.dropLast := by
  unfold popBack
  split
  · next h => rw [h, List.dropLast_nil]
  · rfl

@[simp] theorem popBack_item (q : QueueBuffer α n) : q.popBack.item = q.item := by
  unfold popBack
  split <;> rfl

/-- The items after a push. -/
theorem toList_pushFront {x : α} (h : q.pushFront x = some q') : q'.toList = x :: q.toList := by
  obtain ⟨b, hb, hused, hitem, -⟩ := pushFront_eq_some h
  rw [toList, hused, hitem, List.map_cons, Function.update_self, toList]
  congr 1
  apply List.map_congr_left
  intro i hi
  have hne : i ≠ b := fun hib => q.disjoint hb (hib ▸ hi)
  rw [Function.update_of_ne hne]

/-- A push fails exactly when every slot is in use. -/
theorem pushFront_eq_none {x : α} : q.pushFront x = none ↔ q.size = n := by
  have hlen := q.length_used_add_length_unused
  unfold pushFront size
  split
  · next h =>
    rw [h, List.length_nil] at hlen
    simpa using hlen
  · next h =>
    have hpos := List.length_pos_of_ne_nil h
    simp only [reduceCtorEq, false_iff]
    omega

@[simp] theorem toList_popBack (q : QueueBuffer α n) : q.popBack.toList = q.toList.dropLast := by
  rw [toList, popBack_used, popBack_item, toList, List.map_dropLast]

/-! ### The lists after an operation -/

section Shapes

variable {b : ℕ} {rest l l₁ l₂ : List ℕ}

theorem allocFront_of_cons (h : q.unused = b :: rest) : ∃ q', q.allocFront = some (b, q') ∧
    q'.used = b :: q.used ∧ q'.unused = rest ∧ q'.item = q.item := by
  have hne : q.unused ≠ [] := by simp [h]
  obtain rfl : q.unused.head hne = b := by simp [h]
  exact ⟨_, dif_neg hne, rfl, congrArg List.tail h, rfl⟩

theorem allocBack_of_cons (h : q.unused = b :: rest) : ∃ q', q.allocBack = some (b, q') ∧
    q'.used = q.used ++ [b] ∧ q'.unused = rest ∧ q'.item = q.item := by
  have hne : q.unused ≠ [] := by simp [h]
  obtain rfl : q.unused.head hne = b := by simp [h]
  exact ⟨_, dif_neg hne, rfl, congrArg List.tail h, rfl⟩

/-- A push is an allocation and a write to the slot handed out. -/
theorem pushFront_eq (x : α) : q.pushFront x = q.allocFront.map fun r => r.2.set r.1 x := by
  unfold pushFront allocFront
  split <;> rfl

theorem pushBack_eq (x : α) : q.pushBack x = q.allocBack.map fun r => r.2.set r.1 x := rfl

theorem popFront_of_cons (h : q.used = i :: l) : q.popFront.used = l ∧
    q.popFront.unused = i :: q.unused ∧ q.popFront.item = q.item := by
  have hne : q.used ≠ [] := by simp [h]
  unfold popFront
  rw [dif_neg hne]
  exact ⟨by simp [h], by simp [h], rfl⟩

theorem popBack_of_concat (h : q.used = l ++ [i]) : q.popBack.used = l ∧
    q.popBack.unused = i :: q.unused ∧ q.popBack.item = q.item := by
  have hne : q.used ≠ [] := by simp [h]
  unfold popBack
  rw [dif_neg hne]
  exact ⟨by simp [h], by simp [h], rfl⟩

theorem free_of_append (h : q.used = l₁ ++ i :: l₂) : (q.free i).used = l₁ ++ l₂ ∧
    (q.free i).unused = i :: q.unused := by
  have hmem : i ∈ q.used := by simp [h]
  have hi : i ∉ l₁ := by
    have hnodup := q.used_nodup
    rw [h, List.nodup_append] at hnodup
    exact fun hi => hnodup.2.2 i hi i List.mem_cons_self rfl
  refine ⟨?_, by rw [free, dif_pos hmem]⟩
  rw [free_used, h, List.erase_append_right _ hi, List.erase_cons_head]

end Shapes

/-- A slot found is in use and its item is accepted. -/
theorem mem_of_find {cmp : α → Bool} (h : q.find cmp = some i) :
    i ∈ q.used ∧ cmp (q.item i) = true :=
  ⟨List.mem_of_find?_eq_some h, by simpa using List.find?_some h⟩

end QueueBuffer

end EmergencyNet
