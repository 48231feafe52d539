import EmergencyNet.Base.QueueBuffer
import EmergencyNet.Lib.LinkedList

/-!
# The queue buffer in memory

`struct queue_buffer` with its pointers, as `base/queue_buffer.c` works on it.  A slot
number stands for the address of a `struct queue_buffer_s`; its `data`, `buffer_size`
bytes, is a value of type `α`.  A function returns `none` where the code does not come to
an end: where it asserts, goes through a `NULL` pointer or loops.

## Main definitions

* `LinkedQueue α` — the structure and the memory of its slots.
* `LinkedQueue.init`, `allocFront`, `pushBack`, `popBack`, `free`, .. — the functions.
* `LinkedQueue.Refines` — the memory holds the two lists of a `QueueBuffer`.

## Main results

* `LinkedQueue.refines_init`, `Refines.pushFront`, `Refines.popBack`, `Refines.free`, .. —
  **every function does to the memory what the list-level operation does to the lists.**
-/

namespace EmergencyNet

/-- `struct queue_buffer`, and the slots it manages. -/
structure LinkedQueue (α : Type*) where
  queueSize : UInt8
  queueMaxSize : UInt8
  unusedHead : Option ℕ
  usedHead : Option ℕ
  iterator : Option ℕ
  /-- The `next` member of every slot. -/
  next : ℕ → Option ℕ
  /-- The `data` member of every slot. -/
  data : ℕ → α

namespace LinkedQueue

variable {α : Type*}

/-- The number of slots: more than enough fuel for a loop over one of the lists. -/
def capacity (m : LinkedQueue α) : ℕ := m.queueMaxSize.toNat

/-! ### The functions -/

/-- `allocate_buffer_space_back`. -/
def allocateBufferSpaceBack (m : LinkedQueue α) : Option (Option ℕ × LinkedQueue α) :=
  match m.unusedHead with
  | none => some (none, m)
  | some buf =>
    (linkLast m.capacity m.usedHead buf m.next).map fun r =>
      (some buf, { m with unusedHead := m.next buf, usedHead := r.1, next := r.2 })

/-- `allocate_buffer_space_front`. -/
def allocateBufferSpaceFront (m : LinkedQueue α) : Option ℕ × LinkedQueue α :=
  match m.unusedHead with
  | none => (none, m)
  | some buf =>
    let r := linkFirst m.usedHead buf m.next
    (some buf, { m with unusedHead := m.next buf, usedHead := r.1, next := r.2 })

/-- `queue_buffer_init`, on whatever the memory holds. -/
def init (numItems : UInt8) (m : LinkedQueue α) : Option (LinkedQueue α) :=
  let add := fun (r : Option ℕ × (ℕ → Option ℕ)) i => linkLast numItems.toNat r.1 i r.2
  ((List.range numItems.toNat).foldlM add (none, m.next)).map fun r =>
    { queueSize := 0, queueMaxSize := numItems, unusedHead := r.1, usedHead := none
      iterator := none, next := r.2, data := m.data }

/-- `queue_buffer_size`. -/
def size (m : LinkedQueue α) : UInt8 := m.queueSize

/-- `queue_buffer_alloc_back`. -/
def allocBack (m : LinkedQueue α) : Option (Option ℕ × LinkedQueue α) :=
  m.allocateBufferSpaceBack.map fun r =>
    match r.1 with
    | none => r
    | some b => (some b, { r.2 with queueSize := r.2.queueSize + 1 })

/-- `queue_buffer_alloc_front`. -/
def allocFront (m : LinkedQueue α) : Option (Option ℕ × LinkedQueue α) :=
  match m.allocateBufferSpaceFront with
  | (none, m) => some (none, m)
  | (some b, m) => some (some b, { m with queueSize := m.queueSize + 1 })

/-- A write through the address of the item in slot `i`. -/
def write (i : ℕ) (x : α) (m : LinkedQueue α) : LinkedQueue α :=
  { m with data := Function.update m.data i x }

/-- `queue_buffer_push_front`; its assertion compares what it has just copied. -/
def pushFront (x : α) (m : LinkedQueue α) : Option (Option ℕ × LinkedQueue α) :=
  match m.allocateBufferSpaceFront with
  | (none, m) => some (none, m)
  | (some b, m) => some (some b, ({ m with queueSize := m.queueSize + 1 }).write b x)

/-- `queue_buffer_push_back`. -/
def pushBack (x : α) (m : LinkedQueue α) : Option (Option ℕ × LinkedQueue α) :=
  m.allocateBufferSpaceBack.map fun r =>
    match r.1 with
    | none => r
    | some b => (some b, ({ r.2 with queueSize := r.2.queueSize + 1 }).write b x)

/-- `queue_buffer_pop_front`, with the item it copies out. -/
def popFront (m : LinkedQueue α) : Option (α × LinkedQueue α) :=
  match m.usedHead with
  | none => none
  | some i =>
    let r := linkFirst m.unusedHead i m.next
    some (m.data i, { m with
      usedHead := m.next i, unusedHead := r.1, next := r.2, queueSize := m.queueSize - 1 })

/-- `queue_buffer_pop_back`, with the item it copies out. -/
def popBack (m : LinkedQueue α) : Option (α × LinkedQueue α) :=
  match m.usedHead with
  | none => none
  | some head =>
    (lastTwoFrom m.next m.capacity none head).map fun (prev, i) =>
      let r := linkFirst m.unusedHead i m.next
      match prev with
      | some p => (m.data i, { m with
          unusedHead := r.1, next := Function.update r.2 p none, queueSize := m.queueSize - 1 })
      | none => (m.data i, { m with
          unusedHead := r.1, next := r.2, usedHead := none, queueSize := m.queueSize - 1 })

/-- `queue_buffer_free`. -/
def free (item : ℕ) (m : LinkedQueue α) : Option (LinkedQueue α) :=
  (findTwoFrom m.next (· == item) m.capacity none m.usedHead).bind fun found =>
    -- the code asserts that the item is found
    found.map fun (prev, i) =>
      let u := unlink m.usedHead prev i m.next
      let r := linkFirst m.unusedHead i u.2
      { m with usedHead := u.1, unusedHead := r.1, next := r.2, queueSize := m.queueSize - 1 }

/-- `queue_buffer_find`, for the comparer applied to the item looked for. -/
def find (comparer : α → Bool) (m : LinkedQueue α) : Option (Option ℕ) :=
  findFrom m.next (fun i => comparer (m.data i)) m.capacity m.usedHead

/-- `queue_buffer_clear`. -/
def clear (m : LinkedQueue α) : Option (LinkedQueue α) :=
  match m.usedHead with
  | none => some { m with queueSize := 0, iterator := none }
  | some _ =>
    match m.unusedHead with
    | none => some { m with
        queueSize := 0, unusedHead := m.usedHead, usedHead := none, iterator := none }
    | some s => (lastFrom m.next m.capacity s).map fun last =>
        { m with
          queueSize := 0, next := Function.update m.next last m.usedHead, usedHead := none
          iterator := none }

/-- `queue_buffer_begin`. -/
def begin (m : LinkedQueue α) : Option ℕ × LinkedQueue α :=
  (m.usedHead, { m with iterator := m.usedHead })

/-- `queue_buffer_next`, which goes through the iterator. -/
def getNext (m : LinkedQueue α) : Option (Option ℕ × LinkedQueue α) :=
  m.iterator.map fun i => (m.next i, { m with iterator := m.next i })

/-- The loop of `queue_buffer_copy` from slot `i` of `source` on. -/
def copyFrom (source : LinkedQueue α) : ℕ → Option ℕ → LinkedQueue α → Option (LinkedQueue α)
  | _, none, m => some m
  | 0, some _, _ => none
  | fuel + 1, some i, m =>
    (m.pushBack (source.data i)).bind fun r => copyFrom source fuel (source.next i) r.2

/-- `queue_buffer_copy` to `m`. -/
def copy (m source : LinkedQueue α) : Option (LinkedQueue α) :=
  copyFrom source source.capacity source.usedHead m

/-! ### The iterator -/

section Iterator

variable {m : LinkedQueue α}

theorem iterator_allocateBufferSpaceFront :
    m.allocateBufferSpaceFront.2.iterator = m.iterator := by
  unfold allocateBufferSpaceFront
  split <;> rfl

theorem iterator_allocateBufferSpaceBack {r : Option ℕ × LinkedQueue α}
    (h : m.allocateBufferSpaceBack = some r) : r.2.iterator = m.iterator := by
  unfold allocateBufferSpaceBack at h
  split at h
  · cases h
    rfl
  · obtain ⟨u, -, rfl⟩ := Option.map_eq_some_iff.mp h
    rfl

theorem iterator_allocFront {r : Option ℕ × LinkedQueue α} (h : m.allocFront = some r) :
    r.2.iterator = m.iterator := by
  have hspace := iterator_allocateBufferSpaceFront (m := m)
  unfold allocFront at h
  split at h <;> · next heq => cases h; rw [heq] at hspace; exact hspace

theorem iterator_pushFront {x : α} {r : Option ℕ × LinkedQueue α} (h : m.pushFront x = some r) :
    r.2.iterator = m.iterator := by
  have hspace := iterator_allocateBufferSpaceFront (m := m)
  unfold pushFront at h
  split at h <;> · next heq => cases h; rw [heq] at hspace; exact hspace

theorem iterator_allocBack {r : Option ℕ × LinkedQueue α} (h : m.allocBack = some r) :
    r.2.iterator = m.iterator := by
  obtain ⟨⟨b, m₁⟩, hspace, rfl⟩ := Option.map_eq_some_iff.mp h
  have hsame : m₁.iterator = m.iterator := iterator_allocateBufferSpaceBack hspace
  cases b <;> exact hsame

theorem iterator_pushBack {x : α} {r : Option ℕ × LinkedQueue α} (h : m.pushBack x = some r) :
    r.2.iterator = m.iterator := by
  obtain ⟨⟨b, m₁⟩, hspace, rfl⟩ := Option.map_eq_some_iff.mp h
  have hsame : m₁.iterator = m.iterator := iterator_allocateBufferSpaceBack hspace
  cases b <;> exact hsame

theorem iterator_popFront {r : α × LinkedQueue α} (h : m.popFront = some r) :
    r.2.iterator = m.iterator := by
  unfold popFront at h
  split at h <;> cases h
  rfl

theorem iterator_popBack {r : α × LinkedQueue α} (h : m.popBack = some r) :
    r.2.iterator = m.iterator := by
  unfold popBack at h
  split at h
  · cases h
  · obtain ⟨⟨_ | p, i⟩, -, rfl⟩ := Option.map_eq_some_iff.mp h <;> rfl

theorem iterator_free {i : ℕ} {m' : LinkedQueue α} (h : m.free i = some m') :
    m'.iterator = m.iterator := by
  obtain ⟨found, -, h⟩ := Option.bind_eq_some_iff.mp h
  obtain ⟨u, -, rfl⟩ := Option.map_eq_some_iff.mp h
  rfl

theorem iterator_clear {m' : LinkedQueue α} (h : m.clear = some m') : m'.iterator = none := by
  unfold clear at h
  split at h
  · cases h
    rfl
  · split at h
    · cases h
      rfl
    · obtain ⟨u, -, rfl⟩ := Option.map_eq_some_iff.mp h
      rfl

end Iterator

/-! ### The two lists -/

/-- The memory holds the two lists and the items of `q`. -/
structure Refines {n : ℕ} (m : LinkedQueue α) (q : QueueBuffer α n) : Prop where
  capacity : m.capacity = n
  queueSize : m.queueSize.toNat = q.used.length
  used : LinkedFrom m.next m.usedHead q.used
  unused : LinkedFrom m.next m.unusedHead q.unused
  data : m.data = q.item

section Lists

variable {n : ℕ} {m : LinkedQueue α} {q : QueueBuffer α n} {i : ℕ} {x : α}

namespace Refines

theorem queueMaxSize_lt (h : m.Refines q) : n < 256 := by
  have := m.queueMaxSize.toNat_lt
  rw [← h.capacity]
  exact this

theorem length_used_le (h : m.Refines q) : q.used.length ≤ m.capacity := by
  rw [h.capacity]
  exact q.size_le

theorem length_unused_le (h : m.Refines q) : q.unused.length ≤ m.capacity := by
  have := q.length_used_add_length_unused
  rw [h.capacity]
  omega

/-- The size after one more item. -/
theorem toNat_add_one (h : m.Refines q) (hroom : q.used.length < n) :
    (m.queueSize + 1).toNat = q.used.length + 1 := by
  have := h.queueMaxSize_lt
  have hsize := h.queueSize
  rw [UInt8.toNat_add, hsize]
  change (q.used.length + 1) % 256 = _
  omega

/-- The size after one item less. -/
theorem toNat_sub_one (h : m.Refines q) (hpos : 0 < q.used.length) :
    (m.queueSize - 1).toNat = q.used.length - 1 := by
  have hle : (1 : UInt8) ≤ m.queueSize := by
    rw [UInt8.le_iff_toNat_le, h.queueSize]
    exact hpos
  rw [UInt8.toNat_sub_of_le _ _ hle, h.queueSize]
  rfl

theorem nodup (_ : m.Refines q) : (q.used ++ q.unused).Nodup :=
  q.slots.nodup_iff.mpr List.nodup_range

/-! ### Allocation -/

theorem unusedHead_eq_none (h : m.Refines q) : m.unusedHead = none ↔ q.unused = [] := by
  rw [h.unused.head_eq, List.head?_eq_none_iff]

/-- What `allocate_buffer_space_front` leaves when there is an unused slot. -/
theorem spaceFront (h : m.Refines q) {b : ℕ} {rest : List ℕ} (hb : q.unused = b :: rest) :
    ∃ m₁, m.allocateBufferSpaceFront = (some b, m₁) ∧ LinkedFrom m₁.next m₁.usedHead (b :: q.used) ∧
      LinkedFrom m₁.next m₁.unusedHead rest ∧ m₁.data = m.data ∧ m₁.queueSize = m.queueSize ∧
      m₁.queueMaxSize = m.queueMaxSize := by
  have hhead : m.unusedHead = some b := by rw [h.unused.head_eq, hb, List.head?_cons]
  have hnodup := h.nodup
  rw [hb, List.nodup_append] at hnodup
  obtain ⟨-, hcons, hdisj⟩ := hnodup
  have hused : b ∉ q.used := fun hmem => hdisj b hmem b List.mem_cons_self rfl
  have hlist := h.unused
  rw [hb] at hlist
  refine ⟨{ m with
    unusedHead := m.next b
    usedHead := some b
    next := Function.update m.next b m.usedHead }, ?_, ?_, ?_, rfl, rfl, rfl⟩
  · simp only [allocateBufferSpaceFront, hhead, linkFirst]
  · exact h.used.linkFirst hused
  · exact hlist.2.update (List.nodup_cons.mp hcons).1 _

/-- What `allocate_buffer_space_back` leaves when there is an unused slot. -/
theorem spaceBack (h : m.Refines q) {b : ℕ} {rest : List ℕ} (hb : q.unused = b :: rest) :
    ∃ m₁, m.allocateBufferSpaceBack = some (some b, m₁) ∧
      LinkedFrom m₁.next m₁.usedHead (q.used ++ [b]) ∧
      LinkedFrom m₁.next m₁.unusedHead rest ∧ m₁.data = m.data ∧ m₁.queueSize = m.queueSize ∧
      m₁.queueMaxSize = m.queueMaxSize := by
  have hhead : m.unusedHead = some b := by rw [h.unused.head_eq, hb, List.head?_cons]
  have hnodup := h.nodup
  rw [hb, List.nodup_append] at hnodup
  obtain ⟨-, hcons, hdisj⟩ := hnodup
  have hused : b ∉ q.used := fun hmem => hdisj b hmem b List.mem_cons_self rfl
  have hlist := h.unused
  rw [hb] at hlist
  obtain ⟨head', next', hadd, hlinked, hoff⟩ := h.used.linkLast hused h.length_used_le
  refine ⟨{ m with unusedHead := m.next b, usedHead := head', next := next' }, ?_, hlinked, ?_,
    rfl, rfl, rfl⟩
  · simp only [allocateBufferSpaceBack, hhead, hadd, Option.map_some]
  refine hlist.2.congr fun j hj => hoff j fun hmem => ?_
  rcases List.mem_cons.mp hmem with rfl | hmem
  · exact (List.nodup_cons.mp hcons).1 hj
  · exact hdisj j hmem j (List.mem_cons_of_mem _ hj) rfl

/-- The fields that go with a used list that has become longer. -/
theorem grown (h : m.Refines q) {q' : QueueBuffer α n} {m' : LinkedQueue α}
    (hmax : m'.queueMaxSize = m.queueMaxSize) (hsize : m'.queueSize = m.queueSize + 1)
    (hlen : q'.used.length = q.used.length + 1)
    (hused : LinkedFrom m'.next m'.usedHead q'.used)
    (hunused : LinkedFrom m'.next m'.unusedHead q'.unused) (hdata : m'.data = q'.item) :
    m'.Refines q' where
  capacity := by rw [LinkedQueue.capacity, hmax]; exact h.capacity
  queueSize := by
    have hle := q'.size_le
    rw [QueueBuffer.size, hlen] at hle
    rw [hsize, hlen]
    exact h.toNat_add_one hle
  used := hused
  unused := hunused
  data := hdata

/-- The fields that go with a used list that has become shorter. -/
theorem shrunk (h : m.Refines q) {q' : QueueBuffer α n} {m' : LinkedQueue α}
    (hmax : m'.queueMaxSize = m.queueMaxSize) (hsize : m'.queueSize = m.queueSize - 1)
    (hlen : q.used.length = q'.used.length + 1)
    (hused : LinkedFrom m'.next m'.usedHead q'.used)
    (hunused : LinkedFrom m'.next m'.unusedHead q'.unused) (hdata : m'.data = q'.item) :
    m'.Refines q' where
  capacity := by rw [LinkedQueue.capacity, hmax]; exact h.capacity
  queueSize := by
    rw [hsize, h.toNat_sub_one (by omega)]
    omega
  used := hused
  unused := hunused
  data := hdata

/-- `queue_buffer_alloc_front`: either every slot is in use, or one is handed out. -/
theorem allocFront (h : m.Refines q) :
    (q.unused = [] ∧ m.allocFront = some (none, m)) ∨
      ∃ b q' m', q.allocFront = some (b, q') ∧ b ∈ q.unused ∧ q'.used = b :: q.used ∧
        q'.item = q.item ∧ m.allocFront = some (some b, m') ∧ m'.Refines q' := by
  cases hb : q.unused with
  | nil =>
    refine .inl ⟨rfl, ?_⟩
    rw [LinkedQueue.allocFront, allocateBufferSpaceFront, h.unusedHead_eq_none.mpr hb]
  | cons b rest =>
    obtain ⟨q', hq, hused, hunused, hitem⟩ := QueueBuffer.allocFront_of_cons hb
    obtain ⟨m₁, hm, hlist, hlist', hdata, hsize, hmax⟩ := h.spaceFront hb
    refine .inr ⟨b, q', { m₁ with queueSize := m₁.queueSize + 1 }, hq, List.mem_cons_self, hused,
      hitem, by rw [LinkedQueue.allocFront, hm], ?_⟩
    exact h.grown hmax (by rw [hsize]) (by rw [hused, List.length_cons]) (hused ▸ hlist)
      (hunused ▸ hlist') (by rw [hdata, h.data, hitem])

/-- `queue_buffer_alloc_back`: either every slot is in use, or one is handed out. -/
theorem allocBack (h : m.Refines q) :
    (q.unused = [] ∧ m.allocBack = some (none, m)) ∨
      ∃ b q' m', q.allocBack = some (b, q') ∧ b ∈ q.unused ∧ q'.used = q.used ++ [b] ∧
        q'.item = q.item ∧ m.allocBack = some (some b, m') ∧ m'.Refines q' := by
  cases hb : q.unused with
  | nil =>
    refine .inl ⟨rfl, ?_⟩
    rw [LinkedQueue.allocBack, allocateBufferSpaceBack, h.unusedHead_eq_none.mpr hb]
    rfl
  | cons b rest =>
    obtain ⟨q', hq, hused, hunused, hitem⟩ := QueueBuffer.allocBack_of_cons hb
    obtain ⟨m₁, hm, hlist, hlist', hdata, hsize, hmax⟩ := h.spaceBack hb
    refine .inr ⟨b, q', { m₁ with queueSize := m₁.queueSize + 1 }, hq, List.mem_cons_self, hused,
      hitem, by rw [LinkedQueue.allocBack, hm]; rfl, ?_⟩
    exact h.grown hmax (by rw [hsize]) (by rw [hused, List.length_append]; rfl) (hused ▸ hlist)
      (hunused ▸ hlist') (by rw [hdata, h.data, hitem])

/-! ### Writes and pushes -/

theorem write (h : m.Refines q) (i : ℕ) (x : α) : (m.write i x).Refines (q.set i x) where
  capacity := h.capacity
  queueSize := h.queueSize
  used := h.used
  unused := h.unused
  data := by
    change Function.update m.data i x = Function.update q.item i x
    rw [h.data]

/-- `queue_buffer_push_front`. -/
theorem pushFront (h : m.Refines q) (x : α) :
    (q.unused = [] ∧ m.pushFront x = some (none, m)) ∨
      ∃ b q' m', q.pushFront x = some q' ∧ b ∈ q.unused ∧ q'.used = b :: q.used ∧
        q'.item = Function.update q.item b x ∧ m.pushFront x = some (some b, m') ∧
        m'.Refines q' := by
  have halloc : m.pushFront x = m.allocFront.map fun r =>
      match r.1 with
      | none => r
      | some b => (some b, r.2.write b x) := by
    unfold LinkedQueue.pushFront LinkedQueue.allocFront
    split <;> rfl
  rw [halloc]
  rcases h.allocFront with ⟨hnil, hm⟩ | ⟨b, q', m', hq, hb, hused, hitem, hm, href⟩
  · exact .inl ⟨hnil, by rw [hm]; rfl⟩
  · refine .inr ⟨b, q'.set b x, m'.write b x, ?_, hb, hused, ?_, by rw [hm]; rfl, href.write b x⟩
    · rw [QueueBuffer.pushFront_eq, hq, Option.map_some]
    · rw [← hitem]
      rfl

/-- `queue_buffer_push_back`. -/
theorem pushBack (h : m.Refines q) (x : α) :
    (q.unused = [] ∧ m.pushBack x = some (none, m)) ∨
      ∃ b q' m', q.pushBack x = some q' ∧ b ∈ q.unused ∧ q'.used = q.used ++ [b] ∧
        q'.item = Function.update q.item b x ∧ m.pushBack x = some (some b, m') ∧
        m'.Refines q' := by
  have halloc : m.pushBack x = m.allocBack.map fun r =>
      match r.1 with
      | none => r
      | some b => (some b, r.2.write b x) := by
    unfold LinkedQueue.pushBack LinkedQueue.allocBack
    rw [Option.map_map]
    congr 1
    funext r
    obtain ⟨_ | b, m⟩ := r <;> rfl
  rw [halloc]
  rcases h.allocBack with ⟨hnil, hm⟩ | ⟨b, q', m', hq, hb, hused, hitem, hm, href⟩
  · exact .inl ⟨hnil, by rw [hm]; rfl⟩
  · refine .inr ⟨b, q'.set b x, m'.write b x, ?_, hb, hused, ?_, by rw [hm]; rfl, href.write b x⟩
    · rw [QueueBuffer.pushBack_eq, hq, Option.map_some]
    · rw [← hitem]
      rfl

/-! ### Removal -/

/-- `queue_buffer_pop_front`. -/
theorem popFront (h : m.Refines q) {l : List ℕ} (hi : q.used = i :: l) :
    ∃ m', m.popFront = some (q.item i, m') ∧ m'.Refines q.popFront := by
  obtain ⟨hused, hunused, hitem⟩ := QueueBuffer.popFront_of_cons hi
  have hlist := h.used
  have hnodup := h.nodup
  rw [hi] at hlist hnodup
  have hil : i ∉ l ++ q.unused := (List.nodup_cons.mp hnodup).1
  rw [List.mem_append, not_or] at hil
  refine ⟨{ m with
    usedHead := m.next i
    unusedHead := some i
    next := Function.update m.next i m.unusedHead
    queueSize := m.queueSize - 1 }, ?_, ?_⟩
  · simp only [LinkedQueue.popFront, hlist.1, linkFirst, h.data]
  · refine h.shrunk rfl rfl (by rw [hi, hused]; rfl) ?_ ?_ (h.data.trans hitem.symm)
    · rw [hused]
      exact hlist.2.update hil.1 _
    · rw [hunused]
      exact h.unused.linkFirst hil.2

/-- `queue_buffer_pop_back`. -/
theorem popBack (h : m.Refines q) {l : List ℕ} (hi : q.used = l ++ [i]) :
    ∃ m', m.popBack = some (q.item i, m') ∧ m'.Refines q.popBack := by
  obtain ⟨hused, hunused, hitem⟩ := QueueBuffer.popBack_of_concat hi
  have hlist := h.used
  have hnodup := h.nodup
  have hlen := h.length_used_le
  rw [hi] at hlist hnodup hlen
  obtain ⟨k, hk⟩ := hlist.exists_head
  rw [List.length_append, List.length_singleton] at hlen
  have hfound : lastTwoFrom m.next m.capacity none k = some (l.getLast?, i) := by
    rw [lastTwoFrom_eq hlen (hk ▸ hlist), Option.or_none]
  have hiu : i ∉ q.unused := fun hmem =>
    (List.nodup_append.mp hnodup).2.2 i (by simp) i hmem rfl
  have hfree := h.unused.linkFirst hiu
  -- with one item the list gets empty; with more, the last but one becomes the last
  rcases List.eq_nil_or_concat' l with rfl | ⟨l, p, rfl⟩
  · refine ⟨{ m with
      unusedHead := some i
      next := Function.update m.next i m.unusedHead
      usedHead := none
      queueSize := m.queueSize - 1 }, ?_, ?_⟩
    · simp only [LinkedQueue.popBack, hk, hfound, List.getLast?_nil, Option.map_some, linkFirst,
        h.data]
    · refine h.shrunk rfl rfl (by rw [hi, hused]; rfl) ?_ ?_ (h.data.trans hitem.symm)
      · rw [hused]
        rfl
      · rw [hunused]
        exact hfree
  · obtain ⟨t, hseg, hlast⟩ := Segment.append.mp hlist
    have hndl : (l ++ [p] ++ [i]).Nodup := (List.nodup_append.mp hnodup).1
    have hil : i ∉ l ++ [p] := fun hmem => (List.nodup_append.mp hndl).2.2 i hmem i (by simp) rfl
    have hpl : p ∉ l := fun hmem =>
      (List.nodup_append.mp (List.nodup_append.mp hndl).1).2.2 p hmem p (by simp) rfl
    have hpu : p ∉ i :: q.unused := by
      rintro hmem
      rcases List.mem_cons.mp hmem with rfl | hmem
      · exact hil (by simp)
      · exact (List.nodup_append.mp hnodup).2.2 p (by simp) p hmem rfl
    refine ⟨{ m with
      unusedHead := some i
      next := Function.update (Function.update m.next i m.unusedHead) p none
      queueSize := m.queueSize - 1 }, ?_, ?_⟩
    · simp only [LinkedQueue.popBack, hk, hfound, List.getLast?_concat, Option.map_some, linkFirst,
        h.data]
    · refine h.shrunk rfl rfl (by rw [hi, hused]; simp) ?_ ?_ (h.data.trans hitem.symm)
      · rw [hused]
        exact (hseg.update hil _).setLast hpl _
      · rw [hunused]
        exact hfree.update hpu _

/-- `queue_buffer_free` of an item in use. -/
theorem free (h : m.Refines q) {l₁ l₂ : List ℕ} (hi : q.used = l₁ ++ i :: l₂) :
    ∃ m', m.free i = some m' ∧ m'.Refines (q.free i) := by
  obtain ⟨hused, hunused⟩ := QueueBuffer.free_of_append hi
  have hlist := h.used
  have hnodup := h.nodup
  have hlen := h.length_used_le
  rw [hi] at hlist hnodup hlen
  have hdisj := (List.nodup_append.mp hnodup).2.2
  have hnd := (List.nodup_append.mp hnodup).1
  have hi₁ : i ∉ l₁ := fun hmem => (List.nodup_append.mp hnd).2.2 i hmem i (by simp) rfl
  have hi₂ : i ∉ l₂ := (List.nodup_cons.mp (List.nodup_append.mp hnd).2.1).1
  have hiu : i ∉ q.unused := fun hmem => hdisj i (by simp) i hmem rfl
  have hfound : findTwoFrom m.next (· == i) m.capacity none m.usedHead =
      some (some (l₁.getLast?, i)) := by
    have hno : ∀ j ∈ l₁, (j == i) = false := fun j hj => by
      rw [beq_eq_false_iff_ne]
      exact ne_of_mem_of_not_mem hj hi₁
    have hfuel : l₁.length < m.capacity := by
      simp only [List.length_append, List.length_cons] at hlen
      omega
    rw [findTwoFrom_eq hfuel hno (beq_self_eq_true i) hlist, Option.or_none]
  obtain ⟨hlinked, hoff⟩ := hlist.unlink
  refine ⟨{ m with
    usedHead := (unlink m.usedHead l₁.getLast? i m.next).1
    unusedHead := some i
    next := Function.update (unlink m.usedHead l₁.getLast? i m.next).2 i m.unusedHead
    queueSize := m.queueSize - 1 }, ?_, ?_⟩
  · simp only [LinkedQueue.free, hfound, Option.bind_some, Option.map_some, linkFirst]
  · refine h.shrunk rfl rfl ?_ ?_ ?_ (h.data.trans (QueueBuffer.free_item q i).symm)
    · rw [hi, hused]
      simp only [List.length_append, List.length_cons]
      omega
    · rw [hused]
      exact hlinked.update (by simp [hi₁, hi₂]) _
    · rw [hunused]
      refine LinkedFrom.linkFirst (h.unused.congr fun j hj => hoff j fun hmem => ?_) hiu
      exact hdisj j (by simp [hmem]) j hj rfl

/-- `queue_buffer_clear`. -/
theorem clear (h : m.Refines q) : ∃ m', m.clear = some m' ∧ m'.Refines q.clear := by
  have hrefines : ∀ m' : LinkedQueue α, m'.queueMaxSize = m.queueMaxSize → m'.queueSize = 0 →
      m'.usedHead = none → LinkedFrom m'.next m'.unusedHead (q.unused ++ q.used) →
      m'.data = m.data → m'.Refines q.clear := fun m' hmax hsize hhead hlist hdata =>
    { capacity := by rw [LinkedQueue.capacity, hmax]; exact h.capacity
      queueSize := by rw [hsize]; rfl
      used := hhead
      unused := hlist
      data := hdata.trans h.data }
  have hunused := h.unused
  have hnodup := h.nodup
  cases hhead : m.usedHead with
  | none =>
    have hnil : q.used = [] := by
      rw [← List.head?_eq_none_iff, ← h.used.head_eq, hhead]
    refine ⟨{ m with queueSize := 0, iterator := none }, ?_, hrefines _ rfl rfl hhead ?_ rfl⟩
    · simp only [LinkedQueue.clear, hhead]
    · rw [hnil, List.append_nil]
      exact h.unused
  | some k =>
    rcases List.eq_nil_or_concat' q.unused with hnil | ⟨l, j, hl⟩
    · have hun : m.unusedHead = none := h.unusedHead_eq_none.mpr hnil
      refine ⟨{ m with queueSize := 0, unusedHead := m.usedHead, usedHead := none, iterator := none },
        ?_, hrefines _ rfl rfl rfl ?_ rfl⟩
      · simp only [LinkedQueue.clear, hhead, hun]
      · rw [hnil, List.nil_append]
        exact h.used
    · rw [hl] at hunused hnodup
      obtain ⟨s, hs⟩ := hunused.exists_head
      have hlen := h.length_unused_le
      rw [hl, List.length_append, List.length_singleton] at hlen
      have hfound : lastFrom m.next m.capacity s = some j := lastFrom_eq hlen (hs ▸ hunused)
      have hndl := (List.nodup_append.mp hnodup).2.1
      have hjl : j ∉ l := fun hmem => (List.nodup_append.mp hndl).2.2 j hmem j (by simp) rfl
      have hju : j ∉ q.used := fun hmem =>
        (List.nodup_append.mp hnodup).2.2 j hmem j (by simp) rfl
      refine ⟨{ m with
        queueSize := 0, next := Function.update m.next j m.usedHead, usedHead := none
        iterator := none }, ?_, hrefines _ rfl rfl rfl ?_ rfl⟩
      · simp only [LinkedQueue.clear, hhead, hs, hfound, Option.map_some]
      · rw [hl]
        exact Segment.append.mpr ⟨m.usedHead, hunused.setLast hjl _, h.used.update hju _⟩

/-! ### Looking through the items -/

/-- `queue_buffer_find`. -/
theorem find (h : m.Refines q) (comparer : α → Bool) : m.find comparer = some (q.find comparer) := by
  rw [LinkedQueue.find, findFrom_eq h.length_used_le h.used, h.data]
  rfl

/-- The entries after an item has been put last. -/
theorem entries_pushBack {q' : QueueBuffer α n} {b : ℕ} (hb : b ∈ q.unused)
    (hused : q'.used = q.used ++ [b]) (hitem : q'.item = Function.update q.item b x) :
    q'.entries = q.entries ++ [(b, x)] := by
  have hsame : ∀ i ∈ q.used, q'.item i = q.item i := fun i hi => by
    rw [hitem, Function.update_of_ne (ne_of_mem_of_not_mem hi (q.disjoint hb))]
  rw [QueueBuffer.entries, hused, List.map_append, QueueBuffer.map_entries_congr hsame,
    List.map_singleton, hitem, Function.update_self]
  rfl

/-- The loop of `queue_buffer_copy` puts the items of the source last, as many as there is
room for. -/
theorem copyFrom {source : LinkedQueue α} : ∀ {l : List ℕ} {fuel : ℕ} {head : Option ℕ}
    {m : LinkedQueue α} {q : QueueBuffer α n}, l.length ≤ fuel →
    LinkedFrom source.next head l → m.Refines q →
    ∃ m' new, ∃ q' : QueueBuffer α n, copyFrom source fuel head m = some m' ∧ m'.Refines q' ∧
      m'.iterator = m.iterator ∧ q'.entries = q.entries ++ new ∧
      new.map Prod.snd = (l.map source.data).take (n - q.used.length) := by
  intro l
  induction l with
  | nil =>
    intro fuel head m q _ hlist h
    rw [segment_nil.mp hlist]
    refine ⟨m, [], q, ?_, h, rfl, (List.append_nil _).symm, by simp⟩
    cases fuel <;> rfl
  | cons i l ih =>
    intro fuel head m q hfuel hlist h
    obtain ⟨fuel, rfl⟩ : ∃ k, fuel = k + 1 := ⟨fuel - 1, by simp at hfuel; omega⟩
    rw [hlist.1, LinkedQueue.copyFrom]
    have hlen := q.length_used_add_length_unused
    rcases h.pushBack (source.data i) with
      ⟨hnil, hm⟩ | ⟨b, q₁, m₁, -, hb, hused, hitem, hm, href⟩
    · -- no room for this item, and none for the ones behind it
      obtain ⟨m', new, q', hrun, href, hiter, hentries, hnew⟩ :=
        ih (by simpa using hfuel) hlist.2 h
      rw [hnil, List.length_nil] at hlen
      rw [show n - q.used.length = 0 by omega, List.take_zero] at hnew ⊢
      exact ⟨m', new, q', by rw [hm]; exact hrun, href, hiter, hentries, hnew⟩
    · obtain ⟨m', new, q', hrun, href', hiter, hentries, hnew⟩ :=
        ih (by simpa using hfuel) hlist.2 href
      have hpos := List.length_pos_of_mem hb
      refine ⟨m', (b, source.data i) :: new, q', by rw [hm]; exact hrun, href',
        hiter.trans (iterator_pushBack hm), ?_, ?_⟩
      · rw [hentries, entries_pushBack hb hused hitem, List.append_assoc, List.singleton_append]
      · rw [hused, List.length_append, List.length_singleton] at hnew
        rw [List.map_cons, List.map_cons, hnew,
          show n - q.used.length = n - (q.used.length + 1) + 1 by omega, List.take_succ_cons]

end Refines

/-- `queue_buffer_init` makes an empty buffer of any memory. -/
theorem refines_init (numItems : UInt8) (m : LinkedQueue α) : ∃ m', m.init numItems = some m' ∧
    m'.Refines (QueueBuffer.init numItems.toNat m.data) ∧ m'.iterator = none := by
  have hloop : ∀ k ≤ numItems.toNat, ∃ r : Option ℕ × (ℕ → Option ℕ),
      (List.range k).foldlM (fun (r : Option ℕ × (ℕ → Option ℕ)) i =>
        linkLast numItems.toNat r.1 i r.2) (none, m.next) = some r ∧
        LinkedFrom r.2 r.1 (List.range k) := by
    intro k
    induction k with
    | zero => exact fun _ => ⟨(none, m.next), rfl, rfl⟩
    | succ k ih =>
      intro hk
      obtain ⟨r, hr, hlist⟩ := ih (by omega)
      have hfuel : (List.range k).length ≤ numItems.toNat := by rw [List.length_range]; omega
      obtain ⟨head', next', hadd, hlist', -⟩ := hlist.linkLast (i := k) (by simp) hfuel
      refine ⟨(head', next'), ?_, ?_⟩
      · rw [List.range_succ, List.foldlM_append, hr]
        simp only [Option.bind_eq_bind, Option.bind_some, List.foldlM_cons, List.foldlM_nil, hadd]
        rfl
      · rw [List.range_succ]
        exact hlist'
  obtain ⟨r, hr, hlist⟩ := hloop numItems.toNat le_rfl
  refine ⟨_, by rw [init, hr, Option.map_some], ?_, rfl⟩
  exact ⟨rfl, rfl, rfl, hlist, rfl⟩

end Lists

end LinkedQueue

end EmergencyNet
