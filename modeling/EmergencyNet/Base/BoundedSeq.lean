import EmergencyNet.Base.LinkedQueue
import EmergencyNet.Lib.Machine

/-!
# What a queue buffer is for

A queue buffer is a sequence of at most as many items as it has slots, each with a handle
that stays the same as long as the item is in the sequence.  Here that sequence and what
each function does to it are stated on their own, and the functions of
`EmergencyNet.Base.LinkedQueue` are shown to do just that, in every order of calls.

## Main definitions

* `BoundedSeq α`, `BoundedSeq.Step` — the sequence and what the functions do to it.
* `QueueOp`, `QueueOp.run` — the functions of the queue buffer.
* `queueMachine` — all sequences of calls.
* `LinkedQueue.Holds` — the memory holds a sequence.

## Main results

* `LinkedQueue.Refines.step` — every function takes its step on the sequence.
* `holds_of_reachable` — **in every state reached the memory holds a sequence, and every
  function that may be called takes its step on it.**
-/

namespace EmergencyNet

variable {α : Type*}

/-! ### The sequence -/

/-- A sequence of items with their handles, front first. -/
structure BoundedSeq (α : Type*) where
  /-- The number of items there is room for. -/
  cap : ℕ
  items : List (ℕ × α)
  /-- The handle `queue_buffer_begin` or `queue_buffer_next` has returned last. -/
  cursor : Option ℕ

namespace BoundedSeq

/-- The handles of the items, front first. -/
def handles (s : BoundedSeq α) : List ℕ := s.items.map Prod.fst

end BoundedSeq

/-! ### The functions -/

/-- A call of a function of the queue buffer, or a write through the address of an item. -/
inductive QueueOp (α : Type*)
  | init (numItems : UInt8)
  | allocFront
  | allocBack
  | pushFront (x : α)
  | pushBack (x : α)
  | popFront
  | popBack
  | free (item : ℕ)
  | find (comparer : α → Bool)
  | begin
  | next
  | copy (source : LinkedQueue α)
  | clear
  | write (item : ℕ) (x : α)

/-- What a call returns. -/
inductive QueueResult (α : Type*)
  | handle (h : Option ℕ)
  /-- The contents copied to `item_out`. -/
  | item (x : α)
  | unit

/-- What a call does. -/
def QueueOp.run : QueueOp α → LinkedQueue α → Option (QueueResult α × LinkedQueue α)
  | .init numItems, m => (m.init numItems).map (.unit, ·)
  | .allocFront, m => m.allocFront.map fun r => (.handle r.1, r.2)
  | .allocBack, m => m.allocBack.map fun r => (.handle r.1, r.2)
  | .pushFront x, m => (m.pushFront x).map fun r => (.handle r.1, r.2)
  | .pushBack x, m => (m.pushBack x).map fun r => (.handle r.1, r.2)
  | .popFront, m => m.popFront.map fun r => (.item r.1, r.2)
  | .popBack, m => m.popBack.map fun r => (.item r.1, r.2)
  | .free i, m => (m.free i).map (.unit, ·)
  | .find comparer, m => (m.find comparer).map (.handle ·, m)
  | .begin, m => some (.handle m.begin.1, m.begin.2)
  | .next, m => m.getNext.map fun r => (.handle r.1, r.2)
  | .copy source, m => (m.copy source).map (.unit, ·)
  | .clear, m => m.clear.map (.unit, ·)
  | .write i x, m => some (.unit, m.write i x)

namespace LinkedQueue

/-- The memory holds the lists of some queue buffer. -/
def WellFormed (m : LinkedQueue α) : Prop := ∃ n, ∃ q : QueueBuffer α n, m.Refines q

/-- The memory holds the sequence `s`: two lists that end and that share the slots out
between them, the used one with the items of `s`. -/
def Holds (m : LinkedQueue α) (s : BoundedSeq α) : Prop := ∃ used unused : List ℕ,
  LinkedFrom m.next m.usedHead used ∧ LinkedFrom m.next m.unusedHead unused ∧
    (used ++ unused).Perm (List.range s.cap) ∧ m.capacity = s.cap ∧
    m.size.toNat = used.length ∧ s.items = used.map (fun i => (i, m.data i)) ∧
    s.cursor = m.iterator

/-- The calls that may be made: nothing is popped off an empty buffer, only items in the
buffer are freed or written to, the iterator is not advanced past the end, and what is
copied is a queue buffer. -/
def Allows (m : LinkedQueue α) : QueueOp α → Prop
  | .popFront | .popBack => m.usedHead ≠ none
  | .free i | .write i _ => ∃ l, LinkedFrom m.next m.usedHead l ∧ i ∈ l
  | .next => m.iterator ≠ none
  | .copy source => source.WellFormed
  | _ => True

/-- The handles `queue_buffer_next` returns until it returns `NULL`, after `i`. -/
def visitFrom : ℕ → Option ℕ → LinkedQueue α → Option (List ℕ)
  | _, none, _ => some []
  | 0, some _, _ => none
  | fuel + 1, some i, m =>
    m.getNext.bind fun r => (visitFrom fuel r.1 r.2).map (i :: ·)

/-- The handles a loop with `queue_buffer_begin` and `queue_buffer_next` visits. -/
def visit (m : LinkedQueue α) : Option (List ℕ) := visitFrom m.capacity m.begin.1 m.begin.2

end LinkedQueue

/-- A buffer that is initialised and then used in any way its interface allows. -/
def queueMachine (α : Type*) : Machine (LinkedQueue α) (QueueOp α) where
  init m := ∃ (numItems : UInt8) (m₀ : LinkedQueue α), m₀.init numItems = some m
  step op m m' := m.Allows op ∧ ∃ r, op.run m = some (r, m')

/-! ### What the functions do to the sequence -/

namespace BoundedSeq

/-- `s.Step op r s'`: the call `op` takes the sequence `s` to `s'` and returns `r`. -/
inductive Step : BoundedSeq α → QueueOp α → QueueResult α → BoundedSeq α → Prop
  /-- The sequence is empty, and there is room for as many items as there are slots. -/
  | init {s : BoundedSeq α} (numItems : UInt8) :
      Step s (.init numItems) .unit ⟨numItems.toNat, [], none⟩
  /-- A new item comes first, with whatever contents its slot has. -/
  | allocFront {cap : ℕ} {l : List (ℕ × α)} {c : Option ℕ} {b : ℕ} (x : α)
      (hroom : l.length < cap) (hfresh : b ∉ l.map Prod.fst) :
      Step ⟨cap, l, c⟩ .allocFront (.handle (some b)) ⟨cap, (b, x) :: l, c⟩
  | allocFrontFull {s : BoundedSeq α} (hfull : s.items.length = s.cap) :
      Step s .allocFront (.handle none) s
  /-- A new item comes last, with whatever contents its slot has. -/
  | allocBack {cap : ℕ} {l : List (ℕ × α)} {c : Option ℕ} {b : ℕ} (x : α)
      (hroom : l.length < cap) (hfresh : b ∉ l.map Prod.fst) :
      Step ⟨cap, l, c⟩ .allocBack (.handle (some b)) ⟨cap, l ++ [(b, x)], c⟩
  | allocBackFull {s : BoundedSeq α} (hfull : s.items.length = s.cap) :
      Step s .allocBack (.handle none) s
  | pushFront {cap : ℕ} {l : List (ℕ × α)} {c : Option ℕ} {b : ℕ} {x : α}
      (hroom : l.length < cap) (hfresh : b ∉ l.map Prod.fst) :
      Step ⟨cap, l, c⟩ (.pushFront x) (.handle (some b)) ⟨cap, (b, x) :: l, c⟩
  | pushFrontFull {s : BoundedSeq α} {x : α} (hfull : s.items.length = s.cap) :
      Step s (.pushFront x) (.handle none) s
  | pushBack {cap : ℕ} {l : List (ℕ × α)} {c : Option ℕ} {b : ℕ} {x : α}
      (hroom : l.length < cap) (hfresh : b ∉ l.map Prod.fst) :
      Step ⟨cap, l, c⟩ (.pushBack x) (.handle (some b)) ⟨cap, l ++ [(b, x)], c⟩
  | pushBackFull {s : BoundedSeq α} {x : α} (hfull : s.items.length = s.cap) :
      Step s (.pushBack x) (.handle none) s
  | popFront {cap : ℕ} {l : List (ℕ × α)} {c : Option ℕ} {b : ℕ} {x : α} :
      Step ⟨cap, (b, x) :: l, c⟩ .popFront (.item x) ⟨cap, l, c⟩
  | popBack {cap : ℕ} {l : List (ℕ × α)} {c : Option ℕ} {b : ℕ} {x : α} :
      Step ⟨cap, l ++ [(b, x)], c⟩ .popBack (.item x) ⟨cap, l, c⟩
  | free {cap : ℕ} {l₁ l₂ : List (ℕ × α)} {c : Option ℕ} {b : ℕ} {x : α} :
      Step ⟨cap, l₁ ++ (b, x) :: l₂, c⟩ (.free b) .unit ⟨cap, l₁ ++ l₂, c⟩
  /-- The first item the comparer accepts. -/
  | find {s : BoundedSeq α} (comparer : α → Bool) :
      Step s (.find comparer)
        (.handle ((s.items.find? fun e => comparer e.2).map Prod.fst)) s
  | begin {cap : ℕ} {l : List (ℕ × α)} {c : Option ℕ} :
      Step ⟨cap, l, c⟩ .begin (.handle (l.head?.map Prod.fst)) ⟨cap, l, l.head?.map Prod.fst⟩
  /-- The item behind the one returned last. -/
  | next {cap : ℕ} {l₁ l₂ : List (ℕ × α)} {b : ℕ} {x : α} :
      Step ⟨cap, l₁ ++ (b, x) :: l₂, some b⟩ .next (.handle (l₂.head?.map Prod.fst))
        ⟨cap, l₁ ++ (b, x) :: l₂, l₂.head?.map Prod.fst⟩
  /-- The item returned last has been removed since: anything may be returned. -/
  | nextStale {cap : ℕ} {l : List (ℕ × α)} {b : ℕ} {r : Option ℕ} (hgone : b ∉ l.map Prod.fst) :
      Step ⟨cap, l, some b⟩ .next (.handle r) ⟨cap, l, r⟩
  /-- The items of the source come last, as many of them as there is room for. -/
  | copy {cap n : ℕ} {l new : List (ℕ × α)} {c : Option ℕ} {source : LinkedQueue α}
      {q : QueueBuffer α n} (hsource : source.Refines q)
      (hnew : new.map Prod.snd = q.toList.take (cap - l.length))
      (hfresh : ((l ++ new).map Prod.fst).Nodup) :
      Step ⟨cap, l, c⟩ (.copy source) .unit ⟨cap, l ++ new, c⟩
  | clear {cap : ℕ} {l : List (ℕ × α)} {c : Option ℕ} :
      Step ⟨cap, l, c⟩ .clear .unit ⟨cap, [], none⟩
  | write {cap : ℕ} {l₁ l₂ : List (ℕ × α)} {c : Option ℕ} {b : ℕ} {x y : α} :
      Step ⟨cap, l₁ ++ (b, x) :: l₂, c⟩ (.write b y) .unit ⟨cap, l₁ ++ (b, y) :: l₂, c⟩

end BoundedSeq

/-! ### The memory and the sequence -/

/-- The sequence a queue buffer holds. -/
def QueueBuffer.seq {n : ℕ} (q : QueueBuffer α n) (cursor : Option ℕ) : BoundedSeq α :=
  ⟨n, q.entries, cursor⟩

namespace LinkedQueue

section Refined

variable {n : ℕ} {m : LinkedQueue α} {q : QueueBuffer α n} {i : ℕ}

namespace Refines

theorem holds (h : m.Refines q) : m.Holds (q.seq m.iterator) :=
  ⟨q.used, q.unused, h.used, h.unused, q.slots, h.capacity, h.queueSize, by
    rw [h.data]
    rfl, rfl⟩

/-- The used list is the one the links lead through. -/
theorem mem_used (h : m.Refines q) (hi : ∃ l, LinkedFrom m.next m.usedHead l ∧ i ∈ l) :
    i ∈ q.used := by
  obtain ⟨l, hl, hi⟩ := hi
  exact hl.unique h.used ▸ hi

theorem full (hnil : q.unused = []) (c : Option ℕ) :
    (q.seq c).items.length = (q.seq c).cap := by
  have hlen := q.length_used_add_length_unused
  rw [hnil, List.length_nil, Nat.add_zero] at hlen
  exact q.length_entries.trans hlen

theorem room {b : ℕ} (hb : b ∈ q.unused) : q.entries.length < n := by
  have hlen := q.length_used_add_length_unused
  have hpos := List.length_pos_of_mem hb
  rw [q.length_entries]
  omega

theorem fresh {b : ℕ} (hb : b ∈ q.unused) : b ∉ q.entries.map Prod.fst := by
  rw [q.map_fst_entries]
  exact q.disjoint hb

/-- The entries after an item has been put first. -/
theorem entries_pushFront {q' : QueueBuffer α n} {b : ℕ}
    (hused : q'.used = b :: q.used) (hitem : ∀ j ∈ q.used, q'.item j = q.item j) :
    q'.entries = (b, q'.item b) :: q.entries := by
  rw [QueueBuffer.entries, hused, List.map_cons, QueueBuffer.map_entries_congr hitem]
  rfl

/-- An item written to keeps its place. -/
theorem entries_set {l₁ l₂ : List ℕ} (hi : q.used = l₁ ++ i :: l₂) (x : α) :
    (q.set i x).entries = l₁.map (fun j => (j, q.item j)) ++ (i, x) ::
      l₂.map fun j => (j, q.item j) := by
  have hnodup := q.used_nodup
  rw [hi, List.nodup_append] at hnodup
  have h₁ : ∀ j ∈ l₁, (q.set i x).item j = q.item j := fun j hj =>
    QueueBuffer.set_item_of_ne q x (hnodup.2.2 j hj i List.mem_cons_self)
  have h₂ : ∀ j ∈ l₂, (q.set i x).item j = q.item j := fun j hj =>
    QueueBuffer.set_item_of_ne q x (ne_of_mem_of_not_mem hj (List.nodup_cons.mp hnodup.2.1).1)
  rw [QueueBuffer.entries, QueueBuffer.set_used, hi, List.map_append, List.map_cons,
    QueueBuffer.map_entries_congr h₁, QueueBuffer.map_entries_congr h₂, QueueBuffer.set_item_self]

theorem entries_split {l₁ l₂ : List ℕ} (hi : q.used = l₁ ++ i :: l₂) :
    q.entries = l₁.map (fun j => (j, q.item j)) ++ (i, q.item i) ::
      l₂.map fun j => (j, q.item j) := by
  rw [QueueBuffer.entries, hi, List.map_append, List.map_cons]

/-- The cell behind `i` is the one its link leads to. -/
theorem next_eq (h : m.Refines q) {l₁ l₂ : List ℕ} (hi : q.used = l₁ ++ i :: l₂) :
    m.next i = l₂.head? := by
  have hlist := h.used
  rw [hi] at hlist
  obtain ⟨t, -, ht⟩ := Segment.append.mp hlist
  exact Segment.head_eq ht.2

/-- **Every function that may be called takes its step on the sequence.** -/
theorem step (h : m.Refines q) {op : QueueOp α} (hop : m.Allows op) :
    ∃ r m' n', ∃ q' : QueueBuffer α n', op.run m = some (r, m') ∧ m'.Refines q' ∧
      (q.seq m.iterator).Step op r (q'.seq m'.iterator) := by
  cases op with
  | init numItems =>
    obtain ⟨m', hrun, href, hiter⟩ := refines_init numItems m
    refine ⟨.unit, m', _, _, by rw [QueueOp.run, hrun]; rfl, href, ?_⟩
    rw [hiter]
    exact .init numItems
  | allocFront =>
    -- the new item keeps what was in its cell
    rcases h.allocFront with ⟨hnil, hm⟩ | ⟨b, q', m', -, hb, hused, hitem, hm, href⟩
    · exact ⟨_, m, n, q, by rw [QueueOp.run, hm]; rfl, h, .allocFrontFull (full hnil _)⟩
    · refine ⟨_, m', n, q', by rw [QueueOp.run, hm]; rfl, href, ?_⟩
      rw [iterator_allocFront hm, QueueBuffer.seq, QueueBuffer.seq,
        entries_pushFront hused fun j _ => by rw [hitem]]
      exact .allocFront _ (room hb) (fresh hb)
  | allocBack =>
    rcases h.allocBack with ⟨hnil, hm⟩ | ⟨b, q', m', -, hb, hused, hitem, hm, href⟩
    · exact ⟨_, m, n, q, by rw [QueueOp.run, hm]; rfl, h, .allocBackFull (full hnil _)⟩
    · refine ⟨_, m', n, q', by rw [QueueOp.run, hm]; rfl, href, ?_⟩
      rw [iterator_allocBack hm, QueueBuffer.seq, QueueBuffer.seq,
        entries_pushBack (x := q.item b) hb hused (by rw [hitem, Function.update_eq_self])]
      exact .allocBack _ (room hb) (fresh hb)
  | pushFront x =>
    rcases h.pushFront x with ⟨hnil, hm⟩ | ⟨b, q', m', -, hb, hused, hitem, hm, href⟩
    · exact ⟨_, m, n, q, by rw [QueueOp.run, hm]; rfl, h, .pushFrontFull (full hnil _)⟩
    · refine ⟨_, m', n, q', by rw [QueueOp.run, hm]; rfl, href, ?_⟩
      -- only the cell of the new item is written
      have hsame : ∀ j ∈ q.used, q'.item j = q.item j := fun j hj => by
        rw [hitem, Function.update_of_ne (ne_of_mem_of_not_mem hj (q.disjoint hb))]
      rw [iterator_pushFront hm, QueueBuffer.seq, QueueBuffer.seq,
        entries_pushFront hused hsame, hitem, Function.update_self]
      exact .pushFront (room hb) (fresh hb)
  | pushBack x =>
    rcases h.pushBack x with ⟨hnil, hm⟩ | ⟨b, q', m', -, hb, hused, hitem, hm, href⟩
    · exact ⟨_, m, n, q, by rw [QueueOp.run, hm]; rfl, h, .pushBackFull (full hnil _)⟩
    · refine ⟨_, m', n, q', by rw [QueueOp.run, hm]; rfl, href, ?_⟩
      rw [iterator_pushBack hm, QueueBuffer.seq, QueueBuffer.seq, entries_pushBack hb hused hitem]
      exact .pushBack (room hb) (fresh hb)
  | popFront =>
    obtain ⟨i, l, hi⟩ : ∃ i l, q.used = i :: l :=
      List.exists_cons_of_ne_nil fun hnil => hop (by rw [h.used.head_eq, hnil, List.head?_nil])
    obtain ⟨m', hm, href⟩ := h.popFront hi
    obtain ⟨hused, -, hitem⟩ := QueueBuffer.popFront_of_cons hi
    refine ⟨_, m', n, _, by rw [QueueOp.run, hm]; rfl, href, ?_⟩
    rw [iterator_popFront hm, QueueBuffer.seq, QueueBuffer.seq, QueueBuffer.entries, hi,
      QueueBuffer.entries, hused, hitem]
    exact .popFront
  | popBack =>
    obtain ⟨l, i, hi⟩ : ∃ l i, q.used = l ++ [i] := by
      rcases List.eq_nil_or_concat' q.used with hnil | ⟨l, i, hi⟩
      · exact absurd (by rw [h.used.head_eq, hnil, List.head?_nil]) hop
      · exact ⟨l, i, hi⟩
    obtain ⟨m', hm, href⟩ := h.popBack hi
    obtain ⟨hused, -, hitem⟩ := QueueBuffer.popBack_of_concat hi
    refine ⟨_, m', n, _, by rw [QueueOp.run, hm]; rfl, href, ?_⟩
    rw [iterator_popBack hm, QueueBuffer.seq, QueueBuffer.seq, QueueBuffer.entries, hi,
      QueueBuffer.entries, hused, hitem, List.map_append, List.map_singleton]
    exact .popBack
  | free i =>
    obtain ⟨l₁, l₂, hi⟩ := List.append_of_mem (h.mem_used hop)
    obtain ⟨m', hm, href⟩ := h.free hi
    obtain ⟨hused, -⟩ := QueueBuffer.free_of_append hi
    refine ⟨_, m', n, _, by rw [QueueOp.run, hm]; rfl, href, ?_⟩
    rw [iterator_free hm, QueueBuffer.seq, QueueBuffer.seq, entries_split hi,
      QueueBuffer.entries, hused, QueueBuffer.free_item, List.map_append]
    exact .free
  | find comparer =>
    have hfind : q.find comparer =
        (q.entries.find? fun e => comparer e.2).map Prod.fst := by
      rw [QueueBuffer.entries, List.find?_map, Option.map_map]
      exact (congrFun Option.map_id _).symm
    refine ⟨_, m, n, q, by rw [QueueOp.run, h.find]; rfl, h, ?_⟩
    rw [hfind]
    exact .find comparer
  | begin =>
    -- the cursor starts at the handle of the first item
    have hhead : m.usedHead = q.entries.head?.map Prod.fst := by
      rw [h.used.head_eq, ← List.head?_map, q.map_fst_entries]
    refine ⟨_, _, n, q, rfl, ⟨h.capacity, h.queueSize, h.used, h.unused, h.data⟩, ?_⟩
    change BoundedSeq.Step _ _ (.handle m.usedHead) (q.seq m.usedHead)
    rw [hhead]
    exact .begin
  | next =>
    obtain ⟨b, hb⟩ := Option.ne_none_iff_exists'.mp hop
    have hrun : m.getNext = some (m.next b, { m with iterator := m.next b }) := by
      rw [getNext, hb]
      rfl
    refine ⟨_, { m with iterator := m.next b }, n, q, by rw [QueueOp.run, hrun]; rfl,
      ⟨h.capacity, h.queueSize, h.used, h.unused, h.data⟩, ?_⟩
    rw [hb]
    -- the cursor may be at a cell that has been freed since; then it moves anywhere
    by_cases hmem : b ∈ q.used
    · obtain ⟨l₁, l₂, hi⟩ := List.append_of_mem hmem
      have hnext : m.next b = (l₂.map fun j => (j, q.item j)).head?.map Prod.fst := by
        rw [h.next_eq hi, List.head?_map, Option.map_map]
        exact (congrFun Option.map_id _).symm
      simp only [QueueBuffer.seq, entries_split hi]
      rw [hnext]
      exact .next
    · exact .nextStale (by rw [q.map_fst_entries]; exact hmem)
  | copy source =>
    -- the source is a buffer of its own, of any capacity
    obtain ⟨k, p, hsource⟩ := hop
    obtain ⟨m', new, q', hm, href, hiter, hentries, hnew⟩ :=
      h.copyFrom hsource.length_used_le hsource.used
    refine ⟨_, m', n, q', by rw [QueueOp.run, LinkedQueue.copy, hm]; rfl, href, ?_⟩
    rw [hiter, QueueBuffer.seq, QueueBuffer.seq, hentries]
    refine .copy hsource ?_ ?_
    · rw [hnew, hsource.data, q.length_entries]
      rfl
    · rw [← hentries, q'.map_fst_entries]
      exact q'.used_nodup
  | clear =>
    obtain ⟨m', hm, href⟩ := h.clear
    refine ⟨_, m', n, _, by rw [QueueOp.run, hm]; rfl, href, ?_⟩
    rw [iterator_clear hm]
    exact .clear
  | write i x =>
    obtain ⟨l₁, l₂, hi⟩ := List.append_of_mem (h.mem_used hop)
    refine ⟨_, _, n, _, rfl, h.write i x, ?_⟩
    rw [QueueBuffer.seq, QueueBuffer.seq, entries_set hi, entries_split hi]
    exact .write

/-- A loop with `queue_buffer_begin` and `queue_buffer_next` visits every item, in order. -/
theorem visit (h : m.Refines q) : m.visit = some q.used := by
  have hloop : ∀ (l : List ℕ) (fuel : ℕ) (m' : LinkedQueue α), l.length ≤ fuel →
      LinkedFrom m'.next m'.iterator l → visitFrom fuel m'.iterator m' = some l := by
    intro l
    induction l with
    | nil =>
      intro fuel m' _ hlist
      rw [segment_nil.mp hlist]
      cases fuel <;> rfl
    | cons i l ih =>
      intro fuel m' hfuel hlist
      obtain ⟨fuel, rfl⟩ : ∃ k, fuel = k + 1 := ⟨fuel - 1, by simp at hfuel; omega⟩
      have hrest := ih fuel { m' with iterator := m'.next i } (by simpa using hfuel) hlist.2
      rw [hlist.1, visitFrom, getNext, hlist.1, Option.map_some, Option.bind_some, hrest]
      rfl
  exact hloop q.used m.capacity m.begin.2 h.length_used_le h.used

end Refines

end Refined

/-- **In every state reached, whatever was called before**: the memory is two lists without
a cycle that share the slots out between them, the used ones in the order of a bounded
sequence of items; `queue_buffer_size` is its length, a loop visits its items front to
back, and every function that may be called ends and takes its step on the sequence. -/
theorem holds_of_reachable {m : LinkedQueue α} (h : (queueMachine α).Reachable m) :
    ∃ s : BoundedSeq α, m.Holds s ∧ m.visit = some s.handles ∧
      ∀ op, m.Allows op → ∃ r m' s', op.run m = some (r, m') ∧ m'.Holds s' ∧ s.Step op r s' := by
  have hinv : m.WellFormed := by
    refine h.invariant ?_ ?_
    · rintro m ⟨numItems, m₀, hm⟩
      obtain ⟨m', hrun, href, -⟩ := refines_init numItems m₀
      cases hm.symm.trans hrun
      exact ⟨_, _, href⟩
    · rintro m op m' ⟨n, q, href⟩ - ⟨hop, r, hrun⟩
      obtain ⟨r', m'', n', q', hrun', href', -⟩ := href.step hop
      cases hrun.symm.trans hrun'
      exact ⟨n', q', href'⟩
  obtain ⟨n, q, href⟩ := hinv
  refine ⟨q.seq m.iterator, href.holds, ?_, fun op hop => ?_⟩
  · rw [href.visit]
    exact congrArg some q.map_fst_entries.symm
  · obtain ⟨r, m', n', q', hrun, href', hstep⟩ := href.step hop
    exact ⟨r, m', _, hrun, href'.holds, hstep⟩

/-! ### A buffer in use -/

/-- The calls that may be made, as a walk along the links shows. -/
def permits (m : LinkedQueue α) : QueueOp α → Bool
  | .popFront | .popBack => m.usedHead.isSome
  | .free i | .write i _ => i ∈ (cellsFrom m.next m.capacity m.usedHead).getD []
  | .next => m.iterator.isSome
  | .copy _ => false
  | _ => true

theorem allows_of_permits {m : LinkedQueue α} {op : QueueOp α} (h : m.permits op = true) :
    m.Allows op := by
  cases op with
  | free i | write i x => exact exists_linkedFrom_of_mem (of_decide_eq_true h)
  | popFront | popBack | next => exact Option.isSome_iff_ne_none.mp h
  | copy source => cases h
  | _ => trivial

/-- One call, `none` when it may not be made. -/
def advance (op : QueueOp α) (m : LinkedQueue α) : Option (LinkedQueue α) :=
  if m.permits op then (op.run m).map Prod.snd else none

theorem step_of_advance {op : QueueOp α} {m m' : LinkedQueue α} (h : advance op m = some m') :
    (queueMachine α).step op m m' := by
  unfold advance at h
  split at h
  · next hop =>
    obtain ⟨r, hr, rfl⟩ := Option.map_eq_some_iff.mp h
    exact ⟨allows_of_permits hop, r.1, hr⟩
  · cases h

/-- A buffer in memory that has not been written to. -/
def blank : LinkedQueue ℕ := ⟨0, 0, none, none, none, fun _ => none, fun _ => 0⟩

/-- Three items are put into a buffer, the one in the middle is freed, and its slot is used again
for one that comes first. -/
def middleFreed : List (QueueOp ℕ) :=
  [.pushBack 10, .pushBack 20, .pushBack 30, .free 1, .pushFront 40, .begin, .next]

/-- The sequence the buffer holds then: the new item is before the two that are left. -/
theorem holds_middleFreed : ∃ m, (queueMachine ℕ).Reachable m ∧ m.size = 3 ∧
    m.visit = some [1, 0, 2] ∧ [1, 0, 2].map m.data = [40, 10, 30] ∧ m.iterator = some 0 ∧
    ∃ s : BoundedSeq ℕ, m.Holds s ∧ m.visit = some s.handles ∧
      ∀ op, m.Allows op → ∃ r m' s', op.run m = some (r, m') ∧ m'.Holds s' ∧ s.Step op r s' := by
  have hrun : ((blank.init 4).bind fun m₀ => (Machine.run advance middleFreed m₀).map fun m =>
      decide (m.size = 3 ∧ m.visit = some [1, 0, 2] ∧ [1, 0, 2].map m.data = [40, 10, 30] ∧
        m.iterator = some 0)) = some true := by decide +kernel
  obtain ⟨m₀, hinit, hm₀⟩ := Option.bind_eq_some_iff.mp hrun
  obtain ⟨m, hm, hfacts⟩ := Option.map_eq_some_iff.mp hm₀
  obtain ⟨hsize, hvisit, hdata, hiter⟩ := of_decide_eq_true hfacts
  have hreach : (queueMachine ℕ).Reachable m :=
    Machine.Reachable.of_run (fun _ _ _ => step_of_advance) _ (.init ⟨4, blank, hinit⟩) hm
  exact ⟨m, hreach, hsize, hvisit, hdata, hiter, holds_of_reachable hreach⟩

end LinkedQueue

end EmergencyNet
