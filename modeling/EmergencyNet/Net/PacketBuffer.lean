import EmergencyNet.Net.Packet

/-!
# The packet buffer

`emergency_net/packet_buffer.c` and `emergency_net/packet_buffer.h`: the packets a node
still has to send, in one queue buffer, with a first-in first-out list for each type of
packet.  A pointer to a buffered packet is the number of its slot.

## Main definitions

* `MsgType` — the types of packets, in the order of the lists.
* `BufferedPacket`, `PacketBuffer` — the buffer; every slot in use is on exactly one list.
* `PacketBuffer.broadcastPacket`, `unicastPacket` — enqueue a packet.
* `PacketBuffer.find`, `first`, `free`, `modify`, `acked` — look up, remove, update.

## Main results

* `PacketBuffer.put_eq_ok` — **what an enqueued packet changes.**
* `PacketBuffer.put_eq_sendingQueueFull` — enqueuing overflows exactly when the buffer is
  full.
* `PacketBuffer.mem_free`, `acked_eq_self` — what a removal and an acknowledgement leave.
-/

namespace EmergencyNet

/-- The ways code of the connection can go wrong. -/
inductive Fault
  /-- An `ASSERT` failed. -/
  | assertFailed
  /-- A packet was allocated in a full packet buffer: `add_buffered_packet_tail` writes
  through the `NULL` it gets. -/
  | sendingQueueFull
  /-- The neighbour table was read through a `NULL` pointer. -/
  | nullNeighbors
  deriving DecidableEq, Repr

/-! ### Types and entries -/

/-- The message types, in the order of their numbers. -/
inductive MsgType
  | neighborAck
  | neighborData
  | broadcastData
  | multicastUnicastAck
  | multicastUnicastData
  | timesynchData
  | meshData
  deriving DecidableEq, Repr

/-- All message types, from `PACKET_BUFFER_TYPE_ZERO` on. -/
def MsgType.all : List MsgType :=
  [neighborAck, neighborData, broadcastData, multicastUnicastAck, multicastUnicastData,
    timesynchData, meshData]

@[simp] theorem MsgType.mem_all (t : MsgType) : t ∈ MsgType.all := by cases t <;> decide

/-- `struct buffered_packet`, without the link to the next one. -/
@[ext] structure BufferedPacket where
  /-- The neighbours who are still to acknowledge the packet. -/
  unackedNs : NeighborSet
  timesSent : UInt8
  dataLen : UInt8
  p : Packet
  deriving DecidableEq

namespace BufferedPacket

/-- A slot nothing has been written to. -/
def zero : BufferedPacket := ⟨.empty, 0, 0, default⟩

/-- `packet_buffer_neighbor_acked`. -/
def neighborAcked (addr : Rimeaddr) (bp : BufferedPacket) : BufferedPacket :=
  { bp with unackedNs := bp.unackedNs.erase addr }

/-- `packet_buffer_all_neighbors_acked`. -/
def allNeighborsAcked (bp : BufferedPacket) : Bool := bp.unackedNs.addrs.isEmpty

/-- `packet_buffer_increment_times_sent`. -/
def incrementTimesSent (bp : BufferedPacket) : BufferedPacket :=
  { bp with timesSent := bp.timesSent + 1 }

end BufferedPacket

/-- `SENDING_QUEUE_LENGTH`. -/
def sendingQueueLength : ℕ := 12

/-- `add_buffered_packet_tail`: the lists after packet `b` has been put last on list `t`. -/
def addTail (heads : MsgType → List ℕ) (t : MsgType) (b : ℕ) : MsgType → List ℕ :=
  Function.update heads t (heads t ++ [b])

theorem mem_addTail {heads : MsgType → List ℕ} {t t' : MsgType} {b j : ℕ} :
    j ∈ addTail heads t b t' ↔ j ∈ heads t' ∨ t' = t ∧ j = b := by
  by_cases h : t' = t
  · subst h
    simp [addTail]
  · simp [addTail, h]

@[simp] theorem addTail_self (heads : MsgType → List ℕ) (t : MsgType) (b : ℕ) :
    addTail heads t b t = heads t ++ [b] := Function.update_self ..

theorem addTail_of_ne {heads : MsgType → List ℕ} {t t' : MsgType} {b : ℕ} (h : t' ≠ t) :
    addTail heads t b t' = heads t' := Function.update_of_ne h ..

/-- `struct packet_buffer`. -/
structure PacketBuffer where
  buffer : QueueBuffer BufferedPacket sendingQueueLength
  /-- The lists from `prio_heads` on, oldest packet first. -/
  prioHeads : MsgType → List ℕ
  nodup : ∀ t, (prioHeads t).Nodup
  /-- A slot is in use when it is on a list. -/
  mem_used : ∀ i, i ∈ buffer.used ↔ ∃ t, i ∈ prioHeads t
  /-- It is on one list only. -/
  unique : ∀ t t' i, i ∈ prioHeads t → i ∈ prioHeads t' → t = t'

namespace PacketBuffer

variable {pb pb' : PacketBuffer} {t t' : MsgType} {i j : ℕ} {a : Rimeaddr}

/-! ### Operations -/

/-- `packet_buffer_init` of a buffer all of whose slots hold zeros. -/
def init : PacketBuffer where
  buffer := QueueBuffer.init _ fun _ => .zero
  prioHeads := fun _ => []
  nodup := fun _ => List.nodup_nil
  mem_used := by simp
  unique := by simp

/-- The packet in a slot. -/
def item (pb : PacketBuffer) (i : ℕ) : BufferedPacket := pb.buffer.item i

/-- The number of packets. -/
def size (pb : PacketBuffer) : ℕ := pb.buffer.size

/-- `packet_buffer_has_room_for_packets`. -/
def hasRoomForPackets (pb : PacketBuffer) (n : ℕ) : Bool :=
  decide (pb.size + n ≤ sendingQueueLength)

/-- `packet_buffer_get_first_packet_from_type`. -/
def first (pb : PacketBuffer) (t : MsgType) : Option ℕ := (pb.prioHeads t).head?

/-- The packets in the order in which `packet_buffer_find_buffered_packet` visits them. -/
def scan (pb : PacketBuffer) : List ℕ := MsgType.all.flatMap pb.prioHeads

/-- `packet_buffer_find_buffered_packet`. -/
def find (pb : PacketBuffer) (cmp : Packet → Bool) : Option ℕ :=
  pb.scan.find? fun i => cmp (pb.item i).p

/-- A change of the packet in slot `i` through a pointer. -/
def modify (pb : PacketBuffer) (i : ℕ) (f : BufferedPacket → BufferedPacket) : PacketBuffer :=
  { pb with buffer := pb.buffer.set i (f (pb.item i)) }

/-- A slot not in use is on no list. -/
theorem not_mem_of_unused (pb : PacketBuffer) (hi : i ∈ pb.buffer.unused) (t : MsgType) :
    i ∉ pb.prioHeads t := by
  intro ht
  have hused : i ∈ pb.buffer.used := (pb.mem_used i).mpr ⟨t, ht⟩
  exact pb.buffer.disjoint hi hused

/-- `allocate_buffered_packet`: the packet gets the last place on its list, in a slot that
still holds what it held when it was freed. -/
def allocate (pb : PacketBuffer) (t : MsgType) : Option (ℕ × PacketBuffer) :=
  match h : pb.buffer.allocFront with
  | none => none
  | some (b, buffer) => some (b,
      { buffer := buffer
        prioHeads := addTail pb.prioHeads t b
        nodup := by
          intro t'
          obtain ⟨hb, -, -⟩ := QueueBuffer.allocFront_eq_some h
          by_cases ht : t' = t
          · subst ht
            rw [addTail_self]
            exact (pb.nodup t').append (List.nodup_singleton b)
              (List.disjoint_singleton.mpr (pb.not_mem_of_unused hb t'))
          · rw [addTail_of_ne ht]
            exact pb.nodup t'
        mem_used := by
          intro j
          obtain ⟨-, hused, -⟩ := QueueBuffer.allocFront_eq_some h
          simp only [hused, List.mem_cons, pb.mem_used, mem_addTail, exists_or]
          rw [or_comm]
          simp
        unique := by
          intro t₁ t₂ j h₁ h₂
          obtain ⟨hb, -, -⟩ := QueueBuffer.allocFront_eq_some h
          have hfresh := pb.not_mem_of_unused hb
          rw [mem_addTail] at h₁ h₂
          rcases h₁ with h₁ | ⟨rfl, rfl⟩ <;> rcases h₂ with h₂ | ⟨rfl, hj⟩
          · exact pb.unique t₁ t₂ j h₁ h₂
          · exact absurd (hj ▸ h₁) (hfresh t₁)
          · exact absurd h₂ (hfresh t₂)
          · rfl })

/-- `packet_buffer_free` of a packet that is on a list; no packet is on two, so unlinking it
from the list the scan finds it on is unlinking it from all. -/
def free (pb : PacketBuffer) (i : ℕ) : PacketBuffer where
  buffer := pb.buffer.free i
  prioHeads := fun t => (pb.prioHeads t).erase i
  nodup := fun t => (pb.nodup t).erase i
  mem_used := by
    intro j
    simp only [QueueBuffer.mem_free, pb.mem_used, (pb.nodup _).mem_erase_iff]
    exact ⟨fun ⟨⟨t, ht⟩, hne⟩ => ⟨t, hne, ht⟩, fun ⟨t, hne, ht⟩ => ⟨⟨t, ht⟩, hne⟩⟩
  unique := fun t t' j ht ht' =>
    pb.unique t t' j (List.mem_of_mem_erase ht) (List.mem_of_mem_erase ht')

/-- What an enqueued packet is written to its slot as.  `ns` is `none` for `NULL`: the slot
then keeps the unacknowledged neighbours of the packet that was in it before. -/
def written (hdr : Header) (fields data : List UInt8) (ns : Option NeighborSet)
    (old : BufferedPacket) : BufferedPacket where
  unackedNs := ns.elim old.unackedNs NeighborSet.reverse
  timesSent := 0
  dataLen := UInt8.ofNat data.length
  p := ⟨hdr, memWrite (fields ++ data) old.p.data⟩

/-- The functions that enqueue a packet, which differ in the size of its header and in the
`fields` between the header proper and the data. -/
def put (pb : PacketBuffer) (hdrSize : ℕ) (hdr : Header) (fields data : List UInt8)
    (ns : Option NeighborSet) (t : MsgType) : Except Fault (ℕ × PacketBuffer) :=
  match pb.allocate t with
  | none => .error .sendingQueueFull
  | some (i, pb) =>
    if hdrSize + data.length < maxPacketSize then
      .ok (i, pb.modify i (written hdr fields data ns))
    else .error .assertFailed

/-- `packet_buffer_broadcast_packet`. -/
def broadcastPacket (pb : PacketBuffer) (hdr : Header) (data : List UInt8)
    (ns : Option NeighborSet) (t : MsgType) : Except Fault (ℕ × PacketBuffer) :=
  pb.put broadcastPacketHdrSize hdr [] data ns t

/-- `packet_buffer_unicast_packet`. -/
def unicastPacket (pb : PacketBuffer) (hdr : Header) (destination : Rimeaddr) (data : List UInt8)
    (ns : Option NeighborSet) (t : MsgType) : Except Fault (ℕ × PacketBuffer) :=
  pb.put unicastPacketHdrSize hdr destination.bytes data ns t

/-- The buffer after neighbour `a` has acknowledged the packet in slot `i`: the packet is
freed when no neighbour is left. -/
def acked (pb : PacketBuffer) (i : ℕ) (a : Rimeaddr) : PacketBuffer :=
  if ((pb.item i).neighborAcked a).allNeighborsAcked then
    (pb.modify i (BufferedPacket.neighborAcked a)).free i
  else pb.modify i (BufferedPacket.neighborAcked a)

/-! ### What each operation leaves -/

@[simp] theorem init_prioHeads (t : MsgType) : init.prioHeads t = [] := rfl

@[simp] theorem init_item (i : ℕ) : init.item i = .zero := rfl

@[simp] theorem modify_prioHeads (f : BufferedPacket → BufferedPacket) :
    (pb.modify i f).prioHeads = pb.prioHeads := rfl

@[simp] theorem modify_size (f : BufferedPacket → BufferedPacket) :
    (pb.modify i f).size = pb.size := rfl

@[simp] theorem modify_item_self (f : BufferedPacket → BufferedPacket) :
    (pb.modify i f).item i = f (pb.item i) := QueueBuffer.set_item_self ..

theorem modify_item_of_ne (f : BufferedPacket → BufferedPacket) (h : j ≠ i) :
    (pb.modify i f).item j = pb.item j := QueueBuffer.set_item_of_ne _ _ h

@[simp] theorem free_prioHeads : (pb.free i).prioHeads t = (pb.prioHeads t).erase i := rfl

@[simp] theorem free_item : (pb.free i).item j = pb.item j := by
  simp only [item, free, QueueBuffer.free_item]

theorem mem_free : j ∈ (pb.free i).prioHeads t ↔ j ∈ pb.prioHeads t ∧ j ≠ i := by
  rw [free_prioHeads, (pb.nodup t).mem_erase_iff, and_comm]

/-- The slots the scan visits are the ones on the lists. -/
theorem mem_scan : i ∈ pb.scan ↔ ∃ t, i ∈ pb.prioHeads t := by simp [scan]

theorem mem_of_first (h : pb.first t = some i) : i ∈ pb.prioHeads t := List.mem_of_head? h

/-- The first packet of a list that is still there when others have left the list is still
first. -/
theorem first_of_sublist (hfirst : pb.first t = some i)
    (hsub : (pb'.prioHeads t).Sublist (pb.prioHeads t)) (hi : i ∈ pb'.prioHeads t) :
    pb'.first t = some i := by
  obtain ⟨rest, hrest⟩ := List.head?_eq_some_iff.mp hfirst
  have hnodup : (i :: rest).Nodup := hrest ▸ pb.nodup t
  rw [hrest] at hsub
  rcases List.sublist_cons_iff.mp hsub with hsub | ⟨r, hr, -⟩
  · exact absurd (hsub.subset hi) (List.nodup_cons.mp hnodup).1
  · rw [first, hr]
    rfl

/-- A packet found is on a list and the comparer accepts it. -/
theorem mem_of_find {cmp : Packet → Bool} (h : pb.find cmp = some i) :
    (∃ t, i ∈ pb.prioHeads t) ∧ cmp (pb.item i).p = true :=
  ⟨mem_scan.mp (List.mem_of_find?_eq_some h), by simpa using List.find?_some h⟩

/-- Nothing is found exactly when the comparer accepts no packet. -/
theorem find_eq_none {cmp : Packet → Bool} :
    pb.find cmp = none ↔ ∀ t, ∀ i ∈ pb.prioHeads t, cmp (pb.item i).p = false := by
  simp only [find, List.find?_eq_none, mem_scan, Bool.not_eq_true]
  exact ⟨fun h t i hi => h i ⟨t, hi⟩, fun h i ⟨t, hi⟩ => h t i hi⟩

theorem size_le (pb : PacketBuffer) : pb.size ≤ sendingQueueLength := pb.buffer.size_le

/-- An allocation puts a slot that was on no list at the end of one list, and changes
nothing else. -/
theorem allocate_eq_some (h : pb.allocate t = some (i, pb')) :
    (∀ t', i ∉ pb.prioHeads t') ∧ pb'.prioHeads = addTail pb.prioHeads t i ∧
      (∀ j, pb'.item j = pb.item j) ∧ pb'.size = pb.size + 1 := by
  unfold allocate at h
  split at h
  · cases h
  · next b buffer halloc =>
    cases h
    obtain ⟨hb, hused, hitem⟩ := QueueBuffer.allocFront_eq_some halloc
    refine ⟨pb.not_mem_of_unused hb, rfl, fun j => by rw [item, item, hitem], ?_⟩
    rw [size, size, QueueBuffer.size, QueueBuffer.size, hused, List.length_cons]

theorem allocate_eq_none : pb.allocate t = none ↔ pb.size = sendingQueueLength := by
  unfold allocate
  split
  · next h => exact ⟨fun _ => QueueBuffer.allocFront_eq_none.mp h, fun _ => rfl⟩
  · next h =>
    constructor
    · intro hnone
      cases hnone
    · intro hsize
      rw [QueueBuffer.allocFront_eq_none.mpr hsize] at h
      cases h

/-- What enqueuing packet `bp` as the last of list `t`, in slot `i`, leaves. -/
structure Enqueued (pb : PacketBuffer) (t : MsgType) (i : ℕ) (bp : BufferedPacket)
    (pb' : PacketBuffer) : Prop where
  fresh : ∀ t', i ∉ pb.prioHeads t'
  prioHeads : pb'.prioHeads = addTail pb.prioHeads t i
  item_self : pb'.item i = bp
  item_of_ne : ∀ j, j ≠ i → pb'.item j = pb.item j
  size : pb'.size = pb.size + 1

/-- **What an enqueued packet changes**: one slot, which was on no list before. -/
theorem put_eq_ok {n : ℕ} {hdr : Header} {fields data : List UInt8} {ns : Option NeighborSet}
    (h : pb.put n hdr fields data ns t = .ok (i, pb')) :
    pb.Enqueued t i (written hdr fields data ns (pb.item i)) pb' ∧
      n + data.length < maxPacketSize := by
  unfold put at h
  split at h
  · cases h
  · next b pb₁ halloc =>
    split at h
    · next hlen =>
      cases h
      obtain ⟨hfresh, hheads, hitem, hsize⟩ := allocate_eq_some halloc
      refine ⟨⟨hfresh, hheads, ?_, fun j hj => ?_, hsize⟩, hlen⟩
      · rw [modify_item_self, hitem]
      · rw [modify_item_of_ne _ hj, hitem]
    · cases h

/-- The slot a packet is put into is the first free one. -/
theorem buffer_of_put {n : ℕ} {hdr : Header} {fields data : List UInt8} {ns : Option NeighborSet}
    (h : pb.put n hdr fields data ns t = .ok (i, pb')) :
    pb'.buffer.used = i :: pb.buffer.used ∧ pb.buffer.unused = i :: pb'.buffer.unused := by
  unfold put at h
  split at h
  · cases h
  · next b pb₁ halloc =>
    split at h
    · cases h
      unfold allocate at halloc
      split at halloc
      · cases halloc
      · next b buffer hbuffer =>
        cases halloc
        unfold QueueBuffer.allocFront at hbuffer
        split at hbuffer
        · cases hbuffer
        · cases hbuffer
          exact ⟨rfl, (List.cons_head_tail _).symm⟩
    · cases h

/-- Enqueuing overflows exactly when the buffer is full. -/
theorem put_eq_sendingQueueFull {n : ℕ} {hdr : Header} {fields data : List UInt8}
    {ns : Option NeighborSet} :
    pb.put n hdr fields data ns t = .error .sendingQueueFull ↔ pb.size = sendingQueueLength := by
  rw [← allocate_eq_none (t := t)]
  unfold put
  split
  · next h => exact ⟨fun _ => h, fun _ => rfl⟩
  · next h =>
    rw [h]
    split <;> simp

/-- Enqueuing asserts exactly when there is room for a packet, but not for its data. -/
theorem put_eq_assertFailed {n : ℕ} {hdr : Header} {fields data : List UInt8}
    {ns : Option NeighborSet} : pb.put n hdr fields data ns t = .error .assertFailed ↔
      pb.size ≠ sendingQueueLength ∧ maxPacketSize ≤ n + data.length := by
  rw [ne_eq, ← allocate_eq_none (t := t)]
  unfold put
  split
  · next h => simp [h]
  · next h =>
    rw [h]
    split
    · next hlen => simp [hlen]
    · next hlen => simpa using hlen

/-- A packet that fits is enqueued. -/
theorem exists_put_eq_ok {n : ℕ} (hdr : Header) (fields : List UInt8) {data : List UInt8}
    (ns : Option NeighborSet) (hroom : pb.size ≠ sendingQueueLength)
    (hlen : n + data.length < maxPacketSize) :
    ∃ i pb', pb.put n hdr fields data ns t = .ok (i, pb') := by
  rw [ne_eq, ← allocate_eq_none (t := t)] at hroom
  unfold put
  split
  · next h => exact absurd h hroom
  · rw [if_pos hlen]
    exact ⟨_, _, rfl⟩

/-! ### Acknowledgements -/

theorem acked_item_of_ne (h : j ≠ i) : (pb.acked i a).item j = pb.item j := by
  unfold acked
  split
  · rw [free_item, modify_item_of_ne _ h]
  · exact modify_item_of_ne _ h

@[simp] theorem acked_item_self :
    (pb.acked i a).item i = (pb.item i).neighborAcked a := by
  unfold acked
  split
  · rw [free_item, modify_item_self]
  · exact modify_item_self _

/-- An acknowledgement leaves every packet on its list but one that nobody is left to
acknowledge. -/
theorem mem_acked : j ∈ (pb.acked i a).prioHeads t ↔
    j ∈ pb.prioHeads t ∧ (j = i → (pb.item i).unackedNs.addrs.erase a ≠ []) := by
  unfold acked
  split
  · next h =>
    have hnil : (pb.item i).unackedNs.addrs.erase a = [] := List.isEmpty_iff.mp h
    rw [mem_free, modify_prioHeads, hnil]
    simp
  · next h =>
    have hne : (pb.item i).unackedNs.addrs.erase a ≠ [] := fun hnil => h (List.isEmpty_iff.mpr hnil)
    rw [modify_prioHeads]
    simp [hne]

/-- An acknowledgement by `a` leaves the packet in slot `i` as it is. -/
def Unmoved (pb : PacketBuffer) (i : ℕ) (a : Rimeaddr) : Prop :=
  a ∉ (pb.item i).unackedNs.addrs ∧ (pb.item i).unackedNs.addrs ≠ []

instance : Decidable (pb.Unmoved i a) := by unfold Unmoved; infer_instance

theorem ext_of_buffer (hbuffer : pb'.buffer = pb.buffer) (hheads : pb'.prioHeads = pb.prioHeads) :
    pb' = pb := by
  cases pb
  cases pb'
  cases hbuffer
  cases hheads
  rfl

theorem neighborAcked_eq_self (h : pb.Unmoved i a) : (pb.item i).neighborAcked a = pb.item i := by
  have herase : (pb.item i).unackedNs.erase a = (pb.item i).unackedNs :=
    NeighborSet.ext (List.erase_of_not_mem h.1)
  rw [BufferedPacket.neighborAcked, herase]

theorem acked_of_unmoved (h : pb.Unmoved i a) : pb.acked i a = pb := by
  have hsame := neighborAcked_eq_self h
  have hleft : (pb.item i).allNeighborsAcked = false := by
    rw [BufferedPacket.allNeighborsAcked, List.isEmpty_eq_false_iff]
    exact h.2
  unfold acked
  rw [if_neg (by rw [hsame, hleft]; simp)]
  refine ext_of_buffer ?_ rfl
  change pb.buffer.set i ((pb.item i).neighborAcked a) = pb.buffer
  rw [hsame]
  exact QueueBuffer.set_item_eq_self

/-- An acknowledgement of a queued packet that changes nothing in the packet's slot. -/
theorem unmoved_of_acked (hitem : (pb.item i).neighborAcked a = pb.item i)
    (hmem : i ∈ (pb.acked i a).prioHeads t) : pb.Unmoved i a := by
  have herase : (pb.item i).unackedNs.addrs.erase a = (pb.item i).unackedNs.addrs :=
    congrArg (fun bp => bp.unackedNs.addrs) hitem
  have hne : (pb.item i).unackedNs.addrs ≠ [] := herase ▸ (mem_acked.mp hmem).2 rfl
  refine ⟨fun ha => ?_, hne⟩
  have hlen := List.length_erase_of_mem ha
  rw [herase] at hlen
  have hpos := List.length_pos_of_ne_nil hne
  omega

/-- An acknowledgement changes nothing exactly when the neighbour is not awaited and another
one is. -/
theorem acked_eq_self (hi : i ∈ pb.prioHeads t) : pb.acked i a = pb ↔ pb.Unmoved i a := by
  constructor
  · intro h
    refine unmoved_of_acked (t := t) ?_ ?_
    · rw [← acked_item_self, h]
    · rw [h]
      exact hi
  · exact acked_of_unmoved

/-- Acknowledgements of two packets have the same effect when neither has any. -/
theorem acked_eq_acked (hi : i ∈ pb.prioHeads t) (hj : j ∈ pb.prioHeads t') (hne : j ≠ i) :
    pb.acked j a = pb.acked i a ↔ pb.Unmoved j a ∧ pb.Unmoved i a := by
  constructor
  · intro h
    constructor
    · refine unmoved_of_acked (t := t') ?_ ?_
      · rw [← acked_item_self, h, acked_item_of_ne hne]
      · rw [h]
        exact mem_acked.mpr ⟨hj, fun hji => absurd hji hne⟩
    · refine unmoved_of_acked (t := t) ?_ ?_
      · rw [← acked_item_self, ← h, acked_item_of_ne hne.symm]
      · rw [← h]
        exact mem_acked.mpr ⟨hi, fun hij => absurd hij.symm hne⟩
  · rintro ⟨hj', hi'⟩
    rw [acked_of_unmoved hj', acked_of_unmoved hi']

end PacketBuffer

end EmergencyNet
