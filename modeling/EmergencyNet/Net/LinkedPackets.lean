import EmergencyNet.Base.BoundedSeq
import EmergencyNet.Net.PacketBuffer

/-!
# The packet buffer in memory

`struct packet_buffer` with its pointers, as `emergency_net/packet_buffer.c` works on it:
the slots of a queue buffer, each with the link to the next packet of its type and with a
queue buffer of its own for the neighbours that are still to acknowledge.  As in
`EmergencyNet.Base.LinkedQueue`, a function returns `none` where the code does not come to
an end.

## Main definitions

* `LinkedPacket`, `LinkedPackets` — the structures and the memory of the slots.
* `LinkedPackets.put`, `free`, `clearPriority`, `findBufferedPacket`, .. — the functions.
* `LinkedPacket.Shows` — what a packet in memory stands for.
* `LinkedPackets.HoldsLists` — the memory holds a list of packets for every type.
* `LinkedPackets.Refines` — and every slot in use is on one of them.
* `LinkedPackets.Represents` — the memory is the buffer of `EmergencyNet.Net.PacketBuffer`.

## Main results

* `HoldsLists.put`, `HoldsLists.free`, `HoldsLists.clearPriority`, `HoldsLists.find`, .. —
  **what every function does to the lists**; as `Refines.put`, .. when no slot is lost.
* `Represents.put`, `Represents.free`, `Represents.find`, .. — the functions do to the memory
  what those of `EmergencyNet.Net.PacketBuffer` do.
-/

namespace EmergencyNet

/-- `struct buffered_packet`. -/
structure LinkedPacket where
  next : Option ℕ
  /-- The neighbours who are still to acknowledge the packet. -/
  unackedNs : LinkedQueue Rimeaddr
  timesSent : UInt8
  dataLen : UInt8
  p : Packet

namespace LinkedPacket

/-! ### One packet -/

/-- `copy_neighbors`, for the addresses in the order in which it visits them. -/
def copyNeighbors (ns : NeighborSet) (unackedNs : LinkedQueue Rimeaddr) :
    Option (LinkedQueue Rimeaddr) :=
  ns.addrs.foldlM (fun q addr => (q.pushFront addr).map Prod.snd) unackedNs

/-- The neighbours of a new packet: those of `ns`, and those of the packet that was in the
slot before if `ns` is `NULL`. -/
def setNeighbors (ns : Option NeighborSet) (bp : LinkedPacket) : Option LinkedPacket :=
  match ns with
  | none => some bp
  | some ns =>
    ((bp.unackedNs.init (UInt8.ofNat ns.addrs.length)).bind (copyNeighbors ns)).map fun q =>
      { bp with unackedNs := q }

/-- The loop of `packet_buffer_neighbor_acked`. -/
def ackedFrom (addr : Rimeaddr) :
    ℕ → Option ℕ → LinkedQueue Rimeaddr → Option (LinkedQueue Rimeaddr)
  | _, none, q => some q
  | 0, some _, _ => none
  | fuel + 1, some i, q =>
    if q.data i = addr then q.free i
    else q.getNext.bind fun r => ackedFrom addr fuel r.1 r.2

/-- `packet_buffer_neighbor_acked`. -/
def neighborAcked (addr : Rimeaddr) (bp : LinkedPacket) : Option LinkedPacket :=
  (ackedFrom addr bp.unackedNs.capacity bp.unackedNs.begin.1 bp.unackedNs.begin.2).map fun q =>
    { bp with unackedNs := q }

/-- `packet_buffer_num_unacked_neighbors`. -/
def numUnackedNeighbors (bp : LinkedPacket) : UInt8 := bp.unackedNs.size

/-- `packet_buffer_all_neighbors_acked`. -/
def allNeighborsAcked (bp : LinkedPacket) : Bool := bp.unackedNs.size == 0

/-- The addresses a loop with `packet_buffer_unacked_neighbors_begin` and
`packet_buffer_unacked_neighbors_next` visits. -/
def unackedNeighbors (bp : LinkedPacket) : Option (List Rimeaddr) :=
  bp.unackedNs.visit.map fun l => l.map bp.unackedNs.data

/-- `packet_buffer_increment_times_sent`. -/
def incrementTimesSent (bp : LinkedPacket) : LinkedPacket :=
  { bp with timesSent := bp.timesSent + 1 }

end LinkedPacket

/-- `struct packet_buffer`, and the queue buffer it works on. -/
structure LinkedPackets where
  prioHeads : MsgType → Option ℕ
  buffer : LinkedQueue LinkedPacket

namespace LinkedPackets

/-! ### The functions -/

/-- The packet in a slot. -/
def item (m : LinkedPackets) (i : ℕ) : LinkedPacket := m.buffer.data i

/-- The links between packets of a type. -/
def link (m : LinkedPackets) (i : ℕ) : Option ℕ := (m.item i).next

/-- The memory with other links between the packets. -/
def setLinks (next : ℕ → Option ℕ) (m : LinkedPackets) : LinkedPackets :=
  { m with buffer := { m.buffer with data := fun i => { m.item i with next := next i } } }

/-- The memory with another head for one type. -/
def setHead (t : MsgType) (head : Option ℕ) (m : LinkedPackets) : LinkedPackets :=
  { m with prioHeads := Function.update m.prioHeads t head }

/-- A write to the packet in slot `i`. -/
def write (i : ℕ) (bp : LinkedPacket) (m : LinkedPackets) : LinkedPackets :=
  { m with buffer := m.buffer.write i bp }

/-- `add_buffered_packet_tail`. -/
def addBufferedPacketTail (t : MsgType) (i : ℕ) (m : LinkedPackets) : Option LinkedPackets :=
  (linkLast m.buffer.capacity (m.prioHeads t) i m.link).map fun r =>
    (m.setLinks r.2).setHead t r.1

/-- `allocate_buffered_packet`, which does not look whether there is a slot. -/
def allocateBufferedPacket (t : MsgType) (m : LinkedPackets) : Option (ℕ × LinkedPackets) :=
  m.buffer.allocFront.bind fun r =>
    r.1.bind fun s => (addBufferedPacketTail t s { m with buffer := r.2 }).map (s, ·)

/-- `packet_buffer_init`. -/
def init (m : LinkedPackets) : LinkedPackets := { m with prioHeads := fun _ => none }

/-- `PACKET_BUFFER_INIT_WITH_STRUCT`. -/
def initWithStruct (numPackets : UInt8) (m : LinkedPackets) : Option LinkedPackets :=
  (m.buffer.init numPackets).map fun buffer => init { m with buffer := buffer }

/-- The functions that enqueue a packet, which differ in the size of its header and in the
`fields` between the header proper and the data. -/
def put (hdrSize : ℕ) (hdr : Header) (fields data : List UInt8) (ns : Option NeighborSet)
    (t : MsgType) (m : LinkedPackets) : Option (ℕ × LinkedPackets) :=
  (m.allocateBufferedPacket t).bind fun (s, m) =>
    ((m.item s).setNeighbors ns).bind fun bp =>
      if hdrSize + data.length < maxPacketSize then
        some (s, m.write s { bp with
          timesSent := 0
          dataLen := UInt8.ofNat data.length
          p := ⟨hdr, memWrite (fields ++ data) bp.p.data⟩ })
      else none

/-- `packet_buffer_packet`. -/
def packet (hdr : Header) (data : List UInt8) (ns : Option NeighborSet) (t : MsgType)
    (m : LinkedPackets) : Option (ℕ × LinkedPackets) :=
  m.put broadcastPacketHdrSize hdr [] data ns t

/-- `packet_buffer_broadcast_packet`. -/
def broadcastPacket (hdr : Header) (data : List UInt8) (ns : Option NeighborSet) (t : MsgType)
    (m : LinkedPackets) : Option (ℕ × LinkedPackets) :=
  m.put broadcastPacketHdrSize hdr [] data ns t

/-- `packet_buffer_unicast_packet`. -/
def unicastPacket (hdr : Header) (destination : Rimeaddr) (data : List UInt8)
    (ns : Option NeighborSet) (t : MsgType) (m : LinkedPackets) : Option (ℕ × LinkedPackets) :=
  m.put unicastPacketHdrSize hdr destination.bytes data ns t

/-- `packet_buffer_has_room_for_packets`. -/
def hasRoomForPackets (numPackets : UInt8) (m : LinkedPackets) : Bool :=
  m.buffer.queueSize.toNat + numPackets.toNat ≤ m.buffer.queueMaxSize.toNat

/-- `packet_buffer_get_first_packet_from_type`. -/
def getFirstPacketFromType (t : MsgType) (m : LinkedPackets) : Option ℕ := m.prioHeads t

/-- The loop of `packet_buffer_find_buffered_packet` over the types. -/
def findIn (comparer : Packet → Bool) (m : LinkedPackets) : List MsgType → Option (Option ℕ)
  | [] => some none
  | t :: types =>
    (findFrom m.link (fun i => comparer (m.item i).p) m.buffer.capacity (m.prioHeads t)).bind
      fun found => match found with
        | some i => some (some i)
        | none => findIn comparer m types

/-- `packet_buffer_find_buffered_packet`. -/
def findBufferedPacket (comparer : Packet → Bool) (m : LinkedPackets) : Option (Option ℕ) :=
  m.findIn comparer MsgType.all

/-- The loop of `packet_buffer_clear_priority` from slot `i` on. -/
def clearFrom : ℕ → Option ℕ → LinkedPackets → Option LinkedPackets
  | _, none, m => some m
  | 0, some _, _ => none
  | fuel + 1, some i, m =>
    (m.buffer.free i).bind fun buffer => clearFrom fuel (m.link i) { m with buffer := buffer }

/-- `packet_buffer_clear_priority`. -/
def clearPriority (t : MsgType) (m : LinkedPackets) : Option LinkedPackets :=
  (clearFrom m.buffer.capacity (m.prioHeads t) m).map (setHead t none)

/-- The loop of `packet_buffer_free` over the types. -/
def freeIn (bp : ℕ) (m : LinkedPackets) : List MsgType → Option LinkedPackets
  | [] => none
  | t :: types =>
    (findTwoFrom m.link (· == bp) m.buffer.capacity none (m.prioHeads t)).bind fun found =>
      match found with
      | none => freeIn bp m types
      | some (prev, s) =>
        let u := unlink (m.prioHeads t) prev s m.link
        let m := (m.setLinks u.2).setHead t u.1
        (m.buffer.free s).map fun buffer => { m with buffer := buffer }

/-- `packet_buffer_free`. -/
def free (bp : ℕ) (m : LinkedPackets) : Option LinkedPackets := m.freeIn bp MsgType.all

/-- A function on the packet in slot `i`. -/
def onPacket (i : ℕ) (f : LinkedPacket → Option LinkedPacket) (m : LinkedPackets) :
    Option LinkedPackets := (f (m.item i)).map fun bp => m.write i bp

end LinkedPackets

/-! ### What a packet in memory stands for -/

/-- The packet in memory, whatever its link, is `bp`. -/
structure LinkedPacket.Shows (x : LinkedPacket) (bp : BufferedPacket) : Prop where
  unackedNs : ∃ k ≤ maxNeighbors, ∃ q : QueueBuffer Rimeaddr k,
    x.unackedNs.Refines q ∧ q.toList = bp.unackedNs.addrs
  timesSent : x.timesSent = bp.timesSent
  dataLen : x.dataLen = bp.dataLen
  p : x.p = bp.p

namespace LinkedPacket

variable {x : LinkedPacket} {bp : BufferedPacket} {addr : Rimeaddr}

namespace Shows

/-- `copy_neighbors` puts the addresses in front, one after the other. -/
theorem copyNeighbors {k : ℕ} {l : List Rimeaddr} {m : LinkedQueue Rimeaddr}
    {q : QueueBuffer Rimeaddr k} (hlen : q.used.length + l.length = k) (h : m.Refines q) :
    ∃ m', ∃ q' : QueueBuffer Rimeaddr k,
      l.foldlM (fun q addr => (q.pushFront addr).map Prod.snd) m = some m' ∧ m'.Refines q' ∧
        q'.toList = l.reverse ++ q.toList := by
  induction l generalizing m q with
  | nil => exact ⟨m, q, rfl, h, rfl⟩
  | cons a l ih =>
    have hroom := q.length_used_add_length_unused
    rw [List.length_cons] at hlen
    rcases h.pushFront a with ⟨hnil, -⟩ | ⟨b, q₁, m₁, hq, -, hused, -, hm, href⟩
    · rw [hnil, List.length_nil] at hroom
      omega
    · obtain ⟨m', q', hrun, href', hlist⟩ :=
        ih (by rw [hused, List.length_cons]; omega) href
      refine ⟨m', q', by rw [List.foldlM_cons, hm]; exact hrun, href', ?_⟩
      rw [hlist, QueueBuffer.toList_pushFront hq, List.reverse_cons, List.append_assoc]
      rfl

/-- The neighbours of a new packet. -/
theorem setNeighbors (h : x.Shows bp) (ns : Option NeighborSet) :
    ∃ x', x.setNeighbors ns = some x' ∧ x'.next = x.next ∧
      x'.Shows { bp with unackedNs := ns.elim bp.unackedNs NeighborSet.reverse } := by
  cases ns with
  | none => exact ⟨x, rfl, rfl, h⟩
  | some ns =>
    have hle := ns.le
    have hcap : (UInt8.ofNat ns.addrs.length).toNat = ns.addrs.length := by
      unfold maxNeighbors at hle
      rw [UInt8.toNat_ofNat']
      omega
    obtain ⟨m₀, hinit, href₀, -⟩ :=
      LinkedQueue.refines_init (UInt8.ofNat ns.addrs.length) x.unackedNs
    obtain ⟨m, q, hrun, href, hlist⟩ := copyNeighbors (l := ns.addrs) (by simp [hcap]) href₀
    refine ⟨{ x with unackedNs := m }, ?_, rfl, ?_, h.timesSent, h.dataLen, h.p⟩
    · have hcopy : LinkedPacket.copyNeighbors ns m₀ = some m := hrun
      rw [LinkedPacket.setNeighbors, hinit, Option.bind_some, hcopy, Option.map_some]
    · refine ⟨_, by rw [hcap]; exact hle, q, href, ?_⟩
      rw [hlist]
      exact List.append_nil _

/-- `packet_buffer_neighbor_acked` takes the address off the set. -/
theorem neighborAcked (h : x.Shows bp) (addr : Rimeaddr) :
    ∃ x', x.neighborAcked addr = some x' ∧ x'.next = x.next ∧
      x'.Shows (bp.neighborAcked addr) := by
  obtain ⟨k, hk, q, href, hlist⟩ := h.unackedNs
  -- by induction on the set from the cursor on; `l₁` are the addresses passed over
  have hloop : ∀ (l l₁ : List ℕ) (fuel : ℕ) (m : LinkedQueue Rimeaddr), m.Refines q →
      q.used = l₁ ++ l → (∀ j ∈ l₁, q.item j ≠ addr) → l.length ≤ fuel →
      m.iterator = l.head? → ∃ m', ∃ q' : QueueBuffer Rimeaddr k,
        ackedFrom addr fuel l.head? m = some m' ∧ m'.Refines q' ∧
          q'.toList = q.toList.erase addr := by
    intro l
    induction l with
    | nil =>
      intro l₁ fuel m hm hused hno _ _
      have hnot : addr ∉ q.toList := by
        rw [QueueBuffer.toList, hused, List.append_nil]
        simpa using hno
      refine ⟨m, q, ?_, hm, (List.erase_of_not_mem hnot).symm⟩
      cases fuel <;> rfl
    | cons i l ih =>
      intro l₁ fuel m hm hused hno hfuel hiter
      obtain ⟨fuel, rfl⟩ : ∃ n, fuel = n + 1 := ⟨fuel - 1, by simp at hfuel; omega⟩
      rw [List.head?_cons] at hiter
      rw [List.head?_cons, ackedFrom, hm.data]
      by_cases hi : q.item i = addr
      · obtain ⟨m', hfree, href'⟩ := hm.free hused
        have hno' : addr ∉ l₁.map q.item := by simpa using hno
        refine ⟨m', q.free i, by rw [if_pos hi]; exact hfree, href', ?_⟩
        rw [QueueBuffer.toList, (QueueBuffer.free_of_append hused).1, QueueBuffer.free_item,
          QueueBuffer.toList, hused, List.map_append, List.map_append, List.map_cons, hi,
          List.erase_append_right _ hno', List.erase_cons_head]
      · have hnext : m.getNext = some (l.head?, { m with iterator := l.head? }) := by
          rw [LinkedQueue.getNext, hiter, Option.map_some, hm.next_eq hused]
        obtain ⟨m', q', hrun, href', htoList⟩ := ih (l₁ ++ [i]) fuel
          { m with iterator := l.head? }
          ⟨hm.capacity, hm.queueSize, hm.used, hm.unused, hm.data⟩ (by simpa using hused)
          (by simpa [or_imp, forall_and] using ⟨hno, hi⟩) (by simpa using hfuel) rfl
        refine ⟨m', q', ?_, href', htoList⟩
        rw [if_neg hi, hnext]
        exact hrun
  obtain ⟨m', q', hrun, href', htoList⟩ := hloop q.used [] x.unackedNs.capacity
    x.unackedNs.begin.2 ⟨href.capacity, href.queueSize, href.used, href.unused, href.data⟩ rfl
    (by simp) href.length_used_le href.used.head_eq
  refine ⟨{ x with unackedNs := m' }, ?_, rfl, ?_, h.timesSent, h.dataLen, h.p⟩
  · rw [← href.used.head_eq] at hrun
    rw [LinkedPacket.neighborAcked]
    change Option.map _ (ackedFrom addr x.unackedNs.capacity x.unackedNs.usedHead _) = _
    rw [hrun, Option.map_some]
  · exact ⟨k, hk, q', href', by rw [htoList, hlist]; rfl⟩

theorem numUnackedNeighbors (h : x.Shows bp) :
    x.numUnackedNeighbors.toNat = bp.unackedNs.addrs.length := by
  obtain ⟨k, -, q, href, hlist⟩ := h.unackedNs
  rw [← hlist, QueueBuffer.length_toList]
  exact href.queueSize

theorem allNeighborsAcked (h : x.Shows bp) : x.allNeighborsAcked = bp.allNeighborsAcked := by
  have hnum := h.numUnackedNeighbors
  have hzero : x.numUnackedNeighbors = 0 ↔ bp.unackedNs.addrs = [] := by
    rw [← UInt8.toNat_inj, hnum]
    exact List.length_eq_zero_iff
  rw [Bool.eq_iff_iff, LinkedPacket.allNeighborsAcked, BufferedPacket.allNeighborsAcked,
    beq_iff_eq, List.isEmpty_iff]
  exact hzero

theorem unackedNeighbors (h : x.Shows bp) : x.unackedNeighbors = some bp.unackedNs.addrs := by
  obtain ⟨k, -, q, href, hlist⟩ := h.unackedNs
  rw [LinkedPacket.unackedNeighbors, href.visit, Option.map_some, href.data, ← hlist]
  rfl

theorem incrementTimesSent (h : x.Shows bp) : x.incrementTimesSent.Shows bp.incrementTimesSent :=
  ⟨h.unackedNs, by rw [LinkedPacket.incrementTimesSent, h.timesSent]; rfl, h.dataLen, h.p⟩

end Shows

end LinkedPacket

/-! ### Lists of slots in use -/

/-- The lists keep apart slots that are in use. -/
structure Apart (used : List ℕ) (heads : MsgType → List ℕ) : Prop where
  nodup : ∀ t, (heads t).Nodup
  mem_used : ∀ t, ∀ i ∈ heads t, i ∈ used
  unique : ∀ t t' i, i ∈ heads t → i ∈ heads t' → t = t'

namespace Apart

variable {used used' : List ℕ} {heads : MsgType → List ℕ} {t : MsgType} {b i : ℕ}

theorem nil : Apart used fun _ => [] := ⟨by simp, by simp, by simp⟩

theorem add (h : Apart used heads) (hb : b ∉ used) :
    Apart (b :: used) (addTail heads t b) where
  nodup := by
    intro t'
    by_cases ht : t' = t
    · subst ht
      rw [addTail_self]
      exact (h.nodup t').append (List.nodup_singleton b)
        (List.disjoint_singleton.mpr fun hmem => hb (h.mem_used t' b hmem))
    · rw [addTail_of_ne ht]
      exact h.nodup t'
  mem_used := by
    intro t' j hj
    rcases mem_addTail.mp hj with hj | ⟨-, rfl⟩
    · exact List.mem_cons_of_mem _ (h.mem_used t' j hj)
    · exact List.mem_cons_self
  unique := by
    intro t₁ t₂ j h₁ h₂
    have hfresh : ∀ t, b ∉ heads t := fun t ht => hb (h.mem_used t b ht)
    rw [mem_addTail] at h₁ h₂
    rcases h₁ with h₁ | ⟨rfl, rfl⟩ <;> rcases h₂ with h₂ | ⟨rfl, hj⟩
    · exact h.unique t₁ t₂ j h₁ h₂
    · exact absurd (hj ▸ h₁) (hfresh t₁)
    · exact absurd h₂ (hfresh t₂)
    · rfl

/-- Slots taken off one list. -/
theorem shorten {l : List ℕ} (h : Apart used heads) (hsub : l.Sublist (heads t))
    (hmem : ∀ j ∈ used, (j ∈ heads t → j ∈ l) → j ∈ used') :
    Apart used' (Function.update heads t l) := by
  have hle : ∀ t' j, j ∈ Function.update heads t l t' → j ∈ heads t' := by
    intro t' j hj
    by_cases ht : t' = t
    · subst ht
      rw [Function.update_self] at hj
      exact hsub.subset hj
    · rwa [Function.update_of_ne ht] at hj
  refine ⟨fun t' => ?_, fun t' j hj => hmem j (h.mem_used t' j (hle t' j hj)) fun hjt => ?_,
    fun t₁ t₂ j h₁ h₂ => h.unique _ _ j (hle _ _ h₁) (hle _ _ h₂)⟩
  · by_cases ht : t' = t
    · subst ht
      rw [Function.update_self]
      exact (h.nodup t').sublist hsub
    · rw [Function.update_of_ne ht]
      exact h.nodup t'
  · have ht := h.unique t' t j (hle t' j hj) hjt
    subst ht
    rwa [Function.update_self] at hj

end Apart

/-- The slots in use are shared out between the lists. -/
structure SharedOut (used : List ℕ) (heads : MsgType → List ℕ) : Prop where
  nodup : ∀ t, (heads t).Nodup
  mem : ∀ i, i ∈ used ↔ ∃ t, i ∈ heads t
  unique : ∀ t t' i, i ∈ heads t → i ∈ heads t' → t = t'

namespace SharedOut

variable {used used' : List ℕ} {heads : MsgType → List ℕ} {t : MsgType} {b i : ℕ}

theorem nil : SharedOut [] fun _ => [] := ⟨by simp, by simp, by simp⟩

theorem apart (h : SharedOut used heads) : Apart used heads :=
  ⟨h.nodup, fun t i hi => (h.mem i).mpr ⟨t, hi⟩, h.unique⟩

/-- Every slot in use is on one list, once. -/
theorem perm (h : SharedOut used heads) (hused : used.Nodup) :
    used.Perm (MsgType.all.flatMap heads) := by
  have hall : (MsgType.all.flatMap heads).Nodup := by
    refine List.nodup_flatMap.mpr ⟨fun t _ => h.nodup t, ?_⟩
    have hne : MsgType.all.Pairwise (· ≠ ·) := by decide
    exact hne.imp fun htt' i hi hi' => htt' (h.unique _ _ i hi hi')
  refine (List.perm_ext_iff_of_nodup hused hall).mpr fun i => ?_
  simp [h.mem]

theorem add (h : SharedOut used heads) (hb : b ∉ used) :
    SharedOut (b :: used) (addTail heads t b) where
  nodup := (h.apart.add hb).nodup
  mem := by
    intro j
    simp only [List.mem_cons, h.mem, mem_addTail, exists_or]
    rw [or_comm]
    simp
  unique := (h.apart.add hb).unique

/-- Slots taken off one list and out of use. -/
theorem shorten {l : List ℕ} (h : SharedOut used heads) (hsub : l.Sublist (heads t))
    (hmem : ∀ j, j ∈ used' ↔ j ∈ used ∧ (j ∈ heads t → j ∈ l)) :
    SharedOut used' (Function.update heads t l) := by
  have hapart : Apart used' (Function.update heads t l) :=
    h.apart.shorten hsub fun j hj hstay => (hmem j).mpr ⟨hj, hstay⟩
  refine ⟨hapart.nodup, fun j => ⟨fun hj => ?_, fun ⟨t', hj⟩ => hapart.mem_used t' j hj⟩,
    hapart.unique⟩
  obtain ⟨hused, hstay⟩ := (hmem j).mp hj
  obtain ⟨t', hj⟩ := (h.mem j).mp hused
  by_cases ht : t' = t
  · subst ht
    exact ⟨t', by rw [Function.update_self]; exact hstay hj⟩
  · exact ⟨t', by rw [Function.update_of_ne ht]; exact hj⟩

end SharedOut

/-! ### The lists of packets -/

namespace LinkedPackets

/-- The memory holds, in slots that are in use in `q`, the lists `heads` of packets; the packet
in slot `i` is `content i`, whether the slot is in use or not. -/
structure HoldsLists {n : ℕ} (m : LinkedPackets) (q : QueueBuffer LinkedPacket n)
    (heads : MsgType → List ℕ) (content : ℕ → BufferedPacket) : Prop where
  pool : m.buffer.Refines q
  lists : ∀ t, LinkedFrom m.link (m.prioHeads t) (heads t)
  apart : Apart q.used heads
  shows : ∀ i, (m.item i).Shows (content i)

/-- The memory holds, in the slots in use of `q`, the lists `heads` of packets; the packet in
slot `i` is `content i`, whether the slot is in use or not. -/
structure Refines {n : ℕ} (m : LinkedPackets) (q : QueueBuffer LinkedPacket n)
    (heads : MsgType → List ℕ) (content : ℕ → BufferedPacket) : Prop where
  pool : m.buffer.Refines q
  lists : ∀ t, LinkedFrom m.link (m.prioHeads t) (heads t)
  shared : SharedOut q.used heads
  shows : ∀ i, (m.item i).Shows (content i)

section Lists

variable {n : ℕ} {m : LinkedPackets} {q : QueueBuffer LinkedPacket n} {heads : MsgType → List ℕ}
  {content : ℕ → BufferedPacket} {t : MsgType} {i : ℕ}

namespace HoldsLists

theorem length_le (h : m.HoldsLists q heads content) (t : MsgType) :
    (heads t).length ≤ m.buffer.capacity := by
  have hsub : (heads t).Subperm q.used :=
    List.subperm_of_subset (h.apart.nodup t) fun i hi => h.apart.mem_used t i hi
  exact hsub.length_le.trans h.pool.length_used_le

theorem mem_used (h : m.HoldsLists q heads content) (hi : i ∈ heads t) : i ∈ q.used :=
  h.apart.mem_used t i hi

/-- A packet changed in its slot, its link kept. -/
theorem write (h : m.HoldsLists q heads content) {x : LinkedPacket} {bp : BufferedPacket}
    (hnext : x.next = (m.item i).next) (hx : x.Shows bp) :
    (m.write i x).HoldsLists (q.set i x) heads (Function.update content i bp) where
  pool := h.pool.write i x
  lists := by
    intro t
    refine (h.lists t).congr fun j _ => ?_
    change (Function.update m.buffer.data i x j).next = (m.item j).next
    by_cases hj : j = i
    · subst hj
      rw [Function.update_self, hnext]
    · rw [Function.update_of_ne hj]
      rfl
  apart := h.apart
  shows := by
    intro j
    change (Function.update m.buffer.data i x j).Shows _
    by_cases hj : j = i
    · subst hj
      rw [Function.update_self, Function.update_self]
      exact hx
    · rw [Function.update_of_ne hj, Function.update_of_ne hj]
      exact h.shows j

/-- A change of the packet in slot `i` that what it stands for undergoes, too. -/
theorem onPacket (h : m.HoldsLists q heads content) {f : LinkedPacket → Option LinkedPacket}
    {bp : BufferedPacket}
    (hf : ∃ x, f (m.item i) = some x ∧ x.next = (m.item i).next ∧ x.Shows bp) :
    ∃ m' q', m.onPacket i f = some m' ∧
      m'.HoldsLists (n := n) q' heads (Function.update content i bp) := by
  obtain ⟨x, hx, hnext, hshows⟩ := hf
  exact ⟨_, _, by rw [LinkedPackets.onPacket, hx, Option.map_some], h.write hnext hshows⟩

/-! ### Enqueuing -/

/-- `allocate_buffered_packet`, when there is a slot. -/
theorem allocate (h : m.HoldsLists q heads content) (t : MsgType) (hroom : q.unused ≠ []) :
    ∃ s m' q', m.allocateBufferedPacket t = some (s, m') ∧ s ∉ q.used ∧
      q.unused = s :: q'.unused ∧ q'.used = s :: q.used ∧
      m'.HoldsLists (n := n) q' (addTail heads t s) content := by
  rcases h.pool.allocFront with ⟨hnil, -⟩ | ⟨s, q₁, buffer, hq, hs, hused, hitem, halloc, href⟩
  · exact absurd hnil hroom
  have hunused : q.unused = s :: q₁.unused := by
    obtain ⟨b, rest, hb⟩ := List.exists_cons_of_ne_nil hroom
    obtain ⟨q₂, hq₂, -, hrest, -⟩ := QueueBuffer.allocFront_of_cons hb
    cases hq.symm.trans hq₂
    rw [hb, hrest]
  have hfresh : s ∉ q.used := q.disjoint hs
  have hnot : ∀ t', s ∉ heads t' := fun t' hmem => hfresh (h.mem_used hmem)
  let m₁ : LinkedPackets := { m with buffer := buffer }
  have hdata : buffer.data = m.buffer.data := href.data.trans (hitem.trans h.pool.data.symm)
  -- taking a slot from the pool moves no packet of a list
  have hlink : m₁.link = m.link := by
    funext i
    change (buffer.data i).next = (m.buffer.data i).next
    rw [hdata]
  have hlist : LinkedFrom m₁.link (m.prioHeads t) (heads t) := hlink ▸ h.lists t
  have hlen : (heads t).length ≤ buffer.capacity :=
    (h.length_le t).trans_eq (h.pool.capacity.trans href.capacity.symm)
  obtain ⟨head', next', hadd, hlinked, hoff⟩ := hlist.linkLast (hnot t) hlen
  have htail : addBufferedPacketTail t s m₁ = some ((m₁.setLinks next').setHead t head') := by
    rw [addBufferedPacketTail]
    change Option.map _ (linkLast buffer.capacity (m.prioHeads t) s m₁.link) = _
    rw [hadd, Option.map_some]
  refine ⟨s, (m₁.setLinks next').setHead t head',
    { q₁ with item := fun i => { m.item i with next := next' i } }, ?_, hfresh, hunused, hused,
    ?_, ?_, ?_, ?_⟩
  · rw [allocateBufferedPacket, halloc, Option.bind_some]
    change Option.map _ (addBufferedPacketTail t s m₁) = _
    rw [htail, Option.map_some]
  · refine ⟨href.capacity, href.queueSize, href.used, href.unused, ?_⟩
    funext i
    change ({ buffer.data i with next := next' i } : LinkedPacket) = _
    rw [hdata]
    rfl
  · intro t'
    change LinkedFrom next' (Function.update m.prioHeads t head' t') _
    -- linking at the end of one list writes a cell of that list, and no two lists share a cell
    by_cases ht : t' = t
    · subst ht
      rw [Function.update_self, addTail_self]
      exact hlinked
    · rw [Function.update_of_ne ht, addTail_of_ne ht]
      refine (h.lists t').congr fun j hj => (hoff j fun hmem => ?_).trans (congrFun hlink j)
      rcases List.mem_cons.mp hmem with rfl | hmem
      · exact hnot t' hj
      · exact ht (h.apart.unique t' t j hj hmem)
  · change Apart q₁.used _
    rw [hused]
    exact h.apart.add hfresh
  · intro i
    obtain ⟨hunacked, htimes, hlen, hp⟩ := h.shows i
    change LinkedPacket.Shows { buffer.data i with next := next' i } _
    rw [hdata]
    exact ⟨hunacked, htimes, hlen, hp⟩

/-- **What an enqueued packet changes**: it comes last on its list, in a slot that was not in
use. -/
theorem put (h : m.HoldsLists q heads content) {hdrSize : ℕ} (hdr : Header) (fields : List UInt8)
    {data : List UInt8} (ns : Option NeighborSet) (t : MsgType) (hroom : q.unused ≠ [])
    (hlen : hdrSize + data.length < maxPacketSize) :
    ∃ s m' q', m.put hdrSize hdr fields data ns t = some (s, m') ∧ s ∉ q.used ∧
      q.unused = s :: q'.unused ∧ q'.used = s :: q.used ∧
      m'.HoldsLists (n := n) q' (addTail heads t s) (Function.update content s
        (PacketBuffer.written hdr fields data ns (content s))) := by
  obtain ⟨s, m₁, q₁, halloc, hfresh, hunused, hused, href⟩ := h.allocate t hroom
  obtain ⟨x, hx, hnext, hshows⟩ := (href.shows s).setNeighbors ns
  let x' : LinkedPacket := { x with
    timesSent := 0
    dataLen := UInt8.ofNat data.length
    p := ⟨hdr, memWrite (fields ++ data) x.p.data⟩ }
  have hwritten : x'.Shows (PacketBuffer.written hdr fields data ns (content s)) :=
    ⟨hshows.unackedNs, rfl, rfl, by change Packet.mk _ _ = _; rw [hshows.p]; rfl⟩
  refine ⟨s, m₁.write s x', q₁.set s x', ?_, hfresh, hunused, hused, href.write hnext hwritten⟩
  rw [LinkedPackets.put, halloc, Option.bind_some]
  change Option.bind (LinkedPacket.setNeighbors ns (m₁.item s)) _ = _
  rw [hx, Option.bind_some, if_pos hlen]

/-! ### Looking up -/

/-- `packet_buffer_get_first_packet_from_type`. -/
theorem getFirstPacketFromType (h : m.HoldsLists q heads content) (t : MsgType) :
    m.getFirstPacketFromType t = (heads t).head? := (h.lists t).head_eq

/-- `packet_buffer_find_buffered_packet`: the first packet the comparer accepts, over the
types in their order and over the packets of a type from the oldest on. -/
theorem find (h : m.HoldsLists q heads content) (comparer : Packet → Bool) :
    m.findBufferedPacket comparer =
      some ((MsgType.all.flatMap heads).find? fun i => comparer (content i).p) := by
  have hloop : ∀ types : List MsgType, m.findIn comparer types =
      some ((types.flatMap heads).find? fun i => comparer (content i).p) := by
    intro types
    induction types with
    | nil => rfl
    | cons t types ih =>
      have hsame : (fun i => comparer (m.item i).p) = fun i => comparer (content i).p := by
        funext i
        rw [(h.shows i).p]
      rw [findIn, hsame, findFrom_eq (h.length_le t) (h.lists t), Option.bind_some,
        List.flatMap_cons, List.find?_append]
      cases (heads t).find? fun i => comparer (content i).p with
      | none => exact ih
      | some i => rfl
  exact hloop MsgType.all

/-! ### Removing -/

/-- **`packet_buffer_free` takes the packet off its list** and leaves all others in place. -/
theorem free (h : m.HoldsLists q heads content) {l₁ l₂ : List ℕ} (hi : heads t = l₁ ++ i :: l₂) :
    ∃ m' q', m.free i = some m' ∧ q'.used = (q.free i).used ∧ q'.unused = (q.free i).unused ∧
      m'.HoldsLists (n := n) q' (Function.update heads t (l₁ ++ l₂)) content := by
  have hnodup := h.apart.nodup t
  rw [hi] at hnodup
  have hmem : i ∈ heads t := by simp [hi]
  have hi₁ : i ∉ l₁ := fun hmem =>
    (List.nodup_append.mp hnodup).2.2 i hmem i List.mem_cons_self rfl
  have hi₂ : i ∉ l₂ := (List.nodup_cons.mp (List.nodup_append.mp hnodup).2.1).1
  have hlist := h.lists t
  rw [hi] at hlist
  obtain ⟨hlinked, hoff⟩ := hlist.unlink
  let u := unlink (m.prioHeads t) l₁.getLast? i m.link
  let m₁ : LinkedPackets := (m.setLinks u.2).setHead t u.1
  have hpool : m₁.buffer.Refines { q with item := fun j => { m.item j with next := u.2 j } } :=
    ⟨h.pool.capacity, h.pool.queueSize, h.pool.used, h.pool.unused, rfl⟩
  obtain ⟨lu₁, lu₂, hused⟩ := List.append_of_mem (h.mem_used hmem)
  obtain ⟨buffer, hfree, href⟩ := hpool.free hused
  have hdata : buffer.data = fun j => { m.item j with next := u.2 j } :=
    href.data.trans (QueueBuffer.free_item _ i)
  have hhere : findTwoFrom m.link (· == i) m.buffer.capacity none (m.prioHeads t) =
      some (some (l₁.getLast?, i)) := by
    have hlen := h.length_le t
    rw [hi, List.length_append, List.length_cons] at hlen
    have hno : ∀ j ∈ l₁, (j == i) = false := fun j hj => by
      rw [beq_eq_false_iff_ne]
      exact ne_of_mem_of_not_mem hj hi₁
    rw [findTwoFrom_eq (by omega) hno (beq_self_eq_true i) hlist, Option.or_none]
  -- the search ends at the list of the packet: no list before it has the packet
  have hloop : ∀ types : List MsgType, t ∈ types →
      m.freeIn i types = some { m₁ with buffer := buffer } := by
    intro types
    induction types with
    | nil => exact fun ht => absurd ht List.not_mem_nil
    | cons t' types ih =>
      intro ht
      by_cases htt : t' = t
      · subst htt
        rw [freeIn, hhere, Option.bind_some]
        change Option.map _ (m₁.buffer.free i) = _
        rw [hfree, Option.map_some]
      · have hno : ∀ j ∈ heads t', (j == i) = false := fun j hj => by
          rw [beq_eq_false_iff_ne]
          rintro rfl
          exact htt (h.apart.unique t' t j hj hmem)
        rw [freeIn, findTwoFrom_eq_none (h.length_le t') hno (h.lists t'), Option.bind_some]
        exact ih ((List.mem_cons.mp ht).resolve_left (Ne.symm htt))
  obtain ⟨husedL, hunusedL⟩ := QueueBuffer.free_of_append
    (q := { q with item := fun j => { m.item j with next := u.2 j } }) hused
  obtain ⟨husedQ, hunusedQ⟩ := QueueBuffer.free_of_append hused
  refine ⟨{ m₁ with buffer := buffer }, _, hloop _ (MsgType.mem_all t),
    husedL.trans husedQ.symm, hunusedL.trans hunusedQ.symm, href,
    fun t' => ?_, h.apart.shorten (l := l₁ ++ l₂) ?_ fun j hj hstay => ?_, fun j => ?_⟩
  · change LinkedFrom (fun j => (buffer.data j).next) (Function.update m.prioHeads t u.1 t') _
    rw [hdata]
    by_cases ht : t' = t
    · subst ht
      rw [Function.update_self, Function.update_self]
      exact hlinked
    · rw [Function.update_of_ne ht, Function.update_of_ne ht]
      refine (h.lists t').congr fun j hj => hoff j fun hmem' => ht ?_
      exact h.apart.unique t' t j hj (by rw [hi]; exact List.mem_append_left _ hmem')
  · rw [hi]
    exact (List.Sublist.refl l₁).append (List.sublist_cons_self i l₂)
  · refine QueueBuffer.mem_free.mpr ⟨hj, ?_⟩
    rintro rfl
    exact (List.mem_append.mp (hstay hmem)).elim hi₁ hi₂
  · change LinkedPacket.Shows (buffer.data j) _
    rw [hdata]
    obtain ⟨hunacked, htimes, hlen, hp⟩ := h.shows j
    exact ⟨hunacked, htimes, hlen, hp⟩

/-- The loop of `packet_buffer_clear_priority` takes the slots out of use. -/
theorem clearFrom {link : ℕ → Option ℕ} : ∀ {l : List ℕ} {fuel : ℕ} {head : Option ℕ}
    {m : LinkedPackets} {q : QueueBuffer LinkedPacket n}, l.length ≤ fuel →
    m.link = link → LinkedFrom link head l → l.Nodup → (∀ j ∈ l, j ∈ q.used) →
    m.buffer.Refines q → ∃ buffer, ∃ q' : QueueBuffer LinkedPacket n,
      clearFrom fuel head m = some { m with buffer := buffer } ∧ buffer.Refines q' ∧
      buffer.data = m.buffer.data ∧ ∀ j, j ∈ q'.used ↔ j ∈ q.used ∧ j ∉ l := by
  intro l
  induction l with
  | nil =>
    intro fuel head m q _ _ hlist _ _ h
    rw [segment_nil.mp hlist]
    refine ⟨m.buffer, q, ?_, h, rfl, by simp⟩
    cases fuel <;> rfl
  | cons i l ih =>
    intro fuel head m q hfuel hlink hlist hnodup hsub h
    obtain ⟨fuel, rfl⟩ : ∃ k, fuel = k + 1 := ⟨fuel - 1, by simp at hfuel; omega⟩
    obtain ⟨hi, hnodup⟩ := List.nodup_cons.mp hnodup
    obtain ⟨l₁, l₂, hused⟩ := List.append_of_mem (hsub i List.mem_cons_self)
    obtain ⟨buffer, hfree, href⟩ := h.free hused
    have hdata : buffer.data = m.buffer.data :=
      href.data.trans ((QueueBuffer.free_item q i).trans h.data.symm)
    have hlink' : LinkedPackets.link { m with buffer := buffer } = link := by
      rw [← hlink]
      funext j
      change (buffer.data j).next = (m.buffer.data j).next
      rw [hdata]
    obtain ⟨buffer', q', hrun, href', hdata', hmem⟩ := ih (by simpa using hfuel) hlink' hlist.2
      hnodup (fun j hj => QueueBuffer.mem_free.mpr
        ⟨hsub j (List.mem_cons_of_mem _ hj), ne_of_mem_of_not_mem hj hi⟩) href
    refine ⟨buffer', q', ?_, href', hdata'.trans hdata, fun j => ?_⟩
    · rw [hlist.1, LinkedPackets.clearFrom, hfree, Option.bind_some, hlink]
      exact hrun
    · rw [hmem, QueueBuffer.mem_free, List.mem_cons, not_or, and_assoc]

/-- **`packet_buffer_clear_priority` removes all packets of the type**, and no other. -/
theorem clearPriority (h : m.HoldsLists q heads content) (t : MsgType) :
    ∃ m' q', m.clearPriority t = some m' ∧ (∀ j, j ∈ q'.used ↔ j ∈ q.used ∧ j ∉ heads t) ∧
      m'.HoldsLists (n := n) q' (Function.update heads t []) content := by
  obtain ⟨buffer, q', hrun, href, hdata, hmem⟩ := clearFrom (h.length_le t) rfl (h.lists t)
    (h.apart.nodup t) (fun j hj => h.mem_used hj) h.pool
  have hlink : (setHead t none { m with buffer := buffer }).link = m.link := by
    funext j
    change (buffer.data j).next = (m.buffer.data j).next
    rw [hdata]
  refine ⟨setHead t none { m with buffer := buffer }, q', ?_, hmem, href, fun t' => ?_,
    h.apart.shorten (List.nil_sublist _) fun j hj hstay => ?_, fun j => ?_⟩
  · rw [LinkedPackets.clearPriority, hrun, Option.map_some]
  · rw [hlink]
    change LinkedFrom m.link (Function.update m.prioHeads t none t') _
    by_cases ht : t' = t
    · subst ht
      rw [Function.update_self, Function.update_self]
      rfl
    · rw [Function.update_of_ne ht, Function.update_of_ne ht]
      exact h.lists t'
  · exact (hmem j).mpr ⟨hj, fun hjt => List.not_mem_nil (hstay hjt)⟩
  · change LinkedPacket.Shows (buffer.data j) _
    rw [hdata]
    exact h.shows j

end HoldsLists

namespace Refines

theorem holdsLists (h : m.Refines q heads content) : m.HoldsLists q heads content :=
  ⟨h.pool, h.lists, h.shared.apart, h.shows⟩

/-- Lists that share the slots in use out. -/
theorem of_holdsLists (h : m.HoldsLists q heads content) (hshared : SharedOut q.used heads) :
    m.Refines q heads content := ⟨h.pool, h.lists, hshared, h.shows⟩

theorem mem_used (h : m.Refines q heads content) (hi : i ∈ heads t) : i ∈ q.used :=
  h.holdsLists.mem_used hi

/-- A packet changed in its slot, its link kept. -/
theorem write (h : m.Refines q heads content) {x : LinkedPacket} {bp : BufferedPacket}
    (hnext : x.next = (m.item i).next) (hx : x.Shows bp) :
    (m.write i x).Refines (q.set i x) heads (Function.update content i bp) :=
  of_holdsLists (h.holdsLists.write hnext hx) h.shared

/-- A change of the packet in slot `i` that what it stands for undergoes, too. -/
theorem onPacket (h : m.Refines q heads content) {f : LinkedPacket → Option LinkedPacket}
    {bp : BufferedPacket}
    (hf : ∃ x, f (m.item i) = some x ∧ x.next = (m.item i).next ∧ x.Shows bp) :
    ∃ m' q', m.onPacket i f = some m' ∧
      m'.Refines (n := n) q' heads (Function.update content i bp) := by
  obtain ⟨x, hx, hnext, hshows⟩ := hf
  exact ⟨_, _, by rw [LinkedPackets.onPacket, hx, Option.map_some], h.write hnext hshows⟩

/-- **What an enqueued packet changes**: it comes last on its list, in a slot that was not in
use. -/
theorem put (h : m.Refines q heads content) {hdrSize : ℕ} (hdr : Header) (fields : List UInt8)
    {data : List UInt8} (ns : Option NeighborSet) (t : MsgType) (hroom : q.unused ≠ [])
    (hlen : hdrSize + data.length < maxPacketSize) :
    ∃ s m' q', m.put hdrSize hdr fields data ns t = some (s, m') ∧ s ∉ q.used ∧
      q.unused = s :: q'.unused ∧ q'.used = s :: q.used ∧
      m'.Refines (n := n) q' (addTail heads t s) (Function.update content s
        (PacketBuffer.written hdr fields data ns (content s))) := by
  obtain ⟨s, m', q', hrun, hfresh, hunused, hused, hlists⟩ :=
    h.holdsLists.put hdr fields ns t hroom hlen
  refine ⟨s, m', q', hrun, hfresh, hunused, hused, of_holdsLists hlists ?_⟩
  rw [hused]
  exact h.shared.add hfresh

/-- `packet_buffer_get_first_packet_from_type`. -/
theorem getFirstPacketFromType (h : m.Refines q heads content) (t : MsgType) :
    m.getFirstPacketFromType t = (heads t).head? := h.holdsLists.getFirstPacketFromType t

/-- `packet_buffer_find_buffered_packet`: the first packet the comparer accepts, over the
types in their order and over the packets of a type from the oldest on. -/
theorem find (h : m.Refines q heads content) (comparer : Packet → Bool) :
    m.findBufferedPacket comparer =
      some ((MsgType.all.flatMap heads).find? fun i => comparer (content i).p) :=
  h.holdsLists.find comparer

/-- **`packet_buffer_free` takes the packet off its list** and leaves all others in place. -/
theorem free (h : m.Refines q heads content) {l₁ l₂ : List ℕ} (hi : heads t = l₁ ++ i :: l₂) :
    ∃ m' q', m.free i = some m' ∧ q'.used = (q.free i).used ∧ q'.unused = (q.free i).unused ∧
      m'.Refines (n := n) q' (Function.update heads t (l₁ ++ l₂)) content := by
  obtain ⟨m', q', hrun, hused, hunused, hlists⟩ := h.holdsLists.free hi
  have hnodup := h.shared.nodup t
  rw [hi] at hnodup
  have hnot : i ∉ l₁ ++ l₂ := (List.nodup_middle.mp hnodup).notMem
  refine ⟨m', q', hrun, hused, hunused, of_holdsLists hlists (h.shared.shorten ?_ fun j => ?_)⟩
  · rw [hi]
    exact (List.Sublist.refl l₁).append (List.sublist_cons_self i l₂)
  · rw [hused, QueueBuffer.mem_free, hi]
    refine and_congr_right fun _ => ⟨fun hne hj => ?_, fun hstay => ?_⟩
    · simpa [hne] using hj
    · rintro rfl
      exact hnot (hstay (by simp))

/-- **`packet_buffer_clear_priority` removes all packets of the type**, and no other. -/
theorem clearPriority (h : m.Refines q heads content) (t : MsgType) :
    ∃ m' q', m.clearPriority t = some m' ∧
      m'.Refines (n := n) q' (Function.update heads t []) content := by
  obtain ⟨m', q', hrun, hmem, hlists⟩ := h.holdsLists.clearPriority t
  refine ⟨m', q', hrun, of_holdsLists hlists (h.shared.shorten (List.nil_sublist _) fun j => ?_)⟩
  rw [hmem]
  simp

/-- `packet_buffer_has_room_for_packets`. -/
theorem hasRoomForPackets (h : m.Refines q heads content) (numPackets : UInt8) :
    m.hasRoomForPackets numPackets = true ↔
      (MsgType.all.flatMap heads).length + numPackets.toNat ≤ n := by
  rw [LinkedPackets.hasRoomForPackets, decide_eq_true_iff, h.pool.queueSize,
    (h.shared.perm q.used_nodup).length_eq]
  change _ ≤ m.buffer.capacity ↔ _
  rw [h.pool.capacity]

/-- There is a slot not in use exactly when there are fewer packets than slots. -/
theorem unused_ne_nil (h : m.Refines q heads content) :
    q.unused ≠ [] ↔ (MsgType.all.flatMap heads).length < n := by
  have hlen := q.length_used_add_length_unused
  rw [(h.shared.perm q.used_nodup).length_eq] at hlen
  rw [← List.length_pos_iff]
  omega

end Refines

/-! ### Initialising -/

/-- `PACKET_BUFFER_INIT_WITH_STRUCT` makes an empty buffer of any memory whose slots stand
for packets. -/
theorem refines_initWithStruct (numPackets : UInt8) (h : ∀ i, (m.item i).Shows (content i)) :
    ∃ m' q', m.initWithStruct numPackets = some m' ∧
      m'.Refines (n := numPackets.toNat) q' (fun _ => []) content := by
  obtain ⟨buffer, hinit, href, -⟩ := LinkedQueue.refines_init numPackets m.buffer
  refine ⟨init { m with buffer := buffer }, _, ?_, href, fun _ => rfl, SharedOut.nil, fun i => ?_⟩
  · rw [initWithStruct, hinit, Option.map_some]
  · change LinkedPacket.Shows (buffer.data i) _
    rw [href.data]
    exact h i

/-- `packet_buffer_init` of a buffer none of whose slots is in use leaves it empty. -/
theorem Refines.init (h : m.Refines q heads content) (hempty : ∀ t, heads t = []) :
    m.init.Refines q (fun _ => []) content := by
  have hheads : heads = fun _ => [] := funext hempty
  refine ⟨h.pool, fun _ => rfl, ?_, h.shows⟩
  rw [← hheads]
  exact h.shared

end Lists

/-! ### The buffer of a connection -/

/-- The memory of the twelve slots of a connection is the list-level buffer `pb`. -/
def Represents (m : LinkedPackets) (pb : PacketBuffer) : Prop :=
  ∃ q : QueueBuffer LinkedPacket sendingQueueLength, m.Refines q pb.prioHeads pb.item ∧
    q.used = pb.buffer.used ∧ q.unused = pb.buffer.unused

namespace Represents

variable {m : LinkedPackets} {pb pb' : PacketBuffer} {i : ℕ} {t : MsgType}

theorem getFirstPacketFromType (h : m.Represents pb) :
    m.getFirstPacketFromType t = pb.first t := by
  obtain ⟨q, href, -⟩ := h
  exact href.getFirstPacketFromType t

theorem find (h : m.Represents pb) (comparer : Packet → Bool) :
    m.findBufferedPacket comparer = some (pb.find comparer) := by
  obtain ⟨q, href, -⟩ := h
  exact href.find comparer

theorem hasRoomForPackets (h : m.Represents pb) (numPackets : UInt8) :
    m.hasRoomForPackets numPackets = pb.hasRoomForPackets numPackets.toNat := by
  obtain ⟨q, href, hused, -⟩ := h
  have hlen := (href.shared.perm q.used_nodup).length_eq
  rw [Bool.eq_iff_iff, href.hasRoomForPackets, ← hlen, hused, PacketBuffer.hasRoomForPackets,
    decide_eq_true_iff]
  rfl

/-- The functions that enqueue a packet. -/
theorem put (h : m.Represents pb) {hdrSize : ℕ} {hdr : Header} {fields data : List UInt8}
    {ns : Option NeighborSet} (hput : pb.put hdrSize hdr fields data ns t = .ok (i, pb')) :
    ∃ m', m.put hdrSize hdr fields data ns t = some (i, m') ∧ m'.Represents pb' := by
  obtain ⟨q, href, hused, hunused⟩ := h
  obtain ⟨henq, hlen⟩ := PacketBuffer.put_eq_ok hput
  obtain ⟨hpbused, hpbunused⟩ := PacketBuffer.buffer_of_put hput
  have hroom : q.unused ≠ [] := by simp [hunused, hpbunused]
  obtain ⟨s, m', q', hrun, -, hq, hq', href'⟩ := href.put hdr fields ns t hroom hlen
  obtain ⟨rfl, hrest⟩ : s = i ∧ q'.unused = pb'.buffer.unused := by
    rw [hunused, hpbunused] at hq
    exact ⟨(List.cons.inj hq).1.symm, (List.cons.inj hq).2.symm⟩
  have hcontent : Function.update pb.item s (PacketBuffer.written hdr fields data ns (pb.item s)) =
      pb'.item := by
    funext j
    by_cases hj : j = s
    · rw [hj, Function.update_self, henq.item_self]
    · rw [Function.update_of_ne hj, henq.item_of_ne j hj]
  refine ⟨m', hrun, q', ?_, by rw [hq', hpbused, hused], hrest⟩
  rw [henq.prioHeads, ← hcontent]
  exact href'

/-- `packet_buffer_free` of a packet on a list. -/
theorem free (h : m.Represents pb) (hi : i ∈ pb.prioHeads t) :
    ∃ m', m.free i = some m' ∧ m'.Represents (pb.free i) := by
  obtain ⟨q, href, hused, hunused⟩ := h
  obtain ⟨l₁, l₂, hsplit⟩ := List.append_of_mem hi
  obtain ⟨m', q', hrun, hq, hq', href'⟩ := href.free hsplit
  obtain ⟨lu₁, lu₂, hmem⟩ := List.append_of_mem ((pb.mem_used i).mpr ⟨t, hi⟩)
  have hheads : Function.update pb.prioHeads t (l₁ ++ l₂) = (pb.free i).prioHeads := by
    funext t'
    rw [PacketBuffer.free_prioHeads]
    by_cases ht : t' = t
    · subst ht
      have hnodup := pb.nodup t'
      rw [hsplit] at hnodup
      have hi₁ : i ∉ l₁ := fun hmem =>
        (List.nodup_append.mp hnodup).2.2 i hmem i List.mem_cons_self rfl
      rw [Function.update_self, hsplit, List.erase_append_right _ hi₁, List.erase_cons_head]
    · rw [Function.update_of_ne ht, List.erase_of_not_mem fun hmem => ht (pb.unique t' t i hmem hi)]
  have hcontent : (pb.free i).item = pb.item := funext fun j => PacketBuffer.free_item
  refine ⟨m', hrun, q', ?_, ?_, ?_⟩
  · rw [← hheads, hcontent]
    exact href'
  · rw [hq, QueueBuffer.free_used, hused]
    exact (QueueBuffer.free_used _ _).symm
  · have hqused : q.used = lu₁ ++ i :: lu₂ := hused.trans hmem
    rw [hq', (QueueBuffer.free_of_append hqused).2, hunused]
    exact (QueueBuffer.free_of_append hmem).2.symm

/-- A change of a packet through its pointer. -/
theorem onPacket (h : m.Represents pb) {f : LinkedPacket → Option LinkedPacket}
    {g : BufferedPacket → BufferedPacket}
    (hf : ∀ x, x.Shows (pb.item i) →
      ∃ x', f x = some x' ∧ x'.next = x.next ∧ x'.Shows (g (pb.item i))) :
    ∃ m', m.onPacket i f = some m' ∧ m'.Represents (pb.modify i g) := by
  obtain ⟨q, href, hused, hunused⟩ := h
  obtain ⟨x, hx, hnext, hshows⟩ := hf (m.item i) (href.shows i)
  refine ⟨m.write i x, by rw [LinkedPackets.onPacket, hx, Option.map_some], q.set i x, ?_, hused,
    hunused⟩
  have hcontent : (pb.modify i g).item = Function.update pb.item i (g (pb.item i)) := by
    funext j
    by_cases hj : j = i
    · rw [hj, PacketBuffer.modify_item_self, Function.update_self]
    · rw [PacketBuffer.modify_item_of_ne _ hj, Function.update_of_ne hj]
  rw [PacketBuffer.modify_prioHeads, hcontent]
  exact href.write hnext hshows

end Represents

end LinkedPackets

end EmergencyNet
