import EmergencyNet.Net.LinkedPackets
import EmergencyNet.Lib.Machine

/-!
# What the packet buffer is for

The packet buffer is seven first-in first-out queues of packets that share one pool of
slots.  Here the queues and what each function does to them are stated on their own, and
the functions of `EmergencyNet.Net.LinkedPackets` are shown to do just that, in every order
of calls in which `packet_buffer_init` comes without `QUEUE_BUFFER_INIT` only while no slot
is in use.

## Main definitions

* `PacketQueues`, `PacketQueues.Step` — the queues and what the functions do to them.
* `PacketOp`, `PacketOp.run` — the functions of the packet buffer.
* `packetMachine` — all sequences of calls.
* `LinkedPackets.Holds` — the memory holds seven queues.

## Main results

* `Refines.packetStep` — every function takes its step on the queues.
* `holds_of_reachableWhen` — **in every state reached the memory holds seven queues, and
  every function takes its step on them.**
* `init_orphans` — `packet_buffer_init` in between leaves used slots on no list.
-/

namespace EmergencyNet

/-! ### The queues -/

/-- Seven queues of packets with their handles, oldest packet first. -/
structure PacketQueues where
  /-- The number of packets there is room for. -/
  cap : ℕ
  queue : MsgType → List (ℕ × BufferedPacket)

namespace PacketQueues

/-- All packets, by type and age. -/
def packets (s : PacketQueues) : List (ℕ × BufferedPacket) := MsgType.all.flatMap s.queue

/-- The number of packets: the sum of the lengths of the queues. -/
def size (s : PacketQueues) : ℕ := (MsgType.all.map fun t => (s.queue t).length).sum

/-- The queues with another one for one type. -/
def setQueue (t : MsgType) (l : List (ℕ × BufferedPacket)) (s : PacketQueues) : PacketQueues :=
  { s with queue := Function.update s.queue t l }

end PacketQueues

/-! ### The functions -/

/-- A call of a function of the packet buffer. -/
inductive PacketOp
  | init
  | initWithStruct (numPackets : UInt8)
  | packet (hdr : Header) (data : List UInt8) (ns : Option NeighborSet) (t : MsgType)
  | broadcastPacket (hdr : Header) (data : List UInt8) (ns : Option NeighborSet) (t : MsgType)
  | unicastPacket (hdr : Header) (destination : Rimeaddr) (data : List UInt8)
      (ns : Option NeighborSet) (t : MsgType)
  | hasRoomForPackets (numPackets : UInt8)
  | getFirstPacketFromType (t : MsgType)
  | findBufferedPacket (comparer : Packet → Bool)
  | clearPriority (t : MsgType)
  | free (bp : ℕ)
  | neighborAcked (bp : ℕ) (addr : Rimeaddr)
  | numUnackedNeighbors (bp : ℕ)
  | allNeighborsAcked (bp : ℕ)
  | unackedNeighbors (bp : ℕ)
  | incrementTimesSent (bp : ℕ)

/-- What a call returns. -/
inductive PacketResult
  | handle (bp : Option ℕ)
  | number (n : ℕ)
  | flag (b : Bool)
  | addrs (l : List Rimeaddr)
  | unit

/-- What a call does. -/
def PacketOp.run : PacketOp → LinkedPackets → Option (PacketResult × LinkedPackets)
  | .init, m => some (.unit, m.init)
  | .initWithStruct numPackets, m => (m.initWithStruct numPackets).map (.unit, ·)
  | .packet hdr data ns t, m => (m.packet hdr data ns t).map fun r => (.handle (some r.1), r.2)
  | .broadcastPacket hdr data ns t, m =>
    (m.broadcastPacket hdr data ns t).map fun r => (.handle (some r.1), r.2)
  | .unicastPacket hdr destination data ns t, m =>
    (m.unicastPacket hdr destination data ns t).map fun r => (.handle (some r.1), r.2)
  | .hasRoomForPackets numPackets, m => some (.flag (m.hasRoomForPackets numPackets), m)
  | .getFirstPacketFromType t, m => some (.handle (m.getFirstPacketFromType t), m)
  | .findBufferedPacket comparer, m => (m.findBufferedPacket comparer).map (.handle ·, m)
  | .clearPriority t, m => (m.clearPriority t).map (.unit, ·)
  | .free bp, m => (m.free bp).map (.unit, ·)
  | .neighborAcked bp addr, m => (m.onPacket bp (LinkedPacket.neighborAcked addr)).map (.unit, ·)
  | .numUnackedNeighbors bp, m => some (.number (m.item bp).numUnackedNeighbors.toNat, m)
  | .allNeighborsAcked bp, m => some (.flag (m.item bp).allNeighborsAcked, m)
  | .unackedNeighbors bp, m => (m.item bp).unackedNeighbors.map (.addrs ·, m)
  | .incrementTimesSent bp, m =>
    (m.onPacket bp fun x => some x.incrementTimesSent).map (.unit, ·)

namespace LinkedPackets

/-- The memory holds some lists of packets. -/
def WellFormed (m : LinkedPackets) : Prop :=
  ∃ n, ∃ q : QueueBuffer LinkedPacket n, ∃ heads content, m.Refines q heads content

/-- The packet in slot `i` is on one of the lists. -/
def Has (m : LinkedPackets) (i : ℕ) : Prop :=
  ∃ t l, LinkedFrom m.link (m.prioHeads t) l ∧ i ∈ l

/-- The calls that may be made: a packet is enqueued when there is a free slot and it
passes the assertion on its size, and only a packet on a list is freed or looked into. -/
def Allows (m : LinkedPackets) : PacketOp → Prop
  | .packet _ data _ _ | .broadcastPacket _ data _ _ =>
    m.buffer.unusedHead ≠ none ∧ broadcastPacketHdrSize + data.length < maxPacketSize
  | .unicastPacket _ _ data _ _ =>
    m.buffer.unusedHead ≠ none ∧ unicastPacketHdrSize + data.length < maxPacketSize
  | .free bp | .neighborAcked bp _ | .numUnackedNeighbors bp | .allNeighborsAcked bp
  | .unackedNeighbors bp | .incrementTimesSent bp => m.Has bp
  | _ => True

/-- The memory holds the queues of `s`: the lists of the seven types end, every slot on the
pool's used list is on exactly one of them, once, and they lead to the packets of `s`. -/
def Holds (m : LinkedPackets) (s : PacketQueues) : Prop :=
  ∃ (used : List ℕ) (heads : MsgType → List ℕ) (content : ℕ → BufferedPacket),
    LinkedFrom m.buffer.next m.buffer.usedHead used ∧ used.Nodup ∧
    (∀ t, LinkedFrom m.link (m.prioHeads t) (heads t)) ∧
    used.Perm (MsgType.all.flatMap heads) ∧ (∀ i ∈ used, (m.item i).Shows (content i)) ∧
    m.buffer.capacity = s.cap ∧ m.buffer.size.toNat = s.size ∧
    ∀ t, s.queue t = (heads t).map fun i => (i, content i)

end LinkedPackets

/-- A buffer in memory whose slots stand for packets, as zeros do, that is initialised and
then used in any way its interface allows. -/
def packetMachine : Machine LinkedPackets PacketOp where
  init m := ∃ (numPackets : UInt8) (m₀ : LinkedPackets), (∀ i, ∃ bp, (m₀.item i).Shows bp) ∧
    m₀.initWithStruct numPackets = some m
  step op m m' := m.Allows op ∧ ∃ r, op.run m = some (r, m')

/-- `packet_buffer_init` is called without `QUEUE_BUFFER_INIT` only while no slot is in
use. -/
def InitUnused (m : LinkedPackets) (op : PacketOp) : Prop :=
  op = .init → m.buffer.usedHead = none

/-! ### What the functions do to the queues -/

namespace PacketQueues

/-- `Step s op r s'`: the call `op` returns `r` and turns `s` into `s'`. -/
inductive Step : PacketQueues → PacketOp → PacketResult → PacketQueues → Prop
  | init {s : PacketQueues} (hempty : s.size = 0) : Step s .init .unit s
  | initWithStruct {s : PacketQueues} (numPackets : UInt8) :
      Step s (.initWithStruct numPackets) .unit ⟨numPackets.toNat, fun _ => []⟩
  /-- The packet comes last, in a slot that holds `old`. -/
  | packet {s : PacketQueues} {b : ℕ} {hdr : Header} {data : List UInt8}
      {ns : Option NeighborSet} {t : MsgType} (hroom : s.size < s.cap)
      (hfresh : b ∉ s.packets.map Prod.fst) (old : BufferedPacket) :
      Step s (.packet hdr data ns t) (.handle (some b))
        (s.setQueue t (s.queue t ++ [(b, PacketBuffer.written hdr [] data ns old)]))
  | broadcastPacket {s : PacketQueues} {b : ℕ} {hdr : Header} {data : List UInt8}
      {ns : Option NeighborSet} {t : MsgType} (hroom : s.size < s.cap)
      (hfresh : b ∉ s.packets.map Prod.fst) (old : BufferedPacket) :
      Step s (.broadcastPacket hdr data ns t) (.handle (some b))
        (s.setQueue t (s.queue t ++ [(b, PacketBuffer.written hdr [] data ns old)]))
  | unicastPacket {s : PacketQueues} {b : ℕ} {hdr : Header} {destination : Rimeaddr}
      {data : List UInt8} {ns : Option NeighborSet} {t : MsgType} (hroom : s.size < s.cap)
      (hfresh : b ∉ s.packets.map Prod.fst) (old : BufferedPacket) :
      Step s (.unicastPacket hdr destination data ns t) (.handle (some b))
        (s.setQueue t (s.queue t ++
          [(b, PacketBuffer.written hdr destination.bytes data ns old)]))
  | hasRoomForPackets {s : PacketQueues} (numPackets : UInt8) :
      Step s (.hasRoomForPackets numPackets) (.flag (s.size + numPackets.toNat ≤ s.cap)) s
  /-- The oldest packet of the type. -/
  | getFirstPacketFromType {s : PacketQueues} (t : MsgType) :
      Step s (.getFirstPacketFromType t) (.handle ((s.queue t).head?.map Prod.fst)) s
  /-- The first packet the comparer accepts, by type and age. -/
  | findBufferedPacket {s : PacketQueues} (comparer : Packet → Bool) :
      Step s (.findBufferedPacket comparer)
        (.handle ((s.packets.find? fun e => comparer e.2.p).map Prod.fst)) s
  | clearPriority {s : PacketQueues} (t : MsgType) :
      Step s (.clearPriority t) .unit (s.setQueue t [])
  /-- The packet leaves its queue; the others keep their order and their contents. -/
  | free {s : PacketQueues} {t : MsgType} {l₁ l₂ : List (ℕ × BufferedPacket)} {b : ℕ}
      {bp : BufferedPacket} (hb : s.queue t = l₁ ++ (b, bp) :: l₂) :
      Step s (.free b) .unit (s.setQueue t (l₁ ++ l₂))
  | neighborAcked {s : PacketQueues} {t : MsgType} {l₁ l₂ : List (ℕ × BufferedPacket)} {b : ℕ}
      {bp : BufferedPacket} (addr : Rimeaddr) (hb : s.queue t = l₁ ++ (b, bp) :: l₂) :
      Step s (.neighborAcked b addr) .unit
        (s.setQueue t (l₁ ++ (b, bp.neighborAcked addr) :: l₂))
  | numUnackedNeighbors {s : PacketQueues} {t : MsgType} {b : ℕ} {bp : BufferedPacket}
      (hb : (b, bp) ∈ s.queue t) :
      Step s (.numUnackedNeighbors b) (.number bp.unackedNs.addrs.length) s
  | allNeighborsAcked {s : PacketQueues} {t : MsgType} {b : ℕ} {bp : BufferedPacket}
      (hb : (b, bp) ∈ s.queue t) :
      Step s (.allNeighborsAcked b) (.flag bp.allNeighborsAcked) s
  | unackedNeighbors {s : PacketQueues} {t : MsgType} {b : ℕ} {bp : BufferedPacket}
      (hb : (b, bp) ∈ s.queue t) :
      Step s (.unackedNeighbors b) (.addrs bp.unackedNs.addrs) s
  | incrementTimesSent {s : PacketQueues} {t : MsgType} {l₁ l₂ : List (ℕ × BufferedPacket)}
      {b : ℕ} {bp : BufferedPacket} (hb : s.queue t = l₁ ++ (b, bp) :: l₂) :
      Step s (.incrementTimesSent b) .unit
        (s.setQueue t (l₁ ++ (b, bp.incrementTimesSent) :: l₂))

/-! ### The queues of a list-level buffer -/

/-- The queues that lists of slots and the packets in the slots make. -/
def ofLists (n : ℕ) (heads : MsgType → List ℕ) (content : ℕ → BufferedPacket) : PacketQueues :=
  ⟨n, fun t => (heads t).map fun i => (i, content i)⟩

section OfLists

variable {n : ℕ} {heads : MsgType → List ℕ} {content : ℕ → BufferedPacket} {t : MsgType}

theorem packets_ofLists : (ofLists n heads content).packets =
    (MsgType.all.flatMap heads).map fun i => (i, content i) := List.map_flatMap.symm

theorem map_fst_packets : (ofLists n heads content).packets.map Prod.fst =
    MsgType.all.flatMap heads := by
  rw [packets_ofLists, List.map_map]
  exact List.map_id _

theorem size_ofLists : (ofLists n heads content).size = (MsgType.all.flatMap heads).length := by
  rw [size, List.length_flatMap]
  refine congrArg List.sum (List.map_congr_left fun t _ => ?_)
  exact List.length_map _

theorem ofLists_update (l : List ℕ) : ofLists n (Function.update heads t l) content =
    (ofLists n heads content).setQueue t (l.map fun i => (i, content i)) := by
  refine congrArg (PacketQueues.mk n) (funext fun t' => ?_)
  by_cases ht : t' = t
  · subst ht
    rw [Function.update_self, Function.update_self]
  · rw [Function.update_of_ne ht, Function.update_of_ne ht]
    rfl

/-- Another packet in a slot that is on no list is in no queue. -/
theorem map_update_of_not_mem {l : List ℕ} {b : ℕ} (hb : b ∉ l) (bp : BufferedPacket) :
    (l.map fun i => (i, Function.update content b bp i)) = l.map fun i => (i, content i) :=
  List.map_congr_left fun i hi => by rw [Function.update_of_ne (ne_of_mem_of_not_mem hi hb)]

theorem ofLists_addTail {b : ℕ} (hb : ∀ t, b ∉ heads t) (bp : BufferedPacket) :
    ofLists n (addTail heads t b) (Function.update content b bp) =
      (ofLists n heads content).setQueue t ((ofLists n heads content).queue t ++ [(b, bp)]) := by
  refine congrArg (PacketQueues.mk n) (funext fun t' => ?_)
  by_cases ht : t' = t
  · subst ht
    rw [Function.update_self, addTail_self, List.map_append, map_update_of_not_mem (hb t'),
      List.map_singleton, Function.update_self]
    rfl
  · rw [Function.update_of_ne ht, addTail_of_ne ht, map_update_of_not_mem (hb t')]
    rfl

/-- A packet changed in its slot changes in its queue only. -/
theorem ofLists_content {used l₁ l₂ : List ℕ} {i : ℕ} (h : SharedOut used heads)
    (hi : heads t = l₁ ++ i :: l₂) (bp : BufferedPacket) :
    ofLists n heads (Function.update content i bp) =
      (ofLists n heads content).setQueue t ((l₁.map fun j => (j, content j)) ++
        (i, bp) :: l₂.map fun j => (j, content j)) := by
  refine congrArg (PacketQueues.mk n) (funext fun t' => ?_)
  by_cases ht : t' = t
  · subst ht
    have hnodup := h.nodup t'
    rw [hi] at hnodup
    have hi₁ : i ∉ l₁ := fun hmem =>
      (List.nodup_append.mp hnodup).2.2 i hmem i List.mem_cons_self rfl
    have hi₂ : i ∉ l₂ := (List.nodup_cons.mp (List.nodup_append.mp hnodup).2.1).1
    rw [Function.update_self, hi, List.map_append, List.map_cons, map_update_of_not_mem hi₁,
      map_update_of_not_mem hi₂, Function.update_self]
  · have hnot : i ∉ heads t' := fun hmem => ht (h.unique t' t i hmem (by simp [hi]))
    rw [Function.update_of_ne ht, map_update_of_not_mem hnot]
    rfl

theorem queue_ofLists_split {l₁ l₂ : List ℕ} {i : ℕ} (hi : heads t = l₁ ++ i :: l₂) :
    (ofLists n heads content).queue t = (l₁.map fun j => (j, content j)) ++
      (i, content i) :: l₂.map fun j => (j, content j) := by
  change (heads t).map _ = _
  rw [hi, List.map_append, List.map_cons]

end OfLists

end PacketQueues

/-! ### The memory and the queues -/

namespace LinkedPackets

open PacketQueues

section Steps

variable {n : ℕ} {m : LinkedPackets} {q : QueueBuffer LinkedPacket n} {heads : MsgType → List ℕ}
  {content : ℕ → BufferedPacket} {i : ℕ}

namespace Refines

theorem holds (h : m.Refines q heads content) : m.Holds (ofLists n heads content) := by
  refine ⟨q.used, heads, content, h.pool.used, q.used_nodup, h.lists, h.shared.perm q.used_nodup,
    fun i _ => h.shows i, h.pool.capacity, ?_, fun _ => rfl⟩
  rw [size_ofLists, ← (h.shared.perm q.used_nodup).length_eq]
  exact h.pool.queueSize

/-- The list of a type is the one the links lead through. -/
theorem has (h : m.Refines q heads content) (hi : m.Has i) :
    ∃ t l₁ l₂, heads t = l₁ ++ i :: l₂ := by
  obtain ⟨t, l, hl, hi⟩ := hi
  rw [hl.unique (h.lists t)] at hi
  exact ⟨t, List.append_of_mem hi⟩

theorem mem_queue {t : MsgType} {l₁ l₂ : List ℕ} (hi : heads t = l₁ ++ i :: l₂) :
    (i, content i) ∈ (ofLists n heads content).queue t := by
  rw [queue_ofLists_split hi]
  simp

/-- What enqueuing does to the queues. -/
theorem enqueue (h : m.Refines q heads content) {hdrSize : ℕ} (hdr : Header)
    (fields : List UInt8) {data : List UInt8} (ns : Option NeighborSet) (t : MsgType)
    (hroom : m.buffer.unusedHead ≠ none) (hlen : hdrSize + data.length < maxPacketSize) :
    ∃ b m' q' heads' content', m.put hdrSize hdr fields data ns t = some (b, m') ∧
      m'.Refines (n := n) q' heads' content' ∧ (ofLists n heads content).size < n ∧
      b ∉ (ofLists n heads content).packets.map Prod.fst ∧
      ofLists n heads' content' = (ofLists n heads content).setQueue t
        ((ofLists n heads content).queue t ++
          [(b, PacketBuffer.written hdr fields data ns (content b))]) := by
  have hunused : q.unused ≠ [] := fun hnil =>
    hroom (h.pool.unusedHead_eq_none.mpr hnil)
  obtain ⟨b, m', q', hrun, hfresh, -, -, href⟩ := h.put hdr fields ns t hunused hlen
  have hnot : ∀ t', b ∉ heads t' := fun t' hmem => hfresh (h.mem_used hmem)
  refine ⟨b, m', q', _, _, hrun, href, ?_, ?_, ofLists_addTail hnot _⟩
  · rw [size_ofLists]
    exact h.unused_ne_nil.mp hunused
  · rw [map_fst_packets, ← (h.shared.perm q.used_nodup).mem_iff]
    exact hfresh

/-- **Every function that may be called takes its step on the queues.** -/
theorem packetStep (h : m.Refines q heads content) {op : PacketOp} (hop : m.Allows op)
    (hinit : InitUnused m op) :
    ∃ r m' n', ∃ q' : QueueBuffer LinkedPacket n', ∃ heads' content',
      op.run m = some (r, m') ∧ m'.Refines q' heads' content' ∧
        (ofLists n heads content).Step op r (ofLists n' heads' content') := by
  cases op with
  | init =>
    -- `packet_buffer_init` leaves the pool alone, so no slot may be in use
    have hnil : q.used = [] := by
      rw [← List.head?_eq_none_iff, ← h.pool.used.head_eq]
      exact hinit rfl
    have hempty : ∀ t, heads t = [] := fun t =>
      List.eq_nil_iff_forall_not_mem.mpr fun i hi => by
        have hused := h.mem_used hi
        rw [hnil] at hused
        exact List.not_mem_nil hused
    have hheads : heads = fun _ => [] := funext hempty
    refine ⟨.unit, m.init, n, q, fun _ => [], content, rfl, h.init hempty, ?_⟩
    rw [hheads]
    exact .init (by rw [size_ofLists]; simp)
  | initWithStruct numPackets =>
    obtain ⟨m', q', hrun, href⟩ := refines_initWithStruct numPackets h.shows
    exact ⟨.unit, m', _, q', _, _, by rw [PacketOp.run, hrun]; rfl, href, .initWithStruct _⟩
  | packet hdr data ns t =>
    obtain ⟨b, m', q', heads', content', hrun, href, hroom, hfresh, heq⟩ :=
      h.enqueue hdr [] ns t hop.1 hop.2
    refine ⟨_, m', n, q', heads', content', by rw [PacketOp.run, LinkedPackets.packet, hrun]; rfl,
      href, ?_⟩
    rw [heq]
    exact .packet hroom hfresh _
  | broadcastPacket hdr data ns t =>
    obtain ⟨b, m', q', heads', content', hrun, href, hroom, hfresh, heq⟩ :=
      h.enqueue hdr [] ns t hop.1 hop.2
    refine ⟨_, m', n, q', heads', content',
      by rw [PacketOp.run, LinkedPackets.broadcastPacket, hrun]; rfl, href, ?_⟩
    rw [heq]
    exact .broadcastPacket hroom hfresh _
  | unicastPacket hdr destination data ns t =>
    obtain ⟨b, m', q', heads', content', hrun, href, hroom, hfresh, heq⟩ :=
      h.enqueue hdr destination.bytes ns t hop.1 hop.2
    refine ⟨_, m', n, q', heads', content',
      by rw [PacketOp.run, LinkedPackets.unicastPacket, hrun]; rfl, href, ?_⟩
    rw [heq]
    exact .unicastPacket hroom hfresh _
  | hasRoomForPackets numPackets =>
    refine ⟨_, m, n, q, heads, content, rfl, h, ?_⟩
    have hroom := h.hasRoomForPackets numPackets
    have hsize : (ofLists n heads content).size = (MsgType.all.flatMap heads).length := size_ofLists
    rw [← hsize] at hroom
    have hflag : m.hasRoomForPackets numPackets =
        decide ((ofLists n heads content).size + numPackets.toNat ≤ n) := by
      rw [Bool.eq_iff_iff, hroom, decide_eq_true_iff]
    rw [hflag]
    exact .hasRoomForPackets numPackets
  | getFirstPacketFromType t =>
    refine ⟨_, m, n, q, heads, content, rfl, h, ?_⟩
    have hfirst : m.getFirstPacketFromType t =
        ((ofLists n heads content).queue t).head?.map Prod.fst := by
      rw [h.getFirstPacketFromType, ofLists, List.head?_map, Option.map_map]
      exact (congrFun Option.map_id _).symm
    rw [hfirst]
    exact .getFirstPacketFromType t
  | findBufferedPacket comparer =>
    have hfind : ((MsgType.all.flatMap heads).find? fun i => comparer (content i).p) =
        ((ofLists n heads content).packets.find? fun e => comparer e.2.p).map Prod.fst := by
      rw [packets_ofLists, List.find?_map, Option.map_map]
      exact (congrFun Option.map_id _).symm
    refine ⟨_, m, n, q, heads, content, by rw [PacketOp.run, h.find]; rfl, h, ?_⟩
    rw [hfind]
    exact .findBufferedPacket comparer
  | clearPriority t =>
    obtain ⟨m', q', hrun, href⟩ := h.clearPriority t
    refine ⟨.unit, m', n, q', _, _, by rw [PacketOp.run, hrun]; rfl, href, ?_⟩
    rw [ofLists_update]
    exact .clearPriority t
  | free bp =>
    -- the packet is on exactly one list; which one does not matter to the caller
    obtain ⟨t, l₁, l₂, hi⟩ := h.has hop
    obtain ⟨m', q', hrun, -, -, href⟩ := h.free hi
    refine ⟨.unit, m', n, q', _, _, by rw [PacketOp.run, hrun]; rfl, href, ?_⟩
    rw [ofLists_update, List.map_append]
    exact .free (queue_ofLists_split hi)
  | neighborAcked bp addr =>
    obtain ⟨t, l₁, l₂, hi⟩ := h.has hop
    obtain ⟨m', q', hrun, href⟩ := h.onPacket ((h.shows bp).neighborAcked addr)
    refine ⟨.unit, m', n, q', _, _, by rw [PacketOp.run, hrun]; rfl, href, ?_⟩
    rw [ofLists_content h.shared hi]
    exact .neighborAcked addr (queue_ofLists_split hi)
  | numUnackedNeighbors bp =>
    obtain ⟨t, l₁, l₂, hi⟩ := h.has hop
    refine ⟨_, m, n, q, heads, content, rfl, h, ?_⟩
    rw [(h.shows bp).numUnackedNeighbors]
    exact .numUnackedNeighbors (mem_queue hi)
  | allNeighborsAcked bp =>
    obtain ⟨t, l₁, l₂, hi⟩ := h.has hop
    refine ⟨_, m, n, q, heads, content, rfl, h, ?_⟩
    rw [(h.shows bp).allNeighborsAcked]
    exact .allNeighborsAcked (mem_queue hi)
  | unackedNeighbors bp =>
    obtain ⟨t, l₁, l₂, hi⟩ := h.has hop
    refine ⟨_, m, n, q, heads, content, by rw [PacketOp.run, (h.shows bp).unackedNeighbors]; rfl,
      h, ?_⟩
    exact .unackedNeighbors (mem_queue hi)
  | incrementTimesSent bp =>
    obtain ⟨t, l₁, l₂, hi⟩ := h.has hop
    obtain ⟨m', q', hrun, href⟩ := h.onPacket (f := fun x => some x.incrementTimesSent)
      ⟨_, rfl, rfl, (h.shows bp).incrementTimesSent⟩
    refine ⟨.unit, m', n, q', _, _, by rw [PacketOp.run, hrun]; rfl, href, ?_⟩
    rw [ofLists_content h.shared hi]
    exact .incrementTimesSent (queue_ofLists_split hi)

end Refines

end Steps

/-- **In every state reached**: the memory is the seven lists of the queues, which share the
slots in use out between them, the number of slots in use is the sum of the lengths of the
queues, and every function that may be called ends and takes its step on the queues. -/
theorem holds_of_reachableWhen {m : LinkedPackets} (h : packetMachine.ReachableWhen InitUnused m) :
    ∃ s : PacketQueues, m.Holds s ∧ ∀ op, m.Allows op → InitUnused m op →
      ∃ r m' s', op.run m = some (r, m') ∧ m'.Holds s' ∧ s.Step op r s' := by
  have hinv : m.WellFormed := by
    refine h.invariant ?_ ?_
    · rintro m ⟨numPackets, m₀, hshows, hm⟩
      choose content hcontent using hshows
      obtain ⟨m', q', hrun, href⟩ := refines_initWithStruct numPackets hcontent
      cases hm.symm.trans hrun
      exact ⟨_, _, _, _, href⟩
    · rintro m op m' ⟨n, q, heads, content, href⟩ hok ⟨hop, r, hrun⟩
      obtain ⟨r', m'', n', q', heads', content', hrun', href', -⟩ := href.packetStep hop hok
      cases hrun.symm.trans hrun'
      exact ⟨n', q', heads', content', href'⟩
  obtain ⟨n, q, heads, content, href⟩ := hinv
  refine ⟨_, href.holds, fun op hop hok => ?_⟩
  obtain ⟨r, m', n', q', heads', content', hrun, href', hstep⟩ := href.packetStep hop hok
  exact ⟨r, m', _, hrun, href'.holds, hstep⟩

/-! ### A buffer in use -/

/-- The calls that may be made, as walks along the links show. -/
def permits (m : LinkedPackets) : PacketOp → Bool
  | .packet _ data _ _ | .broadcastPacket _ data _ _ =>
    m.buffer.unusedHead.isSome && broadcastPacketHdrSize + data.length < maxPacketSize
  | .unicastPacket _ _ data _ _ =>
    m.buffer.unusedHead.isSome && unicastPacketHdrSize + data.length < maxPacketSize
  | .free bp | .neighborAcked bp _ | .numUnackedNeighbors bp | .allNeighborsAcked bp
  | .unackedNeighbors bp | .incrementTimesSent bp =>
    MsgType.all.any fun t => bp ∈ (cellsFrom m.link m.buffer.capacity (m.prioHeads t)).getD []
  | _ => true

theorem allows_of_permits {m : LinkedPackets} {op : PacketOp} (h : m.permits op = true) :
    m.Allows op := by
  have hput : ∀ {k : ℕ}, (m.buffer.unusedHead.isSome && decide (k < maxPacketSize)) = true →
      m.buffer.unusedHead ≠ none ∧ k < maxPacketSize := by
    intro k hk
    rw [Bool.and_eq_true] at hk
    exact ⟨Option.isSome_iff_ne_none.mp hk.1, of_decide_eq_true hk.2⟩
  have hhas : ∀ {bp : ℕ}, (MsgType.all.any fun t =>
      decide (bp ∈ (cellsFrom m.link m.buffer.capacity (m.prioHeads t)).getD [])) = true →
        m.Has bp := by
    intro bp hany
    obtain ⟨t, -, ht⟩ := List.any_eq_true.mp hany
    exact ⟨t, exists_linkedFrom_of_mem (of_decide_eq_true ht)⟩
  cases op with
  | packet | broadcastPacket | unicastPacket => exact hput h
  | free | neighborAcked | numUnackedNeighbors | allNeighborsAcked | unackedNeighbors
  | incrementTimesSent => exact hhas h
  | _ => trivial

/-- One call, `none` when it may not be made. -/
def advance (op : PacketOp) (m : LinkedPackets) : Option LinkedPackets :=
  if m.permits op then (op.run m).map Prod.snd else none

theorem step_of_advance {op : PacketOp} {m m' : LinkedPackets} (h : advance op m = some m') :
    packetMachine.step op m m' := by
  unfold advance at h
  split at h
  · next hop =>
    obtain ⟨r, hr, rfl⟩ := Option.map_eq_some_iff.mp h
    exact ⟨allows_of_permits hop, r.1, hr⟩
  · cases h

instance (m : LinkedPackets) (op : PacketOp) : Decidable (InitUnused m op) := by
  unfold InitUnused
  cases op with
  | init => exact decidable_of_iff (m.buffer.usedHead = none) ⟨fun h _ => h, fun h => h rfl⟩
  | _ => exact .isTrue fun h => by cases h

/-- A slot of zeros. -/
def blankPacket : LinkedPacket :=
  ⟨none, ⟨0, 0, none, none, none, fun _ => none, fun _ => default⟩, 0, 0, default⟩

/-- A buffer in memory of zeros. -/
def blank : LinkedPackets :=
  ⟨fun _ => none, ⟨0, 0, none, none, none, fun _ => none, fun _ => blankPacket⟩⟩

theorem blankPacket_shows : blankPacket.Shows .zero :=
  ⟨⟨0, Nat.zero_le _, QueueBuffer.init 0 fun _ => default, ⟨rfl, rfl, rfl, rfl, rfl⟩, rfl⟩,
    rfl, rfl, rfl⟩

/-- The neighbours of a node. -/
def someNeighbors : NeighborSet := ⟨[⟨2, 0⟩, ⟨3, 0⟩], by decide⟩

/-- Two packets to the neighbours with one that is flooded in between; one of the neighbours
acknowledges the first, which is sent twice, and a third comes in the slot of one that is freed. -/
def twoTypes : List PacketOp :=
  [.packet ⟨0, 0, ⟨1, 0⟩, ⟨1, 0⟩, 0⟩ [2, 7] (some someNeighbors) .neighborData,
    .broadcastPacket ⟨1, 1, ⟨1, 0⟩, ⟨1, 0⟩, 0⟩ [0] none .broadcastData,
    .packet ⟨0, 2, ⟨1, 0⟩, ⟨1, 0⟩, 0⟩ [2, 8] (some someNeighbors) .neighborData,
    .incrementTimesSent 0, .neighborAcked 0 ⟨3, 0⟩, .incrementTimesSent 0, .free 2,
    .packet ⟨0, 3, ⟨1, 0⟩, ⟨1, 0⟩, 0⟩ [2, 9] (some someNeighbors) .neighborData]

/-- The buffer after these calls. -/
theorem reachableWhen_twoTypes : ∃ m, packetMachine.ReachableWhen InitUnused m ∧
    m.buffer.size = 3 ∧ cellsFrom m.link 4 (m.prioHeads .neighborData) = some [0, 2] ∧
      cellsFrom m.link 4 (m.prioHeads .broadcastData) = some [1] ∧
      (m.item 0).unackedNeighbors = some [⟨2, 0⟩] ∧ (m.item 2).p.hdr.seqno = 3 := by
  have hrun : ((blank.initWithStruct 4).bind fun m₀ => (Machine.run advance twoTypes m₀).map fun m =>
      decide (m.buffer.size = 3 ∧ cellsFrom m.link 4 (m.prioHeads .neighborData) = some [0, 2] ∧
        cellsFrom m.link 4 (m.prioHeads .broadcastData) = some [1] ∧
        (m.item 0).unackedNeighbors = some [⟨2, 0⟩] ∧ (m.item 2).p.hdr.seqno = 3)) = some true := by
    decide +kernel
  obtain ⟨m₀, hinit, hm₀⟩ := Option.bind_eq_some_iff.mp hrun
  obtain ⟨m, hm, hfacts⟩ := Option.map_eq_some_iff.mp hm₀
  have hstart : packetMachine.ReachableWhen InitUnused m₀ :=
    .init ⟨4, blank, fun _ => ⟨.zero, blankPacket_shows⟩, hinit⟩
  have hmeets : Machine.runMeets advance (fun m op => decide (InitUnused m op)) twoTypes m₀ =
      true := by
    have hall : ((blank.initWithStruct 4).map fun m₀ =>
        Machine.runMeets advance (fun m op => decide (InitUnused m op)) twoTypes m₀) = some true := by
      decide +kernel
    rw [hinit] at hall
    exact Option.some.inj hall
  exact ⟨m, Machine.ReachableWhen.of_run (b := fun m op => decide (InitUnused m op))
    (fun _ _ => of_decide_eq_true) (fun _ _ _ => step_of_advance) _ hstart hmeets hm,
    of_decide_eq_true hfacts⟩

/-- `packet_buffer_init` while a slot is in use leaves a slot that is on no list. -/
theorem init_orphans : ¬ ∀ m, packetMachine.Reachable m → ∃ s : PacketQueues, m.Holds s := by
  intro hall
  obtain ⟨m, hm, hsize, -⟩ := reachableWhen_twoTypes
  have hinit : packetMachine.Reachable m.init :=
    hm.reachable.next (e := .init) trivial ⟨trivial, .unit, rfl⟩
  obtain ⟨s, used, heads, content, -, -, hlists, -, -, -, hlen, hqueue⟩ := hall m.init hinit
  have hempty : s.size = 0 := by
    refine List.sum_eq_zero_iff_forall_eq_nat.mpr fun k hk => ?_
    obtain ⟨t, -, rfl⟩ := List.mem_map.mp hk
    have hnil : heads t = [] := (hlists t).unique (show LinkedFrom _ _ [] from rfl)
    rw [hqueue, hnil, List.map_nil, List.length_nil]
  have hthree : m.init.buffer.size.toNat = 3 := congrArg UInt8.toNat hsize
  omega

/-- The buffer of three packets of two types holds its queues. -/
theorem holds_twoTypes : ∃ m, packetMachine.ReachableWhen InitUnused m ∧ m.buffer.size = 3 ∧
    cellsFrom m.link 4 (m.prioHeads .neighborData) = some [0, 2] ∧
    cellsFrom m.link 4 (m.prioHeads .broadcastData) = some [1] ∧
    (m.item 0).unackedNeighbors = some [⟨2, 0⟩] ∧
    ∃ s : PacketQueues, m.Holds s ∧ ∀ op, m.Allows op → InitUnused m op →
      ∃ r m' s', op.run m = some (r, m') ∧ m'.Holds s' ∧ s.Step op r s' := by
  obtain ⟨m, hm, hsize, hdata, hflood, hacked, -⟩ := reachableWhen_twoTypes
  exact ⟨m, hm, hsize, hdata, hflood, hacked, holds_of_reachableWhen hm⟩

end LinkedPackets

end EmergencyNet
