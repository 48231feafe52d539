import EmergencyNet.Net.Api

/-!
# Packets of the emergency network

`emergency_net/packet.h` and `emergency_net/packet.c`.  A packet is its header and the
memory from its `data` member on; the three kinds of packets share the header and differ in
what stands at the beginning of the data.  A `Frame` is what goes over the air, a
`Packetbuf` is a received frame in the receiver's buffer.

## Main definitions

* `Header`, `Packet`, `Frame`, `Packetbuf`.
* `initBroadcastPacket`, `initMulticastPacket`, `initUnicastPacket` — the headers.
* `originatorSeqnoCmp`, `unicastPacketCmp` — the comparers for queued packets.
* `receivePacket` — the switch on the packet type both receive functions begin with.

## Main results

* `receivePacket_broadcast`, `receivePacket_multicast`, `receivePacket_unicast` — **the
  payload of a frame is read back**, whatever lies behind the frame in the buffer.
-/

namespace EmergencyNet

/-! ### Flags -/

namespace PacketFlags

/-- `ACK`. -/
def ack : UInt8 := 0x80

/-- `TIMESYNCH`. -/
def timesynch : UInt8 := 0x40

/-- `BROADCAST`. -/
def broadcast : UInt8 := 0x30

/-- `UNICAST`. -/
def unicast : UInt8 := 0x20

/-- `MULTICAST`. -/
def multicast : UInt8 := 0x10

end PacketFlags

/-- `struct header`. -/
structure Header where
  flags : UInt8
  seqno : UInt8
  /-- The node that forwards the packet. -/
  sender : Rimeaddr
  /-- The node the packet comes from. -/
  originator : Rimeaddr
  hops : UInt8
  deriving DecidableEq, Repr, Inhabited

namespace Header

/-- The pair that identifies the packet. -/
def id (h : Header) : PacketId := (h.originator, h.seqno)

/-- `IS_PACKET_FLAG_SET`. -/
def isPacketFlagSet (h : Header) (flag : UInt8) : Bool := h.flags &&& flag == flag

/-- `PACKET_TYPE`. -/
def packetType (h : Header) : UInt8 := h.flags &&& 0x30

end Header

/-- `struct packet`. -/
structure Packet where
  hdr : Header
  /-- The memory from `data` on. -/
  data : List UInt8
  deriving DecidableEq, Repr, Inhabited

/-- `MAX_PACKET_SIZE`. -/
def maxPacketSize : ℕ := 32

/-- `BROADCAST_PACKET_HDR_SIZE`; it is `PACKET_HDR_SIZE`, too. -/
def broadcastPacketHdrSize : ℕ := 7

/-- `MULTICAST_PACKET_HDR_SIZE`. -/
def multicastPacketHdrSize : ℕ := 8

/-- `UNICAST_PACKET_HDR_SIZE`. -/
def unicastPacketHdrSize : ℕ := 9

/-! ### Headers -/

/-- `init_packet`. -/
def initPacket (flags hops : UInt8) (originator sender : Rimeaddr) (seqno : UInt8) : Header :=
  ⟨flags, seqno, sender, originator, hops⟩

/-- `init_broadcast_packet`. -/
def initBroadcastPacket (flags hops : UInt8) (originator sender : Rimeaddr) (seqno : UInt8) :
    Header :=
  initPacket (PacketFlags.broadcast ||| flags) hops originator sender seqno

/-- `init_multicast_packet`, up to `num_ids`, which stands in the data. -/
def initMulticastPacket (flags hops : UInt8) (originator sender : Rimeaddr) (seqno : UInt8) :
    Header :=
  initPacket (PacketFlags.multicast ||| flags) hops originator sender seqno

/-- `init_unicast_packet`, up to `destination`, which stands in the data. -/
def initUnicastPacket (flags hops : UInt8) (originator sender : Rimeaddr) (seqno : UInt8) :
    Header :=
  initPacket (PacketFlags.unicast ||| flags) hops originator sender seqno

section Flags

variable (flags hops : UInt8) (originator sender : Rimeaddr) (seqno f : UInt8)

theorem isPacketFlagSet_initBroadcastPacket :
    (initBroadcastPacket flags hops originator sender seqno).isPacketFlagSet f =
      ((PacketFlags.broadcast ||| flags) &&& f == f) := rfl

theorem isPacketFlagSet_initMulticastPacket :
    (initMulticastPacket flags hops originator sender seqno).isPacketFlagSet f =
      ((PacketFlags.multicast ||| flags) &&& f == f) := rfl

theorem isPacketFlagSet_initUnicastPacket :
    (initUnicastPacket flags hops originator sender seqno).isPacketFlagSet f =
      ((PacketFlags.unicast ||| flags) &&& f == f) := rfl

end Flags

/-! ### Comparers -/

/-- `originator_seqno_cmp` of a queued packet against the header of another. -/
def originatorSeqnoCmp (h : Header) (p : Packet) : Bool := p.hdr.id == h.id

/-- `unicast_packet_cmp`: the first `UNICAST_PACKET_HDR_SIZE` bytes agree with those of a
unicast packet. -/
def unicastPacketCmp (h : Header) (destination : Rimeaddr) (p : Packet) : Bool :=
  p.hdr == h && rimeaddrAt p.data 0 == destination

/-! ### Frames -/

/-- The bytes given to the radio: a header and what follows it. -/
structure Frame where
  hdr : Header
  body : List UInt8
  deriving DecidableEq, Repr, Inhabited

/-- The buffer of a receiver: `packetbuf_dataptr` as a packet, and `packetbuf_datalen`. -/
structure Packetbuf where
  p : Packet
  datalen : UInt16
  deriving DecidableEq, Repr, Inhabited

/-- A received frame; `stale` is what lies behind it in the receiver's buffer. -/
def Frame.received (f : Frame) (stale : List UInt8) : Packetbuf where
  p := ⟨f.hdr, f.body ++ stale⟩
  datalen := UInt16.ofNat (broadcastPacketHdrSize + f.body.length)

/-- The body of a multicast frame: `num_ids`, the addresses, the payload. -/
def multicastBody (ids : List Rimeaddr) (payload : List UInt8) : List UInt8 :=
  UInt8.ofNat ids.length :: (ids.flatMap Rimeaddr.bytes ++ payload)

/-- The body of a unicast frame: the destination, the payload. -/
def unicastBody (destination : Rimeaddr) (payload : List UInt8) : List UInt8 :=
  destination.bytes ++ payload

/-! ### Reception -/

/-- What the switch on the packet type finds out about a received packet. -/
structure Arrival where
  isForUs : Bool
  mc : Bool
  uc : Bool
  /-- The memory from the address `data` is set to. -/
  data : List UInt8
  dataLen : UInt8
  deriving DecidableEq, Repr

/-- A packet that is not for the node. -/
def Arrival.other : Arrival := ⟨false, false, false, [], 0⟩

/-- The switch on `PACKET_TYPE` with which `neighbor_recv` and `broadcast_recv` begin, at the
node with address `self`; `none` where the code asserts.  Lengths are computed modulo 256,
as they are assigned to a `uint8_t`. -/
def receivePacket (self : Rimeaddr) (pb : Packetbuf) : Option Arrival :=
  let type := pb.p.hdr.packetType
  if type = PacketFlags.broadcast then
    some ⟨true, false, false, pb.p.data, (pb.datalen - 7).toUInt8⟩
  else if type = PacketFlags.multicast then
    let numIds := byteAt pb.p.data 0
    let idAt := fun i => rimeaddrAt (pb.p.data.drop 1) (2 * i)
    if (List.range numIds.toNat).any fun i => idAt i == self then
      let idsSize := 2 * numIds
      some ⟨true, true, false, (pb.p.data.drop 1).drop idsSize.toNat,
        (pb.datalen - 8).toUInt8 - idsSize⟩
    else some .other
  else if type = PacketFlags.unicast then
    if rimeaddrAt pb.p.data 0 = self then
      some ⟨true, false, true, pb.p.data.drop 2, (pb.datalen - 9).toUInt8⟩
    else some .other
  else none

section Received

variable {self : Rimeaddr} {h : Header} {payload : List UInt8}

/-- A length survives the way through the 16-bit length of the frame. -/
theorem dataLen_received (k len : ℕ) :
    (UInt16.ofNat (k + len) - UInt16.ofNat k).toUInt8 = UInt8.ofNat len := by
  apply UInt8.toNat_inj.mp
  rw [UInt16.toNat_toUInt8, UInt16.toNat_sub, UInt16.toNat_ofNat', UInt16.toNat_ofNat',
    UInt8.toNat_ofNat']
  omega

theorem receivePacket_broadcast (ht : h.packetType = PacketFlags.broadcast)
    (stale : List UInt8) :
    receivePacket self ((Frame.mk h payload).received stale) =
      some ⟨true, false, false, payload ++ stale, UInt8.ofNat payload.length⟩ := by
  unfold receivePacket Frame.received
  simp only [ht, if_true]
  rw [← dataLen_received 7 payload.length]
  rfl

theorem receivePacket_unicast {dest : Rimeaddr} (ht : h.packetType = PacketFlags.unicast)
    (stale : List UInt8) :
    receivePacket self ((Frame.mk h (unicastBody dest payload)).received stale) =
      some (if dest = self then
        ⟨true, false, true, payload ++ stale, UInt8.ofNat payload.length⟩ else .other) := by
  have hdest : rimeaddrAt (unicastBody dest payload ++ stale) 0 = dest := rfl
  have hdata : (unicastBody dest payload ++ stale).drop 2 = payload ++ stale := rfl
  have hdatalen : UInt16.ofNat (broadcastPacketHdrSize + (unicastBody dest payload).length) =
      UInt16.ofNat (9 + payload.length) := by
    simp only [unicastBody, List.length_append, Rimeaddr.length_bytes, broadcastPacketHdrSize]
    congr 1
    omega
  unfold receivePacket Frame.received
  simp only [ht, hdest, hdata, hdatalen]
  rw [← dataLen_received 9 payload.length]
  by_cases hself : dest = self
  · rw [if_pos hself, if_pos hself]
    rfl
  · rw [if_neg hself, if_neg hself]
    rfl

theorem receivePacket_multicast {ids : List Rimeaddr} (ht : h.packetType = PacketFlags.multicast)
    (hids : ids.length ≤ maxNeighbors) (stale : List UInt8) :
    receivePacket self ((Frame.mk h (multicastBody ids payload)).received stale) =
      some (if self ∈ ids then
        ⟨true, true, false, payload ++ stale, UInt8.ofNat payload.length⟩ else .other) := by
  have hnum : (UInt8.ofNat ids.length).toNat = ids.length := by
    rw [UInt8.toNat_ofNat']
    unfold maxNeighbors at hids
    omega
  have hbody : multicastBody ids payload ++ stale =
      UInt8.ofNat ids.length :: (ids.flatMap Rimeaddr.bytes ++ (payload ++ stale)) := by
    rw [multicastBody, List.cons_append, List.append_assoc]
  -- the scan of the ids finds the node exactly when it is among them
  have hscan : ((List.range ids.length).any fun i =>
      rimeaddrAt (ids.flatMap Rimeaddr.bytes ++ (payload ++ stale)) (2 * i) == self) =
        decide (self ∈ ids) := by
    rw [Bool.eq_iff_iff, List.any_eq_true, decide_eq_true_iff, List.mem_iff_getElem]
    constructor
    · rintro ⟨i, hi, heq⟩
      rw [List.mem_range] at hi
      rw [rimeaddrAt_flatMap _ ids i hi] at heq
      exact ⟨i, hi, by simpa using heq⟩
    · rintro ⟨i, hi, heq⟩
      refine ⟨i, List.mem_range.mpr hi, ?_⟩
      rw [rimeaddrAt_flatMap _ ids i hi]
      simpa using heq
  have hidsSize : (2 * UInt8.ofNat ids.length).toNat = 2 * ids.length := by
    rw [UInt8.toNat_mul, hnum]
    unfold maxNeighbors at hids
    change 2 * ids.length % 256 = _
    omega
  have hdataLen : (UInt16.ofNat (broadcastPacketHdrSize + (multicastBody ids payload).length) -
      UInt16.ofNat 8).toUInt8 - 2 * UInt8.ofNat ids.length = UInt8.ofNat payload.length := by
    have hlength : broadcastPacketHdrSize + (multicastBody ids payload).length =
        8 + (2 * ids.length + payload.length) := by
      simp only [multicastBody, List.length_cons, List.length_append, length_flatMap_bytes,
        broadcastPacketHdrSize]
      omega
    rw [hlength, dataLen_received]
    apply UInt8.toNat_inj.mp
    rw [UInt8.toNat_sub, hidsSize, UInt8.toNat_ofNat', UInt8.toNat_ofNat']
    unfold maxNeighbors at hids
    omega
  have hdata : (ids.flatMap Rimeaddr.bytes ++ (payload ++ stale)).drop (2 * ids.length) =
      payload ++ stale := by
    rw [← length_flatMap_bytes, List.drop_left]
  have hne : ¬ PacketFlags.multicast = PacketFlags.broadcast := by decide
  unfold receivePacket Frame.received
  simp only [ht, hbody, byteAt_zero_cons, hnum, List.drop_one, List.tail_cons, hscan, hidsSize,
    hdata, if_neg hne, if_true, decide_eq_true_eq]
  by_cases hself : self ∈ ids
  · rw [if_pos hself, if_pos hself, ← hdataLen]
    rfl
  · rw [if_neg hself, if_neg hself]

end Received

end EmergencyNet
