import EmergencyNet.Net.Packet

/-!
# Any bytes as a frame

`neighbor_recv` and `broadcast_recv` take whatever has been received for a packet: the type
bits, `num_ids` and the length are not checked against each other.  Here the bytes are
arbitrary; what lies behind them in the packet buffer is read just the same.

## Main definitions

* `rawPacketbuf` — the packet buffer after some bytes have been received.
* `Packetbuf.IsFor` — the packet is for the node.
* `Packetbuf.decoded`, `Packetbuf.bytesRead` — how far the two functions read.
* `Packetbuf.dataOffset`, `Packetbuf.payloadStart` — where they take the data to begin, and where
  it begins.

## Main results

* `receivePacket_eq_none_iff` — the types that are none.
* `receivePacket_congr` — **the decision depends on the bytes that are decoded only.**
* `bytesRead_le_iff` — what is read lies in the frame exactly if what is decoded does and the data
  begins in it.
* `payload_exact_iff` — the data is the rest of the frame exactly if it begins in it.
-/

namespace EmergencyNet

/-- The header at the start of memory `m`. -/
def headerAt (m : List UInt8) : Header :=
  ⟨byteAt m 0, byteAt m 1, rimeaddrAt m 2, rimeaddrAt m 4, byteAt m 6⟩

/-- The buffer after the bytes `bs` have been received; `stale` lies behind them. -/
def rawPacketbuf (bs stale : List UInt8) : Packetbuf where
  p := ⟨headerAt (bs ++ stale), (bs ++ stale).drop broadcastPacketHdrSize⟩
  datalen := UInt16.ofNat bs.length

/-- A header as it lies in memory. -/
def Header.bytes (h : Header) : List UInt8 :=
  h.flags :: h.seqno :: (h.sender.bytes ++ h.originator.bytes ++ [h.hops])

/-- The bytes of a frame are received as that frame. -/
theorem rawPacketbuf_frame (f : Frame) (stale : List UInt8) :
    rawPacketbuf (f.hdr.bytes ++ f.body) stale = f.received stale := by
  have hlen : (f.hdr.bytes ++ f.body).length = broadcastPacketHdrSize + f.body.length :=
    List.length_append
  rw [rawPacketbuf, hlen]
  rfl

namespace Packetbuf

variable {self : Rimeaddr} {pb : Packetbuf}

/-- `num_ids` of a multicast packet. -/
def numIds (pb : Packetbuf) : UInt8 := byteAt pb.p.data 0

/-- The receiver in place `i` of a multicast packet. -/
def idAt (pb : Packetbuf) (i : ℕ) : Rimeaddr := rimeaddrAt (pb.p.data.drop 1) (2 * i)

/-- The packet is for the node with address `self`. -/
def IsFor (self : Rimeaddr) (pb : Packetbuf) : Prop :=
  pb.p.hdr.packetType = PacketFlags.broadcast ∨
    pb.p.hdr.packetType = PacketFlags.multicast ∧ (∃ i < pb.numIds.toNat, pb.idAt i = self) ∨
    pb.p.hdr.packetType = PacketFlags.unicast ∧ rimeaddrAt pb.p.data 0 = self

/-- The number of receivers the loop over them compares with the node's address: it ends at the
first that is equal. -/
def idsCompared (self : Rimeaddr) (pb : Packetbuf) : ℕ :=
  min ((List.range pb.numIds.toNat).findIdx (fun i => pb.idAt i == self) + 1) pb.numIds.toNat

/-- The number of bytes read up to the end of the switch on the type; the whole header is
printed. -/
def decoded (self : Rimeaddr) (pb : Packetbuf) : ℕ :=
  if pb.p.hdr.packetType = PacketFlags.multicast then
    multicastPacketHdrSize + 2 * pb.idsCompared self
  else if pb.p.hdr.packetType = PacketFlags.unicast then unicastPacketHdrSize
  else broadcastPacketHdrSize

/-- The offset of the address `data` is set to; `ids_size` is a `uint8_t`. -/
def dataOffset (pb : Packetbuf) : ℕ :=
  if pb.p.hdr.packetType = PacketFlags.multicast then
    multicastPacketHdrSize + (2 * pb.numIds).toNat
  else if pb.p.hdr.packetType = PacketFlags.unicast then unicastPacketHdrSize
  else broadcastPacketHdrSize

/-- The offset behind the header and the receivers. -/
def payloadStart (pb : Packetbuf) : ℕ :=
  if pb.p.hdr.packetType = PacketFlags.multicast then
    multicastPacketHdrSize + 2 * pb.numIds.toNat
  else if pb.p.hdr.packetType = PacketFlags.unicast then unicastPacketHdrSize
  else broadcastPacketHdrSize

/-- The number of bytes of the buffer, from the first one on, that are read before a callback is
called: what is decoded, and the data of a packet for the node, which is printed. -/
def bytesRead (self : Rimeaddr) (pb : Packetbuf) : ℕ :=
  match receivePacket self pb with
  | some a => if a.isForUs then max (pb.decoded self) (pb.dataOffset + a.dataLen.toNat)
    else pb.decoded self
  | none => pb.decoded self

end Packetbuf

open Packetbuf

variable {self : Rimeaddr} {pb : Packetbuf} {a : Arrival} {bs stale : List UInt8}

/-! ### The switch on the type -/

/-- The two bits stand for three types and for none. -/
theorem packetType_cases (h : Header) : h.packetType = 0 ∨ h.packetType = PacketFlags.multicast ∨
    h.packetType = PacketFlags.unicast ∨ h.packetType = PacketFlags.broadcast := by
  have hall : ∀ b : Fin 256, UInt8.ofFin b &&& 0x30 = 0 ∨
      UInt8.ofFin b &&& 0x30 = PacketFlags.multicast ∨
      UInt8.ofFin b &&& 0x30 = PacketFlags.unicast ∨
      UInt8.ofFin b &&& 0x30 = PacketFlags.broadcast := by decide +kernel
  exact hall h.flags.toFin

theorem receivePacket_of_zero (h : pb.p.hdr.packetType = 0) : receivePacket self pb = none := by
  unfold receivePacket
  simp only
  rw [h, if_neg (by decide), if_neg (by decide), if_neg (by decide)]

theorem receivePacket_of_broadcast (h : pb.p.hdr.packetType = PacketFlags.broadcast) :
    receivePacket self pb = some ⟨true, false, false, pb.p.data, (pb.datalen - 7).toUInt8⟩ := by
  unfold receivePacket
  simp only
  rw [h, if_pos rfl]

theorem receivePacket_of_multicast (h : pb.p.hdr.packetType = PacketFlags.multicast) :
    receivePacket self pb = some (if ∃ i < pb.numIds.toNat, pb.idAt i = self then
      ⟨true, true, false, (pb.p.data.drop 1).drop (2 * pb.numIds).toNat,
        (pb.datalen - 8).toUInt8 - 2 * pb.numIds⟩ else .other) := by
  have hscan : ((List.range pb.numIds.toNat).any fun i => pb.idAt i == self) = true ↔
      ∃ i < pb.numIds.toNat, pb.idAt i = self := by
    simp [List.any_eq_true]
  unfold receivePacket
  simp only
  rw [h, if_neg (by decide), if_pos rfl]
  by_cases hex : ∃ i < pb.numIds.toNat, pb.idAt i = self
  · rw [if_pos hex]
    exact if_pos (hscan.mpr hex)
  · rw [if_neg hex]
    exact if_neg (mt hscan.mp hex)

theorem receivePacket_of_unicast (h : pb.p.hdr.packetType = PacketFlags.unicast) :
    receivePacket self pb = some (if rimeaddrAt pb.p.data 0 = self then
      ⟨true, false, true, pb.p.data.drop 2, (pb.datalen - 9).toUInt8⟩ else .other) := by
  unfold receivePacket
  simp only
  rw [h, if_neg (by decide), if_neg (by decide), if_pos rfl]
  split <;> rfl

theorem receivePacket_eq_none_iff : receivePacket self pb = none ↔ pb.p.hdr.packetType = 0 := by
  refine ⟨fun hnone => ?_, receivePacket_of_zero⟩
  rcases packetType_cases pb.p.hdr with h | h | h | h
  · exact h
  · rw [receivePacket_of_multicast h] at hnone
    cases hnone
  · rw [receivePacket_of_unicast h] at hnone
    cases hnone
  · rw [receivePacket_of_broadcast h] at hnone
    cases hnone

/-- What the switch finds out about a packet for the node. -/
theorem isForUs_iff (ha : receivePacket self pb = some a) : (a.isForUs = true ↔ pb.IsFor self) ∧
    (a.isForUs = true → (a.mc || a.uc) = (pb.p.hdr.packetType != PacketFlags.broadcast)) := by
  rcases packetType_cases pb.p.hdr with h | h | h | h
  · rw [receivePacket_of_zero h] at ha
    cases ha
  · rw [receivePacket_of_multicast h] at ha
    cases ha
    rw [IsFor, h]
    by_cases hex : ∃ i < pb.numIds.toNat, pb.idAt i = self
    · rw [if_pos hex]
      exact ⟨⟨fun _ => .inr (.inl ⟨rfl, hex⟩), fun _ => rfl⟩, fun _ => rfl⟩
    · rw [if_neg hex]
      refine ⟨⟨fun hf => Bool.noConfusion hf, fun hf => ?_⟩, fun hf => Bool.noConfusion hf⟩
      rcases hf with hf | ⟨-, hf⟩ | ⟨hf, -⟩
      · exact absurd hf (by decide)
      · exact absurd hf hex
      · exact absurd hf (by decide)
  · rw [receivePacket_of_unicast h] at ha
    cases ha
    rw [IsFor, h]
    by_cases hdest : rimeaddrAt pb.p.data 0 = self
    · rw [if_pos hdest]
      exact ⟨⟨fun _ => .inr (.inr ⟨rfl, hdest⟩), fun _ => rfl⟩, fun _ => rfl⟩
    · rw [if_neg hdest]
      refine ⟨⟨fun hf => Bool.noConfusion hf, fun hf => ?_⟩, fun hf => Bool.noConfusion hf⟩
      rcases hf with hf | ⟨hf, -⟩ | ⟨-, hf⟩
      · exact absurd hf (by decide)
      · exact absurd hf (by decide)
      · exact absurd hf hdest
  · rw [receivePacket_of_broadcast h] at ha
    cases ha
    rw [IsFor, h]
    exact ⟨⟨fun _ => .inl rfl, fun _ => rfl⟩, fun _ => rfl⟩

/-! ### Where the data begins -/

/-- A length computed in 16 bits and cut off to 8. -/
theorem toNat_datalen_sub {n k : ℕ} (hk : k < 256) :
    (k + (UInt16.ofNat n - UInt16.ofNat k).toUInt8.toNat) % 256 = n % 256 := by
  rw [UInt16.toNat_toUInt8, UInt16.toNat_sub, UInt16.toNat_ofNat', UInt16.toNat_ofNat']
  omega

/-- Where the data of a packet for the node begins, and its length, which is taken modulo
256. -/
theorem arrival_data (ha : receivePacket self (rawPacketbuf bs stale) = some a)
    (hfor : a.isForUs = true) :
    a.data = (bs ++ stale).drop (rawPacketbuf bs stale).dataOffset ∧
      ((rawPacketbuf bs stale).dataOffset + a.dataLen.toNat) % 256 = bs.length % 256 := by
  unfold dataOffset
  rcases packetType_cases (rawPacketbuf bs stale).p.hdr with h | h | h | h
  · rw [receivePacket_of_zero h] at ha
    cases ha
  · rw [receivePacket_of_multicast h] at ha
    rw [h, if_pos rfl]
    cases ha
    split at hfor
    · next hex =>
      rw [if_pos hex]
      refine ⟨?_, ?_⟩
      · simp only [rawPacketbuf, List.drop_drop, broadcastPacketHdrSize, multicastPacketHdrSize]
      · have hsub := toNat_datalen_sub (n := bs.length) (k := 8) (by decide)
        change (8 + (2 * (rawPacketbuf bs stale).numIds).toNat +
          ((UInt16.ofNat bs.length - UInt16.ofNat 8).toUInt8 -
            2 * (rawPacketbuf bs stale).numIds).toNat) % 256 = _
        rw [UInt8.toNat_sub]
        have hlt := (2 * (rawPacketbuf bs stale).numIds).toNat_lt
        omega
    · cases hfor
  · rw [receivePacket_of_unicast h] at ha
    rw [h, if_neg (by decide), if_pos rfl]
    cases ha
    split at hfor
    · next hdest =>
      rw [if_pos hdest]
      refine ⟨?_, toNat_datalen_sub (by decide)⟩
      simp only [rawPacketbuf, List.drop_drop, broadcastPacketHdrSize, unicastPacketHdrSize]
    · cases hfor
  · rw [receivePacket_of_broadcast h] at ha
    rw [h, if_neg (by decide), if_neg (by decide)]
    cases ha
    exact ⟨rfl, toNat_datalen_sub (by decide)⟩

/-- The data of a packet for the node ends where the frame ends, or wraps around. -/
theorem data_end_iff (ha : receivePacket self (rawPacketbuf bs stale) = some a)
    (hfor : a.isForUs = true) (hlen : bs.length < 256) :
    (rawPacketbuf bs stale).dataOffset + a.dataLen.toNat ≤ bs.length ↔
      (rawPacketbuf bs stale).dataOffset ≤ bs.length := by
  have hmod := (arrival_data ha hfor).2
  have hlt := a.dataLen.toNat_lt
  omega

/-- **What is read lies in the frame** exactly if what is decoded does and the data of a packet
for the node is taken to begin in it. -/
theorem bytesRead_le_iff (hlen : bs.length < 256) :
    (rawPacketbuf bs stale).bytesRead self ≤ bs.length ↔
      (rawPacketbuf bs stale).decoded self ≤ bs.length ∧
        ((rawPacketbuf bs stale).IsFor self →
          (rawPacketbuf bs stale).dataOffset ≤ bs.length) := by
  unfold bytesRead
  cases ha : receivePacket self (rawPacketbuf bs stale) with
  | none =>
    have htype := receivePacket_eq_none_iff.mp ha
    refine ⟨fun h => ⟨h, fun hfor => ?_⟩, fun h => h.1⟩
    rw [IsFor, htype] at hfor
    exact absurd hfor (by simp [PacketFlags.broadcast, PacketFlags.multicast, PacketFlags.unicast])
  | some a =>
    simp only
    rw [← (isForUs_iff ha).1]
    cases hfor : a.isForUs with
    | false => simp
    | true =>
      rw [if_pos rfl, max_le_iff, data_end_iff ha hfor hlen]
      exact and_congr_right fun _ => ⟨fun h _ => h, fun h => h rfl⟩

/-- In a frame that is long enough for them the size of the receivers does not wrap around. -/
theorem dataOffset_of_payloadStart_lt (h : pb.payloadStart < 256) :
    pb.dataOffset = pb.payloadStart := by
  unfold dataOffset payloadStart at *
  by_cases ht : pb.p.hdr.packetType = PacketFlags.multicast
  · rw [if_pos ht] at h ⊢
    rw [if_pos ht, UInt8.toNat_mul]
    change multicastPacketHdrSize + 2 * pb.numIds.toNat % 256 = _
    rw [Nat.mod_eq_of_lt (by omega)]
  · rw [if_neg ht, if_neg ht]

/-- **The data is the rest of the frame** behind the header and the receivers exactly if that
begins in the frame. -/
theorem payload_exact_iff (ha : receivePacket self (rawPacketbuf bs stale) = some a)
    (hfor : a.isForUs = true) (hlen : bs.length < 256) :
    (a.data = (bs ++ stale).drop (rawPacketbuf bs stale).payloadStart ∧
      (rawPacketbuf bs stale).payloadStart + a.dataLen.toNat = bs.length) ↔
      (rawPacketbuf bs stale).payloadStart ≤ bs.length := by
  refine ⟨fun h => by omega, fun hle => ?_⟩
  have hoff := dataOffset_of_payloadStart_lt (lt_of_le_of_lt hle hlen)
  obtain ⟨hdata, hmod⟩ := arrival_data ha hfor
  rw [hoff] at hdata hmod
  have hlt := a.dataLen.toNat_lt
  exact ⟨hdata, by omega⟩

/-! ### What is decoded decides -/

theorem broadcastPacketHdrSize_le_decoded (self : Rimeaddr) (pb : Packetbuf) :
    broadcastPacketHdrSize ≤ pb.decoded self := by
  unfold decoded
  split
  · exact le_trans (show broadcastPacketHdrSize ≤ multicastPacketHdrSize by decide)
      (Nat.le_add_right _ _)
  · split <;> decide

/-- The loop over the receivers ends at the first that is equal, or at the last. -/
theorem exists_idAt_iff : (∃ i < pb.numIds.toNat, pb.idAt i = self) ↔
    ∃ i < pb.idsCompared self, pb.idAt i = self := by
  refine ⟨fun ⟨i, hi, heq⟩ => ?_, fun ⟨i, hi, heq⟩ =>
    ⟨i, lt_of_lt_of_le hi (min_le_right _ _), heq⟩⟩
  have hlt : (List.range pb.numIds.toNat).findIdx (fun i => pb.idAt i == self) <
      (List.range pb.numIds.toNat).length :=
    List.findIdx_lt_length_of_exists ⟨i, List.mem_range.mpr hi, beq_iff_eq.mpr heq⟩
  have hfound := List.findIdx_getElem (w := hlt)
  rw [List.getElem_range, beq_iff_eq] at hfound
  rw [List.length_range] at hlt
  exact ⟨_, lt_min (Nat.lt_succ_self _) hlt, hfound⟩

theorem idsCompared_of_not_exists (h : ¬ ∃ i < pb.numIds.toNat, pb.idAt i = self) :
    pb.idsCompared self = pb.numIds.toNat := by
  have hall : (List.range pb.numIds.toNat).findIdx (fun i => pb.idAt i == self) =
      (List.range pb.numIds.toNat).length := by
    rw [List.findIdx_eq_length]
    intro i hi
    rw [beq_eq_false_iff_ne]
    exact fun heq => h ⟨i, List.mem_range.mp hi, heq⟩
  rw [idsCompared, hall, List.length_range]
  exact min_eq_right (Nat.le_succ _)

/-- What the switch finds out, up to where the data lies. -/
def Arrival.verdict (a : Arrival) : Bool × Bool × Bool × UInt8 := (a.isForUs, a.mc, a.uc, a.dataLen)

/-- **The decision depends on the bytes that are decoded only.** -/
theorem receivePacket_congr {bs' stale' : List UInt8} (hlen : bs'.length = bs.length)
    (h : ∀ i < (rawPacketbuf bs stale).decoded self,
      byteAt (bs' ++ stale') i = byteAt (bs ++ stale) i) :
    (receivePacket self (rawPacketbuf bs' stale')).map Arrival.verdict =
      (receivePacket self (rawPacketbuf bs stale)).map Arrival.verdict := by
  have hhdr : (rawPacketbuf bs' stale').p.hdr = (rawPacketbuf bs stale).p.hdr := by
    have hle := broadcastPacketHdrSize_le_decoded self (rawPacketbuf bs stale)
    have hbyte : ∀ i < 7, byteAt (bs' ++ stale') i = byteAt (bs ++ stale) i :=
      fun i hi => h i (lt_of_lt_of_le hi hle)
    change headerAt _ = headerAt _
    rw [headerAt, headerAt, rimeaddrAt, rimeaddrAt, rimeaddrAt, rimeaddrAt, hbyte 0 (by decide),
      hbyte 1 (by decide), hbyte 2 (by decide), hbyte 3 (by decide), hbyte 4 (by decide),
      hbyte 5 (by decide), hbyte 6 (by decide)]
  have hdatalen : (rawPacketbuf bs' stale').datalen = (rawPacketbuf bs stale).datalen := by
    rw [rawPacketbuf, rawPacketbuf, hlen]
  have hdata : ∀ i, 7 + i < (rawPacketbuf bs stale).decoded self →
      byteAt (rawPacketbuf bs' stale').p.data i = byteAt (rawPacketbuf bs stale).p.data i :=
    fun i hi => by
      rw [rawPacketbuf, rawPacketbuf, byteAt_drop, byteAt_drop]
      exact h _ hi
  generalize rawPacketbuf bs' stale' = pb' at *
  generalize rawPacketbuf bs stale = pb at *
  unfold decoded at hdata
  rcases packetType_cases pb.p.hdr with ht | ht | ht | ht
  · rw [receivePacket_of_zero ht, receivePacket_of_zero (hhdr ▸ ht)]
  · -- a multicast packet: the receiver list is searched up to the own address
    rw [if_pos ht] at hdata
    have hnum : pb'.numIds = pb.numIds := hdata 0 (by unfold multicastPacketHdrSize; omega)
    have hid : ∀ i < pb.idsCompared self, pb'.idAt i = pb.idAt i := fun i hi => by
      rw [idAt, idAt, rimeaddrAt, rimeaddrAt, byteAt_drop, byteAt_drop, byteAt_drop, byteAt_drop,
        hdata _ (by unfold multicastPacketHdrSize; omega),
        hdata _ (by unfold multicastPacketHdrSize; omega)]
    rw [receivePacket_of_multicast ht, receivePacket_of_multicast (hhdr ▸ ht), hnum, hdatalen]
    by_cases hex : ∃ i < pb.numIds.toNat, pb.idAt i = self
    · obtain ⟨i, hi, heq⟩ := exists_idAt_iff.mp hex
      have hex' : ∃ i < pb.numIds.toNat, pb'.idAt i = self :=
        ⟨i, lt_of_lt_of_le hi (min_le_right _ _), (hid i hi).trans heq⟩
      rw [if_pos hex, if_pos hex']
      rfl
    · have hex' : ¬ ∃ i < pb.numIds.toNat, pb'.idAt i = self := by
        rintro ⟨i, hi, heq⟩
        rw [← idsCompared_of_not_exists hex] at hi
        exact hex ⟨i, lt_of_lt_of_le hi (min_le_right _ _), (hid i hi).symm.trans heq⟩
      rw [if_neg hex, if_neg hex']
  · -- a unicast packet: the destination behind the header is compared
    rw [if_neg (by rw [ht]; decide), if_pos ht] at hdata
    have hdest : rimeaddrAt pb'.p.data 0 = rimeaddrAt pb.p.data 0 := by
      rw [rimeaddrAt, rimeaddrAt, hdata 0 (by decide), hdata 1 (by decide)]
    rw [receivePacket_of_unicast ht, receivePacket_of_unicast (hhdr ▸ ht), hdest, hdatalen]
    split <;> rfl
  · rw [receivePacket_of_broadcast ht, receivePacket_of_broadcast (hhdr ▸ ht), hdatalen]
    rfl

end EmergencyNet
