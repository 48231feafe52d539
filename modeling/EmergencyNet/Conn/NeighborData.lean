import EmergencyNet.Conn.Upcall

/-!
# What a frame of neighbour data carries

A frame carries what was handed over to be sent, in one of three forms, and a receiver reads it
back.  `send_neighbor_data` takes the header and the data from the packet that was the first of
the list before any was dropped, and the length and the awaited neighbours from the first that
is left; so the frame carries a packet of the list when these are the same.

## Main definitions

* `BufferedPacket.args` — what was handed over, read back from a slot.
* `Frame.Carries`, `RecvArgs.Carries` — a frame, and a call of a callback, for a packet.
* `EcNode.FiresWhen` — a condition on the states in which neighbour data is sent.
* `Ec.SendsOwn` — the packet that is sent is sent with its own header and data.

## Main results

* `Frame.Carries.received` — **what a frame carries is what its receiver is given.**
* `carries_neighborDataFrame` — what the frames of `send_neighbor_data` carry.
-/

namespace EmergencyNet

/-! ### What a slot holds -/

namespace BufferedPacket

/-- The arguments a packet was handed over with, read back from its slot. -/
def args (bp : BufferedPacket) : SendArgs :=
  ⟨bp.p.hdr.originator, bp.p.hdr.sender, bp.p.hdr.hops, bp.p.hdr.seqno,
    memRead bp.p.data bp.dataLen.toNat⟩

/-- The packet is one that was handed over to be broadcast. -/
structure IsData (bp : BufferedPacket) : Prop where
  flags : bp.p.hdr.flags = PacketFlags.broadcast
  short : bp.dataLen.toNat ≤ 24

variable {bp bp' : BufferedPacket}

theorem length_args (bp : BufferedPacket) : bp.args.data.length = bp.dataLen.toNat :=
  length_memRead _ _

theorem args_congr (hp : bp'.p = bp.p) (hlen : bp'.dataLen = bp.dataLen) : bp'.args = bp.args := by
  rw [args, args, hp, hlen]

theorem IsData.congr (h : bp.IsData) (hp : bp'.p = bp.p) (hlen : bp'.dataLen = bp.dataLen) :
    bp'.IsData := ⟨hp ▸ h.flags, hlen ▸ h.short⟩

/-- The header of a packet that was handed over, from what is read back. -/
theorem IsData.hdr_eq (h : bp.IsData) : bp.p.hdr =
    initBroadcastPacket 0 bp.args.hops bp.args.originator bp.args.sender bp.args.seqno := by
  calc bp.p.hdr = ⟨bp.p.hdr.flags, bp.p.hdr.seqno, bp.p.hdr.sender, bp.p.hdr.originator,
        bp.p.hdr.hops⟩ := rfl
    _ = _ := by rw [h.flags]; rfl

end BufferedPacket

namespace PacketBuffer

variable {a : SendArgs} {ns : Option NeighborSet} {old : BufferedPacket}

theorem toNat_dataLen_written {hdr : Header} {fields data : List UInt8} (h : data.length ≤ 24) :
    (written hdr fields data ns old).dataLen.toNat = data.length := by
  change (UInt8.ofNat data.length).toNat = data.length
  rw [UInt8.toNat_ofNat']
  omega

/-- What was handed over is read back from the slot it was written to. -/
theorem args_written (h : a.data.length ≤ 24) : (written
    (initBroadcastPacket 0 a.hops a.originator a.sender a.seqno) [] a.data ns old).args = a := by
  rw [BufferedPacket.args, toNat_dataLen_written h]
  change (⟨a.originator, a.sender, a.hops, a.seqno,
    memRead (memWrite ([] ++ a.data) old.p.data) a.data.length⟩ : SendArgs) = a
  rw [List.nil_append, memRead_memWrite]

theorem isData_written (h : a.data.length ≤ 24) : (written
    (initBroadcastPacket 0 a.hops a.originator a.sender a.seqno) [] a.data ns old).IsData :=
  ⟨rfl, (toNat_dataLen_written h).symm ▸ h⟩

end PacketBuffer

/-! ### What a frame carries -/

/-- The frame is one of the three forms in which packet `a` is sent. -/
inductive Frame.Carries (a : SendArgs) : Frame → Prop
  | broadcast :
      Carries a ⟨initBroadcastPacket 0 a.hops a.originator a.sender a.seqno, a.data⟩
  | unicast (addr : Rimeaddr) :
      Carries a ⟨initUnicastPacket 0 a.hops a.originator a.sender a.seqno, unicastBody addr a.data⟩
  | multicast (ids : List Rimeaddr) (hne : ids ≠ []) (hids : ids.length ≤ maxNeighbors) :
      Carries a ⟨initMulticastPacket 0 a.hops a.originator a.sender a.seqno,
        multicastBody ids a.data⟩

section PacketType

variable (hops : UInt8) (originator sender : Rimeaddr) (seqno : UInt8)

theorem packetType_initBroadcastPacket :
    (initBroadcastPacket 0 hops originator sender seqno).packetType = PacketFlags.broadcast := by
  change (PacketFlags.broadcast ||| 0) &&& 0x30 = PacketFlags.broadcast
  decide

theorem packetType_initUnicastPacket :
    (initUnicastPacket 0 hops originator sender seqno).packetType = PacketFlags.unicast := by
  change (PacketFlags.unicast ||| 0) &&& 0x30 = PacketFlags.unicast
  decide

theorem packetType_initMulticastPacket :
    (initMulticastPacket 0 hops originator sender seqno).packetType = PacketFlags.multicast := by
  change (PacketFlags.multicast ||| 0) &&& 0x30 = PacketFlags.multicast
  decide

end PacketType

/-- The callback is called with packet `a`. -/
structure RecvArgs.Carries (r : RecvArgs) (a : SendArgs) : Prop where
  originator : r.originator = a.originator
  seqno : r.seqno = a.seqno
  payload : r.payload = a.data
  dataLen : r.dataLen.toNat = a.data.length

namespace Frame.Carries

variable {a b : SendArgs} {f : Frame} {self : Rimeaddr} {stale : List UInt8} {arr : Arrival}

theorem id (h : Carries a f) : f.hdr.id = a.id := by cases h <;> rfl

theorem sender (h : Carries a f) : f.hdr.sender = a.sender := by cases h <;> rfl

theorem hops (h : Carries a f) : f.hdr.hops = a.hops := by cases h <;> rfl

/-- A frame that carries a packet is no acknowledgement. -/
theorem not_ack (h : Carries a f) : f.hdr.isPacketFlagSet PacketFlags.ack = false := by
  cases h with
  | broadcast => rw [isPacketFlagSet_initBroadcastPacket]; decide
  | unicast => rw [isPacketFlagSet_initUnicastPacket]; decide
  | multicast => rw [isPacketFlagSet_initMulticastPacket]; decide

/-- **What a frame carries is what its receiver is given**, whatever lies behind the frame in the
receiver's buffer. -/
theorem received (h : Carries a f) (hlen : a.data.length ≤ 24)
    (ha : receivePacket self (f.received stale) = some arr) (hfor : arr.isForUs = true) :
    (EcNode.recvArgs f.hdr arr).Carries a := by
  have hlength : (UInt8.ofNat a.data.length).toNat = a.data.length := by
    rw [UInt8.toNat_ofNat']
    omega
  have hread : ∀ mc uc, arr = ⟨true, mc, uc, a.data ++ stale, UInt8.ofNat a.data.length⟩ →
      memRead arr.data arr.dataLen.toNat = a.data ∧ arr.dataLen.toNat = a.data.length := by
    rintro mc uc rfl
    exact ⟨by rw [hlength, memRead_append_length], hlength⟩
  have hsome : ∃ mc uc, arr = ⟨true, mc, uc, a.data ++ stale, UInt8.ofNat a.data.length⟩ := by
    cases h with
    | broadcast =>
      rw [receivePacket_broadcast (packetType_initBroadcastPacket ..)] at ha
      exact ⟨_, _, (Option.some.inj ha).symm⟩
    | unicast addr =>
      rw [receivePacket_unicast (packetType_initUnicastPacket ..)] at ha
      split at ha
      · exact ⟨_, _, (Option.some.inj ha).symm⟩
      · rw [← Option.some.inj ha] at hfor
        cases hfor
    | multicast ids hne hids =>
      rw [receivePacket_multicast (packetType_initMulticastPacket ..) hids] at ha
      split at ha
      · exact ⟨_, _, (Option.some.inj ha).symm⟩
      · rw [← Option.some.inj ha] at hfor
        cases hfor
  obtain ⟨mc, uc, harr⟩ := hsome
  obtain ⟨hpayload, hdataLen⟩ := hread mc uc harr
  have hid : f.hdr.id = a.id := h.id
  exact ⟨congrArg Prod.fst hid, congrArg Prod.snd hid, hpayload, hdataLen⟩

/-- Some node is among the receivers. -/
theorem exists_forUs (h : Carries a f) :
    ∃ self arr, receivePacket self (f.received []) = some arr ∧ arr.isForUs = true := by
  cases h with
  | broadcast =>
    exact ⟨rimeaddrNull, _, receivePacket_broadcast (packetType_initBroadcastPacket ..) [], rfl⟩
  | unicast addr =>
    refine ⟨addr, _, receivePacket_unicast (packetType_initUnicastPacket ..) [], ?_⟩
    rw [if_pos rfl]
  | multicast ids hne hids =>
    obtain ⟨self, hself⟩ := List.exists_mem_of_ne_nil ids hne
    refine ⟨self, _, receivePacket_multicast (packetType_initMulticastPacket ..) hids [], ?_⟩
    rw [if_pos hself]

/-- A frame carries one packet only: the one its receivers are given. -/
theorem inj (h : Carries a f) (h' : Carries b f) (ha : a.data.length ≤ 24)
    (hb : b.data.length ≤ 24) : a = b := by
  obtain ⟨self, arr, harr, hfor⟩ := h.exists_forUs
  have hgiven := h.received ha harr hfor
  have hgiven' := h'.received hb harr hfor
  have horiginator : a.originator = b.originator := hgiven.originator.symm.trans hgiven'.originator
  have hseqno : a.seqno = b.seqno := hgiven.seqno.symm.trans hgiven'.seqno
  have hdata : a.data = b.data := hgiven.payload.symm.trans hgiven'.payload
  have hsender : a.sender = b.sender := h.sender.symm.trans h'.sender
  have hhops : a.hops = b.hops := h.hops.symm.trans h'.hops
  obtain ⟨_, _, _, _, _⟩ := a
  obtain ⟨_, _, _, _, _⟩ := b
  simp_all only

end Frame.Carries

/-! ### What `send_neighbor_data` sends -/

/-- The frame built from the header and the data of `p` and from the length and the awaited
neighbours of `bp` carries what a slot with all of these holds. -/
theorem carries_neighborDataFrame {p : Packet} {bp : BufferedPacket} {f : Frame}
    (hdata : BufferedPacket.IsData { bp with p := p }) (h : Ec.neighborDataFrame p bp = some f) :
    f.Carries (BufferedPacket.args { bp with p := p }) := by
  unfold Ec.neighborDataFrame at h
  split at h
  · split at h
    · unfold Ec.targetedFrame at h
      have hne : bp.unackedNs.addrs ≠ [] := by
        intro hnil
        simp [hnil] at h
      have hle : bp.unackedNs.addrs.length ≤ maxNeighbors := bp.unackedNs.le
      simp only at h
      split at h
      · cases h
      · cases h
        exact .unicast _
      · cases h
        exact .multicast _ hne hle
    · -- the length of a whole frame does not overflow
      have hlen : (7 + bp.dataLen).toNat - 7 = bp.dataLen.toNat := by
        have hshort : bp.dataLen.toNat ≤ 24 := hdata.short
        rw [UInt8.toNat_add]
        change (7 + bp.dataLen.toNat) % 256 - 7 = _
        omega
      have hhdr : p.hdr = _ := hdata.hdr_eq
      cases h
      rw [hlen, hhdr]
      exact .broadcast
  · cases h

namespace Ec

/-- The packet that is sent next is sent with its own header and data: those of the packet that
was the first before any was dropped are the same. -/
def SendsOwn (c : Ec) : Prop :=
  ∀ i ∈ c.sq.first .neighborData, ∀ j ∈ c.unspent .neighborData maxTimesSentMesh,
    BufferedPacket.args { c.sq.item j with p := (c.sq.item i).p } = (c.sq.item j).args

instance (c : Ec) : Decidable c.SendsOwn := by unfold SendsOwn; infer_instance

theorem SendsOwn.same {c c' : Ec} (h : c.Same c') (hc : c.SendsOwn) : c'.SendsOwn := by
  unfold SendsOwn unspent at hc ⊢
  rw [h.sq]
  exact hc

end Ec

/-- When the event of the timer for neighbour data is handled and the radio takes frames, the
connection meets `P`. -/
def EcNode.FiresWhen {σ ε : Type*} (P : Ec → Prop) (s : EcNode σ) : NodeEvent ε → Prop
  | .timer .neighborData true => (s.conn.timers .neighborData).listed = true → P s.conn
  | _ => True

instance {σ ε : Type*} (P : Ec → Prop) [DecidablePred P] (s : EcNode σ) (ev : NodeEvent ε) :
    Decidable (s.FiresWhen P ev) := by
  rcases ev with _ | _ | _ | ⟨_ | _ | _ | _ | _ | _ | _ | _, _ | _⟩ | _ | _ <;>
    unfold EcNode.FiresWhen <;> infer_instance

/-- Surroundings in which neighbour data is sent in states that meet `P`, and nothing else is
known. -/
def MoveEnv.firesWhen (P : Ec → Prop) : MoveEnv :=
  { MoveEnv.any with fires := fun c radio => radio = true → P c }

/-- An event that meets the condition is a sequence of moves in such surroundings. -/
theorem EcNode.FiresWhen.shape {σ ε : Type*} {A : Application σ ε} {P : Ec → Prop}
    {s s' : EcNode σ} {ev : NodeEvent ε} (hP : ∀ {c c' : Ec}, c.Same c' → P c → P c')
    (hfires : s.FiresWhen P ev) (h : s.step A ev = .ok s') :
    Shape (.firesWhen P) s.conn s'.conn := by
  refine EcNode.step_shape ?_ h
  refine ⟨fun _ _ _ _ _ _ => trivial, fun _ _ _ _ _ _ _ _ _ _ _ => trivial,
    fun _ _ _ _ _ => trivial, trivial, ?_⟩
  rintro radio rfl hlisted c hsame rfl
  exact hP hsame (hfires hlisted)

end EmergencyNet
