import EmergencyNet.Conn.Order

/-!
# Decoding undoes encoding

A data packet goes over the air as a broadcast, a multicast or a unicast frame, and each
receiver takes the frame apart again.  A frame built from the slot of a queued packet is
read as this packet by the nodes it is for and by no other.  `send_neighbor_data` builds it
from two slots when it has just dropped a packet; then the frame is read as the queued
packet exactly when the dropped one has the same header and begins with the same data.

## Main definitions

* `RecvArgs.Yields` — a callback is given all that was handed over.
* `Frame.DecodesTo` — the receivers of a frame, and what they read from it.
* `Ec.QueuesData` — the packets on a list were enqueued as data.

## Main results

* `decodesTo_broadcast`, `decodesTo_unicast`, `decodesTo_multicast` — the three forms.
* `frames_decode_iff` — **the frames the two timers send are read as the queued packet.**
-/

namespace EmergencyNet

/-- `PACKETBUF_SIZE`. -/
def packetbufSize : ℕ := 128

/-! ### What a frame is read as -/

/-- The callback is given packet `a`. -/
structure RecvArgs.Yields (r : RecvArgs) (a : SendArgs) : Prop where
  originator : r.originator = a.originator
  sender : r.sender = a.sender
  hops : r.hops = a.hops
  seqno : r.seqno = a.seqno
  payload : r.payload = a.data
  dataLen : r.dataLen.toNat = a.data.length

theorem RecvArgs.Yields.inj {r : RecvArgs} {a b : SendArgs} (ha : r.Yields a) (hb : r.Yields b) :
    a = b := by
  obtain ⟨_, _, _, _, _⟩ := a
  obtain ⟨_, _, _, _, _⟩ := b
  obtain ⟨ho, hs, hh, hq, hp, -⟩ := ha
  obtain ⟨ho', hs', hh', hq', hp', -⟩ := hb
  simp only at ho hs hh hq hp ho' hs' hh' hq' hp'
  rw [← ho, ← hs, ← hh, ← hq, ← hp, ho', hs', hh', hq', hp']

/-- A frame sent on channel `ch` is for the `receivers`, who read packet `a` from it, whatever
lies behind it in their buffers; no other node takes anything from it. -/
structure Frame.DecodesTo.{u} (f : Frame) (ch : Channel) (a : SendArgs)
    (receivers : Rimeaddr → Prop) : Prop where
  not_ack : f.hdr.isPacketFlagSet PacketFlags.ack = false
  arrival : ∀ x stale, ∃ arr, receivePacket x (f.received stale) = some arr ∧
    (arr.isForUs = true ↔ receivers x) ∧
    (arr.isForUs = true → (EcNode.recvArgs f.hdr arr).Yields a)
  delivery : ∀ {σ : Type u} (cb : EcCallbacks σ) (s : EcNode σ) (stale : List UInt8)
    (k : Callback) (r : RecvArgs), s.delivery cb ch (f.received stale) = some (k, r) →
      receivers (cb.addr s.app) ∧ r.Yields a
  others : ∀ {σ : Type u} (cb : EcCallbacks σ) (s : EcNode σ) (stale : List UInt8),
    ¬ receivers (cb.addr s.app) → s.radioCallback cb ch (f.received stale) = .ok s

namespace Frame

variable {f : Frame} {ch : Channel} {a b : SendArgs} {receivers receivers' : Rimeaddr → Prop}

/-- The switch on the packet type decides on everything that follows. -/
theorem DecodesTo.of_receivePacket (hch : ch ≠ .timesynch) (mc uc : Bool)
    [DecidablePred receivers] (hlen : a.data.length < 256)
    (hack : f.hdr.isPacketFlagSet PacketFlags.ack = false)
    (hhdr : f.hdr.originator = a.originator ∧ f.hdr.sender = a.sender ∧ f.hdr.hops = a.hops ∧
      f.hdr.seqno = a.seqno)
    (h : ∀ x stale, receivePacket x (f.received stale) = some (if receivers x then
      ⟨true, mc, uc, a.data ++ stale, UInt8.ofNat a.data.length⟩ else .other)) :
    f.DecodesTo ch a receivers := by
  -- the length is kept in a byte
  have hdataLen : (UInt8.ofNat a.data.length).toNat = a.data.length := by
    rw [UInt8.toNat_ofNat']
    omega
  have hyields : ∀ stale, (EcNode.recvArgs f.hdr
      ⟨true, mc, uc, a.data ++ stale, UInt8.ofNat a.data.length⟩).Yields a := fun stale =>
    ⟨hhdr.1, hhdr.2.1, hhdr.2.2.1, hhdr.2.2.2, by
      change memRead (a.data ++ stale) (UInt8.ofNat a.data.length).toNat = a.data
      rw [hdataLen, memRead_append_length], hdataLen⟩
  refine ⟨hack, fun x stale => ⟨_, h x stale, ?_⟩, fun cb s stale k r hdel => ?_,
    fun cb s stale hnot => ?_⟩
  · by_cases hx : receivers x
    · rw [if_pos hx]
      exact ⟨iff_of_true rfl hx, fun _ => hyields stale⟩
    · rw [if_neg hx]
      exact ⟨iff_of_false (by decide) hx, fun hfor => by cases hfor⟩
  · by_cases hx : receivers (cb.addr s.app)
    · rw [EcNode.delivery, h, if_pos hx, Option.bind_some] at hdel
      split at hdel
      · cases hdel
        exact ⟨hx, hyields stale⟩
      · cases hdel
    · have hnone : s.delivery cb ch (f.received stale) = none := by
        refine EcNode.delivery_of_not_accepts (h _ stale) fun hacc => ?_
        have hfor := hacc.2.1
        rw [if_neg hx] at hfor
        cases hfor
      cases hnone.symm.trans hdel
  · have harr := h (cb.addr s.app) stale
    rw [if_neg hnot] at harr
    cases ch with
    | timesynch => exact absurd rfl hch
    | neighbor =>
      change s.neighborRecv cb _ = _
      rw [EcNode.neighborRecv, harr]
      rfl
    | broadcast =>
      change s.broadcastRecv cb _ = _
      rw [EcNode.broadcastRecv, harr]
      rfl

theorem decodesTo_broadcast (hch : ch ≠ .timesynch) (hlen : a.data.length < 256) :
    DecodesTo ⟨initBroadcastPacket 0 a.hops a.originator a.sender a.seqno, a.data⟩ ch a
      fun _ => True := by
  refine .of_receivePacket hch false false hlen ?_ ⟨rfl, rfl, rfl, rfl⟩ fun x stale => ?_
  · rw [isPacketFlagSet_initBroadcastPacket]
    decide
  · rw [receivePacket_broadcast (packetType_initBroadcastPacket ..), if_pos trivial]

theorem decodesTo_unicast (hch : ch ≠ .timesynch) (hlen : a.data.length < 256) (addr : Rimeaddr) :
    DecodesTo ⟨initUnicastPacket 0 a.hops a.originator a.sender a.seqno, unicastBody addr a.data⟩
      ch a (addr = ·) := by
  refine .of_receivePacket hch false true hlen ?_ ⟨rfl, rfl, rfl, rfl⟩ fun x stale =>
    receivePacket_unicast (packetType_initUnicastPacket ..) stale
  rw [isPacketFlagSet_initUnicastPacket]
  decide

theorem decodesTo_multicast (hch : ch ≠ .timesynch) (hlen : a.data.length < 256)
    {ids : List Rimeaddr} (hids : ids.length ≤ maxNeighbors) :
    DecodesTo ⟨initMulticastPacket 0 a.hops a.originator a.sender a.seqno,
      multicastBody ids a.data⟩ ch a (· ∈ ids) := by
  refine .of_receivePacket hch true false hlen ?_ ⟨rfl, rfl, rfl, rfl⟩ fun x stale =>
    receivePacket_multicast (packetType_initMulticastPacket ..) hids stale
  rw [isPacketFlagSet_initMulticastPacket]
  decide

/-- A frame that has a receiver is read as one packet only. -/
theorem DecodesTo.inj (ha : f.DecodesTo ch a receivers) (hb : f.DecodesTo ch b receivers')
    {x : Rimeaddr} (hx : receivers x) : a = b := by
  obtain ⟨arr, harr, hfor, hyields⟩ := ha.arrival x []
  obtain ⟨arr', harr', -, hyields'⟩ := hb.arrival x []
  cases harr.symm.trans harr'
  exact (hyields (hfor.mpr hx)).inj (hyields' (hfor.mpr hx))

end Frame

/-! ### What a frame is built from -/

namespace BufferedPacket

/-- The size of the multicast or unicast frame for the neighbours that are awaited. -/
def targetedSize (bp : BufferedPacket) : ℕ :=
  if bp.unackedNs.addrs.length = 1 then unicastPacketHdrSize + bp.dataLen.toNat
  else multicastPacketHdrSize + 2 * bp.unackedNs.addrs.length + bp.dataLen.toNat

/-- The size of the frame `send_neighbor_data` builds. -/
def neighborDataSize (bp : BufferedPacket) : ℕ :=
  if bp.timesSent > 0 then bp.targetedSize else broadcastPacketHdrSize + bp.dataLen.toNat

/-- The nodes the next frame of `send_neighbor_data` is for: all of them the first time, then
the neighbours that are awaited. -/
def neighborDataReceivers (bp : BufferedPacket) (x : Rimeaddr) : Prop :=
  bp.timesSent = 0 ∨ x ∈ bp.unackedNs.addrs

end BufferedPacket

section Built

variable {p : Packet} {bp : BufferedPacket} {ch : Channel}

theorem length_args_lt (bp : BufferedPacket) : bp.args.data.length < 256 := by
  rw [BufferedPacket.length_args]
  exact bp.dataLen.toNat_lt

/-- The multicast or unicast frame is read by the neighbours that are awaited. -/
theorem decodesTo_targetedFrame (hch : ch ≠ .timesynch) (hne : bp.unackedNs.addrs ≠ []) :
    ∃ f, Ec.targetedFrame p bp = some f ∧
      f.DecodesTo ch (BufferedPacket.args { bp with p := p }) (· ∈ bp.unackedNs.addrs) := by
  have hle : bp.unackedNs.addrs.length ≤ maxNeighbors := bp.unackedNs.le
  have hlen := length_args_lt { bp with p := p }
  unfold Ec.targetedFrame
  match haddrs : bp.unackedNs.addrs with
  | [] => exact absurd haddrs hne
  | [addr] =>
    have hone : (addr = ·) = (· ∈ [addr]) := by
      funext x
      exact propext (eq_comm.trans List.mem_singleton.symm)
    refine ⟨_, rfl, ?_⟩
    rw [← hone]
    exact Frame.decodesTo_unicast hch hlen addr
  | a₁ :: a₂ :: ids =>
    rw [haddrs] at hle
    exact ⟨_, rfl, Frame.decodesTo_multicast hch hlen hle⟩

/-- The frame of `send_neighbor_data` is read as what a slot with the header and the data of
`p` and all else of `bp` holds. -/
theorem decodesTo_neighborDataFrame (hch : ch ≠ .timesynch)
    (hflags : p.hdr.flags = PacketFlags.broadcast) (hne : bp.unackedNs.addrs ≠ [])
    (hfits : bp.neighborDataSize ≤ packetbufSize) :
    ∃ f, Ec.neighborDataFrame p bp = some f ∧
      f.DecodesTo ch (BufferedPacket.args { bp with p := p }) bp.neighborDataReceivers := by
  have hset : p.hdr.isPacketFlagSet PacketFlags.broadcast = true := by
    rw [Header.isPacketFlagSet, hflags]
    decide
  unfold Ec.neighborDataFrame
  rw [if_pos hset]
  by_cases hsent : bp.timesSent > 0
  · have hreceivers : bp.neighborDataReceivers = (· ∈ bp.unackedNs.addrs) := by
      funext x
      have hzero : bp.timesSent ≠ 0 := (UInt8.pos_iff_ne_zero).mp hsent
      simp [BufferedPacket.neighborDataReceivers, hzero]
    rw [if_pos hsent, hreceivers]
    exact decodesTo_targetedFrame hch hne
  · have hreceivers : bp.neighborDataReceivers = fun _ => True := by
      funext x
      have hzero : bp.timesSent = 0 := by
        by_contra hne
        exact hsent (UInt8.pos_iff_ne_zero.mpr hne)
      simp [BufferedPacket.neighborDataReceivers, hzero]
    -- the frame fits, so its 8-bit length does not overflow
    have hlen : (7 + bp.dataLen).toNat - 7 = bp.dataLen.toNat := by
      rw [BufferedPacket.neighborDataSize, if_neg hsent] at hfits
      unfold broadcastPacketHdrSize packetbufSize at hfits
      rw [UInt8.toNat_add]
      change (7 + bp.dataLen.toNat) % 256 - 7 = _
      omega
    have hhdr : p.hdr = initBroadcastPacket 0 p.hdr.hops p.hdr.originator p.hdr.sender
        p.hdr.seqno := by
      calc p.hdr = ⟨p.hdr.flags, p.hdr.seqno, p.hdr.sender, p.hdr.originator, p.hdr.hops⟩ := rfl
        _ = _ := by rw [hflags]; rfl
    rw [if_neg hsent, hreceivers]
    refine ⟨_, rfl, ?_⟩
    have hframe := Frame.decodesTo_broadcast hch (length_args_lt { bp with p := p })
    rw [hlen, hhdr]
    exact hframe

end Built

/-! ### What the timers send -/

namespace Ec

/-- The packets on list `t` were enqueued as data. -/
def QueuesData (c : Ec) (t : MsgType) : Prop :=
  ∀ i ∈ c.sq.prioHeads t, (c.sq.item i).p.hdr.flags = PacketFlags.broadcast

instance (c : Ec) (t : MsgType) : Decidable (c.QueuesData t) := by
  unfold QueuesData
  infer_instance

variable {c : Ec} {i j : ℕ} {f : Frame}

theorem sendNeighborData_sends (hfirst : c.sq.first .neighborData = some i)
    (hleft : c.unspent .neighborData maxTimesSentMesh = some j)
    (hframe : neighborDataFrame (c.sq.item i).p (c.sq.item j) = some f) :
    ∃ c' l, c.sendNeighborData true = .ok c' ∧ c'.trace = .frame .neighbor i f :: l := by
  obtain ⟨hdrops, hj, -⟩ := dropSpent_drops .neighborData maxTimesSentMesh _ c rfl
  unfold sendNeighborData
  rw [hfirst]
  simp only
  generalize dropSpent maxTimesSentMesh (c.sq.prioHeads .neighborData) c = res at hdrops hj ⊢
  obtain ⟨c₁, left⟩ := res
  obtain rfl : left = some j := hj.trans hleft
  simp only [hdrops.item, hframe]
  exact ⟨_, _, rfl, rfl⟩

theorem sendMulticastUnicastData_sends (hfirst : c.sq.first .multicastUnicastData = some i)
    (hframe : targetedFrame (c.sq.item i).p (c.sq.item i) = some f) :
    ∃ c' l, c.sendMulticastUnicastData true = .ok c' ∧ c'.trace = .frame .broadcast i f :: l := by
  unfold sendMulticastUnicastData
  simp only [hfirst, hframe]
  exact ⟨_, _, rfl, rfl⟩

/-- The frame sent for packet `j` is read as packet `j`. -/
def NeighborDataDecodes.{u} (c : Ec) (j : ℕ) : Prop :=
  ∃ c' i f l, c.sendNeighborData true = .ok c' ∧ c'.trace = .frame .neighbor i f :: l ∧
    Frame.DecodesTo.{u} f .neighbor (c.sq.item j).args (c.sq.item j).neighborDataReceivers

theorem neighborDataDecodes_iff (hqueued : c.QueuesData .neighborData)
    (hleft : c.unspent .neighborData maxTimesSentMesh = some j)
    (hne : (c.sq.item j).unackedNs.addrs ≠ [])
    (hfits : (c.sq.item j).neighborDataSize ≤ packetbufSize) :
    c.NeighborDataDecodes j ↔ c.SendsOwn := by
  have hj : j ∈ c.sq.prioHeads .neighborData := List.mem_of_find?_eq_some hleft
  obtain ⟨i, rest, hi⟩ := List.exists_cons_of_ne_nil (List.ne_nil_of_mem hj)
  have hfirst : c.sq.first .neighborData = some i := by
    rw [PacketBuffer.first, hi]
    rfl
  have hflags := hqueued i (by simp [hi])
  obtain ⟨f, hframe, hdecodes⟩ :=
    decodesTo_neighborDataFrame (by decide : Channel.neighbor ≠ .timesynch) hflags hne hfits
  obtain ⟨c', l, hsend, htrace⟩ := sendNeighborData_sends hfirst hleft hframe
  have hown : c.SendsOwn ↔ BufferedPacket.args { c.sq.item j with p := (c.sq.item i).p } =
      (c.sq.item j).args := by
    refine ⟨fun h => h i hfirst j hleft, fun h i' hi' j' hj' => ?_⟩
    cases hfirst.symm.trans hi'
    cases hleft.symm.trans hj'
    exact h
  rw [hown]
  constructor
  · rintro ⟨c'', i', f', l', hsend', htrace', hdecodes'⟩
    cases hsend.symm.trans hsend'
    cases htrace.symm.trans htrace'
    -- every awaited neighbour reads the frame in both ways
    obtain ⟨x, hx⟩ := List.exists_mem_of_ne_nil _ hne
    exact hdecodes.inj hdecodes' (Or.inr hx)
  · intro hargs
    rw [hargs] at hdecodes
    exact ⟨c', i, f, l, hsend, htrace, hdecodes⟩

/-! ### The lists of data packets -/

variable {t : MsgType} {env : MoveEnv} {c' : Ec}

theorem QueuesData.shrinks (h : c.QueuesData t) (hshrinks : c.sq.Shrinks t c'.sq) :
    c'.QueuesData t := by
  intro k hk
  rw [(hshrinks.same k hk).1]
  exact h k (hshrinks.list.subset hk)

/-- A packet enqueued among data packets is enqueued as data. -/
theorem QueuesData.move (ht : t = .neighborData ∨ t = .multicastUnicastData) (hc : c.QueuesData t)
    (h : Move env c c') : c'.QueuesData t := by
  have hsame : c'.sq = c.sq → c'.QueuesData t := fun hsq => hc.shrinks (hsq ▸ .refl t c.sq)
  cases h with
  | quiet h => exact hsame h.sq
  | @data _ t' i ns a _ _ _ _ hsq =>
    by_cases htt : t' = t
    · subst htt
      intro k hk
      by_cases hki : k = i
      · rw [hki, hsq.item_self]
        rfl
      · rw [hsq.prioHeads, mem_addTail] at hk
        rw [hsq.item_of_ne k hki]
        exact hc k (hk.resolve_right fun h => hki h.2)
    · exact hc.shrinks (.of_enqueued hsq (Ne.symm htt))
  | store _ _ hsq => exact hsame hsq
  | @control _ t' i ns a bp ht' _ hsq =>
    refine hc.shrinks (.of_enqueued hsq ?_)
    rcases ht with rfl | rfl <;> rcases ht' with rfl | rfl <;> decide
  | @confirm _ t' i ns a bp own ht' _ hdr _ _ hsq =>
    refine hc.shrinks (.of_enqueued hsq ?_)
    rcases ht with rfl | rfl <;> rcases ht' with rfl | rfl <;> decide
  | acked => exact hc.shrinks (EcNode.shrinks_ackRecv _ _ _)
  | once _ _ _ hsq => exact hc.shrinks (hsq ▸ .free _)
  | neighborData _ h =>
    obtain ⟨c₁, hdrops, -, hsent⟩ := sendNeighborData_cases h
    have hc₁ : c₁.QueuesData t := hc.shrinks (.drops hdrops)
    cases hsent with
    | emptied => exact hc₁
    | refused => exact hc₁
    | @sent i j f => exact hc₁.shrinks (.incrementTimesSent j)
  | targeted _ _ hsq => exact hc.shrinks (hsq ▸ .incrementTimesSent _)
  | meshed _ hsq => exact hc.shrinks (hsq ▸ .incrementTimesSent _)
  | dropped _ hsq => exact hc.shrinks (hsq ▸ .free _)

theorem QueuesData.moves (ht : t = .neighborData ∨ t = .multicastUnicastData) (hc : c.QueuesData t)
    (h : Moves env c c') : c'.QueuesData t := by
  induction h with
  | refl => exact hc
  | tail _ hmove ih => exact ih.move ht hmove

theorem QueuesData.store (hc : c.QueuesData t) (id : PacketId) :
    (c.storePacketForDupeChecks id).QueuesData t := by
  unfold storePacketForDupeChecks
  split <;> exact hc

end Ec

/-- In every state a node reaches, the packets on the lists of data packets were enqueued as
data. -/
theorem queuesData_of_reachable {σ ε : Type*} {A : Application σ ε} {s : EcNode σ}
    (h : (connMachine A).Reachable s) {t : MsgType}
    (ht : t = .neighborData ∨ t = .multicastUnicastData) : s.conn.QueuesData t := by
  refine h.invariant (I := fun s => s.conn.QueuesData t) (fun s hinit => ?_)
    fun s ev s' hs _ hstep => ?_
  · rw [hinit]
    exact fun i hi => absurd hi List.not_mem_nil
  · cases EcNode.step_shape (ev.fits_any A s s') hstep.2 with
    | moves hmoves => exact hs.moves ht hmoves
    | @received k r _ _ _ h₁ h₂ =>
      have hlog : (s.conn.log (.deliver k r)).QueuesData t := hs
      exact ((hlog.moves ht h₁).store _).moves ht h₂

/-- **The frames the two timers send are read as the queued packet**: a frame for multicast or
unicast data always is, a frame for neighbour data exactly when it is built from the header and
the data of the packet it is for. -/
theorem frames_decode_iff.{u} (c : Ec) :
    (∀ j : ℕ, c.QueuesData .neighborData →
      c.unspent .neighborData maxTimesSentMesh = some j → (c.sq.item j).unackedNs.addrs ≠ [] →
      (c.sq.item j).neighborDataSize ≤ packetbufSize →
      (Ec.NeighborDataDecodes.{u} c j ↔ c.SendsOwn)) ∧
    ∀ i : ℕ, c.sq.first .multicastUnicastData = some i →
      (c.sq.item i).unackedNs.addrs ≠ [] → (c.sq.item i).targetedSize ≤ packetbufSize →
      ∃ c' f l, c.sendMulticastUnicastData true = .ok c' ∧ c'.trace = .frame .broadcast i f :: l ∧
        Frame.DecodesTo.{u} f .broadcast (c.sq.item i).args (· ∈ (c.sq.item i).unackedNs.addrs) := by
  refine ⟨fun j hqueued hleft hne hfits => Ec.neighborDataDecodes_iff hqueued hleft hne hfits,
    fun i hfirst hne _ => ?_⟩
  obtain ⟨f, hframe, hdecodes⟩ :=
    decodesTo_targetedFrame (p := (c.sq.item i).p) (by decide : Channel.broadcast ≠ .timesynch) hne
  obtain ⟨c', l, hsend, htrace⟩ := Ec.sendMulticastUnicastData_sends hfirst hframe
  exact ⟨c', f, l, hsend, htrace, hdecodes⟩

/-! ### A frame read as another packet -/

/-- Node `1.0` hands packet `q` over for node `2.0`. -/
def offersPacket (q : UInt8) (data : List UInt8) : NodeEvent (List Effect) :=
  .process [.call (.reliableBroadcastNs (some (.single ⟨2, 0⟩)) ⟨⟨1, 0⟩, ⟨1, 0⟩, 0, q, data⟩)]

/-- Two packets, one for the neighbour and one multicast: both frames are read. -/
theorem frames_decode_two : ∃ s, (connMachine (.scripted ⟨1, 0⟩ (.single ⟨2, 0⟩))).Reachable s ∧
    (s.conn.sq.item 0).args = ⟨⟨1, 0⟩, ⟨1, 0⟩, 0, 5, [7, 8]⟩ ∧
    Ec.NeighborDataDecodes.{0} s.conn 0 ∧
    ∃ c' f l, s.conn.sendMulticastUnicastData true = .ok c' ∧
      c'.trace = .frame .broadcast 1 f :: l ∧
      Frame.DecodesTo.{0} f .broadcast (s.conn.sq.item 1).args
        (· ∈ (s.conn.sq.item 1).unackedNs.addrs) := by
  have h : (Machine.run (EcNode.advance (.scripted ⟨1, 0⟩ (.single ⟨2, 0⟩)))
      [offersPacket 5 [7, 8], .process [.call (.reliableMulticast (.single ⟨3, 0⟩)
        ⟨⟨1, 0⟩, ⟨1, 0⟩, 0, 6, []⟩)]] ⟨.opened, ()⟩).map (fun s =>
      ((s.conn.sq.item 0).args, decide (s.conn.QueuesData .neighborData ∧ s.conn.SendsOwn ∧
          s.conn.unspent .neighborData maxTimesSentMesh = some 0 ∧
          (s.conn.sq.item 0).unackedNs.addrs ≠ [] ∧
          (s.conn.sq.item 0).neighborDataSize ≤ packetbufSize),
        decide (s.conn.sq.first .multicastUnicastData = some 1 ∧
          (s.conn.sq.item 1).unackedNs.addrs ≠ [] ∧
          (s.conn.sq.item 1).targetedSize ≤ packetbufSize))) =
      some (⟨⟨1, 0⟩, ⟨1, 0⟩, 0, 5, [7, 8]⟩, true, true) := by
    decide +kernel
  obtain ⟨s, hrun, hs⟩ := Option.map_eq_some_iff.mp h
  simp only [Prod.mk.injEq, decide_eq_true_eq] at hs
  obtain ⟨hargs, ⟨hqueued, hown, hleft, hne, hfits⟩, hfirst, hne', hfits'⟩ := hs
  exact ⟨s, connMachine_reachable_of_run rfl hrun, hargs,
    ((frames_decode_iff s.conn).1 0 hqueued hleft hne hfits).mpr hown,
    (frames_decode_iff s.conn).2 1 hfirst hne' hfits'⟩

/-- **A frame is read as a packet that was dropped**: packet 1 is sent ten times and never
acknowledged; the next frame, which is for packet 2, has the header of packet 1 and the first
byte of its data. -/
theorem frame_of_dropped : ∃ s, (connMachine (.scripted ⟨1, 0⟩ (.single ⟨2, 0⟩))).Reachable s ∧
    s.conn.unspent .neighborData maxTimesSentMesh = some 1 ∧
    (s.conn.sq.item 1).args = ⟨⟨1, 0⟩, ⟨1, 0⟩, 0, 2, [9]⟩ ∧
    (s.conn.sq.item 1).unackedNs.addrs = [⟨2, 0⟩] ∧
    (s.conn.sq.item 1).neighborDataSize ≤ packetbufSize ∧
    ¬ Ec.NeighborDataDecodes.{0} s.conn 1 := by
  have h : (Machine.run (EcNode.advance (.scripted ⟨1, 0⟩ (.single ⟨2, 0⟩)))
      ([offersPacket 1 [1, 2, 3], offersPacket 2 [9]] ++
        (List.replicate 10 [.expire .neighborData, .timer .neighborData true]).flatten)
      ⟨.opened, ()⟩).map (fun s =>
      ((s.conn.sq.item 1).args, (s.conn.sq.item 1).unackedNs.addrs,
        decide (s.conn.QueuesData .neighborData ∧ ¬ s.conn.SendsOwn ∧
          s.conn.unspent .neighborData maxTimesSentMesh = some 1 ∧
          (s.conn.sq.item 1).neighborDataSize ≤ packetbufSize))) =
      some (⟨⟨1, 0⟩, ⟨1, 0⟩, 0, 2, [9]⟩, [⟨2, 0⟩], true) := by decide +kernel
  obtain ⟨s, hrun, hs⟩ := Option.map_eq_some_iff.mp h
  simp only [Prod.mk.injEq, decide_eq_true_eq] at hs
  obtain ⟨hargs, haddrs, hqueued, hown, hleft, hfits⟩ := hs
  refine ⟨s, connMachine_reachable_of_run rfl hrun, hleft, hargs, haddrs, hfits, fun hdecodes => ?_⟩
  exact hown ((Ec.neighborDataDecodes_iff hqueued hleft (by simp [haddrs]) hfits).mp hdecodes)

end EmergencyNet
