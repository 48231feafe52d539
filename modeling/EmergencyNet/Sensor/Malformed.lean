import EmergencyNet.App.Forwards
import EmergencyNet.Conn.Faults
import EmergencyNet.Conn.Frames
import EmergencyNet.Net.RawFrame
import EmergencyNet.Sensor.Application

/-!
# Malformed frames

Whatever is received is taken for a packet.  A frame without a type makes the switch on the type
assert, one that is too short makes the node read behind it, and the size of the receivers of a
multicast packet is kept in eight bits.  A payload of more than 24 bytes is accepted by a
callback that passes it on, and then fails the assertion of the packet buffer.

## Main definitions

* `EcNode.Takes` — the node hands a frame to a callback.
* `Node.PassesOn` — a callback passes a packet of some type on.
* `EcNode.HandlesSafely` — the frame does no harm.
* `EcNode.FrameOk` — the fields of the frame agree with its length, and a payload that is passed
  on is short enough.

## Main results

* `EcNode.handlesSafely_iff` — **a frame does no harm exactly if it is like that.**
* `EcNode.not_handlesSafely` — four that do.
-/

namespace EmergencyNet

open Packetbuf

/-- What application code does before the first of its own assertions that fails. -/
def untilAssert (l : List Effect) : List Effect :=
  l.takeWhile fun e => match e with
    | .assert b => b
    | .call _ => true

theorem completes_untilAssert (l : List Effect) : Completes (untilAssert l) :=
  fun _ hb => List.all_eq_true.mp List.all_takeWhile _ hb

/-- The callback passes a packet of type `t` on, and there is somebody to send it to. -/
def Node.PassesOn (k : Callback) (t : Option PacketType) (s : Node) : Prop :=
  s.state.isSinkNode = false ∧ (s.state.isResetMode = true → t = some .initializeBestPaths) ∧
    match k with
    | .broadcastRecv => t = some .emergency ∨ t = some .antiEmergency ∨ t = some .extractReport ∨
        (t = some .initializeBestPaths ∨ t = some .resetSystem) ∧ 0 < s.ns.size
    | .neighborRecv =>
        (t = some .initializeBestPaths ∨ t = some .resetSystem) ∧ 0 < s.ns.size
    | .multicastUnicastRecv => False

instance (k : Callback) (t : Option PacketType) (s : Node) : Decidable (s.PassesOn k t) := by
  rcases k <;> unfold Node.PassesOn <;> infer_instance

namespace EcNode

variable {σ : Type*} {cb : EcCallbacks σ} {s : EcNode σ}

/-! ### Assertions of the connection -/

/-- A call fails an assertion exactly if the queue has room for its packet, but not for the
packet's data. -/
theorem ecCall_assertFailed_iff {c : EcCall} (hc : c ≠ .timesynchNetwork) :
    c.run cb s = .error .assertFailed ↔ s.conn.sq.size ≠ sendingQueueLength ∧ ¬ c.Fits := by
  have hsend : ∀ {t timer ns} {a : SendArgs},
      s.conn.sendData t timer ns a = .error .assertFailed ↔
        s.conn.sq.size ≠ sendingQueueLength ∧
          ¬ broadcastPacketHdrSize + a.data.length < maxPacketSize := fun {t timer ns a} => by
    rw [Ec.sendData_eq_error, Ec.putBroadcast_eq_error, PacketBuffer.put_eq_assertFailed, not_lt]
  cases c with
  | reliableBroadcastNs ns a =>
    rw [EcCall.run, tryConn_eq_error]
    cases ns with
    | none => simp [Ec.ecReliableBroadcastNs, EcCall.Fits]
    | some ns =>
      unfold Ec.ecReliableBroadcastNs EcCall.Fits
      simp only
      split
      · next hpos => rw [hsend, forall_prop_of_true hpos]
      · next hpos => simp [hpos]
  | broadcast ns a => rw [EcCall.run, tryConn_eq_error]; exact hsend
  | reliableMulticast receivers a => rw [EcCall.run, tryConn_eq_error]; exact hsend
  | reliableUnicast destination a => rw [EcCall.run, tryConn_eq_error]; exact hsend
  | mesh destination seqno data =>
    rw [EcCall.run, tryConn_eq_error, Ec.ecMesh_eq_error, Ec.putUnicast_eq_error,
      PacketBuffer.put_eq_assertFailed, EcCall.Fits, not_lt]
  | timesynchOn => simp [EcCall.run, EcCall.Fits]
  | timesynchOff => simp [EcCall.run, EcCall.Fits]
  | timesynchNetwork => exact absurd rfl hc

/-- Harmless calls fail no assertion. -/
theorem runEffects_ne_assertFailed : ∀ (l : List Effect) (s : EcNode σ), Completes l →
    (∀ c, Effect.call c ∈ l → c.Harmless) → runEffects cb l s ≠ .error .assertFailed := by
  intro l
  induction l with
  | nil => intro s _ _ h; cases h
  | cons e rest ih =>
    intro s hc hfit h
    have hcrest : Completes rest := fun b hb => hc b (List.mem_cons_of_mem _ hb)
    have hfitrest : ∀ c, Effect.call c ∈ rest → c.Harmless :=
      fun c hmem => hfit c (List.mem_cons_of_mem _ hmem)
    cases e with
    | assert b =>
      have hb : b = true := hc b List.mem_cons_self
      rw [runEffects, hb, if_pos rfl] at h
      exact ih s hcrest hfitrest h
    | call c =>
      have hharm := hfit c List.mem_cons_self
      rw [runEffects, bind_eq_error] at h
      rcases h with h | ⟨s', -, h⟩
      · exact ((ecCall_assertFailed_iff hharm.2).mp h).2 hharm.1
      · exact ih s' hcrest hfitrest h

/-- What a callback sends fails an assertion exactly if the packet it passes on does not fit. -/
theorem runEffects_sends {fs : Option EcCall} {n t : Node} (h : Sends fs.toList n t)
    (h0 : n.calls = []) (hroom : s.conn.sq.size ≠ sendingQueueLength)
    (hfs : ∀ c ∈ fs, c ≠ .timesynchNetwork) :
    runEffects cb (untilAssert t.calls) s = .error .assertFailed ↔ ∃ c ∈ fs, ¬ c.Fits := by
  obtain ⟨l, hl, hharm⟩ := h
  rw [h0, List.nil_append] at hl
  constructor
  · intro herr
    by_contra hfit
    refine runEffects_ne_assertFailed _ _ (completes_untilAssert _) (fun c hmem => ?_) herr
    have hmem' : Effect.call c ∈ t.calls := (List.takeWhile_sublist _).subset hmem
    rw [hl, List.mem_append, List.mem_map] at hmem'
    rcases hmem' with ⟨c', hc', heq⟩ | hmem'
    · cases heq
      have hc' : c ∈ fs := Option.mem_toList.mp hc'
      exact ⟨not_not.mp fun hnot => hfit ⟨c, hc', hnot⟩, hfs c hc'⟩
    · exact hharm c hmem'
  · rintro ⟨c, hc, hnot⟩
    cases hc
    have hhead : untilAssert t.calls = .call c :: untilAssert l := by rw [hl]; rfl
    rw [hhead, runEffects, bind_eq_error]
    exact .inl ((ecCall_assertFailed_iff (hfs c rfl)).mpr ⟨hroom, hnot⟩)

/-! ### What is handed to a callback -/

/-- The node hands the packet to a callback: it is a data packet for the node, on the neighbour
channel from a neighbour, it is not a duplicate, and there is room for what follows. -/
def Takes (cb : EcCallbacks σ) (s : EcNode σ) (ch : Channel) (pb : Packetbuf) : Prop :=
  pb.IsFor (cb.addr s.app) ∧ pb.p.hdr.isPacketFlagSet PacketFlags.ack = false ∧
    s.fromNeighbor cb ch pb.p.hdr.sender = true ∧ s.conn.isDupe pb.p.hdr.id = false ∧
    s.conn.sq.hasRoomForPackets 3 = true

/-- The callback for a packet on channel `ch`. -/
def callbackOf (ch : Channel) (pb : Packetbuf) : Callback :=
  if ch = .neighbor then .neighborRecv
  else if pb.p.hdr.packetType != PacketFlags.broadcast then .multicastUnicastRecv
  else .broadcastRecv

theorem delivery_eq_some_iff {ch : Channel} {pb : Packetbuf} (hch : ch ≠ .timesynch)
    {k : Callback} {r : RecvArgs} : s.delivery cb ch pb = some (k, r) ↔
      s.Takes cb ch pb ∧ ∃ a, receivePacket (cb.addr s.app) pb = some a ∧ a.isForUs = true ∧
        k = callbackOf ch pb ∧ r = recvArgs pb.p.hdr a := by
  cases ha : receivePacket (cb.addr s.app) pb with
  | none => simp [delivery, ha]
  | some a =>
    obtain ⟨hfor, hmc⟩ := isForUs_iff ha
    have hk : a.isForUs = true → callbackFor ch a = callbackOf ch pb := fun h => by
      rw [callbackFor, callbackOf, hmc h]
    constructor
    · intro h
      by_cases hacc : s.Accepts cb ch pb.p.hdr a
      · rw [delivery_of_accepts ha hacc] at h
        cases h
        obtain ⟨-, hus, hack, hfrom, hdupe, hroom⟩ := hacc
        exact ⟨⟨hfor.mp hus, hack, hfrom, hdupe, hroom⟩, a, rfl, hus, hk hus, rfl⟩
      · rw [delivery_of_not_accepts ha hacc] at h
        cases h
    · rintro ⟨⟨-, hack, hfrom, hdupe, hroom⟩, a', ha', hus, rfl, rfl⟩
      cases ha'
      rw [delivery_of_accepts ha ⟨hch, hus, hack, hfrom, hdupe, hroom⟩, hk hus]

end EcNode

/-! ### Passing a packet on -/

namespace Node

variable {s : Node} {k : Callback} {r : RecvArgs}

/-- The sensor node passes a packet on that does not fit exactly if it passes packets of this type
on and the payload has more than 24 bytes. -/
theorem forwarded_not_fits_iff (hns : s.ecNs = true) :
    (∃ c ∈ s.forwarded k r, ¬ c.Fits) ↔
      s.PassesOn k (packetTypeAt r.data) ∧ 24 < r.dataLen.toNat := by
  have hlong : ¬ broadcastPacketHdrSize + r.payload.length < maxPacketSize ↔
      24 < r.dataLen.toNat := by
    rw [RecvArgs.payload, length_memRead, broadcastPacketHdrSize, maxPacketSize]
    omega
  have hbroadcast : ∀ a : SendArgs, a.data = r.payload →
      (¬ (EcCall.broadcast s.connNs a).Fits ↔ 24 < r.dataLen.toNat) := by
    rintro a ha
    rw [EcCall.Fits, ha, hlong]
  have hreliable : ∀ a : SendArgs, a.data = r.payload →
      (¬ (EcCall.reliableBroadcastNs s.connNs a).Fits ↔
        0 < s.ns.size ∧ 24 < r.dataLen.toNat) := by
    rintro a ha
    have hsize : s.ns.addrs.addrs.length = s.ns.size := List.length_map _
    rw [connNs, if_pos hns, EcCall.Fits, ha, hsize, Classical.not_imp, hlong]
  by_cases hoff : (s.ignoredInResetMode r || s.state.isSinkNode) = true
  · rw [forwarded_of_ignored hoff]
    refine iff_of_false (by simp) ?_
    rintro ⟨⟨hsink, hmode, -⟩, -⟩
    rw [hsink, Bool.or_false, ignoredInResetMode, Bool.and_eq_true, bne_iff_ne] at hoff
    exact hoff.2 (hmode hoff.1)
  · have hon : s.state.isSinkNode = false ∧
        (s.state.isResetMode = true → packetTypeAt r.data = some .initializeBestPaths) := by
      rw [Bool.or_eq_true, not_or] at hoff
      refine ⟨Bool.eq_false_iff.mpr hoff.2, fun hmode => ?_⟩
      by_contra hne
      exact hoff.1 (by rw [ignoredInResetMode, hmode, Bool.true_and, bne_iff_ne]; exact hne)
    rw [Bool.not_eq_true, Bool.or_eq_false_iff] at hoff
    unfold forwarded PassesOn
    simp only [hoff.1, hon.1, Bool.or_self, Bool.false_eq_true, if_false, iff_true_intro hon.2,
      true_and]
    -- what is passed on depends on the callback and the type only
    generalize packetTypeAt r.data = t
    cases k <;> rcases t with _ | t <;> try cases t
    all_goals simp [hbroadcast, hreliable]

theorem forwarded_ne_timesynchNetwork : ∀ c ∈ s.forwarded k r, c ≠ .timesynchNetwork := by
  intro c hc
  unfold forwarded at hc
  simp only at hc
  split at hc
  · cases hc
  · split at hc <;> first
      | (cases hc; exact fun h => by cases h)
      | cases hc

/-- **What a data callback sends.** -/
theorem sends_recv (k : Callback) (r : RecvArgs) (s : Node) :
    Sends (s.forwarded k r).toList (s.wake s.now) (mainRegSensor.recv k r s).1 := by
  cases k with
  | broadcastRecv => exact sends_broadcastsRecv (s := s.wake s.now) r
  | multicastUnicastRecv => exact sends_mcUcRecv (s := s.wake s.now) r
  | neighborRecv => exact sends_neighborsRecv (s := s.wake s.now) r

end Node

/-! ### Harmless frames -/

namespace EcNode

variable {s : EcNode Node} {ch : Channel} {bs stale : List UInt8}

/-- The frame `bs` that arrives on channel `ch`, with `stale` behind it in the buffer, does no
harm. -/
structure HandlesSafely (s : EcNode Node) (ch : Channel) (bs stale : List UInt8) : Prop where
  /-- The switch on the type does not assert. -/
  decoding : receivePacket s.app.rimeaddrNodeAddr (rawPacketbuf bs stale) ≠ none
  /-- Nothing behind the frame is read. -/
  reads : (rawPacketbuf bs stale).bytesRead s.app.rimeaddrNodeAddr ≤ bs.length
  /-- A callback is given the rest of the frame behind the header and the receivers. -/
  payload : ∀ k r, s.delivery mainRegSensor.toEcCallbacks ch (rawPacketbuf bs stale) = some (k, r) →
    r.data = (bs ++ stale).drop (rawPacketbuf bs stale).payloadStart ∧
      (rawPacketbuf bs stale).payloadStart + r.dataLen.toNat = bs.length
  /-- What the callback calls does not fail an assertion of the connection. -/
  forwarding : ∀ k r,
    s.delivery mainRegSensor.toEcCallbacks ch (rawPacketbuf bs stale) = some (k, r) →
      runEffects mainRegSensor.toEcCallbacks (untilAssert (mainRegSensor.recv k r s.app).2)
        ⟨s.conn.log (.deliver k r), (mainRegSensor.recv k r s.app).1⟩ ≠ .error .assertFailed

/-- The fields of the frame agree with its length, and a payload that is passed on has at most
24 bytes. -/
structure FrameOk (s : EcNode Node) (ch : Channel) (bs stale : List UInt8) : Prop where
  packetType : (rawPacketbuf bs stale).p.hdr.packetType ≠ 0
  decoded : (rawPacketbuf bs stale).decoded s.app.rimeaddrNodeAddr ≤ bs.length
  dataOffset : (rawPacketbuf bs stale).IsFor s.app.rimeaddrNodeAddr →
    (rawPacketbuf bs stale).dataOffset ≤ bs.length
  payloadStart : s.Takes mainRegSensor.toEcCallbacks ch (rawPacketbuf bs stale) →
    (rawPacketbuf bs stale).payloadStart ≤ bs.length
  passedOn : s.Takes mainRegSensor.toEcCallbacks ch (rawPacketbuf bs stale) →
    s.app.PassesOn (callbackOf ch (rawPacketbuf bs stale))
      (packetTypeAt ((bs ++ stale).drop (rawPacketbuf bs stale).payloadStart)) →
        bs.length ≤ (rawPacketbuf bs stale).payloadStart + 24

/-- The packet a callback passes on fails an assertion exactly if it has more than 24 bytes. -/
theorem runEffects_recv_iff (hns : s.app.ecNs = true) (k : Callback) (r : RecvArgs) (a : Action)
    (hroom : s.conn.sq.hasRoomForPackets 3 = true) :
    runEffects mainRegSensor.toEcCallbacks (untilAssert (mainRegSensor.recv k r s.app).2)
        ⟨s.conn.log a, (mainRegSensor.recv k r s.app).1⟩ = .error .assertFailed ↔
      s.app.PassesOn k (packetTypeAt r.data) ∧ 24 < r.dataLen.toNat := by
  have hcalls : (mainRegSensor.recv k r s.app).2 = (mainRegSensor.recv k r s.app).1.calls := by
    cases k <;> rfl
  have hsize : s.conn.sq.size + 3 ≤ sendingQueueLength := of_decide_eq_true hroom
  have hne : (s.conn.log a).sq.size ≠ sendingQueueLength := by
    change s.conn.sq.size ≠ _
    omega
  rw [hcalls, ← Node.forwarded_not_fits_iff hns]
  exact runEffects_sends (s := ⟨s.conn.log a, (mainRegSensor.recv k r s.app).1⟩)
    (Node.sends_recv k r s.app) rfl hne Node.forwarded_ne_timesynchNetwork

/-- **A frame does no harm at a configured node exactly if its fields agree with its length and a
payload that is passed on has at most 24 bytes.** -/
theorem handlesSafely_iff (s : EcNode Node) (hns : s.app.ecNs = true) (hch : ch ≠ .timesynch)
    (bs stale : List UInt8) (hlen : bs.length ≤ packetbufSize) :
    s.HandlesSafely ch bs stale ↔ s.FrameOk ch bs stale := by
  have hlt : bs.length < 256 := lt_of_le_of_lt hlen (by decide)
  constructor
  · intro h
    have hne : (rawPacketbuf bs stale).p.hdr.packetType ≠ 0 :=
      fun h0 => h.decoding (receivePacket_of_zero h0)
    obtain ⟨hdecoded, hoffset⟩ := (bytesRead_le_iff hlt).mp h.reads
    have hgiven : s.Takes mainRegSensor.toEcCallbacks ch (rawPacketbuf bs stale) →
        ∃ k r, k = callbackOf ch (rawPacketbuf bs stale) ∧
          s.delivery mainRegSensor.toEcCallbacks ch (rawPacketbuf bs stale) = some (k, r) := by
      intro htakes
      obtain ⟨a, ha⟩ := Option.ne_none_iff_exists'.mp h.decoding
      exact ⟨_, _, rfl, (delivery_eq_some_iff hch).mpr
        ⟨htakes, a, ha, (isForUs_iff ha).1.mpr htakes.1, rfl, rfl⟩⟩
    refine ⟨hne, hdecoded, hoffset, fun htakes => ?_, fun htakes hpasses => ?_⟩
    · obtain ⟨k, r, -, hdel⟩ := hgiven htakes
      have hend := (h.payload k r hdel).2
      omega
    · obtain ⟨k, r, rfl, hdel⟩ := hgiven htakes
      obtain ⟨hdata, hend⟩ := h.payload _ r hdel
      have hfits := mt (runEffects_recv_iff hns _ r _ htakes.2.2.2.2).mpr (h.forwarding _ r hdel)
      rw [hdata] at hfits
      have hshort : ¬ 24 < r.dataLen.toNat := fun hlong => hfits ⟨hpasses, hlong⟩
      omega
  · intro h
    have hexact : ∀ k r,
        s.delivery mainRegSensor.toEcCallbacks ch (rawPacketbuf bs stale) = some (k, r) →
        r.data = (bs ++ stale).drop (rawPacketbuf bs stale).payloadStart ∧
          (rawPacketbuf bs stale).payloadStart + r.dataLen.toNat = bs.length := by
      intro k r hdel
      obtain ⟨htakes, a, ha, hfor, -, rfl⟩ := (delivery_eq_some_iff hch).mp hdel
      exact (payload_exact_iff ha hfor hlt).mpr (h.payloadStart htakes)
    refine ⟨fun hnone => h.packetType (receivePacket_eq_none_iff.mp hnone),
      (bytesRead_le_iff hlt).mpr ⟨h.decoded, h.dataOffset⟩, hexact, fun k r hdel herr => ?_⟩
    obtain ⟨hdata, hend⟩ := hexact k r hdel
    obtain ⟨htakes, a, -, -, rfl, -⟩ := (delivery_eq_some_iff hch).mp hdel
    obtain ⟨hpasses, hlong⟩ := (runEffects_recv_iff hns _ r _ htakes.2.2.2.2).mp herr
    rw [hdata] at hpasses
    have hshort := h.passedOn htakes hpasses
    omega

/-! ### Frames that do harm -/

instance (self : Rimeaddr) (pb : Packetbuf) : Decidable (pb.IsFor self) := by
  unfold IsFor; infer_instance

instance {σ : Type*} (cb : EcCallbacks σ) (s : EcNode σ) (ch : Channel) (pb : Packetbuf) :
    Decidable (s.Takes cb ch pb) := by unfold Takes; infer_instance

/-- Node `1.0` with the one neighbour `2.0`. -/
def listener : EcNode Node :=
  .poweredUp ⟨9, 9⟩ (some (SetupPacket.bytes ⟨⟨1, 0⟩, ⟨⟨0, 1⟩, ⟨0, 1⟩⟩, 0, [⟨2, 0⟩]⟩))

/-- A frame of node `2.0` with the given flags. -/
def frameBytes (flags : UInt8) (body : List UInt8) : List UInt8 := [flags, 0, 2, 0, 2, 0, 0] ++ body

/-- A keep-alive packet does no harm. -/
theorem handlesSafely_keepAlive : listener.HandlesSafely .neighbor
    (frameBytes 0x30 [PacketType.keepAliveNeighbor.toByte]) [] :=
  (handlesSafely_iff listener (by decide) (by decide) _ [] (by decide)).mpr
    ⟨by decide, by decide, by decide, by decide +kernel, fun _ h => absurd h (by decide +kernel)⟩

/-- **Frames that do harm**: one without a type; one of three bytes; a multicast packet with 200
receivers, the first of them the node, whose payload is taken to begin among the receivers; an
emergency packet of 30 bytes, which the node passes on. -/
theorem not_handlesSafely :
    ¬ listener.HandlesSafely .neighbor (frameBytes 0 []) [] ∧
    ¬ listener.HandlesSafely .neighbor [0x30, 0, 2] [] ∧
    ¬ listener.HandlesSafely .broadcast
      (frameBytes 0x10 ([200, 1, 0] ++ List.replicate 118 0)) [] ∧
    ¬ listener.HandlesSafely .broadcast
      (frameBytes 0x30 (PacketType.emergency.toByte :: List.replicate 29 0)) [] := by
  refine ⟨fun h => h.decoding (by decide), fun h => absurd h.reads (by decide), fun h => ?_,
    fun h => ?_⟩
  · have hdel : (listener.delivery mainRegSensor.toEcCallbacks .broadcast (rawPacketbuf
        (frameBytes 0x10 ([200, 1, 0] ++ List.replicate 118 0)) [])).isSome = true := by
      decide +kernel
    obtain ⟨⟨k, r⟩, hdel⟩ := Option.isSome_iff_exists.mp hdel
    have hend := (h.payload k r hdel).2
    have hstart : (rawPacketbuf (frameBytes 0x10 ([200, 1, 0] ++ List.replicate 118 0))
        []).payloadStart = 408 := by decide +kernel
    rw [hstart] at hend
    exact absurd hend (by simp [frameBytes]; omega)
  · have hdel : ((listener.delivery mainRegSensor.toEcCallbacks .broadcast (rawPacketbuf
        (frameBytes 0x30 (PacketType.emergency.toByte :: List.replicate 29 0)) [])).map fun kr =>
          faultOf (runEffects mainRegSensor.toEcCallbacks
            (untilAssert (mainRegSensor.recv kr.1 kr.2 listener.app).2)
              ⟨listener.conn.log (.deliver kr.1 kr.2),
                (mainRegSensor.recv kr.1 kr.2 listener.app).1⟩)) =
            some (some .assertFailed) := by decide +kernel
    obtain ⟨⟨k, r⟩, hdel, hfault⟩ := Option.map_eq_some_iff.mp hdel
    exact h.forwarding k r hdel (faultOf_eq_some.mp hfault)

end EcNode

end EmergencyNet
