import EmergencyNet.Conn.Moves

/-!
# What an event runs of the application

An event runs at most one piece of application code, its process or one data callback; next
to it only the callback `timesynch`, which makes no calls.  The time synchronisation is left
alone by everything but the code for it.

## Main definitions

* `EcNode.delivery` — the data callback a received frame runs, and its arguments.
* `EcNode.upcall` — the application code an event runs.
* `EcNode.Received` — the ways the reception of a frame can end.
* `Application.Synched` — runs of the callback `timesynch` that end.

## Main results

* `EcNode.received_of_step` — **what becomes of a received frame.**
* `EcNode.step_upcall` — **an event runs the code `upcall` says, and its assertions hold.**
-/

namespace EmergencyNet

variable {σ ε : Type*} {c c' : Ec}

/-! ### Time synchronisation -/

namespace Ec

theorem store_ts (id : PacketId) : (c.storePacketForDupeChecks id).ts = c.ts := by
  unfold storePacketForDupeChecks
  split <;> rfl

theorem ite_ctimerSet_ts {p : Prop} [Decidable p] (t : Timer) :
    (if p then c.ctimerSet t else c).ts = c.ts := by
  split <;> rfl

theorem putBroadcast_ts {hdr : Header} {data : List UInt8} {ns : Option NeighborSet} {t : MsgType}
    (h : c.putBroadcast hdr data ns t = .ok c') : c'.ts = c.ts := by
  unfold putBroadcast at h
  split at h
  · cases h
  · cases h
    rfl

theorem putUnicast_ts {hdr : Header} {dest : Rimeaddr} {data : List UInt8}
    {ns : Option NeighborSet} {t : MsgType} (h : c.putUnicast hdr dest data ns t = .ok c') :
    c'.ts = c.ts := by
  unfold putUnicast at h
  split at h
  · cases h
  · cases h
    rfl

theorem sendData_ts {t : MsgType} {timer : Timer} {ns : Option NeighborSet} {a : SendArgs}
    (h : c.sendData t timer ns a = .ok c') : c'.ts = c.ts := by
  unfold sendData at h
  rw [bind_eq_ok] at h
  obtain ⟨c₁, hput, h⟩ := h
  rw [pure_eq_ok] at h
  rw [← h, ite_ctimerSet_ts, store_ts, putBroadcast_ts hput]

theorem ecReliableBroadcastNs_ts {ns : Option NeighborSet} {a : SendArgs}
    (h : c.ecReliableBroadcastNs ns a = .ok c') : c'.ts = c.ts := by
  unfold ecReliableBroadcastNs at h
  split at h
  · cases h
  · split at h
    · exact sendData_ts h
    · cases h
      rfl

theorem ecMesh_ts {dest : Rimeaddr} {seqno : UInt8} {data : List UInt8}
    (h : c.ecMesh dest seqno data = .ok c') : c'.ts = c.ts := by
  unfold ecMesh at h
  rw [bind_eq_ok] at h
  obtain ⟨c₁, hput, h⟩ := h
  rw [pure_eq_ok] at h
  rw [← h, ite_ctimerSet_ts, putUnicast_ts hput]

theorem putTimesynch_ts {hdr : Header} (h : c.putTimesynch hdr = .ok c') : c'.ts = c.ts := by
  unfold putTimesynch at h
  rw [bind_eq_ok] at h
  obtain ⟨c₁, hput, h⟩ := h
  rw [pure_eq_ok] at h
  have hts : c₁.ts = c.ts := putBroadcast_ts hput
  rw [← h]
  exact hts

theorem sendOnce_ts {t : MsgType} {ch : Channel} {timer : Timer}
    {body : BufferedPacket → List UInt8} {radio : Bool} :
    (sendOnce t ch timer body radio c).ts = c.ts := by
  unfold sendOnce
  cases c.sq.first t with
  | none => rfl
  | some i =>
    cases radio with
    | false => rfl
    | true => exact ite_ctimerSet_ts timer

theorem sendBroadcastData_ts {radio : Bool} : (c.sendBroadcastData radio).ts = c.ts := by
  unfold sendBroadcastData
  exact sendOnce_ts

theorem sendNeighborData_ts {radio : Bool} (h : c.sendNeighborData radio = .ok c') :
    c'.ts = c.ts := by
  obtain ⟨c₁, hdrops, -, hsent⟩ := sendNeighborData_cases h
  cases hsent with
  | emptied => exact hdrops.ts
  | refused => exact hdrops.ts
  | sent => exact hdrops.ts

theorem sendMulticastUnicastData_ts {radio : Bool} (h : c.sendMulticastUnicastData radio = .ok c') :
    c'.ts = c.ts := by
  unfold sendMulticastUnicastData at h
  split at h
  · cases h
    rfl
  · split at h
    · cases h
    · cases radio <;> (cases h; rfl)

theorem sendMeshData_ts : c.sendMeshData.ts = c.ts := by
  obtain ⟨hdrops, -, -⟩ := dropSpent_drops .meshData maxTimesSent _ c rfl
  unfold sendMeshData
  generalize dropSpent maxTimesSent (c.sq.prioHeads .meshData) c = res at hdrops ⊢
  obtain ⟨c₁, left⟩ := res
  cases left with
  | none => exact hdrops.ts
  | some i => exact hdrops.ts

theorem meshdataSent_ts (h : c.meshdataSent = .ok c') : c'.ts = c.ts := by
  unfold meshdataSent at h
  split at h
  · cases h
  · cases h
    rfl

theorem ackRecv_ts (timer : Timer) (hdr : Header) : (EcNode.ackRecv timer hdr c).ts = c.ts := by
  unfold EcNode.ackRecv
  cases c.sq.find (originatorSeqnoCmp hdr) with
  | none => rfl
  | some i =>
    simp only
    split <;> rfl

end Ec

/-! ### The callback `timesynch` -/

/-- `t'` is `t` after runs of the callback `timesynch` that have ended. -/
def Application.Synched (A : Application σ ε) : σ → σ → Prop :=
  Relation.ReflTransGen fun t t' => A.timesynch t = (t', true)

namespace EcNode

variable {A : Application σ ε} {s s' s₁ : EcNode σ}

/-- The node has run at most the callback `timesynch`, and time synchronisation is on if it
was. -/
structure Kept (A : Application σ ε) (s s' : EcNode σ) : Prop where
  app : A.Synched s.app s'.app
  isOn : s.conn.ts.isOn = true → s'.conn.ts.isOn = true

namespace Kept

theorem refl (s : EcNode σ) : Kept A s s := ⟨.refl, id⟩

theorem trans (h : Kept A s s₁) (h' : Kept A s₁ s') : Kept A s s' :=
  ⟨h.app.trans h'.app, h'.isOn ∘ h.isOn⟩

theorem of_conn (happ : s'.app = s.app) (hts : s'.conn.ts = s.conn.ts) : Kept A s s' :=
  ⟨happ ▸ .refl, fun h => by rw [hts, h]⟩

theorem of_tryConn {f : Ec → Except Fault Ec} (h : s.tryConn f = .ok s')
    (hts : ∀ c, f s.conn = .ok c → c.ts = s.conn.ts) : Kept A s s' := by
  obtain ⟨c, hf, rfl⟩ := tryConn_eq_ok.mp h
  exact of_conn rfl (hts c hf)

theorem of_callTimesynch (h : s.callTimesynch A.toEcCallbacks = .ok s') : Kept A s s' := by
  unfold callTimesynch at h
  split at h
  · next hends =>
    cases h
    refine ⟨.single ?_, id⟩
    exact Prod.ext rfl hends
  · cases h

theorem of_timesynchAsLeader (h : s.timesynchAsLeader A.toEcCallbacks = .ok s') : Kept A s s' := by
  unfold timesynchAsLeader at h
  rw [bind_eq_ok] at h
  obtain ⟨s₁, hput, h⟩ := h
  refine Kept.trans ?_ (of_callTimesynch h)
  obtain ⟨c₁, hrun, rfl⟩ := tryConn_eq_ok.mp hput
  refine ⟨.refl, fun hon => ?_⟩
  change c₁.ts.isOn = true
  rw [Ec.putTimesynch_ts hrun]
  exact hon

theorem of_ecTimesynchNetwork (h : s.ecTimesynchNetwork A.toEcCallbacks = .ok s') : Kept A s s' := by
  unfold ecTimesynchNetwork at h
  split at h
  · split at h
    · exact of_timesynchAsLeader h
    · cases h
      exact refl s
  · cases h

theorem of_forwardTimesynch {hdr : Header} (h : s.forwardTimesynch A.toEcCallbacks hdr = .ok s') :
    Kept A s s' :=
  of_tryConn h fun _ => Ec.putTimesynch_ts

theorem of_timesynchRecv {pb : Packetbuf} (h : s.timesynchRecv A.toEcCallbacks pb = .ok s') :
    Kept A s s' := by
  obtain rfl | hcall | hlead | hforward := timesynchRecv_cases h
  · exact refl s'
  · exact of_callTimesynch hcall
  · rw [bind_eq_ok] at hlead
    obtain ⟨s₁, hlead, hcall⟩ := hlead
    exact (of_timesynchAsLeader hlead).trans (of_callTimesynch hcall)
  · rw [bind_eq_ok] at hforward
    obtain ⟨s₁, hforward, hcall⟩ := hforward
    have hfollow : Kept A s (s.follow pb.p.hdr) := ⟨.refl, id⟩
    exact (hfollow.trans (of_forwardTimesynch hforward)).trans (of_callTimesynch hcall)

theorem of_acknowledge {t : MsgType} {timer : Timer} {hdr : Header}
    (h : s.acknowledge A.toEcCallbacks t timer hdr = .ok s') : Kept A s s' := by
  unfold acknowledge at h
  split at h
  · cases h
    exact refl s
  · refine of_tryConn h fun c hc => ?_
    rw [bind_eq_ok] at hc
    obtain ⟨c₁, hput, hset⟩ := hc
    rw [pure_eq_ok] at hset
    have hts : c₁.ts = s.conn.ts := Ec.putUnicast_ts hput
    rw [← hset]
    exact hts

theorem of_timerCallback {t : Timer} {radio : Bool}
    (h : s.timerCallback A.toEcCallbacks t radio = .ok s') : Kept A s s' := by
  cases t with
  | neighborData => exact of_tryConn h fun _ => Ec.sendNeighborData_ts
  | multicastUnicastData => exact of_tryConn h fun _ => Ec.sendMulticastUnicastData_ts
  | timesynch => exact of_timesynchAsLeader h
  | meshData =>
    rw [← Except.ok.inj h]
    exact of_conn rfl Ec.sendMeshData_ts
  | neighborAck =>
    rw [← Except.ok.inj h]
    exact of_conn rfl Ec.sendOnce_ts
  | broadcastData =>
    rw [← Except.ok.inj h]
    exact of_conn rfl Ec.sendBroadcastData_ts
  | multicastUnicastAck =>
    rw [← Except.ok.inj h]
    exact of_conn rfl Ec.sendOnce_ts
  | timesynchData =>
    rw [← Except.ok.inj h]
    exact of_conn rfl Ec.sendOnce_ts

/-- A call that does not switch time synchronisation off. -/
theorem of_ecCall {call : EcCall} (hoff : call ≠ .timesynchOff)
    (h : call.run A.toEcCallbacks s = .ok s') : Kept A s s' := by
  cases call with
  | reliableBroadcastNs ns a => exact of_tryConn h fun _ => Ec.ecReliableBroadcastNs_ts
  | broadcast ns a => exact of_tryConn h fun _ => Ec.sendData_ts
  | reliableMulticast receivers a => exact of_tryConn h fun _ => Ec.sendData_ts
  | reliableUnicast destination a => exact of_tryConn h fun _ => Ec.sendData_ts
  | mesh destination seqno data => exact of_tryConn h fun _ => Ec.ecMesh_ts
  | timesynchOn =>
    cases h
    exact ⟨.refl, fun _ => rfl⟩
  | timesynchOff => exact absurd rfl hoff
  | timesynchNetwork => exact of_ecTimesynchNetwork h

end Kept

/-- Code that runs to its end is not given a `NULL` neighbour set. -/
theorem known_of_runEffects {s' : EcNode σ} : ∀ (l : List Effect) (s : EcNode σ),
    runEffects A.toEcCallbacks l s = .ok s' → ∀ a, Effect.call (.reliableBroadcastNs none a) ∉ l := by
  intro l
  induction l with
  | nil => exact fun _ _ _ => List.not_mem_nil
  | cons e rest ih =>
    intro s h a hmem
    cases e with
    | assert b =>
      rw [runEffects] at h
      split at h
      · exact ih s h a ((List.mem_cons.mp hmem).resolve_left (fun heq => by cases heq))
      · cases h
    | call call =>
      rw [runEffects, bind_eq_ok] at h
      obtain ⟨s₁, hrun, h⟩ := h
      rcases List.mem_cons.mp hmem with heq | hmem
      · cases heq
        cases hrun
      · exact ih s₁ h a hmem

/-- Application code that runs to its end: its assertions hold, and time synchronisation is on
afterwards if it was or if it was switched on. -/
theorem runEffects_kept {s' : EcNode σ} : ∀ (l : List Effect) (s : EcNode σ),
    Effect.call .timesynchOff ∉ l →
    runEffects A.toEcCallbacks l s = .ok s' →
    Kept A s s' ∧ Completes l ∧ (Effect.call .timesynchOn ∈ l → s'.conn.ts.isOn = true) := by
  intro l
  induction l with
  | nil =>
    intro s _ h
    cases h
    exact ⟨.refl s', completes_nil, fun hmem => absurd hmem List.not_mem_nil⟩
  | cons e rest ih =>
    intro s hoff h
    have hoff' : Effect.call .timesynchOff ∉ rest := fun hmem => hoff (List.mem_cons_of_mem e hmem)
    cases e with
    | assert b =>
      rw [runEffects] at h
      split at h
      · next hb =>
        obtain ⟨hkept, hc, hon⟩ := ih s hoff' h
        refine ⟨hkept, fun b' hmem => ?_, fun hmem => hon ?_⟩
        · rcases List.mem_cons.mp hmem with heq | hmem
          · cases heq
            exact hb
          · exact hc b' hmem
        · exact (List.mem_cons.mp hmem).resolve_left (fun heq => by cases heq)
      · cases h
    | call call =>
      rw [runEffects, bind_eq_ok] at h
      obtain ⟨s₁, hrun, h⟩ := h
      -- every other call leaves time synchronisation on
      have hne : call ≠ .timesynchOff := fun heq => hoff (heq ▸ List.mem_cons_self)
      have hcall : Kept A s s₁ := .of_ecCall hne hrun
      obtain ⟨hkept, hc, hon⟩ := ih s₁ hoff' h
      refine ⟨hcall.trans hkept, fun b' hmem => ?_, fun hmem => ?_⟩
      · exact hc b' ((List.mem_cons.mp hmem).resolve_left (fun heq => by cases heq))
      · rcases List.mem_cons.mp hmem with heq | hmem
        · cases heq
          cases hrun
          exact hkept.isOn rfl
        · exact hon hmem

/-! ### The code an event runs -/

/-- The sender of a frame on the neighbour channel has to be a neighbour. -/
def fromNeighbor (cb : EcCallbacks σ) (s : EcNode σ) (ch : Channel) (sender : Rimeaddr) : Bool :=
  ch != .neighbor || (cb.ns s.app).elim false fun ns => decide (sender ∈ ns.addrs)

/-- A data packet that has arrived as `a` is new and is handed to the application. -/
def Accepts (cb : EcCallbacks σ) (s : EcNode σ) (ch : Channel) (hdr : Header) (a : Arrival) : Prop :=
  ch ≠ .timesynch ∧ a.isForUs = true ∧ hdr.isPacketFlagSet PacketFlags.ack = false ∧
    s.fromNeighbor cb ch hdr.sender = true ∧ s.conn.isDupe hdr.id = false ∧
    s.conn.sq.hasRoomForPackets 3 = true

instance (cb : EcCallbacks σ) (s : EcNode σ) (ch : Channel) (hdr : Header) (a : Arrival) :
    Decidable (s.Accepts cb ch hdr a) := by unfold Accepts; infer_instance

/-- The data callback for a packet that has arrived as `a`. -/
def callbackFor (ch : Channel) (a : Arrival) : Callback :=
  if ch = .neighbor then .neighborRecv
  else if a.mc || a.uc then .multicastUnicastRecv else .broadcastRecv

/-- The arguments a data callback is called with. -/
def recvArgs (hdr : Header) (a : Arrival) : RecvArgs :=
  ⟨hdr.originator, hdr.sender, hdr.hops, hdr.seqno, a.data, a.dataLen⟩

/-- The data callback a received frame runs, and its arguments, if it runs one. -/
def delivery (cb : EcCallbacks σ) (s : EcNode σ) (ch : Channel) (pb : Packetbuf) :
    Option (Callback × RecvArgs) :=
  (receivePacket (cb.addr s.app) pb).bind fun a =>
    if s.Accepts cb ch pb.p.hdr a then some (callbackFor ch a, recvArgs pb.p.hdr a) else none

/-- The application code an event runs. -/
def upcall (A : Application σ ε) (s : EcNode σ) : NodeEvent ε → Option (σ × List Effect)
  | .process e => some (A.process e s.app)
  | .receive ch pb => (s.delivery A.toEcCallbacks ch pb).map fun kr => A.recv kr.1 kr.2 s.app
  | _ => none

theorem delivery_of_accepts {cb : EcCallbacks σ} {ch : Channel} {pb : Packetbuf} {a : Arrival}
    (ha : receivePacket (cb.addr s.app) pb = some a) (h : s.Accepts cb ch pb.p.hdr a) :
    s.delivery cb ch pb = some (callbackFor ch a, recvArgs pb.p.hdr a) := by
  rw [delivery, ha, Option.bind_some, if_pos h]

theorem delivery_of_not_accepts {cb : EcCallbacks σ} {ch : Channel} {pb : Packetbuf} {a : Arrival}
    (ha : receivePacket (cb.addr s.app) pb = some a) (h : ¬ s.Accepts cb ch pb.p.hdr a) :
    s.delivery cb ch pb = none := by
  rw [delivery, ha, Option.bind_some, if_neg h]

/-- What acknowledges a packet that has arrived as `a`, if anything does. -/
def sendAck (cb : EcCallbacks σ) (ch : Channel) (hdr : Header) (a : Arrival) (s : EcNode σ) :
    Except Fault (EcNode σ) :=
  if ch = .neighbor then s.acknowledge cb .neighborAck .neighborAck hdr
  else if a.mc || a.uc then s.acknowledge cb .multicastUnicastAck .multicastUnicastAck hdr
  else .ok s

theorem sendAck_moves {env : MoveEnv} {cb : EcCallbacks σ} {ch : Channel} {hdr : Header}
    {a : Arrival} (hown : env.addr (cb.addr s.app))
    (hdupe : s.conn.isDupe hdr.id = true) (h : s.sendAck cb ch hdr a = .ok s') :
    Moves env s.conn s'.conn := by
  unfold sendAck at h
  split at h
  · exact acknowledge_moves (.inl rfl) hown hdupe h
  · split at h
    · exact acknowledge_moves (.inr rfl) hown hdupe h
    · cases h
      exact .refl

/-- The timer that is set when a packet sent on a channel has been acknowledged by all. -/
def ackedTimer : Channel → Timer
  | .neighbor => .neighborData
  | _ => .multicastUnicastData

/-- The ways the reception of a frame can end. -/
inductive Received (A : Application σ ε) (s s' : EcNode σ) (ch : Channel) (pb : Packetbuf) : Prop
  /-- The frame is not for the node, not from a neighbour, or there is no room for it. -/
  | ignored (hcode : s.upcall A (.receive ch pb) = none) (h : s' = s)
  /-- An acknowledgement. -/
  | acked {a : Arrival} (hcode : s.upcall A (.receive ch pb) = none) (hch : ch ≠ .timesynch)
      (ha : receivePacket (A.addr s.app) pb = some a) (hfor : a.isForUs = true)
      (hack : pb.p.hdr.isPacketFlagSet PacketFlags.ack = true)
      (hfrom : s.fromNeighbor A.toEcCallbacks ch pb.p.hdr.sender = true)
      (h : s' = s.onConn (ackRecv (ackedTimer ch) pb.p.hdr))
  /-- A data packet that was received before is acknowledged again. -/
  | duplicate {a : Arrival} (hcode : s.upcall A (.receive ch pb) = none) (hch : ch ≠ .timesynch)
      (ha : receivePacket (A.addr s.app) pb = some a) (hfor : a.isForUs = true)
      (hdata : pb.p.hdr.isPacketFlagSet PacketFlags.ack = false)
      (hfrom : s.fromNeighbor A.toEcCallbacks ch pb.p.hdr.sender = true)
      (hdupe : s.conn.isDupe pb.p.hdr.id = true)
      (h : s.sendAck A.toEcCallbacks ch pb.p.hdr a = .ok s')
  /-- A data packet is handed to the application, stored, and acknowledged. -/
  | delivered {a : Arrival} {s₁ : EcNode σ} (ha : receivePacket (A.addr s.app) pb = some a)
      (hacc : s.Accepts A.toEcCallbacks ch pb.p.hdr a)
      (hdeliver : s.deliver A.toEcCallbacks (callbackFor ch a) (recvArgs pb.p.hdr a) = .ok s₁)
      (h : (s₁.onConn (Ec.storePacketForDupeChecks pb.p.hdr.id)).sendAck A.toEcCallbacks ch
        pb.p.hdr a = .ok s')
  /-- A time synchronisation packet. -/
  | synch (hcode : s.upcall A (.receive ch pb) = none) (hch : ch = .timesynch)
      (h : s.timesynchRecv A.toEcCallbacks pb = .ok s')

theorem upcall_of_not_accepts {ch : Channel} {pb : Packetbuf} {a : Arrival}
    (ha : receivePacket (A.addr s.app) pb = some a)
    (hnot : ¬ s.Accepts A.toEcCallbacks ch pb.p.hdr a) : s.upcall A (.receive ch pb) = none := by
  change (s.delivery A.toEcCallbacks ch pb).map _ = none
  rw [delivery_of_not_accepts ha hnot]
  rfl

theorem upcall_of_accepts {ch : Channel} {pb : Packetbuf} {a : Arrival}
    (ha : receivePacket (A.addr s.app) pb = some a)
    (hacc : s.Accepts A.toEcCallbacks ch pb.p.hdr a) : s.upcall A (.receive ch pb) =
      some (A.recv (callbackFor ch a) (recvArgs pb.p.hdr a) s.app) := by
  change (s.delivery A.toEcCallbacks ch pb).map _ = _
  rw [delivery_of_accepts ha hacc]
  rfl

/-- The branch for data packets, on a channel that they may be received on. -/
theorem Received.of_dataRecv {ch : Channel} {pb : Packetbuf} {a : Arrival}
    (ha : receivePacket (A.addr s.app) pb = some a) (hch : ch ≠ .timesynch)
    (hfor : a.isForUs = true) (hdata : pb.p.hdr.isPacketFlagSet PacketFlags.ack = false)
    (hfrom : s.fromNeighbor A.toEcCallbacks ch pb.p.hdr.sender = true)
    (h : s.dataRecv A.toEcCallbacks (callbackFor ch a) (sendAck A.toEcCallbacks ch pb.p.hdr a)
      pb.p.hdr a = .ok s') : Received A s s' ch pb := by
  unfold dataRecv at h
  split at h
  · next hdupe =>
    refine .duplicate (upcall_of_not_accepts ha fun hacc => ?_) hch ha hfor hdata hfrom hdupe h
    exact absurd hdupe (by rw [hacc.2.2.2.2.1]; simp)
  · next hdupe =>
    split at h
    · next hroom =>
      rw [bind_eq_ok] at h
      obtain ⟨s₁, hdeliver, h⟩ := h
      exact .delivered ha ⟨hch, hfor, hdata, hfrom, by simpa using hdupe, hroom⟩ hdeliver h
    · next hroom =>
      cases h
      exact .ignored (upcall_of_not_accepts ha fun hacc => hroom hacc.2.2.2.2.2) rfl

/-- **What becomes of a received frame.** -/
theorem received_of_step {ch : Channel} {pb : Packetbuf} (h : s.step A (.receive ch pb) = .ok s') :
    Received A s s' ch pb := by
  cases ch with
  | neighbor =>
    change s.neighborRecv A.toEcCallbacks pb = .ok s' at h
    unfold neighborRecv at h
    split at h
    · cases h
    · next a ha =>
      split at h
      · next hfor =>
        split at h
        · cases h
        · next ns hns =>
          have hfrom : s.fromNeighbor A.toEcCallbacks .neighbor pb.p.hdr.sender =
              decide (pb.p.hdr.sender ∈ ns.addrs) := by
            simp [fromNeighbor, hns]
          split at h
          · next hsender =>
            have hfrom := hfrom.trans (decide_eq_true hsender)
            split at h
            · next hack =>
              cases h
              refine .acked (upcall_of_not_accepts ha fun hacc => ?_) (by decide) ha hfor hack hfrom rfl
              exact absurd (hack.symm.trans hacc.2.2.1) (by simp)
            · next hack =>
              exact .of_dataRecv ha (by decide) hfor (by simpa using hack) hfrom h
          · next hsender =>
            cases h
            refine .ignored (upcall_of_not_accepts ha fun hacc => ?_) rfl
            simpa [hfrom, hsender] using hacc.2.2.2.1
      · next hfor =>
        cases h
        exact .ignored (upcall_of_not_accepts ha fun hacc => hfor hacc.2.1) rfl
  | timesynch =>
    refine .synch ?_ rfl h
    simp only [upcall, delivery]
    cases receivePacket (A.addr s.app) pb <;> simp [Accepts]
  | broadcast =>
    change s.broadcastRecv A.toEcCallbacks pb = .ok s' at h
    unfold broadcastRecv at h
    split at h
    · cases h
    · next a ha =>
      split at h
      · next hfor =>
        split at h
        · next hack =>
          cases h
          refine .acked (upcall_of_not_accepts ha fun hacc => ?_) (by decide) ha hfor hack rfl rfl
          exact absurd (hack.symm.trans hacc.2.2.1) (by simp)
        · next hack =>
          refine .of_dataRecv ha (by decide) hfor (by simpa using hack) rfl ?_
          -- the kind of the packet decides on the callback and on the acknowledgement
          split at h
          · next hk =>
            have hack : sendAck A.toEcCallbacks .broadcast pb.p.hdr a = acknowledge A.toEcCallbacks
                .multicastUnicastAck .multicastUnicastAck pb.p.hdr := by
              funext t
              simp [sendAck, hk]
            simpa [callbackFor, hk, hack] using h
          · next hk =>
            have hack : sendAck A.toEcCallbacks .broadcast pb.p.hdr a = .ok := by
              funext t
              simp [sendAck, hk]
            simpa [callbackFor, hk, hack] using h
      · next hfor =>
        cases h
        exact .ignored (upcall_of_not_accepts ha fun hacc => hfor hacc.2.1) rfl

/-- What an event does to a node, given the application code it runs. -/
structure Ran (A : Application σ ε) (code : Option (σ × List Effect)) (s s' : EcNode σ) : Prop where
  app : A.Synched (code.elim s.app Prod.fst) s'.app
  completes : ∀ r ∈ code, Completes r.2
  known : ∀ r ∈ code, ∀ a, Effect.call (.reliableBroadcastNs none a) ∉ r.2
  isOn : s.conn.ts.isOn = true ∨ (∃ r ∈ code, Effect.call .timesynchOn ∈ r.2) →
    s'.conn.ts.isOn = true

theorem Kept.ran (h : Kept A s s') : Ran A none s s' :=
  { app := h.app
    completes := fun _ hr => absurd hr (by simp)
    known := fun _ hr => absurd hr (by simp)
    isOn := fun hon => h.isOn (hon.resolve_right (by simp)) }

/-- A piece of application code and what follows it. -/
theorem ran_of_runEffects {r : σ × List Effect} {c : Ec} (hoff : Effect.call .timesynchOff ∉ r.2)
    (hts : c.ts = s.conn.ts) (h : runEffects A.toEcCallbacks r.2 ⟨c, r.1⟩ = .ok s₁)
    (hthen : Kept A s₁ s') : Ran A (some r) s s' := by
  obtain ⟨hkept, hc, hon⟩ := runEffects_kept r.2 ⟨c, r.1⟩ hoff h
  refine ⟨(hkept.trans hthen).app, fun r' hr => ?_, fun r' hr => ?_, fun hor => ?_⟩
  · cases hr
    exact hc
  · cases hr
    exact known_of_runEffects r.2 _ h
  · rcases hor with hwas | ⟨r', hr, hmem⟩
    · exact (hkept.trans hthen).isOn (hts ▸ hwas)
    · cases hr
      exact hthen.isOn (hon hmem)

theorem Kept.of_sendAck {ch : Channel} {hdr : Header} {a : Arrival}
    (h : s.sendAck A.toEcCallbacks ch hdr a = .ok s') : Kept A s s' := by
  unfold sendAck at h
  split at h
  · exact of_acknowledge h
  · split at h
    · exact of_acknowledge h
    · cases h
      exact refl s

/-- A received frame, given the application code it runs. -/
theorem Received.ran {ch : Channel} {pb : Packetbuf}
    (hoff : ∀ k r, Effect.call .timesynchOff ∉ (A.recv k r s.app).2) (h : Received A s s' ch pb) :
    Ran A (s.upcall A (.receive ch pb)) s s' := by
  cases h with
  | ignored hcode h =>
    rw [hcode, h]
    exact (Kept.refl s).ran
  | acked hcode _ _ _ _ _ h =>
    have hkept : Kept A s (s.onConn (ackRecv (ackedTimer ch) pb.p.hdr)) :=
      .of_conn rfl (Ec.ackRecv_ts _ _)
    rw [hcode, h]
    exact hkept.ran
  | duplicate hcode _ _ _ _ _ _ h =>
    rw [hcode]
    exact (Kept.of_sendAck h).ran
  | @delivered a s₁ ha hacc hdeliver h =>
    have hstore : Kept A s₁ (s₁.onConn (Ec.storePacketForDupeChecks pb.p.hdr.id)) :=
      .of_conn rfl (Ec.store_ts _)
    rw [upcall_of_accepts ha hacc]
    exact ran_of_runEffects (c := s.conn.log (.deliver (callbackFor ch a) (recvArgs pb.p.hdr a)))
      (hoff _ _) rfl hdeliver (hstore.trans (Kept.of_sendAck h))
  | synch hcode _ h =>
    rw [hcode]
    exact (Kept.of_timesynchRecv h).ran

/-- **An event runs the code `upcall` says, next to it at most the callback `timesynch`, and the
assertions of the code hold.** -/
theorem step_upcall {ev : NodeEvent ε}
    (hoff : (∀ e, Effect.call .timesynchOff ∉ (A.process e s.app).2) ∧
      ∀ k r, Effect.call .timesynchOff ∉ (A.recv k r s.app).2)
    (h : s.step A ev = .ok s') : Ran A (s.upcall A ev) s s' := by
  cases ev with
  | process e =>
    rw [step] at h
    exact ran_of_runEffects (r := A.process e s.app) (hoff.1 e) rfl h (.refl s')
  | receive ch pb => exact (received_of_step h).ran hoff.2
  | expire t =>
    have hkept : Kept A s (s.onConn (Ec.ctimerPost t)) := .of_conn rfl rfl
    rw [← Except.ok.inj h]
    exact hkept.ran
  | timer t radio =>
    have htake : Kept A s (s.onConn (Ec.ctimerTake t)) := .of_conn rfl rfl
    rw [step] at h
    split at h
    · exact (htake.trans (.of_timerCallback h)).ran
    · rw [← Except.ok.inj h]
      exact htake.ran
  | meshSent => exact (Kept.of_tryConn h fun _ => Ec.meshdataSent_ts).ran
  | meshTimeout =>
    have hkept : Kept A s (s.onConn Ec.meshdataTimeout) := .of_conn rfl rfl
    rw [← Except.ok.inj h]
    exact hkept.ran

end EcNode

end EmergencyNet
