import EmergencyNet.Lib.Machine
import EmergencyNet.Net.EmergencyConn

/-!
# What a node of the emergency network can do

A node runs an application on its connection and handles one event at a time.  Whatever the
event, what the connection does is a sequence of elementary moves, in which at most one data
callback is called.  The invariants of the connection are proved move by move.

## Main definitions

* `Application`, `NodeEvent`, `EcNode.step` — a node as a transition system.
* `MoveEnv`, `Move`, `Moves` — the elementary moves, and sequences of them.
* `Shape` — the moves of one event.
* `Ec.Drops`, `Ec.NeighborDataSent` — what the callback for neighbour data drops and sends.
* `connMachine` — the runs of a node.

## Main results

* `Ec.sendNeighborData_cases` — what the callback for neighbour data does.
* `EcNode.runEffects_moves` — what application code does to the connection.
* `EcNode.neighborRecv_cases`, `EcNode.broadcastRecv_cases` — the ways reception can end.
* `EcNode.step_shape` — **every event is a sequence of moves.**
-/

namespace EmergencyNet

/-! ### Nodes -/

/-- An application with states `σ` whose own process handles events `ε`. -/
structure Application (σ ε : Type*) extends EcCallbacks σ where
  process : ε → σ → σ × List Effect

/-- The events of a node. -/
inductive NodeEvent (ε : Type*)
  /-- The application's process runs. -/
  | process (e : ε)
  /-- A frame is received on one of the three channels. -/
  | receive (ch : Channel) (pb : Packetbuf)
  /-- A timer expires. -/
  | expire (t : Timer)
  /-- The event of an expired timer is handled; `radio` is whether `abc_send` succeeds. -/
  | timer (t : Timer) (radio : Bool)
  /-- The mesh has delivered a packet. -/
  | meshSent
  /-- The mesh has given a packet up. -/
  | meshTimeout

/-- The event is the reception of a frame. -/
def NodeEvent.isReception {ε : Type*} : NodeEvent ε → Bool
  | .receive _ _ => true
  | _ => false

namespace EcNode

variable {σ ε : Type*}

/-- The callback of a timer. -/
def timerCallback (cb : EcCallbacks σ) : Timer → Bool → EcNode σ → Except Fault (EcNode σ)
  | .neighborAck, radio, s => .ok (s.onConn (Ec.sendNeighborAck radio))
  | .neighborData, radio, s => s.tryConn (Ec.sendNeighborData radio)
  | .broadcastData, radio, s => .ok (s.onConn (Ec.sendBroadcastData radio))
  | .multicastUnicastData, radio, s => s.tryConn (Ec.sendMulticastUnicastData radio)
  | .multicastUnicastAck, radio, s => .ok (s.onConn (Ec.sendMulticastUnicastAck radio))
  | .timesynchData, radio, s => .ok (s.onConn (Ec.sendTimesynchData radio))
  | .meshData, _, s => .ok (s.onConn Ec.sendMeshData)
  | .timesynch, _, s => s.timesynchAsLeader cb

/-- What a received frame runs. -/
def radioCallback (cb : EcCallbacks σ) : Channel → Packetbuf → EcNode σ → Except Fault (EcNode σ)
  | .neighbor, pb, s => s.neighborRecv cb pb
  | .timesynch, pb, s => s.timesynchRecv cb pb
  | .broadcast, pb, s => s.broadcastRecv cb pb

/-- The event can occur. -/
def Enabled (s : EcNode σ) : NodeEvent ε → Prop
  | .expire t => (s.conn.timers t).active = true
  | .timer t _ => 0 < (s.conn.timers t).posted
  | _ => True

instance (s : EcNode σ) (ev : NodeEvent ε) : Decidable (s.Enabled ev) := by
  rcases ev <;> unfold Enabled <;> infer_instance

/-- The code that handles an event. -/
def step (A : Application σ ε) : NodeEvent ε → EcNode σ → Except Fault (EcNode σ)
  | .process e, s =>
    runEffects A.toEcCallbacks (A.process e s.app).2 ⟨s.conn, (A.process e s.app).1⟩
  | .receive ch pb, s => s.radioCallback A.toEcCallbacks ch pb
  | .expire t, s => .ok (s.onConn (Ec.ctimerPost t))
  | .timer t radio, s =>
    if (s.conn.timers t).listed then
      (s.onConn (Ec.ctimerTake t)).timerCallback A.toEcCallbacks t radio
    else .ok (s.onConn (Ec.ctimerTake t))
  | .meshSent, s => s.tryConn Ec.meshdataSent
  | .meshTimeout, s => .ok (s.onConn Ec.meshdataTimeout)

end EcNode

/-! ### Moves -/

/-- The argument of a call that enqueues a data packet. -/
def EcCall.data : EcCall → Option SendArgs
  | .reliableBroadcastNs _ a | .broadcast _ a | .reliableMulticast _ a | .reliableUnicast _ a =>
    some a
  | _ => none

/-- The lists of data packets. -/
def MsgType.IsData (t : MsgType) : Prop :=
  t = .neighborData ∨ t = .broadcastData ∨ t = .multicastUnicastData

/-- The lists whose packets are sent once. -/
def MsgType.IsOnce (t : MsgType) : Prop :=
  t = .neighborAck ∨ t = .multicastUnicastAck ∨ t = .broadcastData ∨ t = .timesynchData

/-- What is known about the surroundings of a connection while it moves. -/
structure MoveEnv where
  /-- The data packets the application may hand over. -/
  sends : SendArgs → Prop
  /-- The headers acknowledgements may be received with. -/
  acks : Header → Prop
  /-- The addresses the node may have. -/
  addr : Rimeaddr → Prop
  /-- The states in which the timer for neighbour data may go off. -/
  fires : Ec → Bool → Prop

/-- Nothing is known. -/
def MoveEnv.any : MoveEnv := ⟨fun _ => True, fun _ => True, fun _ => True, fun _ _ => True⟩

/-- The part of the connection that timers and time synchronisation do not touch. -/
structure Ec.Same (c c' : Ec) : Prop where
  sq : c'.sq = c.sq
  dq : c'.dq = c.dq
  trace : c'.trace = c.trace

/-- The elementary moves of a connection. -/
inductive Move (env : MoveEnv) (c : Ec) : Ec → Prop
  | quiet {c' : Ec} (h : c.Same c') : Move env c c'
  /-- A data packet is enqueued. -/
  | data {c' : Ec} {t : MsgType} {i : ℕ} {ns : Option NeighborSet} {a : SendArgs}
      (ht : t.IsData) (hns : t = .neighborData → ns.isSome) (ha : env.sends a)
      (hlen : a.data.length ≤ 24)
      (hsq : c.sq.Enqueued t i (PacketBuffer.written
        (initBroadcastPacket 0 a.hops a.originator a.sender a.seqno) [] a.data ns (c.sq.item i)) c'.sq)
      (hdq : c'.dq = c.dq) (htrace : c'.trace = .enqueue t i ns a :: c.trace) : Move env c c'
  /-- The pair of a data packet is stored. -/
  | store {c' : Ec} {a : SendArgs} (ha : env.sends a) (hnew : c.isDupe a.id = false)
      (hsq : c'.sq = c.sq) (hdq : c'.dq = Ec.dqPush c.dq a.id)
      (htrace : c'.trace = .store a.id :: c.trace) : Move env c c'
  /-- A time synchronisation or mesh packet is enqueued. -/
  | control {c' : Ec} {t : MsgType} {i : ℕ} {ns : Option NeighborSet} {a : SendArgs}
      {bp : BufferedPacket} (ht : t = .timesynchData ∨ t = .meshData)
      (hflags : bp.p.hdr.isPacketFlagSet PacketFlags.ack = false) (hsq : c.sq.Enqueued t i bp c'.sq)
      (hdq : c'.dq = c.dq) (htrace : c'.trace = .enqueue t i ns a :: c.trace) : Move env c c'
  /-- An acknowledgement is enqueued, for a pair in the duplicate queue. -/
  | confirm {c' : Ec} {t : MsgType} {i : ℕ} {ns : Option NeighborSet} {a : SendArgs}
      {bp : BufferedPacket} {own : Rimeaddr} (ht : t = .neighborAck ∨ t = .multicastUnicastAck)
      (hown : env.addr own) {hdr : Header} (hdupe : c.isDupe hdr.id = true)
      (hhdr : bp.p.hdr = EcNode.ackHeader own hdr)
      (hsq : c.sq.Enqueued t i bp c'.sq) (hdq : c'.dq = c.dq)
      (htrace : c'.trace = .enqueue t i ns a :: c.trace) : Move env c c'
  /-- An acknowledgement is received. -/
  | acked {timer : Timer} {hdr : Header} (hflag : hdr.isPacketFlagSet PacketFlags.ack = true)
      (hhdr : env.acks hdr) : Move env c (EcNode.ackRecv timer hdr c)
  /-- A packet that is sent once is sent. -/
  | once {c' : Ec} {t : MsgType} {ch : Channel} {i : ℕ} {body : List UInt8} (ht : t.IsOnce)
      (hch : ch = .neighbor → t = .neighborAck) (hi : i ∈ c.sq.prioHeads t)
      (hsq : c'.sq = c.sq.free i) (hdq : c'.dq = c.dq)
      (htrace : c'.trace = .free i :: .frame ch i ⟨(c.sq.item i).p.hdr, body⟩ :: c.trace) :
      Move env c c'
  /-- Neighbour data is sent. -/
  | neighborData {c' : Ec} {radio : Bool} (hfires : env.fires c radio)
      (h : c.sendNeighborData radio = .ok c') : Move env c c'
  /-- Multicast or unicast data is sent. -/
  | targeted {c' : Ec} {i : ℕ} {f : Frame} (hi : i ∈ c.sq.prioHeads .multicastUnicastData)
      (hf : Ec.targetedFrame (c.sq.item i).p (c.sq.item i) = some f)
      (hsq : c'.sq = c.sq.modify i .incrementTimesSent) (hdq : c'.dq = c.dq)
      (htrace : c'.trace = .frame .broadcast i f :: c.trace) : Move env c c'
  /-- A mesh packet is given to the mesh. -/
  | meshed {c' : Ec} {i : ℕ} {dest : Rimeaddr} {payload : List UInt8}
      (hi : i ∈ c.sq.prioHeads .meshData) (hsq : c'.sq = c.sq.modify i .incrementTimesSent)
      (hdq : c'.dq = c.dq) (htrace : c'.trace = .mesh i dest payload :: c.trace) : Move env c c'
  /-- A mesh packet is freed. -/
  | dropped {c' : Ec} {i : ℕ} (hi : i ∈ c.sq.prioHeads .meshData) (hsq : c'.sq = c.sq.free i)
      (hdq : c'.dq = c.dq) (htrace : c'.trace = .free i :: c.trace) : Move env c c'

/-- A sequence of moves. -/
abbrev Moves (env : MoveEnv) : Ec → Ec → Prop := Relation.ReflTransGen (Move env)

variable {env : MoveEnv} {c c' c₁ : Ec}

theorem Moves.quiet (h : c.Same c') : Moves env c c' := .single (.quiet h)

/-! ### Functions that end -/

/-- A sequence of two computations ends when both do. -/
theorem bind_eq_ok.{u} {α β : Type u} {x : Except Fault α} {f : α → Except Fault β} {b : β} :
    (x >>= f) = .ok b ↔ ∃ a, x = .ok a ∧ f a = .ok b := by
  cases x with
  | error e => simp [bind, Except.bind]
  | ok a => simp [bind, Except.bind]

theorem pure_eq_ok {α : Type*} {a b : α} : (pure a : Except Fault α) = .ok b ↔ a = b := by
  simp [pure, Except.pure]

theorem toOption_eq_some {α : Type*} {x : Except Fault α} {a : α} :
    x.toOption = some a ↔ x = .ok a := by
  cases x with
  | error e => simp [Except.toOption]
  | ok b => simp [Except.toOption]

theorem EcNode.tryConn_eq_ok {σ : Type*} {s s' : EcNode σ} {f : Ec → Except Fault Ec} :
    s.tryConn f = .ok s' ↔ ∃ c, f s.conn = .ok c ∧ s' = { s with conn := c } := by
  unfold EcNode.tryConn
  cases f s.conn with
  | error e => simp
  | ok c => simp [eq_comm]

/-! ### What the functions of the connection change -/

namespace Ec

@[simp] theorem same_ctimerSet (t : Timer) : c.Same (c.ctimerSet t) := ⟨rfl, rfl, rfl⟩

@[simp] theorem same_ctimerTake (t : Timer) : c.Same (c.ctimerTake t) := ⟨rfl, rfl, rfl⟩

theorem Same.refl (c : Ec) : c.Same c := ⟨rfl, rfl, rfl⟩

theorem same_ite {p : Prop} [Decidable p] (t : Timer) :
    c.Same (if p then c.ctimerSet t else c) := by
  split
  · exact same_ctimerSet t
  · exact .refl c

theorem putBroadcast_eq_ok {hdr : Header} {data : List UInt8} {ns : Option NeighborSet}
    {t : MsgType} (h : c.putBroadcast hdr data ns t = .ok c') :
    ∃ i, c.sq.Enqueued t i (PacketBuffer.written hdr [] data ns (c.sq.item i)) c'.sq ∧
      c'.dq = c.dq ∧
      c'.trace = .enqueue t i ns ⟨hdr.originator, hdr.sender, hdr.hops, hdr.seqno, data⟩ :: c.trace ∧
      data.length ≤ 24 := by
  unfold putBroadcast at h
  split at h
  · cases h
  · next i sq hput =>
    cases h
    obtain ⟨henq, hlen⟩ := PacketBuffer.put_eq_ok hput
    unfold broadcastPacketHdrSize maxPacketSize at hlen
    exact ⟨i, henq, rfl, rfl, by omega⟩

theorem putUnicast_eq_ok {hdr : Header} {dest : Rimeaddr} {data : List UInt8}
    {ns : Option NeighborSet} {t : MsgType} (h : c.putUnicast hdr dest data ns t = .ok c') :
    ∃ i, c.sq.Enqueued t i (PacketBuffer.written hdr dest.bytes data ns (c.sq.item i)) c'.sq ∧
      c'.dq = c.dq ∧
      c'.trace =
        .enqueue t i ns ⟨hdr.originator, hdr.sender, hdr.hops, hdr.seqno, data⟩ :: c.trace := by
  unfold putUnicast at h
  split at h
  · cases h
  · next i sq hput =>
    cases h
    exact ⟨i, (PacketBuffer.put_eq_ok hput).1, rfl, rfl⟩

theorem store_of_isDupe {id : PacketId} (h : c.isDupe id = true) :
    c.storePacketForDupeChecks id = c := by
  rw [storePacketForDupeChecks, if_pos h]

theorem store_of_not_isDupe {id : PacketId} (h : c.isDupe id = false) :
    c.storePacketForDupeChecks id = { c with dq := dqPush c.dq id }.log (.store id) := by
  rw [storePacketForDupeChecks, if_neg (by simp [h])]

/-- The pair of a packet that may be sent is stored by a move at most. -/
theorem store_moves {a : SendArgs} (ha : env.sends a) :
    Moves env c (c.storePacketForDupeChecks a.id) := by
  cases h : c.isDupe a.id with
  | true => rw [store_of_isDupe h]
  | false =>
    rw [store_of_not_isDupe h]
    exact .single (.store ha h rfl rfl rfl)

theorem sendData_moves {t : MsgType} {timer : Timer} {ns : Option NeighborSet} {a : SendArgs}
    (ht : t.IsData) (hns : t = .neighborData → ns.isSome) (ha : env.sends a)
    (h : c.sendData t timer ns a = .ok c') : Moves env c c' := by
  unfold sendData at h
  rw [bind_eq_ok] at h
  obtain ⟨c₁, hput, h⟩ := h
  rw [pure_eq_ok] at h
  obtain ⟨i, hsq, hdq, htrace, hlen⟩ := putBroadcast_eq_ok hput
  have hdata : Move env c c₁ := .data ht hns ha hlen hsq hdq htrace
  have hstore : Moves env c₁ (c₁.storePacketForDupeChecks a.id) := store_moves ha
  rw [← h]
  exact (hstore.head hdata).trans (Moves.quiet (same_ite timer))

theorem putTimesynch_moves {hdr : Header} (hflags : hdr.isPacketFlagSet PacketFlags.ack = false)
    (h : c.putTimesynch hdr = .ok c') : Moves env c c' := by
  unfold putTimesynch at h
  rw [bind_eq_ok] at h
  obtain ⟨c₁, hput, h⟩ := h
  rw [pure_eq_ok] at h
  obtain ⟨i, hsq, hdq, htrace, -⟩ := putBroadcast_eq_ok hput
  have hcontrol : Move env c c₁ := .control (.inl rfl) hflags hsq hdq htrace
  rw [← h]
  exact .head hcontrol (Moves.quiet ⟨rfl, rfl, rfl⟩)

theorem ecMesh_moves {dest : Rimeaddr} {seqno : UInt8} {data : List UInt8}
    (h : c.ecMesh dest seqno data = .ok c') : Moves env c c' := by
  unfold ecMesh at h
  rw [bind_eq_ok] at h
  obtain ⟨c₁, hput, h⟩ := h
  rw [pure_eq_ok] at h
  obtain ⟨i, hsq, hdq, htrace⟩ := putUnicast_eq_ok hput
  have hflags : (initUnicastPacket 0 0 rimeaddrNull rimeaddrNull seqno).isPacketFlagSet
      PacketFlags.ack = false := by
    rw [isPacketFlagSet_initUnicastPacket]
    decide
  have hcontrol : Move env c c₁ := by
    refine .control ?_ ?_ hsq hdq htrace
    · exact .inr rfl
    · exact hflags
  rw [← h]
  exact .head hcontrol (Moves.quiet (same_ite _))

/-- Sending a packet of a list that is sent once is a move at most. -/
theorem sendOnce_moves {t : MsgType} {ch : Channel} {timer : Timer}
    {body : BufferedPacket → List UInt8} {radio : Bool} (ht : t.IsOnce)
    (hch : ch = .neighbor → t = .neighborAck) : Moves env c (sendOnce t ch timer body radio c) := by
  unfold sendOnce
  cases hfirst : c.sq.first t with
  | none => exact .refl
  | some i =>
    cases radio with
    | false => exact Moves.quiet (same_ctimerSet timer)
    | true =>
      have hi : i ∈ c.sq.prioHeads t := PacketBuffer.mem_of_first hfirst
      have honce : Move env c ((c.log (.frame ch i ⟨(c.sq.item i).p.hdr,
          body (c.sq.item i)⟩)).freePacket i) := .once ht hch hi rfl rfl rfl
      exact .head honce (Moves.quiet (same_ite timer))

/-! ### Dropping packets -/

/-- A packet of list `t` that has been sent `limit` times is dropped. -/
def Drop (t : MsgType) (limit : UInt8) (c c' : Ec) : Prop :=
  ∃ i ∈ c.sq.prioHeads t, limit ≤ (c.sq.item i).timesSent ∧ c' = c.freePacket i

/-- Any number of packets of list `t` that have been sent `limit` times are dropped. -/
abbrev Drops (t : MsgType) (limit : UInt8) : Ec → Ec → Prop := Relation.ReflTransGen (Drop t limit)

/-- The first packet of list `t` that has been sent less than `limit` times. -/
def unspent (t : MsgType) (limit : UInt8) (c : Ec) : Option ℕ :=
  (c.sq.prioHeads t).find? fun i => decide ((c.sq.item i).timesSent < limit)

theorem Drops.ts {t : MsgType} {limit : UInt8} (h : Drops t limit c c') : c'.ts = c.ts := by
  induction h with
  | refl => rfl
  | tail _ hdrop ih =>
    obtain ⟨i, -, -, rfl⟩ := hdrop
    exact ih

theorem Drops.timers {t : MsgType} {limit : UInt8} (h : Drops t limit c c') :
    c'.timers = c.timers := by
  induction h with
  | refl => rfl
  | tail _ hdrop ih =>
    obtain ⟨i, -, -, rfl⟩ := hdrop
    exact ih

theorem Drops.item {t : MsgType} {limit : UInt8} (h : Drops t limit c c') (j : ℕ) :
    c'.sq.item j = c.sq.item j := by
  induction h with
  | refl => rfl
  | tail _ hdrop ih =>
    obtain ⟨i, -, -, rfl⟩ := hdrop
    exact PacketBuffer.free_item.trans ih

/-- The lists only lose packets. -/
theorem Drops.heads {t : MsgType} {limit : UInt8} (h : Drops t limit c c') (t' : MsgType) :
    (c'.sq.prioHeads t').Sublist (c.sq.prioHeads t') := by
  induction h with
  | refl => exact List.Sublist.refl _
  | tail _ hdrop ih =>
    obtain ⟨i, -, -, rfl⟩ := hdrop
    exact List.erase_sublist.trans ih

theorem lt_of_unspent {t : MsgType} {i : ℕ} {limit : UInt8} (h : c.unspent t limit = some i) :
    (c.sq.item i).timesSent < limit := by
  have hfind := List.find?_some h
  exact of_decide_eq_true hfind

/-- The loops drop the packets in front of the first that has been sent less often, which then
is the first of its list. -/
theorem dropSpent_drops (t : MsgType) (limit : UInt8) : ∀ (l : List ℕ) (c : Ec),
    c.sq.prioHeads t = l → Drops t limit c (dropSpent limit l c).1 ∧
      (dropSpent limit l c).2 = c.unspent t limit ∧
      (dropSpent limit l c).1.sq.first t = c.unspent t limit := by
  intro l
  induction l with
  | nil =>
    intro c hl
    have hnone : c.unspent t limit = none := by rw [unspent, hl, List.find?_nil]
    have hfirst : c.sq.first t = none := List.head?_eq_none_iff.mpr hl
    exact ⟨.refl, hnone.symm, hfirst.trans hnone.symm⟩
  | cons i rest ih =>
    intro c hl
    unfold dropSpent
    split
    · next hspent =>
      have hi : i ∈ c.sq.prioHeads t := hl ▸ List.mem_cons_self
      have hdrop : Drop t limit c (c.freePacket i) := ⟨i, hi, hspent, rfl⟩
      have hrest : (c.freePacket i).sq.prioHeads t = rest := by
        change (c.sq.prioHeads t).erase i = rest
        rw [hl, List.erase_cons_head]
      have hnext : (c.freePacket i).unspent t limit = c.unspent t limit := by
        have hskip : decide ((c.sq.item i).timesSent < limit) = false :=
          decide_eq_false (UInt8.not_lt.mpr hspent)
        have hitem : ∀ j, (c.freePacket i).sq.item j = c.sq.item j := fun j =>
          PacketBuffer.free_item
        simp only [unspent, hrest, hl, hitem, List.find?_cons, hskip]
      obtain ⟨hdrops, hleft, hfirst⟩ := ih (c.freePacket i) hrest
      exact ⟨.head hdrop hdrops, hleft.trans hnext, hfirst.trans hnext⟩
    · next hunspent =>
      have htake : decide ((c.sq.item i).timesSent < limit) = true :=
        decide_eq_true (UInt8.not_le.mp hunspent)
      have hleft : c.unspent t limit = some i := by rw [unspent, hl, List.find?_cons, htake]
      have hfirst : c.sq.first t = some i := by
        rw [PacketBuffer.first, hl]
        rfl
      exact ⟨.refl, hleft.symm, hfirst.trans hleft.symm⟩

/-- What `send_neighbor_data` does once packets have been dropped, `c₁` being what is left. -/
inductive NeighborDataSent (radio : Bool) (c c₁ : Ec) : Ec → Prop
  /-- No packet is left. -/
  | emptied (hnone : c.unspent .neighborData maxTimesSentMesh = none) :
      NeighborDataSent radio c c₁ c₁
  /-- A frame was built but the radio did not take it. -/
  | refused (hradio : radio = false) :
      NeighborDataSent radio c c₁ (c₁.ctimerSet .neighborData)
  /-- A frame was sent; the header and the data are those of the packet that was the first
  before any was dropped. -/
  | sent {i j : ℕ} {f : Frame} (hradio : radio = true) (hfirst : c.sq.first .neighborData = some i)
      (hleft : c.unspent .neighborData maxTimesSentMesh = some j)
      (hframe : neighborDataFrame (c.sq.item i).p (c.sq.item j) = some f) :
      NeighborDataSent radio c c₁ ({ c₁.log (.frame .neighbor i f) with
        sq := c₁.sq.modify j .incrementTimesSent }.ctimerSet .neighborData)

/-- **What the callback for neighbour data does.** -/
theorem sendNeighborData_cases {radio : Bool} (h : c.sendNeighborData radio = .ok c') :
    ∃ c₁, Drops .neighborData maxTimesSentMesh c c₁ ∧
      c₁.sq.first .neighborData = c.unspent .neighborData maxTimesSentMesh ∧
      NeighborDataSent radio c c₁ c' := by
  unfold sendNeighborData at h
  split at h
  · next hfirst =>
    cases h
    have hnil : c.sq.prioHeads .neighborData = [] := List.head?_eq_none_iff.mp hfirst
    have hnone : c.unspent .neighborData maxTimesSentMesh = none := by
      rw [unspent, hnil, List.find?_nil]
    exact ⟨c, .refl, hfirst.trans hnone.symm, .emptied hnone⟩
  · next i hfirst =>
    obtain ⟨hdrops, hleft, hfirst₁⟩ := dropSpent_drops .neighborData maxTimesSentMesh _ c rfl
    simp only at h
    generalize dropSpent maxTimesSentMesh (c.sq.prioHeads .neighborData) c = res
      at h hdrops hleft hfirst₁
    obtain ⟨c₁, left⟩ := res
    refine ⟨c₁, hdrops, hfirst₁, ?_⟩
    cases left with
    | none =>
      cases h
      exact .emptied hleft.symm
    | some j =>
      cases hf : neighborDataFrame (c.sq.item i).p (c₁.sq.item j) with
      | none => simp [hf] at h
      | some f =>
        simp only [hf] at h
        cases radio with
        | false =>
          cases h
          exact .refused rfl
        | true =>
          cases h
          exact .sent rfl hfirst hleft.symm (hdrops.item j ▸ hf)

/-- Dropping mesh packets is a sequence of moves. -/
theorem Drops.moves {limit : UInt8} (h : Drops .meshData limit c c') : Moves env c c' := by
  induction h with
  | refl => exact .refl
  | tail _ hdrop ih =>
    obtain ⟨i, hi, -, rfl⟩ := hdrop
    exact ih.tail (.dropped hi rfl rfl rfl)

theorem sendNeighborAck_moves {radio : Bool} : Moves env c (sendNeighborAck radio c) := by
  unfold sendNeighborAck
  exact sendOnce_moves (.inl rfl) (fun _ => rfl)

theorem sendMulticastUnicastAck_moves {radio : Bool} :
    Moves env c (sendMulticastUnicastAck radio c) := by
  unfold sendMulticastUnicastAck
  exact sendOnce_moves (.inr (.inl rfl)) (fun h => by cases h)

theorem sendBroadcastData_moves {radio : Bool} : Moves env c (sendBroadcastData radio c) := by
  unfold sendBroadcastData
  exact sendOnce_moves (.inr (.inr (.inl rfl))) (fun h => by cases h)

theorem sendTimesynchData_moves {radio : Bool} : Moves env c (sendTimesynchData radio c) := by
  unfold sendTimesynchData
  exact sendOnce_moves (.inr (.inr (.inr rfl))) (fun h => by cases h)

theorem sendMeshData_moves : Moves env c c.sendMeshData := by
  obtain ⟨hdrops, hleft, hfirst⟩ := dropSpent_drops .meshData maxTimesSent _ c rfl
  unfold sendMeshData
  generalize dropSpent maxTimesSent (c.sq.prioHeads .meshData) c = res at hdrops hleft hfirst ⊢
  obtain ⟨c₁, left⟩ := res
  cases left with
  | none => exact hdrops.moves
  | some i =>
    have hi : i ∈ c₁.sq.prioHeads .meshData := PacketBuffer.mem_of_first (hfirst.trans hleft.symm)
    exact hdrops.moves.tail (.meshed hi rfl rfl rfl)

theorem meshdataSent_moves (h : c.meshdataSent = .ok c') : Moves env c c' := by
  unfold meshdataSent at h
  split at h
  · cases h
  · next i hfirst =>
    cases h
    have hdrop : Move env c (c.freePacket i) :=
      .dropped (PacketBuffer.mem_of_first hfirst) rfl rfl rfl
    exact .head hdrop (Moves.quiet (same_ctimerSet _))

theorem sendMulticastUnicastData_moves {radio : Bool}
    (h : c.sendMulticastUnicastData radio = .ok c') : Moves env c c' := by
  unfold sendMulticastUnicastData at h
  split at h
  · cases h
    exact .refl
  · next i hfirst =>
    split at h
    · cases h
    · next f hf =>
      cases radio with
      | false =>
        cases h
        exact Moves.quiet (same_ctimerSet _)
      | true =>
        cases h
        exact .single (.targeted (PacketBuffer.mem_of_first hfirst) hf rfl rfl rfl)

end Ec

/-! ### Application code -/

namespace EcNode

variable {σ ε : Type*} {cb : EcCallbacks σ} {s s' : EcNode σ}

theorem callTimesynch_conn (h : s.callTimesynch cb = .ok s') : s'.conn = s.conn := by
  unfold callTimesynch at h
  split at h <;> cases h
  rfl

theorem timesynchAsLeader_moves (h : s.timesynchAsLeader cb = .ok s') :
    Moves env s.conn s'.conn := by
  unfold timesynchAsLeader at h
  rw [bind_eq_ok] at h
  obtain ⟨s₁, hput, h⟩ := h
  obtain ⟨c₁, hrun, rfl⟩ := tryConn_eq_ok.mp hput
  have hlevel : Moves env s.conn (s.onConn fun c =>
      { c with ts := ⟨c.ts.isOn, s.conn.ts.seqno + 1, (cb.addr s.app).u8₀, s.conn.ts.seqno⟩ }).conn :=
    Moves.quiet ⟨rfl, rfl, rfl⟩
  rw [callTimesynch_conn h]
  exact hlevel.trans (Ec.putTimesynch_moves (isPacketFlagSet_initBroadcastPacket ..) hrun)

theorem ecTimesynchNetwork_moves (h : s.ecTimesynchNetwork cb = .ok s') :
    Moves env s.conn s'.conn := by
  unfold ecTimesynchNetwork at h
  split at h
  · split at h
    · exact timesynchAsLeader_moves h
    · cases h
      exact .refl
  · cases h

theorem ecCall_moves {call : EcCall} (hsends : ∀ a, call.data = some a → env.sends a)
    (h : call.run cb s = .ok s') : Moves env s.conn s'.conn := by
  cases call with
  | reliableBroadcastNs ns a =>
    obtain ⟨c₁, hrun, rfl⟩ := tryConn_eq_ok.mp h
    unfold Ec.ecReliableBroadcastNs at hrun
    split at hrun
    · cases hrun
    · split at hrun
      · exact Ec.sendData_moves (.inl rfl) (fun _ => rfl) (hsends a rfl) hrun
      · cases hrun
        exact .refl
  | broadcast ns a =>
    obtain ⟨c₁, hrun, rfl⟩ := tryConn_eq_ok.mp h
    exact Ec.sendData_moves (.inr (.inl rfl)) (fun h => by cases h) (hsends a rfl) hrun
  | reliableMulticast receivers a =>
    obtain ⟨c₁, hrun, rfl⟩ := tryConn_eq_ok.mp h
    exact Ec.sendData_moves (.inr (.inr rfl)) (fun h => by cases h) (hsends a rfl) hrun
  | reliableUnicast destination a =>
    obtain ⟨c₁, hrun, rfl⟩ := tryConn_eq_ok.mp h
    exact Ec.sendData_moves (.inr (.inr rfl)) (fun h => by cases h) (hsends a rfl) hrun
  | mesh destination seqno data =>
    obtain ⟨c₁, hrun, rfl⟩ := tryConn_eq_ok.mp h
    exact Ec.ecMesh_moves hrun
  | timesynchOn =>
    cases h
    exact Moves.quiet ⟨rfl, rfl, rfl⟩
  | timesynchOff =>
    cases h
    exact Moves.quiet ⟨rfl, rfl, rfl⟩
  | timesynchNetwork => exact ecTimesynchNetwork_moves h

/-- **What application code does to the connection.** -/
theorem runEffects_moves : ∀ (l : List Effect) (s : EcNode σ),
    (∀ call a, Effect.call call ∈ l → call.data = some a → env.sends a) →
    runEffects cb l s = .ok s' → Moves env s.conn s'.conn := by
  intro l
  induction l with
  | nil =>
    intro s _ h
    cases h
    exact .refl
  | cons e rest ih =>
    intro s hsends h
    have hrest : ∀ call a, Effect.call call ∈ rest → call.data = some a → env.sends a :=
      fun call a hmem => hsends call a (List.mem_cons_of_mem e hmem)
    cases e with
    | assert b =>
      rw [runEffects] at h
      split at h
      · exact ih s hrest h
      · cases h
    | call call =>
      rw [runEffects, bind_eq_ok] at h
      obtain ⟨s₁, hrun, h⟩ := h
      have hcall : Moves env s.conn s₁.conn :=
        ecCall_moves (fun a => hsends call a List.mem_cons_self) hrun
      exact hcall.trans (ih s₁ hrest h)

/-! ### Reception -/

theorem acknowledge_app {t : MsgType} {timer : Timer} {hdr : Header}
    (h : s.acknowledge cb t timer hdr = .ok s') : s'.app = s.app := by
  unfold acknowledge at h
  split at h
  · cases h
    rfl
  · obtain ⟨c₁, -, rfl⟩ := tryConn_eq_ok.mp h
    rfl

theorem acknowledge_moves {t : MsgType} {timer : Timer} {hdr : Header}
    (ht : t = .neighborAck ∨ t = .multicastUnicastAck) (hown : env.addr (cb.addr s.app))
    (hdupe : s.conn.isDupe hdr.id = true) (h : s.acknowledge cb t timer hdr = .ok s') :
    Moves env s.conn s'.conn := by
  unfold acknowledge at h
  split at h
  · cases h
    exact .refl
  · obtain ⟨c₁, hput, rfl⟩ := tryConn_eq_ok.mp h
    rw [bind_eq_ok] at hput
    obtain ⟨c₂, hput, hset⟩ := hput
    rw [pure_eq_ok] at hset
    obtain ⟨i, hsq, hdq, htrace⟩ := Ec.putUnicast_eq_ok hput
    have hconfirm : Move env s.conn c₂ := .confirm ht hown hdupe rfl hsq hdq htrace
    rw [← hset]
    exact .head hconfirm (Moves.quiet (Ec.same_ctimerSet timer))

/-- The ways the branch for data packets ends. -/
theorem dataRecv_cases {k : Callback} {sendAck : EcNode σ → Except Fault (EcNode σ)} {hdr : Header}
    {a : Arrival} (h : s.dataRecv cb k sendAck hdr a = .ok s') :
    (s.conn.isDupe hdr.id = true ∧ sendAck s = .ok s') ∨
    (s.conn.isDupe hdr.id = false ∧ ∃ s₁,
      s.deliver cb k ⟨hdr.originator, hdr.sender, hdr.hops, hdr.seqno, a.data, a.dataLen⟩ = .ok s₁ ∧
      sendAck (s₁.onConn (Ec.storePacketForDupeChecks hdr.id)) = .ok s') ∨ s' = s := by
  unfold dataRecv at h
  split at h
  · next hdupe => exact .inl ⟨hdupe, h⟩
  · next hdupe =>
    split at h
    · rw [bind_eq_ok] at h
      obtain ⟨s₁, hdeliver, hack⟩ := h
      exact .inr (.inl ⟨by simpa using hdupe, s₁, hdeliver, hack⟩)
    · cases h
      exact .inr (.inr rfl)

/-- What the reception of an acknowledgement changes. -/
theorem ackRecv_cases (timer : Timer) (hdr : Header) (c : Ec) :
    (c.sq.find (originatorSeqnoCmp hdr) = none ∧ ackRecv timer hdr c = c) ∨
    ∃ i, c.sq.find (originatorSeqnoCmp hdr) = some i ∧
      (ackRecv timer hdr c).sq = c.sq.acked i hdr.sender ∧ (ackRecv timer hdr c).dq = c.dq ∧
      ((c.sq.item i).unackedNs.addrs.erase hdr.sender = [] ∧
          (ackRecv timer hdr c).trace = .free i :: c.trace ∨
        (c.sq.item i).unackedNs.addrs.erase hdr.sender ≠ [] ∧
          (ackRecv timer hdr c).trace = c.trace) := by
  unfold ackRecv PacketBuffer.acked
  cases hfind : c.sq.find (originatorSeqnoCmp hdr) with
  | none => exact .inl ⟨rfl, rfl⟩
  | some i =>
    refine .inr ⟨i, rfl, ?_⟩
    simp only [PacketBuffer.modify_item_self]
    split
    · next h => exact ⟨rfl, rfl, .inl ⟨List.isEmpty_iff.mp h, rfl⟩⟩
    · next h => exact ⟨rfl, rfl, .inr ⟨fun hnil => h (List.isEmpty_iff.mpr hnil), rfl⟩⟩

/-- What the callbacks may send for the packet with header `hdr`. -/
def CallbackSends (env : MoveEnv) (cb : EcCallbacks σ) (hdr : Header) : Prop :=
  ∀ k r app call a, r.id = hdr.id → Effect.call call ∈ (cb.recv k r app).2 →
    call.data = some a → env.sends a

/-- The callback of a packet, as moves after it has been called. -/
theorem deliver_moves {k : Callback} {r : RecvArgs} {hdr : Header} (hr : r.id = hdr.id)
    (hsends : CallbackSends env cb hdr) (h : s.deliver cb k r = .ok s') :
    Moves env (s.conn.log (.deliver k r)) s'.conn :=
  runEffects_moves _ _ (fun call a => hsends k r s.app call a hr) h

/-- What happens to a data packet of kind `k` from a frame with header `hdr`: it may be
delivered, and everything else is moves. -/
inductive Reception (env : MoveEnv) (c : Ec) (k : Callback) (hdr : Header) (a : Arrival) : Ec → Prop
  | moves {c' : Ec} (h : Moves env c c') : Reception env c k hdr a c'
  | delivered {c₁ c' : Ec} (hnew : c.isDupe hdr.id = false)
      (h₁ : Moves env (c.log (.deliver k
        ⟨hdr.originator, hdr.sender, hdr.hops, hdr.seqno, a.data, a.dataLen⟩)) c₁)
      (h₂ : Moves env (c₁.storePacketForDupeChecks hdr.id) c') : Reception env c k hdr a c'

theorem dataRecv_reception {k : Callback} {sendAck : EcNode σ → Except Fault (EcNode σ)}
    {hdr : Header} {a : Arrival} (hsends : CallbackSends env cb hdr)
    (hack : ∀ s₁ : EcNode σ, s₁.conn.isDupe hdr.id = true → sendAck s₁ = .ok s' →
      Moves env s₁.conn s'.conn)
    (h : s.dataRecv cb k sendAck hdr a = .ok s') : Reception env s.conn k hdr a s'.conn := by
  obtain ⟨hdupe, h⟩ | ⟨hnew, s₁, hdeliver, h⟩ | rfl := dataRecv_cases h
  · exact .moves (hack s hdupe h)
  · -- the pair is stored before the acknowledgement is sent
    have hacked := hack (s₁.onConn (Ec.storePacketForDupeChecks hdr.id)) (Ec.isDupe_store _ _) h
    exact .delivered hnew (deliver_moves rfl hsends hdeliver) hacked
  · exact .moves .refl

/-- The ways a frame can end that neither runs application code nor is rejected. -/
theorem neighborRecv_cases {pb : Packetbuf} (hsends : CallbackSends env cb pb.p.hdr)
    (hacks : pb.p.hdr.isPacketFlagSet PacketFlags.ack = true → env.acks pb.p.hdr)
    (hown : env.addr (cb.addr s'.app)) (h : s.neighborRecv cb pb = .ok s') :
    Moves env s.conn s'.conn ∨ ∃ a, receivePacket (cb.addr s.app) pb = some a ∧
      a.isForUs = true ∧ pb.p.hdr.isPacketFlagSet PacketFlags.ack = false ∧
      Reception env s.conn .neighborRecv pb.p.hdr a s'.conn := by
  unfold neighborRecv at h
  split at h
  · cases h
  · next a ha =>
    split at h
    · next hfor =>
      split at h
      · cases h
      · split at h
        · split at h
          · next hack =>
            cases h
            exact .inl (.single (.acked hack (hacks hack)))
          · next hack =>
            refine .inr ⟨a, ha, hfor, by simpa using hack, dataRecv_reception hsends ?_ h⟩
            intro s₁ hdupe hsend
            exact acknowledge_moves (.inl rfl) (acknowledge_app hsend ▸ hown) hdupe hsend
        · cases h
          exact .inl .refl
    · cases h
      exact .inl .refl

theorem broadcastRecv_cases {pb : Packetbuf} (hsends : CallbackSends env cb pb.p.hdr)
    (hacks : pb.p.hdr.isPacketFlagSet PacketFlags.ack = true → env.acks pb.p.hdr)
    (hown : env.addr (cb.addr s'.app)) (h : s.broadcastRecv cb pb = .ok s') :
    Moves env s.conn s'.conn ∨ ∃ k a, k ≠ .neighborRecv ∧
      receivePacket (cb.addr s.app) pb = some a ∧ a.isForUs = true ∧
      pb.p.hdr.isPacketFlagSet PacketFlags.ack = false ∧
      Reception env s.conn k pb.p.hdr a s'.conn := by
  unfold broadcastRecv at h
  split at h
  · cases h
  · next a ha =>
    split at h
    · next hfor =>
      split at h
      · next hack =>
        cases h
        exact .inl (.single (.acked hack (hacks hack)))
      · next hack =>
        have hdata : pb.p.hdr.isPacketFlagSet PacketFlags.ack = false := by simpa using hack
        split at h
        · refine .inr ⟨_, a, by decide, ha, hfor, hdata, dataRecv_reception hsends ?_ h⟩
          intro s₁ hdupe hsend
          exact acknowledge_moves (.inr rfl) (acknowledge_app hsend ▸ hown) hdupe hsend
        · refine .inr ⟨_, a, by decide, ha, hfor, hdata, dataRecv_reception hsends ?_ h⟩
          intro s₁ hdupe hsend
          cases hsend
          exact .refl
    · cases h
      exact .inl .refl

theorem forwardTimesynch_moves {hdr : Header} (h : s.forwardTimesynch cb hdr = .ok s') :
    Moves env s.conn s'.conn := by
  obtain ⟨c₁, hput, rfl⟩ := tryConn_eq_ok.mp h
  exact Ec.putTimesynch_moves (isPacketFlagSet_initBroadcastPacket ..) hput

/-- The node once it follows the originator of a packet. -/
def follow (hdr : Header) (s : EcNode σ) : EcNode σ :=
  s.onConn fun c => { c with ts := { c.ts with
    authorityLevel := hdr.originator.u8₀, authoritySeqno := hdr.seqno } }

/-- The ways the reception of a time synchronisation packet ends. -/
theorem timesynchRecv_cases {pb : Packetbuf} (h : s.timesynchRecv cb pb = .ok s') :
    s' = s ∨ s.callTimesynch cb = .ok s' ∨ s.timesynchAsLeader cb >>= callTimesynch cb = .ok s' ∨
      (s.follow pb.p.hdr).forwardTimesynch cb pb.p.hdr >>= callTimesynch cb = .ok s' := by
  unfold timesynchRecv at h
  simp only at h
  split at h
  · split at h
    · split at h
      · split at h
        · exact .inr (.inr (.inl h))
        · exact .inr (.inr (.inr h))
      · split at h
        · split at h
          · exact .inr (.inr (.inr h))
          · split at h
            · exact .inr (.inl h)
            · cases h
              exact .inl rfl
        · cases h
          exact .inl rfl
    · cases h
  · cases h
    exact .inl rfl

theorem timesynchRecv_moves {pb : Packetbuf} (h : s.timesynchRecv cb pb = .ok s') :
    Moves env s.conn s'.conn := by
  -- in every case a packet is enqueued at most, and the callback leaves the connection alone
  obtain rfl | hcall | hlead | hforward := timesynchRecv_cases h
  · exact .refl
  · rw [callTimesynch_conn hcall]
  · rw [bind_eq_ok] at hlead
    obtain ⟨s₁, hlead, hcall⟩ := hlead
    rw [callTimesynch_conn hcall]
    exact timesynchAsLeader_moves hlead
  · rw [bind_eq_ok] at hforward
    obtain ⟨s₁, hforward, hcall⟩ := hforward
    rw [callTimesynch_conn hcall]
    have hfollow : Moves env s.conn (s.follow pb.p.hdr).conn := Moves.quiet ⟨rfl, rfl, rfl⟩
    exact hfollow.trans (forwardTimesynch_moves hforward)

/-! ### Events -/

/-- The callback of a timer is a sequence of moves. -/
theorem timerCallback_moves {t : Timer} {radio : Bool}
    (hfires : t = .neighborData → env.fires s.conn radio)
    (h : s.timerCallback cb t radio = .ok s') : Moves env s.conn s'.conn := by
  cases t with
  | neighborAck =>
    rw [← Except.ok.inj h]
    exact Ec.sendNeighborAck_moves
  | neighborData =>
    obtain ⟨c₁, hsend, rfl⟩ := tryConn_eq_ok.mp h
    exact .single (.neighborData (hfires rfl) hsend)
  | broadcastData =>
    rw [← Except.ok.inj h]
    exact Ec.sendBroadcastData_moves
  | multicastUnicastData =>
    obtain ⟨c₁, hsend, rfl⟩ := tryConn_eq_ok.mp h
    exact Ec.sendMulticastUnicastData_moves hsend
  | multicastUnicastAck =>
    rw [← Except.ok.inj h]
    exact Ec.sendMulticastUnicastAck_moves
  | timesynchData =>
    rw [← Except.ok.inj h]
    exact Ec.sendTimesynchData_moves
  | meshData =>
    rw [← Except.ok.inj h]
    exact Ec.sendMeshData_moves
  | timesynch => exact timesynchAsLeader_moves h

end EcNode

/-- The moves of one event: at most one packet is delivered, and its pair is stored after the
callback. -/
inductive Shape (env : MoveEnv) (c : Ec) : Ec → Prop
  | moves {c' : Ec} (h : Moves env c c') : Shape env c c'
  | received {k : Callback} {r : RecvArgs} {c₁ c' : Ec} (hnew : c.isDupe r.id = false)
      (h₁ : Moves env (c.log (.deliver k r)) c₁)
      (h₂ : Moves env (c₁.storePacketForDupeChecks r.id) c') : Shape env c c'

theorem EcNode.Reception.shape {k : Callback} {hdr : Header} {a : Arrival}
    (h : EcNode.Reception env c k hdr a c') : Shape env c c' := by
  cases h with
  | moves h => exact .moves h
  | delivered hnew h₁ h₂ => exact .received (r := ⟨_, _, _, _, _, _⟩) hnew h₁ h₂

/-- What has to be known about an event for its moves to be moves in the surroundings `env`. -/
structure NodeEvent.Fits {σ ε : Type*} (A : Application σ ε) (env : MoveEnv) (ev : NodeEvent ε)
    (s s' : EcNode σ) : Prop where
  process : ∀ e, ev = .process e → ∀ call a, Effect.call call ∈ (A.process e s.app).2 →
    call.data = some a → env.sends a
  callback : ∀ ch pb, ev = .receive ch pb → EcNode.CallbackSends env A.toEcCallbacks pb.p.hdr
  acks : ∀ ch pb, ev = .receive ch pb → ch ≠ .timesynch →
    pb.p.hdr.isPacketFlagSet PacketFlags.ack = true → env.acks pb.p.hdr
  addr : env.addr (A.addr s'.app)
  fires : ∀ radio, ev = .timer .neighborData radio → (s.conn.timers .neighborData).listed = true →
    ∀ c, s.conn.Same c → env.fires c radio

/-- Every event has moves in surroundings nothing is known of. -/
theorem NodeEvent.fits_any {σ ε : Type*} (A : Application σ ε) (ev : NodeEvent ε)
    (s s' : EcNode σ) : ev.Fits A .any s s' where
  process := fun _ _ _ _ _ _ => trivial
  callback := fun _ _ _ _ _ _ _ _ _ _ _ => trivial
  acks := fun _ _ _ _ _ => trivial
  addr := trivial
  fires := fun _ _ _ _ _ => trivial

/-- An event that is no reception is a sequence of moves. -/
theorem EcNode.step_moves {σ ε : Type*} {A : Application σ ε} {ev : NodeEvent ε}
    {s s' : EcNode σ} (hev : ev.isReception = false)
    (hprocess : ∀ e, ev = .process e → ∀ call a, Effect.call call ∈ (A.process e s.app).2 →
      call.data = some a → env.sends a)
    (hfires : ∀ radio, ev = .timer .neighborData radio →
      (s.conn.timers .neighborData).listed = true → ∀ c, s.conn.Same c → env.fires c radio)
    (h : s.step A ev = .ok s') : Moves env s.conn s'.conn := by
  cases ev with
  | process e => exact runEffects_moves _ ⟨s.conn, (A.process e s.app).1⟩ (hprocess e rfl) h
  | receive ch pb => cases hev
  | expire t =>
    rw [← Except.ok.inj h]
    exact Moves.quiet ⟨rfl, rfl, rfl⟩
  | timer t radio =>
    have htake : Moves env s.conn (s.onConn (Ec.ctimerTake t)).conn :=
      Moves.quiet (Ec.same_ctimerTake t)
    rw [step] at h
    split at h
    · next hlisted =>
      refine htake.trans (timerCallback_moves ?_ h)
      intro ht
      subst ht
      exact hfires radio rfl hlisted _ (Ec.same_ctimerTake _)
    · rw [← Except.ok.inj h]
      exact htake
  | meshSent =>
    obtain ⟨c₁, hsent, rfl⟩ := tryConn_eq_ok.mp h
    exact Ec.meshdataSent_moves hsent
  | meshTimeout =>
    rw [← Except.ok.inj h]
    exact Moves.quiet (Ec.same_ctimerSet _)

/-- **Every event is a sequence of moves**, with at most one delivery. -/
theorem EcNode.step_shape {σ ε : Type*} {A : Application σ ε} {ev : NodeEvent ε}
    {s s' : EcNode σ} (hfits : ev.Fits A env s s') (h : s.step A ev = .ok s') :
    Shape env s.conn s'.conn := by
  cases ev with
  | receive ch pb =>
    cases ch with
    | neighbor =>
      obtain hmoves | ⟨a, -, -, -, hrec⟩ := neighborRecv_cases (hfits.callback _ pb rfl)
        (hfits.acks _ pb rfl (by decide)) hfits.addr h
      · exact .moves hmoves
      · exact hrec.shape
    | timesynch => exact .moves (timesynchRecv_moves h)
    | broadcast =>
      obtain hmoves | ⟨k, a, -, -, -, -, hrec⟩ := broadcastRecv_cases (hfits.callback _ pb rfl)
        (hfits.acks _ pb rfl (by decide)) hfits.addr h
      · exact .moves hmoves
      · exact hrec.shape
  | process _ | expire _ | timer _ _ | meshSent | meshTimeout =>
    exact .moves (step_moves rfl hfits.process hfits.fires h)

/-! ### Runs -/

namespace EcNode

variable {σ ε : Type*}

/-- One event, `none` when it cannot occur or the code that handles it goes wrong. -/
def advance (A : Application σ ε) (ev : NodeEvent ε) (s : EcNode σ) : Option (EcNode σ) :=
  if s.Enabled ev then (s.step A ev).toOption else none

end EcNode

/-- A node as a transition system: it starts with a connection just opened. -/
def connMachine {σ ε : Type*} (A : Application σ ε) : Machine (EcNode σ) (NodeEvent ε) where
  init s := s.conn = .opened
  step ev s s' := s.Enabled ev ∧ s.step A ev = .ok s'

theorem connMachine_step_of_advance {σ ε : Type*} {A : Application σ ε} {ev : NodeEvent ε}
    {s s' : EcNode σ} (h : s.advance A ev = some s') : (connMachine A).step ev s s' := by
  unfold EcNode.advance at h
  split at h
  · next hen => exact ⟨hen, toOption_eq_some.mp h⟩
  · cases h

theorem connMachine_reachable_of_run {σ ε : Type*} {A : Application σ ε}
    {evs : List (NodeEvent ε)} {s s' : EcNode σ} (hinit : s.conn = .opened)
    (hrun : Machine.run (EcNode.advance A) evs s = some s') : (connMachine A).Reachable s' :=
  Machine.Reachable.of_run (fun _ _ _ => connMachine_step_of_advance) evs (.init hinit) hrun

/-- An application that only hands over what it is told to, at a node with the given address
and neighbours. -/
def Application.scripted (addr : Rimeaddr) (ns : NeighborSet) : Application Unit (List Effect) where
  addr _ := addr
  ns _ := some ns
  broadcastRecv _ s := (s, [])
  multicastUnicastRecv _ s := (s, [])
  neighborRecv _ s := (s, [])
  timesynch s := (s, true)
  process l s := (s, l)

end EmergencyNet
