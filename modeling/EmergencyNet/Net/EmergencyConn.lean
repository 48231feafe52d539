import EmergencyNet.Net.PacketBuffer

/-!
# The emergency connection

`emergency_net/emergency_conn.c`: the reliable and unreliable broadcasts, multicasts and
unicasts of a node, on top of a radio that may lose a frame or refuse to send it.  A
function that runs application code works on the connection together with the
application's state; one that does not works on the connection alone.

`Ec.trace` is a history variable: it records what the connection has done and is read by
no function of the connection.

## Main definitions

* `Ec`, `EcNode` — `struct ec`, alone and with the application it belongs to.
* `Action` — what the trace records.
* `sendNeighborData`, `sendNeighborAck`, .. — the callbacks of the timers.
* `neighborRecv`, `broadcastRecv`, `timesynchRecv` — the callbacks of the radio.
* `ecReliableBroadcastNs`, `ecBroadcast`, .. and `EcCall.run` — what the application calls.
-/

namespace EmergencyNet

/-! ### The state -/

/-- The channels frames are sent on, next to the one of the mesh. -/
inductive Channel
  | neighbor
  | timesynch
  | broadcast
  deriving DecidableEq, Repr

/-- The `ctimer`s of `struct ec`. -/
inductive Timer
  | neighborAck
  | neighborData
  | broadcastData
  | multicastUnicastData
  | multicastUnicastAck
  | timesynchData
  | meshData
  /-- `ts.timer`. -/
  | timesynch
  deriving DecidableEq, Repr

/-- A `ctimer`, as far as it decides whether its callback runs.  When the timer expires, its
`etimer` stops and an event is put into the event queue; the callback runs when the event is
handled, provided the timer is on `ctimer_list` then. -/
structure CTimer where
  /-- The timer is on `ctimer_list`. -/
  listed : Bool := false
  /-- Its `etimer` is running. -/
  active : Bool := false
  /-- The number of its events in the event queue. -/
  posted : ℕ := 0
  deriving DecidableEq, Repr

/-- The timer is armed: its callback will be run. -/
def CTimer.Armed (t : CTimer) : Prop := t.listed = true ∧ (t.active = true ∨ 0 < t.posted)

instance (t : CTimer) : Decidable t.Armed := by unfold CTimer.Armed; infer_instance

/-- The data callbacks of the application. -/
inductive Callback
  | broadcastRecv
  | multicastUnicastRecv
  | neighborRecv
  deriving DecidableEq, Repr

/-- The callback of that kind. -/
def EcCallbacks.recv {σ : Type*} (cb : EcCallbacks σ) : Callback → RecvArgs → σ → σ × List Effect
  | .broadcastRecv => cb.broadcastRecv
  | .multicastUnicastRecv => cb.multicastUnicastRecv
  | .neighborRecv => cb.neighborRecv

/-- One thing the connection did. -/
inductive Action
  /-- A packet was put into slot `i`, at the end of list `t`. -/
  | enqueue (t : MsgType) (i : ℕ) (ns : Option NeighborSet) (a : SendArgs)
  /-- The packet in slot `i` was freed. -/
  | free (i : ℕ)
  /-- A frame built from the packet in slot `i` was sent. -/
  | frame (ch : Channel) (i : ℕ) (f : Frame)
  /-- A mesh packet built from the packet in slot `i` was given to the mesh. -/
  | mesh (i : ℕ) (destination : Rimeaddr) (payload : List UInt8)
  /-- A pair that was not in the duplicate queue was put there. -/
  | store (id : PacketId)
  /-- An application callback was called. -/
  | deliver (k : Callback) (r : RecvArgs)
  deriving DecidableEq

/-- The `ts` part of `struct ec`, and the two variables of `timesynch_gluer.c`. -/
structure Timesynch where
  isOn : Bool := false
  seqno : UInt8 := 0
  authorityLevel : UInt8 := 0
  authoritySeqno : UInt8 := 0
  deriving DecidableEq, Repr

/-- `DUPE_QUEUE_LENGTH`. -/
def dupeQueueLength : ℕ := 24

/-- `struct ec`. -/
structure Ec where
  sq : PacketBuffer
  /-- The pairs already handled, each a `struct slim_packet`. -/
  dq : QueueBuffer PacketId dupeQueueLength
  timers : Timer → CTimer
  ts : Timesynch
  /-- What the connection has done, newest first. -/
  trace : List Action

/-- The connection of a node and the state of the application that uses it. -/
structure EcNode (σ : Type*) where
  conn : Ec
  app : σ

namespace Ec

/-- `ec_open`. -/
def opened : Ec where
  sq := .init
  dq := .init _ fun _ => (rimeaddrNull, 0)
  timers := fun _ => {}
  ts := {}
  trace := []

/-- Record an action. -/
def log (a : Action) (c : Ec) : Ec := { c with trace := a :: c.trace }

/-- The connection with timer `t` changed. -/
def setTimer (t : Timer) (x : CTimer) (c : Ec) : Ec :=
  { c with timers := Function.update c.timers t x }

/-- `ctimer_set`. -/
def ctimerSet (t : Timer) (c : Ec) : Ec :=
  c.setTimer t { c.timers t with listed := true, active := true }

/-- `ctimer_stop`. -/
def ctimerStop (t : Timer) (c : Ec) : Ec :=
  c.setTimer t { c.timers t with listed := false, active := false }

/-- `ctimer_expired`. -/
def ctimerExpired (t : Timer) (c : Ec) : Bool := !(c.timers t).active

/-- Timer `t` expires: `etimer_process` stops its `etimer` and posts the event. -/
def ctimerPost (t : Timer) (c : Ec) : Ec :=
  c.setTimer t { c.timers t with active := false, posted := (c.timers t).posted + 1 }

/-- `ctimer_process` takes an event of timer `t` and the timer off `ctimer_list`. -/
def ctimerTake (t : Timer) (c : Ec) : Ec :=
  c.setTimer t { c.timers t with listed := false, posted := (c.timers t).posted - 1 }

/-- `packet_buffer_free` on the sending queue. -/
def freePacket (i : ℕ) (c : Ec) : Ec := { c with sq := c.sq.free i }.log (.free i)

/-- `packet_buffer_broadcast_packet` on the sending queue. -/
def putBroadcast (hdr : Header) (data : List UInt8) (ns : Option NeighborSet) (t : MsgType)
    (c : Ec) : Except Fault Ec :=
  match c.sq.broadcastPacket hdr data ns t with
  | .error e => .error e
  | .ok (i, sq) => .ok ({ c with sq := sq }.log
      (.enqueue t i ns ⟨hdr.originator, hdr.sender, hdr.hops, hdr.seqno, data⟩))

/-- `packet_buffer_unicast_packet` on the sending queue. -/
def putUnicast (hdr : Header) (destination : Rimeaddr) (data : List UInt8)
    (ns : Option NeighborSet) (t : MsgType) (c : Ec) : Except Fault Ec :=
  match c.sq.unicastPacket hdr destination data ns t with
  | .error e => .error e
  | .ok (i, sq) => .ok ({ c with sq := sq }.log
      (.enqueue t i ns ⟨hdr.originator, hdr.sender, hdr.hops, hdr.seqno, data⟩))

/-- The allocation in `store_packet_for_dupe_checks`, with the copy that follows it.  When
every slot is in use the oldest pair is dropped, which leaves room for the new one. -/
def dqPush (dq : QueueBuffer PacketId dupeQueueLength) (id : PacketId) :
    QueueBuffer PacketId dupeQueueLength :=
  match dq.pushFront id with
  | some dq => dq
  | none => (dq.popBack.pushFront id).getD dq

/-- The queued pair that `slim_packet_to_packet_cmp` accepts. -/
def isDupe (id : PacketId) (c : Ec) : Bool := (c.dq.find fun p => p == id).isSome

/-- `store_packet_for_dupe_checks`. -/
def storePacketForDupeChecks (id : PacketId) (c : Ec) : Ec :=
  if c.isDupe id then c else { c with dq := dqPush c.dq id }.log (.store id)

end Ec

/-! ### The duplicate queue -/

namespace Ec

/-- The new pair comes first, and the oldest one goes when there is no room. -/
theorem toList_dqPush (dq : QueueBuffer PacketId dupeQueueLength) (id : PacketId) :
    (dqPush dq id).toList = (id :: dq.toList).take dupeQueueLength := by
  have hlen : dq.toList.length = dq.size := dq.length_toList
  unfold dqPush
  cases h : dq.pushFront id with
  | some q =>
    have hne : dq.size ≠ dupeQueueLength := by
      rw [Ne, ← QueueBuffer.pushFront_eq_none (x := id), h]
      simp
    have hle := dq.size_le
    have hshort : (id :: dq.toList).length ≤ dupeQueueLength := by
      rw [List.length_cons, hlen]
      omega
    exact (QueueBuffer.toList_pushFront h).trans (List.take_of_length_le hshort).symm
  | none =>
    have hfull : dq.size = dupeQueueLength := QueueBuffer.pushFront_eq_none.mp h
    -- dropping the last pair leaves room, so the second allocation succeeds
    have hroom : dq.popBack.size ≠ dupeQueueLength := by
      rw [QueueBuffer.size, QueueBuffer.popBack_used, List.length_dropLast]
      change dq.size - 1 ≠ dupeQueueLength
      rw [hfull]
      decide
    cases h₂ : dq.popBack.pushFront id with
    | none => exact absurd (QueueBuffer.pushFront_eq_none.mp h₂) hroom
    | some q =>
      change q.toList = _
      rw [QueueBuffer.toList_pushFront h₂, QueueBuffer.toList_popBack, List.dropLast_eq_take, hlen,
        hfull]
      rfl

theorem isDupe_iff {c : Ec} {id : PacketId} : c.isDupe id = true ↔ id ∈ c.dq.toList := by
  rw [isDupe, QueueBuffer.find, List.find?_isSome, QueueBuffer.toList, List.mem_map]
  simp only [beq_iff_eq]

/-- A pair that is stored is in the duplicate queue. -/
theorem isDupe_store (c : Ec) (id : PacketId) :
    (c.storePacketForDupeChecks id).isDupe id = true := by
  unfold storePacketForDupeChecks
  split
  · next h => exact h
  · rw [isDupe_iff]
    change id ∈ (dqPush c.dq id).toList
    rw [toList_dqPush]
    exact List.mem_cons_self

end Ec

/-! ### Timer callbacks -/

/-- `MAX_TIMES_SENT`. -/
def maxTimesSent : UInt8 := 5

/-- `MAX_TIMES_SENT_MESH`. -/
def maxTimesSentMesh : UInt8 := 10

namespace Ec

/-- The callbacks that send the first packet of a list once, with `body` behind its header;
`radio` is whether `abc_send` succeeds. -/
def sendOnce (t : MsgType) (ch : Channel) (timer : Timer) (body : BufferedPacket → List UInt8)
    (radio : Bool) (c : Ec) : Ec :=
  match c.sq.first t with
  | none => c
  | some i =>
    if radio then
      let bp := c.sq.item i
      let c := (c.log (.frame ch i ⟨bp.p.hdr, body bp⟩)).freePacket i
      if (c.sq.first t).isSome then c.ctimerSet timer else c
    else c.ctimerSet timer

/-- What follows the header in a frame of `UNICAST_PACKET_HDR_SIZE` bytes. -/
def ackBody (bp : BufferedPacket) : List UInt8 := memRead bp.p.data 2

/-- `send_neighbor_ack`. -/
def sendNeighborAck : Bool → Ec → Ec := sendOnce .neighborAck .neighbor .neighborAck ackBody

/-- `send_multicast_unicast_ack`. -/
def sendMulticastUnicastAck : Bool → Ec → Ec :=
  sendOnce .multicastUnicastAck .broadcast .multicastUnicastAck ackBody

/-- `send_broadcast_data`. -/
def sendBroadcastData : Bool → Ec → Ec :=
  sendOnce .broadcastData .broadcast .broadcastData fun bp => memRead bp.p.data bp.dataLen.toNat

/-- `send_timesynch_data`. -/
def sendTimesynchData : Bool → Ec → Ec :=
  sendOnce .timesynchData .timesynch .timesynchData fun _ => []

/-- The multicast or unicast frame for the neighbours `bp` still waits for, with the header
and the data of `p`; `none` where the code asserts. -/
def targetedFrame (p : Packet) (bp : BufferedPacket) : Option Frame :=
  let payload := memRead p.data bp.dataLen.toNat
  match bp.unackedNs.addrs with
  | [] => none
  | [addr] => some
      ⟨initUnicastPacket 0 p.hdr.hops p.hdr.originator p.hdr.sender p.hdr.seqno,
        unicastBody addr payload⟩
  | ids => some
      ⟨initMulticastPacket 0 p.hdr.hops p.hdr.originator p.hdr.sender p.hdr.seqno,
        multicastBody ids payload⟩

/-- The frame `send_neighbor_data` builds from `p` and `bp`: a broadcast the first time, and
from then on a frame for the neighbours that have not acknowledged. -/
def neighborDataFrame (p : Packet) (bp : BufferedPacket) : Option Frame :=
  if p.hdr.isPacketFlagSet PacketFlags.broadcast then
    if bp.timesSent > 0 then targetedFrame p bp
    else
      let len : UInt8 := 7 + bp.dataLen
      some ⟨p.hdr, memRead p.data (len.toNat - 7)⟩
  else none

/-- The loops that drop packets sent `limit` times or more, over the packets of the list. -/
def dropSpent (limit : UInt8) : List ℕ → Ec → Ec × Option ℕ
  | [], c => (c, none)
  | i :: rest, c =>
    if limit ≤ (c.sq.item i).timesSent then dropSpent limit rest (c.freePacket i) else (c, some i)

/-- `send_neighbor_data`. -/
def sendNeighborData (radio : Bool) (c : Ec) : Except Fault Ec :=
  match c.sq.first .neighborData with
  | none => .ok c
  | some i =>
    -- `p` is set before the loop, and the memory of a freed slot stays as it is
    let p := (c.sq.item i).p
    match dropSpent maxTimesSentMesh (c.sq.prioHeads .neighborData) c with
    | (c, none) => .ok c
    | (c, some j) =>
      match neighborDataFrame p (c.sq.item j) with
      | none => .error .assertFailed
      | some f =>
        if radio then
          let c := c.log (.frame .neighbor i f)
          .ok ({ c with sq := c.sq.modify j .incrementTimesSent }.ctimerSet .neighborData)
        else .ok (c.ctimerSet .neighborData)

/-- `send_multicast_unicast_data`. -/
def sendMulticastUnicastData (radio : Bool) (c : Ec) : Except Fault Ec :=
  match c.sq.first .multicastUnicastData with
  | none => .ok c
  | some i =>
    match targetedFrame (c.sq.item i).p (c.sq.item i) with
    | none => .error .assertFailed
    | some f =>
      if radio then
        let c := c.log (.frame .broadcast i f)
        .ok ({ c with sq := c.sq.modify i .incrementTimesSent }.ctimerSet .multicastUnicastData)
      else .ok (c.ctimerSet .multicastUnicastData)

/-- `send_mesh_data`; it does not look at the result of `mesh_send` beyond a message. -/
def sendMeshData (c : Ec) : Ec :=
  match dropSpent maxTimesSent (c.sq.prioHeads .meshData) c with
  | (c, none) => c
  | (c, some i) =>
    let bp := c.sq.item i
    let payload := bp.p.hdr.seqno :: memRead (bp.p.data.drop 2) bp.dataLen.toNat
    { c with sq := c.sq.modify i .incrementTimesSent }.log
      (.mesh i (rimeaddrAt bp.p.data 0) payload)

/-- `meshdata_sent`: the first mesh packet is freed, and there has to be one. -/
def meshdataSent (c : Ec) : Except Fault Ec :=
  match c.sq.first .meshData with
  | none => .error .assertFailed
  | some i => .ok ((c.freePacket i).ctimerSet .meshData)

/-- `meshdata_timeout`. -/
def meshdataTimeout (c : Ec) : Ec := c.ctimerSet .meshData

end Ec

/-! ### What the application calls -/

namespace Ec

/-- The functions that enqueue a data packet for a set of neighbours. -/
def sendData (t : MsgType) (timer : Timer) (ns : Option NeighborSet) (a : SendArgs) (c : Ec) :
    Except Fault Ec := do
  let hdr := initBroadcastPacket 0 a.hops a.originator a.sender a.seqno
  let c ← c.putBroadcast hdr a.data ns t
  let c := c.storePacketForDupeChecks hdr.id
  return if c.ctimerExpired timer then c.ctimerSet timer else c

/-- `ec_reliable_broadcast_ns`. -/
def ecReliableBroadcastNs (ns : Option NeighborSet) (a : SendArgs) (c : Ec) : Except Fault Ec :=
  match ns with
  | none => .error .nullNeighbors
  | some ns =>
    if ns.addrs.length > 0 then sendData .neighborData .neighborData (some ns) a c else .ok c

/-- `ec_broadcast`. -/
def ecBroadcast (ns : Option NeighborSet) (a : SendArgs) (c : Ec) : Except Fault Ec :=
  sendData .broadcastData .broadcastData ns a c

/-- `ec_reliable_multicast`. -/
def ecReliableMulticast (receivers : NeighborSet) (a : SendArgs) (c : Ec) : Except Fault Ec :=
  sendData .multicastUnicastData .multicastUnicastData (some receivers) a c

/-- `ec_reliable_unicast`. -/
def ecReliableUnicast (destination : Rimeaddr) (a : SendArgs) (c : Ec) : Except Fault Ec :=
  sendData .multicastUnicastData .multicastUnicastData (some (.single destination)) a c

/-- `ec_mesh`. -/
def ecMesh (destination : Rimeaddr) (seqno : UInt8) (data : List UInt8) (c : Ec) :
    Except Fault Ec := do
  let hdr := initUnicastPacket 0 0 rimeaddrNull rimeaddrNull seqno
  let c ← c.putUnicast hdr destination data none .meshData
  return if c.ctimerExpired .meshData then c.ctimerSet .meshData else c

/-- `AUTHORITY_LEVEL_MAX`. -/
def authorityLevelMax : UInt8 := 0xFF

/-- `ec_timesynch_on`. -/
def ecTimesynchOn (c : Ec) : Ec :=
  { c with ts := ⟨true, 0, authorityLevelMax, 0⟩ }

/-- `ec_timesynch_off`. -/
def ecTimesynchOff (c : Ec) : Ec :=
  { c.ctimerStop .timesynch with ts := { c.ts with isOn := false } }

/-- The time synchronisation packet that is enqueued, and the timers set with it. -/
def putTimesynch (hdr : Header) (c : Ec) : Except Fault Ec := do
  let c ← c.putBroadcast hdr [] none .timesynchData
  return (c.ctimerSet .timesynchData).ctimerSet .timesynch

end Ec

namespace EcNode

variable {σ : Type*}

/-- The node after `f` has worked on its connection. -/
def onConn (s : EcNode σ) (f : Ec → Ec) : EcNode σ := { s with conn := f s.conn }

/-- The node after `f` has worked on its connection, if `f` ends. -/
def tryConn (s : EcNode σ) (f : Ec → Except Fault Ec) : Except Fault (EcNode σ) :=
  match f s.conn with
  | .error e => .error e
  | .ok c => .ok { s with conn := c }

/-- A call of the callback `timesynch`. -/
def callTimesynch (cb : EcCallbacks σ) (s : EcNode σ) : Except Fault (EcNode σ) :=
  if (cb.timesynch s.app).2 then .ok { s with app := (cb.timesynch s.app).1 }
  else .error .assertFailed

/-- `timesynch_as_leader`. -/
def timesynchAsLeader (cb : EcCallbacks σ) (s : EcNode σ) : Except Fault (EcNode σ) := do
  let own := cb.addr s.app
  let seqno := s.conn.ts.seqno
  let s := s.onConn fun c =>
    { c with ts := ⟨c.ts.isOn, seqno + 1, own.u8₀, seqno⟩ }
  let s ← s.tryConn (Ec.putTimesynch (initBroadcastPacket PacketFlags.timesynch 0 own own seqno))
  s.callTimesynch cb

/-- `ec_timesynch_network`. -/
def ecTimesynchNetwork (cb : EcCallbacks σ) (s : EcNode σ) : Except Fault (EcNode σ) :=
  if s.conn.ts.isOn then
    if s.conn.ctimerExpired .timesynch then s.timesynchAsLeader cb else .ok s
  else .error .assertFailed

end EcNode

/-- What a call of an `ec_*` function does. -/
def EcCall.run {σ : Type*} (cb : EcCallbacks σ) : EcCall → EcNode σ → Except Fault (EcNode σ)
  | .reliableBroadcastNs ns a, s => s.tryConn (Ec.ecReliableBroadcastNs ns a)
  | .broadcast ns a, s => s.tryConn (Ec.ecBroadcast ns a)
  | .reliableMulticast receivers a, s => s.tryConn (Ec.ecReliableMulticast receivers a)
  | .reliableUnicast destination a, s => s.tryConn (Ec.ecReliableUnicast destination a)
  | .mesh destination seqno data, s => s.tryConn (Ec.ecMesh destination seqno data)
  | .timesynchOn, s => .ok (s.onConn Ec.ecTimesynchOn)
  | .timesynchOff, s => .ok (s.onConn Ec.ecTimesynchOff)
  | .timesynchNetwork, s => s.ecTimesynchNetwork cb

namespace EcNode

variable {σ : Type*}

/-- What application code did, done to the connection. -/
def runEffects (cb : EcCallbacks σ) : List Effect → EcNode σ → Except Fault (EcNode σ)
  | [], s => .ok s
  | .assert b :: rest, s => if b then runEffects cb rest s else .error .assertFailed
  | .call c :: rest, s => do runEffects cb rest (← c.run cb s)

/-! ### Radio callbacks -/

/-- The branch for acknowledgements of `neighbor_recv` and `broadcast_recv`, which differ in
the timer. -/
def ackRecv (timer : Timer) (hdr : Header) (c : Ec) : Ec :=
  match c.sq.find (originatorSeqnoCmp hdr) with
  | none => c
  | some i =>
    let c := { c with sq := c.sq.modify i (.neighborAcked hdr.sender) }
    if (c.sq.item i).allNeighborsAcked then (c.freePacket i).ctimerSet timer else c

/-- A call of a data callback. -/
def deliver (cb : EcCallbacks σ) (k : Callback) (r : RecvArgs) (s : EcNode σ) :
    Except Fault (EcNode σ) :=
  let res := cb.recv k r s.app
  runEffects cb res.2 ⟨s.conn.log (.deliver k r), res.1⟩

/-- The header of the acknowledgement a node with address `own` makes for a packet. -/
def ackHeader (own : Rimeaddr) (hdr : Header) : Header :=
  initUnicastPacket PacketFlags.ack 0 hdr.originator own hdr.seqno

/-- The acknowledgement of a data packet, unless the same one is still to be sent. -/
def acknowledge (cb : EcCallbacks σ) (t : MsgType) (timer : Timer) (hdr : Header) (s : EcNode σ) :
    Except Fault (EcNode σ) :=
  match s.conn.sq.find (unicastPacketCmp (ackHeader (cb.addr s.app) hdr) hdr.sender) with
  | some _ => .ok s
  | none => s.tryConn fun c => do
    let c ← c.putUnicast (ackHeader (cb.addr s.app) hdr) hdr.sender [] none t
    return c.ctimerSet timer

/-- The branch for data packets of `neighbor_recv` and `broadcast_recv`: `k` is the callback
for a packet that is new, and `sendAck` what acknowledges a packet, if anything does. -/
def dataRecv (cb : EcCallbacks σ) (k : Callback) (sendAck : EcNode σ → Except Fault (EcNode σ))
    (hdr : Header) (a : Arrival) (s : EcNode σ) : Except Fault (EcNode σ) :=
  if s.conn.isDupe hdr.id then sendAck s
  else if s.conn.sq.hasRoomForPackets 3 then do
    let s ← s.deliver cb k ⟨hdr.originator, hdr.sender, hdr.hops, hdr.seqno, a.data, a.dataLen⟩
    sendAck (s.onConn (Ec.storePacketForDupeChecks hdr.id))
  else .ok s

/-- `neighbor_recv`. -/
def neighborRecv (cb : EcCallbacks σ) (pb : Packetbuf) (s : EcNode σ) :
    Except Fault (EcNode σ) :=
  match receivePacket (cb.addr s.app) pb with
  | none => .error .assertFailed
  | some a =>
    if a.isForUs then
      match cb.ns s.app with
      | none => .error .nullNeighbors
      | some ns =>
        if pb.p.hdr.sender ∈ ns.addrs then
          if pb.p.hdr.isPacketFlagSet PacketFlags.ack then
            .ok (s.onConn (ackRecv .neighborData pb.p.hdr))
          else
            s.dataRecv cb .neighborRecv (acknowledge cb .neighborAck .neighborAck pb.p.hdr)
              pb.p.hdr a
        else .ok s
    else .ok s

/-- `broadcast_recv`. -/
def broadcastRecv (cb : EcCallbacks σ) (pb : Packetbuf) (s : EcNode σ) :
    Except Fault (EcNode σ) :=
  match receivePacket (cb.addr s.app) pb with
  | none => .error .assertFailed
  | some a =>
    if a.isForUs then
      if pb.p.hdr.isPacketFlagSet PacketFlags.ack then
        .ok (s.onConn (ackRecv .multicastUnicastData pb.p.hdr))
      else if a.mc || a.uc then
        s.dataRecv cb .multicastUnicastRecv
          (acknowledge cb .multicastUnicastAck .multicastUnicastAck pb.p.hdr) pb.p.hdr a
      else s.dataRecv cb .broadcastRecv .ok pb.p.hdr a
    else .ok s

/-- A time synchronisation packet passed on, as both branches of `timesynch_recv` do. -/
def forwardTimesynch (cb : EcCallbacks σ) (hdr : Header) (s : EcNode σ) :
    Except Fault (EcNode σ) :=
  s.tryConn (Ec.putTimesynch (initBroadcastPacket PacketFlags.timesynch (hdr.hops + 1)
    hdr.originator (cb.addr s.app) hdr.seqno))

/-- `timesynch_recv`. -/
def timesynchRecv (cb : EcCallbacks σ) (pb : Packetbuf) (s : EcNode σ) :
    Except Fault (EcNode σ) :=
  let hdr := pb.p.hdr
  let authlevel := hdr.originator.u8₀
  let ts := s.conn.ts
  -- where the level is equal already, only the number is set
  let follow : EcNode σ := s.onConn fun c =>
    { c with ts := { ts with authorityLevel := authlevel, authoritySeqno := hdr.seqno } }
  if ts.isOn then
    if hdr.isPacketFlagSet PacketFlags.timesynch then
      if authlevel < ts.authorityLevel then
        (if (cb.addr s.app).u8₀ < authlevel then s.timesynchAsLeader cb
          else follow.forwardTimesynch cb hdr) >>= callTimesynch cb
      else if authlevel = ts.authorityLevel then
        if hdr.seqno > ts.authoritySeqno ∨ hdr.seqno < ts.authoritySeqno / 8 then
          follow.forwardTimesynch cb hdr >>= callTimesynch cb
        else if hdr.seqno = ts.authoritySeqno then s.callTimesynch cb
        else .ok s
      else .ok s
    else .error .assertFailed
  else .ok s

end EcNode

end EmergencyNet
