import EmergencyNet.Conn.Faults
import EmergencyNet.Sensor.Application

/-!
# Room for what reception sends

Reception hands a packet over only when there is room for three packets: the two the
application may send, and the acknowledgement.  A duplicate is acknowledged without looking
for room.

## Main definitions

* `EcNode.AckOverflows` — a duplicate is acknowledged and the sending queue is full.

## Main results

* `reception_overflows_iff` — **reception overflows the sending queue exactly when a
  duplicate is acknowledged at a full queue.**
* `not_roomForReception` — a configured node whose sending queue overflows.
-/

namespace EmergencyNet

namespace EcNode

variable {σ : Type*}

/-- The acknowledgement of the duplicate `hdr` is allocated in a full packet buffer. -/
def AckOverflows (cb : EcCallbacks σ) (s : EcNode σ) (hdr : Header) : Prop :=
  s.conn.isDupe hdr.id = true ∧
    s.conn.sq.find (unicastPacketCmp (ackHeader (cb.addr s.app) hdr) hdr.sender) = none ∧
    s.conn.sq.size = sendingQueueLength

/-- A frame brings the node a data packet it acknowledges: one of a neighbour, or one sent to
the node by multicast or unicast. -/
def BringsReliable (cb : EcCallbacks σ) (s : EcNode σ) (ch : Channel) (pb : Packetbuf) : Prop :=
  ∃ a, receivePacket (cb.addr s.app) pb = some a ∧ a.isForUs = true ∧
    pb.p.hdr.isPacketFlagSet PacketFlags.ack = false ∧
    (ch = .neighbor ∧ s.fromNeighbor cb .neighbor pb.p.hdr.sender = true ∨
      ch = .broadcast ∧ (a.mc || a.uc) = true)

end EcNode

open EcNode

variable {s : EcNode Node} {pb : Packetbuf}

/-- A callback of the application sends two packets at most. -/
theorem packets_recv (k : Callback) (r : RecvArgs) (s : Node) :
    packets (mainRegSensor.recv k r s).2 ≤ 2 := by
  cases k with
  | broadcastRecv => exact (Node.adds_step s (.broadcastRecv r, s.now)).packets
  | multicastUnicastRecv => exact (Node.adds_step s (.mcUcRecv r, s.now)).packets
  | neighborRecv => exact (Node.adds_step s (.neighborRecv r, s.now)).packets

theorem dataRecv_acknowledge_overflows_iff {k : Callback} {t : MsgType} {timer : Timer}
    {hdr : Header} {a : Arrival} :
    s.dataRecv mainRegSensor.toEcCallbacks k
        (acknowledge mainRegSensor.toEcCallbacks t timer hdr) hdr a = .error .sendingQueueFull ↔
      s.AckOverflows mainRegSensor.toEcCallbacks hdr := by
  rw [dataRecv_eq_sendingQueueFull _ _ (fun r => packets_recv k r s.app) fun _ => Fills.acknowledge,
    acknowledge_eq_sendingQueueFull]
  exact Iff.rfl

theorem neighborRecv_overflows_iff :
    s.neighborRecv mainRegSensor.toEcCallbacks pb = .error .sendingQueueFull ↔
      s.BringsReliable mainRegSensor.toEcCallbacks .neighbor pb ∧
        s.AckOverflows mainRegSensor.toEcCallbacks pb.p.hdr := by
  unfold neighborRecv BringsReliable
  cases receivePacket (mainRegSensor.addr s.app) pb with
  | none => simp
  | some a =>
    cases hns : mainRegSensor.ns s.app with
    | none => cases hfor : a.isForUs <;> simp [hfor, fromNeighbor, hns]
    | some ns =>
      have hfrom : s.fromNeighbor mainRegSensor.toEcCallbacks .neighbor pb.p.hdr.sender = true ↔
          pb.p.hdr.sender ∈ ns.addrs := by
        simp [fromNeighbor, hns]
      simp only [hfrom]
      split
      · next hfor =>
        split
        · next hsender =>
          split
          · next hack => simp [hack]
          · next hack => simp [dataRecv_acknowledge_overflows_iff, hfor, hsender, hack]
        · next hsender => simp [hsender]
      · next hfor => simp [hfor]

theorem broadcastRecv_overflows_iff :
    s.broadcastRecv mainRegSensor.toEcCallbacks pb = .error .sendingQueueFull ↔
      s.BringsReliable mainRegSensor.toEcCallbacks .broadcast pb ∧
        s.AckOverflows mainRegSensor.toEcCallbacks pb.p.hdr := by
  unfold broadcastRecv BringsReliable
  cases receivePacket (mainRegSensor.addr s.app) pb with
  | none => simp
  | some a =>
    simp only
    split
    · next hfor =>
      split
      · next hack => simp [hack]
      · next hack =>
        split
        · next hmc =>
          rw [dataRecv_acknowledge_overflows_iff]
          exact ⟨fun h => ⟨⟨a, rfl, hfor, by simpa using hack, .inr ⟨trivial, hmc⟩⟩, h⟩, fun h => h.2⟩
        · next hmc =>
          -- nothing is acknowledged, and nothing overflows
          have hfull := dataRecv_eq_sendingQueueFull pb.p.hdr a
            (fun r => packets_recv .broadcastRecv r s.app) fun s => Fills.of_ok (Nat.le_succ _)
          rw [hfull]
          refine iff_of_false (by simp) ?_
          rintro ⟨⟨a', ha, -, -, hrel⟩, -⟩
          cases ha
          exact hrel.elim (fun h => by cases h.1) fun h => hmc h.2
    · next hfor => simp [hfor]

/-- **Reception overflows the sending queue exactly when a duplicate is acknowledged at a full
queue**: a packet that is handed over leaves room for what the application sends and for its
acknowledgement. -/
theorem reception_overflows_iff (s : EcNode Node) (pb : Packetbuf) :
    (s.neighborRecv mainRegSensor.toEcCallbacks pb ≠ .error .sendingQueueFull ↔
      ¬ (s.BringsReliable mainRegSensor.toEcCallbacks .neighbor pb ∧
        s.AckOverflows mainRegSensor.toEcCallbacks pb.p.hdr)) ∧
    (s.broadcastRecv mainRegSensor.toEcCallbacks pb ≠ .error .sendingQueueFull ↔
      ¬ (s.BringsReliable mainRegSensor.toEcCallbacks .broadcast pb ∧
        s.AckOverflows mainRegSensor.toEcCallbacks pb.p.hdr)) :=
  ⟨not_congr neighborRecv_overflows_iff, not_congr broadcastRecv_overflows_iff⟩

/-! ### A queue that overflows -/

/-- The set-up of a node `1.0` with the one neighbour `2.0`. -/
def loneSetup : SetupPacket := ⟨⟨1, 0⟩, ⟨⟨0, 1⟩, ⟨0, 1⟩⟩, 0, [⟨2, 0⟩]⟩

/-- A packet of neighbour `2.0` with sequence number `q`. -/
def neighborFrame (q : UInt8) (data : List UInt8) : Packetbuf :=
  (Frame.mk (initBroadcastPacket 0 0 ⟨2, 0⟩ ⟨2, 0⟩ q) data).received []

/-- A keep-alive packet is received and acknowledged; then the operator has twelve packets
sent. -/
def fillingRun : List (NodeEvent ProcessEvent) :=
  [.receive .neighbor (neighborFrame 5 [PacketType.keepAliveNeighbor.toByte]),
    .expire .neighborAck, .timer .neighborAck true] ++
    List.replicate 12 (.process (.serial .sendInitPacket))

/-- **A configured node whose sending queue overflows**: the keep-alive packet comes again,
because its acknowledgement was lost. -/
theorem not_roomForReception : ∃ s, sensorMachine.Reachable s ∧ s.app.ecNs = true ∧
    s.neighborRecv mainRegSensor.toEcCallbacks
      (neighborFrame 5 [PacketType.keepAliveNeighbor.toByte]) = .error .sendingQueueFull := by
  have h : ((Machine.run (EcNode.advance mainRegSensor) fillingRun
      (.poweredUp ⟨9, 9⟩ (some loneSetup.bytes))).map fun s =>
        (s.app.ecNs, faultOf (s.neighborRecv mainRegSensor.toEcCallbacks
          (neighborFrame 5 [PacketType.keepAliveNeighbor.toByte])))) =
      some (true, some .sendingQueueFull) := by decide +kernel
  obtain ⟨s, hrun, hs⟩ := Option.map_eq_some_iff.mp h
  obtain ⟨hns, hfault⟩ := Prod.mk.inj hs
  refine ⟨s, ?_, hns, faultOf_eq_some.mp hfault⟩
  exact sensorMachine_reachable_of_run (by decide +kernel) hrun

end EmergencyNet
