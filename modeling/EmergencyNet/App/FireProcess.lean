import EmergencyNet.App.Handlers
import EmergencyNet.Lib.Machine

/-!
# The process of a node

The event loop `fire_process` of `main_reg_sensor.c`: the button, the serial commands and
the three timers, next to the callbacks of `EmergencyNet.App.Handlers`.  Every pass of the
loop handles one event; timers that have expired together are handled one after the other,
so each is an event of its own.

## Main definitions

* `emergencyCheck`, `keepaliveSend`, `keepaliveCheck` — what the three timers do.
* `SerialCommand`, `serialCommand` — the serial commands.
* `AppEvent`, `Node.step`, `nodeMachine` — the node as a transition system.
-/

namespace EmergencyNet

namespace Node

/-! ### The sensor -/

/-- `LIGHT_EMERGENCY_THRESHOLD`. -/
def lightEmergencyThreshold : UInt16 := 400

/-- `ABRUPT_METRIC_CHANGE_THRESHOLD`. -/
def abruptMetricChangeThreshold : Int16 := 200

/-- `is_emergency`. -/
def isEmergency (metric : UInt16) : Bool := decide (lightEmergencyThreshold < metric)

/-- `abs` of a 16-bit `int`. -/
def abs16 (a : Int16) : Int16 := if a < 0 then -a else a

/-- `abrupt_metric_change_poll`, for the reading `metric`. -/
def abruptMetricChangePoll (metric : UInt16) (s : Node) : Bool :=
  decide (abruptMetricChangeThreshold <
    abs16 (metric.toInt16 - (uint8ToUint16 s.currentSensorsMetric).toInt16))

/-- What a sensed emergency sets off at a node that has a best path neighbour. -/
def startBurning (s : Node) : Node :=
  let s := blinkingInit (setBurning true s)
  let s := sendEmergencyPacket (addCoordinateAsBurning s.coordinateNode s)
  broadcastBestPath (s.call .timesynchNetwork)

/-- The end of an emergency of the node's own. -/
def stopBurning (s : Node) : Node :=
  let s := setBurning false s
  let s := sendAntiEmergencyPacket (removeCoordinateAsBurning s.coordinateNode s)
  blinkingUpdate s

/-- What follows an abrupt change of the reading to `light`. -/
def abruptReading (light : UInt16) (s : Node) : Node :=
  let s := { s with currentSensorsMetric := uint16ToUint8 light }
  if isEmergency light then
    if s.bpn ≠ .null ∧ ¬ s.state.isBurning then startBurning s else s
  else if s.state.isBlinking then
    broadcastBestPath (if s.state.isBurning then stopBurning s else s)
  else s

/-- The `emergency_check_timer` branch, for the sensor reading `light`. -/
def emergencyCheck (light : UInt16) (s : Node) : Node :=
  if ¬ s.state.isAwaitingSetupPacket ∨ ¬ s.state.isSinkNode then
    if s.abruptMetricChangePoll light then abruptReading light s else s
  else s

/-! ### Keep-alive -/

/-- The `keepalive_send_timer` branch. -/
def keepaliveSend (s : Node) : Node :=
  if s.state.isBlinking ∧ s.ns.size > 0 then
    s.reliableBroadcastOwn [PacketType.keepAliveNeighbor.toByte]
  else s

/-- The state of the first loop of the keep-alive check. -/
structure Sweep where
  ns : Neighbors
  bpn : NeighborPtr
  /-- `need_broadcast_new_path`. -/
  needBroadcastNewPath : Bool

/-- Dropping the silent neighbour in slot `i`. -/
def Sweep.drop (i : ℕ) (w : Sweep) : Sweep :=
  { w with
    ns := neighborsRemove w.ns (w.ns.item i).addr
    bpn := if w.bpn = .slot i then .null else w.bpn }

/-- The first loop of the keep-alive check, from the slots `rest` on.  After a removal it
starts over at the head of the list, and the loop's own step then goes on to the entry
behind the head.  Each removal shortens the list, so the number of its entries is fuel
enough. -/
def sweepSilent : ℕ → List ℕ → Sweep → Sweep
  | 0, _, w => w
  | fuel + 1, rest, w =>
    match rest.find? fun i => !(w.ns.item i).hasSentKeepAlive with
    | none => w
    | some i =>
      match (w.drop i).ns.used with
      | [] => w.drop i
      | _ :: tail => sweepSilent fuel tail { w.drop i with needBroadcastNewPath := true }

/-- The second loop of the keep-alive check. -/
def clearKeepAlive : List ℕ → Neighbors → Neighbors
  | [], ns => ns
  | i :: rest, ns => clearKeepAlive rest (ns.set i ((ns.item i).setHasSentKeepAlive false))

/-- The first loop, run over the whole neighbour table. -/
def sweep (s : Node) : Sweep := sweepSilent s.ns.used.length s.ns.used ⟨s.ns, s.bpn, false⟩

/-- The node after both loops of the keep-alive check. -/
def dropSilent (s : Node) : Node :=
  { s with ns := clearKeepAlive s.sweep.ns.used s.sweep.ns, bpn := s.sweep.bpn }

/-- The `keepalive_check_timer` branch. -/
def keepaliveCheck (s : Node) : Node :=
  if s.state.isBlinking then
    if s.sweep.needBroadcastNewPath then
      let r := updateBpnAndBroadcastNewPathIfChanged .null s.dropSilent
      if r.2 then blinkingUpdate r.1 else r.1
    else s.dropSilent
  else s

end Node

/-! ### Serial commands -/

/-- The serial commands that do more than log. -/
inductive SerialCommand
  /-- A set-up command of the simulation, for the packet it builds. -/
  | simulationSetup (sp : SetupPacket)
  | init
  | sendInitPacket
  | sink
  | resetSystemPacket
  | extractReportPacket
  /-- `send_setup_packet:..`, for the packet its arguments describe. -/
  | sendSetupPacket (sp : SetupPacket)

namespace Node

/-- What a serial command does. -/
def serialCommand : SerialCommand → Node → Node
  | .simulationSetup sp, s => setupParse sp.bytes false s
  | .init, s =>
    ecBroadcastsRecv ⟨⟨0xFE, 0xFE⟩, ⟨0xFE, 0xFE⟩, 0, 0,
      [PacketType.initializeBestPaths.toByte], 1⟩ s
  | .sendInitPacket, s => s.broadcastOwn [PacketType.initializeBestPaths.toByte]
  | .sink, s =>
    let s := setupParse (PacketType.setup.toByte :: List.replicate 10 0) false s
    { s with state := { s.state with isSinkNode := true } }
  | .resetSystemPacket, s => s.broadcastOwn [PacketType.resetSystem.toByte]
  | .extractReportPacket, s => s.broadcastOwn [PacketType.extractReport.toByte]
  | .sendSetupPacket sp, s => (s.assert (sp.neighbors ≠ [])).broadcastOwn sp.bytes

end Node

/-! ### The node as a transition system -/

/-- The events a node handles. -/
inductive AppEvent
  | broadcastRecv (r : RecvArgs)
  | neighborRecv (r : RecvArgs)
  | mcUcRecv (r : RecvArgs)
  | timesynched
  | button
  | serial (c : SerialCommand)
  | emergencyCheck (light : UInt16)
  | keepaliveSend
  | keepaliveCheck

/-- The event brings the node an `INITIALIZE_BEST_PATHS_PACKET`. -/
def AppEvent.Initializes : AppEvent → Prop
  | .broadcastRecv r | .neighborRecv r => packetTypeAt r.data = some .initializeBestPaths
  | .serial .init => True
  | _ => False

instance (ev : AppEvent) : Decidable ev.Initializes := by
  unfold AppEvent.Initializes
  split <;> infer_instance

/-- The event may set the node up anew or put it into reset mode. -/
def AppEvent.Reconfigures : AppEvent → Prop
  | .broadcastRecv r =>
    packetTypeAt r.data = some .setup ∨ packetTypeAt r.data = some .resetSystem
  | .neighborRecv r => packetTypeAt r.data = some .resetSystem
  | .serial (.simulationSetup _) | .serial .sink => True
  | _ => False

instance (ev : AppEvent) : Decidable ev.Reconfigures := by
  unfold AppEvent.Reconfigures
  split <;> infer_instance

/-- What the hardware clock and the synchronisation say during an event. -/
structure ClockReading where
  rtimerNow : UInt16
  offset : UInt16

namespace Node

/-- The code that handles an event. -/
def handle : AppEvent → Node → Node
  | .broadcastRecv r, s => ecBroadcastsRecv r s
  | .neighborRecv r, s => ecNeighborsRecv r s
  | .mcUcRecv r, s => ecMcUcRecv r s
  | .timesynched, s => ecTimesynchRecv s
  | .button, s => { s with state := { s.state with isAwaitingSetupPacket := true } }
  | .serial c, s => serialCommand c s
  | .emergencyCheck light, s => emergencyCheck light s
  | .keepaliveSend, s => keepaliveSend s
  | .keepaliveCheck, s => keepaliveCheck s

/-- The node at the start of an event. -/
def wake (c : ClockReading) (s : Node) : Node :=
  { s with rtimerNow := c.rtimerNow, offset := c.offset, calls := [] }

/-- The events the connection can hand to a node in state `s`: `neighbor_recv` passes on
packets of neighbours only. -/
def Enabled (s : Node) : AppEvent → Prop
  | .neighborRecv r => s.ecNs = true ∧ neighborsIsNeighbor s.ns r.sender = true
  | _ => True

instance (s : Node) (ev : AppEvent) : Decidable (s.Enabled ev) := by
  rcases ev <;> unfold Enabled <;> infer_instance

/-- One event, with what the clock says during it. -/
def step (ev : AppEvent × ClockReading) (s : Node) : Node := handle ev.1 (s.wake ev.2)

/-- One event, `none` when the connection cannot hand it over or an assertion fails. -/
def advance (ev : AppEvent × ClockReading) (s : Node) : Option Node :=
  if s.Enabled ev.1 ∧ Completes (s.step ev).calls then some (s.step ev) else none

end Node

/-- The node as a transition system: it starts by powering up, with any address and any
flash contents, and goes on as long as no assertion fails. -/
def nodeMachine : Machine Node (AppEvent × ClockReading) where
  init s := ∃ addr flash, s = Node.resetNodeProperties addr flash ∧ Completes s.calls
  step ev s s' := s.Enabled ev.1 ∧ s' = s.step ev ∧ Completes s'.calls

theorem nodeMachine_step_of_advance {ev : AppEvent × ClockReading} {s s' : Node}
    (h : s.advance ev = some s') : nodeMachine.step ev s s' := by
  unfold Node.advance at h
  split at h
  · next hok =>
    cases h
    exact ⟨hok.1, rfl, hok.2⟩
  · cases h

end EmergencyNet
