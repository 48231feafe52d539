import EmergencyNet.App.Node

/-!
# Set-up, path selection and the receive callbacks

The part of `main_reg_sensor.c` that runs when a packet arrives: `setup_parse`, the choice
of the best path neighbour and the announcement of the node's own path, and the callbacks
given to the emergency connection.

## Main definitions

* `setupParse` — take over a setup packet.
* `findBestExitPathNeighbor`, `bestNeighborBpToOurBp` — the best neighbour and the path
  advertised through it.
* `updateBpnAndBroadcastNewPathIfChanged`, `updateBpnAndSendNodeInfo` — the two places
  that switch the best neighbour and tell the neighbours.
* `ecBroadcastsRecv`, `ecNeighborsRecv`, `ecMcUcRecv`, `ecTimesynchRecv` — the callbacks.
-/

namespace EmergencyNet

namespace Node

/-! ### Set-up -/

/-- The loop of `setup_parse` that fills the neighbour table; `neighbors_add` asserts that
there is room. -/
def addNeighbors : List Rimeaddr → Node → Node
  | [], s => s
  | addr :: rest, s =>
    match neighborsAdd s.ns addr with
    | some ns => addNeighbors rest { s with ns := ns }
    | none => addNeighbors rest (s.assert false)

/-- The part of `setup_parse` for an exit node: the node is its own best neighbour, at
hops `-1` because one is added when the path is sent. -/
def becomeExitNode (s : Node) : Node :=
  { s with
    state := { s.state with isExitNode := true }
    exitNode :=
      { s.exitNode.setCoordinate s.coordinateNode s.coordinateNode with
        addr := s.rimeaddrNodeAddr
        bp := ⟨⟨0, 0⟩, s.rimeaddrNodeAddr, -1⟩ } }

/-- What `setup_parse` does before it adds the neighbours. -/
def setupCleared (sp : SetupPacket) (s : Node) : Node :=
  { s with
    rimeaddrNodeAddr := sp.newAddr
    coordinateNode := sp.newCoord
    ns := s.ns.clear
    state := {}
    currentSensorsMetric := uint16ToUint8 0 }

/-- What `setup_parse` does after it has added the neighbours; the flash then holds
`flash`. -/
def setupFinished (isExit : Bool) (flash : Option (List UInt8)) (s : Node) : Node :=
  let s := if isExit then becomeExitNode s else s
  -- the second `neighbor_node_set_coordinate` is of `exit_node` again, not of `max_node`
  { s with
    maxNode := { s.maxNode with addr := rimeaddrNull, bp := neighborNodeBestPathMax }
    exitNode := s.exitNode.setCoordinate s.coordinateNode s.coordinateNode
    flash := flash
    ecNs := true }

/-- `setup_parse` of the packet at the start of memory `m`. -/
def setupParse (m : List UInt8) (isFromFlash : Bool) (s : Node) : Node :=
  let sp := SetupPacket.read m
  let stored := memRead m (setupPacketSize + 2 * sp.neighbors.length)
  setupFinished (sp.isExitNode != 0) (if isFromFlash then s.flash else some stored)
    (addNeighbors sp.neighbors (setupCleared sp s))

/-- The number of bytes `node_properties_restore` reads back. -/
def setupBufferSize : ℕ := setupPacketSize + 2 * maxNeighbors

/-- `reset_node_properties`: the state after power-up. -/
def resetNodeProperties (addr : Rimeaddr) (flash : Option (List UInt8)) : Node :=
  match flash with
  | some f => setupParse (memRead f setupBufferSize) true (zero addr flash)
  | none => zero addr flash

/-- `reset_system_packet_handler`. -/
def resetSystemPacketHandler (s : Node) : Node :=
  let s := match s.flash with
    | some f => setupParse (memRead f setupBufferSize) true s
    | none => s
  { s with state := { s.state with isResetMode := true } }

/-! ### The best path neighbour -/

/-- `MAX_NUMBER_OF_HOPS_TO_EXIT`. -/
def maxNumberOfHopsToExit : UInt8 := 7

/-- `weigh_distance`. -/
def weighDistance (distance : UInt16) : UInt16 := distance

/-- `weigh_metrics`. -/
def weighMetrics (s : Node) (distance : UInt16) : UInt16 :=
  if s.state.isBurning then
    1000 + weighDistance distance + uint8ToUint16 s.currentSensorsMetric
  else weighDistance distance

/-- The test `find_best_exit_path_neighbor` puts an entry to: it does not point to us, has
a path, and the path is short enough. -/
def eligible (s : Node) (nn : NeighborNode) : Bool :=
  !nn.pointsToUs s.rimeaddrNodeAddr && nn.metric != metricTMax &&
    decide (nn.hops < maxNumberOfHopsToExit)

/-- The loop of `find_best_exit_path_neighbor` over the slots still to visit. -/
def scanNeighbors (s : Node) : List ℕ → NeighborPtr → UInt16 → NeighborPtr
  | [], best, _ => best
  | i :: rest, best, minMetric =>
    if s.eligible (s.ns.item i) then
      let metric := weighDistance (s.ns.item i).dist + (s.ns.item i).metric
      if metric < minMetric then scanNeighbors s rest (.slot i) metric
      else scanNeighbors s rest best minMetric
    else scanNeighbors s rest best minMetric

/-- `find_best_exit_path_neighbor`. -/
def findBestExitPathNeighbor (s : Node) : NeighborPtr :=
  let best := if s.state.isExitNode then .exitNode
    else scanNeighbors s s.ns.used .null metricTMax
  if best = .null then .maxNode else best

/-- `best_neighbor_bp_to_our_bp`: the best neighbour's path, extended to the node. -/
def bestNeighborBpToOurBp (s : Node) : NeighborNodeBestPath where
  metric := uint16ToUint8 ((s.deref s.bpn).metric + s.weighMetrics (s.deref s.bpn).dist)
  pointsTo := (s.deref s.bpn).addr
  hops := (s.deref s.bpn).hops + 1

/-- `broadcast_best_path`. -/
def broadcastBestPath (s : Node) : Node :=
  (s.assert (s.bpn ≠ .null)).reliableBroadcastOwn
    (PathPacket.bestPathUpdate s.bestNeighborBpToOurBp).bytes

/-- `update_bpn_and_broadcast_new_path_if_changed`; the flag is the function's result. -/
def updateBpnAndBroadcastNewPathIfChanged (sender : NeighborPtr) (s : Node) : Node × Bool :=
  let best := s.findBestExitPathNeighbor
  let s := s.assert (best ≠ .null)
  if s.bpn = .null ∨ (s.deref best).metric < (s.deref s.bpn).metric then
    (broadcastBestPath { s with bpn := best }, true)
  else if sender = best ∨ (s.bpn ≠ .maxNode ∧ best = .maxNode) then
    (broadcastBestPath { s with bpn := best }, true)
  else (s, false)

/-- `update_bpn_and_send_node_info`. -/
def updateBpnAndSendNodeInfo (s : Node) : Node :=
  let best := s.findBestExitPathNeighbor
  let s := { s.assert (best ≠ .null) with bpn := best }
  (s.assert (s.bpn ≠ .null)).reliableBroadcastOwn
    (PathPacket.nodeInfo s.coordinateNode s.bestNeighborBpToOurBp).bytes

/-- `initialize_best_path_packet_handler`. -/
def initializeBestPathPacketHandler (s : Node) : Node :=
  let s := s.call .timesynchOn
  let s := { s with state := { s.state with isResetMode := false } }
  if s.state.isExitNode then
    let s := updateBpnAndSendNodeInfo (s.assert (!s.state.hasSentNodeInfo))
    { s with state := { s.state with hasSentNodeInfo := true } }
  else s

/-! ### The callbacks -/

/-- `ec_mc_uc_recv`. -/
def ecMcUcRecv (r : RecvArgs) (s : Node) : Node :=
  match packetTypeAt r.data with
  | some .imYourNewNeighbor => addNeighbors [r.originator] s
  | _ => s.assert false

/-- What both receive callbacks do first: in reset mode every packet but the
initialisation is dropped. -/
def ignoredInResetMode (r : RecvArgs) (s : Node) : Bool :=
  s.state.isResetMode && packetTypeAt r.data != some .initializeBestPaths

/-- The payload of a `node_report_packet`. -/
def nodeReportBytes (s : Node) : List UInt8 :=
  PacketType.nodeReport.toByte :: (s.coordinateNode.bytes ++
    [s.state.isBurning.toUInt8, s.state.isExitNode.toUInt8])

/-- `ec_broadcasts_recv` at a node that is not the sink. -/
def sensorBroadcastsRecv (r : RecvArgs) (s : Node) : Node :=
  match packetTypeAt r.data with
  | some .emergency =>
    let s := addCoordinateAsBurning (coordinateAt r.data 1) s
    let s := s.broadcast r.originator (r.hops + 1) r.seqno r.payload
    blinkingInit s
  | some .antiEmergency =>
    let s := removeCoordinateAsBurning (coordinateAt r.data 1) s
    s.broadcast r.originator (r.hops + 1) r.seqno r.payload
  | some .setup =>
    if s.state.isAwaitingSetupPacket then
      setupParse r.data false { s with state := { s.state with isAwaitingSetupPacket := false } }
    else s
  | some .initializeBestPaths =>
    let s := s.reliableBroadcastNs r.originator (r.hops + 1) r.seqno r.payload
    initializeBestPathPacketHandler s
  | some .extractReport =>
    let report := s.nodeReportBytes
    let s := s.broadcast r.originator (r.hops + 1) r.seqno r.payload
    { s.call (.mesh r.originator s.seqno report) with seqno := s.seqno + 1 }
  | some .resetSystem =>
    let s := s.reliableBroadcastNs r.originator (r.hops + 1) r.seqno r.payload
    resetSystemPacketHandler s
  | _ => s.assert false

/-- `ec_broadcasts_recv` at the sink, which prints the emergencies it hears of. -/
def sinkBroadcastsRecv (r : RecvArgs) (s : Node) : Node :=
  match packetTypeAt r.data with
  | some .emergency | some .antiEmergency | some .setup | some .initializeBestPaths
  | some .extractReport | some .resetSystem => s
  | _ => s.assert false

/-- `ec_broadcasts_recv`. -/
def ecBroadcastsRecv (r : RecvArgs) (s : Node) : Node :=
  if s.ignoredInResetMode r then s
  else if s.state.isSinkNode then sinkBroadcastsRecv r s
  else sensorBroadcastsRecv r s

/-- The `BEST_PATH_UPDATE_PACKET` case of `ec_neighbors_recv`, for the entry in slot `i`. -/
def bestPathUpdateRecv (i : ℕ) (bp : NeighborNodeBestPath) (s : Node) : Node :=
  let s := { s with ns := s.ns.set i ((s.ns.item i).setBestPath bp) }
  let r := updateBpnAndBroadcastNewPathIfChanged (.slot i) s
  if r.2 then blinkingUpdate r.1 else r.1

/-- The `NODE_INFO_PACKET` case of `ec_neighbors_recv`, for the entry in slot `i`. -/
def nodeInfoRecv (i : ℕ) (coord : Coordinate) (bp : NeighborNodeBestPath) (s : Node) : Node :=
  let s := { s with
    ns := s.ns.set i (((s.ns.item i).setCoordinate s.coordinateNode coord).setBestPath bp) }
  if s.state.hasSentNodeInfo then
    if s.state.isExitNode then s
    else (updateBpnAndBroadcastNewPathIfChanged (.slot i) s).1
  else
    let s := updateBpnAndSendNodeInfo s
    { s with state := { s.state with hasSentNodeInfo := true } }

/-- The cases of `ec_neighbors_recv` that need the sender's entry; `neighbor_recv` has
checked that there is one. -/
def withSender (r : RecvArgs) (f : ℕ → Node → Node) (s : Node) : Node :=
  match neighborsFindNeighborNode s.ns r.sender with
  | some i => f i s
  | none => s.assert false

/-- The switch of `ec_neighbors_recv`. -/
def neighborsRecv (r : RecvArgs) (s : Node) : Node :=
  match packetTypeAt r.data with
  | some .bestPathUpdate => s.withSender r fun i => bestPathUpdateRecv i (bestPathAt r.data 1)
  | some .initializeBestPaths =>
    let s := s.reliableBroadcastNs r.originator (r.hops + 1) r.seqno r.payload
    initializeBestPathPacketHandler s
  | some .keepAliveNeighbor => s.withSender r fun i s =>
      { s with ns := s.ns.set i ((s.ns.item i).setHasSentKeepAlive true) }
  | some .nodeInfo =>
    s.withSender r fun i => nodeInfoRecv i (coordinateAt r.data 1) (bestPathAt r.data 5)
  | some .resetSystem =>
    let s := s.reliableBroadcastNs r.originator (r.hops + 1) r.seqno r.payload
    resetSystemPacketHandler s
  | _ => s.assert false

/-- `ec_neighbors_recv`. -/
def ecNeighborsRecv (r : RecvArgs) (s : Node) : Node :=
  if s.ignoredInResetMode r then s
  else if s.state.isSinkNode then s
  else neighborsRecv r s

/-- `ec_timesynch_recv`. -/
def ecTimesynchRecv (s : Node) : Node := blinkingUpdate s

end Node

end EmergencyNet
