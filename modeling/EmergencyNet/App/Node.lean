import EmergencyNet.App.Packets

/-!
# The state of a node

The variables of `main_reg_sensor.c`: the record `g_np`, the two nodes outside the
neighbour table, the node's own address and coordinate, the flash memory, and the clock the
blinking light reads.  `calls` collects what the code running for the current event does
to the connection and which assertions it evaluates.

## Main definitions

* `Node`, `NodeState`, `Blinking`, `NeighborPtr` — the state.
* `Node.deref` — what a pointer to a neighbour node points to.
* `blinkingUpdate`, `blinkingInit`, `setBurning` — the light.
* `addCoordinateAsBurning`, `removeCoordinateAsBurning` — the burning coordinates.
* `Node.reliableBroadcastNs`, `Node.broadcast` — calls into the connection.
-/

namespace EmergencyNet

/-- The `state` flags of `struct node_properties`. -/
structure NodeState where
  isBlinking : Bool := false
  isBurning : Bool := false
  isExitNode : Bool := false
  isAwaitingSetupPacket : Bool := false
  hasSentNodeInfo : Bool := false
  isResetMode : Bool := false
  isSinkNode : Bool := false
  deriving DecidableEq, Repr

/-- The `blinking` part of `struct node_properties`. -/
structure Blinking where
  nextWakeup : UInt16
  /-- The `enum blinking_sequence_state`, as the number it is. -/
  state : UInt16
  deriving DecidableEq, Repr

/-- A pointer to a `struct neighbor_node`. -/
inductive NeighborPtr
  | null
  /-- `&exit_node`. -/
  | exitNode
  /-- `&max_node`. -/
  | maxNode
  /-- The item in a slot of the neighbour table, whether the slot is in use or not. -/
  | slot (i : ℕ)
  deriving DecidableEq, Repr

/-- A property of the slot a pointer points to, if it points to one. -/
instance NeighborPtr.decidableForallSlot (q : NeighborPtr) (P : ℕ → Prop) [DecidablePred P] :
    Decidable (∀ i, q = .slot i → P i) :=
  match q with
  | .slot i => decidable_of_iff (P i) ⟨fun h _ hj => by cases hj; exact h, fun h => h i rfl⟩
  | .null | .exitNode | .maxNode => .isTrue fun _ h => nomatch h

/-- The variables of a node. -/
structure Node where
  rimeaddrNodeAddr : Rimeaddr
  coordinateNode : Coordinate
  /-- `g_np.ns`. -/
  ns : Neighbors
  /-- `g_np.bpn`, the best path neighbour. -/
  bpn : NeighborPtr
  /-- `g_np.emergency_coords`, front first. -/
  emergencyCoords : List Coordinate
  blinking : Blinking
  state : NodeState
  currentSensorsMetric : Packed16
  seqno : UInt8
  /-- `exit_node`, the neighbour of a node that is an exit. -/
  exitNode : NeighborNode
  /-- `max_node`, the neighbour of a node without a path. -/
  maxNode : NeighborNode
  /-- `c->ns` points to `g_np.ns` and is not `NULL`. -/
  ecNs : Bool
  /-- The bytes `node_properties_burn` stored, if any. -/
  flash : Option (List UInt8)
  /-- `RTIMER_NOW()`. -/
  rtimerNow : UInt16
  /-- `offset` of `timesynch.c`. -/
  offset : UInt16
  /-- What the code has done since the current event began. -/
  calls : List Effect

namespace Node

/-! ### Pointers and calls -/

/-- The neighbour node a pointer points to. -/
def deref (s : Node) : NeighborPtr → NeighborNode
  | .null => default
  | .exitNode => s.exitNode
  | .maxNode => s.maxNode
  | .slot i => s.ns.item i

@[simp] theorem deref_exitNode (s : Node) : s.deref .exitNode = s.exitNode := rfl

@[simp] theorem deref_maxNode (s : Node) : s.deref .maxNode = s.maxNode := rfl

@[simp] theorem deref_slot (s : Node) (i : ℕ) : s.deref (.slot i) = s.ns.item i := rfl

/-- Record a call of an `ec_*` function. -/
def call (s : Node) (c : EcCall) : Node := { s with calls := s.calls ++ [.call c] }

/-- `ASSERT(b)`. -/
def assert (s : Node) (b : Bool) : Node := { s with calls := s.calls ++ [.assert b] }

/-- What `c->ns` points to. -/
def connNs (s : Node) : Option NeighborSet := if s.ecNs then some s.ns.addrs else none

/-- `ec_reliable_broadcast_ns(&g_np.c, originator, &rimeaddr_node_addr, hops, seqno, ..)`. -/
def reliableBroadcastNs (s : Node) (originator : Rimeaddr) (hops seqno : UInt8)
    (data : List UInt8) : Node :=
  s.call (.reliableBroadcastNs s.connNs ⟨originator, s.rimeaddrNodeAddr, hops, seqno, data⟩)

/-- `ec_broadcast(&g_np.c, originator, &rimeaddr_node_addr, hops, seqno, ..)`. -/
def broadcast (s : Node) (originator : Rimeaddr) (hops seqno : UInt8) (data : List UInt8) : Node :=
  s.call (.broadcast s.connNs ⟨originator, s.rimeaddrNodeAddr, hops, seqno, data⟩)

/-- `ec_reliable_broadcast_ns` of a packet of the node's own, with `g_np.seqno++`. -/
def reliableBroadcastOwn (s : Node) (data : List UInt8) : Node :=
  { s.reliableBroadcastNs s.rimeaddrNodeAddr 0 s.seqno data with seqno := s.seqno + 1 }

/-- `ec_broadcast` of a packet of the node's own, with `g_np.seqno++`. -/
def broadcastOwn (s : Node) (data : List UInt8) : Node :=
  { s.broadcast s.rimeaddrNodeAddr 0 s.seqno data with seqno := s.seqno + 1 }

/-! ### Burning coordinates -/

/-- `MAX_FIRE_COORDINATES`. -/
def maxFireCoordinates : ℕ := 10

/-- `add_coordinate_as_burning`; a coordinate that does not fit is dropped. -/
def addCoordinateAsBurning (coord : Coordinate) (s : Node) : Node :=
  if coord ∉ s.emergencyCoords ∧ s.emergencyCoords.length < maxFireCoordinates then
    { s with emergencyCoords := coord :: s.emergencyCoords }
  else s

/-- `remove_coordinate_as_burning`. -/
def removeCoordinateAsBurning (coord : Coordinate) (s : Node) : Node :=
  { s with emergencyCoords := s.emergencyCoords.erase coord }

/-- The payload of an `emergency_packet` of the given type. -/
def emergencyBytes (t : PacketType) (source : Coordinate) : List UInt8 := t.toByte :: source.bytes

/-- `send_emergency_packet`. -/
def sendEmergencyPacket (s : Node) : Node :=
  s.broadcastOwn (emergencyBytes .emergency s.coordinateNode)

/-- `send_anti_emergency_packet`. -/
def sendAntiEmergencyPacket (s : Node) : Node :=
  s.broadcastOwn (emergencyBytes .antiEmergency s.coordinateNode)

/-! ### The light -/

/-- `BLINKING_SEQUENCE_SWITCH_TIME`. -/
def blinkingSequenceSwitchTime : UInt16 := 4 * 1024

/-- `BLINKING_SEQUENCE_LENGTH`. -/
def blinkingSequenceLength : UInt16 := 8

/-- `timesynch_time`. -/
def timesynchTime (s : Node) : UInt16 := s.rtimerNow + s.offset

/-- `timesynch_time_to_rtimer`. -/
def timesynchTimeToRtimer (s : Node) (t : UInt16) : UInt16 := t - s.offset

/-- `blinking_update`. -/
def blinkingUpdate (s : Node) : Node :=
  if s.state.isBlinking ∧ ¬ s.state.isBurning then
    let sequencesNext := s.timesynchTime / blinkingSequenceSwitchTime + 1
    let nextWakeup := s.timesynchTimeToRtimer (sequencesNext * blinkingSequenceSwitchTime)
    { s.assert (s.bpn ≠ .null) with
      blinking :=
        { nextWakeup := nextWakeup
          state := ((s.deref s.bpn).hops.toUInt16 + 1 + sequencesNext) % blinkingSequenceLength } }
  else s

/-- `blinking_init`. -/
def blinkingInit (s : Node) : Node :=
  if s.state.isBlinking then s
  else blinkingUpdate { s with state := { s.state with isBlinking := true } }

/-- `set_burning`. -/
def setBurning (on : Bool) (s : Node) : Node :=
  { s with state := { s.state with isBurning := on } }

/-! ### Start-up -/

/-- The memory of a node whose address is `addr` and whose flash holds `flash`, before any
code of the application has run. -/
def zero (addr : Rimeaddr) (flash : Option (List UInt8)) : Node where
  rimeaddrNodeAddr := addr
  coordinateNode := default
  ns := neighborsInit
  bpn := .null
  emergencyCoords := []
  blinking := ⟨0, 0⟩
  state := {}
  currentSensorsMetric := ⟨0, 0⟩
  seqno := 0
  exitNode := ⟨⟨0, 0⟩, default, ⟨0, 0⟩, default, false⟩
  maxNode := ⟨⟨0, 0⟩, default, ⟨0, 0⟩, default, false⟩
  ecNs := false
  flash := flash
  rtimerNow := 0
  offset := 0
  calls := []

end Node

end EmergencyNet
