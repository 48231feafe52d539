import EmergencyNet.Net.Api

/-!
# Application packets

The payloads `main_reg_sensor.c` puts into packets: a type byte, then the fields of one of
its packed structures.

## Main definitions

* `PacketType` — the type byte.
* `PathPacket` — the two packets that carry a best path, and `PathPacket.bytes`.
* `advertOf`, `adverts` — the path packets among payloads and among effects.
* `SetupPacket` — the fields `setup_parse` reads.

## Main results

* `advertOf_bytes` — a path packet is read back from its bytes.
-/

namespace EmergencyNet

/-- The packet types, in the order of the source's enumeration. -/
inductive PacketType
  | emergency
  | antiEmergency
  | bestPathUpdate
  | setup
  | initializeBestPaths
  | imYourNewNeighbor
  | keepAliveNeighbor
  | nodeInfo
  | extractReport
  | nodeReport
  | resetSystem
  deriving DecidableEq, Repr

namespace PacketType

/-- The value of the enumerator. -/
def toByte : PacketType → UInt8
  | emergency => 0
  | antiEmergency => 1
  | bestPathUpdate => 2
  | setup => 3
  | initializeBestPaths => 4
  | imYourNewNeighbor => 5
  | keepAliveNeighbor => 6
  | nodeInfo => 7
  | extractReport => 8
  | nodeReport => 9
  | resetSystem => 10

/-- The packet type with the given value, if there is one. -/
def ofByte (b : UInt8) : Option PacketType :=
  match b.toNat with
  | 0 => some emergency
  | 1 => some antiEmergency
  | 2 => some bestPathUpdate
  | 3 => some setup
  | 4 => some initializeBestPaths
  | 5 => some imYourNewNeighbor
  | 6 => some keepAliveNeighbor
  | 7 => some nodeInfo
  | 8 => some extractReport
  | 9 => some nodeReport
  | 10 => some resetSystem
  | _ => none

@[simp] theorem ofByte_toByte (t : PacketType) : ofByte t.toByte = some t := by cases t <;> rfl

end PacketType

/-- The type of the packet in memory `m` (`p->type`). -/
def packetTypeAt (m : List UInt8) : Option PacketType := PacketType.ofByte (byteAt m 0)

@[simp] theorem packetTypeAt_cons (t : PacketType) (m : List UInt8) :
    packetTypeAt (t.toByte :: m) = some t := PacketType.ofByte_toByte t

/-! ### Path packets -/

/-- A packet that carries the sender's best path. -/
inductive PathPacket
  /-- `struct best_path_update_packet`. -/
  | bestPathUpdate (bp : NeighborNodeBestPath)
  /-- `struct node_info_packet`. -/
  | nodeInfo (coord : Coordinate) (bp : NeighborNodeBestPath)
  deriving DecidableEq, Repr

namespace PathPacket

/-- The best path the packet carries. -/
def bp : PathPacket → NeighborNodeBestPath
  | bestPathUpdate bp => bp
  | nodeInfo _ bp => bp

@[simp] theorem bp_bestPathUpdate (b : NeighborNodeBestPath) : (bestPathUpdate b).bp = b := rfl

@[simp] theorem bp_nodeInfo (c : Coordinate) (b : NeighborNodeBestPath) :
    (nodeInfo c b).bp = b := rfl

/-- The payload. -/
def bytes : PathPacket → List UInt8
  | bestPathUpdate bp => PacketType.bestPathUpdate.toByte :: bp.bytes
  | nodeInfo coord bp => PacketType.nodeInfo.toByte :: (coord.bytes ++ bp.bytes)

end PathPacket

/-- The path packet a payload holds, if it holds one. -/
def advertOf (data : List UInt8) : Option PathPacket :=
  match packetTypeAt data with
  | some .bestPathUpdate => some (.bestPathUpdate (bestPathAt data 1))
  | some .nodeInfo => some (.nodeInfo (coordinateAt data 1) (bestPathAt data 5))
  | _ => none

/-- Reading back what was written. -/
@[simp] theorem advertOf_bytes (p : PathPacket) : advertOf p.bytes = some p := by
  cases p <;> rfl

theorem advertOf_singleton {t : PacketType} (hu : t ≠ .bestPathUpdate) (hi : t ≠ .nodeInfo) :
    advertOf [t.toByte] = none := by
  cases t <;> simp_all [advertOf]

/-- The path packet a call puts into the sending queue.  `ec_reliable_broadcast_ns` sends
nothing when the neighbour set is empty. -/
def Effect.advert? : Effect → Option PathPacket
  | .call (.reliableBroadcastNs (some ns) a) => if ns.addrs.length > 0 then advertOf a.data else none
  | _ => none

/-- The path packets application code sent to its neighbours, in order. -/
def adverts (l : List Effect) : List PathPacket := l.filterMap Effect.advert?

@[simp] theorem adverts_nil : adverts [] = [] := rfl

@[simp] theorem adverts_append (l m : List Effect) : adverts (l ++ m) = adverts l ++ adverts m :=
  List.filterMap_append

@[simp] theorem adverts_assert (b : Bool) : adverts [.assert b] = [] := rfl

/-! ### Setup packets -/

/-- The fields of `struct setup_packet` at the start of memory `m`; the neighbours are the
`num_neighbors` addresses behind the fixed part. -/
structure SetupPacket where
  newAddr : Rimeaddr
  newCoord : Coordinate
  isExitNode : UInt8
  neighbors : List Rimeaddr
  deriving DecidableEq, Repr, Inhabited

/-- `SETUP_PACKET_SIZE`. -/
def setupPacketSize : ℕ := 9

/-- The setup packet at the start of memory `m`. -/
def SetupPacket.read (m : List UInt8) : SetupPacket where
  newAddr := rimeaddrAt m 1
  newCoord := coordinateAt m 3
  isExitNode := byteAt m 7
  neighbors := (List.range (byteAt m 8).toNat).map fun i => rimeaddrAt m (setupPacketSize + 2 * i)

/-- The packet as it lies in memory. -/
def SetupPacket.bytes (sp : SetupPacket) : List UInt8 :=
  PacketType.setup.toByte :: (sp.newAddr.bytes ++ sp.newCoord.bytes ++
    [sp.isExitNode, UInt8.ofNat sp.neighbors.length] ++ sp.neighbors.flatMap Rimeaddr.bytes)

end EmergencyNet
