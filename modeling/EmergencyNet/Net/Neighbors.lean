import EmergencyNet.Base.QueueBuffer
import EmergencyNet.Net.Coordinate

/-!
# The neighbour table

`emergency_net/neighbor_node.h` and `emergency_net/neighbors.c`: what a node knows about
each of its neighbours, kept in a queue buffer of `MAX_NEIGHBORS` slots.

## Main definitions

* `NeighborNodeBestPath`, `NeighborNode` — the entries of the table.
* `Neighbors` — the table, and `neighborsAdd`, `neighborsRemove`,
  `neighborsFindNeighborNode`, `neighborsIsNeighbor`.
* `NeighborSet` — the addresses a packet still waits for, at most `MAX_NEIGHBORS`.
-/

namespace EmergencyNet

/-! ### Entries -/

/-- `METRIC_T_MAX`: no path to an exit. -/
def metricTMax : UInt16 := 0xFFFF

@[simp] theorem toNat_metricTMax : metricTMax.toNat = 65535 := rfl

/-- `struct neighbor_node_best_path`: the path a neighbour advertises. -/
structure NeighborNodeBestPath where
  /-- The neighbour's cost to the nearest exit. -/
  metric : Packed16
  /-- The neighbour the advertised path starts with. -/
  pointsTo : Rimeaddr
  /-- The length of the advertised path. -/
  hops : UInt8
  deriving DecidableEq, Repr, Inhabited

namespace NeighborNodeBestPath

/-- The best path as it lies in memory. -/
def bytes (bp : NeighborNodeBestPath) : List UInt8 :=
  [bp.metric.hi, bp.metric.lo, bp.pointsTo.u8₀, bp.pointsTo.u8₁, bp.hops]

/-- The metric of a best path as a number. -/
def metric16 (bp : NeighborNodeBestPath) : UInt16 := uint8ToUint16 bp.metric

end NeighborNodeBestPath

/-- The best path stored at offset `i`. -/
def bestPathAt (m : List UInt8) (i : ℕ) : NeighborNodeBestPath :=
  ⟨packedAt m i, rimeaddrAt m (i + 2), byteAt m (i + 4)⟩

/-- `neighbor_node_best_path_max`. -/
def neighborNodeBestPathMax : NeighborNodeBestPath := ⟨⟨0xFF, 0xFF⟩, ⟨0, 0⟩, 0⟩

@[simp] theorem metric16_max : neighborNodeBestPathMax.metric16 = metricTMax := by decide

/-- `struct neighbor_node`. -/
structure NeighborNode where
  addr : Rimeaddr
  coord : Coordinate
  /-- The distance to the neighbour, computed once when its coordinate arrives. -/
  distance : Packed16
  bp : NeighborNodeBestPath
  hasSentKeepAlive : Bool
  deriving DecidableEq, Repr, Inhabited

namespace NeighborNode

/-- `neighbor_node_metric`. -/
def metric (nn : NeighborNode) : UInt16 := uint8ToUint16 nn.bp.metric

/-- `neighbor_node_hops`. -/
def hops (nn : NeighborNode) : UInt8 := nn.bp.hops

/-- `neighbor_node_distance`. -/
def dist (nn : NeighborNode) : UInt16 := uint8ToUint16 nn.distance

/-- `neighbor_node_points_to_us`, for a node whose address is `us`. -/
def pointsToUs (us : Rimeaddr) (nn : NeighborNode) : Bool := nn.bp.pointsTo == us

/-- `neighbor_node_set_coordinate`, at a node whose coordinate is `here`. -/
def setCoordinate (here coord : Coordinate) (nn : NeighborNode) : NeighborNode :=
  { nn with coord := coord, distance := uint16ToUint8 (coordinateDistance coord here) }

/-- `neighbor_node_set_best_path`. -/
def setBestPath (bp : NeighborNodeBestPath) (nn : NeighborNode) : NeighborNode :=
  { nn with bp := bp }

/-- `neighbor_node_set_has_sent_keep_alive`. -/
def setHasSentKeepAlive (b : Bool) (nn : NeighborNode) : NeighborNode :=
  { nn with hasSentKeepAlive := b }

/-- The entry `neighbors_add` stores for a neighbour nothing is known about yet. -/
def fresh (addr : Rimeaddr) : NeighborNode :=
  ⟨addr, ⟨⟨0, 0⟩, ⟨0, 0⟩⟩, ⟨0, 0⟩, neighborNodeBestPathMax, true⟩

@[simp] theorem metric_setBestPath (bp : NeighborNodeBestPath) (nn : NeighborNode) :
    (nn.setBestPath bp).metric = bp.metric16 := rfl

@[simp] theorem dist_setBestPath (bp : NeighborNodeBestPath) (nn : NeighborNode) :
    (nn.setBestPath bp).dist = nn.dist := rfl

@[simp] theorem dist_setCoordinate (here coord : Coordinate) (nn : NeighborNode) :
    (nn.setCoordinate here coord).dist = coordinateDistance coord here :=
  uint8ToUint16_uint16ToUint8 _

@[simp] theorem metric_fresh (addr : Rimeaddr) : (fresh addr).metric = metricTMax := metric16_max

end NeighborNode

/-! ### The table -/

/-- `MAX_NEIGHBORS`. -/
def maxNeighbors : ℕ := 8

/-- `struct neighbors`. -/
abbrev Neighbors := QueueBuffer NeighborNode maxNeighbors

/-- `neighbors_init`. -/
def neighborsInit : Neighbors := QueueBuffer.init _ fun _ => ⟨⟨0, 0⟩, default, ⟨0, 0⟩, default, false⟩

/-- `neighbors_add`: `none` when the table is full, where the code asserts. -/
def neighborsAdd (ns : Neighbors) (addr : Rimeaddr) : Option Neighbors :=
  ns.pushFront (NeighborNode.fresh addr)

/-- `neighbors_find_neighbor_node`: the slot of the first entry with the address. -/
def neighborsFindNeighborNode (ns : Neighbors) (addr : Rimeaddr) : Option ℕ :=
  ns.find fun nn => nn.addr == addr

/-- `neighbors_is_neighbor`. -/
def neighborsIsNeighbor (ns : Neighbors) (addr : Rimeaddr) : Bool :=
  (neighborsFindNeighborNode ns addr).isSome

/-- `neighbors_remove`: frees the first entry with the address. -/
def neighborsRemove (ns : Neighbors) (addr : Rimeaddr) : Neighbors :=
  match neighborsFindNeighborNode ns addr with
  | some i => ns.free i
  | none => ns

theorem mem_of_neighborsFindNeighborNode {ns : Neighbors} {addr : Rimeaddr} {i : ℕ}
    (h : neighborsFindNeighborNode ns addr = some i) :
    i ∈ ns.used ∧ (ns.item i).addr = addr := by
  obtain ⟨hmem, hcmp⟩ := QueueBuffer.mem_of_find h
  exact ⟨hmem, by simpa using hcmp⟩

/-- When no two entries share an address, the entry found for a slot's address is that
slot. -/
theorem neighborsFindNeighborNode_addr {ns : Neighbors} {i : ℕ} (hi : i ∈ ns.used)
    (hinj : ∀ a ∈ ns.used, ∀ b ∈ ns.used, (ns.item a).addr = (ns.item b).addr → a = b) :
    neighborsFindNeighborNode ns (ns.item i).addr = some i := by
  cases hf : neighborsFindNeighborNode ns (ns.item i).addr with
  | none =>
    unfold neighborsFindNeighborNode QueueBuffer.find at hf
    rw [List.find?_eq_none] at hf
    exact absurd (beq_self_eq_true _) (hf i hi)
  | some j =>
    obtain ⟨hj, hjaddr⟩ := mem_of_neighborsFindNeighborNode hf
    rw [hinj j hj i hi hjaddr]

/-! ### Receiver sets -/

/-- A set of receivers, at most as many as a packet has room for. -/
@[ext] structure NeighborSet where
  /-- The addresses, in the order of `neighbors_begin` and `neighbors_next`. -/
  addrs : List Rimeaddr
  le : addrs.length ≤ maxNeighbors
  deriving DecidableEq

namespace NeighborSet

/-- No receivers. -/
def empty : NeighborSet := ⟨[], Nat.zero_le _⟩

/-- One receiver. -/
def single (a : Rimeaddr) : NeighborSet := ⟨[a], Nat.succ_pos _⟩

/-- The receivers in the order in which a loop of `queue_buffer_push_front` leaves them. -/
def reverse (ns : NeighborSet) : NeighborSet := ⟨ns.addrs.reverse, by
  rw [List.length_reverse]; exact ns.le⟩

/-- The receivers without the first entry that is `a`. -/
def erase (ns : NeighborSet) (a : Rimeaddr) : NeighborSet :=
  ⟨ns.addrs.erase a, le_trans List.length_erase_le ns.le⟩

end NeighborSet

/-- The addresses in the neighbour table. -/
def Neighbors.addrs (ns : Neighbors) : NeighborSet where
  addrs := ns.used.map fun i => (ns.item i).addr
  le := by rw [List.length_map]; exact ns.size_le

theorem neighborsIsNeighbor_iff {ns : Neighbors} {addr : Rimeaddr} :
    neighborsIsNeighbor ns addr = true ↔ addr ∈ ns.addrs.addrs := by
  rw [neighborsIsNeighbor, neighborsFindNeighborNode, QueueBuffer.find, List.find?_isSome]
  simp only [Neighbors.addrs, List.mem_map, beq_iff_eq]

end EmergencyNet
