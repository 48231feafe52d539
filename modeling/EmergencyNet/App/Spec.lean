import EmergencyNet.App.FireProcess

/-!
# What each piece of application code does to the routing state

Most of the application touches only the light, the burning coordinates, the sequence
number and the connection.  `SameRoute s t` says that `t` differs from `s` in these alone;
every such piece of code gets one lemma saying so and one saying which path packets it
sends.  The pieces that do more are described up to `SameRoute`.

## Main definitions

* `SameRouting`, `SameRoute` — the routing state is unchanged.
* `Node.announce` — the path packets a broadcast to the neighbours puts into the queue.

## Main results

* `SameRouting.findBest`, `SameRouting.ourBp` — path selection reads the routing state only.
* `updateBpn_cases` — **everything `update_bpn_and_broadcast_new_path_if_changed` can do.**
-/

namespace EmergencyNet

/-- The variables path selection and the announced paths depend on, and those that decide
how packets are handled. -/
structure Routing where
  rimeaddrNodeAddr : Rimeaddr
  coordinateNode : Coordinate
  ns : Neighbors
  bpn : NeighborPtr
  currentSensorsMetric : Packed16
  exitNode : NeighborNode
  maxNode : NeighborNode
  ecNs : Bool
  flash : Option (List UInt8)
  isBurning : Bool
  isExitNode : Bool
  hasSentNodeInfo : Bool
  isSinkNode : Bool

/-- The routing state of a node. -/
def Node.routing (s : Node) : Routing where
  rimeaddrNodeAddr := s.rimeaddrNodeAddr
  coordinateNode := s.coordinateNode
  ns := s.ns
  bpn := s.bpn
  currentSensorsMetric := s.currentSensorsMetric
  exitNode := s.exitNode
  maxNode := s.maxNode
  ecNs := s.ecNs
  flash := s.flash
  isBurning := s.state.isBurning
  isExitNode := s.state.isExitNode
  hasSentNodeInfo := s.state.hasSentNodeInfo
  isSinkNode := s.state.isSinkNode

/-- `t` has the routing state of `s`. -/
structure SameRouting (s t : Node) : Prop where
  routing : t.routing = s.routing

/-- `t` differs from `s` at most in the light, the burning coordinates, the sequence number,
the clock and the calls made.  The light does not stop blinking, and a reset mode does not
begin. -/
structure SameRoute (s t : Node) : Prop extends SameRouting s t where
  isBlinking : s.state.isBlinking = true → t.state.isBlinking = true
  isResetMode : s.state.isResetMode = false → t.state.isResetMode = false

namespace Node

variable {s t : Node}

/-- The scan reads the table and the node's address only. -/
theorem scanNeighbors_congr (haddr : t.rimeaddrNodeAddr = s.rimeaddrNodeAddr) (hns : t.ns = s.ns) :
    ∀ (l : List ℕ) (best : NeighborPtr) (m : UInt16),
      t.scanNeighbors l best m = s.scanNeighbors l best m := by
  have hel : ∀ nn, t.eligible nn = s.eligible nn := fun nn => by simp only [eligible, haddr]
  intro l
  induction l with
  | nil => intro best m; rfl
  | cons i rest ih =>
    intro best m
    simp only [scanNeighbors, hel, hns, ih]

theorem findBest_congr (haddr : t.rimeaddrNodeAddr = s.rimeaddrNodeAddr) (hns : t.ns = s.ns)
    (hexit : t.state.isExitNode = s.state.isExitNode) :
    t.findBestExitPathNeighbor = s.findBestExitPathNeighbor := by
  simp only [findBestExitPathNeighbor, hexit, hns, scanNeighbors_congr haddr hns]

end Node

namespace SameRouting

variable {s t : Node} (h : SameRouting s t)
include h

theorem rimeaddrNodeAddr : t.rimeaddrNodeAddr = s.rimeaddrNodeAddr :=
  congrArg Routing.rimeaddrNodeAddr h.routing

theorem coordinateNode : t.coordinateNode = s.coordinateNode :=
  congrArg Routing.coordinateNode h.routing

theorem ns : t.ns = s.ns := congrArg Routing.ns h.routing

theorem bpn : t.bpn = s.bpn := congrArg Routing.bpn h.routing

theorem currentSensorsMetric : t.currentSensorsMetric = s.currentSensorsMetric :=
  congrArg Routing.currentSensorsMetric h.routing

theorem exitNode : t.exitNode = s.exitNode := congrArg Routing.exitNode h.routing

theorem maxNode : t.maxNode = s.maxNode := congrArg Routing.maxNode h.routing

theorem ecNs : t.ecNs = s.ecNs := congrArg Routing.ecNs h.routing

theorem isBurning : t.state.isBurning = s.state.isBurning := congrArg Routing.isBurning h.routing

theorem isExitNode : t.state.isExitNode = s.state.isExitNode :=
  congrArg Routing.isExitNode h.routing

theorem hasSentNodeInfo : t.state.hasSentNodeInfo = s.state.hasSentNodeInfo :=
  congrArg Routing.hasSentNodeInfo h.routing

theorem isSinkNode : t.state.isSinkNode = s.state.isSinkNode :=
  congrArg Routing.isSinkNode h.routing

/-- A pointer to a neighbour node points to the same node. -/
theorem deref (p : NeighborPtr) : t.deref p = s.deref p := by
  cases p with
  | null => rfl
  | exitNode => exact h.exitNode
  | maxNode => exact h.maxNode
  | slot i => simp only [Node.deref_slot, h.ns]

theorem eligible (nn : NeighborNode) : t.eligible nn = s.eligible nn := by
  simp only [Node.eligible, h.rimeaddrNodeAddr]

/-- The choice of the best neighbour reads the routing state only. -/
theorem findBest : t.findBestExitPathNeighbor = s.findBestExitPathNeighbor :=
  Node.findBest_congr h.rimeaddrNodeAddr h.ns h.isExitNode

theorem weighMetrics (d : UInt16) : t.weighMetrics d = s.weighMetrics d := by
  simp only [Node.weighMetrics, h.isBurning, h.currentSensorsMetric]

/-- So does the path a node advertises. -/
theorem ourBp : t.bestNeighborBpToOurBp = s.bestNeighborBpToOurBp := by
  simp only [Node.bestNeighborBpToOurBp, h.bpn, h.deref, h.weighMetrics]

end SameRouting

namespace SameRoute

variable {s t u : Node}

@[refl] theorem refl (s : Node) : SameRoute s s := ⟨⟨rfl⟩, id, id⟩

theorem trans (h : SameRoute s t) (h' : SameRoute t u) : SameRoute s u where
  routing := h'.routing.trans h.routing
  isBlinking := h'.isBlinking ∘ h.isBlinking
  isResetMode := h'.isResetMode ∘ h.isResetMode

end SameRoute

namespace Node

variable {s : Node}

/-! ### Calls -/

/-- What a broadcast of `p` to the neighbours puts into the sending queue: nothing while
there are no neighbours. -/
def announce (s : Node) (p : PathPacket) : List PathPacket :=
  if s.ecNs ∧ s.ns.used ≠ [] then [p] else []

theorem announce_of_sameRoute {t : Node} (h : SameRoute s t) (p : PathPacket) :
    t.announce p = s.announce p := by
  simp only [announce, h.ecNs, h.ns]

theorem sameRoute_call (c : EcCall) : SameRoute s (s.call c) := ⟨⟨rfl⟩, id, id⟩

theorem sameRoute_assert (b : Bool) : SameRoute s (s.assert b) := ⟨⟨rfl⟩, id, id⟩

theorem sameRoute_wake (c : ClockReading) : SameRoute s (s.wake c) := ⟨⟨rfl⟩, id, id⟩

@[simp] theorem calls_assert (b : Bool) : (s.assert b).calls = s.calls ++ [.assert b] := rfl

@[simp] theorem calls_call (c : EcCall) : (s.call c).calls = s.calls ++ [.call c] := rfl

@[simp] theorem calls_wake (c : ClockReading) : (s.wake c).calls = [] := rfl

@[simp] theorem adverts_calls_assert (b : Bool) :
    adverts (s.assert b).calls = adverts s.calls := by simp

theorem sameRoute_broadcast (o : Rimeaddr) (h q : UInt8) (data : List UInt8) :
    SameRoute s (s.broadcast o h q data) := sameRoute_call _

theorem adverts_broadcast (o : Rimeaddr) (h q : UInt8) (data : List UInt8) :
    adverts (s.broadcast o h q data).calls = adverts s.calls := by
  simp [broadcast, adverts, Effect.advert?]

theorem sameRoute_broadcastOwn (data : List UInt8) : SameRoute s (s.broadcastOwn data) :=
  ⟨⟨rfl⟩, id, id⟩

theorem adverts_broadcastOwn (data : List UInt8) :
    adverts (s.broadcastOwn data).calls = adverts s.calls := adverts_broadcast ..

theorem sameRoute_reliableBroadcastNs (o : Rimeaddr) (h q : UInt8) (data : List UInt8) :
    SameRoute s (s.reliableBroadcastNs o h q data) := sameRoute_call _

theorem adverts_reliableBroadcastNs (o : Rimeaddr) (h q : UInt8) (data : List UInt8) :
    adverts (s.reliableBroadcastNs o h q data).calls =
      adverts s.calls ++ (advertOf data).toList.flatMap s.announce := by
  have haddrs : s.ns.addrs.addrs.length > 0 ↔ s.ns.used ≠ [] := by
    simp [Neighbors.addrs, List.length_pos_iff]
  rw [reliableBroadcastNs, calls_call, adverts_append]
  congr 1
  cases hns : s.ecNs <;> cases hu : s.ns.used <;> cases hd : advertOf data <;>
    simp_all [adverts, Effect.advert?, connNs, announce, Neighbors.addrs]

theorem sameRoute_reliableBroadcastOwn (data : List UInt8) :
    SameRoute s (s.reliableBroadcastOwn data) := ⟨⟨rfl⟩, id, id⟩

theorem adverts_reliableBroadcastOwn (data : List UInt8) :
    adverts (s.reliableBroadcastOwn data).calls =
      adverts s.calls ++ (advertOf data).toList.flatMap s.announce :=
  adverts_reliableBroadcastNs ..

/-! ### The light and the burning coordinates -/

theorem sameRoute_blinkingUpdate : SameRoute s s.blinkingUpdate := by
  unfold blinkingUpdate
  split
  · exact ⟨⟨rfl⟩, id, id⟩
  · exact .refl s

@[simp] theorem adverts_blinkingUpdate : adverts s.blinkingUpdate.calls = adverts s.calls := by
  unfold blinkingUpdate
  split <;> simp

theorem sameRoute_blinkingInit : SameRoute s s.blinkingInit := by
  unfold blinkingInit
  split
  · exact .refl s
  · refine SameRoute.trans ?_ sameRoute_blinkingUpdate
    exact ⟨⟨rfl⟩, fun _ => rfl, id⟩

@[simp] theorem adverts_blinkingInit : adverts s.blinkingInit.calls = adverts s.calls := by
  unfold blinkingInit
  split
  · rfl
  · exact adverts_blinkingUpdate

theorem isBlinking_blinkingInit : s.blinkingInit.state.isBlinking = true := by
  unfold blinkingInit
  split
  · assumption
  · exact sameRoute_blinkingUpdate.isBlinking rfl

theorem sameRoute_addCoordinateAsBurning (c : Coordinate) :
    SameRoute s (s.addCoordinateAsBurning c) := by
  unfold addCoordinateAsBurning
  split
  · exact ⟨⟨rfl⟩, id, id⟩
  · exact .refl s

@[simp] theorem calls_addCoordinateAsBurning (c : Coordinate) :
    (s.addCoordinateAsBurning c).calls = s.calls := by
  unfold addCoordinateAsBurning
  split <;> rfl

theorem sameRoute_removeCoordinateAsBurning (c : Coordinate) :
    SameRoute s (s.removeCoordinateAsBurning c) := ⟨⟨rfl⟩, id, id⟩

@[simp] theorem calls_removeCoordinateAsBurning (c : Coordinate) :
    (s.removeCoordinateAsBurning c).calls = s.calls := rfl

/-! ### Announcing the best path -/

theorem findBest_ne_null : s.findBestExitPathNeighbor ≠ .null := by
  unfold findBestExitPathNeighbor
  generalize (if s.state.isExitNode = true then NeighborPtr.exitNode
    else s.scanNeighbors s.ns.used .null metricTMax) = best
  cases best <;> simp

theorem findBest_exit (h : s.state.isExitNode = true) :
    s.findBestExitPathNeighbor = .exitNode := by
  simp [findBestExitPathNeighbor, h]

theorem sameRoute_broadcastBestPath : SameRoute s s.broadcastBestPath := ⟨⟨rfl⟩, id, id⟩

/-- `broadcast_best_path` advertises the path through the current best neighbour. -/
theorem adverts_broadcastBestPath :
    adverts s.broadcastBestPath.calls =
      adverts s.calls ++ s.announce (.bestPathUpdate s.bestNeighborBpToOurBp) := by
  rw [broadcastBestPath, adverts_reliableBroadcastOwn, advertOf_bytes, adverts_calls_assert]
  simp [announce_of_sameRoute (sameRoute_assert _)]

/-- The node after it has switched to the best neighbour it knows. -/
def toBest (s : Node) : Node := { s with bpn := s.findBestExitPathNeighbor }

@[simp] theorem toBest_ns : s.toBest.ns = s.ns := rfl

@[simp] theorem toBest_bpn : s.toBest.bpn = s.findBestExitPathNeighbor := rfl

/-- Switching does not change which neighbour is the best one. -/
theorem findBest_toBest :
    s.toBest.findBestExitPathNeighbor = s.findBestExitPathNeighbor := findBest_congr rfl rfl rfl

theorem sameRoute_toBest_assert (b : Bool) :
    SameRoute s.toBest { s.assert b with bpn := s.findBestExitPathNeighbor } := ⟨⟨rfl⟩, id, id⟩

/-- The tests of `update_bpn_and_broadcast_new_path_if_changed`: a node switches when it has
no best neighbour, when the best one has a smaller metric than the current one, when the
sender is the best one, or when the last path is gone. -/
def Switches (sender : NeighborPtr) (s : Node) : Prop :=
  s.bpn = .null ∨
    (s.deref s.findBestExitPathNeighbor).metric < (s.deref s.bpn).metric ∨
    sender = s.findBestExitPathNeighbor ∨
    (s.bpn ≠ .maxNode ∧ s.findBestExitPathNeighbor = .maxNode)

instance (sender : NeighborPtr) (s : Node) : Decidable (s.Switches sender) := by
  unfold Switches; infer_instance

/-- **Everything `update_bpn_and_broadcast_new_path_if_changed` can do.** -/
theorem updateBpn_cases (sender : NeighborPtr) (s : Node) :
    (s.Switches sender ∧
      (s.updateBpnAndBroadcastNewPathIfChanged sender).2 = true ∧
      SameRoute s.toBest (s.updateBpnAndBroadcastNewPathIfChanged sender).1 ∧
      adverts (s.updateBpnAndBroadcastNewPathIfChanged sender).1.calls =
        adverts s.calls ++ s.announce (.bestPathUpdate s.toBest.bestNeighborBpToOurBp)) ∨
    (¬ s.Switches sender ∧
      (s.updateBpnAndBroadcastNewPathIfChanged sender).2 = false ∧
      SameRoute s (s.updateBpnAndBroadcastNewPathIfChanged sender).1 ∧
      adverts (s.updateBpnAndBroadcastNewPathIfChanged sender).1.calls = adverts s.calls) := by
  let t : Node := { s.assert (s.findBestExitPathNeighbor ≠ .null) with
    bpn := s.findBestExitPathNeighbor }
  have ht : SameRoute s.toBest t := sameRoute_toBest_assert _
  have hsend : SameRoute s.toBest t.broadcastBestPath := ht.trans sameRoute_broadcastBestPath
  have hadv : adverts t.broadcastBestPath.calls =
      adverts s.calls ++ s.announce (.bestPathUpdate s.toBest.bestNeighborBpToOurBp) := by
    rw [adverts_broadcastBestPath, ht.ourBp, announce_of_sameRoute ht]
    exact congrArg (· ++ _) (adverts_calls_assert _)
  unfold updateBpnAndBroadcastNewPathIfChanged
  simp only
  split
  · next h1 =>
    refine Or.inl ⟨?_, rfl, hsend, hadv⟩
    rcases h1 with h | h
    · exact Or.inl h
    · exact Or.inr (Or.inl h)
  · next h1 =>
    split
    · next h2 =>
      refine Or.inl ⟨?_, rfl, hsend, hadv⟩
      rcases h2 with h | h
      · exact Or.inr (Or.inr (Or.inl h))
      · exact Or.inr (Or.inr (Or.inr h))
    · next h2 =>
      refine Or.inr ⟨?_, rfl, sameRoute_assert _, adverts_calls_assert _⟩
      rw [not_or] at h1 h2
      rintro (h | h | h | h)
      exacts [h1.1 h, h1.2 h, h2.1 h, h2.2 h]

/-- `update_bpn_and_send_node_info` switches to the best neighbour and announces it. -/
theorem sameRoute_updateBpnAndSendNodeInfo :
    SameRoute s.toBest s.updateBpnAndSendNodeInfo := ⟨⟨rfl⟩, id, id⟩

theorem adverts_updateBpnAndSendNodeInfo :
    adverts s.updateBpnAndSendNodeInfo.calls =
      adverts s.calls ++
        s.announce (.nodeInfo s.coordinateNode s.toBest.bestNeighborBpToOurBp) := by
  have ht : SameRoute s.toBest
      { s.assert (s.findBestExitPathNeighbor ≠ .null) with
        bpn := s.findBestExitPathNeighbor } := sameRoute_toBest_assert _
  rw [updateBpnAndSendNodeInfo, adverts_reliableBroadcastOwn, advertOf_bytes,
    adverts_calls_assert]
  simp only [Option.toList_some, List.flatMap_cons, List.flatMap_nil, List.append_nil]
  rw [announce_of_sameRoute (sameRoute_assert _), announce_of_sameRoute ht, ht.ourBp]
  exact congrArg (· ++ _) (adverts_calls_assert _)

end Node

end EmergencyNet
