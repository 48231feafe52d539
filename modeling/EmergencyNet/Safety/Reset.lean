import EmergencyNet.Safety.BestPointer

/-!
# What a reset forgets

Powering up clears the memory and parses the packet in the flash; a reset parses the same
packet over the memory as it is.  `setup_parse` writes most of what governs routing and
alarms, but neither the pointer to the best neighbour nor the burning coordinates, and of
`exit_node` it writes the address and the path only when the packet makes the node an exit.

## Main definitions

* `Node.governing` — what governs routing and alarms.
* `Node.HandlesReset` — the event makes the node run `reset_system_packet_handler`.

## Main results

* `Node.governing_setupParse` — when two nodes set up by one packet govern alike.
* `Node.sameBlank_of_reachable` — what no event writes.
* `Node.governing_reset_iff` — **a reset leaves what powering up leaves exactly when there was
  nothing to forget.**
* `Node.reset_keeps_bpn` — a reset that forgets too little.
-/

namespace EmergencyNet

/-- What of a node's state governs routing and alarms: everything but the slots its entries lie
in, the light, the sequence number, and whether it is in reset mode. -/
structure Governing where
  rimeaddrNodeAddr : Rimeaddr
  coordinateNode : Coordinate
  /-- The entries of the neighbour table, front first. -/
  ns : List NeighborNode
  exitNode : NeighborNode
  maxNode : NeighborNode
  bpn : NeighborPtr
  emergencyCoords : List Coordinate
  currentSensorsMetric : Packed16
  /-- The flags, with `is_reset_mode` left out. -/
  state : NodeState
  deriving DecidableEq

namespace Node

variable {s t s' : Node}

/-- What governs routing and alarms at a node. -/
def governing (s : Node) : Governing where
  rimeaddrNodeAddr := s.rimeaddrNodeAddr
  coordinateNode := s.coordinateNode
  ns := s.ns.toList
  exitNode := s.exitNode
  maxNode := s.maxNode
  bpn := s.bpn
  emergencyCoords := s.emergencyCoords
  currentSensorsMetric := s.currentSensorsMetric
  state := { s.state with isResetMode := false }

/-- The event brings the node a `RESET_SYSTEM_PACKET` that it handles: it is not the sink, and
not in reset mode already. -/
def HandlesReset (s : Node) : AppEvent → Prop
  | .broadcastRecv r | .neighborRecv r =>
    packetTypeAt r.data = some .resetSystem ∧ s.state.isResetMode = false ∧
      s.state.isSinkNode = false
  | _ => False

instance (s : Node) (ev : AppEvent) : Decidable (s.HandlesReset ev) := by
  rcases ev <;> unfold HandlesReset <;> infer_instance

/-! ### Setting two nodes up -/

/-- Tables with the same entries have the same entries once neighbours have been added. -/
theorem toList_addNeighbors : ∀ (l : List Rimeaddr) (s t : Node), s.ns.toList = t.ns.toList →
    (addNeighbors l s).ns.toList = (addNeighbors l t).ns.toList := by
  intro l
  induction l with
  | nil => intro s t h; exact h
  | cons a rest ih =>
    intro s t h
    have hsize : s.ns.size = t.ns.size := by
      have hlen := congrArg List.length h
      rwa [QueueBuffer.length_toList, QueueBuffer.length_toList] at hlen
    have hfull : neighborsAdd s.ns a = none ↔ neighborsAdd t.ns a = none := by
      unfold neighborsAdd
      rw [QueueBuffer.pushFront_eq_none, QueueBuffer.pushFront_eq_none, hsize]
    cases hs : neighborsAdd s.ns a with
    | none =>
      simp only [addNeighbors, hs, hfull.mp hs]
      exact ih _ _ h
    | some ns =>
      cases ht : neighborsAdd t.ns a with
      | none =>
        rw [hfull.mpr ht] at hs
        cases hs
      | some nt =>
        simp only [addNeighbors, hs, ht]
        apply ih
        change ns.toList = nt.toList
        rw [QueueBuffer.toList_pushFront hs, QueueBuffer.toList_pushFront ht, h]

/-- What `setup_parse` reads of the nodes outside the table but never writes is the same in
both. -/
structure SameBlank (s t : Node) : Prop where
  exitNode : s.exitNode.hasSentKeepAlive = t.exitNode.hasSentKeepAlive
  maxNode : { s.maxNode with addr := rimeaddrNull, bp := neighborNodeBestPathMax } =
    { t.maxNode with addr := rimeaddrNull, bp := neighborNodeBestPathMax }

/-- What governs a node that has been set up, as far as `setup_parse` determines it. -/
theorem governing_setupParse_eq (m : List UInt8) (b : Bool) (s : Node) :
    (setupParse m b s).governing =
      { rimeaddrNodeAddr := (SetupPacket.read m).newAddr
        coordinateNode := (SetupPacket.read m).newCoord
        ns := (addNeighbors (SetupPacket.read m).neighbors (zero rimeaddrNull none)).ns.toList
        exitNode := NeighborNode.setCoordinate (SetupPacket.read m).newCoord
          (SetupPacket.read m).newCoord
            (if (SetupPacket.read m).isExitNode ≠ 0 then
              { s.exitNode with
                addr := (SetupPacket.read m).newAddr
                bp := ⟨⟨0, 0⟩, (SetupPacket.read m).newAddr, -1⟩ }
            else s.exitNode)
        maxNode := { s.maxNode with addr := rimeaddrNull, bp := neighborNodeBestPathMax }
        bpn := s.bpn
        emergencyCoords := s.emergencyCoords
        currentSensorsMetric := uint16ToUint8 0
        state := { isExitNode := (SetupPacket.read m).isExitNode != 0 } } := by
  obtain ⟨calls, heq, -⟩ :=
    addNeighbors_eq (SetupPacket.read m).neighbors (setupCleared (SetupPacket.read m) s)
  have htable : (addNeighbors (SetupPacket.read m).neighbors
      (setupCleared (SetupPacket.read m) s)).ns.toList =
      (addNeighbors (SetupPacket.read m).neighbors (zero rimeaddrNull none)).ns.toList :=
    toList_addNeighbors _ _ _ rfl
  rw [← htable]
  unfold setupParse
  simp only
  generalize addNeighbors (SetupPacket.read m).neighbors (setupCleared (SetupPacket.read m) s) = t
    at heq ⊢
  by_cases hexit : (SetupPacket.read m).isExitNode = 0
  · have hbool : ((SetupPacket.read m).isExitNode != 0) = false := by simp [hexit]
    rw [if_neg (not_not.mpr hexit), hbool, heq]
    rfl
  · have hbool : ((SetupPacket.read m).isExitNode != 0) = true := by simp [hexit]
    rw [if_pos hexit, hbool, heq]
    rfl

/-- **When two nodes that have been set up by the same packet govern alike**: they had the same
best neighbour and the same burning coordinates, and the packet makes them exits or they had
the same address and path in `exit_node`. -/
theorem governing_setupParse (m : List UInt8) (b : Bool) (h : SameBlank s t) :
    (setupParse m b s).governing = (setupParse m b t).governing ↔
      s.bpn = t.bpn ∧ s.emergencyCoords = t.emergencyCoords ∧
        ((SetupPacket.read m).isExitNode ≠ 0 ∨
          s.exitNode.addr = t.exitNode.addr ∧ s.exitNode.bp = t.exitNode.bp) := by
  have hkeep := h.exitNode
  rw [governing_setupParse_eq, governing_setupParse_eq, h.maxNode]
  simp only [Governing.mk.injEq, true_and, and_true]
  by_cases hexit : (SetupPacket.read m).isExitNode = 0
  · simp only [hexit, ne_eq, not_true_eq_false, if_false, false_or]
    simp only [NeighborNode.setCoordinate, NeighborNode.mk.injEq, true_and, hkeep, and_true]
    tauto
  · simp only [hexit, ne_eq, not_false_eq_true, if_true, true_or, and_true]
    simp only [NeighborNode.setCoordinate, true_and, hkeep]

/-! ### What no event writes -/

theorem SameBlank.trans {u : Node} (h : SameBlank s t) (h' : SameBlank t u) : SameBlank s u :=
  ⟨h.exitNode.trans h'.exitNode, h.maxNode.trans h'.maxNode⟩

theorem SameBlank.of_routing {u : Node} (h : SameRouting t u) (hexit : t.exitNode = s.exitNode)
    (hmax : t.maxNode = s.maxNode) : SameBlank s u :=
  ⟨by rw [h.exitNode, hexit], by rw [h.maxNode, hmax]⟩

theorem sameBlank_setupParse (m : List UInt8) (b : Bool) (s : Node) :
    SameBlank s (setupParse m b s) := by
  have hgov := governing_setupParse_eq m b s
  refine ⟨?_, ?_⟩
  · have hexit := congrArg (fun g => g.exitNode.hasSentKeepAlive) hgov
    refine Eq.symm (hexit.trans ?_)
    simp only [NeighborNode.setCoordinate]
    split <;> rfl
  · have hmax := congrArg Governing.maxNode hgov
    change (setupParse m b s).maxNode = _ at hmax
    rw [hmax]

theorem sameBlank_resetSystemPacketHandler (s : Node) :
    SameBlank s s.resetSystemPacketHandler := by
  unfold resetSystemPacketHandler
  cases s.flash with
  | none => exact ⟨rfl, rfl⟩
  | some f =>
    have h := sameBlank_setupParse (memRead f setupBufferSize) true s
    exact ⟨h.exitNode, h.maxNode⟩

/-- An event that may set the node up. -/
theorem sameBlank_reconfigures {ev : AppEvent} (h : ev.Reconfigures) :
    SameBlank s (handle ev s) := by
  have hrefl : SameBlank s s := ⟨rfl, rfl⟩
  cases ev with
  | broadcastRecv r =>
    change SameBlank s (ecBroadcastsRecv r s)
    unfold ecBroadcastsRecv
    split
    · exact hrefl
    · split
      · unfold sinkBroadcastsRecv
        split <;> exact ⟨rfl, rfl⟩
      · unfold sensorBroadcastsRecv
        rcases h with ht | ht <;> rw [ht]
        · simp only
          split
          · have hset := sameBlank_setupParse r.data false
              { s with state := { s.state with isAwaitingSetupPacket := false } }
            exact ⟨hset.exitNode, hset.maxNode⟩
          · exact hrefl
        · have hset := sameBlank_resetSystemPacketHandler
            (s.reliableBroadcastNs r.originator (r.hops + 1) r.seqno r.payload)
          exact ⟨hset.exitNode, hset.maxNode⟩
  | neighborRecv r =>
    have ht : packetTypeAt r.data = some .resetSystem := h
    change SameBlank s (ecNeighborsRecv r s)
    unfold ecNeighborsRecv
    split
    · exact hrefl
    · split
      · exact hrefl
      · rw [neighborsRecv, ht]
        have hset := sameBlank_resetSystemPacketHandler
          (s.reliableBroadcastNs r.originator (r.hops + 1) r.seqno r.payload)
        exact ⟨hset.exitNode, hset.maxNode⟩
  | serial c =>
    cases c with
    | simulationSetup sp => exact sameBlank_setupParse sp.bytes false s
    | sink =>
      have hset := sameBlank_setupParse (PacketType.setup.toByte :: List.replicate 10 0) false s
      exact ⟨hset.exitNode, hset.maxNode⟩
    | _ => exact h.elim
  | _ => exact h.elim

/-- **No event writes them.** -/
theorem sameBlank_step {e : AppEvent × ClockReading} (hc : Completes (s.step e).calls) :
    SameBlank s (s.step e) := by
  by_cases hre : e.1.Reconfigures
  · have h := sameBlank_reconfigures (s := s.wake e.2) hre
    exact ⟨h.exitNode, h.maxNode⟩
  obtain ⟨ev, c⟩ := e
  have ho := outcome_step hc
  generalize adverts (s.step (ev, c)).calls = ads at ho
  cases ho with
  | quiet h => exact .of_routing h.toSameRouting rfl rfl
  | configured hev _ => exact absurd hev hre
  | resetMode hev _ _ => exact absurd hev hre
  | newNeighbor _ h => exact .of_routing h.toSameRouting rfl rfl
  | keepAlive _ h => exact .of_routing h.toSameRouting rfl rfl
  | initialized _ _ _ h => exact .of_routing h.toSameRouting rfl rfl
  | path _ _ _ hpath =>
    cases hpath with
    | first _ _ h => exact .of_routing h.toSameRouting rfl rfl
    | switched _ _ h => exact .of_routing h.toSameRouting rfl rfl
    | kept _ _ h => exact .of_routing h.toSameRouting rfl rfl
  | sensed _ _ h => exact .of_routing h.toSameRouting rfl rfl
  | sensedSent _ _ _ h _ => exact .of_routing h.toSameRouting rfl rfl
  | dropped _ _ h => exact .of_routing h.toSameRouting rfl rfl
  | droppedSwitched _ _ _ h => exact .of_routing h.toSameRouting rfl rfl

/-- They are at every reachable node what they are in cleared memory. -/
theorem sameBlank_of_reachable (h : nodeMachine.Reachable s) (addr : Rimeaddr)
    (flash : Option (List UInt8)) : SameBlank (zero addr flash) s := by
  refine h.invariant ?_ ?_
  · rintro s ⟨addr', flash', rfl, -⟩
    unfold resetNodeProperties
    cases flash' with
    | none => exact ⟨rfl, rfl⟩
    | some f =>
      have hset := sameBlank_setupParse (memRead f setupBufferSize) true (zero addr' (some f))
      exact SameBlank.trans (t := zero addr' (some f)) ⟨rfl, rfl⟩ hset
  · rintro s e s' hs - ⟨-, rfl, hc⟩
    exact hs.trans (sameBlank_step hc)

/-! ### A reset -/

/-- A reset sets the node up from its flash. -/
theorem governing_handlesReset {ev : AppEvent} {f : List UInt8} (hf : s.flash = some f)
    (h : s.HandlesReset ev) :
    (handle ev s).governing = (setupParse (memRead f setupBufferSize) true s).governing := by
  have hhandler : ∀ r : RecvArgs, (resetSystemPacketHandler
      (s.reliableBroadcastNs r.originator (r.hops + 1) r.seqno r.payload)).governing =
      (setupParse (memRead f setupBufferSize) true s).governing := by
    intro r
    have hflash : (s.reliableBroadcastNs r.originator (r.hops + 1) r.seqno r.payload).flash =
      some f := hf
    rw [resetSystemPacketHandler, hflash]
    have hgov := governing_setupParse_eq (memRead f setupBufferSize) true
      (s.reliableBroadcastNs r.originator (r.hops + 1) r.seqno r.payload)
    exact hgov.trans (governing_setupParse_eq _ true s).symm
  cases ev with
  | broadcastRecv r =>
    obtain ⟨ht, hmode, hsink⟩ := h
    change (ecBroadcastsRecv r s).governing = _
    have hig : ¬ s.ignoredInResetMode r := by simp [ignoredInResetMode, hmode]
    rw [ecBroadcastsRecv, if_neg hig, if_neg (by simp [hsink]), sensorBroadcastsRecv, ht]
    exact hhandler r
  | neighborRecv r =>
    obtain ⟨ht, hmode, hsink⟩ := h
    change (ecNeighborsRecv r s).governing = _
    have hig : ¬ s.ignoredInResetMode r := by simp [ignoredInResetMode, hmode]
    rw [ecNeighborsRecv, if_neg hig, if_neg (by simp [hsink]), neighborsRecv, ht]
    exact hhandler r
  | _ => exact h.elim

/-- **A reset leaves what powering up leaves exactly when there was nothing to forget**: no best
neighbour, no burning coordinate, and in `exit_node` no address and no path unless the packet
in the flash makes the node an exit. -/
theorem governing_reset_iff (hs : nodeMachine.Reachable s) (hflash : s.flash.isSome = true)
    {e : AppEvent × ClockReading} (hreset : s.HandlesReset e.1) (addr : Rimeaddr) :
    (s.step e).governing = (resetNodeProperties addr s.flash).governing ↔
      s.bpn = .null ∧ s.emergencyCoords = [] ∧
        ((∀ sp ∈ s.stored, sp.isExitNode ≠ 0) ∨
          s.exitNode.addr = rimeaddrNull ∧ s.exitNode.bp = default) := by
  obtain ⟨f, hf⟩ := Option.isSome_iff_exists.mp hflash
  have hstored : s.stored = some (SetupPacket.read (memRead f setupBufferSize)) := by
    rw [stored, hf]
    rfl
  have hblank := sameBlank_of_reachable hs addr (some f)
  have hblank' : SameBlank (s.wake e.2) (zero addr (some f)) :=
    ⟨hblank.exitNode.symm, hblank.maxNode.symm⟩
  have hhandle := governing_handlesReset (s := s.wake e.2) hf hreset
  rw [step, hhandle, hf, resetNodeProperties, governing_setupParse _ true hblank', hstored]
  simp only [Option.mem_some_iff, forall_eq']
  exact Iff.rfl

/-- A node that is set up, reads a fire before it knows a path, and hears of a new neighbour. -/
def beforePaths : List (AppEvent × ClockReading) :=
  [(.serial (.simulationSetup ⟨⟨10, 0⟩, ⟨⟨0, 0⟩, ⟨0, 0⟩⟩, 0, [⟨20, 0⟩, ⟨30, 0⟩]⟩), ⟨0, 0⟩),
    (.emergencyCheck 500, ⟨0, 0⟩),
    (.mcUcRecv ⟨⟨40, 0⟩, ⟨40, 0⟩, 0, 0, [PacketType.imYourNewNeighbor.toByte], 1⟩, ⟨0, 0⟩)]

/-- The reading and the neighbour are forgotten, and there is nothing else to forget. -/
theorem governing_reset_beforePaths : ∃ s, nodeMachine.Reachable s ∧
    s.ns.toList.length = 3 ∧ s.currentSensorsMetric ≠ (s.step resetEvent).currentSensorsMetric ∧
    (s.step resetEvent).ns.toList.length = 2 ∧
    (s.step resetEvent).governing = (resetNodeProperties rimeaddrNull s.flash).governing := by
  have h : ((Machine.run advance beforePaths (resetNodeProperties rimeaddrNull none)).map
      fun s => decide ((s.ns.toList.length = 3 ∧
        s.currentSensorsMetric ≠ (s.step resetEvent).currentSensorsMetric ∧
        (s.step resetEvent).ns.toList.length = 2) ∧
        s.flash.isSome = true ∧ s.HandlesReset resetEvent.1 ∧ s.bpn = .null ∧
        s.emergencyCoords = [] ∧ s.exitNode.addr = rimeaddrNull ∧ s.exitNode.bp = default)) =
      some true := by decide +kernel
  obtain ⟨s, hrun, heq⟩ := Option.map_eq_some_iff.mp h
  obtain ⟨⟨hmore, hmetric, hfewer⟩, hflash, hreset, hbpn, hcoords, haddr, hbp⟩ :=
    of_decide_eq_true heq
  have hreach : nodeMachine.Reachable s := reachable_of_run hrun
  exact ⟨s, hreach, hmore, hmetric, hfewer, (governing_reset_iff hreach hflash hreset
    rimeaddrNull).mpr ⟨hbpn, hcoords, .inr ⟨haddr, hbp⟩⟩⟩

/-- **A reset does not forget the best neighbour.** -/
theorem reset_keeps_bpn : ∃ s, nodeMachine.Reachable s ∧ s.flash.isSome = true ∧
    s.HandlesReset resetEvent.1 ∧
    (s.step resetEvent).governing ≠ (resetNodeProperties rimeaddrNull s.flash).governing := by
  have h : ((Machine.run advance twoPaths (resetNodeProperties rimeaddrNull none)).map
      fun s => decide (s.flash.isSome = true ∧ s.HandlesReset resetEvent.1 ∧
        (s.step resetEvent).bpn ≠ (resetNodeProperties rimeaddrNull s.flash).bpn)) =
      some true := by decide +kernel
  obtain ⟨s, hrun, heq⟩ := Option.map_eq_some_iff.mp h
  obtain ⟨hflash, hreset, hbpn⟩ := of_decide_eq_true heq
  exact ⟨s, reachable_of_run hrun, hflash, hreset,
    fun hgov => hbpn (congrArg Governing.bpn hgov)⟩

end Node

end EmergencyNet
