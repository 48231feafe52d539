import EmergencyNet.App.Events

/-!
# Setting a node up

A setup packet is read back from its bytes, and `setup_parse` of one with at most
`MAX_NEIGHBORS` neighbours fills the neighbour table with exactly these.

## Main results

* `SetupPacket.read_bytes` — **a setup packet is read back.**
* `Node.addrs_addNeighbors` — the table after the neighbours have been added.
* `Node.setupParse_bytes` — the node after its setup packet.
* `Node.installs` — the setup packet an event makes a node take over.
* `Node.installs_or_outcome` — an event takes over that packet, or ends in another way.
-/

namespace EmergencyNet

/-! ### Reading a setup packet back -/

/-- **A setup packet is read back from its bytes.** -/
theorem SetupPacket.read_bytes (sp : SetupPacket) (h : sp.neighbors.length < 256) :
    SetupPacket.read sp.bytes = sp := by
  let fixed : List UInt8 := PacketType.setup.toByte :: (sp.newAddr.bytes ++ sp.newCoord.bytes ++
    [sp.isExitNode, UInt8.ofNat sp.neighbors.length])
  have hbytes : sp.bytes = fixed ++ sp.neighbors.flatMap Rimeaddr.bytes := by
    simp [SetupPacket.bytes, fixed]
  have hnum : (byteAt sp.bytes 8).toNat = sp.neighbors.length := by
    rw [hbytes]
    exact Nat.mod_eq_of_lt h
  have hnbrs : (SetupPacket.read sp.bytes).neighbors = sp.neighbors := by
    simp only [SetupPacket.read, hnum]
    apply List.ext_getElem
    · simp
    · intro i h₁ h₂
      rw [List.getElem_map, List.getElem_range, hbytes]
      rw [setupPacketSize, show (9 : ℕ) = fixed.length from rfl, rimeaddrAt_append,
        ← rimeaddrAt_flatMap [] _ i h₂, List.append_nil]
  have hfixed : SetupPacket.read sp.bytes =
      { sp with neighbors := (SetupPacket.read sp.bytes).neighbors } := by
    rw [hbytes]
    rfl
  rw [hfixed, hnbrs]

/-- What is read lies in the first `9 + 2 * num_neighbors` bytes. -/
theorem SetupPacket.read_memRead {m : List UInt8} {n : ℕ}
    (h : setupPacketSize + 2 * (byteAt m 8).toNat ≤ n) :
    SetupPacket.read (memRead m n) = SetupPacket.read m := by
  unfold setupPacketSize at h
  have hbyte : ∀ i, i < n → byteAt (memRead m n) i = byteAt m i := fun i => byteAt_memRead
  have haddr : ∀ i, i + 1 < n → rimeaddrAt (memRead m n) i = rimeaddrAt m i := fun i hi => by
    rw [rimeaddrAt, rimeaddrAt, hbyte i (by omega), hbyte (i + 1) hi]
  have hpacked : ∀ i, i + 1 < n → packedAt (memRead m n) i = packedAt m i := fun i hi => by
    rw [packedAt, packedAt, hbyte i (by omega), hbyte (i + 1) hi]
  unfold SetupPacket.read coordinateAt
  rw [haddr 1 (by omega), hpacked 3 (by omega), hpacked (3 + 2) (by omega), hbyte 7 (by omega),
    hbyte 8 (by omega)]
  congr 1
  apply List.map_congr_left
  intro i hi
  rw [List.mem_range] at hi
  exact haddr _ (by unfold setupPacketSize; omega)

theorem SetupPacket.length_bytes (sp : SetupPacket) :
    sp.bytes.length = setupPacketSize + 2 * sp.neighbors.length := by
  have hflat : (sp.neighbors.flatMap Rimeaddr.bytes).length = 2 * sp.neighbors.length := by
    induction sp.neighbors with
    | nil => rfl
    | cons a rest ih =>
      rw [List.flatMap_cons, List.length_append, ih, List.length_cons]
      change 2 + _ = _
      omega
  rw [SetupPacket.bytes, List.length_cons, List.length_append, hflat]
  change 8 + _ + 1 = 9 + _
  omega

/-- A setup packet is read back from memory that starts with its bytes. -/
theorem SetupPacket.read_of_memRead {sp : SetupPacket} (h : sp.neighbors.length < 256)
    {m : List UInt8} (hm : memRead m sp.bytes.length = sp.bytes) : SetupPacket.read m = sp := by
  have hlen := sp.length_bytes
  unfold setupPacketSize at hlen
  have hnum : (byteAt sp.bytes 8).toNat = sp.neighbors.length := Nat.mod_eq_of_lt h
  have hbyte : byteAt m 8 = byteAt sp.bytes 8 := by
    rw [← hm, byteAt_memRead (by omega)]
  rw [← read_memRead (n := sp.bytes.length) (by rw [hbyte, hnum, hlen, setupPacketSize]), hm,
    sp.read_bytes h]

namespace Node

variable {s : Node}

/-! ### Filling the table -/

/-- The addresses in the table, front first. -/
def addrs (s : Node) : List Rimeaddr := s.ns.used.map fun i => (s.ns.item i).addr

/-- **Neighbours that fit are all added**, each in front of the ones before. -/
theorem addrs_addNeighbors : ∀ (l : List Rimeaddr) (s : Node), l.length ≤ s.ns.unused.length →
    (addNeighbors l s).addrs = l.reverse ++ s.addrs := by
  intro l
  induction l with
  | nil => intro s _; rfl
  | cons a rest ih =>
    intro s hlen
    rw [List.length_cons] at hlen
    have hne : s.ns.unused ≠ [] := List.ne_nil_of_length_pos (by omega)
    obtain ⟨ns, hadd⟩ := QueueBuffer.exists_pushFront hne (NeighborNode.fresh a)
    obtain ⟨b, hb, hused, hitem, -⟩ := QueueBuffer.pushFront_eq_some hadd
    have hroom : rest.length ≤ ns.unused.length := by
      have h₁ := s.ns.length_used_add_length_unused
      have h₂ := ns.length_used_add_length_unused
      rw [hused, List.length_cons] at h₂
      omega
    -- the new entry is in front, the old ones are untouched
    have hfront : (withTable ns s).addrs = a :: s.addrs := by
      simp only [addrs, withTable, hused, hitem, List.map_cons, Function.update_self,
        NeighborNode.fresh, List.cons.injEq, true_and]
      apply List.map_congr_left
      intro i hi
      have hne : i ≠ b := fun hib => s.ns.disjoint hb (hib ▸ hi)
      rw [Function.update_of_ne hne]
    have hstep : addNeighbors (a :: rest) s = addNeighbors rest (withTable ns s) := by
      rw [addNeighbors, neighborsAdd, hadd]
      rfl
    rw [hstep, ih _ hroom, hfront]
    simp

/-! ### The node after its setup packet -/

/-- **The node after its setup packet**: it has the address, the coordinate and the
neighbours of the packet. -/
structure SetUp (sp : SetupPacket) (t : Node) : Prop where
  rimeaddrNodeAddr : t.rimeaddrNodeAddr = sp.newAddr
  coordinateNode : t.coordinateNode = sp.newCoord
  isExitNode : t.state.isExitNode = (sp.isExitNode != 0)
  addrs : t.addrs = sp.neighbors.reverse
  isSinkNode : t.state.isSinkNode = false
  isResetMode : t.state.isResetMode = false
  exitNode : sp.isExitNode ≠ 0 →
    t.exitNode.addr = sp.newAddr ∧ t.exitNode.dist = 0 ∧ t.exitNode.bp.metric = ⟨0, 0⟩ ∧
      t.exitNode.bp.hops = -1

theorem setUp_setupParse {sp : SetupPacket} {m : List UInt8} (hread : SetupPacket.read m = sp)
    (h : sp.neighbors.length ≤ maxNeighbors) (b : Bool) (s : Node) :
    SetUp sp (setupParse m b s) := by
  obtain ⟨calls, heq, -⟩ := addNeighbors_eq sp.neighbors (setupCleared sp s)
  have haddrs : (addNeighbors sp.neighbors (setupCleared sp s)).addrs = sp.neighbors.reverse := by
    have hroom : sp.neighbors.length ≤ (setupCleared sp s).ns.unused.length := by
      have hlen := (setupCleared sp s).ns.length_used_add_length_unused
      have hnil : (setupCleared sp s).ns.used.length = 0 := rfl
      rw [hnil, Nat.zero_add] at hlen
      rw [hlen]
      exact h
    rw [addrs_addNeighbors _ _ hroom]
    exact List.append_nil _
  unfold setupParse
  simp only [hread]
  generalize (if b = true then s.flash else _) = flash
  generalize addNeighbors sp.neighbors (setupCleared sp s) = t at heq haddrs ⊢
  have hexit : (setupFinished (sp.isExitNode != 0) flash t).state.isExitNode =
      (sp.isExitNode != 0) := by
    cases hx : (sp.isExitNode != 0) <;> (rw [heq]; rfl)
  refine ⟨?_, ?_, hexit, ?_, ?_, ?_, ?_⟩
  · cases (sp.isExitNode != 0) <;> (rw [heq]; rfl)
  · cases (sp.isExitNode != 0) <;> (rw [heq]; rfl)
  · rw [← haddrs]
    cases (sp.isExitNode != 0) <;> rfl
  · cases (sp.isExitNode != 0) <;> (rw [heq]; rfl)
  · cases (sp.isExitNode != 0) <;> (rw [heq]; rfl)
  · intro hx
    rw [show (sp.isExitNode != 0) = true by simpa using hx, heq]
    refine ⟨rfl, ?_, rfl, rfl⟩
    exact (NeighborNode.dist_setCoordinate _ _ _).trans (coordinateDistance_self _)

theorem setupParse_bytes (sp : SetupPacket) (h : sp.neighbors.length ≤ maxNeighbors) (b : Bool)
    (s : Node) : SetUp sp (setupParse sp.bytes b s) :=
  setUp_setupParse (sp.read_bytes (lt_of_le_of_lt h (by decide))) h b s

/-! ### Taking a setup packet over -/

/-- Adding neighbours takes the first slots off the list of unused ones. -/
theorem mem_used_addNeighbors {i : ℕ} : ∀ (l : List Rimeaddr) (s : Node),
    i ∈ (addNeighbors l s).ns.used ↔ i ∈ s.ns.used ∨ i ∈ s.ns.unused.take l.length := by
  intro l
  induction l with
  | nil => intro s; simp [addNeighbors]
  | cons a rest ih =>
    intro s
    cases hadd : neighborsAdd s.ns a with
    | none =>
      have hnil : s.ns.unused = [] := by
        by_contra hne
        obtain ⟨q, hq⟩ := QueueBuffer.exists_pushFront hne (NeighborNode.fresh a)
        rw [neighborsAdd, hq] at hadd
        cases hadd
      simp only [addNeighbors, hadd]
      rw [ih]
      change i ∈ s.ns.used ∨ i ∈ s.ns.unused.take _ ↔ _
      rw [hnil, List.take_nil, List.take_nil]
    | some ns =>
      obtain ⟨b, hused, hunused⟩ := QueueBuffer.pushFront_unused hadd
      simp only [addNeighbors, hadd]
      rw [ih]
      change i ∈ ns.used ∨ i ∈ ns.unused.take _ ↔ _
      rw [hused, hunused, List.length_cons, List.take_succ_cons, List.mem_cons, List.mem_cons]
      tauto

/-- What a node is after it has taken over the packet `sp`.  The best neighbour is not
touched; the slots in use are the first of the unused ones, behind which the old table has
been hung. -/
structure TakenOver (sp : SetupPacket) (s t : Node) : Prop where
  bpn : t.bpn = s.bpn
  used : ∀ i, i ∈ t.ns.used ↔ i ∈ (s.ns.unused ++ s.ns.used).take sp.neighbors.length
  currentSensorsMetric : t.currentSensorsMetric = uint16ToUint8 0
  ecNs : t.ecNs = true
  isExitNode : t.state.isExitNode = (sp.isExitNode != 0)
  isBlinking : t.state.isBlinking = false
  isBurning : t.state.isBurning = false
  hasSentNodeInfo : t.state.hasSentNodeInfo = false
  /-- Only the packet of the `sink` command makes a sink, and it makes no exit. -/
  isSinkNode : t.state.isSinkNode = true → sp.isExitNode = 0

theorem takenOver_setupParse (m : List UInt8) (b : Bool) (s : Node) :
    TakenOver (SetupPacket.read m) s (setupParse m b s) := by
  obtain ⟨calls, heq, -⟩ :=
    addNeighbors_eq (SetupPacket.read m).neighbors (setupCleared (SetupPacket.read m) s)
  have hused : ∀ i, i ∈ (addNeighbors (SetupPacket.read m).neighbors
      (setupCleared (SetupPacket.read m) s)).ns.used ↔
      i ∈ (s.ns.unused ++ s.ns.used).take (SetupPacket.read m).neighbors.length := by
    intro i
    rw [mem_used_addNeighbors]
    exact or_iff_right List.not_mem_nil
  unfold setupParse
  simp only
  generalize addNeighbors (SetupPacket.read m).neighbors (setupCleared (SetupPacket.read m) s) = t
    at heq hused ⊢
  generalize hx : ((SetupPacket.read m).isExitNode != 0) = isExit
  refine ⟨?_, ?_, ?_, rfl, ?_, ?_, ?_, ?_, fun hsink => absurd hsink ?_⟩
  · cases isExit <;> (rw [heq]; rfl)
  · cases isExit <;> exact hused
  · cases isExit <;> (rw [heq]; rfl)
  · cases isExit <;> (rw [heq, hx]; rfl)
  · cases isExit <;> (rw [heq]; rfl)
  · cases isExit <;> (rw [heq]; rfl)
  · cases isExit <;> (rw [heq]; rfl)
  · cases isExit <;> (rw [heq]; exact Bool.false_ne_true)

/-- The packet `node_properties_restore` finds in the flash. -/
def stored (s : Node) : Option SetupPacket :=
  s.flash.map fun f => SetupPacket.read (memRead f setupBufferSize)

/-- The packet the node takes over when it handles the event, if it takes one over. -/
def installs (s : Node) : AppEvent → Option SetupPacket
  | .broadcastRecv r =>
    if s.ignoredInResetMode r || s.state.isSinkNode then none
    else if packetTypeAt r.data = some .setup ∧ s.state.isAwaitingSetupPacket then
      some (SetupPacket.read r.data)
    else if packetTypeAt r.data = some .resetSystem then s.stored
    else none
  | .neighborRecv r =>
    if s.ignoredInResetMode r || s.state.isSinkNode then none
    else if packetTypeAt r.data = some .resetSystem then s.stored
    else none
  | .serial (.simulationSetup sp) => some (SetupPacket.read sp.bytes)
  | .serial .sink => some (SetupPacket.read (PacketType.setup.toByte :: List.replicate 10 0))
  | _ => none

/-- An event that may set a node up takes the packet over or leaves the routing alone. -/
def TakesOver (s : Node) (ev : AppEvent) (t : Node) : Prop :=
  (∃ sp, s.installs ev = some sp ∧ TakenOver sp s t) ∨
    s.installs ev = none ∧ SameRouting s t ∧ t.state.isBlinking = s.state.isBlinking

/-- A reset, after the packet has been passed on. -/
theorem takesOver_resetSystem {ev : AppEvent} (c : EcCall) (h : s.installs ev = s.stored) :
    s.TakesOver ev (s.call c).resetSystemPacketHandler := by
  have hstored : s.stored = (s.call c).flash.map fun f =>
      SetupPacket.read (memRead f setupBufferSize) := rfl
  rw [TakesOver, h, hstored]
  unfold resetSystemPacketHandler
  cases (s.call c).flash with
  | none => exact .inr ⟨rfl, ⟨rfl⟩, rfl⟩
  | some f =>
    have ht := takenOver_setupParse (memRead f setupBufferSize) true (s.call c)
    exact .inl ⟨_, rfl, ht.bpn, ht.used, ht.currentSensorsMetric, ht.ecNs, ht.isExitNode,
      ht.isBlinking, ht.isBurning, ht.hasSentNodeInfo, ht.isSinkNode⟩

/-- The clock does not matter. -/
theorem TakesOver.of_wake {ev : AppEvent} {c : ClockReading} {t : Node}
    (h : (s.wake c).TakesOver ev t) : s.TakesOver ev t := by
  have hinst : (s.wake c).installs ev = s.installs ev := by cases ev <;> rfl
  rw [TakesOver, hinst] at h
  rcases h with ⟨sp, hsp, ht⟩ | ⟨hnone, hr, hblink⟩
  · exact .inl ⟨sp, hsp, ht.bpn, ht.used, ht.currentSensorsMetric, ht.ecNs, ht.isExitNode,
      ht.isBlinking, ht.isBurning, ht.hasSentNodeInfo, ht.isSinkNode⟩
  · exact .inr ⟨hnone, ⟨hr.routing⟩, hblink⟩

theorem takesOver_ecBroadcastsRecv (r : RecvArgs)
    (hre : packetTypeAt r.data = some .setup ∨ packetTypeAt r.data = some .resetSystem) :
    s.TakesOver (.broadcastRecv r) (ecBroadcastsRecv r s) := by
  have hsame : ∀ {t : Node}, s.installs (.broadcastRecv r) = none → t = s →
      s.TakesOver (.broadcastRecv r) t := fun hnone ht => .inr ⟨hnone, ht ▸ ⟨rfl⟩, ht ▸ rfl⟩
  unfold ecBroadcastsRecv
  cases hig : s.ignoredInResetMode r with
  | true => exact hsame (by simp [installs, hig]) (if_pos rfl)
  | false =>
    rw [if_neg Bool.false_ne_true]
    cases hsink : s.state.isSinkNode with
    | true =>
      refine hsame (by simp [installs, hsink]) ?_
      rw [if_pos rfl, sinkBroadcastsRecv]
      rcases hre with ht | ht <;> rw [ht]
    | false =>
      rw [if_neg Bool.false_ne_true, sensorBroadcastsRecv]
      rcases hre with ht | ht
      · rw [ht]
        simp only
        cases haw : s.state.isAwaitingSetupPacket with
        | true =>
          rw [if_pos rfl]
          obtain hto := takenOver_setupParse r.data false
            { s with state := { s.state with isAwaitingSetupPacket := false } }
          refine .inl ⟨SetupPacket.read r.data, by simp [installs, hig, hsink, ht, haw], ?_⟩
          exact ⟨hto.bpn, hto.used, hto.currentSensorsMetric, hto.ecNs, hto.isExitNode,
            hto.isBlinking, hto.isBurning, hto.hasSentNodeInfo, hto.isSinkNode⟩
        | false => exact hsame (by simp [installs, ht, haw]) (if_neg Bool.false_ne_true)
      · rw [ht]
        exact takesOver_resetSystem _ (by simp [installs, hig, hsink, ht])

/-- An event that may set a node up takes its packet over or leaves the routing alone. -/
theorem takesOver_step {ev : AppEvent × ClockReading} (h : ev.1.Reconfigures) :
    s.TakesOver ev.1 (s.step ev) := by
  obtain ⟨ev, c⟩ := ev
  refine TakesOver.of_wake (c := c) ?_
  change (s.wake c).TakesOver ev (handle ev (s.wake c))
  generalize s.wake c = s at h ⊢
  cases ev with
  | broadcastRecv r => exact takesOver_ecBroadcastsRecv r h
  | neighborRecv r =>
    have ht : packetTypeAt r.data = some .resetSystem := h
    change s.TakesOver (.neighborRecv r) (ecNeighborsRecv r s)
    unfold ecNeighborsRecv
    cases hig : s.ignoredInResetMode r with
    | true => exact .inr ⟨by simp [installs, hig], ⟨rfl⟩, rfl⟩
    | false =>
      rw [if_neg Bool.false_ne_true]
      cases hsink : s.state.isSinkNode with
      | true => exact .inr ⟨by simp [installs, hsink], ⟨rfl⟩, rfl⟩
      | false =>
        rw [if_neg Bool.false_ne_true, neighborsRecv, ht]
        exact takesOver_resetSystem _ (by simp [installs, hig, hsink, ht])
  | serial c =>
    cases c with
    | simulationSetup sp => exact .inl ⟨_, rfl, takenOver_setupParse sp.bytes false s⟩
    | sink =>
      have hto := takenOver_setupParse (PacketType.setup.toByte :: List.replicate 10 0) false s
      exact .inl ⟨_, rfl, hto.bpn, hto.used, hto.currentSensorsMetric, hto.ecNs, hto.isExitNode,
        hto.isBlinking, hto.isBurning, hto.hasSentNodeInfo, fun _ => rfl⟩
    | _ => exact h.elim
  | _ => exact h.elim

theorem installs_of_not_reconfigures {ev : AppEvent} (h : ¬ ev.Reconfigures) :
    s.installs ev = none := by
  cases ev with
  | broadcastRecv r =>
    have hne : packetTypeAt r.data ≠ some .setup ∧ packetTypeAt r.data ≠ some .resetSystem :=
      not_or.mp h
    simp [installs, hne.1, hne.2]
  | neighborRecv r =>
    have hne : packetTypeAt r.data ≠ some .resetSystem := h
    simp [installs, hne]
  | serial c =>
    cases c with
    | simulationSetup sp => exact absurd trivial h
    | sink => exact absurd trivial h
    | _ => rfl
  | _ => rfl

/-- **An event takes a setup packet over, or leaves the routing alone, or ends in another
way.** -/
theorem installs_or_outcome {ev : AppEvent × ClockReading} (hc : Completes (s.step ev).calls) :
    s.TakesOver ev.1 (s.step ev) ∨ ¬ ev.1.Reconfigures ∧ s.installs ev.1 = none ∧
      Outcome s ev.1 (s.step ev) (adverts (s.step ev).calls) := by
  by_cases hre : ev.1.Reconfigures
  · exact .inl (takesOver_step hre)
  · exact .inr ⟨hre, installs_of_not_reconfigures hre, outcome_step hc⟩

end Node

end EmergencyNet
