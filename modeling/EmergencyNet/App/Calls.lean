import EmergencyNet.App.Events

/-!
# How many packets an event sends

The calls the code for an event adds to `calls`, counted by the packets they may put into
the sending queue.  No code of the application switches time synchronisation off.

## Main definitions

* `Effect.packets`, `packets` — the packets application code may enqueue.
* `Makes`, `Adds n s t` — from `s` to `t` at most `n` packets are sent.
* `AppEvent.budget` — a bound for each event.

## Main results

* `Node.adds_step` — **an event sends no more packets than its budget.**
-/

namespace EmergencyNet

/-- The number of packets a call may enqueue. -/
def Effect.packets : Effect → ℕ
  | .call .timesynchOn | .call .timesynchOff | .assert _ => 0
  | .call _ => 1

/-- The number of packets application code may enqueue. -/
def packets (l : List Effect) : ℕ := (l.map Effect.packets).sum

@[simp] theorem packets_nil : packets [] = 0 := rfl

@[simp] theorem packets_cons (e : Effect) (l : List Effect) :
    packets (e :: l) = e.packets + packets l := List.sum_cons

@[simp] theorem packets_append (l m : List Effect) : packets (l ++ m) = packets l + packets m := by
  rw [packets, List.map_append, List.sum_append]
  rfl

theorem Effect.packets_le_one (e : Effect) : e.packets ≤ 1 := by
  unfold Effect.packets
  split <;> omega

theorem packets_le_of_mem {e : Effect} {l : List Effect} (h : e ∈ l) : e.packets ≤ packets l := by
  induction l with
  | nil => exact absurd h List.not_mem_nil
  | cons e' rest ih =>
    rw [packets_cons]
    rcases List.mem_cons.mp h with rfl | h
    · exact Nat.le_add_right _ _
    · exact (ih h).trans (Nat.le_add_left _ _)

/-- What the connection sees of a node: the calls made, and whether `c->ns` is set. -/
def Node.port (s : Node) : List Effect × Bool := (s.calls, s.ecNs)

/-- The calls `l` made on the way from `s` to `t`: they enqueue at most `n` packets, none of
them switches time synchronisation off, and once `c->ns` is set it is never `NULL`. -/
structure Makes (n : ℕ) (s t : Node) (l : List Effect) : Prop where
  packets : packets l ≤ n
  on : Effect.call .timesynchOff ∉ l
  ecNs : s.ecNs = true → t.ecNs = true
  known : s.ecNs = true → ∀ a, Effect.call (.reliableBroadcastNs none a) ∉ l

/-- `t` is reached from `s` with calls that enqueue at most `n` packets. -/
def Adds (n : ℕ) (s t : Node) : Prop := ∃ l, t.calls = s.calls ++ l ∧ Makes n s t l

namespace Adds

variable {m n : ℕ} {s t u : Node}

theorem of_eq (h : t.port = s.port) : Adds n s t := by
  obtain ⟨hcalls, hns⟩ := Prod.mk.inj h
  refine ⟨[], by rw [hcalls, List.append_nil], ?_⟩
  exact ⟨Nat.zero_le n, List.not_mem_nil, fun h => hns.trans h, fun _ _ => List.not_mem_nil⟩

theorem refl (s : Node) : Adds n s s := of_eq rfl

theorem trans (h : Adds m s t) (h' : Adds n t u) : Adds (m + n) s u := by
  obtain ⟨l, hl, hmakes⟩ := h
  obtain ⟨l', hl', hmakes'⟩ := h'
  refine ⟨l ++ l', by rw [hl', hl, List.append_assoc], ?_, ?_, ?_, ?_⟩
  · have h₁ := hmakes.packets
    have h₂ := hmakes'.packets
    rw [packets_append]
    omega
  · rw [List.mem_append]
    exact not_or.mpr ⟨hmakes.on, hmakes'.on⟩
  · exact fun hns => hmakes'.ecNs (hmakes.ecNs hns)
  · intro hns a
    rw [List.mem_append]
    exact not_or.mpr ⟨hmakes.known hns a, hmakes'.known (hmakes.ecNs hns) a⟩

theorem mono (h : Adds m s t) (hle : m ≤ n) : Adds n s t := by
  obtain ⟨l, hl, hmakes⟩ := h
  exact ⟨l, hl, { hmakes with packets := hmakes.packets.trans hle }⟩

/-- A change of the state the connection does not see may come before or after. -/
theorem of_port {u v : Node} (h : Adds n s t) (hs : s.port = u.port) (ht : v.port = t.port) :
    Adds n u v := by
  have h' : Adds (0 + n + 0) u v := ((of_eq hs).trans h).trans (of_eq ht)
  rwa [Nat.zero_add] at h'

/-- `c->ns` may be set at the end. -/
theorem set_ecNs {t' : Node} (h : Adds n s t) (ht : t'.calls = t.calls) (hns : t'.ecNs = true) :
    Adds n s t' := by
  obtain ⟨l, hl, hmakes⟩ := h
  exact ⟨l, ht.trans hl, { hmakes with ecNs := fun _ => hns }⟩

/-- At the beginning of an event no calls have been made. -/
theorem of_wake {c : ClockReading} (h : Adds n (s.wake c) t) : Makes n (s.wake c) t t.calls := by
  obtain ⟨l, hl, hmakes⟩ := h
  have hcalls : t.calls = l := hl
  rwa [hcalls]

end Adds

namespace Node

variable {s : Node}

theorem adds_assert (b : Bool) : Adds 0 s (s.assert b) := by
  refine ⟨[.assert b], rfl, Nat.le_refl 0, ?_, id, fun _ a => ?_⟩ <;> simp

/-- A call is one packet, when it is given the neighbour set that exists. -/
theorem adds_call {c : EcCall} (hoff : c ≠ .timesynchOff)
    (hns : s.ecNs = true → ∀ a, c ≠ .reliableBroadcastNs none a) : Adds 1 s (s.call c) := by
  refine ⟨[.call c], rfl, ?_, ?_, id, fun h a => ?_⟩
  · rw [packets_cons, packets_nil]
    exact Effect.packets_le_one _
  · simp [hoff.symm]
  · simp [(hns h a).symm]

theorem adds_broadcast (o : Rimeaddr) (h q : UInt8) (data : List UInt8) :
    Adds 1 s (s.broadcast o h q data) :=
  adds_call (fun h => by cases h) (fun _ _ h => by cases h)

theorem adds_reliableBroadcastNs (o : Rimeaddr) (h q : UInt8) (data : List UInt8) :
    Adds 1 s (s.reliableBroadcastNs o h q data) := by
  refine adds_call (fun h => by cases h) (fun hns a heq => ?_)
  have hnull : s.connNs = none := (EcCall.reliableBroadcastNs.inj heq).1
  simp [connNs, hns] at hnull

theorem adds_broadcastOwn (data : List UInt8) : Adds 1 s (s.broadcastOwn data) :=
  (adds_broadcast ..).of_port rfl rfl

theorem adds_reliableBroadcastOwn (data : List UInt8) : Adds 1 s (s.reliableBroadcastOwn data) :=
  (adds_reliableBroadcastNs ..).of_port rfl rfl

/-! ### The light and the burning coordinates -/

theorem adds_blinkingUpdate : Adds 0 s s.blinkingUpdate := by
  unfold blinkingUpdate
  split
  · exact (adds_assert _).of_port rfl rfl
  · exact .refl s

theorem adds_blinkingInit : Adds 0 s s.blinkingInit := by
  unfold blinkingInit
  split
  · exact .refl s
  · exact (adds_blinkingUpdate (s := { s with state := { s.state with isBlinking := true } })).of_port
      rfl rfl

theorem adds_addCoordinateAsBurning (c : Coordinate) : Adds 0 s (addCoordinateAsBurning c s) :=
  .of_eq <| by
    unfold addCoordinateAsBurning
    split <;> rfl

/-! ### Set-up -/

theorem adds_addNeighbors : ∀ (l : List Rimeaddr) (s : Node), Adds 0 s (addNeighbors l s) := by
  intro l
  induction l with
  | nil => exact fun s => .refl s
  | cons a rest ih =>
    intro s
    cases hns : neighborsAdd s.ns a with
    | some ns =>
      simp only [addNeighbors, hns]
      exact (ih { s with ns := ns }).of_port rfl rfl
    | none =>
      simp only [addNeighbors, hns]
      exact (adds_assert false).trans (ih _)

theorem adds_setupParse (m : List UInt8) (b : Bool) (s : Node) : Adds 0 s (setupParse m b s) := by
  have hadd := adds_addNeighbors (SetupPacket.read m).neighbors (setupCleared (SetupPacket.read m) s)
  unfold setupParse
  simp only
  cases (SetupPacket.read m).isExitNode != 0 <;>
    exact (hadd.of_port (u := s) rfl rfl).set_ecNs rfl rfl

theorem adds_resetSystem : Adds 0 s s.resetSystemPacketHandler := by
  unfold resetSystemPacketHandler
  cases s.flash with
  | none => exact .of_eq rfl
  | some f => exact (adds_setupParse (memRead f setupBufferSize) true s).of_port rfl rfl

/-! ### Announcing the best path -/

theorem adds_broadcastBestPath : Adds 1 s s.broadcastBestPath := by
  have h : Adds (0 + 1) s s.broadcastBestPath := (adds_assert _).trans (adds_reliableBroadcastOwn _)
  exact h

theorem adds_updateBpn (p : NeighborPtr) (s : Node) :
    Adds 1 s (s.updateBpnAndBroadcastNewPathIfChanged p).1 := by
  have hassert : Adds 0 s (s.assert (s.findBestExitPathNeighbor ≠ .null)) := adds_assert _
  have hsend : Adds (0 + 1) s (broadcastBestPath
      { s.assert (s.findBestExitPathNeighbor ≠ .null) with bpn := s.findBestExitPathNeighbor }) :=
    (hassert.of_port (v := { s.assert (s.findBestExitPathNeighbor ≠ .null) with
      bpn := s.findBestExitPathNeighbor }) rfl rfl).trans adds_broadcastBestPath
  unfold updateBpnAndBroadcastNewPathIfChanged
  simp only
  split
  · exact hsend
  · split
    · exact hsend
    · exact hassert.mono (Nat.zero_le 1)

theorem adds_updateBpnAndSendNodeInfo : Adds 1 s s.updateBpnAndSendNodeInfo := by
  have h : Adds (0 + (0 + 1)) s s.updateBpnAndSendNodeInfo :=
    ((adds_assert (decide (s.findBestExitPathNeighbor ≠ .null))).of_port (v :=
      { s.assert (s.findBestExitPathNeighbor ≠ .null) with bpn := s.findBestExitPathNeighbor })
      rfl rfl).trans ((adds_assert _).trans (adds_reliableBroadcastOwn _))
  exact h

theorem adds_initHandler : Adds 1 s s.initializeBestPathPacketHandler := by
  have hon : Adds 0 s { s.call .timesynchOn with
      state := { (s.call .timesynchOn).state with isResetMode := false } } :=
    ⟨[.call .timesynchOn], rfl, Nat.le_refl 0, by simp, id, fun _ a => by simp⟩
  unfold initializeBestPathPacketHandler
  simp only
  split
  · have h := hon.trans ((adds_assert (!s.state.hasSentNodeInfo)).trans
      adds_updateBpnAndSendNodeInfo)
    exact h.of_port rfl rfl
  · exact hon.mono (Nat.zero_le 1)

/-! ### The callbacks -/

theorem adds_ecBroadcastsRecv (r : RecvArgs) : Adds 2 s (ecBroadcastsRecv r s) := by
  unfold ecBroadcastsRecv
  split
  · exact .refl s
  · split
    · unfold sinkBroadcastsRecv
      split
      all_goals first
        | exact .refl s
        | exact (adds_assert false).mono (Nat.zero_le 2)
    · unfold sensorBroadcastsRecv
      split
      · have h := (adds_addCoordinateAsBurning (s := s) (coordinateAt r.data 1)).trans
          ((adds_broadcast r.originator (r.hops + 1) r.seqno r.payload).trans adds_blinkingInit)
        exact h.mono (by omega)
      · have h : Adds 1 (removeCoordinateAsBurning (coordinateAt r.data 1) s) _ :=
          adds_broadcast r.originator (r.hops + 1) r.seqno r.payload
        exact (h.of_port (u := s) rfl rfl).mono (Nat.le_succ 1)
      · split
        · exact ((adds_setupParse r.data false _).of_port rfl rfl).mono (Nat.zero_le 2)
        · exact .refl s
      · exact (adds_reliableBroadcastNs ..).trans adds_initHandler
      · have h := (adds_broadcast (s := s) r.originator (r.hops + 1) r.seqno r.payload).trans
          (adds_call (c := .mesh r.originator
            (s.broadcast r.originator (r.hops + 1) r.seqno r.payload).seqno s.nodeReportBytes)
            (fun h => by cases h) (fun _ _ h => by cases h))
        exact h.of_port rfl rfl
      · exact ((adds_reliableBroadcastNs ..).trans adds_resetSystem).mono (by omega)
      · exact (adds_assert false).mono (Nat.zero_le 2)

theorem adds_bestPathUpdateRecv (i : ℕ) (bp : NeighborNodeBestPath) :
    Adds 1 s (bestPathUpdateRecv i bp s) := by
  have h : Adds 1 s (updateBpnAndBroadcastNewPathIfChanged (.slot i)
      { s with ns := s.ns.set i ((s.ns.item i).setBestPath bp) }).1 :=
    (adds_updateBpn (.slot i)
      { s with ns := s.ns.set i ((s.ns.item i).setBestPath bp) }).of_port rfl rfl
  unfold bestPathUpdateRecv
  simp only
  split
  · exact h.trans adds_blinkingUpdate
  · exact h

theorem adds_nodeInfoRecv (i : ℕ) (coord : Coordinate) (bp : NeighborNodeBestPath) :
    Adds 1 s (nodeInfoRecv i coord bp s) := by
  unfold nodeInfoRecv
  simp only
  generalize hns : s.ns.set i _ = ns
  split
  · split
    · exact .of_eq rfl
    · exact (adds_updateBpn (.slot i) { s with ns := ns }).of_port rfl rfl
  · exact (adds_updateBpnAndSendNodeInfo (s := { s with ns := ns })).of_port rfl rfl

theorem adds_withSender {n : ℕ} {r : RecvArgs} {f : ℕ → Node → Node} (h : ∀ i, Adds n s (f i s)) :
    Adds n s (s.withSender r f) := by
  unfold withSender
  split
  · exact h _
  · exact (adds_assert false).mono (Nat.zero_le n)

theorem adds_ecNeighborsRecv (r : RecvArgs) : Adds 2 s (ecNeighborsRecv r s) := by
  unfold ecNeighborsRecv
  split
  · exact .refl s
  · split
    · exact .refl s
    · unfold neighborsRecv
      split
      · exact (adds_withSender fun i => adds_bestPathUpdateRecv i _).mono (by omega)
      · exact (adds_reliableBroadcastNs ..).trans adds_initHandler
      · exact (adds_withSender fun i => Adds.of_eq rfl).mono (Nat.zero_le 2)
      · exact (adds_withSender fun i => adds_nodeInfoRecv i _ _).mono (by omega)
      · exact ((adds_reliableBroadcastNs ..).trans adds_resetSystem).mono (by omega)
      · exact (adds_assert false).mono (Nat.zero_le 2)

theorem adds_ecMcUcRecv (r : RecvArgs) : Adds 0 s (ecMcUcRecv r s) := by
  unfold ecMcUcRecv
  split
  · exact adds_addNeighbors _ s
  · exact adds_assert false

/-! ### The process -/

theorem adds_sendEmergencyPacket : Adds 1 s s.sendEmergencyPacket := adds_broadcastOwn _

theorem adds_startBurning : Adds 3 s s.startBurning := by
  have hlight : Adds 0 s (blinkingInit (setBurning true s)) :=
    (adds_blinkingInit (s := setBurning true s)).of_port rfl rfl
  have h := (((hlight.trans (adds_addCoordinateAsBurning
    (blinkingInit (setBurning true s)).coordinateNode)).trans
    adds_sendEmergencyPacket).trans
    (adds_call (c := .timesynchNetwork) (fun h => by cases h) (fun _ _ h => by cases h))).trans
      adds_broadcastBestPath
  exact h

theorem adds_stopBurning : Adds 1 s s.stopBurning := by
  have h : Adds 1 s (sendAntiEmergencyPacket
      (removeCoordinateAsBurning s.coordinateNode (setBurning false s))) :=
    (adds_broadcastOwn _).of_port rfl rfl
  exact h.trans adds_blinkingUpdate

theorem adds_emergencyCheck (light : UInt16) : Adds 3 s (emergencyCheck light s) := by
  have hsense : Adds 0 s { s with currentSensorsMetric := uint16ToUint8 light } := .of_eq rfl
  unfold emergencyCheck abruptReading
  split
  swap
  · exact .refl s
  split
  swap
  · exact .refl s
  simp only
  split
  · split
    · exact (adds_startBurning (s := s.sensed light)).of_port rfl rfl
    · exact hsense.mono (Nat.zero_le 3)
  · split
    · split
      · exact (((adds_stopBurning (s := s.sensed light)).of_port (u := s) rfl rfl).trans
          adds_broadcastBestPath).mono (Nat.le_succ 2)
      · exact ((adds_broadcastBestPath (s := s.sensed light)).of_port (u := s) rfl rfl).mono
          (by decide)
    · exact hsense.mono (Nat.zero_le 3)

theorem adds_keepaliveSend : Adds 1 s s.keepaliveSend := by
  unfold keepaliveSend
  split
  · exact adds_reliableBroadcastOwn _
  · exact .refl s

theorem adds_keepaliveCheck : Adds 1 s s.keepaliveCheck := by
  have hdrop : Adds 0 s s.dropSilent := .of_eq rfl
  unfold keepaliveCheck
  split
  swap
  · exact .refl s
  split
  · have h : Adds (0 + 1) s (updateBpnAndBroadcastNewPathIfChanged .null s.dropSilent).1 :=
      hdrop.trans (adds_updateBpn .null _)
    simp only
    split
    · exact h.trans adds_blinkingUpdate
    · exact h
  · exact hdrop.mono (Nat.zero_le 1)

theorem adds_serialCommand (c : SerialCommand) : Adds 2 s (serialCommand c s) := by
  cases c with
  | simulationSetup sp => exact (adds_setupParse _ false s).mono (Nat.zero_le 2)
  | init => exact adds_ecBroadcastsRecv _
  | sink =>
    have h := adds_setupParse (PacketType.setup.toByte :: List.replicate 10 0) false s
    have h' : Adds 0 s (serialCommand .sink s) := h.of_port rfl rfl
    exact h'.mono (Nat.zero_le 2)
  | sendInitPacket => exact (adds_broadcastOwn _).mono (by omega)
  | resetSystemPacket => exact (adds_broadcastOwn _).mono (by omega)
  | extractReportPacket => exact (adds_broadcastOwn _).mono (by omega)
  | sendSetupPacket sp => exact ((adds_assert _).trans (adds_broadcastOwn _)).mono (by omega)

end Node

/-- A bound on the packets the code for an event sends. -/
def AppEvent.budget : AppEvent → ℕ
  | .emergencyCheck _ => 3
  | _ => 2

/-- **An event sends no more packets than its budget**, and no event switches time
synchronisation off or unsets `c->ns`. -/
theorem Node.adds_step (s : Node) (e : AppEvent × ClockReading) :
    Makes e.1.budget (s.wake e.2) (s.step e) (s.step e).calls := by
  obtain ⟨ev, c⟩ := e
  refine Adds.of_wake ?_
  change Adds ev.budget (s.wake c) (Node.handle ev (s.wake c))
  cases ev with
  | broadcastRecv r => exact adds_ecBroadcastsRecv r
  | neighborRecv r => exact adds_ecNeighborsRecv r
  | mcUcRecv r => exact (adds_ecMcUcRecv r).mono (Nat.zero_le 2)
  | timesynched => exact adds_blinkingUpdate.mono (Nat.zero_le 2)
  | button => exact .of_eq rfl
  | serial c => exact adds_serialCommand c
  | emergencyCheck light => exact adds_emergencyCheck light
  | keepaliveSend => exact adds_keepaliveSend.mono (by decide)
  | keepaliveCheck => exact adds_keepaliveCheck.mono (by decide)

end EmergencyNet
