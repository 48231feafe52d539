import EmergencyNet.App.Events
import EmergencyNet.Net.EmergencyConn

/-!
# What a data callback passes on

A callback passes at most one packet on, the payload it is given, before it does anything else.
The packets of the node's own that follow have a few bytes each and always fit into the sending
queue.

## Main definitions

* `EcCall.Fits` — the data of the packet the call enqueues has the size the packet buffer asserts.
* `Node.forwarded` — the call with which a callback passes its packet on.
* `Sends fs s t` — from `s` to `t` the calls `fs` are made, and then packets that fit are sent.

## Main results

* `Node.sends_broadcastsRecv`, `Node.sends_neighborsRecv`, `Node.sends_mcUcRecv` — **what a callback
  sends.**
-/

namespace EmergencyNet

/-- The size of the data of the packet the call enqueues, if it enqueues one, meets the assertion
of the packet buffer. -/
def EcCall.Fits : EcCall → Prop
  | .reliableBroadcastNs (some ns) a =>
    0 < ns.addrs.length → broadcastPacketHdrSize + a.data.length < maxPacketSize
  | .broadcast _ a | .reliableMulticast _ a | .reliableUnicast _ a =>
    broadcastPacketHdrSize + a.data.length < maxPacketSize
  | .mesh _ _ data => unicastPacketHdrSize + data.length < maxPacketSize
  | .reliableBroadcastNs none _ | .timesynchOn | .timesynchOff | .timesynchNetwork => True

/-- A call of the node's own that cannot fail an assertion of the connection:
`ec_timesynch_network` asserts that time synchronisation is on. -/
def EcCall.Harmless (c : EcCall) : Prop := c.Fits ∧ c ≠ .timesynchNetwork

/-- From `s` to `t` the calls `fs` are made, and then harmless ones. -/
def Sends (fs : List EcCall) (s t : Node) : Prop :=
  ∃ l, t.calls = s.calls ++ (fs.map Effect.call ++ l) ∧ ∀ c, Effect.call c ∈ l → c.Harmless

namespace Sends

variable {fs : List EcCall} {s t u : Node}

theorem of_calls (h : t.calls = s.calls) : Sends [] s t :=
  ⟨[], by rw [h]; exact (List.append_nil _).symm, fun _ hc => absurd hc List.not_mem_nil⟩

theorem refl (s : Node) : Sends [] s s := of_calls rfl

theorem trans (h : Sends fs s t) (h' : Sends [] t u) : Sends fs s u := by
  obtain ⟨l, hl, hfit⟩ := h
  obtain ⟨l', hl', hfit'⟩ := h'
  refine ⟨l ++ l', ?_, fun c hc => ?_⟩
  · rw [hl', hl, List.map_nil, List.nil_append, List.append_assoc, List.append_assoc]
  · exact (List.mem_append.mp hc).elim (hfit c) (hfit' c)

/-- A change of the state that is no call may come before or after. -/
theorem of_port {v : Node} (h : Sends fs s t) (hs : s.calls = u.calls) (ht : v.calls = t.calls) :
    Sends fs u v := by
  obtain ⟨l, hl, hfit⟩ := h
  exact ⟨l, by rw [ht, hl, hs], hfit⟩

/-- The first call is the packet that is passed on. -/
theorem call (s : Node) (c : EcCall) : Sends [c] s (s.call c) :=
  ⟨[], rfl, fun _ hc => absurd hc List.not_mem_nil⟩

end Sends

namespace Node

variable {s : Node}

theorem sends_call {c : EcCall} (h : c.Harmless) : Sends [] s (s.call c) :=
  ⟨[.call c], rfl, fun c' hc => by rw [List.mem_singleton] at hc; cases hc; exact h⟩

theorem sends_assert (b : Bool) : Sends [] s (s.assert b) :=
  ⟨[.assert b], rfl, fun c hc => by rw [List.mem_singleton] at hc; cases hc⟩

/-- A packet of the node's own. -/
theorem sends_reliableBroadcastOwn {data : List UInt8} (h : data.length ≤ 24) :
    Sends [] s (s.reliableBroadcastOwn data) := by
  have hfits : broadcastPacketHdrSize + data.length < maxPacketSize := by
    unfold broadcastPacketHdrSize maxPacketSize
    omega
  refine (sends_call (c := .reliableBroadcastNs s.connNs
    ⟨s.rimeaddrNodeAddr, s.rimeaddrNodeAddr, 0, s.seqno, data⟩) ⟨?_, fun h => by cases h⟩).of_port
      rfl rfl
  cases s.connNs with
  | none => trivial
  | some ns => exact fun _ => hfits

/-! ### The pieces of the callbacks -/

theorem sends_blinkingUpdate : Sends [] s s.blinkingUpdate := by
  unfold blinkingUpdate
  split
  · exact (sends_assert _).of_port rfl rfl
  · exact .refl s

theorem sends_blinkingInit : Sends [] s s.blinkingInit := by
  unfold blinkingInit
  split
  · exact .refl s
  · exact (sends_blinkingUpdate (s := { s with state := { s.state with isBlinking := true } })).of_port
      rfl rfl

theorem sends_addNeighbors : ∀ (l : List Rimeaddr) (s : Node), Sends [] s (addNeighbors l s) := by
  intro l
  induction l with
  | nil => exact fun s => .refl s
  | cons a rest ih =>
    intro s
    cases hns : neighborsAdd s.ns a with
    | some ns =>
      simp only [addNeighbors, hns]
      exact (ih { s with ns := ns }).of_port rfl rfl
    | none =>
      simp only [addNeighbors, hns]
      exact (sends_assert false).trans (ih _)

theorem sends_setupParse (m : List UInt8) (b : Bool) (s : Node) : Sends [] s (setupParse m b s) := by
  have hadd := sends_addNeighbors (SetupPacket.read m).neighbors (setupCleared (SetupPacket.read m) s)
  unfold setupParse
  simp only
  cases (SetupPacket.read m).isExitNode != 0 <;> exact hadd.of_port rfl rfl

theorem sends_resetSystem : Sends [] s s.resetSystemPacketHandler := by
  unfold resetSystemPacketHandler
  cases s.flash with
  | none => exact .of_calls rfl
  | some f => exact (sends_setupParse (memRead f setupBufferSize) true s).of_port rfl rfl

theorem sends_broadcastBestPath : Sends [] s s.broadcastBestPath :=
  (sends_assert _).trans (sends_reliableBroadcastOwn (by decide : 6 ≤ 24))

theorem sends_updateBpn (p : NeighborPtr) (s : Node) :
    Sends [] s (s.updateBpnAndBroadcastNewPathIfChanged p).1 := by
  have hassert : Sends [] s (s.assert (s.findBestExitPathNeighbor ≠ .null)) := sends_assert _
  have hsend : Sends [] s (broadcastBestPath
      { s.assert (s.findBestExitPathNeighbor ≠ .null) with bpn := s.findBestExitPathNeighbor }) :=
    (hassert.of_port (v := { s.assert (s.findBestExitPathNeighbor ≠ .null) with
      bpn := s.findBestExitPathNeighbor }) rfl rfl).trans sends_broadcastBestPath
  unfold updateBpnAndBroadcastNewPathIfChanged
  simp only
  split
  · exact hsend
  · split
    · exact hsend
    · exact hassert

theorem sends_updateBpnAndSendNodeInfo : Sends [] s s.updateBpnAndSendNodeInfo :=
  ((sends_assert (decide (s.findBestExitPathNeighbor ≠ .null))).of_port (v :=
    { s.assert (s.findBestExitPathNeighbor ≠ .null) with bpn := s.findBestExitPathNeighbor })
    rfl rfl).trans ((sends_assert _).trans (sends_reliableBroadcastOwn (by decide : 10 ≤ 24)))

theorem sends_initHandler : Sends [] s s.initializeBestPathPacketHandler := by
  have hon : Sends [] s { s.call .timesynchOn with
      state := { (s.call .timesynchOn).state with isResetMode := false } } :=
    (sends_call (c := .timesynchOn) ⟨trivial, fun h => by cases h⟩).of_port rfl rfl
  unfold initializeBestPathPacketHandler
  simp only
  split
  · have h := hon.trans ((sends_assert (!s.state.hasSentNodeInfo)).trans
      sends_updateBpnAndSendNodeInfo)
    exact h.of_port rfl rfl
  · exact hon

theorem sends_bestPathUpdateRecv (i : ℕ) (bp : NeighborNodeBestPath) :
    Sends [] s (bestPathUpdateRecv i bp s) := by
  have h : Sends [] s (updateBpnAndBroadcastNewPathIfChanged (.slot i)
      { s with ns := s.ns.set i ((s.ns.item i).setBestPath bp) }).1 :=
    (sends_updateBpn (.slot i)
      { s with ns := s.ns.set i ((s.ns.item i).setBestPath bp) }).of_port rfl rfl
  unfold bestPathUpdateRecv
  simp only
  split
  · exact h.trans sends_blinkingUpdate
  · exact h

theorem sends_nodeInfoRecv (i : ℕ) (coord : Coordinate) (bp : NeighborNodeBestPath) :
    Sends [] s (nodeInfoRecv i coord bp s) := by
  unfold nodeInfoRecv
  simp only
  generalize s.ns.set i _ = ns
  split
  · split
    · exact .of_calls rfl
    · exact (sends_updateBpn (.slot i) { s with ns := ns }).of_port rfl rfl
  · exact (sends_updateBpnAndSendNodeInfo (s := { s with ns := ns })).of_port rfl rfl

theorem sends_withSender {r : RecvArgs} {f : ℕ → Node → Node} (h : ∀ i, Sends [] s (f i s)) :
    Sends [] s (s.withSender r f) := by
  unfold withSender
  split
  · exact h _
  · exact sends_assert false

/-! ### The callbacks -/

/-- The call with which a callback passes the packet it is given on, if it does: the first call
it makes. -/
def forwarded (k : Callback) (r : RecvArgs) (s : Node) : Option EcCall :=
  let a : SendArgs := ⟨r.originator, s.rimeaddrNodeAddr, r.hops + 1, r.seqno, r.payload⟩
  if s.ignoredInResetMode r || s.state.isSinkNode then none
  else match k, packetTypeAt r.data with
    | .broadcastRecv, some .emergency | .broadcastRecv, some .antiEmergency
    | .broadcastRecv, some .extractReport => some (.broadcast s.connNs a)
    | .broadcastRecv, some .initializeBestPaths | .broadcastRecv, some .resetSystem
    | .neighborRecv, some .initializeBestPaths | .neighborRecv, some .resetSystem =>
      some (.reliableBroadcastNs s.connNs a)
    | _, _ => none

theorem addCoordinateAsBurning_eq (coord : Coordinate) (s : Node) : ∃ coords,
    addCoordinateAsBurning coord s = { s with emergencyCoords := coords } := by
  unfold addCoordinateAsBurning
  split
  · exact ⟨_, rfl⟩
  · exact ⟨s.emergencyCoords, rfl⟩

theorem sends_sensorBroadcastsRecv {r : RecvArgs} (hig : s.ignoredInResetMode r = false)
    (hsink : s.state.isSinkNode = false) :
    Sends (s.forwarded .broadcastRecv r).toList s (sensorBroadcastsRecv r s) := by
  unfold forwarded sensorBroadcastsRecv
  simp only [hig, hsink, Bool.or_self, Bool.false_eq_true, if_false]
  cases ht : packetTypeAt r.data with
  | none => exact sends_assert false
  | some t =>
    cases t with
    | emergency =>
      obtain ⟨coords, hadd⟩ := addCoordinateAsBurning_eq (coordinateAt r.data 1) s
      simp only
      rw [hadd]
      exact ((Sends.call { s with emergencyCoords := coords } _).of_port (u := s) rfl rfl).trans
        sends_blinkingInit
    | antiEmergency =>
      exact (Sends.call (removeCoordinateAsBurning (coordinateAt r.data 1) s) _).of_port rfl rfl
    | setup =>
      simp only
      split
      · exact (sends_setupParse r.data false _).of_port rfl rfl
      · exact .refl s
    | initializeBestPaths => exact (Sends.call s _).trans sends_initHandler
    | extractReport =>
      have hmesh : EcCall.Harmless (.mesh r.originator s.seqno s.nodeReportBytes) :=
        ⟨(by decide : unicastPacketHdrSize + 7 < maxPacketSize), fun h => by cases h⟩
      exact ((Sends.call s _).trans (sends_call hmesh)).of_port rfl rfl
    | resetSystem => exact (Sends.call s _).trans sends_resetSystem
    | _ => exact sends_assert false

theorem forwarded_of_ignored {k : Callback} {r : RecvArgs}
    (h : (s.ignoredInResetMode r || s.state.isSinkNode) = true) : s.forwarded k r = none :=
  if_pos h

/-- **What `ec_broadcasts_recv` sends.** -/
theorem sends_broadcastsRecv (r : RecvArgs) :
    Sends (s.forwarded .broadcastRecv r).toList s (ecBroadcastsRecv r s) := by
  unfold ecBroadcastsRecv
  cases hig : s.ignoredInResetMode r with
  | true =>
    rw [if_pos rfl, forwarded_of_ignored (by rw [hig, Bool.true_or])]
    exact .refl s
  | false =>
    rw [if_neg Bool.false_ne_true]
    cases hsink : s.state.isSinkNode with
    | true =>
      rw [if_pos rfl, forwarded_of_ignored (by rw [hsink, Bool.or_true])]
      unfold sinkBroadcastsRecv
      split
      all_goals first
        | exact .refl s
        | exact sends_assert false
    | false =>
      rw [if_neg Bool.false_ne_true]
      exact sends_sensorBroadcastsRecv hig hsink

/-- **What `ec_neighbors_recv` sends.** -/
theorem sends_neighborsRecv (r : RecvArgs) :
    Sends (s.forwarded .neighborRecv r).toList s (ecNeighborsRecv r s) := by
  unfold ecNeighborsRecv forwarded
  cases hig : s.ignoredInResetMode r with
  | true => exact .refl s
  | false =>
    cases hsink : s.state.isSinkNode with
    | true => exact .refl s
    | false =>
      simp only [Bool.or_self, Bool.false_eq_true, if_false]
      unfold neighborsRecv
      cases ht : packetTypeAt r.data with
      | none => exact sends_assert false
      | some t =>
        cases t with
        | bestPathUpdate => exact sends_withSender fun i => sends_bestPathUpdateRecv i _
        | initializeBestPaths => exact (Sends.call s _).trans sends_initHandler
        | keepAliveNeighbor => exact sends_withSender fun i => .of_calls rfl
        | nodeInfo => exact sends_withSender fun i => sends_nodeInfoRecv i _ _
        | resetSystem => exact (Sends.call s _).trans sends_resetSystem
        | _ => exact sends_assert false

/-- **`ec_mc_uc_recv` sends nothing.** -/
theorem sends_mcUcRecv (r : RecvArgs) :
    Sends (s.forwarded .multicastUnicastRecv r).toList s (ecMcUcRecv r s) := by
  have hnone : s.forwarded .multicastUnicastRecv r = none := by
    unfold forwarded
    simp only
    split <;> rfl
  rw [hnone, ecMcUcRecv]
  split
  · exact sends_addNeighbors _ s
  · exact sends_assert false

end Node

end EmergencyNet
