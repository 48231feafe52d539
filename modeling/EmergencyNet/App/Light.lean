import EmergencyNet.App.Events

/-!
# The light of a node without a best neighbour

Only `blinking_init` turns the light on, and it goes on to `blinking_update`, which asserts
that there is a best neighbour unless the node burns.  A node that has not heard of its
neighbours yet therefore does not blink, and the keep-alive timers do nothing at it.

## Main results

* `Node.isBlinking_step` — **a node stays dark until it has a best neighbour.**
-/

namespace EmergencyNet

namespace Node

variable {s : Node}

/-- A node that neither blinks nor burns and has no best neighbour. -/
structure Dark (s : Node) : Prop where
  bpn : s.bpn = .null
  isBurning : s.state.isBurning = false
  isBlinking : s.state.isBlinking = false

/-- The light of such a node is not turned on: `blinking_update` asserts that there is a
best neighbour. -/
theorem not_completes_blinkingInit (h : Dark s) : ¬ Completes s.blinkingInit.calls := by
  intro hc
  have hmem : Effect.assert false ∈ s.blinkingInit.calls := by
    simp [blinkingInit, blinkingUpdate, h.bpn, h.isBurning, h.isBlinking, assert]
  exact absurd (hc _ hmem) Bool.false_ne_true

theorem state_blinkingUpdate : s.blinkingUpdate.state = s.state := by
  unfold blinkingUpdate
  split <;> rfl

theorem state_addNeighbors (l : List Rimeaddr) (s : Node) : (addNeighbors l s).state = s.state := by
  obtain ⟨calls, heq, -⟩ := addNeighbors_eq l s
  rw [heq]

theorem isBlinking_setupParse (m : List UInt8) (b : Bool) (s : Node) :
    (setupParse m b s).state.isBlinking = false := by
  unfold setupParse setupFinished
  simp only
  split
  · rw [becomeExitNode, state_addNeighbors]; rfl
  · rw [state_addNeighbors]; rfl

theorem state_updateBpn (p : NeighborPtr) (s : Node) :
    (s.updateBpnAndBroadcastNewPathIfChanged p).1.state = s.state := by
  unfold updateBpnAndBroadcastNewPathIfChanged
  simp only
  split
  · rfl
  · split <;> rfl

theorem isBlinking_initHandler (s : Node) :
    s.initializeBestPathPacketHandler.state.isBlinking = s.state.isBlinking := by
  unfold initializeBestPathPacketHandler
  simp only
  split <;> rfl

theorem isBlinking_resetSystem (h : s.state.isBlinking = false) :
    s.resetSystemPacketHandler.state.isBlinking = false := by
  unfold resetSystemPacketHandler
  cases s.flash with
  | none => exact h
  | some f => exact isBlinking_setupParse _ true s

theorem isBlinking_ecBroadcastsRecv (r : RecvArgs) (h : Dark s)
    (hc : Completes (ecBroadcastsRecv r s).calls) :
    (ecBroadcastsRecv r s).state.isBlinking = false := by
  unfold ecBroadcastsRecv at hc ⊢
  split
  · exact h.isBlinking
  · next hi =>
    rw [if_neg hi] at hc
    split
    · unfold sinkBroadcastsRecv
      split <;> exact h.isBlinking
    · next hsink =>
      rw [if_neg hsink] at hc
      unfold sensorBroadcastsRecv at hc ⊢
      split at hc
      · -- an emergency would turn the light on
        have hroute : SameRoute s ((addCoordinateAsBurning (coordinateAt r.data 1) s).broadcast
            r.originator (r.hops + 1) r.seqno r.payload) :=
          (sameRoute_addCoordinateAsBurning _).trans (sameRoute_broadcast ..)
        have hblink : (addCoordinateAsBurning (coordinateAt r.data 1) s).state = s.state := by
          unfold addCoordinateAsBurning
          split <;> rfl
        refine absurd hc (not_completes_blinkingInit ⟨hroute.bpn.trans h.bpn,
          hroute.isBurning.trans h.isBurning, ?_⟩)
        exact (congrArg NodeState.isBlinking hblink).trans h.isBlinking
      · exact h.isBlinking
      · split
        · exact isBlinking_setupParse ..
        · exact h.isBlinking
      · exact (isBlinking_initHandler _).trans h.isBlinking
      · exact h.isBlinking
      · exact isBlinking_resetSystem (s := s.reliableBroadcastNs ..) h.isBlinking
      · exact h.isBlinking

theorem isBlinking_ecNeighborsRecv (r : RecvArgs) (h : s.state.isBlinking = false) :
    (ecNeighborsRecv r s).state.isBlinking = false := by
  unfold ecNeighborsRecv
  split
  · exact h
  · split
    · exact h
    · unfold neighborsRecv withSender
      split
      · split
        · unfold bestPathUpdateRecv
          simp only
          split
          · rw [state_blinkingUpdate, state_updateBpn]; exact h
          · rw [state_updateBpn]; exact h
        · exact h
      · exact (isBlinking_initHandler _).trans h
      · split <;> exact h
      · split
        · unfold nodeInfoRecv
          simp only
          split
          · split
            · exact h
            · rw [state_updateBpn]; exact h
          · exact h
        · exact h
      · exact isBlinking_resetSystem (s := s.reliableBroadcastNs ..) h
      · exact h

/-- **A node stays dark until it has a best neighbour.** -/
theorem isBlinking_step {ev : AppEvent × ClockReading} (h : Dark s)
    (hc : Completes (s.step ev).calls) : (s.step ev).state.isBlinking = false := by
  obtain ⟨ev, c⟩ := ev
  have hw : Dark (s.wake c) := ⟨h.bpn, h.isBurning, h.isBlinking⟩
  change Completes (handle ev (s.wake c)).calls at hc
  change (handle ev (s.wake c)).state.isBlinking = false
  generalize s.wake c = t at hc hw
  cases ev with
  | broadcastRecv r => exact isBlinking_ecBroadcastsRecv r hw hc
  | neighborRecv r => exact isBlinking_ecNeighborsRecv r hw.isBlinking
  | mcUcRecv r =>
    unfold handle ecMcUcRecv
    simp only
    split
    · rw [state_addNeighbors]; exact hw.isBlinking
    · exact hw.isBlinking
  | timesynched => exact (congrArg NodeState.isBlinking state_blinkingUpdate).trans hw.isBlinking
  | button => exact hw.isBlinking
  | serial c =>
    cases c with
    | simulationSetup sp => exact isBlinking_setupParse ..
    | init => exact isBlinking_ecBroadcastsRecv _ hw hc
    | sink => exact isBlinking_setupParse ..
    | sendInitPacket => exact hw.isBlinking
    | resetSystemPacket => exact hw.isBlinking
    | extractReportPacket => exact hw.isBlinking
    | sendSetupPacket sp => exact hw.isBlinking
  | emergencyCheck light =>
    unfold handle emergencyCheck abruptReading
    simp only [hw.bpn, hw.isBlinking]
    -- without a best neighbour a fire does not make the node blink
    split
    · split
      · split <;> exact hw.isBlinking
      · exact hw.isBlinking
    · exact hw.isBlinking
  | keepaliveSend =>
    change t.keepaliveSend.state.isBlinking = false
    unfold keepaliveSend
    rw [if_neg (by simp [hw.isBlinking])]
    exact hw.isBlinking
  | keepaliveCheck =>
    change t.keepaliveCheck.state.isBlinking = false
    unfold keepaliveCheck
    rw [if_neg (by simp [hw.isBlinking])]
    exact hw.isBlinking

end Node

end EmergencyNet
