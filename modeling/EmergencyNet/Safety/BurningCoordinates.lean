import EmergencyNet.App.Traffic
import EmergencyNet.Lib.LastWord

/-!
# The coordinates a node takes for burning

A node hears of fires from the packets of others and from its own sensor, and keeps at most
`MAX_FIRE_COORDINATES` coordinates.  Its list holds no coordinate twice and only coordinates that
burn by the last news of them; and as long as the news have been of no more coordinates than
there is room for, it holds them all.

## Main definitions

* `Node.told` — what an event tells a node of a fire.
* `Informed`, `informedMachine` — a node and the news it has had.

## Main results

* `Node.emergencyCoords_step` — what an event does to the list.
* `burning_of_reachable` — **the list says what the news said last.**
-/

namespace EmergencyNet

namespace Node

variable {s : Node} {ev : AppEvent}

/-! ### The news -/

/-- What an event tells a node of a fire: the coordinate, and whether it burns. -/
def told (s : Node) : AppEvent → Option (Coordinate × Bool)
  | .broadcastRecv r =>
    if s.ignoredInResetMode r || s.state.isSinkNode then none
    else match FloodPacket.read r.data with
      | some (.emergency coord) => some (coord, true)
      | some (.antiEmergency coord) => some (coord, false)
      | _ => none
  | .emergencyCheck light =>
    if (¬ s.state.isAwaitingSetupPacket ∨ ¬ s.state.isSinkNode) ∧
        s.abruptMetricChangePoll light then
      if isEmergency light then
        if s.bpn ≠ .null ∧ ¬ s.state.isBurning then some (s.coordinateNode, true) else none
      else if s.state.isBlinking ∧ s.state.isBurning then some (s.coordinateNode, false) else none
    else none
  | _ => none

/-- The list after the news. -/
def afterNews (s : Node) (p : Option (Coordinate × Bool)) : List Coordinate :=
  p.elim s.emergencyCoords (noted maxFireCoordinates s.emergencyCoords)

theorem emergencyCoords_addCoordinate (coord : Coordinate) :
    (addCoordinateAsBurning coord s).emergencyCoords =
      noted maxFireCoordinates s.emergencyCoords (coord, true) := by
  unfold addCoordinateAsBurning
  rw [noted_eq_ite]
  split <;> rfl

/-! ### What leaves the list alone -/

/-- Deeds of an event that says nothing of fires leave the list alone. -/
theorem emergencyCoords_of_deeds {s t : Node} (h : Deeds ev s t)
    (hno : ∀ u coord, ¬ ev.Alarms u coord ∧ ¬ ev.Clears u coord) :
    t.emergencyCoords = s.emergencyCoords := by
  induction h with
  | refl => rfl
  | @tail t u _ hdeed ih =>
    refine Eq.trans ?_ ih
    cases hdeed with
    | quiet h => exact h.emergencyCoords
    | adds h => exact absurd h (hno t _).1
    | removes h => exact absurd h (hno t _).2
    | announces | floods | passes | reports | blinks => rfl

@[simp] theorem emergencyCoords_blinkingUpdate :
    s.blinkingUpdate.emergencyCoords = s.emergencyCoords := by
  have hquiet : Quiet .timesynched s s.blinkingUpdate := quiet_blinkingUpdate
  exact hquiet.emergencyCoords

theorem emergencyCoords_blinkingInit : s.blinkingInit.emergencyCoords = s.emergencyCoords := by
  unfold blinkingInit
  split
  · rfl
  · exact emergencyCoords_blinkingUpdate

/-! ### What an event does to the list -/

theorem emergencyCoords_broadcastRecv (r : RecvArgs) :
    (ecBroadcastsRecv r s).emergencyCoords = s.afterNews (s.told (.broadcastRecv r)) := by
  -- whatever packet is not one of a fire says nothing of one
  have hother : (∀ coord, FloodPacket.read r.data ≠ some (.emergency coord) ∧
      FloodPacket.read r.data ≠ some (.antiEmergency coord)) →
        (ecBroadcastsRecv r s).emergencyCoords = s.emergencyCoords := fun hno => by
    have hdeeds : Deeds (.broadcastRecv r) s (ecBroadcastsRecv r s) :=
      deeds_ecBroadcastsRecv rfl (.inl rfl)
    exact emergencyCoords_of_deeds hdeeds fun _ coord => hno coord
  unfold told
  simp only
  split
  · next hignored =>
    -- the sink prints what it hears, and in reset mode nothing is heard
    change (ecBroadcastsRecv r s).emergencyCoords = s.emergencyCoords
    unfold ecBroadcastsRecv
    cases hig : s.ignoredInResetMode r with
    | true => rfl
    | false =>
      have hsink : s.state.isSinkNode = true := by simpa [hig] using hignored
      rw [if_neg Bool.false_ne_true, if_pos hsink]
      unfold sinkBroadcastsRecv
      split <;> rfl
  · next hlistens =>
    rw [Bool.or_eq_true, not_or, Bool.not_eq_true, Bool.not_eq_true] at hlistens
    have hrecv : ecBroadcastsRecv r s = sensorBroadcastsRecv r s := by
      rw [ecBroadcastsRecv, hlistens.1, hlistens.2]
      rfl
    split
    · next coord hread =>
      obtain ⟨htype, hcoord⟩ : packetTypeAt r.data = some .emergency ∧
          coordinateAt r.data 1 = coord := by
        unfold FloodPacket.read at hread
        split at hread <;> simp_all
      rw [hrecv, sensorBroadcastsRecv, htype, ← hcoord]
      exact emergencyCoords_blinkingInit.trans (emergencyCoords_addCoordinate _)
    · next coord hread =>
      obtain ⟨htype, hcoord⟩ : packetTypeAt r.data = some .antiEmergency ∧
          coordinateAt r.data 1 = coord := by
        unfold FloodPacket.read at hread
        split at hread <;> simp_all
      rw [hrecv, sensorBroadcastsRecv, htype, ← hcoord]
      rfl
    · next hfire hend => exact hother fun coord => ⟨hfire coord, hend coord⟩

@[simp] theorem emergencyCoords_broadcastBestPath :
    s.broadcastBestPath.emergencyCoords = s.emergencyCoords := rfl

@[simp] theorem emergencyCoords_broadcastOwn (data : List UInt8) :
    (s.broadcastOwn data).emergencyCoords = s.emergencyCoords := rfl

@[simp] theorem emergencyCoords_call (c : EcCall) :
    (s.call c).emergencyCoords = s.emergencyCoords := rfl

theorem emergencyCoords_startBurning :
    s.startBurning.emergencyCoords = noted maxFireCoordinates s.emergencyCoords
      (s.coordinateNode, true) := by
  have hlight : (blinkingInit (setBurning true s)).emergencyCoords = s.emergencyCoords :=
    emergencyCoords_blinkingInit
  have hcoord : (blinkingInit (setBurning true s)).coordinateNode = s.coordinateNode :=
    sameRoute_blinkingInit.coordinateNode
  unfold startBurning sendEmergencyPacket
  simp only [emergencyCoords_broadcastBestPath, emergencyCoords_call, emergencyCoords_broadcastOwn]
  rw [emergencyCoords_addCoordinate, hlight, hcoord]

theorem emergencyCoords_stopBurning :
    s.stopBurning.emergencyCoords = noted maxFireCoordinates s.emergencyCoords
      (s.coordinateNode, false) := by
  unfold stopBurning sendAntiEmergencyPacket
  simp only [emergencyCoords_blinkingUpdate, emergencyCoords_broadcastOwn]
  rfl

theorem emergencyCoords_emergencyCheck (light : UInt16) :
    (emergencyCheck light s).emergencyCoords = s.afterNews (s.told (.emergencyCheck light)) := by
  unfold emergencyCheck told
  simp only
  by_cases hon : ¬ s.state.isAwaitingSetupPacket ∨ ¬ s.state.isSinkNode
  swap
  · rw [if_neg hon, if_neg fun h => hon h.1]
    rfl
  by_cases habrupt : s.abruptMetricChangePoll light = true
  swap
  · rw [if_pos hon, if_neg habrupt, if_neg fun h => habrupt h.2]
    rfl
  rw [if_pos hon, if_pos habrupt, if_pos ⟨hon, habrupt⟩]
  unfold abruptReading
  simp only
  split
  · by_cases hstart : s.bpn ≠ .null ∧ ¬ s.state.isBurning = true
    · rw [if_pos hstart, if_pos hstart]
      exact emergencyCoords_startBurning (s := s.sensed light)
    · rw [if_neg hstart, if_neg hstart]
      rfl
  · by_cases hblink : s.state.isBlinking = true
    swap
    · rw [if_neg hblink, if_neg fun h => hblink h.1]
      rfl
    rw [if_pos hblink, emergencyCoords_broadcastBestPath]
    by_cases hburn : s.state.isBurning = true
    · rw [if_pos hburn, if_pos ⟨hblink, hburn⟩]
      exact emergencyCoords_stopBurning (s := s.sensed light)
    · rw [if_neg hburn, if_neg fun h => hburn h.2]
      rfl

/-- **What an event does to the list**: it takes in what the event tells. -/
theorem emergencyCoords_step (e : AppEvent × ClockReading) :
    (s.step e).emergencyCoords = s.afterNews (s.told e.1) := by
  obtain ⟨ev, c⟩ := e
  have hother : (∀ u coord, ¬ ev.Alarms u coord ∧ ¬ ev.Clears u coord) →
      (s.step (ev, c)).emergencyCoords = s.emergencyCoords := fun hno => by
    have hdeeds : Deeds ev (s.wake c) (s.step (ev, c)) := deeds_step s (ev, c)
    have hsame := emergencyCoords_of_deeds hdeeds hno
    exact hsame
  cases ev with
  | broadcastRecv r => exact emergencyCoords_broadcastRecv (s := s.wake c) r
  | emergencyCheck light => exact emergencyCoords_emergencyCheck (s := s.wake c) light
  | neighborRecv | mcUcRecv | timesynched | button | serial | keepaliveSend | keepaliveCheck =>
    exact hother fun _ _ => ⟨id, id⟩

end Node

/-! ### Runs -/

/-- A node and the news of fires it has had since it powered up, newest first. -/
structure Informed where
  node : Node
  news : List (Coordinate × Bool)

/-- A node with its news as a transition system. -/
def informedMachine : Machine Informed (AppEvent × ClockReading) where
  init I := nodeMachine.init I.node ∧ I.news = []
  step e I I' := nodeMachine.step e I.node I'.node ∧ I'.news = (I.node.told e.1).toList ++ I.news

theorem emergencyCoords_resetNodeProperties (addr : Rimeaddr) (flash : Option (List UInt8)) :
    (Node.resetNodeProperties addr flash).emergencyCoords = [] := by
  cases flash with
  | none => rfl
  | some f =>
    have hre : (AppEvent.serial .sink).Reconfigures := trivial
    exact (Node.quiet_setupParse hre (memRead f Node.setupBufferSize) true
      (Node.zero addr (some f))).emergencyCoords

/-- **A node's list of burning coordinates says what the news said last**: it holds at most
`MAX_FIRE_COORDINATES` coordinates, none twice, each of which burns by the last news of it; and
all that do, as long as the news were of no more coordinates than there is room for. -/
theorem burning_of_reachable {I : Informed} (h : informedMachine.Reachable I) :
    I.node.emergencyCoords.Nodup ∧ I.node.emergencyCoords.length ≤ Node.maxFireCoordinates ∧
      (∀ coord ∈ I.node.emergencyCoords, lastWord coord I.news = some true) ∧
      ((I.news.map Prod.fst).toFinset.card ≤ Node.maxFireCoordinates →
        ∀ coord, lastWord coord I.news = some true → coord ∈ I.node.emergencyCoords) := by
  have hreflects : Reflects Node.maxFireCoordinates I.node.emergencyCoords I.news := by
    refine h.invariant
      (I := fun I => Reflects Node.maxFireCoordinates I.node.emergencyCoords I.news) ?_ ?_
    · rintro I ⟨⟨addr, flash, hnode, -⟩, hnews⟩
      rw [hnode, hnews, emergencyCoords_resetNodeProperties]
      exact reflects_nil
    · rintro I e I' hI - ⟨⟨-, hnode, -⟩, hnews⟩
      rw [hnode, hnews, Node.emergencyCoords_step]
      cases I.node.told e.1 with
      | none => exact hI
      | some p => exact hI.noted p
  exact ⟨hreflects.nodup, hreflects.le, hreflects.sound, hreflects.complete⟩

/-! ### An exit that hears of two fires -/

namespace Informed

/-- One event, `none` when it cannot occur or an assertion fails. -/
def advance (e : AppEvent × ClockReading) (I : Informed) : Option Informed :=
  (I.node.advance e).map fun t => ⟨t, (I.node.told e.1).toList ++ I.news⟩

theorem step_of_advance {e : AppEvent × ClockReading} {I I' : Informed}
    (h : I.advance e = some I') : informedMachine.step e I I' := by
  obtain ⟨t, ht, rfl⟩ := Option.map_eq_some_iff.mp h
  exact ⟨nodeMachine_step_of_advance ht, rfl⟩

/-- A node that has just powered up. -/
def poweredUp : Informed := ⟨Node.resetNodeProperties ⟨1, 0⟩ none, []⟩

/-- The coordinate `x`, `0`. -/
def onAxis (x : UInt8) : Coordinate := ⟨⟨0, x⟩, ⟨0, 0⟩⟩

/-- Node `2.0` floods packet `q`, a fire at `x` or its end. -/
def hears (t : PacketType) (q x : UInt8) : AppEvent × ClockReading :=
  (.broadcastRecv ⟨⟨2, 0⟩, ⟨2, 0⟩, 0, q, Node.emergencyBytes t (onAxis x), 5⟩, ⟨0, 0⟩)

/-- An exit is set up and initialised, hears of two fires, and that one is over. -/
def oneIsOver : List (AppEvent × ClockReading) :=
  [(.serial (.simulationSetup ⟨⟨1, 0⟩, default, 1, [⟨2, 0⟩]⟩), ⟨0, 0⟩), (.serial .init, ⟨0, 0⟩),
    hears .emergency 0 3, hears .emergency 1 4, hears .antiEmergency 2 3]

/-- The fire that is not over is left. -/
theorem burning_oneIsOver : ∃ I, informedMachine.Reachable I ∧
    I.node.emergencyCoords = [onAxis 4] ∧ I.news.length = 3 ∧
      lastWord (onAxis 4) I.news = some true := by
  have h : ((Machine.run advance oneIsOver poweredUp).map fun I =>
      (I.node.emergencyCoords, I.news.length)) = some ([onAxis 4], 3) := by decide +kernel
  obtain ⟨I, hrun, hI⟩ := Option.map_eq_some_iff.mp h
  obtain ⟨hcoords, hlength⟩ := Prod.mk.inj hI
  have hinit : informedMachine.init poweredUp :=
    ⟨⟨⟨1, 0⟩, none, rfl, fun _ hb => absurd hb List.not_mem_nil⟩, rfl⟩
  have hreach : informedMachine.Reachable I :=
    Machine.Reachable.of_run (fun _ _ _ => step_of_advance) oneIsOver (.init hinit) hrun
  obtain ⟨-, -, hsound, -⟩ := burning_of_reachable hreach
  exact ⟨I, hreach, hcoords, hlength, hsound _ (by rw [hcoords]; exact List.mem_cons_self)⟩

end Informed

end EmergencyNet
