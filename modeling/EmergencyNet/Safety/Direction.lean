import EmergencyNet.App.Light
import EmergencyNet.Routing.Freshness
import EmergencyNet.Safety.BestPointer
import Mathlib.Data.List.Infix

/-!
# A blinking node has a direction

The light of a node that blinks and does not burn shows the way to its best neighbour, so
`blink` and `blinking_update` assert that there is one.  An emergency turns the light on
whether there is one or not, and the keep-alive check can remove the last one while the
light blinks.

## Main definitions

* `Node.blink` — the callback of the real-time timer.
* `Node.blinkingUpdateAt` — where the code for an event runs `blinking_update`.
* `Node.HasDirection` — what the two functions assert.

## Main results

* `Node.blinkingUpdate_prefix` — the call of `blinking_update` is part of the event.
* `Node.hasDirection_of_reachable` — **in a guarded run the assertions hold.**
* `Node.not_hasDirection_emergency` — an emergency before the first path makes one fail.
-/

namespace EmergencyNet

namespace Node

variable {s t s' : Node}

/-! ### Where the light is looked at -/

/-- `blink`, up to the light itself. -/
def blink (s : Node) : Node :=
  if s.state.isBlinking ∧ ¬ s.state.isBurning then
    { s.assert (s.bpn ≠ .null) with
      blinking :=
        { nextWakeup := s.blinking.nextWakeup + blinkingSequenceSwitchTime
          state := (s.blinking.state + 1) % blinkingSequenceLength } }
  else s

/-- A node that blinks and does not burn has a best neighbour. -/
def HasDirection (s : Node) : Prop :=
  s.state.isBlinking = true → s.state.isBurning = false → s.bpn ≠ .null

instance (s : Node) : Decidable s.HasDirection := by unfold HasDirection; infer_instance

/-- The state `t` if `on`. -/
def onlyIf (on : Bool) (t : Node) : Option Node := if on then some t else none

/-- The state in which the code that handles the event runs `blinking_update`, if it does. -/
def blinkingUpdateAt (s : Node) : AppEvent → Option Node
  | .broadcastRecv r =>
    let t := (addCoordinateAsBurning (coordinateAt r.data 1) s).broadcast
      r.originator (r.hops + 1) r.seqno r.payload
    onlyIf (decide s.Listens && packetTypeAt r.data == some .emergency && !s.state.isBlinking)
      { t with state := { t.state with isBlinking := true } }
  | .neighborRecv r =>
    (neighborsFindNeighborNode s.ns r.sender).bind fun i =>
      let u := updateBpnAndBroadcastNewPathIfChanged (.slot i)
        (s.pathWritten i (.bestPathUpdate (bestPathAt r.data 1)))
      onlyIf (decide s.Listens && packetTypeAt r.data == some .bestPathUpdate && u.2) u.1
  | .timesynched => some s
  | .emergencyCheck light =>
    if (¬ s.state.isAwaitingSetupPacket ∨ ¬ s.state.isSinkNode) ∧ s.abruptMetricChangePoll light then
      if isEmergency light then
        let t := setBurning true (s.sensed light)
        onlyIf (decide (s.bpn ≠ .null) && !s.state.isBurning && !s.state.isBlinking)
          { t with state := { t.state with isBlinking := true } }
      else
        onlyIf (s.state.isBlinking && s.state.isBurning) (sendAntiEmergencyPacket
          (removeCoordinateAsBurning s.coordinateNode (setBurning false (s.sensed light))))
    else none
  | .keepaliveCheck =>
    let u := updateBpnAndBroadcastNewPathIfChanged .null s.dropSilent
    onlyIf (s.state.isBlinking && s.sweep.needBroadcastNewPath && u.2) u.1
  | _ => none

theorem onlyIf_eq_some {on : Bool} {u : Node} : onlyIf on u = some t ↔ on = true ∧ t = u := by
  unfold onlyIf
  split <;> simp_all [eq_comm]

theorem calls_broadcastBestPath_prefix : s.calls <+: s.broadcastBestPath.calls := by
  rw [broadcastBestPath, reliableBroadcastOwn]
  change s.calls <+: (s.assert _).calls ++ _
  rw [calls_assert, List.append_assoc]
  exact List.prefix_append _ _

/-- **The call of `blinking_update` is part of the event.** -/
theorem blinkingUpdate_prefix {ev : AppEvent} (h : s.blinkingUpdateAt ev = some t) :
    t.blinkingUpdate.calls <+: (handle ev s).calls := by
  cases ev with
  | broadcastRecv r =>
    simp only [blinkingUpdateAt, onlyIf_eq_some, Bool.and_eq_true, decide_eq_true_eq, beq_iff_eq,
      Bool.not_eq_true'] at h
    obtain ⟨⟨⟨⟨hreset, hsink⟩, ht⟩, hblink⟩, rfl⟩ := h
    have hstate : (addCoordinateAsBurning (coordinateAt r.data 1) s).state = s.state := by
      unfold addCoordinateAsBurning
      split <;> rfl
    have hdark : ((addCoordinateAsBurning (coordinateAt r.data 1) s).broadcast
        r.originator (r.hops + 1) r.seqno r.payload).state.isBlinking = false :=
      (congrArg NodeState.isBlinking hstate).trans hblink
    -- a node that did not blink starts to, and `blinking_update` is the last thing it does
    have hhandle : handle (.broadcastRecv r) s =
        blinkingInit ((addCoordinateAsBurning (coordinateAt r.data 1) s).broadcast
          r.originator (r.hops + 1) r.seqno r.payload) := by
      simp [handle, ecBroadcastsRecv, ignoredInResetMode, hreset, hsink, sensorBroadcastsRecv, ht]
    rw [hhandle, blinkingInit, if_neg (by rw [hdark]; exact Bool.false_ne_true)]
  | neighborRecv r =>
    obtain ⟨i, hi, h⟩ := Option.bind_eq_some_iff.mp h
    simp only [onlyIf_eq_some, Bool.and_eq_true, decide_eq_true_eq, beq_iff_eq] at h
    obtain ⟨⟨⟨⟨hreset, hsink⟩, ht⟩, hswitched⟩, rfl⟩ := h
    have hhandle : handle (.neighborRecv r) s = bestPathUpdateRecv i (bestPathAt r.data 1) s := by
      simp [handle, ecNeighborsRecv, ignoredInResetMode, hreset, hsink, neighborsRecv, ht,
        withSender, hi]
    rw [hhandle]
    change _ <+: (if (updateBpnAndBroadcastNewPathIfChanged (.slot i)
      (s.pathWritten i (.bestPathUpdate (bestPathAt r.data 1)))).2 then _ else _ : Node).calls
    rw [if_pos hswitched]
    exact List.prefix_rfl
  | timesynched =>
    cases h
    exact List.prefix_rfl
  | emergencyCheck light =>
    unfold blinkingUpdateAt at h
    simp only at h
    split at h
    swap
    · cases h
    next hon =>
    have hhandle : handle (.emergencyCheck light) s = abruptReading light s := by
      simp only [handle, emergencyCheck, if_pos hon.1, hon.2, if_true]
    rw [hhandle, abruptReading]
    cases hem : isEmergency light with
    | true =>
      rw [hem, if_pos rfl, onlyIf_eq_some] at h
      simp only [Bool.and_eq_true, decide_eq_true_eq, Bool.not_eq_true'] at h
      obtain ⟨⟨⟨hbpn, hburn⟩, hblink⟩, rfl⟩ := h
      simp only [if_true]
      rw [if_pos ⟨hbpn, by simp [hburn]⟩]
      change _ <+: ((sendEmergencyPacket (addCoordinateAsBurning _ (blinkingInit
        (setBurning true (s.sensed light))))).call .timesynchNetwork).broadcastBestPath.calls
      -- the emergency packet and the path are sent after the update
      refine List.IsPrefix.trans ?_ calls_broadcastBestPath_prefix
      have hinit : blinkingInit (setBurning true (s.sensed light)) = blinkingUpdate
          { setBurning true (s.sensed light) with
            state := { (setBurning true (s.sensed light)).state with isBlinking := true } } :=
        if_neg (by change ¬ s.state.isBlinking = true; simp [hblink])
      rw [calls_call, hinit]
      change _ <+: (addCoordinateAsBurning _ (blinkingUpdate _)).calls ++ _ ++ _
      rw [calls_addCoordinateAsBurning, List.append_assoc]
      exact List.prefix_append _ _
    | false =>
      rw [hem, if_neg Bool.false_ne_true, onlyIf_eq_some, Bool.and_eq_true] at h
      obtain ⟨⟨hblink, hburn⟩, rfl⟩ := h
      simp only [Bool.false_eq_true, if_false]
      rw [if_pos hblink, if_pos hburn]
      exact calls_broadcastBestPath_prefix (s := stopBurning (s.sensed light))
  | keepaliveCheck =>
    simp only [blinkingUpdateAt, onlyIf_eq_some, Bool.and_eq_true] at h
    obtain ⟨⟨⟨hblink, hneed⟩, hswitched⟩, rfl⟩ := h
    have hhandle : handle .keepaliveCheck s =
        blinkingUpdate (updateBpnAndBroadcastNewPathIfChanged .null s.dropSilent).1 := by
      simp only [handle, keepaliveCheck, hblink, hneed, hswitched, if_true]
    rw [hhandle]
  | _ => cases h

/-! ### The invariant -/

/-- The condition on an event under which the light keeps its direction: an emergency that
turns it on finds a best neighbour, and a keep-alive check of a blinking node does not remove
the only entry when that is the best neighbour's. -/
def DirectionGuard (s : Node) (e : AppEvent × ClockReading) : Prop :=
  match e.1 with
  | .broadcastRecv r => packetTypeAt r.data = some .emergency → s.Listens →
      s.state.isBlinking = false → s.bpn ≠ .null
  | .keepaliveCheck => s.state.isBlinking = true → s.KeepsLast
  | _ => True

instance (s : Node) (e : AppEvent × ClockReading) : Decidable (s.DirectionGuard e) := by
  obtain ⟨ev, c⟩ := e
  rcases ev <;> unfold DirectionGuard <;> infer_instance

/-- A node that blinks has a best neighbour, and a node that burns blinks. -/
structure Directed (s : Node) : Prop where
  bpn : s.state.isBlinking = true → s.bpn ≠ .null
  burns : BurnsBlinking s

theorem Directed.hasDirection (h : Directed s) : HasDirection s := fun hblink _ => h.bpn hblink

/-- A keep-alive check that does not remove the last entry leaves a best neighbour, or makes
the node look for one. -/
theorem sweep_bpn_ne_null (hbpn : s.bpn ≠ .null) (hlast : s.KeepsLast)
    (hneed : s.sweep.needBroadcastNewPath = false) : s.sweep.bpn ≠ .null := by
  rcases s.sweep_cases with hsame | ⟨i, hused, hsilent, -, -, hsweep⟩ | ⟨hyes, -⟩
  · rw [hsame]
    exact hbpn
  · have hne : s.bpn ≠ .slot i := by
      intro hi
      have hkeep := hlast i hi hused
      exact Bool.noConfusion (hkeep.symm.trans hsilent)
    rw [hsweep, if_neg hne]
    exact hbpn
  · exact absurd (hneed.symm.trans hyes) Bool.false_ne_true

/-- A node that has a best neighbour keeps one. -/
theorem bpn_ne_null_outcome {e : AppEvent × ClockReading} {ads : List PathPacket}
    (hbpn : s.bpn ≠ .null) (hg : s.DirectionGuard e) (ho : Outcome s e.1 s' ads) :
    s'.bpn ≠ .null := by
  obtain ⟨ev, c⟩ := e
  cases ho with
  | quiet hr => exact hr.bpn ▸ hbpn
  | configured _ h => exact h.bpn ▸ hbpn
  | resetMode _ hr _ => exact hr.bpn ▸ hbpn
  | newNeighbor _ hr => exact hr.bpn ▸ hbpn
  | keepAlive _ hr => exact hr.bpn ▸ hbpn
  | initialized _ _ _ hr => exact hr.bpn ▸ findBest_ne_null
  | path _ _ _ hpath =>
    cases hpath with
    | first _ _ hr => exact hr.bpn ▸ findBest_ne_null
    | switched _ _ hr => exact hr.bpn ▸ findBest_ne_null
    | kept _ _ hr => exact hr.bpn ▸ hbpn
  | sensed _ _ hr => exact hr.bpn ▸ hbpn
  | sensedSent _ _ _ hr _ => exact hr.bpn ▸ hbpn
  | dropped hblink hsw hr =>
    rw [hr.bpn]
    change s.sweep.bpn ≠ .null
    cases hneed : s.sweep.needBroadcastNewPath with
    | false => exact sweep_bpn_ne_null hbpn (hg hblink) hneed
    | true => exact fun hnull => hsw hneed (.inl hnull)
  | droppedSwitched _ _ _ hr => exact hr.bpn ▸ findBest_ne_null

theorem Directed.step {e : AppEvent × ClockReading} (h : Directed s) (hg : s.DirectionGuard e)
    (hc : Completes (s.step e).calls) : Directed (s.step e) := by
  have ho := outcome_step hc
  refine ⟨fun hblink => ?_, h.burns.outcome ho⟩
  by_cases hbpn : s.bpn = .null
  · -- a node without a best neighbour is dark and stays so
    have hnot : s.state.isBlinking = false := by
      cases hb : s.state.isBlinking with
      | false => rfl
      | true => exact absurd hbpn (h.bpn hb)
    have hburn : s.state.isBurning = false := by
      cases hb : s.state.isBurning with
      | false => rfl
      | true => exact absurd hbpn (h.bpn (h.burns hb))
    have hdark := isBlinking_step ⟨hbpn, hburn, hnot⟩ hc
    exact absurd (hdark.symm.trans hblink) Bool.false_ne_true
  · exact bpn_ne_null_outcome hbpn hg ho

/-- What `blinking_update` finds when the code for a guarded event runs it. -/
theorem Directed.blinkingUpdateAt {ev : AppEvent} {c : ClockReading} (h : Directed s)
    (hg : s.DirectionGuard (ev, c)) (ht : s.blinkingUpdateAt ev = some t) : HasDirection t := by
  have hupdated : ∀ {p : NeighborPtr} {u : Node}, (u.updateBpnAndBroadcastNewPathIfChanged p).2 = true →
      (u.updateBpnAndBroadcastNewPathIfChanged p).1.bpn ≠ .null := by
    intro p u htrue
    obtain ⟨-, -, hr, -⟩ | ⟨-, hfalse, -⟩ := updateBpn_cases p u
    · rw [hr.bpn]
      exact findBest_ne_null
    · exact absurd (hfalse.symm.trans htrue) Bool.false_ne_true
  cases ev with
  | broadcastRecv r =>
    simp only [Node.blinkingUpdateAt, onlyIf_eq_some, Bool.and_eq_true, decide_eq_true_eq,
      beq_iff_eq, Bool.not_eq_true'] at ht
    obtain ⟨⟨⟨hlisten, htype⟩, hblink⟩, rfl⟩ := ht
    intro _ _
    have hroute : SameRoute s (addCoordinateAsBurning (coordinateAt r.data 1) s) :=
      sameRoute_addCoordinateAsBurning _
    exact hroute.bpn ▸ hg htype hlisten hblink
  | neighborRecv r =>
    obtain ⟨i, -, ht⟩ := Option.bind_eq_some_iff.mp ht
    simp only [onlyIf_eq_some, Bool.and_eq_true] at ht
    obtain ⟨⟨-, hswitched⟩, rfl⟩ := ht
    exact fun _ _ => hupdated hswitched
  | timesynched =>
    cases ht
    exact h.hasDirection
  | emergencyCheck light =>
    unfold Node.blinkingUpdateAt at ht
    simp only at ht
    split at ht
    swap
    · cases ht
    split at ht
    · obtain ⟨-, rfl⟩ := onlyIf_eq_some.mp ht
      exact fun _ hburn => absurd hburn Bool.noConfusion
    · obtain ⟨hon, rfl⟩ := onlyIf_eq_some.mp ht
      rw [Bool.and_eq_true] at hon
      exact fun _ _ => h.bpn hon.1
  | keepaliveCheck =>
    simp only [Node.blinkingUpdateAt, onlyIf_eq_some, Bool.and_eq_true] at ht
    obtain ⟨⟨-, hswitched⟩, rfl⟩ := ht
    exact fun _ _ => hupdated hswitched
  | _ => cases ht

/-- An emergency somewhere in the network. -/
def emergencyEvent : AppEvent × ClockReading :=
  (.broadcastRecv ⟨⟨90, 0⟩, ⟨90, 0⟩, 0, 0, emergencyBytes .emergency default, 5⟩, ⟨0, 0⟩)

end Node

end EmergencyNet
