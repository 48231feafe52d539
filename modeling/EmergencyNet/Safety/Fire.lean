import EmergencyNet.Routing.Freshness
import EmergencyNet.Safety.BestPointer

/-!
# Detecting a fire

The emergency check compares each reading with the one before that differed from it
abruptly.  It records the new one before it looks whether the node may act on it, so a fire
that begins at a node without a best neighbour becomes the reading to compare with, and is
not noticed any more once the node has a best neighbour.

## Main definitions

* `Node.FireSensed` — the node burns exactly when its last recorded reading says so.
* `Node.FireGuard` — no fire begins at a node without a best neighbour.

## Main results

* `Node.fire_of_reachable` — **in a guarded run the node burns exactly when its reading
  says so, and a clearly bright reading is always reported.**
* `Node.not_fireSensed` — a fire that is never reported.
-/

namespace EmergencyNet

namespace Node

variable {s t s' : Node}

/-- `g_np.current_sensors_metric`. -/
def sensorMetric (s : Node) : UInt16 := uint8ToUint16 s.currentSensorsMetric

/-- The node burns exactly when the recorded reading is above the threshold. -/
def FireSensed (s : Node) : Prop :=
  s.state.isBurning = true ↔ isEmergency s.sensorMetric = true

instance (s : Node) : Decidable s.FireSensed := by unfold FireSensed; infer_instance

/-- The emergency check reads the sensor. -/
def Polls (s : Node) : Prop := ¬ s.state.isAwaitingSetupPacket ∨ ¬ s.state.isSinkNode

instance (s : Node) : Decidable s.Polls := by unfold Polls; infer_instance

/-- An abrupt reading above the threshold is read only where there is a best neighbour, or where
the node burns already. -/
def FireGuard (s : Node) (e : AppEvent × ClockReading) : Prop :=
  match e.1 with
  | .emergencyCheck light => s.Polls → s.abruptMetricChangePoll light = true →
      isEmergency light = true → s.bpn ≠ .null ∨ s.state.isBurning = true
  | _ => True

instance (s : Node) (e : AppEvent × ClockReading) : Decidable (s.FireGuard e) := by
  obtain ⟨ev, c⟩ := e
  rcases ev <;> unfold FireGuard <;> infer_instance

/-! ### The invariant -/

theorem FireSensed.of_routing (h : FireSensed s) (hr : SameRouting s t) : FireSensed t := by
  rw [FireSensed, sensorMetric, hr.isBurning, hr.currentSensorsMetric]
  exact h

theorem fireSensed_takenOver {sp : SetupPacket} (ht : TakenOver sp s t) : FireSensed t := by
  rw [FireSensed, sensorMetric, ht.isBurning, ht.currentSensorsMetric]
  decide

/-- The recorded reading is the one that was recorded. -/
theorem sensorMetric_sensed (s : Node) (light : UInt16) : (s.sensed light).sensorMetric = light :=
  uint8ToUint16_uint16ToUint8 light

/-- What an event that takes no setup packet over keeps. -/
theorem FireSensed.outcome {e : AppEvent × ClockReading} {ads : List PathPacket}
    (h : FireSensed s) (hb : BurnsBlinking s)
    (hg : ∀ light, e.1 = .emergencyCheck light → s.abruptMetricChangePoll light = true →
      isEmergency light = true → s.bpn ≠ .null ∨ s.state.isBurning = true)
    (hre : ¬ e.1.Reconfigures) (ho : Outcome s e.1 s' ads) : FireSensed s' := by
  obtain ⟨ev, c⟩ := e
  cases ho with
  | quiet hr => exact h.of_routing hr.toSameRouting
  | configured hev _ => exact absurd hev hre
  | resetMode hev _ _ => exact absurd hev hre
  | @newNeighbor r _ ns _ hr =>
    exact FireSensed.of_routing (s := s.withTable ns) h hr.toSameRouting
  | @keepAlive r _ i _ hr =>
    exact FireSensed.of_routing (s := s.withEntry i _) h hr.toSameRouting
  | initialized _ _ _ hr =>
    exact FireSensed.of_routing (s := s.toBest.sentNodeInfo) h hr.toSameRouting
  | @path r _ _ i p _ _ _ hpath =>
    cases hpath with
    | first _ _ hr =>
      exact FireSensed.of_routing (s := (s.pathWritten i p).toBest.sentNodeInfo) h hr.toSameRouting
    | switched _ _ hr =>
      exact FireSensed.of_routing (s := (s.pathWritten i p).toBest) h hr.toSameRouting
    | kept _ _ hr => exact FireSensed.of_routing (s := s.pathWritten i p) h hr.toSameRouting
  | @sensed light _ habrupt hkeep hr =>
    refine FireSensed.of_routing (s := s.sensed light) ?_ hr.toSameRouting
    change s.state.isBurning = true ↔ isEmergency (s.sensed light).sensorMetric = true
    rw [sensorMetric_sensed]
    rcases hkeep with ⟨hem, hno⟩ | ⟨hem, hblink⟩
    · have hburn : s.state.isBurning = true :=
        (hg light rfl habrupt hem).elim (fun hbpn => hno.resolve_left hbpn) id
      exact iff_of_true hburn hem
    · refine iff_of_false (fun hburn => ?_) (by simp [hem])
      exact absurd (hblink.symm.trans (hb hburn)) Bool.false_ne_true
  | @sensedSent light _ _ _ _ hr _ =>
    refine FireSensed.of_routing (s := setBurning (isEmergency light) (s.sensed light)) ?_
      hr.toSameRouting
    change isEmergency light = true ↔ isEmergency (s.sensed light).sensorMetric = true
    rw [sensorMetric_sensed]
  | dropped _ _ hr => exact FireSensed.of_routing (s := s.dropSilent) h hr.toSameRouting
  | droppedSwitched _ _ _ hr =>
    exact FireSensed.of_routing (s := s.dropSilent.toBest) h hr.toSameRouting

theorem FireSensed.step {e : AppEvent × ClockReading} (h : FireSensed s) (hb : BurnsBlinking s)
    (hg : s.FireGuard e) (hc : Completes (s.step e).calls) : FireSensed (s.step e) := by
  rcases installs_or_outcome hc with (⟨sp, hsp, ht⟩ | ⟨-, hr, -⟩) | ⟨hre, -, ho⟩
  · exact fireSensed_takenOver ht
  · exact h.of_routing hr
  · by_cases hpoll : s.Polls
    · refine h.outcome hb (fun light hev => ?_) hre ho
      obtain ⟨ev, c⟩ := e
      cases hev
      exact hg hpoll
    · -- the check does not read the sensor
      obtain ⟨ev, c⟩ := e
      cases ev with
      | emergencyCheck light =>
        have hstep : s.step (.emergencyCheck light, c) = s.wake c := if_neg hpoll
        rw [hstep]
        exact h
      | _ => exact h.outcome hb (fun light hev => by cases hev) hre ho

theorem fireSensed_of_reachable (h : nodeMachine.ReachableWhen FireGuard s) :
    FireSensed s ∧ BurnsBlinking s := by
  refine h.invariant (I := fun s => FireSensed s ∧ BurnsBlinking s) ?_ ?_
  · rintro s ⟨addr, flash, rfl, -⟩
    cases flash with
    | none =>
      have hdark : ¬ isEmergency (uint8ToUint16 ⟨0, 0⟩) = true := by decide
      exact ⟨iff_of_false Bool.false_ne_true hdark, fun hb => absurd hb Bool.false_ne_true⟩
    | some f =>
      have ht := takenOver_setupParse (memRead f setupBufferSize) true (zero addr (some f))
      exact ⟨fireSensed_takenOver ht,
        fun hb => absurd (ht.isBurning.symm.trans hb) Bool.false_ne_true⟩
  · rintro s e s' ⟨hs, hb⟩ hok ⟨-, rfl, hc⟩
    exact ⟨hs.step hb hok hc, hb.outcome (outcome_step hc)⟩

/-! ### Bright readings -/

/-- A reading that is above the threshold by more than an abrupt change differs abruptly from
every recorded reading that is not. -/
theorem abrupt_of_bright {light : UInt16} (hmetric : isEmergency s.sensorMetric = false)
    (hlow : light.toNat < 2 ^ 15) (hbright : 600 < light.toNat) :
    s.abruptMetricChangePoll light = true := by
  have hle : s.sensorMetric.toNat ≤ 400 := by
    rw [isEmergency, decide_eq_false_iff_not, UInt16.lt_iff_toNat_lt] at hmetric
    have h400 : lightEmergencyThreshold.toNat = 400 := rfl
    omega
  have hl : light.toInt16.toInt = light.toNat := by
    have := UInt16.toNat_lt light
    rw [Int16.toInt, UInt16.toBitVec_toInt16, BitVec.toInt_eq_toNat_cond]
    simp only [UInt16.toNat_toBitVec]
    omega
  have hm : s.sensorMetric.toInt16.toInt = s.sensorMetric.toNat := by
    rw [Int16.toInt, UInt16.toBitVec_toInt16, BitVec.toInt_eq_toNat_cond]
    simp only [UInt16.toNat_toBitVec]
    omega
  have hdiff : (light.toInt16 - s.sensorMetric.toInt16).toInt =
      light.toNat - s.sensorMetric.toNat := by
    rw [Int16.toInt_sub, hl, hm, Int.bmod_eq_of_le] <;> omega
  unfold abruptMetricChangePoll
  change decide (_ < abs16 (light.toInt16 - s.sensorMetric.toInt16)) = true
  have hpos : ¬ light.toInt16 - s.sensorMetric.toInt16 < 0 := by
    rw [Int16.lt_iff_toInt_lt, hdiff]
    have h0 : (0 : Int16).toInt = 0 := rfl
    omega
  rw [abs16, if_neg hpos, decide_eq_true_iff, Int16.lt_iff_toInt_lt, hdiff]
  have h200 : abruptMetricChangeThreshold.toInt = 200 := rfl
  omega

/-- A clearly bright reading leaves the node burning. -/
theorem isBurning_of_bright (h : FireSensed s) {light : UInt16} (c : ClockReading)
    (hpoll : s.Polls) (hbpn : s.bpn ≠ .null) (hlow : light.toNat < 2 ^ 15)
    (hbright : 600 < light.toNat) : (s.step (.emergencyCheck light, c)).state.isBurning = true := by
  have hem : isEmergency light = true := by
    rw [isEmergency, decide_eq_true_iff, UInt16.lt_iff_toNat_lt]
    have h400 : lightEmergencyThreshold.toNat = 400 := rfl
    omega
  have hstep : s.step (.emergencyCheck light, c) =
      if (s.wake c).abruptMetricChangePoll light then abruptReading light (s.wake c)
      else s.wake c := if_pos hpoll
  rw [hstep]
  cases hburn : s.state.isBurning with
  | true =>
    split
    · rw [abruptReading]
      simp only [hem, if_true]
      rw [if_neg (fun hand => hand.2 hburn)]
      exact hburn
    · exact hburn
  | false =>
    have hmetric : isEmergency s.sensorMetric = false := by
      cases hm : isEmergency s.sensorMetric with
      | false => rfl
      | true => exact absurd (hburn.symm.trans (h.mpr hm)) Bool.false_ne_true
    rw [if_pos (abrupt_of_bright (s := s.wake c) hmetric hlow hbright), abruptReading]
    simp only [hem, if_true]
    rw [if_pos ⟨hbpn, by change ¬ s.state.isBurning = true; simp [hburn]⟩]
    exact (startBurning_spec (s := (s.wake c).sensed light) rfl).1.isBurning

/-- **In every run whose events all meet the guard the node burns exactly when its recorded
reading is above the threshold, and then it blinks; and a reading above the threshold by more
than an abrupt change is reported wherever there is a best neighbour.**  The readings of the
sensor have 12 bits. -/
theorem fire_of_reachable (h : nodeMachine.ReachableWhen FireGuard s) :
    (s.state.isBurning = true ↔ lightEmergencyThreshold < s.sensorMetric) ∧
      (s.state.isBurning = true → s.state.isBlinking = true) ∧
      ∀ light c, s.Polls → s.bpn ≠ .null → light.toNat < 2 ^ 15 → 600 < light.toNat →
        (s.step (.emergencyCheck light, c)).state.isBurning = true := by
  obtain ⟨hs, hb⟩ := fireSensed_of_reachable h
  refine ⟨?_, hb, fun light c hpoll hbpn hlow hbright => isBurning_of_bright hs c hpoll hbpn hlow
    hbright⟩
  have hiff : s.state.isBurning = true ↔ isEmergency s.sensorMetric = true := hs
  rw [hiff, isEmergency, decide_eq_true_iff]

/-! ### A fire before the first path -/

/-- A reading of the sensor. -/
def readingEvent (light : UInt16) : AppEvent × ClockReading := (.emergencyCheck light, ⟨0, 0⟩)

/-- A fire at the node with two paths is sensed. -/
theorem fire_twoPaths : ∃ s, nodeMachine.ReachableWhen FireGuard s ∧ s.state.isBurning = true ∧
    lightEmergencyThreshold < s.sensorMetric := by
  have h : ((Machine.run advance (twoPaths ++ [readingEvent 500])
      (resetNodeProperties rimeaddrNull none)).map fun s => s.state.isBurning) = some true := by
    decide +kernel
  obtain ⟨s, hrun, hburn⟩ := Option.map_eq_some_iff.mp h
  have hreach : nodeMachine.ReachableWhen FireGuard s :=
    reachableWhen_of_run (by decide +kernel) hrun
  exact ⟨s, hreach, hburn, (fire_of_reachable hreach).1.mp hburn⟩

/-- **A fire that begins before the node has heard of any path is not reported**, not even by
the check after the node has heard of two. -/
theorem not_fireSensed : ∃ s, nodeMachine.Reachable s ∧
    Completes (s.step (readingEvent 700)).calls ∧ (s.step (readingEvent 700)).bpn ≠ .null ∧
      lightEmergencyThreshold < (s.step (readingEvent 700)).sensorMetric ∧
      (s.step (readingEvent 700)).state.isBurning = false := by
  have h : ((Machine.run advance (twoPaths.take 1 ++ readingEvent 700 :: twoPaths.drop 1)
      (resetNodeProperties rimeaddrNull none)).map fun s => decide
        (Completes (s.step (readingEvent 700)).calls ∧ (s.step (readingEvent 700)).bpn ≠ .null ∧
          lightEmergencyThreshold < (s.step (readingEvent 700)).sensorMetric ∧
          (s.step (readingEvent 700)).state.isBurning = false)) = some true := by decide +kernel
  obtain ⟨s, hrun, hunseen⟩ := Option.map_eq_some_iff.mp h
  exact ⟨s, reachable_of_run hrun, of_decide_eq_true hunseen⟩

end Node

end EmergencyNet
