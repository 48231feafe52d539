import EmergencyNet.App.Light
import EmergencyNet.Routing.Freshness
import EmergencyNet.Safety.Announcement
import EmergencyNet.Sensor.Capacity

/-!
# Time synchronisation at a burning node

A fire has the node start a round of time synchronisation, which asserts that it is on.  It
is switched on by an `INITIALIZE` packet, but the check for a fire looks at the best neighbour
only, which the path packets of a neighbour give the node as well.

## Main definitions

* `TimesynchGuard` — the first path a node hears of comes after its initialisation.

## Main results

* `timesynchOn_of_reachable` — **in a guarded run a node with a best neighbour synchronises,
  and no fire has the assertion fail.**
* `not_timesynchOn` — a fire at a node that has missed its initialisation.
-/

namespace EmergencyNet

namespace Node

variable {s n : Node} {e : AppEvent}

/-! ### How a node gets a best neighbour -/

/-- A path packet of a neighbour that the node listens to. -/
def HearsPath (s : Node) : AppEvent → Prop
  | .neighborRecv r => s.Listens ∧ (advertOf r.data).isSome = true
  | _ => False

instance (s : Node) (e : AppEvent) : Decidable (s.HearsPath e) := by
  rcases e <;> unfold HearsPath <;> infer_instance

/-- An exit is no sink. -/
theorem notSink_of_reachable (h : nodeMachine.Reachable n) (hexit : n.state.isExitNode = true) :
    n.state.isSinkNode = false := by
  have hsession : ∃ asked, sessionMachine.Reachable (n, asked) := by
    clear hexit
    induction h with
    | init h => exact ⟨false, .init ⟨h, rfl⟩⟩
    | next _ _ hstep ih =>
      obtain ⟨asked, ih⟩ := ih
      exact ⟨_, ih.next trivial ⟨hstep, rfl⟩⟩
  obtain ⟨asked, hsession⟩ := hsession
  exact (session_of_reachable hsession).notSink hexit

/-- An initialisation switches time synchronisation on. -/
theorem timesynchOn_mem {c : ClockReading} (h : e.Initializes) (hsink : s.state.isSinkNode = false) :
    Effect.call .timesynchOn ∈ (s.step (e, c)).calls := by
  have hhandler : ∀ t : Node, Effect.call .timesynchOn ∈ t.initializeBestPathPacketHandler.calls := by
    intro t
    unfold initializeBestPathPacketHandler
    simp only
    split
    · rw [calls_updateBpnAndSendNodeInfo]
      simp [call, assert]
    · simp [call]
  obtain ⟨o, hops, q, heq⟩ := step_initializes (e := (e, c)) h hsink
  rw [heq]
  exact hhandler _

/-- **A node without a best neighbour gets one** when it hears of a path, or when it is
initialised; and it does not begin to blink without one. -/
theorem dark_step {c : ClockReading} (hb : BurnsBlinking s)
    (hsink : s.state.isExitNode = true → s.state.isSinkNode = false) (hbpn : s.bpn = .null)
    (hblink : s.state.isBlinking = false) (hc : Completes (s.step (e, c)).calls) :
    s.HearsPath e ∨ Effect.call .timesynchOn ∈ (s.step (e, c)).calls ∨
      (s.step (e, c)).bpn = .null ∧ (s.step (e, c)).state.isBlinking = false := by
  have hburn : s.state.isBurning = false := by
    cases hburn : s.state.isBurning with
    | false => rfl
    | true => exact absurd (hb hburn) (by simp [hblink])
  have hdark : (s.step (e, c)).state.isBlinking = false := isBlinking_step ⟨hbpn, hburn, hblink⟩ hc
  have hkeep : ∀ t, SameRoute t (s.step (e, c)) → t.bpn = s.bpn →
      (s.step (e, c)).bpn = .null ∧ (s.step (e, c)).state.isBlinking = false :=
    fun t hr ht => ⟨(hr.bpn.trans ht).trans hbpn, hdark⟩
  obtain ⟨ads, ho⟩ : ∃ ads, Outcome s e (s.step (e, c)) ads := ⟨_, outcome_step hc⟩
  cases ho with
  | quiet hr => exact .inr (.inr (hkeep s hr rfl))
  | configured _ hcfg => exact .inr (.inr ⟨hcfg.bpn.trans hbpn, hdark⟩)
  | resetMode _ hr _ => exact .inr (.inr ⟨hr.bpn.trans hbpn, hdark⟩)
  | newNeighbor _ hr => exact .inr (.inr (hkeep _ hr rfl))
  | keepAlive _ hr => exact .inr (.inr (hkeep _ hr rfl))
  | initialized hev hexit _ _ =>
    exact .inr (.inl (timesynchOn_mem hev (hsink hexit)))
  | path hon hp _ _ => exact .inl ⟨hon, by simp [hp]⟩
  | sensed _ _ hr => exact .inr (.inr (hkeep _ hr rfl))
  | sensedSent _ hne _ _ _ => exact absurd hbpn hne
  | dropped hb _ _ => exact absurd hb (by simp [hblink])
  | droppedSwitched hb _ _ _ => exact absurd hb (by simp [hblink])

/-- A fire starts a round of time synchronisation only at a node with a best neighbour. -/
theorem bpn_of_timesynchNetwork {light : UInt16} {c : ClockReading}
    (h : Effect.call .timesynchNetwork ∈ (s.step (.emergencyCheck light, c)).calls) :
    s.bpn ≠ .null := by
  change _ ∈ (emergencyCheck light (s.wake c)).calls at h
  intro hbpn
  have hsend : ∀ t : Node, Effect.call .timesynchNetwork ∉ t.calls →
      Effect.call .timesynchNetwork ∉ t.broadcastBestPath.calls := by
    intro t ht
    simp [broadcastBestPath, reliableBroadcastOwn, reliableBroadcastNs, call, assert, ht]
  have hstop : ∀ t : Node, t.calls = [] → Effect.call .timesynchNetwork ∉ t.stopBurning.calls := by
    intro t ht
    unfold stopBurning blinkingUpdate
    simp only
    split <;> simp [sendAntiEmergencyPacket, broadcastOwn, broadcast, call, assert,
      removeCoordinateAsBurning, setBurning, ht]
  -- only a fire at a node with a best neighbour starts the synchronisation
  have hno : Effect.call .timesynchNetwork ∉ (abruptReading light (s.wake c)).calls := by
    unfold abruptReading
    simp only
    split
    · rw [if_neg fun hand => hand.1 hbpn]
      exact List.not_mem_nil
    · split
      · refine hsend _ ?_
        split
        · exact hstop _ rfl
        · exact List.not_mem_nil
      · exact List.not_mem_nil
  unfold emergencyCheck at h
  split at h
  · split at h
    · exact hno h
    · cases h
  · cases h

end Node

open Node

/-- The first path a node hears of comes after its initialisation: a path packet reaches a
node without a best neighbour only while time synchronisation is on. -/
def TimesynchGuard (s : EcNode Node) (ev : NodeEvent ProcessEvent) : Prop :=
  ∀ e ∈ s.appEvent ev, s.app.HearsPath e → s.app.bpn = .null → s.conn.ts.isOn = true

instance (s : EcNode Node) (ev : NodeEvent ProcessEvent) : Decidable (TimesynchGuard s ev) := by
  unfold TimesynchGuard
  cases s.appEvent ev with
  | none => exact .isTrue fun _ h => nomatch h
  | some e =>
    exact decidable_of_iff (s.app.HearsPath e → s.app.bpn = .null → s.conn.ts.isOn = true)
      ⟨fun h e' he => Option.some.inj he ▸ h, fun h => h e rfl⟩

/-- A node with a best neighbour, or with its light on, synchronises. -/
def SynchronisesLit (s : EcNode Node) : Prop :=
  s.app.bpn ≠ .null ∨ s.app.state.isBlinking = true → s.conn.ts.isOn = true

variable {s s' : EcNode Node} {ev : NodeEvent ProcessEvent}

/-- Runs of the callback `timesynch` change neither. -/
theorem synched_lit {s t : Node} (h : mainRegSensor.Synched s t) :
    t.bpn = s.bpn ∧ t.state.isBlinking = s.state.isBlinking := by
  induction h with
  | refl => exact ⟨rfl, rfl⟩
  | @tail t u _ hcall ih =>
    have hu : u = (t.wake t.now).blinkingUpdate := (congrArg Prod.fst hcall).symm
    rw [hu, state_blinkingUpdate]
    refine ⟨Eq.trans ?_ ih.1, ih.2⟩
    unfold blinkingUpdate
    split <;> rfl

theorem SynchronisesLit.step (hreach : sensorMachine.Reachable s) (h : SynchronisesLit s)
    (hg : TimesynchGuard s ev) (hstep : s.step mainRegSensor ev = .ok s') : SynchronisesLit s' := by
  obtain ⟨happ, hc, -, hon⟩ := sensor_ran hstep
  obtain ⟨hbpn', hblink'⟩ := synched_lit happ
  intro hlit
  rw [hbpn', hblink'] at hlit
  -- the node was lit before, or the event makes it so
  by_cases hwas : s.app.bpn ≠ .null ∨ s.app.state.isBlinking = true
  · exact hon (.inl (h hwas))
  · obtain ⟨hbpn, hblink⟩ := not_or.mp hwas
    rw [not_not] at hbpn
    rw [Bool.not_eq_true] at hblink
    cases he : s.appEvent ev with
    | none =>
      rcases upcall_of_appEvent_none he with hcode | ⟨c, hcode⟩ <;> rw [hcode] at hlit
      · exact absurd hlit hwas
      · exact absurd hlit hwas
    | some e =>
      rw [upcall_of_appEvent he] at hlit hc hon
      obtain ⟨n, hn, hagree⟩ := app_of_reachable hreach
      have hburns : BurnsBlinking s.app := by
        rw [BurnsBlinking, hagree.state]
        exact burnsBlinking_of_reachable hn
      have hsink : s.app.state.isExitNode = true → s.app.state.isSinkNode = false := by
        rw [hagree.state]
        exact notSink_of_reachable hn
      rcases dark_step hburns hsink hbpn hblink (hc _ rfl) with hpath | hcall | ⟨hnull, hdark⟩
      · exact hon (.inl (hg e he hpath hbpn))
      · exact hon (.inr ⟨_, rfl, hcall⟩)
      · refine absurd hlit (not_or.mpr ⟨not_not.mpr hnull, ?_⟩)
        exact fun hblink' => absurd (hdark.symm.trans hblink') Bool.false_ne_true

/-- A node that has just powered up knows of no path. -/
theorem synchronisesLit_init (h : sensorMachine.init s) : SynchronisesLit s := by
  obtain ⟨-, addr, flash, happ, -⟩ := h
  have hdark : s.app.bpn = .null ∧ s.app.state.isBlinking = false := by
    rw [happ]
    cases flash with
    | none => exact ⟨rfl, rfl⟩
    | some f => exact ⟨(configured_setupParse ..).1.bpn, isBlinking_setupParse ..⟩
  rintro (hbpn | hblink)
  · exact absurd hdark.1 hbpn
  · exact absurd (hdark.2.symm.trans hblink) Bool.false_ne_true

/-- **In a guarded run a node with a best neighbour synchronises**, and when a fire has it
start a round, time synchronisation is on. -/
theorem timesynchOn_of_reachable (h : sensorMachine.ReachableWhen TimesynchGuard s) :
    (s.app.bpn ≠ .null → s.conn.ts.isOn = true) ∧
      ∀ light l₁ l₂ s₁, (s.app.react (.emergencyCheck light)).2 =
        l₁ ++ .call .timesynchNetwork :: l₂ →
      EcNode.runEffects mainRegSensor.toEcCallbacks l₁
        ⟨s.conn, (s.app.react (.emergencyCheck light)).1⟩ = .ok s₁ → s₁.conn.ts.isOn = true := by
  have hlit : SynchronisesLit s := by
    have hboth : sensorMachine.Reachable s ∧ SynchronisesLit s := by
      induction h with
      | init hinit =>
        exact ⟨.init hinit, synchronisesLit_init hinit⟩
      | next _ hok hstep ih =>
        exact ⟨ih.1.next trivial hstep, ih.2.step ih.1 hok hstep.2⟩
    exact hboth.2
  refine ⟨fun hbpn => hlit (.inl hbpn), fun light l₁ l₂ s₁ hcalls hrun => ?_⟩
  have hmem : ∀ x ∈ l₁ ++ Effect.call .timesynchNetwork :: l₂,
      x ∈ (s.app.step (.emergencyCheck light, s.app.now)).calls := by
    rw [← hcalls]
    exact fun x hx => hx
  have hbpn : s.app.bpn ≠ .null := bpn_of_timesynchNetwork (hmem _ (by simp))
  have hoff : Effect.call .timesynchOff ∉ l₁ := fun hx =>
    (adds_step s.app (.emergencyCheck light, s.app.now)).on (hmem _ (List.mem_append_left _ hx))
  exact (EcNode.runEffects_kept l₁ _ hoff hrun).1.isOn (hlit (.inl hbpn))

/-! ### A fire without synchronisation -/

/-- Neighbour `2.0` announces that it is an exit. -/
def exitInfo (q : UInt8) : NodeEvent ProcessEvent :=
  .receive .neighbor (neighborFrame q (PathPacket.nodeInfo ⟨⟨0, 1⟩, ⟨0, 1⟩⟩ ⟨⟨0, 0⟩, ⟨2, 0⟩, 0⟩).bytes)

/-- Neighbour `2.0` passes an initialisation on. -/
def initFrame (q : UInt8) : NodeEvent ProcessEvent :=
  .receive .neighbor (neighborFrame q [PacketType.initializeBestPaths.toByte])

/-- A node that is initialised first. -/
theorem timesynchOn_exitInfo : ∃ s, sensorMachine.ReachableWhen TimesynchGuard s ∧
    s.app.bpn ≠ .null ∧ s.conn.ts.isOn = true := by
  have h : ((Machine.run (EcNode.advance mainRegSensor) [initFrame 0, exitInfo 1]
      (.poweredUp ⟨9, 9⟩ (some loneSetup.bytes))).map fun s => decide (s.app.bpn ≠ .null)) =
      some true := by decide +kernel
  obtain ⟨s, hrun, hbpn⟩ := Option.map_eq_some_iff.mp h
  have hreach : sensorMachine.ReachableWhen TimesynchGuard s :=
    Machine.ReachableWhen.of_run (b := fun s ev => decide (TimesynchGuard s ev))
      (fun _ _ => of_decide_eq_true) (fun _ _ _ => sensorMachine_step_of_advance) _
      (.init (sensorMachine_init (by decide +kernel))) (by decide +kernel) hrun
  exact ⟨s, hreach, of_decide_eq_true hbpn,
    (timesynchOn_of_reachable hreach).1 (of_decide_eq_true hbpn)⟩

/-- **A fire at a node that has missed its initialisation**: the node has heard of a path, and
the assertion of `ec_timesynch_network` fails. -/
theorem not_timesynchOn : ∃ s, sensorMachine.Reachable s ∧ s.app.bpn ≠ .null ∧
    s.app.state.isBurning = false ∧ s.conn.ts.isOn = false ∧
    s.step mainRegSensor (.process (.emergencyCheck 500)) = .error .assertFailed := by
  have h : ((Machine.run (EcNode.advance mainRegSensor) [exitInfo 0]
      (.poweredUp ⟨9, 9⟩ (some loneSetup.bytes))).map fun s => decide (s.app.bpn ≠ .null ∧
        s.app.state.isBurning = false ∧ s.conn.ts.isOn = false ∧
        faultOf (s.step mainRegSensor (.process (.emergencyCheck 500))) = some .assertFailed)) =
      some true := by decide +kernel
  obtain ⟨s, hrun, hs⟩ := Option.map_eq_some_iff.mp h
  obtain ⟨hbpn, hburn, hon, hfault⟩ := of_decide_eq_true hs
  exact ⟨s, sensorMachine_reachable_of_run (by decide +kernel) hrun, hbpn, hburn, hon,
    faultOf_eq_some.mp hfault⟩

end EmergencyNet
