import EmergencyNet.Safety.BestPointer

/-!
# Initialisation

An exit node announces itself when it is initialised, and asserts that it has not done so
before.  The flag it looks at is set by the first initialisation and by the first node info
of a neighbour, and cleared by `setup_parse` alone, so an exit can be initialised once after
each set-up, and only before it has heard a node info.

## Main definitions

* `Node.answers` — the event makes the node send its node info, unless it has.
* `sessionMachine` — a node, and whether it has been asked since its last set-up.

## Main results

* `Node.announced_of_reachable` — **in a guarded run an initialisation does not fail, and an
  exit with neighbours announces itself to them.**
* `Node.not_completes_initialize` — the second initialisation of an exit fails.
-/

namespace EmergencyNet

namespace Node

variable {s t s' : Node}

/-! ### What has been asked of a node since its set-up -/

/-- The event makes the node send its node info, if it has not done so: the initialisation of
an exit, and the node info of a neighbour. -/
def answers (s : Node) : AppEvent → Bool
  | .broadcastRecv r => s.state.isExitNode && packetTypeAt r.data == some .initializeBestPaths
  | .neighborRecv r =>
    s.state.isExitNode && packetTypeAt r.data == some .initializeBestPaths ||
      decide s.Listens && packetTypeAt r.data == some .nodeInfo
  | .serial .init => s.state.isExitNode
  | _ => false

/-- Whether the node has been asked for its node info since its last set-up. -/
def askedAfter (s : Node) (asked : Bool) (ev : AppEvent) : Bool :=
  (s.installs ev).isNone && (asked || s.answers ev)

/-- An exit is initialised only if nothing has been asked of it since its last set-up. -/
def SessionGuard (σ : Node × Bool) (e : AppEvent × ClockReading) : Prop :=
  e.1.Initializes → σ.1.state.isExitNode = true → σ.2 = false

instance (σ : Node × Bool) (e : AppEvent × ClockReading) : Decidable (SessionGuard σ e) := by
  unfold SessionGuard; infer_instance

end Node

/-- A node together with whether it has been asked for its node info since its last set-up. -/
def sessionMachine : Machine (Node × Bool) (AppEvent × ClockReading) where
  init σ := nodeMachine.init σ.1 ∧ σ.2 = false
  step e σ σ' := nodeMachine.step e σ.1 σ'.1 ∧ σ'.2 = σ.1.askedAfter σ.2 e.1

namespace Node

variable {s t s' : Node} {asked : Bool}

/-! ### The invariant -/

/-- A node that has sent its node info has been asked for it, and an exit knows its neighbours
and is no sink. -/
structure Session (s : Node) (asked : Bool) : Prop where
  asked : s.state.hasSentNodeInfo = true → asked = true
  ecNs : s.state.isExitNode = true → s.ecNs = true
  notSink : s.state.isExitNode = true → s.state.isSinkNode = false

theorem Session.of_routing (h : Session s asked) (hr : SameRouting s t) : Session t asked where
  asked := by
    rw [hr.hasSentNodeInfo]
    exact h.asked
  ecNs := by
    rw [hr.isExitNode, hr.ecNs]
    exact h.ecNs
  notSink := by
    rw [hr.isExitNode, hr.isSinkNode]
    exact h.notSink

theorem Session.mono (h : Session s asked) (b : Bool) : Session s (asked || b) where
  asked := fun hsent => by rw [h.asked hsent, Bool.true_or]
  ecNs := h.ecNs
  notSink := h.notSink

theorem session_takenOver {sp : SetupPacket} (ht : TakenOver sp s t) : Session t false where
  asked := fun hsent => absurd (ht.hasSentNodeInfo.symm.trans hsent) Bool.false_ne_true
  ecNs := fun _ => ht.ecNs
  notSink := by
    intro hexit
    cases hsink : t.state.isSinkNode with
    | false => rfl
    | true =>
      have hno := ht.isExitNode.symm.trans hexit
      rw [ht.isSinkNode hsink] at hno
      exact absurd hno (by decide)

/-- Where the flag is set, the node has just been asked. -/
theorem Session.sent (h : Session s asked) {b : Bool} (hb : b = true)
    (hr : SameRoute s.toBest.sentNodeInfo t) : Session t (asked || b) where
  asked := fun _ => by rw [hb, Bool.or_true]
  ecNs := fun hexit => hr.ecNs.trans (h.ecNs (hr.isExitNode.symm.trans hexit))
  notSink := fun hexit => hr.isSinkNode.trans (h.notSink (hr.isExitNode.symm.trans hexit))

/-- The type of a packet that carries a node info. -/
theorem packetTypeAt_of_advertOf {data : List UInt8} {coord : Coordinate}
    {bp : NeighborNodeBestPath} (h : advertOf data = some (.nodeInfo coord bp)) :
    packetTypeAt data = some .nodeInfo := by
  unfold advertOf at h
  split at h
  · cases h
  · assumption
  · cases h

theorem answers_of_initializes {ev : AppEvent} (hev : ev.Initializes)
    (hexit : s.state.isExitNode = true) : s.answers ev = true := by
  cases ev with
  | broadcastRecv r =>
    have ht : packetTypeAt r.data = some .initializeBestPaths := hev
    simp [answers, hexit, ht]
  | neighborRecv r =>
    have ht : packetTypeAt r.data = some .initializeBestPaths := hev
    simp [answers, hexit, ht]
  | serial c =>
    cases c with
    | init => exact hexit
    | _ => exact hev.elim
  | _ => exact hev.elim

/-- What an event that takes no setup packet over keeps. -/
theorem Session.outcome {ev : AppEvent} {ads : List PathPacket} (h : Session s asked)
    (hre : ¬ ev.Reconfigures) (ho : Outcome s ev s' ads) :
    Session s' (asked || s.answers ev) := by
  cases ho with
  | quiet hr => exact (h.of_routing hr.toSameRouting).mono _
  | configured hev _ => exact absurd hev hre
  | resetMode hev _ _ => exact absurd hev hre
  | @newNeighbor r _ ns _ hr =>
    exact Session.mono (.of_routing (s := s.withTable ns) ⟨h.asked, h.ecNs, h.notSink⟩
      hr.toSameRouting) _
  | @keepAlive r _ i _ hr =>
    exact Session.mono (.of_routing (s := s.withEntry i _) ⟨h.asked, h.ecNs, h.notSink⟩
      hr.toSameRouting) _
  | initialized hev hexit _ hr => exact h.sent (answers_of_initializes hev hexit) hr
  | @path r _ _ i p hon hp _ hpath =>
    have hw : Session (s.pathWritten i p) asked := ⟨h.asked, h.ecNs, h.notSink⟩
    cases hpath with
    | first hinfo _ hr =>
      obtain ⟨coord, bp, rfl⟩ := hinfo
      refine hw.sent ?_ hr
      simp [answers, hon, packetTypeAt_of_advertOf hp]
    | switched _ _ hr =>
      exact Session.mono (.of_routing (s := (s.pathWritten i p).toBest)
        ⟨h.asked, h.ecNs, h.notSink⟩ hr.toSameRouting) _
    | kept _ _ hr => exact (hw.of_routing hr.toSameRouting).mono _
  | @sensed light _ _ _ hr =>
    exact Session.mono (.of_routing (s := s.sensed light) ⟨h.asked, h.ecNs, h.notSink⟩
      hr.toSameRouting) _
  | @sensedSent light _ _ _ _ hr =>
    exact Session.mono (.of_routing (s := setBurning (isEmergency light) (s.sensed light))
      ⟨h.asked, h.ecNs, h.notSink⟩ hr.toSameRouting) _
  | dropped _ _ hr =>
    exact Session.mono (.of_routing (s := s.dropSilent) ⟨h.asked, h.ecNs, h.notSink⟩
      hr.toSameRouting) _
  | droppedSwitched _ _ _ hr =>
    exact Session.mono (.of_routing (s := s.dropSilent.toBest) ⟨h.asked, h.ecNs, h.notSink⟩
      hr.toSameRouting) _

theorem Session.step {e : AppEvent × ClockReading} (h : Session s asked)
    (hc : Completes (s.step e).calls) : Session (s.step e) (s.askedAfter asked e.1) := by
  rcases installs_or_outcome hc with (⟨sp, hsp, ht⟩ | ⟨hnone, hr, -⟩) | ⟨hre, hnone, ho⟩
  · rw [askedAfter, hsp]
    exact session_takenOver ht
  · rw [askedAfter, hnone]
    exact (h.of_routing hr).mono _
  · rw [askedAfter, hnone]
    exact h.outcome hre ho

theorem session_of_reachable {ok : Node × Bool → AppEvent × ClockReading → Prop} {σ : Node × Bool}
    (h : sessionMachine.ReachableWhen ok σ) : Session σ.1 σ.2 := by
  refine h.invariant (I := fun σ => Session σ.1 σ.2) ?_ ?_
  · rintro ⟨s, asked⟩ ⟨⟨addr, flash, rfl, -⟩, rfl⟩
    cases flash with
    | none =>
      exact ⟨fun h => absurd h Bool.false_ne_true, fun h => absurd h Bool.false_ne_true,
        fun _ => rfl⟩
    | some f => exact session_takenOver (takenOver_setupParse _ true _)
  · rintro ⟨s, asked⟩ e ⟨s', asked'⟩ hs - ⟨⟨-, rfl, hc⟩, rfl⟩
    exact Session.step hs hc

/-! ### What an initialisation does -/

/-- An initialisation is passed on to the neighbours and handled, except at the sink. -/
theorem step_initializes {e : AppEvent × ClockReading} (h : e.1.Initializes)
    (hsink : s.state.isSinkNode = false) : ∃ o hops q,
      s.step e = ((s.wake e.2).reliableBroadcastNs o hops q
        (match e.1 with
          | .broadcastRecv r | .neighborRecv r => r.payload
          | _ => [PacketType.initializeBestPaths.toByte])).initializeBestPathPacketHandler := by
  obtain ⟨ev, c⟩ := e
  have hsink' : (s.wake c).state.isSinkNode = false := hsink
  cases ev with
  | broadcastRecv r =>
    have ht : packetTypeAt r.data = some .initializeBestPaths := h
    refine ⟨r.originator, r.hops + 1, r.seqno, ?_⟩
    simp [step, handle, ecBroadcastsRecv, ignoredInResetMode, hsink', sensorBroadcastsRecv, ht]
  | neighborRecv r =>
    have ht : packetTypeAt r.data = some .initializeBestPaths := h
    refine ⟨r.originator, r.hops + 1, r.seqno, ?_⟩
    simp [step, handle, ecNeighborsRecv, ignoredInResetMode, hsink', neighborsRecv, ht]
  | serial c' =>
    cases c' with
    | init =>
      refine ⟨⟨0xFE, 0xFE⟩, 1, 0, ?_⟩
      have hignored : (s.wake c).ignoredInResetMode ⟨⟨0xFE, 0xFE⟩, ⟨0xFE, 0xFE⟩, 0, 0,
          [PacketType.initializeBestPaths.toByte], 1⟩ = false := by
        cases hm : (s.wake c).state.isResetMode <;> simp [ignoredInResetMode, hm]
      change ecBroadcastsRecv _ (s.wake c) = _
      rw [ecBroadcastsRecv, hignored, hsink']
      rfl
    | _ => exact h.elim
  | _ => exact h.elim

/-- The sink does nothing when it is initialised. -/
theorem completes_step_initializes_sink {e : AppEvent × ClockReading} (h : e.1.Initializes)
    (hsink : s.state.isSinkNode = true) : Completes (s.step e).calls := by
  obtain ⟨ev, c⟩ := e
  have hsink' : (s.wake c).state.isSinkNode = true := hsink
  cases ev with
  | broadcastRecv r =>
    have ht : packetTypeAt r.data = some .initializeBestPaths := h
    simp [step, handle, ecBroadcastsRecv, ignoredInResetMode, hsink', sinkBroadcastsRecv, ht]
  | neighborRecv r =>
    have ht : packetTypeAt r.data = some .initializeBestPaths := h
    simp [step, handle, ecNeighborsRecv, ignoredInResetMode, hsink', ht]
  | serial c' =>
    cases c' with
    | init =>
      change Completes (ecBroadcastsRecv _ (s.wake c)).calls
      rw [ecBroadcastsRecv, if_pos hsink']
      split <;> exact completes_nil
    | _ => exact h.elim
  | _ => exact h.elim

/-- `update_bpn_and_send_node_info` makes two assertions that hold, and a broadcast. -/
theorem calls_updateBpnAndSendNodeInfo (s : Node) :
    s.updateBpnAndSendNodeInfo.calls = s.calls ++
      [.assert true, .assert true,
        .call (.reliableBroadcastNs s.connNs ⟨s.rimeaddrNodeAddr, s.rimeaddrNodeAddr, 0, s.seqno,
          (PathPacket.nodeInfo s.coordinateNode s.toBest.bestNeighborBpToOurBp).bytes⟩)] := by
  have hbest : decide (s.findBestExitPathNeighbor ≠ .null) = true := decide_eq_true findBest_ne_null
  have hbp := (sameRoute_toBest_assert (s := s) (decide (s.findBestExitPathNeighbor ≠ .null))).ourBp
  unfold updateBpnAndSendNodeInfo reliableBroadcastOwn
  simp only [hbp]
  rw [hbest, List.append_cons, List.append_cons]
  rfl

/-- What the initialisation of an exit does. -/
theorem calls_initializeHandler (hexit : s.state.isExitNode = true) :
    s.initializeBestPathPacketHandler.calls = s.calls ++
      [.call .timesynchOn, .assert (!s.state.hasSentNodeInfo), .assert true, .assert true,
        .call (.reliableBroadcastNs s.connNs ⟨s.rimeaddrNodeAddr, s.rimeaddrNodeAddr, 0, s.seqno,
          (PathPacket.nodeInfo s.coordinateNode s.toBest.bestNeighborBpToOurBp).bytes⟩)] := by
  let t : Node := ({ s.call .timesynchOn with
    state := { (s.call .timesynchOn).state with isResetMode := false } } : Node).assert
      (!s.state.hasSentNodeInfo)
  have hst : SameRoute s t := ⟨⟨rfl⟩, id, fun _ => rfl⟩
  have hhandler : s.initializeBestPathPacketHandler = t.updateBpnAndSendNodeInfo.sentNodeInfo := by
    unfold initializeBestPathPacketHandler
    exact if_pos hexit
  rw [hhandler]
  change t.updateBpnAndSendNodeInfo.calls = _
  rw [calls_updateBpnAndSendNodeInfo, (sameRoute_toBest hst).ourBp]
  change ((s.calls ++ [_]) ++ [_]) ++ _ = _
  rw [List.append_assoc, List.append_assoc]
  rfl

theorem completes_initializeHandler (hc : Completes s.calls)
    (hsent : s.state.isExitNode = true → s.state.hasSentNodeInfo = false) :
    Completes s.initializeBestPathPacketHandler.calls := by
  cases hexit : s.state.isExitNode with
  | true =>
    rw [calls_initializeHandler hexit, hsent hexit, completes_append]
    exact ⟨hc, by simp [Completes]⟩
  | false =>
    have hhandler : s.initializeBestPathPacketHandler.calls = s.calls ++ [.call .timesynchOn] := by
      unfold initializeBestPathPacketHandler
      rw [if_neg (by simp [call, hexit])]
      rfl
    rw [hhandler, completes_append]
    exact ⟨hc, completes_call⟩

/-- **In every run whose events all meet the guard an initialisation does not fail, and an exit
announces itself to its neighbours when it is initialised.** -/
theorem announced_of_reachable {σ : Node × Bool} (h : sessionMachine.ReachableWhen SessionGuard σ)
    {e : AppEvent × ClockReading} (hg : SessionGuard σ e) (hinit : e.1.Initializes) :
    Completes (σ.1.step e).calls ∧
      (σ.1.state.isExitNode = true → ∃ a,
        Effect.call (.reliableBroadcastNs (some σ.1.ns.addrs) a) ∈ (σ.1.step e).calls ∧
          advertOf a.data =
            some (.nodeInfo σ.1.coordinateNode σ.1.toBest.bestNeighborBpToOurBp)) := by
  obtain ⟨s, asked⟩ := σ
  have hs : Session s asked := session_of_reachable h
  have hsent : s.state.isExitNode = true → s.state.hasSentNodeInfo = false := by
    intro hexit
    cases hb : s.state.hasSentNodeInfo with
    | false => rfl
    | true => exact absurd (hg hinit hexit) (by simp [hs.asked hb])
  cases hsink : s.state.isSinkNode with
  | true =>
    refine ⟨completes_step_initializes_sink hinit hsink, fun hexit => ?_⟩
    exact absurd (hs.notSink hexit) (by simp [hsink])
  | false =>
    obtain ⟨o, hops, q, hstep⟩ := step_initializes hinit hsink
    rw [hstep]
    generalize (match e.1 with
      | .broadcastRecv r | .neighborRecv r => r.payload
      | _ => [PacketType.initializeBestPaths.toByte]) = data
    -- the node when it has passed the packet on
    let t := (s.wake e.2).reliableBroadcastNs o hops q data
    have ht : SameRoute s t := (sameRoute_wake e.2).trans (sameRoute_reliableBroadcastNs ..)
    have hc : Completes t.calls := by
      change Completes ([] ++ [.call _])
      rw [List.nil_append]
      exact completes_call
    refine ⟨completes_initializeHandler hc hsent, fun hexit => ?_⟩
    have hns : t.connNs = some s.ns.addrs := if_pos (hs.ecNs hexit)
    let p : PathPacket := .nodeInfo s.coordinateNode s.toBest.bestNeighborBpToOurBp
    refine ⟨⟨t.rimeaddrNodeAddr, t.rimeaddrNodeAddr, 0, t.seqno, p.bytes⟩, ?_, advertOf_bytes p⟩
    change _ ∈ t.initializeBestPathPacketHandler.calls
    rw [calls_initializeHandler (s := t) hexit, hns, (sameRoute_toBest ht).ourBp, List.mem_append]
    right
    simp only [List.mem_cons, reduceCtorEq, false_or, List.not_mem_nil, or_false]
    exact .inr rfl

/-! ### An exit initialised twice -/

/-- The flooded packet number `q` that initialises the system. -/
def initEvent (q : UInt8) : AppEvent × ClockReading :=
  (.broadcastRecv ⟨⟨90, 0⟩, ⟨90, 0⟩, 0, q, [PacketType.initializeBestPaths.toByte], 1⟩, ⟨0, 0⟩)

/-- The set-up of an exit with one neighbour. -/
def exitSetup : AppEvent × ClockReading :=
  (.serial (.simulationSetup ⟨⟨10, 0⟩, ⟨⟨0, 0⟩, ⟨0, 0⟩⟩, 1, [⟨20, 0⟩]⟩), ⟨0, 0⟩)

/-- One event of the session, `none` when it cannot occur or an assertion fails. -/
def advanceSession (e : AppEvent × ClockReading) (σ : Node × Bool) : Option (Node × Bool) :=
  (σ.1.advance e).map fun t => (t, σ.1.askedAfter σ.2 e.1)

theorem sessionMachine_step_of_advance {e : AppEvent × ClockReading} {σ σ' : Node × Bool}
    (h : advanceSession e σ = some σ') : sessionMachine.step e σ σ' := by
  obtain ⟨t, ht, rfl⟩ := Option.map_eq_some_iff.mp h
  exact ⟨nodeMachine_step_of_advance ht, rfl⟩

/-- An exit is set up, initialised, and reset from its flash. -/
def initReset : List (AppEvent × ClockReading) := [exitSetup, initEvent 0, resetEvent]

/-- It may be initialised again, and announces itself again. -/
theorem announced_initReset : ∃ s, sessionMachine.ReachableWhen SessionGuard (s, false) ∧
    s.seqno = 1 ∧ s.state.isResetMode = true ∧ Completes (s.step (initEvent 1)).calls ∧
      ∃ a, Effect.call (.reliableBroadcastNs (some s.ns.addrs) a) ∈ (s.step (initEvent 1)).calls ∧
        advertOf a.data = some (.nodeInfo s.coordinateNode s.toBest.bestNeighborBpToOurBp) := by
  have h : ((Machine.run advanceSession initReset
      (resetNodeProperties rimeaddrNull none, false)).map fun σ =>
        decide (σ.2 = false ∧ σ.1.state.isExitNode = true ∧ σ.1.seqno = 1 ∧
          σ.1.state.isResetMode = true)) = some true := by decide +kernel
  obtain ⟨⟨s, asked⟩, hrun, hσ⟩ := Option.map_eq_some_iff.mp h
  obtain ⟨hasked, hexit, hseqno, hmode⟩ := of_decide_eq_true hσ
  obtain rfl : asked = false := hasked
  have hreach : sessionMachine.ReachableWhen SessionGuard (s, false) :=
    Machine.ReachableWhen.of_run (b := fun σ e => decide (SessionGuard σ e))
      (fun _ _ => of_decide_eq_true) (fun _ _ _ => sessionMachine_step_of_advance) _
      (.init ⟨⟨rimeaddrNull, none, rfl, completes_nil⟩, rfl⟩) (by decide +kernel) hrun
  obtain ⟨hc, hann⟩ := announced_of_reachable (e := initEvent 1) hreach (fun _ _ => rfl) rfl
  exact ⟨s, hreach, hseqno, hmode, hc, hann hexit⟩

/-- **The second initialisation of an exit fails.** -/
theorem not_completes_initialize :
    ∃ s, nodeMachine.Reachable s ∧ ¬ Completes (s.step (initEvent 1)).calls := by
  have h : ((Machine.run advance [exitSetup, initEvent 0]
      (resetNodeProperties rimeaddrNull none)).map fun s =>
        decide (Completes (s.step (initEvent 1)).calls)) = some false := by decide +kernel
  obtain ⟨s, hrun, hfails⟩ := Option.map_eq_some_iff.mp h
  exact ⟨s, reachable_of_run hrun, of_decide_eq_false hfails⟩

end Node

end EmergencyNet
