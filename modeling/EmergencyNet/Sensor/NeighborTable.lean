import EmergencyNet.App.Light
import EmergencyNet.Sensor.Capacity

/-!
# The neighbour set of a node that has not been set up

The connection is opened and its callbacks are live before `c->ns` is set, which only a
set-up does.  Until then a node is dark, in no mode and without a best neighbour, so most of
its code does not get as far as the neighbour set; the receive function of the neighbour
channel and the flooding of an `INITIALIZE` or `RESET` packet do.

## Main definitions

* `Node.Unset` — a node that has not been set up.
* `AppEvent.AsksNeighbors`, `EcNode.ReadsNeighbors` — the events that read the set.

## Main results

* `nullNeighbors_iff` — **when a reachable node reads its neighbour set before it exists.**
* `not_neighborsExist` — a node that does.
-/

namespace EmergencyNet

/-- The event has the neighbour set read at a node that has not been set up. -/
def AppEvent.AsksNeighbors : AppEvent → Prop
  | .broadcastRecv r =>
    packetTypeAt r.data = some .initializeBestPaths ∨ packetTypeAt r.data = some .resetSystem
  | .serial .init => True
  | _ => False

namespace Node

variable {s t : Node} {e : AppEvent}

/-- A node that has not been set up: it is dark, and neither in reset mode nor the sink. -/
structure Unset (s : Node) : Prop extends Dark s where
  ecNs : s.ecNs = false
  isResetMode : s.state.isResetMode = false
  isSinkNode : s.state.isSinkNode = false

/-- No call has been given a `NULL` neighbour set. -/
structure Quiet (s : Node) : Prop where
  known : ∀ a, Effect.call (.reliableBroadcastNs none a) ∉ s.calls

namespace Quiet

theorem of_adds (h : Quiet s) (hadds : Adds 0 s t) : Quiet t := by
  obtain ⟨l, hl, hmakes⟩ := hadds
  constructor
  intro a hmem
  rw [hl, List.mem_append] at hmem
  rcases hmem with hmem | hmem
  · exact h.known a hmem
  · -- a call would be a packet
    exact absurd ((packets_le_of_mem hmem).trans hmakes.packets) (Nat.not_succ_le_zero 0)

theorem call (h : Quiet s) {c : EcCall} (hc : ∀ a, c ≠ .reliableBroadcastNs none a) :
    Quiet (s.call c) := by
  constructor
  intro a hmem
  rcases List.mem_append.mp hmem with hmem | hmem
  · exact h.known a hmem
  · exact hc a (Effect.call.inj (List.mem_singleton.mp hmem)).symm

theorem broadcast (h : Quiet s) (o : Rimeaddr) (hops q : UInt8) (data : List UInt8) :
    Quiet (s.broadcast o hops q data) := h.call fun _ heq => by cases heq

theorem broadcastOwn (h : Quiet s) (data : List UInt8) : Quiet (s.broadcastOwn data) :=
  ⟨(h.broadcast s.rimeaddrNodeAddr 0 s.seqno data).known⟩

end Quiet

/-! ### The broadcasts -/

/-- A node that has not been set up handles broadcasts as a sensor. -/
theorem Unset.ecBroadcastsRecv_eq (h : Unset s) (r : RecvArgs) :
    ecBroadcastsRecv r s = sensorBroadcastsRecv r s := by
  unfold ecBroadcastsRecv ignoredInResetMode
  simp [h.isResetMode, h.isSinkNode]

/-- An `INITIALIZE` or `RESET` packet is flooded before anything else is done. -/
theorem Unset.calls_asks (h : Unset s) (h0 : s.calls = []) {r : RecvArgs}
    (hr : (AppEvent.broadcastRecv r).AsksNeighbors) :
    ∃ a l, (ecBroadcastsRecv r s).calls = .call (.reliableBroadcastNs none a) :: l := by
  have hns : s.connNs = none := by simp [connNs, h.ecNs]
  rw [h.ecBroadcastsRecv_eq]
  unfold sensorBroadcastsRecv
  have hfirst : (s.reliableBroadcastNs r.originator (r.hops + 1) r.seqno r.payload).calls =
      [.call (.reliableBroadcastNs none
        ⟨r.originator, s.rimeaddrNodeAddr, r.hops + 1, r.seqno, r.payload⟩)] := by
    simp [reliableBroadcastNs, Node.call, h0, hns]
  rcases hr with hr | hr <;> simp only [hr]
  · obtain ⟨l, hl, -⟩ := adds_initHandler
      (s := s.reliableBroadcastNs r.originator (r.hops + 1) r.seqno r.payload)
    rw [hl, hfirst]
    exact ⟨_, l, rfl⟩
  · obtain ⟨l, hl, -⟩ := adds_resetSystem
      (s := s.reliableBroadcastNs r.originator (r.hops + 1) r.seqno r.payload)
    rw [hl, hfirst]
    exact ⟨_, l, rfl⟩

theorem Unset.quiet_broadcasts (h : Unset s) (hq : Quiet s) {r : RecvArgs}
    (hr : ¬ (AppEvent.broadcastRecv r).AsksNeighbors) : Quiet (ecBroadcastsRecv r s) := by
  rw [h.ecBroadcastsRecv_eq]
  unfold sensorBroadcastsRecv
  split
  · exact ((hq.of_adds (adds_addCoordinateAsBurning _)).broadcast ..).of_adds adds_blinkingInit
  · exact Quiet.broadcast (s := removeCoordinateAsBurning _ s) ⟨hq.known⟩ ..
  · split
    · exact Quiet.of_adds (s := { s with state := _ }) ⟨hq.known⟩ (adds_setupParse ..)
    · exact hq
  · next ht => exact absurd (.inl ht) hr
  · have hsent := (hq.broadcast r.originator (r.hops + 1) r.seqno r.payload).call
      (c := .mesh r.originator (s.broadcast r.originator (r.hops + 1) r.seqno r.payload).seqno
        s.nodeReportBytes) fun _ heq => by cases heq
    exact ⟨hsent.known⟩
  · next ht => exact absurd (.inr ht) hr
  · exact hq.of_adds (adds_assert false)

theorem Unset.broadcasts (h : Unset s) {r : RecvArgs}
    (hr : ¬ (AppEvent.broadcastRecv r).AsksNeighbors) (hc : Completes (ecBroadcastsRecv r s).calls) :
    (ecBroadcastsRecv r s).ecNs = true ∨ Unset (ecBroadcastsRecv r s) := by
  rw [h.ecBroadcastsRecv_eq] at hc ⊢
  unfold sensorBroadcastsRecv at hc ⊢
  split at hc
  · -- an emergency would turn the light on
    refine absurd hc (not_completes_blinkingInit ?_)
    have hroute : SameRoute s ((addCoordinateAsBurning (coordinateAt r.data 1) s).broadcast
        r.originator (r.hops + 1) r.seqno r.payload) :=
      (sameRoute_addCoordinateAsBurning _).trans (sameRoute_broadcast ..)
    refine ⟨hroute.bpn.trans h.bpn, hroute.isBurning.trans h.isBurning, ?_⟩
    have hstate : (addCoordinateAsBurning (coordinateAt r.data 1) s).state = s.state := by
      unfold addCoordinateAsBurning
      split <;> rfl
    exact (congrArg NodeState.isBlinking hstate).trans h.isBlinking
  · exact .inr ⟨⟨h.bpn, h.isBurning, h.isBlinking⟩, h.ecNs, h.isResetMode, h.isSinkNode⟩
  · split
    · exact .inl (configured_setupParse ..).1.ecNs
    · exact .inr h
  · next ht => exact absurd (.inl ht) hr
  · exact .inr ⟨⟨h.bpn, h.isBurning, h.isBlinking⟩, h.ecNs, h.isResetMode, h.isSinkNode⟩
  · next ht => exact absurd (.inr ht) hr
  · exact .inr ⟨⟨h.bpn, h.isBurning, h.isBlinking⟩, h.ecNs, h.isResetMode, h.isSinkNode⟩

/-! ### The other events -/

/-- A reading is recorded at most. -/
theorem Unset.emergencyCheck_eq (h : Unset s) (light : UInt16) :
    s = handle (.emergencyCheck light) s ∨ s.sensed light = handle (.emergencyCheck light) s := by
  have habrupt : abruptReading light s = s.sensed light := by
    unfold abruptReading
    simp only
    split
    · exact if_neg fun hand : s.bpn ≠ .null ∧ ¬ s.state.isBurning = true => hand.1 h.bpn
    · exact if_neg fun hblink : s.state.isBlinking = true => by simp [h.isBlinking] at hblink
  unfold handle emergencyCheck
  simp only [habrupt]
  split
  · split
    · exact .inr rfl
    · exact .inl rfl
  · exact .inl rfl

theorem Unset.quiet_handle (h : Unset s) (hq : Quiet s) (hen : s.Enabled e)
    (hask : ¬ e.AsksNeighbors) : Quiet (handle e s) := by
  cases e with
  | broadcastRecv r => exact h.quiet_broadcasts hq hask
  | neighborRecv r => exact absurd (hen.1.symm.trans h.ecNs) (by decide)
  | mcUcRecv r => exact hq.of_adds (adds_ecMcUcRecv r)
  | timesynched => exact hq.of_adds adds_blinkingUpdate
  | button => exact ⟨hq.known⟩
  | serial c =>
    cases c with
    | simulationSetup sp => exact hq.of_adds (adds_setupParse _ false s)
    | init => exact absurd trivial hask
    | sink => exact ⟨(hq.of_adds (adds_setupParse _ false s)).known⟩
    | sendInitPacket => exact hq.broadcastOwn _
    | resetSystemPacket => exact hq.broadcastOwn _
    | extractReportPacket => exact hq.broadcastOwn _
    | sendSetupPacket sp => exact (hq.of_adds (adds_assert _)).broadcastOwn _
  | emergencyCheck light =>
    rcases h.emergencyCheck_eq light with heq | heq
    · exact heq ▸ hq
    · exact heq ▸ ⟨hq.known⟩
  | keepaliveSend =>
    have heq : handle .keepaliveSend s = s := if_neg (by simp [h.isBlinking])
    rwa [heq]
  | keepaliveCheck =>
    have heq : handle .keepaliveCheck s = s := if_neg (by simp [h.isBlinking])
    rwa [heq]

theorem Unset.handle (h : Unset s) (hen : s.Enabled e) (hask : ¬ e.AsksNeighbors)
    (hc : Completes (handle e s).calls) : (handle e s).ecNs = true ∨ Unset (handle e s) := by
  have hsame : ∀ t : Node, t.bpn = s.bpn → t.state.isBurning = s.state.isBurning →
      t.state.isBlinking = s.state.isBlinking → t.ecNs = s.ecNs →
      t.state.isResetMode = s.state.isResetMode → t.state.isSinkNode = s.state.isSinkNode →
      Unset t := fun t h₁ h₂ h₃ h₄ h₅ h₆ => ⟨⟨h₁.trans h.bpn, h₂.trans h.isBurning,
        h₃.trans h.isBlinking⟩, h₄.trans h.ecNs, h₅.trans h.isResetMode, h₆.trans h.isSinkNode⟩
  cases e with
  | broadcastRecv r => exact h.broadcasts hask hc
  | neighborRecv r => exact absurd (hen.1.symm.trans h.ecNs) (by decide)
  | mcUcRecv r =>
    right
    change Unset (ecMcUcRecv r s)
    unfold ecMcUcRecv
    split
    · obtain ⟨calls, heq, -⟩ := addNeighbors_eq [r.originator] s
      rw [heq]
      exact hsame _ rfl rfl rfl rfl rfl rfl
    · exact hsame _ rfl rfl rfl rfl rfl rfl
  | timesynched =>
    have heq : Node.handle .timesynched s = s := if_neg (by simp [h.isBlinking])
    exact .inr (by rwa [heq])
  | button => exact .inr (hsame _ rfl rfl rfl rfl rfl rfl)
  | serial c =>
    cases c with
    | simulationSetup sp => exact .inl (configured_setupParse ..).1.ecNs
    | init => exact absurd trivial hask
    | sink =>
      exact .inl (configured_setupParse (PacketType.setup.toByte :: List.replicate 10 0) false s).1.ecNs
    | sendInitPacket => exact .inr (hsame _ rfl rfl rfl rfl rfl rfl)
    | resetSystemPacket => exact .inr (hsame _ rfl rfl rfl rfl rfl rfl)
    | extractReportPacket => exact .inr (hsame _ rfl rfl rfl rfl rfl rfl)
    | sendSetupPacket sp => exact .inr (hsame _ rfl rfl rfl rfl rfl rfl)
  | emergencyCheck light =>
    rcases h.emergencyCheck_eq light with heq | heq
    · exact .inr (heq ▸ h)
    · exact .inr (heq ▸ hsame (s.sensed light) rfl rfl rfl rfl rfl rfl)
  | keepaliveSend =>
    have heq : Node.handle .keepaliveSend s = s := if_neg (by simp [h.isBlinking])
    exact .inr (by rwa [heq])
  | keepaliveCheck =>
    have heq : Node.handle .keepaliveCheck s = s := if_neg (by simp [h.isBlinking])
    exact .inr (by rwa [heq])

/-- The events that ask for the neighbour set start with the call that reads it. -/
theorem Unset.calls_of_asks (h : Unset s) (h0 : s.calls = []) (hask : e.AsksNeighbors) :
    ∃ a l, (Node.handle e s).calls = .call (.reliableBroadcastNs none a) :: l := by
  cases e with
  | broadcastRecv r => exact h.calls_asks h0 hask
  | serial c =>
    cases c with
    | init => exact h.calls_asks h0 (r := ⟨⟨0xFE, 0xFE⟩, ⟨0xFE, 0xFE⟩, 0, 0,
        [PacketType.initializeBestPaths.toByte], 1⟩) (.inl rfl)
    | simulationSetup | sink | sendInitPacket | resetSystemPacket | extractReportPacket
    | sendSetupPacket => exact hask.elim
  | neighborRecv | mcUcRecv | timesynched | button | emergencyCheck | keepaliveSend
  | keepaliveCheck => exact hask.elim

/-! ### Whole nodes -/

/-- The node has been set up, or nothing has happened to it. -/
def KnowsNeighbors (s : Node) : Prop := s.ecNs = true ∨ Unset s

theorem Unset.wake (h : Unset s) (c : ClockReading) : Unset (s.wake c) :=
  ⟨⟨h.bpn, h.isBurning, h.isBlinking⟩, h.ecNs, h.isResetMode, h.isSinkNode⟩

/-- What an event leaves that does not read a `NULL` neighbour set. -/
theorem KnowsNeighbors.step (h : KnowsNeighbors s) (hen : s.Enabled e) {c : ClockReading}
    (hc : Completes (s.step (e, c)).calls)
    (hq : ∀ a, Effect.call (.reliableBroadcastNs none a) ∉ (s.step (e, c)).calls) :
    KnowsNeighbors (s.step (e, c)) := by
  rcases h with h | h
  · exact .inl ((adds_step s (e, c)).ecNs h)
  · refine (h.wake c).handle (e := e) ?_ ?_ hc
    · cases e <;> exact hen
    · intro hask
      obtain ⟨a, l, hl⟩ := (h.wake c).calls_of_asks rfl hask
      refine hq a ?_
      change _ ∈ (Node.handle e (s.wake c)).calls
      rw [hl]
      exact List.mem_cons_self

theorem KnowsNeighbors.synched (h : KnowsNeighbors s) (ht : mainRegSensor.Synched s t) :
    KnowsNeighbors t := by
  induction ht with
  | refl => exact h
  | @tail t u _ hcall ih =>
    have hstep : mainRegSensor.timesynch t = (t.step (.timesynched, t.now),
      decide (Completes (t.step (.timesynched, t.now)).calls)) := rfl
    rw [hstep, Prod.mk.injEq, decide_eq_true_iff] at hcall
    obtain ⟨rfl, hc⟩ := hcall
    rcases ih with ih | ih
    · exact .inl ((adds_step t (.timesynched, t.now)).ecNs ih)
    · exact (ih.wake t.now).handle (e := .timesynched) trivial id hc

end Node

open Node

variable {s : EcNode Node} {ev : NodeEvent ProcessEvent}

theorem knowsNeighbors_of_reachable (h : sensorMachine.Reachable s) : s.app.KnowsNeighbors := by
  refine h.invariant (I := fun s => s.app.KnowsNeighbors) ?_ ?_
  · rintro s ⟨-, addr, flash, happ, -⟩
    rw [happ]
    cases flash with
    | none => exact .inr ⟨⟨rfl, rfl, rfl⟩, rfl, rfl, rfl⟩
    | some f => exact .inl (configured_setupParse ..).1.ecNs
  · rintro s ev s' hs - ⟨-, hstep⟩
    obtain ⟨happ, hc, hq, -⟩ := sensor_ran hstep
    refine KnowsNeighbors.synched ?_ happ
    cases he : s.appEvent ev with
    | some e =>
      rw [upcall_of_appEvent he] at hc hq ⊢
      exact hs.step (enabled_of_appEvent he) (hc _ rfl) (hq _ rfl)
    | none =>
      rcases upcall_of_appEvent_none he with hcode | ⟨c, hcode⟩
      · rw [hcode]
        exact hs
      · rw [hcode]
        exact hs.imp id fun h => h.wake c

/-- The event gets a node without neighbour set as far as reading it: any frame for the node on
the neighbour channel does, a new `INITIALIZE` or `RESET` packet, and the serial command that
simulates one. -/
def EcNode.ReadsNeighbors (s : EcNode Node) (ev : NodeEvent ProcessEvent) : Prop :=
  (∃ pb a, ev = .receive .neighbor pb ∧ receivePacket s.app.rimeaddrNodeAddr pb = some a ∧
    a.isForUs = true) ∨
  ∃ e, s.appEvent ev = some e ∧ e.AsksNeighbors

/-- **When a node reads its neighbour set before it exists**: in no reachable state that has been
set up, and before that at exactly these events. -/
theorem nullNeighbors_iff (h : sensorMachine.Reachable s) (ev : NodeEvent ProcessEvent) :
    s.step mainRegSensor ev = .error .nullNeighbors ↔ s.app.ecNs = false ∧ s.ReadsNeighbors ev := by
  have hknows := knowsNeighbors_of_reachable h
  constructor
  · intro hnull
    rcases EcNode.step_nullNeighbors hnull with ⟨pb, a, rfl, ha, hfor, hns⟩ | ⟨code, hcode, a, hmem⟩
    · have hunset : s.app.ecNs = false := by
        cases hset : s.app.ecNs with
        | false => rfl
        | true =>
          have hsome : s.app.connNs = none := hns
          simp [connNs, hset] at hsome
      exact ⟨hunset, .inl ⟨pb, a, rfl, ha, hfor⟩⟩
    · cases he : s.appEvent ev with
      | none =>
        rcases upcall_of_appEvent_none he with hnone | ⟨c, hclock⟩
        · rw [hnone] at hcode
          cases hcode
        · rw [hclock] at hcode
          cases hcode
          cases hmem
      | some e =>
        rw [upcall_of_appEvent he] at hcode
        cases hcode
        have hunset : Unset s.app := hknows.resolve_left fun hset =>
          (adds_step s.app (e, s.app.now)).known hset a hmem
        refine ⟨hunset.ecNs, .inr ⟨e, he, ?_⟩⟩
        -- without such an event the code asks for no neighbours
        by_contra hask
        have hen : (s.app.wake s.app.now).Enabled e := by
          have hen := enabled_of_appEvent he
          cases e <;> exact hen
        exact ((hunset.wake s.app.now).quiet_handle ⟨fun _ => List.not_mem_nil⟩ hen hask).known a hmem
  · rintro ⟨hunset, hreads⟩
    have hu : Unset s.app := hknows.resolve_left fun hset => by simp [hunset] at hset
    rcases hreads with ⟨pb, a, rfl, ha, hfor⟩ | ⟨e, he, hask⟩
    · change s.neighborRecv mainRegSensor.toEcCallbacks pb = _
      have hns : mainRegSensor.ns s.app = none := by
        change s.app.connNs = none
        simp [connNs, hunset]
      have ha' : receivePacket (mainRegSensor.addr s.app) pb = some a := ha
      simp only [EcNode.neighborRecv, ha', hfor, hns, if_true]
    · obtain ⟨a, l, hl⟩ := (hu.wake s.app.now).calls_of_asks rfl hask
      -- the call with the `NULL` set is the first thing the code does
      have hfirst : ∀ c t, EcNode.runEffects mainRegSensor.toEcCallbacks (s.app.react e).2 ⟨c, t⟩ =
          .error .nullNeighbors := by
        intro c t
        change EcNode.runEffects _ (Node.handle e (s.app.wake s.app.now)).calls _ = _
        rw [hl]
        rfl
      cases ev with
      | process p =>
        cases p <;> cases he <;> first | exact hask.elim | exact hfirst ..
      | receive ch pb =>
        obtain ⟨⟨k, r⟩, hd, rfl⟩ := Option.map_eq_some_iff.mp he
        cases k with
        | broadcastRecv => exact EcNode.step_of_broadcast_error hd (hfirst ..)
        | multicastUnicastRecv | neighborRecv => exact hask.elim
      | expire | timer | meshSent | meshTimeout => cases he

/-! ### A node that has not been set up -/

/-- A frame that reaches a node before anything else does. -/
def earlyFrame : NodeEvent ProcessEvent :=
  .receive .neighbor (neighborFrame 0 [PacketType.keepAliveNeighbor.toByte])

/-- A node without stored set-up data reads its neighbour set at the first frame it hears. -/
theorem nullNeighbors_earlyFrame : ∃ s, sensorMachine.Reachable s ∧
    s.step mainRegSensor earlyFrame = .error .nullNeighbors := by
  have hreach : sensorMachine.Reachable (.poweredUp rimeaddrNull none) :=
    .init (sensorMachine_init (by decide))
  refine ⟨_, hreach, (nullNeighbors_iff hreach earlyFrame).mpr ⟨rfl, .inl ?_⟩⟩
  exact ⟨_, ⟨true, false, false, [PacketType.keepAliveNeighbor.toByte], 1⟩, rfl, rfl, rfl⟩

/-- **The neighbour set is read before it exists.** -/
theorem not_neighborsExist : ∃ s, sensorMachine.Reachable s ∧ mainRegSensor.ns s.app = none ∧
    s.step mainRegSensor earlyFrame = .error .nullNeighbors := by
  have h : faultOf ((EcNode.poweredUp rimeaddrNull none).step mainRegSensor earlyFrame) =
      some .nullNeighbors := by decide +kernel
  exact ⟨_, .init (sensorMachine_init (by decide)), rfl, faultOf_eq_some.mp h⟩

end EmergencyNet
