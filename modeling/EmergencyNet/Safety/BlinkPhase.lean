import EmergencyNet.Safety.Direction

/-!
# The phase of the blinking light

`blinking_update` sets the step of the blinking sequence from the number of hops of the best
neighbour and the synchronised number of the slot in which the timer wakes the node up, and
`blink` counts both on.  The sequence runs along the path as long as nothing else changes one
of them: `bpn`, the hops in its entry, or the offset of the synchronised clock.

## Main definitions

* `Light` — the variables that decide what the light shows next.
* `Light.InPhase` — the step that is due is that of the route in its slot.
* `Node.keptRoute` — the node an event leaves to a light that it does not set anew.
* `LightEvent`, `lightMachine` — the node with the timer of its light.
* `Node.PhaseGuard` — the events that neither change the hops of the route nor move the clock
  without `blinking_update`.

## Main results

* `Node.light_handle` — **what every event does to the light.**
* `Node.inPhase_step_iff` — when a step leaves the light in phase.
* `Node.inPhase_of_reachable` — **in a guarded run the light is in phase.**
* `Node.not_inPhase_nodeInfo` — a node info that changes the hops of the best neighbour does
  not.
-/

namespace EmergencyNet

/-! ### What the light shows next -/

/-- What decides how the light goes on: `g_np.blinking`, the two flags, `offset`, `g_np.bpn`
and the hops in the entry it points to. -/
@[ext]
structure Light where
  blinking : Blinking
  isBlinking : Bool
  isBurning : Bool
  offset : UInt16
  bpn : NeighborPtr
  hops : UInt8

namespace Light

variable {l : Light}

/-- The synchronised number of the slot in which the timer wakes the node up. -/
def slot (l : Light) : UInt16 :=
  (l.blinking.nextWakeup + l.offset) / Node.blinkingSequenceSwitchTime

/-- The step of the blinking sequence that the route has in that slot. -/
def phase (l : Light) : UInt16 := (l.hops.toUInt16 + 1 + l.slot) % Node.blinkingSequenceLength

/-- If the light blinks and the node does not burn, the step that is due is that of the
route. -/
def InPhase (l : Light) : Prop :=
  l.isBlinking = true → l.isBurning = false →
    l.bpn ≠ .null ∧ l.blinking.state % Node.blinkingSequenceLength = l.phase

instance (l : Light) : Decidable l.InPhase := by unfold InPhase; infer_instance

/-- The light after a step of the sequence. -/
def next (l : Light) : Light :=
  { l with
    blinking :=
      { nextWakeup := l.blinking.nextWakeup + Node.blinkingSequenceSwitchTime
        state := (l.blinking.state + 1) % Node.blinkingSequenceLength } }

@[simp] theorem next_isBlinking : l.next.isBlinking = l.isBlinking := by rw [next]

@[simp] theorem next_isBurning : l.next.isBurning = l.isBurning := by rw [next]

@[simp] theorem next_bpn : l.next.bpn = l.bpn := by rw [next]

@[simp] theorem next_hops : l.next.hops = l.hops := by rw [next]

theorem next_state :
    l.next.blinking.state = (l.blinking.state + 1) % Node.blinkingSequenceLength := by rw [next]

/-- The light as `blinking_update` sets it at the synchronised time `now`. -/
def update (now : UInt16) (l : Light) : Light :=
  let sequencesNext := now / Node.blinkingSequenceSwitchTime + 1
  { l with
    blinking :=
      { nextWakeup := sequencesNext * Node.blinkingSequenceSwitchTime - l.offset
        state := (l.hops.toUInt16 + 1 + sequencesNext) % Node.blinkingSequenceLength } }

/-- The next slot has the next number; the sixteen slots of a turn of the clock are two
sequences. -/
theorem slot_next (h : UInt16) : (h + 1 + l.next.slot) % Node.blinkingSequenceLength =
    ((h + 1 + l.slot) % Node.blinkingSequenceLength + 1) % Node.blinkingSequenceLength := by
  have hslot : l.next.slot = (l.blinking.nextWakeup + l.offset + Node.blinkingSequenceSwitchTime) /
      Node.blinkingSequenceSwitchTime := by
    rw [slot, next]
    dsimp only
    rw [UInt16.add_assoc, UInt16.add_comm Node.blinkingSequenceSwitchTime, ← UInt16.add_assoc]
  rw [hslot]
  unfold slot
  generalize l.blinking.nextWakeup + l.offset = x
  have hswitch : Node.blinkingSequenceSwitchTime.toNat = 4096 := rfl
  have hlen : Node.blinkingSequenceLength.toNat = 8 := rfl
  have hx := x.toNat_lt
  rw [← UInt16.toNat_inj]
  simp only [UInt16.toNat_mod, UInt16.toNat_add, UInt16.toNat_div, hswitch, hlen,
    UInt16.reduceToNat]
  omega

/-- The number of the slot `blinking_update` waits for. -/
theorem slot_update (h now : UInt16) : (h + 1 + (l.update now).slot) % Node.blinkingSequenceLength =
    (h + 1 + (now / Node.blinkingSequenceSwitchTime + 1)) % Node.blinkingSequenceLength := by
  have hslot : (l.update now).slot = ((now / Node.blinkingSequenceSwitchTime + 1) *
      Node.blinkingSequenceSwitchTime) / Node.blinkingSequenceSwitchTime := by
    rw [slot, update]
    exact congrArg (· / Node.blinkingSequenceSwitchTime) (UInt16.sub_add_cancel _ _)
  rw [hslot]
  have hswitch : Node.blinkingSequenceSwitchTime.toNat = 4096 := rfl
  have hlen : Node.blinkingSequenceLength.toNat = 8 := rfl
  have hnow := now.toNat_lt
  rw [← UInt16.toNat_inj]
  simp only [UInt16.toNat_mod, UInt16.toNat_add, UInt16.toNat_div, UInt16.toNat_mul, hswitch, hlen,
    UInt16.reduceToNat]
  omega

theorem mod_mod_sequence (x : UInt16) :
    x % Node.blinkingSequenceLength % Node.blinkingSequenceLength =
      x % Node.blinkingSequenceLength := by
  have hlen : Node.blinkingSequenceLength.toNat = 8 := rfl
  rw [← UInt16.toNat_inj]
  simp only [UInt16.toNat_mod, hlen]
  omega

/-- Counting on does not hide a difference of the steps. -/
theorem succ_mod_sequence (x y : UInt16) :
    (x + 1) % Node.blinkingSequenceLength =
        (y % Node.blinkingSequenceLength + 1) % Node.blinkingSequenceLength ↔
      x % Node.blinkingSequenceLength = y % Node.blinkingSequenceLength := by
  have hlen : Node.blinkingSequenceLength.toNat = 8 := rfl
  have hx := x.toNat_lt
  have hy := y.toNat_lt
  rw [← UInt16.toNat_inj, ← UInt16.toNat_inj]
  simp only [UInt16.toNat_mod, UInt16.toNat_add, hlen, UInt16.reduceToNat]
  omega

/-- **A light is in phase after a step of the sequence if it was before.** -/
theorem inPhase_next : InPhase l.next ↔ InPhase l := by
  have hstep : l.next.blinking.state % Node.blinkingSequenceLength = l.next.phase ↔
      l.blinking.state % Node.blinkingSequenceLength = l.phase := by
    rw [next_state, mod_mod_sequence, phase, phase, next_hops, slot_next, succ_mod_sequence]
  rw [InPhase, InPhase, next_isBlinking, next_isBurning, next_bpn, hstep]

/-- `blinking_update` sets a light that has a direction in phase. -/
theorem inPhase_update (now : UInt16) (hbpn : l.bpn ≠ .null) : InPhase (l.update now) := by
  intro _ _
  refine ⟨hbpn, ?_⟩
  change (l.hops.toUInt16 + 1 + (now / Node.blinkingSequenceSwitchTime + 1)) %
    Node.blinkingSequenceLength % Node.blinkingSequenceLength =
      (l.hops.toUInt16 + 1 + (l.update now).slot) % Node.blinkingSequenceLength
  rw [mod_mod_sequence, slot_update]

end Light

namespace Node

variable {s t u : Node}

/-! ### The light of a node -/

/-- The light of a node. -/
def light (s : Node) : Light where
  blinking := s.blinking
  isBlinking := s.state.isBlinking
  isBurning := s.state.isBurning
  offset := s.offset
  bpn := s.bpn
  hops := (s.deref s.bpn).hops

/-- The step of the light that is due is that of the current route. -/
def InPhase (s : Node) : Prop := s.light.InPhase

instance (s : Node) : Decidable s.InPhase := by unfold InPhase; infer_instance

theorem sameRoute_blink : SameRoute s s.blink := by
  have hset : ∀ b : Blinking, SameRoute s { s.assert (s.bpn ≠ .null) with blinking := b } :=
    fun b => ⟨⟨rfl⟩, id, id⟩
  unfold blink
  split
  · exact hset _
  · exact .refl s

theorem light_blink (h : s.state.isBlinking = true ∧ ¬ s.state.isBurning = true) :
    s.blink.light = s.light.next := by
  have hhops : (s.blink.deref s.blink.bpn).hops = (s.deref s.bpn).hops := by
    rw [sameRoute_blink.bpn, sameRoute_blink.deref]
  apply Light.ext
  · simp only [light, Light.next, blink, if_pos h]
  · simp only [light, Light.next, blink, if_pos h, assert]
  · simp only [light, Light.next, blink, if_pos h, assert]
  · simp only [light, Light.next, blink, if_pos h, assert]
  · simp only [light, Light.next, blink, if_pos h, assert]
  · exact hhops

theorem light_blinkingUpdate (h : s.state.isBlinking = true ∧ ¬ s.state.isBurning = true) :
    s.blinkingUpdate.light = s.light.update s.timesynchTime := by
  have hhops : (s.blinkingUpdate.deref s.blinkingUpdate.bpn).hops = (s.deref s.bpn).hops := by
    rw [sameRoute_blinkingUpdate.bpn, sameRoute_blinkingUpdate.deref]
  apply Light.ext
  · simp only [light, Light.update, blinkingUpdate, if_pos h, timesynchTimeToRtimer]
  · simp only [light, Light.update, blinkingUpdate, if_pos h, assert]
  · simp only [light, Light.update, blinkingUpdate, if_pos h, assert]
  · simp only [light, Light.update, blinkingUpdate, if_pos h, assert]
  · simp only [light, Light.update, blinkingUpdate, if_pos h, assert]
  · exact hhops

/-- **`blinking_update` leaves a light in phase**, whatever it was before. -/
theorem inPhase_blinkingUpdate (hc : Completes s.blinkingUpdate.calls) :
    InPhase s.blinkingUpdate := by
  by_cases hon : s.state.isBlinking = true ∧ ¬ s.state.isBurning = true
  · have hbpn : s.bpn ≠ .null := by
      have hmem : Effect.assert (decide (s.bpn ≠ .null)) ∈ s.blinkingUpdate.calls := by
        rw [blinkingUpdate, if_pos hon]
        exact List.mem_append_right _ (List.mem_singleton_self _)
      exact of_decide_eq_true (hc _ hmem)
    rw [InPhase, light_blinkingUpdate hon]
    exact Light.inPhase_update _ hbpn
  · rw [blinkingUpdate, if_neg hon]
    exact fun hblink hburn => absurd ⟨hblink, Bool.not_eq_true _ ▸ hburn⟩ hon

/-! ### What an event leaves to the light -/

/-- The route after `initialize_best_path_packet_handler`. -/
def initRoute (s : Node) : Node := if s.state.isExitNode then s.toBest else s

/-- A reset sets the node up if there is something in the flash. -/
def resetRoute (s : Node) : Option Node := if s.flash.isSome then none else some s

/-- `keptRoute` for the packets of `ec_broadcasts_recv`. -/
def broadcastsRoute (r : RecvArgs) (s : Node) : Option Node :=
  match packetTypeAt r.data with
  | some .emergency => if s.state.isBlinking then some s else none
  | some .setup => if s.state.isAwaitingSetupPacket then none else some s
  | some .initializeBestPaths => some s.initRoute
  | some .resetSystem => s.resetRoute
  | _ => some s

/-- `keptRoute` for the packets of `ec_neighbors_recv`. -/
def neighborsRoute (r : RecvArgs) (s : Node) : Option Node :=
  match packetTypeAt r.data, neighborsFindNeighborNode s.ns r.sender with
  | some .bestPathUpdate, some i =>
    let t := s.pathWritten i (.bestPathUpdate (bestPathAt r.data 1))
    if t.Switches (.slot i) then none else some t
  | some .nodeInfo, some i =>
    let t := s.pathWritten i (.nodeInfo (coordinateAt r.data 1) (bestPathAt r.data 5))
    if s.state.hasSentNodeInfo ∧ (s.state.isExitNode ∨ ¬ t.Switches (.slot i)) then some t
    else some t.toBest
  | some .initializeBestPaths, _ => some s.initRoute
  | some .resetSystem, _ => s.resetRoute
  | _, _ => some s

/-- `keptRoute` for the check of the sensor. -/
def sensorRoute (light : UInt16) (s : Node) : Option Node :=
  if (¬ s.state.isAwaitingSetupPacket ∨ ¬ s.state.isSinkNode) ∧ s.abruptMetricChangePoll light then
    if isEmergency light then
      if s.bpn ≠ .null ∧ ¬ s.state.isBurning then none else some s
    else if s.state.isBlinking ∧ s.state.isBurning then none
    else some s
  else some s

/-- `keptRoute` for the keep-alive check. -/
def keepaliveRoute (s : Node) : Option Node :=
  if s.state.isBlinking then
    if s.sweep.needBroadcastNewPath ∧ s.dropSilent.Switches .null then none
    else some s.dropSilent
  else some s

/-- The node an event leaves to a light that goes on as it was; `none` if the code for the
event runs `blinking_update`, sets the node up or sets it on fire. -/
def keptRoute (s : Node) : AppEvent → Option Node
  | .broadcastRecv r =>
    if s.ignoredInResetMode r || s.state.isSinkNode then some s else s.broadcastsRoute r
  | .neighborRecv r =>
    if s.ignoredInResetMode r || s.state.isSinkNode then some s else s.neighborsRoute r
  | .mcUcRecv r =>
    if packetTypeAt r.data = some .imYourNewNeighbor then some (addNeighbors [r.originator] s)
    else some s
  | .timesynched | .serial (.simulationSetup _) | .serial .sink => none
  | .serial .init => if s.state.isSinkNode then some s else some s.initRoute
  | .serial _ | .button | .keepaliveSend => some s
  | .emergencyCheck light => s.sensorRoute light
  | .keepaliveCheck => s.keepaliveRoute

/-- The light of `t` is that of the node an event leaves to it, and in phase where the event
leaves none. -/
def Lit (t : Node) : Option Node → Prop
  | none => InPhase t
  | some u => t.light = u.light

/-- A node whose light is out is in phase. -/
theorem inPhase_of_dark (h : s.state.isBlinking = false) : InPhase s :=
  fun hblink => absurd (h.symm.trans hblink) Bool.false_ne_true

/-- A burning node is in phase. -/
theorem inPhase_of_burning (h : s.state.isBurning = true) : InPhase s :=
  fun _ hburn => absurd (hburn.symm.trans h) Bool.false_ne_true

/-- A light that nobody has touched. -/
theorem light_of_sameRoute (h : SameRoute s t) (hblinking : t.blinking = s.blinking)
    (hblink : t.state.isBlinking = s.state.isBlinking) (hoffset : t.offset = s.offset) :
    t.light = s.light := by
  refine Light.ext hblinking hblink h.isBurning hoffset h.bpn ?_
  exact congrArg NeighborNode.hops (by rw [h.bpn, h.deref])

theorem light_addCoordinateAsBurning (c : Coordinate) :
    (addCoordinateAsBurning c s).light = s.light := by
  unfold addCoordinateAsBurning
  split <;> rfl

theorem light_initHandler : s.initializeBestPathPacketHandler.light = s.initRoute.light := by
  unfold initRoute
  split
  · next hexit =>
    let t : Node := ({ s.call .timesynchOn with
      state := { (s.call .timesynchOn).state with isResetMode := false } } : Node).assert
        (!s.state.hasSentNodeInfo)
    have hst : SameRoute s t := ⟨⟨rfl⟩, id, fun _ => rfl⟩
    have hsend : s.initializeBestPathPacketHandler = t.updateBpnAndSendNodeInfo.sentNodeInfo := by
      rw [initializeBestPathPacketHandler]
      exact if_pos hexit
    have hbest : SameRoute s.toBest t.updateBpnAndSendNodeInfo :=
      (sameRoute_toBest hst).trans sameRoute_updateBpnAndSendNodeInfo
    rw [hsend]
    exact light_of_sameRoute (t := t.updateBpnAndSendNodeInfo) hbest rfl rfl rfl
  · next hexit =>
    have hsend : s.initializeBestPathPacketHandler =
        { s.call .timesynchOn with state := { s.state with isResetMode := false } } := by
      rw [initializeBestPathPacketHandler]
      exact if_neg hexit
    rw [hsend]
    rfl

/-- The initialisation is passed on first. -/
theorem lit_forwardInit (c : EcCall) :
    Lit (s.call c).initializeBestPathPacketHandler (some s.initRoute) := by
  have hbest : SameRoute s.toBest (s.call c).toBest := sameRoute_toBest (sameRoute_call c)
  rw [Lit, light_initHandler, initRoute, initRoute]
  change (if s.state.isExitNode = true then _ else _ : Node).light = _
  split
  · exact light_of_sameRoute hbest rfl rfl rfl
  · rfl

/-- A reset is passed on first. -/
theorem lit_forwardReset (c : EcCall) : Lit (s.call c).resetSystemPacketHandler s.resetRoute := by
  unfold resetSystemPacketHandler resetRoute
  rw [show (s.call c).flash = s.flash from rfl]
  cases s.flash with
  | none => rfl
  | some f => exact inPhase_of_dark (isBlinking_setupParse _ true (s.call c))

/-- `update_bpn_and_broadcast_new_path_if_changed` leaves the light alone. -/
theorem light_updateBpn (p : NeighborPtr) (s : Node) :
    (s.updateBpnAndBroadcastNewPathIfChanged p).2 = decide (s.Switches p) ∧
      (s.updateBpnAndBroadcastNewPathIfChanged p).1.light =
        (if s.Switches p then s.toBest else s).light := by
  have hblinking : (s.updateBpnAndBroadcastNewPathIfChanged p).1.blinking = s.blinking ∧
      (s.updateBpnAndBroadcastNewPathIfChanged p).1.offset = s.offset := by
    unfold updateBpnAndBroadcastNewPathIfChanged
    simp only
    split
    · exact ⟨rfl, rfl⟩
    · split <;> exact ⟨rfl, rfl⟩
  obtain ⟨hsw, htwo, hr, -⟩ | ⟨hsw, htwo, hr, -⟩ := updateBpn_cases p s
  · rw [if_pos hsw, htwo]
    exact ⟨(decide_eq_true hsw).symm, light_of_sameRoute hr hblinking.1
      (congrArg NodeState.isBlinking (state_updateBpn p s)) hblinking.2⟩
  · rw [if_neg hsw, htwo]
    exact ⟨(decide_eq_false hsw).symm, light_of_sameRoute hr hblinking.1
      (congrArg NodeState.isBlinking (state_updateBpn p s)) hblinking.2⟩

/-- A packet that changes the light, at a node that is not the sink. -/
theorem lit_sensorBroadcastsRecv (r : RecvArgs) (hc : Completes (sensorBroadcastsRecv r s).calls) :
    Lit (sensorBroadcastsRecv r s) (s.broadcastsRoute r) := by
  unfold sensorBroadcastsRecv at hc ⊢
  unfold broadcastsRoute
  split at hc
  · -- an emergency turns a light on that is out, and leaves one that blinks
    next ht =>
    simp only [ht]
    have hadd : (addCoordinateAsBurning (coordinateAt r.data 1) s).state = s.state := by
      unfold addCoordinateAsBurning
      split <;> rfl
    split
    · next hblink =>
      have hon : (broadcast (addCoordinateAsBurning (coordinateAt r.data 1) s) r.originator
          (r.hops + 1) r.seqno r.payload).state.isBlinking = true :=
        (congrArg NodeState.isBlinking hadd).trans hblink
      rw [Lit, blinkingInit, if_pos hon]
      exact light_addCoordinateAsBurning _
    · next hblink =>
      have hout : ¬ (broadcast (addCoordinateAsBurning (coordinateAt r.data 1) s) r.originator
          (r.hops + 1) r.seqno r.payload).state.isBlinking = true :=
        fun hon => hblink ((congrArg NodeState.isBlinking hadd).symm.trans hon)
      rw [blinkingInit, if_neg hout] at hc ⊢
      exact inPhase_blinkingUpdate hc
  · next ht =>
    simp only [ht]
    rfl
  · next ht =>
    simp only [ht]
    split
    · exact inPhase_of_dark (isBlinking_setupParse ..)
    · rfl
  · next ht =>
    simp only [ht]
    exact lit_forwardInit _
  · next ht =>
    simp only [ht]
    rfl
  · next ht =>
    simp only [ht]
    exact lit_forwardReset _
  · exact absurd hc not_completes_assert_false

/-- What the callers of `update_bpn_and_broadcast_new_path_if_changed` do with its result. -/
theorem lit_updated (p : NeighborPtr) (t : Node)
    (hc : Completes (if (t.updateBpnAndBroadcastNewPathIfChanged p).2 = true then
      blinkingUpdate (t.updateBpnAndBroadcastNewPathIfChanged p).1
      else (t.updateBpnAndBroadcastNewPathIfChanged p).1).calls) :
    Lit (if (t.updateBpnAndBroadcastNewPathIfChanged p).2 = true then
      blinkingUpdate (t.updateBpnAndBroadcastNewPathIfChanged p).1
      else (t.updateBpnAndBroadcastNewPathIfChanged p).1)
      (if t.Switches p then none else some t) := by
  obtain ⟨htwo, hlight⟩ := light_updateBpn p t
  by_cases hsw : t.Switches p
  · rw [htwo, if_pos (decide_eq_true hsw)] at hc ⊢
    rw [if_pos hsw]
    exact inPhase_blinkingUpdate hc
  · rw [htwo, if_neg (by simpa using hsw), if_neg hsw]
    rw [if_neg hsw] at hlight
    exact hlight

/-- A `NODE_INFO_PACKET` never sets the light anew. -/
theorem light_nodeInfoRecv (i : ℕ) (coord : Coordinate) (bp : NeighborNodeBestPath) :
    let t := s.pathWritten i (.nodeInfo coord bp)
    (nodeInfoRecv i coord bp s).light =
      (if s.state.hasSentNodeInfo ∧ (s.state.isExitNode ∨ ¬ t.Switches (.slot i)) then t
        else t.toBest).light := by
  intro t
  have hrecv : nodeInfoRecv i coord bp s =
      if s.state.hasSentNodeInfo then
        if s.state.isExitNode then t else (updateBpnAndBroadcastNewPathIfChanged (.slot i) t).1
      else t.updateBpnAndSendNodeInfo.sentNodeInfo := rfl
  rw [hrecv]
  cases hsent : s.state.hasSentNodeInfo with
  | false =>
    rw [if_neg Bool.false_ne_true, if_neg (fun h => absurd h.1 Bool.false_ne_true)]
    exact light_of_sameRoute (t := t.updateBpnAndSendNodeInfo) sameRoute_updateBpnAndSendNodeInfo
      rfl rfl rfl
  | true =>
    rw [if_pos rfl]
    cases hexit : s.state.isExitNode with
    | true => rw [if_pos rfl, if_pos ⟨rfl, .inl rfl⟩]
    | false =>
      rw [if_neg Bool.false_ne_true, (light_updateBpn (.slot i) t).2]
      by_cases hsw : t.Switches (.slot i)
      · rw [if_pos hsw, if_neg]
        rintro ⟨-, h | h⟩
        exacts [Bool.false_ne_true h, h hsw]
      · rw [if_neg hsw, if_pos ⟨rfl, .inr hsw⟩]

/-- The flag of the keep-alive is none of the light's. -/
theorem light_setHasSentKeepAlive (i : ℕ) (on : Bool) :
    (s.withEntry i ((s.ns.item i).setHasSentKeepAlive on)).light = s.light := by
  refine Light.ext rfl rfl rfl rfl rfl ?_
  change ((s.withEntry i ((s.ns.item i).setHasSentKeepAlive on)).deref s.bpn).hops =
    (s.deref s.bpn).hops
  cases s.bpn with
  | slot j =>
    by_cases hj : j = i
    · rw [hj, deref_slot, deref_slot, withEntry, withTable, QueueBuffer.set_item_self]
      rfl
    · rw [deref_slot, deref_slot, withEntry, withTable, QueueBuffer.set_item_of_ne _ _ hj]
  | _ => rfl

/-- A packet of a neighbour, at a node that is not the sink. -/
theorem lit_neighborsRecv (r : RecvArgs) (hc : Completes (neighborsRecv r s).calls) :
    Lit (neighborsRecv r s) (s.neighborsRoute r) := by
  unfold neighborsRecv at hc ⊢
  unfold neighborsRoute
  split at hc
  · next ht =>
    simp only [ht]
    unfold withSender at hc ⊢
    cases hfind : neighborsFindNeighborNode s.ns r.sender with
    | none =>
      rw [hfind] at hc
      exact absurd hc not_completes_assert_false
    | some i =>
      rw [hfind] at hc
      exact lit_updated (.slot i) (s.pathWritten i (.bestPathUpdate (bestPathAt r.data 1))) hc
  · next ht =>
    simp only [ht]
    exact lit_forwardInit _
  · next ht =>
    simp only [ht]
    unfold withSender
    split
    · exact light_setHasSentKeepAlive _ true
    · rfl
  · next ht =>
    simp only [ht]
    unfold withSender at hc ⊢
    cases hfind : neighborsFindNeighborNode s.ns r.sender with
    | none =>
      rw [hfind] at hc
      exact absurd hc not_completes_assert_false
    | some i =>
      have hlight := light_nodeInfoRecv (s := s) i (coordinateAt r.data 1) (bestPathAt r.data 5)
      simp only at hlight ⊢
      split at hlight
      · next hkeep =>
        rw [if_pos hkeep]
        exact hlight
      · next hkeep =>
        rw [if_neg hkeep]
        exact hlight
  · next ht =>
    simp only [ht]
    exact lit_forwardReset _
  · exact absurd hc not_completes_assert_false

theorem light_broadcastBestPath : s.broadcastBestPath.light = s.light := rfl

theorem isBurning_startBurning : s.startBurning.state.isBurning = true := by
  let lit := blinkingInit (setBurning true s)
  have hlit : SameRoute (setBurning true s) lit := sameRoute_blinkingInit
  have hsent : SameRoute lit ((sendEmergencyPacket
      (addCoordinateAsBurning lit.coordinateNode lit)).call .timesynchNetwork) :=
    ((sameRoute_addCoordinateAsBurning _).trans (sameRoute_broadcastOwn _)).trans (sameRoute_call _)
  exact ((hlit.trans hsent).trans sameRoute_broadcastBestPath).isBurning

/-- A reading of the sensor. -/
theorem lit_emergencyCheck (light : UInt16) (hc : Completes (emergencyCheck light s).calls) :
    Lit (emergencyCheck light s) (s.sensorRoute light) := by
  have hkept : (s.sensed light).light = s.light := rfl
  unfold emergencyCheck at hc ⊢
  unfold sensorRoute
  by_cases hpoll : ¬ s.state.isAwaitingSetupPacket = true ∨ ¬ s.state.isSinkNode = true
  swap
  · rw [if_neg hpoll, if_neg (fun h => hpoll h.1)]
    rfl
  rw [if_pos hpoll] at hc ⊢
  by_cases habrupt : s.abruptMetricChangePoll light = true
  swap
  · rw [if_neg habrupt, if_neg (fun h => habrupt h.2)]
    rfl
  rw [if_pos habrupt, abruptReading] at hc
  rw [if_pos habrupt, if_pos ⟨hpoll, habrupt⟩, abruptReading]
  simp only at hc ⊢
  by_cases hem : isEmergency light = true
  · rw [if_pos hem, if_pos hem]
    by_cases hstart : s.bpn ≠ .null ∧ ¬ s.state.isBurning = true
    · rw [if_pos hstart, if_pos hstart]
      exact inPhase_of_burning isBurning_startBurning
    · rw [if_neg hstart, if_neg hstart]
      exact hkept
  · rw [if_neg hem] at hc ⊢
    rw [if_neg hem]
    by_cases hblink : s.state.isBlinking = true
    · rw [if_pos hblink] at hc ⊢
      by_cases hburn : s.state.isBurning = true
      · -- the fire is out: the light is set anew before the path is announced
        rw [if_pos hburn] at hc ⊢
        rw [if_pos ⟨hblink, hburn⟩]
        have hlead := calls_broadcastBestPath_prefix (s := stopBurning (s.sensed light))
        have hupdate : Completes (stopBurning (s.sensed light)).calls :=
          fun b hb => hc b (hlead.mem hb)
        have hphase : InPhase (stopBurning (s.sensed light)) := inPhase_blinkingUpdate hupdate
        change InPhase (stopBurning (s.sensed light)).broadcastBestPath
        rw [InPhase, light_broadcastBestPath]
        exact hphase
      · rw [if_neg hburn, if_neg (fun h => hburn h.2)]
        exact hkept
    · rw [if_neg hblink, if_neg (fun h => hblink h.1)]
      exact hkept

theorem lit_keepaliveCheck (hc : Completes s.keepaliveCheck.calls) :
    Lit s.keepaliveCheck s.keepaliveRoute := by
  unfold keepaliveCheck at hc ⊢
  unfold keepaliveRoute
  by_cases hblink : s.state.isBlinking = true
  swap
  · rw [if_neg hblink, if_neg hblink]
    rfl
  rw [if_pos hblink] at hc ⊢
  rw [if_pos hblink]
  by_cases hneed : s.sweep.needBroadcastNewPath = true
  · rw [if_pos hneed] at hc ⊢
    simp only [hneed, true_and]
    exact lit_updated .null s.dropSilent hc
  · rw [if_neg hneed, if_neg (fun h => hneed h.1)]
    rfl

/-- **What every event does to the light**: it sets it anew, takes it out of the domain of the
phase, or leaves it alone. -/
theorem light_handle {ev : AppEvent} (hc : Completes (handle ev s).calls) :
    Lit (handle ev s) (s.keptRoute ev) := by
  -- flooded packets, also the one the serial command `init` stands for
  have hbroadcast : ∀ r, Completes (ecBroadcastsRecv r s).calls →
      Lit (ecBroadcastsRecv r s) (if s.ignoredInResetMode r || s.state.isSinkNode then some s
        else s.broadcastsRoute r) := by
    intro r hc
    unfold ecBroadcastsRecv at hc ⊢
    cases hig : s.ignoredInResetMode r with
    | true => rfl
    | false =>
      rw [hig, if_neg Bool.false_ne_true] at hc
      rw [if_neg Bool.false_ne_true, Bool.false_or]
      cases hsink : s.state.isSinkNode with
      | true =>
        rw [if_pos rfl, if_pos rfl, sinkBroadcastsRecv]
        split <;> rfl
      | false =>
        rw [hsink, if_neg Bool.false_ne_true] at hc
        exact lit_sensorBroadcastsRecv r hc
  cases ev with
  | broadcastRecv r => exact hbroadcast r hc
  | neighborRecv r =>
    change Completes (ecNeighborsRecv r s).calls at hc
    change Lit (ecNeighborsRecv r s)
      (if s.ignoredInResetMode r || s.state.isSinkNode then some s else s.neighborsRoute r)
    unfold ecNeighborsRecv at hc ⊢
    cases hig : s.ignoredInResetMode r with
    | true => rfl
    | false =>
      rw [hig, if_neg Bool.false_ne_true] at hc
      rw [if_neg Bool.false_ne_true, Bool.false_or]
      cases hsink : s.state.isSinkNode with
      | true => rfl
      | false =>
        rw [hsink, if_neg Bool.false_ne_true] at hc
        exact lit_neighborsRecv r hc
  | mcUcRecv r =>
    change Completes (ecMcUcRecv r s).calls at hc
    change Lit (ecMcUcRecv r s) (if packetTypeAt r.data = some .imYourNewNeighbor then
      some (addNeighbors [r.originator] s) else some s)
    unfold ecMcUcRecv at hc ⊢
    split at hc
    · next ht =>
      rw [ht, if_pos rfl]
      rfl
    · exact absurd hc not_completes_assert_false
  | timesynched => exact inPhase_blinkingUpdate hc
  | button => rfl
  | serial c =>
    cases c with
    | simulationSetup sp => exact inPhase_of_dark (isBlinking_setupParse ..)
    | sink => exact inPhase_of_dark (isBlinking_setupParse _ false s)
    -- the serial command is handled as a flooded packet, which reset mode does not ignore
    | init =>
      have h := hbroadcast _ hc
      have hheard : s.ignoredInResetMode ⟨⟨0xFE, 0xFE⟩, ⟨0xFE, 0xFE⟩, 0, 0,
          [PacketType.initializeBestPaths.toByte], 1⟩ = false := by
        rw [ignoredInResetMode, Bool.and_eq_false_iff]
        exact .inr rfl
      rw [hheard, Bool.false_or] at h
      exact h
    | _ => rfl
  | emergencyCheck light => exact lit_emergencyCheck light hc
  | keepaliveSend =>
    change (keepaliveSend s).light = s.light
    unfold keepaliveSend
    split <;> rfl
  | keepaliveCheck => exact lit_keepaliveCheck hc

end Node

/-! ### The node with the timer of its light -/

/-- The event is a call of `ec_timesynch_recv`. -/
def AppEvent.isTimesynched : AppEvent → Bool
  | .timesynched => true
  | _ => false

/-- What can happen to a node whose light may be on; every event comes with a reading of the
clock. -/
inductive LightEvent
  | app (e : AppEvent × ClockReading)
  /-- The real-time timer runs `blink`. -/
  | blink (c : ClockReading)

namespace Node

variable {s s' : Node}

/-- One event. -/
def lightStep (s : Node) : LightEvent → Node
  | .app e => s.step e
  | .blink c => (s.wake c).blink

/-- The timer runs whenever it likes. -/
def LightEnabled (s : Node) : LightEvent → Prop
  | .app e => s.Enabled e.1
  | .blink _ => True

instance (s : Node) (e : LightEvent) : Decidable (s.LightEnabled e) := by
  rcases e <;> unfold LightEnabled <;> infer_instance

/-- One event, `none` when the connection cannot hand it over or an assertion fails. -/
def lightAdvance (e : LightEvent) (s : Node) : Option Node :=
  if s.LightEnabled e ∧ Completes (s.lightStep e).calls then some (s.lightStep e) else none

end Node

/-- The node as a transition system, with the timer of its light. -/
def lightMachine : Machine Node LightEvent where
  init := nodeMachine.init
  step e s s' := s.LightEnabled e ∧ s' = s.lightStep e ∧ Completes s'.calls

namespace Node

variable {s t s' : Node}

/-- The node an event leaves to a light that goes on as it was. -/
def routeLeft (s : Node) : LightEvent → Option Node
  | .app e => (s.wake e.2).keptRoute e.1
  | .blink c => some (s.wake c)

/-- What an event must leave to a light that goes on as it was: a best neighbour, whose hops and
the number of the slot still make the step that is due. -/
def KeepsPhase (s : Node) (e : LightEvent) : Prop :=
  s.state.isBlinking = true → s.state.isBurning = false →
    ∀ t ∈ s.routeLeft e, t.bpn ≠ .null ∧ t.light.phase = s.light.phase

/-- `t` has the step of the light, its timer and the flags of `s`. -/
structure SameLamp (s t : Node) : Prop where
  blinking : t.blinking = s.blinking
  state : t.state = s.state

/-- And its clock. -/
structure SameClock (s t : Node) : Prop extends SameLamp s t where
  offset : t.offset = s.offset

theorem SameClock.of_some {u : Node} (h : some u = some t) (hu : SameClock s u) : SameClock s t :=
  Option.some.inj h ▸ hu

theorem sameClock_resetRoute (h : s.resetRoute = some t) : SameClock s t := by
  unfold resetRoute at h
  split at h
  · exact nomatch h
  · exact .of_some h ⟨⟨rfl, rfl⟩, rfl⟩

theorem sameClock_initRoute : SameClock s s.initRoute := by
  unfold initRoute
  split <;> exact ⟨⟨rfl, rfl⟩, rfl⟩

theorem sameClock_broadcastsRoute {r : RecvArgs} (h : s.broadcastsRoute r = some t) :
    SameClock s t := by
  unfold broadcastsRoute at h
  split at h
  · split at h
    · exact .of_some h ⟨⟨rfl, rfl⟩, rfl⟩
    · exact nomatch h
  · split at h
    · exact nomatch h
    · exact .of_some h ⟨⟨rfl, rfl⟩, rfl⟩
  · exact .of_some h sameClock_initRoute
  · exact sameClock_resetRoute h
  · exact .of_some h ⟨⟨rfl, rfl⟩, rfl⟩

theorem sameClock_neighborsRoute {r : RecvArgs} (h : s.neighborsRoute r = some t) :
    SameClock s t := by
  unfold neighborsRoute at h
  split at h
  · simp only at h
    split at h
    · exact nomatch h
    · exact .of_some h ⟨⟨rfl, rfl⟩, rfl⟩
  · simp only at h
    split at h <;> exact .of_some h ⟨⟨rfl, rfl⟩, rfl⟩
  · exact .of_some h sameClock_initRoute
  · exact sameClock_resetRoute h
  · exact .of_some h ⟨⟨rfl, rfl⟩, rfl⟩

/-- A light that goes on as it was keeps its step, the timer, the flags and the clock. -/
theorem sameClock_keptRoute {ev : AppEvent} (h : s.keptRoute ev = some t) : SameClock s t := by
  cases ev with
  | broadcastRecv r =>
    simp only [keptRoute] at h
    split at h
    · exact .of_some h ⟨⟨rfl, rfl⟩, rfl⟩
    · exact sameClock_broadcastsRoute h
  | neighborRecv r =>
    simp only [keptRoute] at h
    split at h
    · exact .of_some h ⟨⟨rfl, rfl⟩, rfl⟩
    · exact sameClock_neighborsRoute h
  | mcUcRecv r =>
    simp only [keptRoute] at h
    obtain ⟨calls, heq, -⟩ := addNeighbors_eq [r.originator] s
    split at h
    · refine .of_some h ⟨⟨?_, ?_⟩, ?_⟩ <;> rw [heq]
    · exact .of_some h ⟨⟨rfl, rfl⟩, rfl⟩
  | timesynched => exact nomatch h
  | button => exact .of_some h ⟨⟨rfl, rfl⟩, rfl⟩
  | serial c =>
    cases c with
    | simulationSetup sp => exact nomatch h
    | sink => exact nomatch h
    | init =>
      simp only [keptRoute] at h
      split at h
      · exact .of_some h ⟨⟨rfl, rfl⟩, rfl⟩
      · exact .of_some h sameClock_initRoute
    | _ => exact .of_some h ⟨⟨rfl, rfl⟩, rfl⟩
  | emergencyCheck light =>
    simp only [keptRoute, sensorRoute] at h
    repeat' split at h
    all_goals first
      | exact .of_some h ⟨⟨rfl, rfl⟩, rfl⟩
      | exact nomatch h
  | keepaliveSend => exact .of_some h ⟨⟨rfl, rfl⟩, rfl⟩
  | keepaliveCheck =>
    simp only [keptRoute, keepaliveRoute] at h
    repeat' split at h
    all_goals first
      | exact .of_some h ⟨⟨rfl, rfl⟩, rfl⟩
      | exact nomatch h

/-- A node in phase whose routing changes is still in phase exactly when the step that is due
does not. -/
theorem inPhase_iff_of_sameLamp (h : InPhase s) (ht : SameLamp s t) :
    InPhase t ↔ (s.state.isBlinking = true → s.state.isBurning = false →
      t.bpn ≠ .null ∧ t.light.phase = s.light.phase) := by
  have hblink : t.light.isBlinking = s.state.isBlinking := congrArg NodeState.isBlinking ht.state
  have hburn : t.light.isBurning = s.state.isBurning := congrArg NodeState.isBurning ht.state
  have hstep : t.light.blinking = s.light.blinking := ht.blinking
  rw [InPhase, Light.InPhase, hblink, hburn, hstep]
  refine forall_congr' fun hon => forall_congr' fun hno => ?_
  rw [(h hon hno).2]
  exact and_congr_right fun _ => eq_comm

/-- **A light stays in phase exactly when the step that is due stays that of the route.** -/
theorem inPhase_step_iff {e : LightEvent} (h : InPhase s) (hstep : lightMachine.step e s s') :
    InPhase s' ↔ s.KeepsPhase e := by
  obtain ⟨-, rfl, hc⟩ := hstep
  cases e with
  | app e =>
    obtain ⟨ev, c⟩ := e
    have hlit : Lit (handle ev (s.wake c)) ((s.wake c).keptRoute ev) := light_handle hc
    change InPhase (handle ev (s.wake c)) ↔ _
    cases hroute : (s.wake c).keptRoute ev with
    | none =>
      rw [hroute] at hlit
      refine iff_of_true hlit fun _ _ t ht => ?_
      exact nomatch hroute.symm.trans ht
    | some t =>
      rw [hroute] at hlit
      have hlamp : SameClock (s.wake c) t := sameClock_keptRoute hroute
      have hsame : SameLamp s t := ⟨hlamp.blinking, hlamp.state⟩
      have hlight : (handle ev (s.wake c)).light = t.light := hlit
      rw [InPhase, hlight, ← InPhase, inPhase_iff_of_sameLamp h hsame]
      refine forall_congr' fun _ => forall_congr' fun _ => ⟨fun hkeep u hu => ?_, fun hkeep => ?_⟩
      · cases hroute.symm.trans hu
        exact hkeep
      · exact hkeep t hroute
  | blink c =>
    have hsame : SameLamp s (s.wake c) := ⟨rfl, rfl⟩
    have hblink : InPhase (s.wake c).blink ↔ InPhase (s.wake c) := by
      by_cases hon : (s.wake c).state.isBlinking = true ∧ ¬ (s.wake c).state.isBurning = true
      · rw [InPhase, light_blink hon, Light.inPhase_next, InPhase]
      · rw [blink, if_neg hon]
    change InPhase (s.wake c).blink ↔ _
    rw [hblink, inPhase_iff_of_sameLamp h hsame]
    refine forall_congr' fun _ => forall_congr' fun _ => ⟨fun hkeep u hu => ?_, fun hkeep => ?_⟩
    · cases hu
      exact hkeep
    · exact hkeep _ rfl

/-- A node starts with its light out. -/
theorem inPhase_init (h : lightMachine.init s) : InPhase s := by
  obtain ⟨addr, flash, rfl, -⟩ := h
  cases flash with
  | none => exact inPhase_of_dark rfl
  | some f => exact inPhase_of_dark (isBlinking_setupParse _ true _)

/-! ### The guard -/

/-- The path packet of the neighbour in slot `i` does not change the step of a light that is not
set anew.  Only a `BEST_PATH_UPDATE_PACKET` after which the node takes a new path runs
`blinking_update`; any other packet of the best neighbour has the hops it had before, modulo the
length of the sequence, and a `NODE_INFO_PACKET` leaves the best neighbour the best one. -/
def KeepsStep (s : Node) (i : ℕ) : PathPacket → Prop
  | .bestPathUpdate bp => s.bpn = .slot i → bp.hops % 8 = (s.ns.item i).hops % 8 ∨
      (s.pathWritten i (.bestPathUpdate bp)).Switches (.slot i)
  | .nodeInfo coord bp => (s.bpn = .slot i → bp.hops % 8 = (s.ns.item i).hops % 8) ∧
      ((s.pathWritten i (.nodeInfo coord bp)).findBestExitPathNeighbor = s.bpn ∨
        s.state.hasSentNodeInfo = true ∧ (s.state.isExitNode = true ∨
          ¬ (s.pathWritten i (.nodeInfo coord bp)).Switches (.slot i)))

/-- An exit has `exit_node` as its best neighbour already. -/
def KeepsExit (s : Node) : Prop := s.state.isExitNode = true → s.bpn = .exitNode

/-- The event does not change the route of the light without `blinking_update`: no path packet
does, no initialisation comes to an exit that uses a neighbour, no new neighbour gets the freed
slot `bpn` points to, and no keep-alive check drops a best neighbour that is the only one. -/
def RouteGuard (s : Node) : AppEvent → Prop
  | .broadcastRecv r => s.state.isSinkNode = false →
      packetTypeAt r.data = some .initializeBestPaths → s.KeepsExit
  | .neighborRecv r => s.ignoredInResetMode r = false → s.state.isSinkNode = false →
      (∀ i ∈ neighborsFindNeighborNode s.ns r.sender, ∀ p ∈ advertOf r.data, s.KeepsStep i p) ∧
        (packetTypeAt r.data = some .initializeBestPaths → s.KeepsExit)
  | .mcUcRecv r => packetTypeAt r.data = some .imYourNewNeighbor →
      ∀ i ∈ s.ns.unused.head?, s.bpn ≠ .slot i
  | .serial .init => s.state.isSinkNode = false → s.KeepsExit
  | .keepaliveCheck => s.KeepsLast
  | _ => True

/-- The offset puts the wake-up into a slot with the number it had, modulo the length of the
sequence. -/
def KeepsSlot (s : Node) (offset : UInt16) : Prop :=
  (s.blinking.nextWakeup + offset) / blinkingSequenceSwitchTime % blinkingSequenceLength =
    (s.blinking.nextWakeup + s.offset) / blinkingSequenceSwitchTime % blinkingSequenceLength

/-- The clock moves to another slot only with `ec_timesynch_recv`, and the route does not change
without `blinking_update`. -/
def KeepsRoute (s : Node) : LightEvent → Prop
  | .blink c => s.KeepsSlot c.offset
  | .app e => (e.1.isTimesynched = false → s.KeepsSlot e.2.offset) ∧ (s.wake e.2).RouteGuard e.1

/-- The condition on an event under which the light stays in phase, if it blinks and the node does
not burn. -/
def PhaseGuard (s : Node) (e : LightEvent) : Prop :=
  s.state.isBlinking = true → s.state.isBurning = false → s.KeepsRoute e

instance (s : Node) (i : ℕ) (p : PathPacket) : Decidable (s.KeepsStep i p) := by
  rcases p <;> unfold KeepsStep <;> infer_instance

instance (s : Node) : Decidable s.KeepsExit := by unfold KeepsExit; infer_instance

instance (s : Node) (offset : UInt16) : Decidable (s.KeepsSlot offset) := by
  unfold KeepsSlot
  infer_instance

instance (s : Node) (ev : AppEvent) : Decidable (s.RouteGuard ev) := by
  rcases ev with _ | _ | _ | _ | _ | (_ | _ | _ | _ | _ | _ | _) | _ | _ | _ <;>
    unfold RouteGuard <;> infer_instance

instance (s : Node) (e : LightEvent) : Decidable (s.KeepsRoute e) := by
  rcases e <;> unfold KeepsRoute <;> infer_instance

instance (s : Node) (e : LightEvent) : Decidable (s.PhaseGuard e) := by
  unfold PhaseGuard
  infer_instance

/-! ### What a guarded event leaves to the light -/

/-- The best neighbour of `t` has as many hops as that of `s`, modulo the length of the sequence. -/
structure KeepsHops (s t : Node) : Prop where
  bpn : t.bpn ≠ .null
  hops : (t.deref t.bpn).hops % 8 = (s.deref s.bpn).hops % 8

theorem KeepsHops.refl (hbpn : s.bpn ≠ .null) : KeepsHops s s := ⟨hbpn, rfl⟩

theorem KeepsHops.of_some {u : Node} (h : some u = some t) (hu : KeepsHops s u) : KeepsHops s t :=
  Option.some.inj h ▸ hu

/-- A path packet that is written into the table, and the node keeps its best neighbour. -/
theorem keepsHops_pathWritten {i : ℕ} {p : PathPacket} (hbpn : s.bpn ≠ .null)
    (hp : s.bpn = .slot i → p.bp.hops % 8 = (s.ns.item i).hops % 8) :
    KeepsHops s (s.pathWritten i p) := by
  refine ⟨hbpn, ?_⟩
  change ((s.pathWritten i p).deref s.bpn).hops % 8 = _
  cases hs : s.bpn with
  | slot j =>
    by_cases hj : j = i
    · subst hj
      rw [deref_slot, deref_slot, pathWritten_item_self, NeighborNode.hops, entryAfter_bp]
      exact hp hs
    · rw [deref_slot, deref_slot, pathWritten_item_of_ne p hj]
  | _ => rfl

/-- A node that takes the best neighbour it has. -/
theorem KeepsHops.toBest (h : KeepsHops s t) (hbest : t.findBestExitPathNeighbor = t.bpn) :
    KeepsHops s t.toBest := by
  have hsame : t.toBest = t := by rw [Node.toBest, hbest]
  rwa [hsame]

theorem keepsHops_initRoute (hbpn : s.bpn ≠ .null) (hg : s.KeepsExit) :
    KeepsHops s s.initRoute := by
  unfold initRoute
  split
  · next hexit =>
    refine (KeepsHops.refl hbpn).toBest ?_
    rw [hg hexit, findBestExitPathNeighbor, if_pos hexit]
    rfl
  · exact .refl hbpn

theorem keepsHops_resetRoute (hbpn : s.bpn ≠ .null) (h : s.resetRoute = some t) :
    KeepsHops s t := by
  unfold resetRoute at h
  split at h
  · exact nomatch h
  · exact .of_some h (.refl hbpn)

theorem keepsHops_neighborsRoute {r : RecvArgs} (hbpn : s.bpn ≠ .null)
    (hpath : ∀ i ∈ neighborsFindNeighborNode s.ns r.sender, ∀ p ∈ advertOf r.data, s.KeepsStep i p)
    (hinit : packetTypeAt r.data = some .initializeBestPaths → s.KeepsExit)
    (h : s.neighborsRoute r = some t) : KeepsHops s t := by
  unfold advertOf at hpath
  unfold neighborsRoute at h
  split at h
  · next i htype hfind =>
    simp only at h
    rw [htype] at hpath
    have hkeeps := hpath i hfind _ rfl
    split at h
    · exact nomatch h
    · next hno =>
      exact .of_some h (keepsHops_pathWritten hbpn fun hi => (hkeeps hi).resolve_right hno)
  · next i htype hfind =>
    simp only at h
    rw [htype] at hpath
    obtain ⟨hhops, hbest⟩ := hpath i hfind _ rfl
    have hwritten : KeepsHops s
        (s.pathWritten i (.nodeInfo (coordinateAt r.data 1) (bestPathAt r.data 5))) :=
      keepsHops_pathWritten hbpn hhops
    split at h
    · exact .of_some h hwritten
    · next hno => exact .of_some h (hwritten.toBest (hbest.resolve_right hno))
  · next htype => exact .of_some h (keepsHops_initRoute hbpn (hinit htype))
  · exact keepsHops_resetRoute hbpn h
  · exact .of_some h (.refl hbpn)

theorem keepsHops_broadcastsRoute {r : RecvArgs} (hbpn : s.bpn ≠ .null)
    (hinit : packetTypeAt r.data = some .initializeBestPaths → s.KeepsExit)
    (h : s.broadcastsRoute r = some t) : KeepsHops s t := by
  unfold broadcastsRoute at h
  split at h
  · split at h
    · exact .of_some h (.refl hbpn)
    · exact nomatch h
  · split at h
    · exact nomatch h
    · exact .of_some h (.refl hbpn)
  · next htype => exact .of_some h (keepsHops_initRoute hbpn (hinit htype))
  · exact keepsHops_resetRoute hbpn h
  · exact .of_some h (.refl hbpn)

/-- A new neighbour is written into a slot that is not the best neighbour's. -/
theorem keepsHops_addNeighbors {a : Rimeaddr} (hbpn : s.bpn ≠ .null)
    (hg : ∀ i ∈ s.ns.unused.head?, s.bpn ≠ .slot i) : KeepsHops s (addNeighbors [a] s) := by
  cases hadd : neighborsAdd s.ns a with
  | none =>
    rw [addNeighbors, hadd]
    exact ⟨hbpn, rfl⟩
  | some ns =>
    rw [addNeighbors, hadd]
    obtain ⟨b, -, -, hitem, hhead⟩ := QueueBuffer.pushFront_eq_some hadd
    refine ⟨hbpn, ?_⟩
    change (({ s with ns := ns } : Node).deref s.bpn).hops % 8 = _
    cases hs : s.bpn with
    | slot j =>
      have hj : j ≠ b := fun hj => hg b hhead (hj ▸ hs)
      rw [deref_slot, deref_slot, hitem, Function.update_of_ne hj]
    | _ => rfl

/-- A keep-alive check that leaves a best neighbour leaves the one there was. -/
theorem keepsHops_keepaliveRoute (hbpn : s.bpn ≠ .null) (hg : s.KeepsLast)
    (h : s.keepaliveRoute = some t) : KeepsHops s t := by
  unfold keepaliveRoute at h
  split at h
  swap
  · exact .of_some h (.refl hbpn)
  split at h
  · exact nomatch h
  next hno =>
  refine .of_some h ?_
  have hleft : s.sweep.bpn ≠ .null := by
    cases hneed : s.sweep.needBroadcastNewPath with
    | false => exact sweep_bpn_ne_null hbpn hg hneed
    | true => exact fun hnull => hno ⟨hneed, .inl hnull⟩
  have hsame : s.sweep.bpn = s.bpn := s.sweep_bpn.resolve_right fun h => hleft h.2
  refine ⟨hleft, ?_⟩
  change (s.dropSilent.deref s.sweep.bpn).hops % 8 = _
  rw [hsame]
  cases s.bpn with
  | slot j =>
    obtain ⟨b, hb⟩ := s.dropSilent_item j
    rw [deref_slot, deref_slot, hb]
    rfl
  | _ => rfl

/-- **What a guarded event leaves to a light that goes on as it was.** -/
theorem keepsHops_keptRoute {ev : AppEvent} (hbpn : s.bpn ≠ .null) (hg : s.RouteGuard ev)
    (h : s.keptRoute ev = some t) : KeepsHops s t := by
  cases ev with
  | broadcastRecv r =>
    simp only [keptRoute] at h
    split at h
    · exact .of_some h (.refl hbpn)
    · next hheard =>
      simp only [Bool.or_eq_true, not_or, Bool.not_eq_true] at hheard
      exact keepsHops_broadcastsRoute hbpn (hg hheard.2) h
  | neighborRecv r =>
    simp only [keptRoute] at h
    split at h
    · exact .of_some h (.refl hbpn)
    · next hheard =>
      simp only [Bool.or_eq_true, not_or, Bool.not_eq_true] at hheard
      obtain ⟨hpath, hinit⟩ := hg hheard.1 hheard.2
      exact keepsHops_neighborsRoute hbpn hpath hinit h
  | mcUcRecv r =>
    simp only [keptRoute] at h
    split at h
    · next htype => exact .of_some h (keepsHops_addNeighbors hbpn (hg htype))
    · exact .of_some h (.refl hbpn)
  | timesynched => exact nomatch h
  | button => exact .of_some h (.refl hbpn)
  | serial c =>
    cases c with
    | simulationSetup sp => exact nomatch h
    | sink => exact nomatch h
    | init =>
      simp only [keptRoute] at h
      split at h
      · exact .of_some h (.refl hbpn)
      · next hsink =>
        exact .of_some h (keepsHops_initRoute hbpn (hg (Bool.not_eq_true _ ▸ hsink)))
    | _ => exact .of_some h (.refl hbpn)
  | emergencyCheck light =>
    simp only [keptRoute, sensorRoute] at h
    repeat' split at h
    all_goals first
      | exact .of_some h (.refl hbpn)
      | exact nomatch h
  | keepaliveSend => exact .of_some h (.refl hbpn)
  | keepaliveCheck => exact keepsHops_keepaliveRoute hbpn hg h

/-- Hops and slots that agree modulo the length of the sequence make the same step. -/
theorem phase_eq {l m : Light} (hhops : m.hops % 8 = l.hops % 8)
    (hslot : m.slot % blinkingSequenceLength = l.slot % blinkingSequenceLength) :
    m.phase = l.phase := by
  have hlen : blinkingSequenceLength.toNat = 8 := rfl
  have hm := m.hops.toNat_lt
  have hl := l.hops.toNat_lt
  rw [← UInt8.toNat_inj] at hhops
  rw [← UInt16.toNat_inj] at hslot
  rw [Light.phase, Light.phase, ← UInt16.toNat_inj]
  simp only [UInt8.toNat_mod, UInt8.reduceToNat, UInt16.toNat_mod, UInt16.toNat_add, hlen,
    UInt8.toNat_toUInt16, UInt16.reduceToNat] at hhops hslot ⊢
  omega

/-- **A guarded event keeps the step that is due.** -/
theorem keepsPhase_of_guard {e : LightEvent} (h : InPhase s) (hg : s.PhaseGuard e) :
    s.KeepsPhase e := by
  intro hblink hburn t ht
  have hbpn : s.bpn ≠ .null := (h hblink hburn).1
  have hguard := hg hblink hburn
  cases e with
  | app e =>
    obtain ⟨ev, c⟩ := e
    obtain ⟨hslot, hroute⟩ := hguard
    have hmoves : ev.isTimesynched = false := by
      cases ev with
      | timesynched => exact nomatch ht
      | _ => rfl
    have hkeeps : KeepsHops (s.wake c) t := keepsHops_keptRoute hbpn hroute ht
    have hclock := sameClock_keptRoute ht
    refine ⟨hkeeps.bpn, phase_eq hkeeps.hops ?_⟩
    change (t.blinking.nextWakeup + t.offset) / _ % _ = _
    rw [hclock.blinking, hclock.offset]
    exact hslot hmoves
  | blink c =>
    cases ht
    exact ⟨hbpn, phase_eq rfl hguard⟩

/-- **In every run whose events all meet the guard the step of the light that is due is that of
the current route in the slot it is due in.** -/
theorem inPhase_of_reachable (h : lightMachine.ReachableWhen PhaseGuard s) : InPhase s :=
  h.invariant (fun _ => inPhase_init) fun _ _ _ hs hok hstep =>
    (inPhase_step_iff hs hstep).mpr (keepsPhase_of_guard hs hok)

/-! ### A path that is heard of while the light blinks -/

theorem lightMachine_step_of_lightAdvance {e : LightEvent} (h : s.lightAdvance e = some s') :
    lightMachine.step e s s' := by
  unfold lightAdvance at h
  split at h
  · next hok =>
    cases h
    exact ⟨hok.1, rfl, hok.2⟩
  · cases h

/-- A node that has heard of one of two paths, is synchronised, and hears of an emergency. -/
def blinkingNode : List LightEvent :=
  (twoPaths.take 1 ++ twoPaths.drop 2).map .app ++
    [.app (.timesynched, ⟨100, 900⟩), .app (emergencyEvent.1, ⟨5000, 900⟩)]

/-- The other path is shorter, but leads over more nodes. -/
def laterPath : LightEvent :=
  .app (.neighborRecv ⟨⟨20, 0⟩, ⟨20, 0⟩, 0, 0,
    (PathPacket.nodeInfo ⟨⟨0, 0⟩, ⟨0, 20⟩⟩ ⟨⟨0, 0⟩, ⟨90, 0⟩, 2⟩).bytes, 10⟩, ⟨6000, 900⟩)

/-- The node is synchronised anew, hears of more hops from its best neighbour, and drops the other
one, which is silent. -/
def stillInPhase : List LightEvent :=
  [.blink ⟨7292, 900⟩, .app (.timesynched, ⟨7300, 40000⟩), .blink ⟨9152, 40000⟩,
   .app (.neighborRecv ⟨⟨30, 0⟩, ⟨30, 0⟩, 0, 1,
     (PathPacket.bestPathUpdate ⟨⟨0, 0⟩, ⟨90, 0⟩, 4⟩).bytes, 6⟩, ⟨9200, 40000⟩),
   .blink ⟨13248, 40000⟩, .app (.keepaliveCheck, ⟨13290, 40000⟩),
   .app (.neighborRecv ⟨⟨30, 0⟩, ⟨30, 0⟩, 0, 2, [PacketType.keepAliveNeighbor.toByte], 1⟩,
     ⟨13300, 40100⟩),
   .app (.keepaliveCheck, ⟨13400, 40100⟩), .blink ⟨17344, 40100⟩]

/-- The light goes on in phase. -/
theorem inPhase_blinkingNode : ∃ s, lightMachine.ReachableWhen PhaseGuard s ∧
    s.state.isBlinking = true ∧ s.state.isBurning = false ∧ s.bpn = .slot 1 ∧ s.light.hops = 4 ∧
      s.ns.used = [1] ∧ InPhase s := by
  have h : ((Machine.run lightAdvance (blinkingNode ++ stillInPhase)
      (resetNodeProperties rimeaddrNull none)).map fun s =>
        decide (s.state.isBlinking = true ∧ s.state.isBurning = false ∧ s.bpn = .slot 1 ∧
          s.light.hops = 4 ∧ s.ns.used = [1])) = some true := by
    decide +kernel
  obtain ⟨s, hrun, hon⟩ := Option.map_eq_some_iff.mp h
  have hreach : lightMachine.ReachableWhen PhaseGuard s :=
    Machine.ReachableWhen.of_run (b := fun s e => decide (s.PhaseGuard e))
      (fun _ _ => of_decide_eq_true) (fun _ _ _ => lightMachine_step_of_lightAdvance) _
      (.init ⟨rimeaddrNull, none, rfl, completes_nil⟩) (by decide +kernel) hrun
  obtain ⟨hblink, hburn, hbpn, hhops, hused⟩ := of_decide_eq_true hon
  exact ⟨s, hreach, hblink, hburn, hbpn, hhops, hused, inPhase_of_reachable hreach⟩

/-- **A node info that makes the node switch leaves the light at the step of the old route.** -/
theorem not_inPhase_nodeInfo : ∃ s s', lightMachine.Reachable s ∧ InPhase s ∧
    lightMachine.step laterPath s s' ∧ s'.offset = s.offset ∧ s'.state.isBlinking = true ∧
      s'.state.isBurning = false ∧ ¬ InPhase s' := by
  have h : ((Machine.run lightAdvance blinkingNode (resetNodeProperties rimeaddrNull none)).map
      fun s => decide (InPhase s ∧ s.LightEnabled laterPath ∧
        Completes (s.lightStep laterPath).calls ∧ (s.lightStep laterPath).offset = s.offset ∧
          (s.lightStep laterPath).state.isBlinking = true ∧
            (s.lightStep laterPath).state.isBurning = false ∧
              ¬ InPhase (s.lightStep laterPath))) = some true := by decide +kernel
  obtain ⟨s, hrun, hs⟩ := Option.map_eq_some_iff.mp h
  obtain ⟨hphase, hon, hc, hoffset, hblink, hburn, hnot⟩ := of_decide_eq_true hs
  have hreach : lightMachine.Reachable s :=
    Machine.Reachable.of_run (fun _ _ _ => lightMachine_step_of_lightAdvance) blinkingNode
      (.init ⟨rimeaddrNull, none, rfl, completes_nil⟩) hrun
  exact ⟨s, s.lightStep laterPath, hreach, hphase, ⟨hon, rfl, hc⟩, hoffset, hblink, hburn, hnot⟩

end Node

end EmergencyNet
