import EmergencyNet.Safety.Direction

/-!
# The light runs toward the exit

A blinking node wakes up at the slots of the synchronised clock and lights its blue LED in one
of every eight.  Which one follows from the length of its path, so along a path the light
passes from node to node.  The synchronised clock is counted here without end; what the nodes
see of it are 16 bits, and their own clocks are off by any offset.

## Main definitions

* `Lamp` — a node with its blue LED and the real-time timer.
* `Lamp.tick`, `lampAt` — a tick of the synchronised clock, and all of them.
* `Lamp.Aligned`, `Lamp.InStep` — the timer is set to the next slot, and the step that is due is
  that of the path.
* `Lamp.Ready` — the timer is not set, or set to a slot that is at most one slot ahead.
* `Node.Guides` — a node whose light shows the way.

## Main results

* `InStep.tick`, `blue_tick` — **what a tick of the clock does to the light.**
* `lit_iff` — when the LED is on.
* `runsTowardExit` — **the LED is on in one of eight slots, and one slot after that of a node
  whose path is longer by one, whenever `blinking_update` is called, if and only if the timers
  are ready.**
* `not_runsOnTime_resynchronised` — a timer set before the clock moved is not.
-/

namespace EmergencyNet

/-- `MAX_ALLOWED_METRIC`. -/
def maxAllowedMetric : UInt16 := 1000

namespace Node

/-- What `blink` does to the blue LED: the only step of the sequence that lights it is `ON`, the
first. -/
def ledsBlue (s : Node) (blue : Bool) : Bool :=
  if s.state.isBlinking ∧ ¬ s.state.isBurning then
    if (s.deref s.bpn).metric < maxAllowedMetric then
      if s.blinking.state = 0 then true
      else if s.blinking.state < blinkingSequenceLength then false
      else blue
    else true
  else blue

/-- The length of the path of a node, as the node announces it. -/
def pathLength (s : Node) : UInt8 := s.bestNeighborBpToOurBp.hops

/-- The node blinks, does not burn, and has a best neighbour with a path. -/
structure Guides (s : Node) : Prop where
  isBlinking : s.state.isBlinking = true
  isBurning : s.state.isBurning = false
  bpn : s.bpn ≠ .null
  metric : (s.deref s.bpn).metric < maxAllowedMetric

/-- The node at another time, with another step of the light and other calls. -/
def withLight (a : Node) (now : UInt16) (b : Blinking) (calls : List Effect) : Node :=
  { a with rtimerNow := now, blinking := b, calls := calls }

variable {a : Node} {now : UInt16} {b : Blinking} {calls : List Effect}

theorem Guides.blinks (h : a.Guides) :
    a.state.isBlinking = true ∧ ¬ a.state.isBurning = true :=
  ⟨h.isBlinking, by rw [h.isBurning]; exact Bool.false_ne_true⟩

/-- What `blink` does to a node that guides. -/
theorem Guides.blink (h : a.Guides) : (a.withLight now b calls).blink = a.withLight now
    ⟨b.nextWakeup + blinkingSequenceSwitchTime, (b.state + 1) % blinkingSequenceLength⟩
      (calls ++ [.assert (a.bpn ≠ .null)]) :=
  if_pos h.blinks

/-- What `blinking_update` does to it. -/
theorem Guides.blinkingUpdate (h : a.Guides) :
    (a.withLight now b calls).blinkingUpdate = a.withLight now
      ⟨((now + a.offset) / blinkingSequenceSwitchTime + 1) * blinkingSequenceSwitchTime - a.offset,
        ((a.deref a.bpn).hops.toUInt16 + 1 + ((now + a.offset) / blinkingSequenceSwitchTime + 1)) %
          blinkingSequenceLength⟩ (calls ++ [.assert (a.bpn ≠ .null)]) :=
  if_pos h.blinks

end Node

/-! ### The timer -/

/-- A node with its blue LED and the real-time timer. -/
structure Lamp where
  node : Node
  blue : Bool
  /-- The time of the node's own clock at which the timer goes off, if it is set. -/
  pending : Option UInt16

namespace Lamp

/-- `rtimer_set`: a timer that is set already goes off when it was to go off. -/
def rtimerSet (time : UInt16) (x : Lamp) : Lamp := { x with pending := x.pending.or (some time) }

/-- `blink`. -/
def blink (x : Lamp) : Lamp :=
  if x.node.state.isBlinking ∧ ¬ x.node.state.isBurning then
    ({ x with node := x.node.blink, blue := x.node.ledsBlue x.blue } : Lamp).rtimerSet
      x.node.blink.blinking.nextWakeup
  else x

/-- `blinking_update`. -/
def update (x : Lamp) : Lamp :=
  if x.node.state.isBlinking ∧ ¬ x.node.state.isBurning then
    ({ x with node := x.node.blinkingUpdate } : Lamp).rtimerSet
      x.node.blinkingUpdate.blinking.nextWakeup
  else x

/-- The synchronised clock shows `τ`. -/
def clockAt (τ : ℕ) (x : Lamp) : Lamp :=
  { x with node := { x.node with rtimerNow := UInt16.ofNat τ - x.node.offset } }

/-- The node wakes up at the present time. -/
def WakesUp (x : Lamp) : Prop := x.pending = some x.node.rtimerNow

instance (x : Lamp) : Decidable x.WakesUp := by
  unfold WakesUp
  infer_instance

/-- The interrupt of the timer: `rtimer_run_next`, if it is time. -/
def interrupt (x : Lamp) : Lamp :=
  if x.WakesUp then ({ x with pending := none } : Lamp).blink else x

/-- A tick of the synchronised clock, which then shows `τ`: the timer may go off, and then
`blinking_update` may be called. -/
def tick (updates : Bool) (τ : ℕ) (x : Lamp) : Lamp :=
  if updates then (x.clockAt τ).interrupt.update else (x.clockAt τ).interrupt

/-! ### The next slot -/

/-- The lamp is that of node `a`, at some time and with some step of the light. -/
def Of (a : Node) (x : Lamp) : Prop := ∃ now b calls, x.node = a.withLight now b calls

/-- The lamp is that of node `a`, and its timer is set to the synchronised slot number `k`. -/
structure Aligned (a : Node) (k : ℕ) (x : Lamp) : Prop where
  node : x.Of a
  pending : x.pending = some x.node.blinking.nextWakeup
  wakes : x.node.blinking.nextWakeup + a.offset = UInt16.ofNat (k * 4096)

/-- The step that is due in the slot is that of the path. -/
structure InStep (a : Node) (k : ℕ) (x : Lamp) : Prop extends Aligned a k x where
  state : x.node.blinking.state.toNat = (a.pathLength.toNat + k) % 8

/-- The lamp is that of node `a`, and its timer is not set. -/
structure Idle (a : Node) (x : Lamp) : Prop where
  node : x.Of a
  pending : x.pending = none

variable {a : Node} {k τ : ℕ} {x : Lamp}

/-- What is left of the length of the path in the step: an exit stores 255 hops. -/
theorem pathLength_mod (a : Node) :
    a.pathLength.toNat % 8 = ((a.deref a.bpn).hops.toNat + 1) % 8 := by
  have hlt := (a.deref a.bpn).hops.toNat_lt
  show ((a.deref a.bpn).hops + 1).toNat % 8 = _
  rw [UInt8.toNat_add]
  show ((a.deref a.bpn).hops.toNat + 1) % 2 ^ 8 % 8 = _
  omega

/-- When the timer goes off, whatever it is set to. -/
theorem Of.wakesUp_iff (h : x.Of a) {p : UInt16} (hp : x.pending = some p) :
    (x.clockAt τ).WakesUp ↔ p + a.offset = UInt16.ofNat τ := by
  obtain ⟨now, b, calls, hnode⟩ := h
  have hoffset : x.node.offset = a.offset := by rw [hnode]; rfl
  show x.pending = some (UInt16.ofNat τ - x.node.offset) ↔ _
  rw [hp, Option.some.injEq, hoffset]
  constructor
  · rintro rfl
    exact UInt16.sub_add_cancel _ _
  · intro hslot
    rw [← hslot, UInt16.add_sub_cancel]

/-- The timer goes off in its slot and not before. -/
theorem Aligned.wakesUp_iff (h : Aligned a k x) (hle : τ ≤ k * 4096) (hlt : k * 4096 < τ + 65536) :
    (x.clockAt τ).WakesUp ↔ τ = k * 4096 := by
  rw [h.node.wakesUp_iff h.pending, h.wakes, ← UInt16.toNat_inj, UInt16.toNat_ofNat',
    UInt16.toNat_ofNat']
  omega

/-! ### One tick -/

/-- What `blink` does to the lamp of a node that guides. -/
theorem blink_eq (hg : a.Guides) {now : UInt16} {b : Blinking} {calls : List Effect} {blue : Bool} :
    (⟨a.withLight now b calls, blue, none⟩ : Lamp).blink =
      ⟨a.withLight now ⟨b.nextWakeup + Node.blinkingSequenceSwitchTime,
          (b.state + 1) % Node.blinkingSequenceLength⟩ (calls ++ [.assert (a.bpn ≠ .null)]),
        if b.state = 0 then true else if b.state < Node.blinkingSequenceLength then false else blue,
        some (b.nextWakeup + Node.blinkingSequenceSwitchTime)⟩ := by
  have hblue : (a.withLight now b calls).ledsBlue blue =
      if b.state = 0 then true else if b.state < Node.blinkingSequenceLength then false else blue :=
    (if_pos hg.blinks).trans (if_pos hg.metric)
  have hon : (⟨a.withLight now b calls, blue, none⟩ : Lamp).blink =
      ({ (⟨a.withLight now b calls, blue, none⟩ : Lamp) with
        node := (a.withLight now b calls).blink
        blue := (a.withLight now b calls).ledsBlue blue } : Lamp).rtimerSet
          (a.withLight now b calls).blink.blinking.nextWakeup := if_pos hg.blinks
  rw [hon, hg.blink, hblue]
  rfl

theorem Aligned.eq (h : Aligned a k x) : ∃ now b calls blue,
    x = ⟨a.withLight now b calls, blue, some b.nextWakeup⟩ ∧
      b.nextWakeup + a.offset = UInt16.ofNat (k * 4096) := by
  obtain ⟨node, blue, pending⟩ := x
  obtain ⟨⟨now, b, calls, rfl⟩, hpending, hwakes⟩ := h
  exact ⟨now, b, calls, blue, congrArg _ hpending, hwakes⟩

/-- The number of the next slot, in the 16 bits of the clock. -/
theorem next_wakeup {w off : UInt16} (h : w + off = UInt16.ofNat (k * 4096)) :
    w + Node.blinkingSequenceSwitchTime + off = UInt16.ofNat ((k + 1) * 4096) := by
  have hswitch : Node.blinkingSequenceSwitchTime.toNat = 4096 := rfl
  rw [← UInt16.toNat_inj, UInt16.toNat_add, UInt16.toNat_ofNat'] at h
  rw [← UInt16.toNat_inj, UInt16.toNat_add, UInt16.toNat_add, UInt16.toNat_ofNat', hswitch]
  omega

/-- The interrupt in the slot sets the timer to the next one. -/
theorem Aligned.interrupt (hg : a.Guides) (h : Aligned a k x) (hτ : τ = k * 4096) :
    Aligned a (k + 1) (x.clockAt τ).interrupt := by
  have hwakesUp : (x.clockAt τ).WakesUp := (h.wakesUp_iff hτ.le (by omega)).mpr hτ
  obtain ⟨now, b, calls, blue, rfl, hwakes⟩ := h.eq
  rw [Lamp.interrupt, if_pos hwakesUp]
  show Aligned a (k + 1) (⟨a.withLight _ b calls, blue, none⟩ : Lamp).blink
  rw [blink_eq hg]
  exact ⟨⟨_, _, _, rfl⟩, rfl, next_wakeup hwakes⟩

/-- The step counts on with the slots. -/
theorem InStep.interrupt (hg : a.Guides) (h : InStep a k x) (hτ : τ = k * 4096) :
    InStep a (k + 1) (x.clockAt τ).interrupt := by
  refine ⟨h.toAligned.interrupt hg hτ, ?_⟩
  have hwakesUp : (x.clockAt τ).WakesUp := (h.wakesUp_iff hτ.le (by omega)).mpr hτ
  have hstate := h.state
  obtain ⟨now, b, calls, blue, rfl, -⟩ := h.toAligned.eq
  have hlen : Node.blinkingSequenceLength.toNat = 8 := rfl
  rw [Lamp.interrupt, if_pos hwakesUp]
  show (⟨a.withLight _ b calls, blue, none⟩ : Lamp).blink.node.blinking.state.toNat = _
  rw [blink_eq hg]
  show ((b.state + 1) % Node.blinkingSequenceLength).toNat = _
  have hb : b.state.toNat = (a.pathLength.toNat + k) % 8 := hstate
  rw [UInt16.toNat_mod, UInt16.toNat_add, hlen]
  show (b.state.toNat + 1) % 2 ^ 16 % 8 = _
  omega

/-- In its slot a lamp that is in step shows whether it is the slot of the path. -/
theorem InStep.blue_interrupt (hg : a.Guides) (h : InStep a k x) (hτ : τ = k * 4096) :
    (x.clockAt τ).interrupt.blue = decide ((a.pathLength.toNat + k) % 8 = 0) := by
  have hwakesUp : (x.clockAt τ).WakesUp := (h.wakesUp_iff hτ.le (by omega)).mpr hτ
  have hstate := h.state
  obtain ⟨now, b, calls, blue, rfl, -⟩ := h.toAligned.eq
  have hb : b.state.toNat = (a.pathLength.toNat + k) % 8 := hstate
  have hzero : b.state = 0 ↔ (a.pathLength.toNat + k) % 8 = 0 := by
    rw [← hb]
    exact UInt16.toNat_inj.symm
  have hlt : b.state < Node.blinkingSequenceLength := by
    show b.state.toNat < 8
    omega
  rw [Lamp.interrupt, if_pos hwakesUp]
  show (⟨a.withLight _ b calls, blue, none⟩ : Lamp).blink.blue = _
  rw [blink_eq hg]
  show (if b.state = 0 then true else if b.state < Node.blinkingSequenceLength then false
    else blue) = _
  by_cases hon : b.state = 0
  · rw [if_pos hon, decide_eq_true (hzero.mp hon)]
  · rw [if_neg hon, if_pos hlt, decide_eq_false fun h => hon (hzero.mpr h)]

/-- Before its slot the timer does not go off. -/
theorem Aligned.interrupt_before (h : Aligned a k x) (hlt : τ < k * 4096)
    (hle : k * 4096 ≤ τ + 4096) : (x.clockAt τ).interrupt = x.clockAt τ :=
  if_neg fun hwakesUp => absurd ((h.wakesUp_iff hlt.le (by omega)).mp hwakesUp) (by omega)

theorem Aligned.clockAt (h : Aligned a k x) : Aligned a k (x.clockAt τ) := by
  obtain ⟨⟨now, b, calls, hnode⟩, hpending, hwakes⟩ := h
  exact ⟨⟨_, b, calls, by rw [Lamp.clockAt, hnode]; rfl⟩, hpending, hwakes⟩

/-- What `blinking_update` leaves at time `τ`: the timer is set to the next slot, and the step is
that of the path. -/
theorem inStep_update (hg : a.Guides) {now : UInt16} {b : Blinking} {calls : List Effect}
    {blue : Bool} {p : Option UInt16} (hnow : now + a.offset = UInt16.ofNat τ)
    (hp : ∀ w ∈ p, w + a.offset = UInt16.ofNat ((τ / 4096 + 1) * 4096)) :
    InStep a (τ / 4096 + 1) (⟨a.withLight now b calls, blue, p⟩ : Lamp).update := by
  let next := (now + a.offset) / Node.blinkingSequenceSwitchTime + 1
  have hswitch : Node.blinkingSequenceSwitchTime.toNat = 4096 := rfl
  have hlen : Node.blinkingSequenceLength.toNat = 8 := rfl
  have hnext : next.toNat = (τ % 65536) / 4096 + 1 := by
    show ((now + a.offset) / Node.blinkingSequenceSwitchTime + 1).toNat = _
    rw [hnow, UInt16.toNat_add, UInt16.toNat_div, UInt16.toNat_ofNat', hswitch]
    show (τ % 2 ^ 16 / 4096 + 1) % 2 ^ 16 = _
    omega
  have hwakes : next * Node.blinkingSequenceSwitchTime - a.offset + a.offset =
      UInt16.ofNat ((τ / 4096 + 1) * 4096) := by
    rw [UInt16.sub_add_cancel, ← UInt16.toNat_inj, UInt16.toNat_mul, hnext, hswitch,
      UInt16.toNat_ofNat']
    omega
  have hon : (⟨a.withLight now b calls, blue, p⟩ : Lamp).update =
      (⟨(a.withLight now b calls).blinkingUpdate, blue, p⟩ : Lamp).rtimerSet
        (a.withLight now b calls).blinkingUpdate.blinking.nextWakeup := if_pos hg.blinks
  -- a timer that was set goes off in the same slot
  have hpending : p.or (some (next * Node.blinkingSequenceSwitchTime - a.offset)) =
      some (next * Node.blinkingSequenceSwitchTime - a.offset) := by
    cases p with
    | none => rfl
    | some w =>
      have hw : w + a.offset = _ := (hp w rfl).trans hwakes.symm
      rw [Option.some_or, ← UInt16.add_sub_cancel (a := w) (b := a.offset), hw,
        UInt16.add_sub_cancel]
  rw [hon, hg.blinkingUpdate]
  refine ⟨⟨⟨_, _, _, rfl⟩, hpending, hwakes⟩, ?_⟩
  have hlength := pathLength_mod a
  have hhops := (a.deref a.bpn).hops.toNat_lt
  show (((a.deref a.bpn).hops.toUInt16 + 1 + next) % Node.blinkingSequenceLength).toNat = _
  rw [UInt16.toNat_mod, UInt16.toNat_add, UInt16.toNat_add, hnext, hlen, UInt8.toNat_toUInt16]
  show (((a.deref a.bpn).hops.toNat + 1) % 2 ^ 16 + (τ % 65536 / 4096 + 1)) % 2 ^ 16 % 8 = _
  omega

/-- `blink` does not touch the clock. -/
theorem rtimerNow_interrupt (x : Lamp) : x.interrupt.node.rtimerNow = x.node.rtimerNow := by
  have hblink : x.node.blink.rtimerNow = x.node.rtimerNow := by
    unfold Node.blink
    split <;> rfl
  unfold interrupt blink
  split
  · split
    · exact hblink
    · rfl
  · rfl

/-- The interrupt leaves the timer set to the next slot, if it was set to a slot that is at most
one slot ahead. -/
theorem Aligned.afterInterrupt (hg : a.Guides) (h : Aligned a k x) (hle : τ ≤ k * 4096)
    (hsoon : k * 4096 ≤ τ + 4096) : Aligned a (τ / 4096 + 1) (x.clockAt τ).interrupt := by
  rcases hle.eq_or_lt with hτ | hlt
  · have hk : τ / 4096 + 1 = k + 1 := by omega
    rw [hk]
    exact h.interrupt hg hτ
  · have hk : τ / 4096 + 1 = k := by omega
    rw [hk, h.interrupt_before hlt hsoon]
    exact h.clockAt

/-- And the step in step. -/
theorem InStep.afterInterrupt (hg : a.Guides) (h : InStep a ((τ + 4095) / 4096) x) :
    InStep a (τ / 4096 + 1) (x.clockAt τ).interrupt := by
  by_cases hslot : 4096 ∣ τ
  · have hk : (τ + 4095) / 4096 = τ / 4096 := by omega
    rw [hk] at h
    exact h.interrupt hg (by omega)
  · have hk : (τ + 4095) / 4096 = τ / 4096 + 1 := by omega
    rw [hk] at h
    have hbefore : (x.clockAt τ).interrupt = x.clockAt τ :=
      h.toAligned.interrupt_before (by omega) (by omega)
    rw [hbefore]
    exact ⟨h.toAligned.clockAt, h.state⟩

/-! ### All ticks -/

/-- What holds of the lamp when the clock is about to show `τ`: its timer is not set, or set to a
slot that is at most one slot ahead. -/
def Ready (a : Node) (τ : ℕ) (x : Lamp) : Prop :=
  Idle a x ∨ ∃ k, τ ≤ k * 4096 ∧ k * 4096 ≤ τ + 4096 ∧ Aligned a k x

/-- The slot after time `τ` is at most one slot ahead of the next tick. -/
theorem next_slot (τ : ℕ) :
    τ + 1 ≤ (τ / 4096 + 1) * 4096 ∧ (τ / 4096 + 1) * 4096 ≤ τ + 1 + 4096 := by
  omega

/-- A tick leaves the lamp that of its node. -/
theorem Of.tick (hg : a.Guides) (h : x.Of a) (updates : Bool) : (x.tick updates τ).Of a := by
  have hblink : ∀ {y : Lamp}, y.Of a → y.blink.Of a := by
    rintro ⟨node, blue, pending⟩ ⟨now, b, calls, rfl⟩
    unfold blink
    split
    · exact ⟨_, _, _, hg.blink⟩
    · exact ⟨_, _, _, rfl⟩
  have hupdate : ∀ {y : Lamp}, y.Of a → y.update.Of a := by
    rintro ⟨node, blue, pending⟩ ⟨now, b, calls, rfl⟩
    unfold update
    split
    · exact ⟨_, _, _, hg.blinkingUpdate⟩
    · exact ⟨_, _, _, rfl⟩
  have hclock : (x.clockAt τ).Of a := by
    obtain ⟨now, b, calls, hnode⟩ := h
    exact ⟨_, b, calls, by rw [Lamp.clockAt, hnode]; rfl⟩
  have hinterrupt : (x.clockAt τ).interrupt.Of a := by
    unfold interrupt
    split
    · exact hblink hclock
    · exact hclock
  cases updates with
  | true => exact hupdate hinterrupt
  | false => exact hinterrupt

/-- A call of `blinking_update` does not set a timer that is set. -/
theorem pending_update {p : UInt16} (hp : x.pending = some p) : x.update.pending = some p := by
  unfold update
  split
  · show x.pending.or _ = _
    rw [hp, Option.some_or]
  · exact hp

theorem pending_tick {p : UInt16} (hp : x.pending = some p) (hnot : ¬ (x.clockAt τ).WakesUp)
    (updates : Bool) : (x.tick updates τ).pending = some p := by
  have hsame : (x.clockAt τ).interrupt = x.clockAt τ := if_neg hnot
  cases updates with
  | true =>
    rw [tick, if_pos rfl, hsame]
    exact pending_update hp
  | false =>
    rw [tick, if_neg Bool.false_ne_true, hsame]
    exact hp

/-- A timer that goes off is set anew by `blink`, which counts on from its own wake-up time. -/
theorem pending_tick_of_wakesUp (hg : a.Guides) {now : UInt16} {b : Blinking} {calls : List Effect}
    {blue : Bool} {p : UInt16} (hp : p + a.offset = UInt16.ofNat τ) :
    ((⟨a.withLight now b calls, blue, some p⟩ : Lamp).tick true τ).pending =
      some (b.nextWakeup + Node.blinkingSequenceSwitchTime) := by
  have hof : (⟨a.withLight now b calls, blue, some p⟩ : Lamp).Of a := ⟨_, _, _, rfl⟩
  have hwakes : ((⟨a.withLight now b calls, blue, some p⟩ : Lamp).clockAt τ).WakesUp :=
    (hof.wakesUp_iff rfl).mpr hp
  rw [tick, if_pos rfl, interrupt, if_pos hwakes]
  show (⟨a.withLight _ b calls, blue, none⟩ : Lamp).blink.update.pending = _
  rw [blink_eq hg]
  exact pending_update rfl

theorem Idle.interrupt (h : Idle a x) : Idle a (x.clockAt τ).interrupt ∧
    (x.clockAt τ).interrupt = x.clockAt τ := by
  obtain ⟨⟨now, b, calls, hnode⟩, hpending⟩ := h
  have hnot : ¬ (x.clockAt τ).WakesUp := fun hwakesUp =>
    Option.some_ne_none _ (hwakesUp.symm.trans hpending)
  have hsame : (x.clockAt τ).interrupt = x.clockAt τ := if_neg hnot
  refine ⟨?_, hsame⟩
  rw [hsame]
  exact ⟨⟨_, b, calls, by rw [Lamp.clockAt, hnode]; rfl⟩, hpending⟩

/-- **A call of `blinking_update` at any time leaves the light in step.** -/
theorem Ready.tick_update (hg : a.Guides) (h : Ready a τ x) :
    InStep a ((τ + 1 + 4095) / 4096) (x.tick true τ) := by
  have hk : (τ + 1 + 4095) / 4096 = τ / 4096 + 1 := by omega
  rw [hk]
  show InStep a _ (x.clockAt τ).interrupt.update
  have hnow := rtimerNow_interrupt (x.clockAt τ)
  have hoffset : ∀ now b calls, x.node = a.withLight now b calls →
      (x.clockAt τ).node.rtimerNow + a.offset = UInt16.ofNat τ := by
    intro now b calls hnode
    show UInt16.ofNat τ - x.node.offset + a.offset = _
    rw [hnode]
    exact UInt16.sub_add_cancel _ _
  rcases h with h | ⟨k, hle, hsoon, h⟩
  · obtain ⟨now, b, calls, hnode⟩ := h.node
    have hclock := hoffset now b calls hnode
    rw [← hnow] at hclock
    obtain ⟨⟨now', b', calls', hnode'⟩, hpending'⟩ := (h.interrupt (τ := τ)).1
    generalize (x.clockAt τ).interrupt = y at hclock hnode' hpending'
    obtain ⟨node, blue, pending⟩ := y
    cases hnode'
    cases hpending'
    exact inStep_update hg hclock (by simp)
  · obtain ⟨now, b, calls, hnode⟩ := h.node
    have hclock := hoffset now b calls hnode
    rw [← hnow] at hclock
    obtain ⟨now', b', calls', blue', heq, hwakes⟩ := (h.afterInterrupt hg hle hsoon).eq
    rw [heq] at hclock ⊢
    exact inStep_update hg hclock fun w hw => Option.some.inj hw ▸ hwakes

theorem Ready.tick (hg : a.Guides) (h : Ready a τ x) (updates : Bool) :
    Ready a (τ + 1) (x.tick updates τ) := by
  cases updates with
  | true => exact .inr ⟨(τ + 1 + 4095) / 4096, by omega, by omega, (h.tick_update hg).toAligned⟩
  | false =>
    rcases h with h | ⟨k, hle, hsoon, h⟩
    · exact .inl h.interrupt.1
    · exact .inr ⟨_, (next_slot τ).1, (next_slot τ).2, h.afterInterrupt hg hle hsoon⟩

/-- **A tick leaves a light in step that was.** -/
theorem InStep.tick (hg : a.Guides) (h : InStep a ((τ + 4095) / 4096) x) (updates : Bool) :
    InStep a ((τ + 1 + 4095) / 4096) (x.tick updates τ) := by
  cases updates with
  | true =>
    have hready : Ready a τ x := .inr ⟨(τ + 4095) / 4096, by omega, by omega, h.toAligned⟩
    exact hready.tick_update hg
  | false =>
    have hk : (τ + 1 + 4095) / 4096 = τ / 4096 + 1 := by omega
    rw [hk]
    exact h.afterInterrupt hg

theorem blue_update (x : Lamp) : x.update.blue = x.blue := by
  unfold update
  split <;> rfl

theorem blue_tick (x : Lamp) (updates : Bool) :
    (x.tick updates τ).blue = (x.clockAt τ).interrupt.blue := by
  cases updates with
  | true => exact blue_update _
  | false => rfl

/-- **What a tick does to the LED**: in a slot it shows whether it is that of the path, and in
between it stays as it is. -/
theorem InStep.blue_tick (hg : a.Guides) (h : InStep a ((τ + 4095) / 4096) x) (updates : Bool) :
    (x.tick updates τ).blue =
      if 4096 ∣ τ then decide ((a.pathLength.toNat + τ / 4096) % 8 = 0) else x.blue := by
  rw [Lamp.blue_tick]
  split
  · next hslot =>
    have hk : (τ + 4095) / 4096 = τ / 4096 := by omega
    rw [hk] at h
    exact h.blue_interrupt hg (by omega)
  · next hslot =>
    rw [h.toAligned.interrupt_before (by omega) (by omega)]
    rfl

end Lamp

section Runs

variable {a b : Node} {x y : Lamp} {updates : ℕ → Bool} {t τ : ℕ}

/-- The lamp when the synchronised clock is about to show `τ`; `blinking_update` is called at the
times in `updates`. -/
def lampAt (x : Lamp) (updates : ℕ → Bool) : ℕ → Lamp
  | 0 => x
  | τ + 1 => (lampAt x updates τ).tick (updates τ) τ

/-- The node wakes up at time `τ`. -/
def WakesAt (x : Lamp) (updates : ℕ → Bool) (τ : ℕ) : Prop :=
  ((lampAt x updates τ).clockAt τ).WakesUp

/-- The LED is on at time `τ`. -/
def lit (x : Lamp) (updates : ℕ → Bool) (τ : ℕ) : Bool := (lampAt x updates (τ + 1)).blue

theorem ready_lampAt (hg : a.Guides) (hx : x.Ready a 0) :
    ∀ τ, (lampAt x updates τ).Ready a τ := by
  intro τ
  induction τ with
  | zero => exact hx
  | succ τ ih => exact ih.tick hg _

/-- From the first call of `blinking_update` on the light is in step. -/
theorem inStep_lampAt (hg : a.Guides) (hx : x.Ready a 0) (ht : updates t = true) (hlt : t < τ) :
    (lampAt x updates τ).InStep a ((τ + 4095) / 4096) := by
  induction τ, hlt using Nat.le_induction with
  | base =>
    show ((lampAt x updates t).tick (updates t) t).InStep a _
    rw [ht]
    exact (ready_lampAt hg hx t).tick_update hg
  | succ τ _ ih => exact ih.tick hg _

/-- **When the LED is on**: in the slots whose number and the length of the path add up to a
multiple of eight. -/
theorem lit_iff (hg : a.Guides) (hx : x.Ready a 0) (ht : updates t = true) :
    ∀ τ, t / 4096 < τ / 4096 →
      lit x updates τ = decide ((a.pathLength.toNat + τ / 4096) % 8 = 0) := by
  intro τ
  induction τ with
  | zero => intro hlt; omega
  | succ τ ih =>
    intro hlt
    have hstep := inStep_lampAt hg hx ht (τ := τ + 1) (by omega)
    rw [lit, lampAt, hstep.blue_tick hg]
    split
    · rfl
    · -- between two slots nothing changes
      next hslot =>
      have hsame : (τ + 1) / 4096 = τ / 4096 := by omega
      rw [hsame] at hlt ⊢
      exact ih hlt

theorem wakesAt_iff (hg : a.Guides) (hx : x.Ready a 0) (ht : updates t = true) (hlt : t < τ) :
    WakesAt x updates τ ↔ 4096 ∣ τ := by
  rw [WakesAt, (inStep_lampAt hg hx ht hlt).toAligned.wakesUp_iff (by omega) (by omega)]
  omega

/-- A node that runs `blinking_update` at time `t`: it wakes up in every slot from then on, the
first time within one slot, and its LED is on in one of every eight slots. -/
structure RunsOnTime (x : Lamp) (updates : ℕ → Bool) (t : ℕ) : Prop where
  wakes : ∀ τ, t < τ → (WakesAt x updates τ ↔ 4096 ∣ τ)
  soon : ∃ τ, t < τ ∧ τ ≤ t + 4096 ∧ WakesAt x updates τ
  steady : ∀ τ, t / 4096 < τ / 4096 → lit x updates τ = lit x updates (τ / 4096 * 4096)
  once : ∀ k, t / 4096 < k → ∃! j, j < 8 ∧ lit x updates ((k + j) * 4096) = true

theorem runsOnTime (hg : a.Guides) (hx : x.Ready a 0) (ht : updates t = true) :
    RunsOnTime x updates t where
  wakes := fun τ hlt => wakesAt_iff hg hx ht hlt
  soon := by
    have hlt : t < (t / 4096 + 1) * 4096 := by omega
    exact ⟨(t / 4096 + 1) * 4096, hlt, by omega,
      (wakesAt_iff hg hx ht hlt).mpr (Nat.dvd_mul_left _ _)⟩
  steady := by
    intro τ hlt
    have hsame : τ / 4096 * 4096 / 4096 = τ / 4096 := by omega
    rw [lit_iff hg hx ht τ hlt, lit_iff hg hx ht _ (by rw [hsame]; exact hlt), hsame]
  once := by
    intro k hk
    have hlit : ∀ j, lit x updates ((k + j) * 4096) = true ↔
        (a.pathLength.toNat + (k + j)) % 8 = 0 := by
      intro j
      have hslot : (k + j) * 4096 / 4096 = k + j := by omega
      rw [lit_iff hg hx ht _ (by omega), hslot, decide_eq_true_iff]
    refine ⟨(8 - (a.pathLength.toNat + k) % 8) % 8, ⟨by omega, (hlit _).mpr (by omega)⟩, ?_⟩
    rintro j ⟨hj, hon⟩
    have hsum := (hlit j).mp hon
    omega

/-! ### Timers that are not ready -/

theorem of_lampAt (hg : a.Guides) (hx : x.Of a) : ∀ τ, (lampAt x updates τ).Of a := by
  intro τ
  induction τ with
  | zero => exact hx
  | succ τ ih => exact ih.tick hg _

/-- A timer that does not go off stays set to what it was, whatever is called. -/
theorem pending_lampAt {n s : ℕ} {p : UInt16} (hp : (lampAt x updates s).pending = some p)
    (hle : s ≤ n) (hquiet : ∀ τ, s ≤ τ → τ < n → ¬ WakesAt x updates τ) :
    (lampAt x updates n).pending = some p := by
  induction n, hle using Nat.le_induction with
  | base => exact hp
  | succ n hle ih =>
    have hbefore := ih fun τ hs hlt => hquiet τ hs (hlt.trans n.lt_succ_self)
    exact Lamp.pending_tick hbefore (hquiet n hle n.lt_succ_self) _

/-- A lamp that runs on time after a call of `blinking_update` has its timer set to the slot that
follows the call. -/
theorem RunsOnTime.pending (hg : a.Guides) (hx : x.Of a) (h : RunsOnTime x updates t) {p : UInt16}
    (hp : (lampAt x updates (t + 1)).pending = some p) :
    p + a.offset = UInt16.ofNat ((t / 4096 + 1) * 4096) := by
  have hwakes : WakesAt x updates ((t / 4096 + 1) * 4096) :=
    (h.wakes _ (by omega)).mpr (Nat.dvd_mul_left _ _)
  have hquiet : ∀ τ, t + 1 ≤ τ → τ < (t / 4096 + 1) * 4096 → ¬ WakesAt x updates τ := by
    intro τ hle hlt hwake
    have hdvd := (h.wakes τ hle).mp hwake
    omega
  have hlater := pending_lampAt hp (by omega) hquiet
  exact ((of_lampAt hg hx _).wakesUp_iff hlater).mp hwakes

/-- Before its timer goes off for the first time nothing but the clock changes, as long as
`blinking_update` is not called. -/
theorem lampAt_before (hx : x.Of a) {n : ℕ} {p : UInt16} (hp : x.pending = some p)
    (hslot : p + a.offset = UInt16.ofNat n) (hn : n < 65536)
    (hnone : ∀ τ, τ < n → updates τ = false) :
    ∀ τ, τ ≤ n → ∃ now,
      lampAt x updates τ = { x with node := { x.node with rtimerNow := now } } := by
  intro τ
  induction τ with
  | zero => exact fun _ => ⟨x.node.rtimerNow, rfl⟩
  | succ τ ih =>
    intro hle
    obtain ⟨now, hsame⟩ := ih (by omega)
    have hof : (lampAt x updates τ).Of a := by
      obtain ⟨now', b, calls, hnode⟩ := hx
      exact ⟨now, b, calls, by rw [hsame, hnode]; rfl⟩
    have hnot : ¬ ((lampAt x updates τ).clockAt τ).WakesUp := by
      have hset : (lampAt x updates τ).pending = some p := by rw [hsame]; exact hp
      rw [hof.wakesUp_iff hset, hslot, ← UInt16.toNat_inj, UInt16.toNat_ofNat', UInt16.toNat_ofNat']
      omega
    have htick : lampAt x updates (τ + 1) = (lampAt x updates τ).clockAt τ := by
      rw [lampAt, hnone τ hle]
      exact if_neg hnot
    rw [htick, hsame]
    exact ⟨_, rfl⟩

/-- **A lamp that runs on time whenever `blinking_update` is called is ready.** -/
theorem ready_of_runsOnTime (hg : a.Guides) (hx : x.Of a)
    (h : ∀ updates t, updates t = true → RunsOnTime x updates t) : x.Ready a 0 := by
  have hof := hx
  obtain ⟨node, blue, pending⟩ := x
  obtain ⟨now, b, calls, rfl⟩ := hx
  cases pending with
  | none => exact .inl ⟨hof, rfl⟩
  | some p =>
    -- the timer is set to slot 0 or, by a call at time 0, to slot 1
    have hslot : ∃ k, k ≤ 1 ∧ p + a.offset = UInt16.ofNat (k * 4096) := by
      by_cases hzero : p + a.offset = UInt16.ofNat 0
      · exact ⟨0, Nat.zero_le _, hzero⟩
      · have hrun := h (fun τ => decide (τ = 0)) 0 rfl
        exact ⟨1, le_rfl, hrun.pending hg hof
          (Lamp.pending_tick rfl (fun hwakes => hzero ((hof.wakesUp_iff rfl).mp hwakes)) _)⟩
    obtain ⟨k, hk, hp⟩ := hslot
    -- a call at the moment it goes off shows what `blink` sets it to
    have hrun := h (fun τ => decide (τ = k * 4096)) (k * 4096) (decide_eq_true rfl)
    have hbefore : ∃ now', lampAt ⟨a.withLight now b calls, blue, some p⟩
        (fun τ => decide (τ = k * 4096)) (k * 4096) = ⟨a.withLight now' b calls, blue, some p⟩ :=
      lampAt_before hof rfl hp (by omega) (fun τ hlt => decide_eq_false hlt.ne) _ le_rfl
    obtain ⟨now', hsame⟩ := hbefore
    have hnext := hrun.pending hg hof (p := b.nextWakeup + Node.blinkingSequenceSwitchTime) (by
      rw [lampAt, hsame, decide_eq_true rfl]
      exact Lamp.pending_tick_of_wakesUp hg hp)
    have hsucc : k * 4096 / 4096 + 1 = k + 1 := by omega
    rw [hsucc] at hnext
    have hwakeup : b.nextWakeup = p := by
      have hswitch : Node.blinkingSequenceSwitchTime.toNat = 4096 := rfl
      rw [← UInt16.toNat_inj, UInt16.toNat_add, UInt16.toNat_add, UInt16.toNat_ofNat', hswitch]
        at hnext
      rw [← UInt16.toNat_inj, UInt16.toNat_add, UInt16.toNat_ofNat'] at hp
      have hlt := b.nextWakeup.toNat_lt
      have hlt' := p.toNat_lt
      rw [← UInt16.toNat_inj]
      omega
    subst hwakeup
    exact .inr ⟨k, Nat.zero_le _, by omega, hof, rfl, hp⟩

/-- **The light runs toward the exit**: of two nodes of which the first has a path longer by one,
both wake up on time and light up in one of every eight slots, and the second lights up exactly
one slot after the first, whenever the two call `blinking_update`, if and only if their timers
are not set or set to a slot. -/
theorem runsTowardExit (ha : a.Guides) (hb : b.Guides) (hx : x.Of a) (hy : y.Of b)
    (hlength : a.pathLength = b.pathLength + 1) :
    (∀ updates updates' t t', updates t = true → updates' t' = true →
      RunsOnTime x updates t ∧ RunsOnTime y updates' t' ∧
        ∀ τ, t / 4096 < τ / 4096 → t' / 4096 < τ / 4096 + 1 →
          lit y updates' (τ + 4096) = lit x updates τ) ↔
      x.Ready a 0 ∧ y.Ready b 0 := by
  constructor
  · -- one lamp may be called at any time while the other is called at time 0
    intro h
    exact ⟨ready_of_runsOnTime ha hx fun updates t ht =>
        (h updates (fun τ => decide (τ = 0)) t 0 ht rfl).1,
      ready_of_runsOnTime hb hy fun updates t ht =>
        (h (fun τ => decide (τ = 0)) updates 0 t rfl ht).2.1⟩
  · rintro ⟨hx, hy⟩ updates updates' t t' ht ht'
    refine ⟨runsOnTime ha hx ht, runsOnTime hb hy ht', fun τ hlt hlt' => ?_⟩
    have hslot : (τ + 4096) / 4096 = τ / 4096 + 1 := by omega
    have hlen : a.pathLength.toNat % 8 = (b.pathLength.toNat + 1) % 8 := by
      rw [hlength, UInt8.toNat_add]
      show (b.pathLength.toNat + 1) % 2 ^ 8 % 8 = _
      omega
    rw [lit_iff ha hx ht τ hlt, lit_iff hb hy ht' _ (by omega), hslot]
    exact decide_eq_decide.mpr (by omega)

end Runs

/-- An exit, and a node beside it. -/
def guidingExit : Node :=
  { Node.zero ⟨1, 0⟩ none with
    bpn := .exitNode
    exitNode := ⟨⟨1, 0⟩, default, ⟨0, 0⟩, ⟨⟨0, 0⟩, ⟨1, 0⟩, 255⟩, true⟩
    state := { isBlinking := true, isExitNode := true }
    offset := 60000 }

/-- A node whose best neighbour is the exit. -/
def besideExit : Node :=
  { Node.zero ⟨2, 0⟩ none with
    ns := ((neighborsAdd neighborsInit ⟨1, 0⟩).getD neighborsInit).set 0
      ⟨⟨1, 0⟩, default, ⟨0, 10⟩, ⟨⟨0, 0⟩, ⟨1, 0⟩, 0⟩, true⟩
    bpn := .slot 0
    state := { isBlinking := true }
    offset := 17 }

/-- A light that has not been on, and a timer that has not been set. -/
def Lamp.dark (a : Node) : Lamp := ⟨a, false, none⟩

theorem Lamp.of_dark (a : Node) : (dark a).Of a := ⟨_, _, _, rfl⟩

theorem Lamp.ready_dark (a : Node) : (dark a).Ready a 0 := .inl ⟨of_dark a, rfl⟩

/-- The light passes from the node beside the exit to the exit. -/
theorem runsTowardExit_besideExit :
    RunsOnTime (.dark besideExit) (fun τ => decide (τ = 100)) 100 ∧
      RunsOnTime (.dark guidingExit) (fun τ => decide (τ = 70000)) 70000 ∧
      ∀ τ, 100 / 4096 < τ / 4096 → 70000 / 4096 < τ / 4096 + 1 →
        lit (.dark guidingExit) (fun τ => decide (τ = 70000)) (τ + 4096) =
          lit (.dark besideExit) (fun τ => decide (τ = 100)) τ :=
  (runsTowardExit (a := besideExit) (b := guidingExit)
    ⟨rfl, rfl, NeighborPtr.noConfusion, by decide⟩ ⟨rfl, rfl, NeighborPtr.noConfusion, by decide⟩
    (Lamp.of_dark _) (Lamp.of_dark _) rfl).mpr ⟨Lamp.ready_dark _, Lamp.ready_dark _⟩
    _ _ _ _ rfl rfl

/-- The node beside the exit, when its clock was ahead by 4006 ticks instead of 17: it has called
`blinking_update` at the synchronised time 3000, and is synchronised anew. -/
def resynchronised : Lamp :=
  let armed := ((Lamp.dark { besideExit with offset := 4006 }).clockAt 3000).update
  { armed with node := { armed.node with offset := 17 } }

/-- **A timer set before the clock moved**: `blinking_update` is called when the node has been
synchronised anew, but the node wakes up when it was to wake up before. -/
theorem not_runsOnTime_resynchronised :
    besideExit.Guides ∧ resynchronised.Of besideExit ∧
      WakesAt resynchronised (fun τ => decide (τ = 0)) 107 ∧
      ¬ RunsOnTime resynchronised (fun τ => decide (τ = 0)) 0 := by
  have hwakes : WakesAt resynchronised (fun τ => decide (τ = 0)) 107 := by
    unfold WakesAt
    decide +kernel
  refine ⟨⟨rfl, rfl, NeighborPtr.noConfusion, by decide⟩, ⟨_, _, _, rfl⟩, hwakes, fun h => ?_⟩
  exact absurd ((h.wakes 107 (by decide)).mp hwakes) (by decide)

end EmergencyNet
