import EmergencyNet.Timesynch.Rounds

/-!
# The clock of a node

`emergency_net/timesynch.c`: a sniffer looks at every frame the radio receives, before the
connection does, and takes samples of how far the clock of the node is from that of the sender.
It goes by the level the sender had when it sent the frame, which the radio puts behind it.

## Main definitions

* `Clock` — the variables of the module.
* `bs`, `Clock.adjustOffset`, `Clock.incomingPacket` — its functions.
* `Samples` — the frames a sample is taken from.

## Main results

* `Clock.samples_incomingPacket` — **what the sniffer does with a frame.**
-/

namespace EmergencyNet

/-! ### Sorting -/

/-- The inner loop of `bs`: the first `n` entries are compared with the next ones. -/
def bsPass : ℕ → List UInt16 → List UInt16
  | n + 1, a :: b :: l => if a > b then b :: bsPass n (a :: l) else a :: bsPass n (b :: l)
  | _, l => l

/-- The outer loop of `bs`, whose passes get shorter. -/
def bsPasses : ℕ → List UInt16 → List UInt16
  | 0, l => l
  | n + 1, l => bsPasses n (bsPass (n + 1) l)

/-- `bs`, on as many entries as the list has. -/
def bs (l : List UInt16) : List UInt16 := bsPasses (l.length - 1) l

theorem length_bsPass (n : ℕ) (l : List UInt16) : (bsPass n l).length = l.length := by
  fun_induction bsPass n l with
  | case1 n a b l hgt ih => simp [ih]
  | case2 n a b l hgt ih => simp [ih]
  | case3 => rfl

theorem length_bs (l : List UInt16) : (bs l).length = l.length := by
  have hpasses : ∀ n (l : List UInt16), (bsPasses n l).length = l.length := by
    intro n
    induction n with
    | zero => exact fun l => rfl
    | succ n ih =>
      intro l
      rw [bsPasses, ih, length_bsPass]
  exact hpasses _ l

/-! ### Samples -/

/-- `MAX_OFFSETS`. -/
def maxOffsets : ℕ := 12

/-- The variables of `timesynch.c`. -/
structure Clock where
  offset : UInt16
  /-- The `offset_index` entries of `offsets` that are in use. -/
  offsets : List UInt16
  offsets_le : offsets.length ≤ maxOffsets
  /-- The times of departure and arrival `adjust_offset` was called with, newest first. -/
  samples : List (UInt16 × UInt16)

namespace Clock

/-- `timesynch_init`. -/
def init : Clock := ⟨0, [], Nat.zero_le _, []⟩

/-- `offset_index = 0`. -/
def restart (c : Clock) : Clock := { c with offsets := [], offsets_le := Nat.zero_le _ }

/-- The part of `adjust_offset` that puts the sample among the others, if there is room. -/
def addOffset (authoritativeTime localTime : UInt16) (c : Clock) : Clock :=
  if h : c.offsets.length < maxOffsets then
    { c with
      offsets := bs (c.offsets ++ [c.offset + authoritativeTime - localTime])
      offsets_le := by
        rw [length_bs, List.length_append]
        exact h }
  else c

/-- `adjust_offset`. -/
def adjustOffset (authoritativeTime localTime : UInt16) (c : Clock) : Clock :=
  let c := c.addOffset authoritativeTime localTime
  { c with
    offset := c.offsets.getD (c.offsets.length / 2) 0
    samples := (authoritativeTime, localTime) :: c.samples }

/-- `incoming_packet`: a frame on channel `ch`, sent while the sender had level `sender`. -/
def incomingPacket (ts : Timesynch) (ch : Channel) (hdr : Header) (sender : UInt8)
    (timeOfDeparture timeOfArrival : UInt16) (c : Clock) : Clock :=
  if ch = .timesynch then
    if hdr.isPacketFlagSet PacketFlags.timesynch then
      if sender < ts.authorityLevel then
        c.restart.adjustOffset timeOfDeparture timeOfArrival
      else if sender = ts.authorityLevel then
        if hdr.seqno > ts.authoritySeqno ∨ hdr.seqno < ts.authoritySeqno / 8 then
          c.restart.adjustOffset timeOfDeparture timeOfArrival
        else if hdr.seqno = ts.authoritySeqno then
          c.adjustOffset timeOfDeparture timeOfArrival
        else c
      else c
    else c
  else c

end Clock

/-- The number is that of a new round or that of the last one. -/
def CurrentSeqno (q last : UInt8) : Prop := NewSeqno q last ∨ q = last

instance (q last : UInt8) : Decidable (CurrentSeqno q last) := by
  unfold CurrentSeqno
  infer_instance

/-- The sniffer takes a sample from a packet with number `q`, sent while the sender had level
`sender`. -/
def Samples (ts : Timesynch) (q sender : UInt8) : Prop :=
  sender < ts.authorityLevel ∨ sender = ts.authorityLevel ∧ CurrentSeqno q ts.authoritySeqno

instance (ts : Timesynch) (q sender : UInt8) : Decidable (Samples ts q sender) := by
  unfold Samples
  infer_instance

namespace Clock

variable {ts : Timesynch} {hdr : Header} {sender : UInt8} {dep arr : UInt16} {c : Clock}

@[simp] theorem samples_addOffset : (c.addOffset dep arr).samples = c.samples := by
  unfold addOffset
  split <;> rfl

@[simp] theorem samples_adjustOffset :
    (c.adjustOffset dep arr).samples = (dep, arr) :: c.samples := by
  simp [adjustOffset]

@[simp] theorem samples_restart : c.restart.samples = c.samples := rfl

/-- **What the sniffer does with a time synchronisation packet**: it takes a sample, or
nothing. -/
theorem samples_incomingPacket (hflag : hdr.isPacketFlagSet PacketFlags.timesynch = true) :
    (c.incomingPacket ts .timesynch hdr sender dep arr).samples =
      if Samples ts hdr.seqno sender then (dep, arr) :: c.samples else c.samples := by
  rw [incomingPacket, if_pos rfl, if_pos hflag]
  by_cases hlt : sender < ts.authorityLevel
  · have hsamples : Samples ts hdr.seqno sender := .inl hlt
    rw [if_pos hlt, if_pos hsamples, samples_adjustOffset, samples_restart]
  rw [if_neg hlt]
  by_cases heq : sender = ts.authorityLevel
  swap
  · have hsamples : ¬ Samples ts hdr.seqno sender := not_or.mpr ⟨hlt, fun h => heq h.1⟩
    rw [if_neg heq, if_neg hsamples]
  rw [if_pos heq]
  by_cases hnew : hdr.seqno > ts.authoritySeqno ∨ hdr.seqno < ts.authoritySeqno / 8
  · have hsamples : Samples ts hdr.seqno sender := .inr ⟨heq, .inl hnew⟩
    rw [if_pos hnew, if_pos hsamples, samples_adjustOffset, samples_restart]
  rw [if_neg hnew]
  by_cases hrep : hdr.seqno = ts.authoritySeqno
  · have hsamples : Samples ts hdr.seqno sender := .inr ⟨heq, .inr hrep⟩
    rw [if_pos hrep, if_pos hsamples, samples_adjustOffset]
  · have hsamples : ¬ Samples ts hdr.seqno sender :=
      not_or.mpr ⟨hlt, fun h => h.2.elim hnew hrep⟩
    rw [if_neg hrep, if_neg hsamples]

end Clock

end EmergencyNet
