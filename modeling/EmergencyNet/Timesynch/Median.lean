import EmergencyNet.Timesynch.Clock
import Mathlib.Data.List.Induction

/-!
# The offset of the clock is a median

`bs` sorts, so between two restarts `offsets` holds the samples in order, as many as there is
room for, and `adjust_offset` takes the one in the middle.

## Main definitions

* `HeardFrame` — a frame, and what the node knew when it came in.
* `Gathering` — the clock beside the samples taken since the last restart.
* `InOrder`, `AtMedian` — what `offsets` and `offset` are.

## Main results

* `bs_perm`, `bs_sorted` — **`bs` sorts.**
* `gather_median` — **after every frame the samples are in order, and from the first accepted
  one on the offset is the one in the middle.**
-/

namespace EmergencyNet

/-! ### The sort -/

theorem bsPass_perm (n : ℕ) (l : List UInt16) : List.Perm (bsPass n l) l := by
  fun_induction bsPass n l with
  | case1 n a b l hgt ih => exact (ih.cons b).trans (List.Perm.swap a b l)
  | case2 n a b l hgt ih => exact ih.cons a
  | case3 => exact List.Perm.refl _

theorem bsPasses_perm (n : ℕ) : ∀ l : List UInt16, List.Perm (bsPasses n l) l := by
  induction n with
  | zero => exact fun l => List.Perm.refl l
  | succ n ih => exact fun l => (ih _).trans (bsPass_perm _ l)

/-- `bs` only moves the entries about. -/
theorem bs_perm (l : List UInt16) : List.Perm (bs l) l := bsPasses_perm _ l

/-- A pass over the first `n + 1` entries moves a greatest of them behind the others and leaves
the rest. -/
theorem bsPass_append (n : ℕ) : ∀ (x : UInt16) (front rest : List UInt16), front.length = n →
    ∃ front' m, bsPass n (x :: front ++ rest) = front' ++ m :: rest ∧ front'.length = n ∧
      List.Perm (front' ++ [m]) (x :: front) ∧ ∀ z ∈ x :: front, z ≤ m := by
  induction n with
  | zero =>
    intro x front rest hlen
    obtain rfl := List.length_eq_zero_iff.mp hlen
    exact ⟨[], x, by simp [bsPass], rfl, List.Perm.refl _, by simp⟩
  | succ n ih =>
    intro x front rest hlen
    obtain ⟨y, front, rfl⟩ := List.exists_cons_of_length_eq_add_one hlen
    have hlen : front.length = n := by simpa using hlen
    by_cases hgt : x > y
    · -- `y` stays behind and `x` goes on
      obtain ⟨front', m, heq, hlen', hperm, hmax⟩ := ih x front rest hlen
      have hxm : x ≤ m := hmax x List.mem_cons_self
      refine ⟨y :: front', m, ?_, by simp [hlen'], ?_, ?_⟩
      · simp only [List.cons_append, bsPass, if_pos hgt] at heq ⊢
        rw [heq]
      · exact (hperm.cons y).trans (List.Perm.swap x y front)
      · intro z hz
        rcases List.mem_cons.mp hz with rfl | hz
        · exact hxm
        rcases List.mem_cons.mp hz with rfl | hz
        · exact UInt16.le_trans (UInt16.le_of_lt hgt) hxm
        · exact hmax z (List.mem_cons_of_mem _ hz)
    · -- `x` stays behind and `y` goes on
      obtain ⟨front', m, heq, hlen', hperm, hmax⟩ := ih y front rest hlen
      have hym : y ≤ m := hmax y List.mem_cons_self
      refine ⟨x :: front', m, ?_, by simp [hlen'], hperm.cons x, ?_⟩
      · simp only [List.cons_append, bsPass, if_neg hgt] at heq ⊢
        rw [heq]
      · intro z hz
        rcases List.mem_cons.mp hz with rfl | hz
        · exact UInt16.le_trans (UInt16.not_lt.mp hgt) hym
        · exact hmax z hz

/-- With an ordered rest that nothing in front exceeds, the passes order the whole list. -/
theorem bsPasses_sorted (n : ℕ) : ∀ front rest : List UInt16, front.length = n + 1 →
    rest.Pairwise (· ≤ ·) → (∀ a ∈ front, ∀ b ∈ rest, a ≤ b) →
    (bsPasses n (front ++ rest)).Pairwise (· ≤ ·) := by
  induction n with
  | zero =>
    intro front rest hlen hrest hcross
    obtain ⟨a, rfl⟩ := List.length_eq_one_iff.mp hlen
    exact List.pairwise_cons.mpr ⟨hcross a List.mem_cons_self, hrest⟩
  | succ n ih =>
    intro front rest hlen hrest hcross
    obtain ⟨x, front, rfl⟩ := List.exists_cons_of_length_eq_add_one hlen
    obtain ⟨front', m, heq, hlen', hperm, hmax⟩ :=
      bsPass_append (n + 1) x front rest (by simpa using hlen)
    have hmem : ∀ a ∈ front' ++ [m], a ∈ x :: front := fun a ha => hperm.mem_iff.mp ha
    rw [bsPasses, heq]
    apply ih front' (m :: rest) hlen'
    · exact List.pairwise_cons.mpr ⟨hcross m (hmem m (by simp)), hrest⟩
    · intro a ha b hb
      have hin : a ∈ x :: front := hmem a (List.mem_append_left _ ha)
      rcases List.mem_cons.mp hb with rfl | hb
      · exact hmax a hin
      · exact hcross a hin b hb

/-- **`bs` puts the entries in order.** -/
theorem bs_sorted (l : List UInt16) : (bs l).Pairwise (· ≤ ·) := by
  cases l with
  | nil => exact List.Pairwise.nil
  | cons a l =>
    have h := bsPasses_sorted l.length (a :: l) [] rfl List.Pairwise.nil (by simp)
    rwa [List.append_nil] at h

/-! ### The samples of a round -/

/-- A frame the sniffer looks at, with what the node knew when it came in. -/
structure HeardFrame where
  ts : Timesynch
  channel : Channel
  hdr : Header
  /-- The level the sender had. -/
  sender : UInt8
  timeOfDeparture : UInt16
  timeOfArrival : UInt16

namespace HeardFrame

/-- The frame is a time synchronisation packet. -/
def IsTimesynch (f : HeardFrame) : Prop :=
  f.channel = .timesynch ∧ f.hdr.isPacketFlagSet PacketFlags.timesynch = true

/-- The sniffer takes a sample from the frame. -/
def Accepted (f : HeardFrame) : Prop := f.IsTimesynch ∧ Samples f.ts f.hdr.seqno f.sender

/-- The frame is of a better leader or of a new round. -/
def Restarts (f : HeardFrame) : Prop :=
  f.sender < f.ts.authorityLevel ∨
    f.sender = f.ts.authorityLevel ∧ NewSeqno f.hdr.seqno f.ts.authoritySeqno

instance (f : HeardFrame) : Decidable f.Accepted := by
  unfold Accepted IsTimesynch
  infer_instance

instance (f : HeardFrame) : Decidable f.Restarts := by
  unfold Restarts
  infer_instance

/-- What the frame says the offset should be, at a node with clock `c`. -/
def sample (f : HeardFrame) (c : Clock) : UInt16 :=
  c.offset + f.timeOfDeparture - f.timeOfArrival

/-- The clock after the frame. -/
def hear (f : HeardFrame) (c : Clock) : Clock :=
  c.incomingPacket f.ts f.channel f.hdr f.sender f.timeOfDeparture f.timeOfArrival

/-- A frame that is not accepted leaves the clock alone. -/
theorem hear_of_not_accepted {f : HeardFrame} {c : Clock} (h : ¬ f.Accepted) : f.hear c = c := by
  unfold hear Clock.incomingPacket
  by_cases hch : f.channel = .timesynch
  swap
  · exact if_neg hch
  by_cases hflag : f.hdr.isPacketFlagSet PacketFlags.timesynch = true
  swap
  · rw [if_pos hch, if_neg hflag]
  have hsamples : ¬ Samples f.ts f.hdr.seqno f.sender := fun hs => h ⟨⟨hch, hflag⟩, hs⟩
  obtain ⟨hlt, hlevel⟩ := not_or.mp hsamples
  rw [if_pos hch, if_pos hflag, if_neg hlt]
  by_cases heq : f.sender = f.ts.authorityLevel
  · obtain ⟨hnew, hrep⟩ := not_or.mp fun hcur => hlevel ⟨heq, hcur⟩
    rw [if_pos heq]
    exact (if_neg hnew).trans (if_neg hrep)
  · exact if_neg heq

/-- An accepted frame adjusts the offset, with no other samples when it begins a round. -/
theorem hear_of_accepted {f : HeardFrame} {c : Clock} (h : f.Accepted) :
    f.hear c = (if f.Restarts then c.restart else c).adjustOffset f.timeOfDeparture
      f.timeOfArrival := by
  obtain ⟨⟨hch, hflag⟩, hsamples⟩ := h
  unfold hear Clock.incomingPacket
  rw [if_pos hch, if_pos hflag]
  by_cases hlt : f.sender < f.ts.authorityLevel
  · have hrestarts : f.Restarts := .inl hlt
    rw [if_pos hlt, if_pos hrestarts]
  obtain ⟨heq, hcur⟩ := hsamples.resolve_left hlt
  rw [if_neg hlt, if_pos heq]
  by_cases hnew : NewSeqno f.hdr.seqno f.ts.authoritySeqno
  · have hrestarts : f.Restarts := .inr ⟨heq, hnew⟩
    rw [if_pos hrestarts]
    exact if_pos hnew
  · have hrestarts : ¬ f.Restarts := not_or.mpr ⟨hlt, fun h => hnew h.2⟩
    rw [if_neg hrestarts]
    exact (if_neg hnew).trans (if_pos (hcur.resolve_left hnew))

end HeardFrame

/-- The clock of a node, beside all the samples it was offered since the last restart. -/
structure Gathering where
  clock : Clock
  collected : List UInt16

namespace Gathering

/-- A frame comes in. -/
def step (g : Gathering) (f : HeardFrame) : Gathering where
  clock := f.hear g.clock
  collected :=
    if f.Accepted then (if f.Restarts then [] else g.collected) ++ [f.sample g.clock]
    else g.collected

/-- The clock and the samples after the frames, from the start. -/
def gather (frames : List HeardFrame) : Gathering := frames.foldl step ⟨Clock.init, []⟩

/-- The entries in use are the first samples since the last restart, in order. -/
structure InOrder (g : Gathering) : Prop where
  sorted : g.clock.offsets.Pairwise (· ≤ ·)
  perm : List.Perm g.clock.offsets (g.collected.take maxOffsets)
  length_le : g.clock.offsets.length ≤ maxOffsets

/-- The index in the middle is that of an entry in use, and the offset is this entry. -/
def AtMedian (g : Gathering) : Prop :=
  ∃ h : g.clock.offsets.length / 2 < g.clock.offsets.length,
    g.clock.offset = g.clock.offsets[g.clock.offsets.length / 2]

variable {g : Gathering} {f : HeardFrame}

theorem InOrder.length_eq (h : g.InOrder) :
    g.clock.offsets.length = min maxOffsets g.collected.length := by
  rw [h.perm.length_eq, List.length_take]

/-- A restart leaves no sample. -/
theorem InOrder.restart (h : g.InOrder) (f : HeardFrame) :
    InOrder ⟨if f.Restarts then g.clock.restart else g.clock,
      if f.Restarts then [] else g.collected⟩ := by
  by_cases hr : f.Restarts
  · simp only [if_pos hr]
    exact ⟨List.Pairwise.nil, List.Perm.refl _, Nat.zero_le _⟩
  · simp only [if_neg hr]
    exact h

/-- A sample is put in its place while there is room, and else ignored. -/
theorem InOrder.adjust (h : g.InOrder) (dep arr : UInt16) :
    InOrder ⟨g.clock.adjustOffset dep arr, g.collected ++ [g.clock.offset + dep - arr]⟩ := by
  have hlen := h.length_eq
  show InOrder ⟨{ g.clock.addOffset dep arr with offset := _, samples := _ }, _⟩
  unfold Clock.addOffset
  by_cases hroom : g.clock.offsets.length < maxOffsets
  · -- the entries in use are all the samples so far
    have hall : g.collected.length < maxOffsets := by omega
    have hperm := h.perm
    rw [List.take_of_length_le hall.le] at hperm
    simp only [dif_pos hroom]
    refine ⟨bs_sorted _, (bs_perm _).trans ?_, ?_⟩
    · rw [List.take_of_length_le (by simpa using Nat.succ_le_of_lt hall)]
      exact hperm.append_right _
    · rw [length_bs, List.length_append]
      exact hroom
  · have hfull : maxOffsets ≤ g.collected.length := by omega
    simp only [dif_neg hroom]
    refine ⟨h.sorted, ?_, h.length_le⟩
    show List.Perm g.clock.offsets ((g.collected ++ _).take maxOffsets)
    rw [List.take_append_of_le_length hfull]
    exact h.perm

/-- `adjust_offset` leaves the offset in the middle of the entries in use. -/
theorem atMedian_adjustOffset (c : Clock) (dep arr : UInt16) (l : List UInt16) :
    AtMedian ⟨c.adjustOffset dep arr, l⟩ := by
  have hpos : 0 < (c.addOffset dep arr).offsets.length := by
    unfold Clock.addOffset
    split
    · rw [length_bs, List.length_append]
      exact Nat.succ_pos _
    · next hroom => exact Nat.lt_of_lt_of_le (by decide) (not_lt.mp hroom)
  have hmid := Nat.div_lt_self hpos (by decide : 1 < 2)
  refine ⟨hmid, ?_⟩
  show (c.addOffset dep arr).offsets.getD _ 0 = _
  rw [List.getD_eq_getElem?_getD, List.getElem?_eq_getElem hmid]
  rfl

/-- A frame that is not accepted changes nothing. -/
theorem step_of_not_accepted (h : ¬ f.Accepted) : g.step f = g := by
  simp only [step, HeardFrame.hear_of_not_accepted h, if_neg h]

theorem InOrder.step (h : g.InOrder) (f : HeardFrame) : (g.step f).InOrder := by
  by_cases hacc : f.Accepted
  swap
  · rw [step_of_not_accepted hacc]
    exact h
  -- a restart leaves the offset, so the sample is the same before and after it
  have hoffset : (if f.Restarts then g.clock.restart else g.clock).offset = g.clock.offset := by
    split <;> rfl
  have hadjust := (h.restart f).adjust f.timeOfDeparture f.timeOfArrival
  simp only [hoffset] at hadjust
  unfold Gathering.step HeardFrame.sample
  rw [if_pos hacc, HeardFrame.hear_of_accepted hacc]
  exact hadjust

theorem atMedian_step_of_accepted (h : f.Accepted) : (g.step f).AtMedian := by
  show AtMedian ⟨f.hear g.clock, _⟩
  rw [HeardFrame.hear_of_accepted h]
  exact atMedian_adjustOffset _ _ _ _

theorem gather_append (frames : List HeardFrame) (f : HeardFrame) :
    gather (frames ++ [f]) = (gather frames).step f := by
  rw [gather, List.foldl_append]
  rfl

/-- **The offset is the median of the samples of the round.**  After every sequence of frames
the entries in use are the first samples since the last restart, in order; once a frame was
accepted, the offset is the one in the middle, and before that nothing has changed. -/
theorem gather_median (frames : List HeardFrame) :
    (gather frames).InOrder ∧
      ((∃ f ∈ frames, f.Accepted) → (gather frames).AtMedian) ∧
      ((∀ f ∈ frames, ¬ f.Accepted) → gather frames = ⟨Clock.init, []⟩) := by
  induction frames using List.reverseRecOn with
  | nil => exact ⟨⟨List.Pairwise.nil, List.Perm.refl _, Nat.zero_le _⟩, by simp, fun _ => rfl⟩
  | append_singleton frames f ih =>
    obtain ⟨hsorted, hmedian, hinit⟩ := ih
    rw [gather_append]
    refine ⟨hsorted.step f, fun hsome => ?_, fun hnone => ?_⟩
    · by_cases hacc : f.Accepted
      · exact atMedian_step_of_accepted hacc
      · -- the frame that was accepted is an earlier one
        rw [step_of_not_accepted hacc]
        obtain ⟨f', hmem, hacc'⟩ := hsome
        rcases List.mem_append.mp hmem with hmem | hmem
        · exact hmedian ⟨f', hmem, hacc'⟩
        · exact absurd (List.mem_singleton.mp hmem ▸ hacc') hacc
    · rw [step_of_not_accepted (hnone f (by simp))]
      exact hinit fun f' hmem => hnone f' (List.mem_append_left _ hmem)

/-- A frame of a node that is further from the leader, the first one heard: it is rejected, and
there is no entry in the middle. -/
theorem not_atMedian_rejected : ¬ (gather [⟨⟨true, 0, 5, 0⟩, .timesynch,
    ⟨PacketFlags.timesynch, 1, ⟨7, 0⟩, ⟨5, 0⟩, 0⟩, 7, 100, 200⟩]).AtMedian := by
  rintro ⟨h, -⟩
  exact absurd h (by decide)

end Gathering

end EmergencyNet
