import EmergencyNet.Timesynch.Leader
import EmergencyNet.Timesynch.Median

/-!
# Clocks that agree

The radio stamps a frame with the level of its sender and with the synchronised time at which it
leaves, and puts down the synchronised time at which it arrives.  A sample of the two is how far
the hardware clock of the receiver is from the synchronised time of the sender, up to the error of
the stamps.  The median is one of the samples.  So a node that follows a leader has the time of
some node that followed it before, up to that error, and the times of all of them go back to the
time of the leader when it led first.

The radio keeps one time of arrival, that of the interrupt that announced the first unread frame,
by the offset the node had then.  A frame that is read after it has none, and goes with the times
of the frame before it and the level of the receiver itself.

## Main definitions

* `Near` — two times are at most so many ticks apart.
* `Stamp`, `SynchNet` — what the radio adds to a frame; a network with hardware clocks.
* `SynchNet.heardFrame` — a frame as the radio hands it to the sniffer.
* `SynchNet.machine` — its runs: the sniffer looks at a frame before the connection does.
* `SynchNet.Undisturbed` — no follower times out, no update is stale, and the frames have interrupts
  of their own, since which the offset is the same.
* `SynchNet.Agrees` — the invariant of a run.

## Main results

* `Clock.mem_offsets_hear`, `Clock.offset_mem_hear` — **the offset is one of the samples.**
* `SynchNet.near_of_reachable` — **the nodes that follow the least address have the same time**, up
  to the errors of the stamps of the frames received so far.
-/

namespace EmergencyNet

/-! ### Times that are close -/

/-- `x` and `y` are at most `k` ticks apart. -/
def Near (k : ℕ) (x y : UInt16) : Prop := ∃ d : ℤ, d.natAbs ≤ k ∧ x = y + UInt16.ofInt d

namespace Near

variable {k m : ℕ} {x y z : UInt16}

theorem refl (x : UInt16) : Near k x x := by
  refine ⟨0, Nat.zero_le k, ?_⟩
  rw [show UInt16.ofInt 0 = 0 from rfl, UInt16.add_zero]

theorem eq (h : Near 0 x y) : x = y := by
  obtain ⟨d, hd, rfl⟩ := h
  have hzero : d = 0 := by omega
  rw [hzero, show UInt16.ofInt 0 = 0 from rfl, UInt16.add_zero]

theorem mono (h : Near k x y) (hle : k ≤ m) : Near m x y := by
  obtain ⟨d, hd, heq⟩ := h
  exact ⟨d, hd.trans hle, heq⟩

theorem symm (h : Near k x y) : Near k y x := by
  obtain ⟨d, hd, rfl⟩ := h
  refine ⟨-d, by omega, ?_⟩
  rw [UInt16.ofInt_neg]
  grind

theorem trans (h : Near k x y) (h' : Near m y z) : Near (k + m) x z := by
  obtain ⟨d, hd, rfl⟩ := h
  obtain ⟨d', hd', rfl⟩ := h'
  refine ⟨d' + d, by omega, ?_⟩
  rw [UInt16.ofInt_add]
  grind

theorem add_left (h : Near k x y) (t : UInt16) : Near k (t + x) (t + y) := by
  obtain ⟨d, hd, rfl⟩ := h
  exact ⟨d, hd, by grind⟩

end Near

/-! ### The offset is one of the samples -/

namespace Clock

variable {f : HeardFrame} {c : Clock} {o : UInt16}

/-- A sample joins the others, or finds no room. -/
theorem mem_offsets_adjustOffset {dep arr : UInt16} (h : o ∈ (c.adjustOffset dep arr).offsets) :
    o ∈ c.offsets ∨ o = c.offset + dep - arr := by
  change o ∈ (c.addOffset dep arr).offsets at h
  unfold addOffset at h
  split at h
  · have hmem := (bs_perm _).mem_iff.mp h
    rcases List.mem_append.mp hmem with hmem | hmem
    · exact .inl hmem
    · exact .inr (List.mem_singleton.mp hmem)
  · exact .inl h

theorem offset_mem_adjustOffset (c : Clock) (dep arr : UInt16) :
    (c.adjustOffset dep arr).offset ∈ (c.adjustOffset dep arr).offsets := by
  obtain ⟨hmid, heq⟩ := Gathering.atMedian_adjustOffset c dep arr []
  simp only at hmid heq
  rw [heq]
  exact List.getElem_mem hmid

/-- **After a frame `offsets` holds entries it held before, and the new sample**; only the sample
when the frame begins a round. -/
theorem mem_offsets_hear (h : o ∈ (f.hear c).offsets) :
    (¬ f.Restarts ∨ ¬ f.Accepted) ∧ o ∈ c.offsets ∨ f.Accepted ∧ o = f.sample c := by
  by_cases hacc : f.Accepted
  swap
  · rw [HeardFrame.hear_of_not_accepted hacc] at h
    exact .inl ⟨.inr hacc, h⟩
  rw [HeardFrame.hear_of_accepted hacc] at h
  by_cases hre : f.Restarts
  · rw [if_pos hre] at h
    rcases mem_offsets_adjustOffset h with hmem | heq
    · cases hmem
    · exact .inr ⟨hacc, heq⟩
  · rw [if_neg hre] at h
    rcases mem_offsets_adjustOffset h with hmem | heq
    · exact .inl ⟨.inl hre, hmem⟩
    · exact .inr ⟨hacc, heq⟩

/-- **After a frame the offset is an entry of `offsets`**, or nothing has changed. -/
theorem offset_mem_hear (f : HeardFrame) (c : Clock) :
    f.Accepted ∧ (f.hear c).offset ∈ (f.hear c).offsets ∨ ¬ f.Accepted ∧ f.hear c = c := by
  by_cases hacc : f.Accepted
  · rw [HeardFrame.hear_of_accepted hacc]
    exact .inl ⟨hacc, offset_mem_adjustOffset _ _ _⟩
  · exact .inr ⟨hacc, HeardFrame.hear_of_not_accepted hacc⟩

/-- A node without samples has the new one only after a frame, and goes by it. -/
theorem eq_offset_of_mem_hear (hnil : c.offsets = []) (ho : o ∈ (f.hear c).offsets) :
    o = (f.hear c).offset := by
  have honly : ∀ o ∈ (f.hear c).offsets, o = f.sample c := by
    intro o ho
    rcases mem_offsets_hear ho with ⟨-, hmem⟩ | ⟨-, heq⟩
    · rw [hnil] at hmem
      cases hmem
    · exact heq
  rcases offset_mem_hear f c with ⟨-, hmem⟩ | ⟨-, heq⟩
  · rw [honly o ho, honly _ hmem]
  · rw [heq, hnil] at ho
    cases ho

end Clock

/-! ### The network -/

/-- What the radio puts behind a frame: the level of the sender, and the offset it has then, by
which the time of departure is told. -/
structure Stamp where
  level : UInt8
  offset : UInt16
  deriving DecidableEq

/-- A network of nodes with hardware clocks: at time `t` that of node `v` shows `t + phase v`.  A
stamp is wrong by at most `error` ticks. -/
structure SynchNet (ι σ ε : Type*) extends TimesynchNet ι σ ε where
  phase : ι → UInt16
  error : ℕ

/-- The times the radio has put down last: `cc2420_time_of_departure` and
`cc2420_time_of_arrival`. -/
structure Times where
  departure : UInt16
  arrival : UInt16

/-- The events of the network. -/
inductive SynchEvent (ι σ : Type*)
  /-- Anything but the reception of a frame. -/
  | own (e : TsEvent ι σ)
  /-- Node `v` receives a frame of `u` at time `t`.  If it has an interrupt of its own, that comes
  `j` ticks late, and finds the offset `interrupt`. -/
  | hears (u v : ι) (f : Frame) (stale : List UInt8) (stamp : Stamp) (t : UInt16) (j : ℤ)
      (interrupt : Option UInt16)
  /-- The radio of node `v` reads another frame, and puts its times down. -/
  | other (v : ι) (times : Times)

variable {ι σ ε : Type*}

namespace SynchNet

/-- The nodes, their clocks and radios, the frames each has sent with their stamps, and the number
of frames received. -/
structure State (ι σ : Type*) where
  nodes : TimesynchNet.State ι σ
  clocks : ι → Clock
  radios : ι → Times
  stamped : ι → List (Frame × Stamp)
  heard : ℕ

variable (net : SynchNet ι σ ε)

/-- The synchronised time of node `v` at time `t`: `timesynch_time`. -/
def time (N : State ι σ) (v : ι) (t : UInt16) : UInt16 :=
  t + (net.phase v + (N.clocks v).offset)

/-- What `cc2420_read` puts down: the times of the frame, or those it has put down before when the
interrupt time has been used up. -/
def timesRead (N : State ι σ) (u v : ι) (stamp : Stamp) (t : UInt16) (j : ℤ)
    (interrupt : Option UInt16) : Times :=
  match interrupt with
  | some o => ⟨t + (net.phase u + stamp.offset), t + (net.phase v + o) + UInt16.ofInt j⟩
  | none => N.radios v

/-- The frame, as `cc2420_read` hands it to the sniffer of node `v`: without an interrupt time of
its own it goes with the level of the node itself. -/
def heardFrame (N : State ι σ) (u v : ι) (f : Frame) (stamp : Stamp) (t : UInt16) (j : ℤ)
    (interrupt : Option UInt16) : HeardFrame where
  ts := (N.nodes.nodes v).conn.ts
  channel := .timesynch
  hdr := f.hdr
  sender := if interrupt.isSome then stamp.level else (N.nodes.nodes v).conn.ts.authorityLevel
  timeOfDeparture := (net.timesRead N u v stamp t j interrupt).departure
  timeOfArrival := (net.timesRead N u v stamp t j interrupt).arrival

/-- The network after the nodes have come to `nodes` and the clocks to `clocks`: what has been sent
is stamped. -/
def State.after (N : State ι σ) (nodes : TimesynchNet.State ι σ) (clocks : ι → Clock) (heard : ℕ) :
    State ι σ where
  nodes := nodes
  clocks := clocks
  radios := N.radios
  stamped u := N.stamped u ++ (TimesynchNet.sent (N.nodes.nodes u) (nodes.nodes u)).map
    (·, ⟨(nodes.nodes u).conn.ts.authorityLevel, (clocks u).offset⟩)
  heard := heard

section Machine

variable [DecidableEq ι]

/-- The network after the radio of node `v` has put times down. -/
def State.reads (N : State ι σ) (v : ι) (times : Times) : State ι σ :=
  { N with radios := Function.update N.radios v times }

/-- The network as a transition system: at the start all nodes have just switched time
synchronisation on, and have taken no sample. -/
def machine : Machine (State ι σ) (SynchEvent ι σ) where
  init N := net.toTimesynchNet.machine.init N.nodes ∧ (∀ v, (N.clocks v).offsets = []) ∧
    ∀ v, N.stamped v = []
  step
    | .own e, N, N' => (∀ u v f stale, e ≠ .hears u v f stale) ∧
        ∃ nodes, net.toTimesynchNet.machine.step e N.nodes nodes ∧
          N' = N.after nodes N.clocks N.heard
    | .hears u v f stale stamp t j interrupt, N, N' =>
        (f, stamp) ∈ N.stamped u ∧ j.natAbs ≤ net.error ∧
        ∃ nodes, net.toTimesynchNet.machine.step (.hears u v f stale) N.nodes nodes ∧
          N' = (N.after nodes (Function.update N.clocks v
            ((net.heardFrame N u v f stamp t j interrupt).hear (N.clocks v))) (N.heard + 1)).reads
              v (net.timesRead N u v stamp t j interrupt)
    | .other v times, N, N' => N' = N.reads v times

/-- No follower times out, no update is stale, and a frame that is received has an interrupt of
its own, since which the node has kept its offset. -/
def Undisturbed (N : State ι σ) : SynchEvent ι σ → Prop
  | .own e => net.toTimesynchNet.Timely N.nodes e
  | .hears _ v _ _ _ _ _ interrupt => interrupt = some (N.clocks v).offset
  | .other _ _ => True

end Machine

/-- The level of node `v`. -/
def State.level (N : State ι σ) (v : ι) : ℕ := (N.nodes.nodes v).conn.level

/-- Node `v` follows node `l`, or is node `l` and leads. -/
def Follows (N : State ι σ) (l v : ι) : Prop := N.level v = (net.addr l).authority

/-! ### The invariant -/

/-- How far apart times may be. -/
def drift (N : State ι σ) : ℕ := N.heard * net.error

/-- The times of node `v` with the entries of `offsets`, and with the offset, are near `base`. -/
structure Keeps (base : UInt16) (k : ℕ) (v : ι) (c : Clock) : Prop where
  offset : Near k (net.phase v + c.offset) base
  offsets : ∀ o ∈ c.offsets, Near k (net.phase v + o) base

/-- Who follows node `l`, and what was sent on its level, has the time `base`. -/
structure Tracks (l : ι) (N : State ι σ) (base : UInt16) : Prop where
  keeps : ∀ v, net.Follows N l v → net.Keeps base (net.drift N) v (N.clocks v)
  stamped : ∀ v, ∀ p ∈ N.stamped v, p.2.level.toNat = (net.addr l).authority →
    Near (net.drift N) (net.phase v + p.2.offset) base

/-- The invariant of a run, for the node `l` with the least address. -/
structure Agrees [DecidableEq ι] (l : ι) (N : State ι σ) : Prop where
  elects : TimesynchNet.Elects net.toTimesynchNet N.nodes
  /-- Packets are queued and sent on the level of their originator, or below. -/
  queued : ∀ v, ∀ hdr ∈ (N.nodes.nodes v).conn.tsQueue, N.level v ≤ hdr.originator.authority
  stamped : ∀ v, ∀ p ∈ N.stamped v, p.2.level.toNat ≤ p.1.hdr.originator.authority ∧
    p.1.hdr.originator ∈ Set.range net.addr ∧ (net.addr l).authority ≤ p.2.level.toNat
  /-- Nobody follows `l` before it leads, and before that it takes no sample. -/
  led : ∀ v, net.Follows N l v → net.Follows N l l
  ledStamped : ∀ v, ∀ p ∈ N.stamped v, p.2.level.toNat = (net.addr l).authority → net.Follows N l l
  fresh : ¬ net.Follows N l l → (N.clocks l).offsets = []
  tracks : ∃ base, net.Tracks l N base

variable {net} {N N' : State ι σ} {l u v w : ι} {base : UInt16} {k m : ℕ}

/-- The least address. -/
theorem level_ge [DecidableEq ι] (hl : ∀ v, v ≠ l → (net.addr l).authority < (net.addr v).authority)
    (h : TimesynchNet.Elects net.toTimesynchNet N.nodes) (v : ι) :
    (net.addr l).authority ≤ N.level v := by
  rcases h.level v with htop | ⟨w, hw⟩
  · rw [State.level, htop]
    exact (net.addr_lt l).le
  · rw [State.level, hw]
    by_cases heq : w = l
    · rw [heq]
    · exact (hl w heq).le

/-- A sample is the time of the sender, up to the error of the stamps. -/
theorem near_sample {f : Frame} {stamp : Stamp} {t : UInt16} {j : ℤ} (hj : j.natAbs ≤ net.error) :
    Near net.error (net.phase v + (net.heardFrame N u v f stamp t j
      (some (N.clocks v).offset)).sample (N.clocks v)) (net.phase u + stamp.offset) := by
  refine ⟨-j, by omega, ?_⟩
  rw [UInt16.ofInt_neg]
  simp only [HeardFrame.sample, heardFrame, timesRead]
  grind

/-- A frame keeps the time, if what the sniffer samples is near it. -/
theorem Keeps.hear {f : HeardFrame} {c : Clock} (hle : k ≤ m)
    (hold : f.Accepted ∧ f.Restarts ∨ net.Keeps base k v c)
    (hnew : f.Accepted → Near m (net.phase v + f.sample c) base) :
    net.Keeps base m v (f.hear c) := by
  have hoffsets : ∀ o ∈ (f.hear c).offsets, Near m (net.phase v + o) base := by
    intro o ho
    rcases Clock.mem_offsets_hear ho with ⟨hnot, hmem⟩ | ⟨hacc, rfl⟩
    · rcases hold with ⟨hacc, hre⟩ | hkeeps
      · rcases hnot with hnot | hnot
        · exact absurd hre hnot
        · exact absurd hacc hnot
      · exact (hkeeps.offsets o hmem).mono hle
    · exact hnew hacc
  refine ⟨?_, hoffsets⟩
  rcases Clock.offset_mem_hear f c with ⟨-, hmem⟩ | ⟨hnot, heq⟩
  · exact hoffsets _ hmem
  · rw [heq]
    rcases hold with ⟨hacc, -⟩ | hkeeps
    · exact absurd hacc hnot
    · exact hkeeps.offset.mono hle

/-- **A frame of a node that has the time `base` keeps it**, at a node that follows the least
address or begins to follow it with that frame. -/
theorem Tracks.hear {f : Frame} {stamp : Stamp} {t : UInt16} {j : ℤ} (h : net.Tracks l N base)
    (hmem : (f, stamp) ∈ N.stamped u) (hj : j.natAbs ≤ net.error)
    (hflag : f.hdr.isPacketFlagSet PacketFlags.timesynch = true)
    (hleast : (net.addr l).authority ≤ stamp.level.toNat)
    (hv : net.Follows N l v ∨
      stamp.level.toNat = (net.addr l).authority ∧ (net.addr l).authority < N.level v) :
    net.Keeps base ((N.heard + 1) * net.error) v
      ((net.heardFrame N u v f stamp t j (some (N.clocks v).offset)).hear (N.clocks v)) := by
  have hdrift : (N.heard + 1) * net.error = net.drift N + net.error := Nat.succ_mul _ _
  have hsample : stamp.level.toNat = (net.addr l).authority → Near (net.drift N + net.error)
      (net.phase v + (net.heardFrame N u v f stamp t j
        (some (N.clocks v).offset)).sample (N.clocks v)) base := by
    intro hs
    rw [Nat.add_comm]
    exact (near_sample hj).trans (h.stamped u _ hmem hs)
  rw [hdrift]
  rcases hv with hv | ⟨hs, hlt⟩
  · -- the sniffer takes a sample from frames of the same level only
    refine Keeps.hear (Nat.le_add_right _ _) (.inr (h.keeps v hv)) fun hacc => hsample ?_
    have hle : stamp.level ≤ (N.nodes.nodes v).conn.ts.authorityLevel := by
      rcases hacc.2 with hlt | ⟨heq, -⟩
      · exact UInt8.le_of_lt hlt
      · exact UInt8.le_of_eq heq
    have hle : stamp.level.toNat ≤ (net.addr l).authority :=
      (UInt8.le_iff_toNat_le.mp hle).trans (Nat.le_of_eq hv)
    exact le_antisymm hle hleast
  · -- the frame is the first of a better leader
    have hre : stamp.level < (N.nodes.nodes v).conn.ts.authorityLevel :=
      UInt8.lt_iff_toNat_lt.mpr (hs ▸ hlt)
    exact Keeps.hear (Nat.le_add_right _ _) (.inl ⟨⟨⟨rfl, hflag⟩, .inl hre⟩, .inl hre⟩)
      fun _ => hsample hs

end SynchNet

/-! ### A step -/

/-- `timesynch_recv` asserts the flag of a time synchronisation packet. -/
theorem EcNode.flag_of_timesynchRecv {cb : EcCallbacks σ} {s s' : EcNode σ} {pb : Packetbuf}
    (h : s.timesynchRecv cb pb = .ok s') (hon : s.conn.ts.isOn = true) :
    pb.p.hdr.isPacketFlagSet PacketFlags.timesynch = true := by
  by_contra hflag
  unfold timesynchRecv at h
  simp only at h
  rw [if_pos hon, if_neg hflag] at h
  cases h

namespace TimesynchNet

variable [DecidableEq ι] {net : TimesynchNet ι σ ε} {N N' : State ι σ} {s s' : EcNode σ} {v w : ι}

/-- Who does nothing sends nothing. -/
theorem sent_self : sent s s = [] := sent_eq (l := []) rfl

/-- What an event other than a reception does to the node it is an event of. -/
theorem own_change {e : TsEvent ι σ} (h : Elects net N) (hok : net.Timely N e)
    (hne : ∀ u v f stale, e ≠ .hears u v f stale) (hstep : net.machine.step e N N') :
    ∃ v s', N' = N.after v s' ∧ TsChange (· = net.addr v) (N.nodes v).conn s'.conn := by
  obtain ⟨s', hnode, hN'⟩ := hstep
  cases e with
  | call v =>
    exact ⟨v, s', hN', (EcNode.ecTimesynchNetwork_change hnode (net.addr_app v _) (net.addr_lt v)
      (h.nodes v)).1⟩
  | expire v t =>
    obtain ⟨ht, -, hrun⟩ := hnode
    refine ⟨v, s', hN', ?_⟩
    rw [← Except.ok.inj hrun]
    exact (EcNode.expire_change (s := N.nodes v) ht (fun heq => by subst heq; exact hok.1)
      (h.nodes v)).1
  | timer v t radio =>
    obtain ⟨ht, -, hrun⟩ := hnode
    exact ⟨v, s', hN', (EcNode.timer_change hrun ht (net.addr_app v _) (net.addr_lt v)
      (fun heq => by subst heq; exact hok.2) (h.nodes v)).1⟩
  | hears u v f stale => exact absurd rfl (hne u v f stale)
  | rest v s =>
    obtain ⟨hsame, rfl⟩ := hnode
    obtain ⟨l, htrace, hsent, -⟩ := hsame.trace
    have hlevel : s'.conn.level = (N.nodes v).conn.level :=
      congrArg (fun ts => ts.authorityLevel.toNat) hsame.ts
    exact ⟨v, s', hN', .keeps hlevel hsame.queue htrace hsent⟩

/-- What the reception of a frame does to the receiver: the frame is one of the time
synchronisation. -/
theorem hears_change {u : ι} {f : Frame} {stale : List UInt8} (h : Elects net N)
    (ho : f.hdr.originator ∈ Set.range net.addr)
    (hstep : net.machine.step (.hears u v f stale) N N') :
    ∃ s', N' = (N.received u v f).after v s' ∧
      TsChange (fun o => o = net.addr v ∨ o = f.hdr.originator) (N.nodes v).conn s'.conn ∧
      s'.conn.level ≤ f.hdr.originator.authority ∧
      f.hdr.isPacketFlagSet PacketFlags.timesynch = true := by
  obtain ⟨s', hnode, -, -, hN'⟩ := hstep
  obtain ⟨x, hx⟩ := ho
  obtain ⟨hchange, -, hle⟩ := EcNode.timesynchRecv_change hnode (net.addr_app v _)
    (net.addr_lt v) (hx ▸ net.addr_lt x : f.hdr.originator.authority < noAuthority) (h.nodes v)
  exact ⟨s', hN', hchange, hle, EcNode.flag_of_timesynchRecv hnode (h.nodes v).isOn⟩

end TimesynchNet

namespace SynchNet

variable [DecidableEq ι] {net : SynchNet ι σ ε} {N N' : State ι σ} {l u v w : ι} {base : UInt16}

/-- A step of node `v` leaves the others, and their clocks, as they are. -/
structure StepOf (N : State ι σ) (v : ι) (src : Rimeaddr → Prop) (nodes : TimesynchNet.State ι σ)
    (clocks : ι → Clock) : Prop where
  nodes_of_ne : ∀ w, w ≠ v → nodes.nodes w = N.nodes.nodes w
  clocks_of_ne : ∀ w, w ≠ v → clocks w = N.clocks w
  change : TsChange src (N.nodes.nodes v).conn (nodes.nodes v).conn

section Step

variable {src : Rimeaddr → Prop} {nodes : TimesynchNet.State ι σ} {clocks : ι → Clock} {k : ℕ}

theorem StepOf.level_le (h : StepOf N v src nodes clocks) (w : ι) :
    (N.after nodes clocks k).level w ≤ N.level w := by
  by_cases hw : w = v
  · subst hw
    exact h.change.level_le
  · exact (congrArg (fun s => s.conn.level) (h.nodes_of_ne w hw)).le

/-- Frames are stamped with the level of the node that sends them, and its offset. -/
theorem StepOf.mem_stamped (h : StepOf N v src nodes clocks) {p : Frame × Stamp}
    (hmem : p ∈ (N.after nodes clocks k).stamped w) : p ∈ N.stamped w ∨ w = v ∧
      p.1 ∈ TimesynchNet.sent (N.nodes.nodes v) (nodes.nodes v) ∧
      p.2.level.toNat = (N.after nodes clocks k).level v ∧ p.2.offset = (clocks v).offset := by
  rcases List.mem_append.mp hmem with hmem | hmem
  · exact .inl hmem
  obtain ⟨f, hf, rfl⟩ := List.mem_map.mp hmem
  by_cases hw : w = v
  · subst hw
    exact .inr ⟨rfl, hf, rfl, rfl⟩
  · rw [h.nodes_of_ne w hw, TimesynchNet.sent_self] at hf
    cases hf

/-- The queue holds no packet of an originator that is worse than what the node follows. -/
theorem StepOf.queued (h : StepOf N v src nodes clocks)
    (hqueued : ∀ v, ∀ hdr ∈ (N.nodes.nodes v).conn.tsQueue, N.level v ≤ hdr.originator.authority) :
    ∀ w, ∀ hdr ∈ (nodes.nodes w).conn.tsQueue,
      (N.after nodes clocks k).level w ≤ hdr.originator.authority := by
  intro w hdr hmem
  by_cases hw : w = v
  swap
  · rw [h.nodes_of_ne w hw] at hmem
    exact (h.level_le w).trans (hqueued w hdr hmem)
  subst hw
  cases h.change with
  | keeps _ hqueue _ _ => exact (h.level_le w).trans (hqueued w hdr (hqueue ▸ hmem))
  | takes hdr' hlevel _ _ hqueue _ _ =>
    rw [hqueue] at hmem
    rcases List.mem_append.mp hmem with hmem | hmem
    · exact (h.level_le w).trans (hqueued w hdr hmem)
    · rw [List.mem_singleton.mp hmem]
      exact hlevel.le
  | sends f _ hqueue _ _ =>
    exact (h.level_le w).trans (hqueued w hdr (hqueue ▸ List.mem_cons_of_mem _ hmem))

/-- Who follows the least address goes on with it. -/
theorem StepOf.follows (h : StepOf N v src nodes clocks) (hge : (net.addr l).authority ≤
    (N.after nodes clocks k).level w) (hw : net.Follows N l w) :
    net.Follows (N.after nodes clocks k) l w :=
  le_antisymm ((h.level_le w).trans (Nat.le_of_eq hw)) hge

/-- Who begins to follow it is the node that takes the step. -/
theorem StepOf.eq_of_follows (h : StepOf N v src nodes clocks)
    (hw : net.Follows (N.after nodes clocks k) l w) (hnot : ¬ net.Follows N l w) : w = v := by
  by_contra hne
  refine hnot (Eq.trans ?_ hw)
  exact (congrArg (fun s => s.conn.level) (h.nodes_of_ne w hne)).symm

/-- **A step keeps the invariant**, if the node that takes it begins to follow the least address
only when that one leads or by leading itself, and keeps the time, or takes the first sample. -/
theorem Agrees.after (h : net.Agrees l N)
    (hl : ∀ v, v ≠ l → (net.addr l).authority < (net.addr v).authority)
    (hstep : StepOf N v src nodes clocks) (hk : N.heard ≤ k)
    (hel : TimesynchNet.Elects net.toTimesynchNet nodes)
    (hfirst : net.Follows (N.after nodes clocks k) l v → ¬ net.Follows N l l → v = l)
    (hfresh : ¬ net.Follows N l l → ∀ o ∈ (clocks l).offsets, o = (clocks l).offset)
    (hunled : ¬ net.Follows (N.after nodes clocks k) l l → (clocks l).offsets = [])
    (hkeeps : ∀ base, net.Tracks l N base → net.Follows N l l →
      net.Follows (N.after nodes clocks k) l v → net.Keeps base (k * net.error) v (clocks v)) :
    net.Agrees l (N.after nodes clocks k) := by
  have hge : ∀ w, (net.addr l).authority ≤ (N.after nodes clocks k).level w :=
    level_ge (N := N.after nodes clocks k) hl hel
  have hstays : ∀ w, net.Follows N l w → net.Follows (N.after nodes clocks k) l w :=
    fun w => hstep.follows (hge w)
  have hled : ∀ w, net.Follows (N.after nodes clocks k) l w →
      net.Follows (N.after nodes clocks k) l l := by
    intro w hw
    by_cases hold : net.Follows N l l
    · exact hstays l hold
    have hwv : w = v := hstep.eq_of_follows hw fun hw => hold (h.led w hw)
    subst hwv
    have hwl : w = l := hfirst hw hold
    exact hwl ▸ hw
  have hsent : ∀ f ∈ TimesynchNet.sent (N.nodes.nodes v) (nodes.nodes v),
      N.level v ≤ f.hdr.originator.authority ∧ f.hdr.originator ∈ Set.range net.addr :=
    TimesynchNet.sent_origin (P := fun o => N.level v ≤ o.authority ∧ o ∈ Set.range net.addr)
      hstep.change fun hdr hmem => ⟨h.queued v hdr hmem, h.elects.queued v hdr hmem⟩
  have hdrift : net.drift N ≤ k * net.error := Nat.mul_le_mul_right _ hk
  refine ⟨hel, hstep.queued h.queued, fun w p hmem => ?_, hled, fun w p hmem hp => ?_, hunled, ?_⟩
  · rcases hstep.mem_stamped hmem with hmem | ⟨-, hmem, hlevel, -⟩
    · exact h.stamped w p hmem
    · obtain ⟨hle, hrange⟩ := hsent p.1 hmem
      rw [hlevel]
      exact ⟨(hstep.level_le v).trans hle, hrange, hge v⟩
  · rcases hstep.mem_stamped hmem with hmem | ⟨-, -, hlevel, -⟩
    · exact hstays l (h.ledStamped w p hmem hp)
    · exact hled v (hlevel.symm.trans hp)
  · -- the new stamps are near, for the node that takes the step keeps the time
    have htracks : ∀ base, (∀ w, net.Follows (N.after nodes clocks k) l w →
        net.Keeps base (k * net.error) w (clocks w)) → (∀ w, ∀ p ∈ N.stamped w,
          p.2.level.toNat = (net.addr l).authority →
            Near (k * net.error) (net.phase w + p.2.offset) base) →
        net.Tracks l (N.after nodes clocks k) base := by
      intro base hall hold
      refine ⟨hall, fun w p hmem hp => ?_⟩
      rcases hstep.mem_stamped hmem with hmem | ⟨rfl, -, hlevel, hoffset⟩
      · exact hold w p hmem hp
      · rw [hoffset]
        exact (hall w (hlevel.symm.trans hp)).offset
    by_cases hold : net.Follows N l l
    · obtain ⟨base, hbase⟩ := h.tracks
      refine ⟨base, htracks base (fun w hw => ?_) fun w p hmem hp =>
        (hbase.stamped w p hmem hp).mono hdrift⟩
      by_cases hwv : w = v
      · subst hwv
        exact hkeeps base hbase hold hw
      · have hwN : net.Follows N l w := by
          by_contra hnot
          exact hwv (hstep.eq_of_follows hw hnot)
        rw [hstep.clocks_of_ne w hwv]
        exact ⟨(hbase.keeps w hwN).offset.mono hdrift,
          fun o ho => ((hbase.keeps w hwN).offsets o ho).mono hdrift⟩
    · -- nobody has followed it: its own time is the first one
      refine ⟨net.phase l + (clocks l).offset, htracks _ (fun w hw => ?_) fun w p hmem hp =>
        absurd (h.ledStamped w p hmem hp) hold⟩
      have hwv : w = v := hstep.eq_of_follows hw fun hw => hold (h.led w hw)
      subst hwv
      have hwl : w = l := hfirst hw hold
      subst hwl
      refine ⟨Near.refl _, fun o ho => ?_⟩
      rw [hfresh hold o ho]
      exact Near.refl _

end Step

theorem Agrees.init (h : net.machine.init N) : net.Agrees l N := by
  obtain ⟨hinit, hoffsets, hstamped⟩ := h
  have hnone : ∀ v, ¬ net.Follows N l v := by
    intro v hv
    have htop : N.level v = noAuthority := by
      rw [State.level, Ec.level, (hinit.1 v).ts]
      rfl
    exact absurd (hv.symm.trans htop) (net.addr_lt l).ne
  have hno : ∀ v p, p ∉ N.stamped v := by
    intro v p
    rw [hstamped v]
    exact List.not_mem_nil
  refine ⟨.init hinit, fun v hdr hmem => ?_, fun v p hmem => absurd hmem (hno v p),
    fun v hv => absurd hv (hnone v), fun v p hmem => absurd hmem (hno v p),
    fun _ => hoffsets l, 0, fun v hv => absurd hv (hnone v), fun v p hmem => absurd hmem (hno v p)⟩
  rw [(hinit.1 v).queue] at hmem
  cases hmem

/-- A step that is not the reception of a frame. -/
theorem Agrees.own {e : TsEvent ι σ} {nodes : TimesynchNet.State ι σ} (h : net.Agrees l N)
    (hl : ∀ v, v ≠ l → (net.addr l).authority < (net.addr v).authority)
    (hok : net.toTimesynchNet.Timely N.nodes e) (hne : ∀ u v f stale, e ≠ .hears u v f stale)
    (hstep : net.toTimesynchNet.machine.step e N.nodes nodes) :
    net.Agrees l (N.after nodes N.clocks N.heard) := by
  have hel := (h.elects.step hok hstep).1
  obtain ⟨v, s', rfl, hchange⟩ := TimesynchNet.own_change h.elects hok hne hstep
  have hself : (N.nodes.after v s').nodes v = s' := TimesynchNet.after_nodes_self
  have hstepOf : StepOf N v (· = net.addr v) (N.nodes.after v s') N.clocks :=
    ⟨fun w hw => TimesynchNet.after_nodes_of_ne hw, fun _ _ => rfl, hself.symm ▸ hchange⟩
  -- a node that begins to follow the least address has led
  have hown : net.Follows (N.after (N.nodes.after v s') N.clocks N.heard) l v →
      ¬ net.Follows N l v → v = l := by
    intro hv hnot
    have hlevel : s'.conn.level = (net.addr l).authority := hself ▸ hv
    rcases TimesynchNet.level_origin hchange with heq | ⟨o, rfl, heq⟩
    · exact absurd (heq.symm.trans hlevel) hnot
    · by_contra hvl
      exact absurd (hlevel.symm.trans heq) (hl v hvl).ne
  refine h.after hl hstepOf le_rfl hel (fun hv hnot => hown hv fun hv => hnot (h.led v hv))
    (fun hnot o ho => ?_) (fun hnot => h.fresh fun hll => ?_) fun base hbase hll hv => ?_
  · rw [h.fresh hnot] at ho
    cases ho
  · exact hnot (hstepOf.follows (level_ge (N := N.after _ _ N.heard) hl hel l) hll)
  · have hvN : net.Follows N l v := by
      by_contra hnot
      exact hnot (hown hv hnot ▸ hll)
    exact hbase.keeps v hvN

/-- What the radio puts down changes nothing else. -/
theorem Agrees.reads {times : Times} (h : net.Agrees l N) : net.Agrees l (N.reads v times) := by
  obtain ⟨base, hbase⟩ := h.tracks
  exact ⟨h.elects, h.queued, h.stamped, h.led, h.ledStamped, h.fresh,
    base, hbase.keeps, hbase.stamped⟩

/-- The reception of a frame behind whose interrupt the node has kept its offset. -/
theorem Agrees.hears {f : Frame} {stale : List UInt8} {stamp : Stamp} {t : UInt16} {j : ℤ}
    {nodes : TimesynchNet.State ι σ} (h : net.Agrees l N)
    (hl : ∀ v, v ≠ l → (net.addr l).authority < (net.addr v).authority)
    (hmem : (f, stamp) ∈ N.stamped u) (hj : j.natAbs ≤ net.error)
    (hstep : net.toTimesynchNet.machine.step (.hears u v f stale) N.nodes nodes) :
    net.Agrees l (N.after nodes (Function.update N.clocks v
      ((net.heardFrame N u v f stamp t j (some (N.clocks v).offset)).hear (N.clocks v)))
        (N.heard + 1)) := by
  have hel := (h.elects.step (e := .hears u v f stale) ⟨trivial, trivial⟩ hstep).1
  obtain ⟨hstamp, hrange, hleast⟩ := h.stamped u _ hmem
  obtain ⟨s', rfl, hchange, hle, hflag⟩ := TimesynchNet.hears_change h.elects hrange hstep
  set hf := net.heardFrame N u v f stamp t j (some (N.clocks v).offset)
  set clocks := Function.update N.clocks v (hf.hear (N.clocks v))
  set nodes := (N.nodes.received u v f).after v s'
  have hself : nodes.nodes v = s' := TimesynchNet.after_nodes_self
  have hclock : clocks v = hf.hear (N.clocks v) := Function.update_self ..
  have hclockOf : ∀ w, w ≠ v → clocks w = N.clocks w := fun w hw => Function.update_of_ne hw ..
  have hstepOf : StepOf N v (fun o => o = net.addr v ∨ o = f.hdr.originator) nodes clocks :=
    ⟨fun w hw => TimesynchNet.after_nodes_of_ne hw, hclockOf, hself ▸ hchange⟩
  have hlevelGe : ∀ w, (net.addr l).authority ≤ (N.after nodes clocks (N.heard + 1)).level w :=
    level_ge (N := N.after nodes clocks (N.heard + 1)) hl hel
  -- a node that begins to follow the least address leads, or the frame is stamped with its level
  have hadopts : net.Follows (N.after nodes clocks (N.heard + 1)) l v → ¬ net.Follows N l v →
      v = l ∨ stamp.level.toNat = (net.addr l).authority := by
    intro hv hnot
    have hlevel : s'.conn.level = (net.addr l).authority := hself ▸ hv
    rcases TimesynchNet.level_origin hchange with heq | ⟨o, rfl | rfl, heq⟩
    · exact absurd (heq.symm.trans hlevel) hnot
    · left
      by_contra hvl
      exact absurd (hlevel.symm.trans heq) (hl v hvl).ne
    · exact .inr (le_antisymm (hstamp.trans (heq.symm.trans hlevel).le) hleast)
  -- once it has received a frame, the least address leads
  have hleads : v = l → net.Follows (N.after nodes clocks (N.heard + 1)) l v := by
    rintro rfl
    obtain ⟨x, hx⟩ := hrange
    have hlt : (nodes.nodes v).conn.level < noAuthority := by
      rw [hself]
      exact hle.trans_lt (hx ▸ net.addr_lt x)
    exact le_antisymm ((hel.nodes v).level.resolve_left hlt.ne) (hlevelGe v)
  refine h.after hl hstepOf (Nat.le_succ _) hel (fun hv hnot => ?_) (fun hnot o ho => ?_)
    (fun hnot => ?_) fun base hbase hll hv => ?_
  · exact (hadopts hv fun hv => hnot (h.led v hv)).resolve_right
      fun hs => hnot (h.ledStamped u _ hmem hs)
  · by_cases hvl : v = l
    · subst hvl
      rw [hclock] at ho ⊢
      exact Clock.eq_offset_of_mem_hear (h.fresh hnot) ho
    · rw [hclockOf l (Ne.symm hvl), h.fresh hnot] at ho
      cases ho
  · have hvl : v ≠ l := fun hvl => hnot (hvl ▸ hleads hvl)
    rw [hclockOf l (Ne.symm hvl)]
    exact h.fresh fun hll => hnot (hstepOf.follows (hlevelGe l) hll)
  · rw [hclock]
    refine hbase.hear hmem hj hflag hleast ?_
    by_cases hvN : net.Follows N l v
    · exact .inl hvN
    · have hvl : v ≠ l := fun hvl => hvN (hvl ▸ hll)
      exact .inr ⟨(hadopts hv hvN).resolve_left hvl,
        lt_of_le_of_ne (level_ge hl h.elects v) (Ne.symm hvN)⟩

theorem agrees_of_reachable (hl : ∀ v, v ≠ l → (net.addr l).authority < (net.addr v).authority)
    (h : net.machine.ReachableWhen net.Undisturbed N) : net.Agrees l N := by
  refine h.invariant (fun N hN => Agrees.init hN) fun N e N' hN hok hstep => ?_
  cases e with
  | own e =>
    obtain ⟨hne, nodes, hstep, rfl⟩ := hstep
    exact hN.own hl hok hne hstep
  | hears u v f stale stamp t j interrupt =>
    obtain ⟨hmem, hj, nodes, hstep, rfl⟩ := hstep
    obtain rfl : interrupt = some (N.clocks v).offset := hok
    exact (hN.hears hl hmem hj hstep).reads
  | other v times =>
    cases hstep
    exact hN.reads

/-- **The nodes that follow the least address have the same time.**  Along a run without follower
timeouts and stale updates, in which the frames received have interrupts of their own and the
offset does not change between the two, the synchronised times of any two of them differ at any
moment by at most twice the error of a stamp for each frame received so far; with stamps that are
right, not at all. -/
theorem near_of_reachable (hl : ∀ v, v ≠ l → (net.addr l).authority < (net.addr v).authority)
    (h : net.machine.ReachableWhen net.Undisturbed N) (hv : net.Follows N l v)
    (hw : net.Follows N l w) (t : UInt16) :
    Near (2 * (N.heard * net.error)) (net.time N v t) (net.time N w t) ∧
      (net.error = 0 → net.time N v t = net.time N w t) := by
  obtain ⟨base, hbase⟩ := (agrees_of_reachable hl h).tracks
  have hnear : Near (2 * (N.heard * net.error)) (net.time N v t) (net.time N w t) := by
    rw [Nat.two_mul]
    exact ((hbase.keeps v hv).offset.trans (hbase.keeps w hw).offset.symm).add_left t
  refine ⟨hnear, fun hzero => Near.eq ?_⟩
  rwa [hzero, Nat.mul_zero, Nat.mul_zero] at hnear

/-! ### Two nodes -/

instance (N : State ι σ) (e : SynchEvent ι σ) : Decidable (net.Undisturbed N e) := by
  unfold Undisturbed
  split <;> infer_instance

/-- One event, `none` when it cannot occur or the code that handles it goes wrong. -/
def advance (net : SynchNet ι σ ε) [DecidableRel net.graph.Adj] :
    SynchEvent ι σ → State ι σ → Option (State ι σ)
  | .own (.hears _ _ _ _), _ => none
  | .own e, N => (net.toTimesynchNet.advance e N.nodes).map (N.after · N.clocks N.heard)
  | .hears u v f stale stamp t j interrupt, N =>
    if (f, stamp) ∈ N.stamped u ∧ j.natAbs ≤ net.error then
      (net.toTimesynchNet.advance (.hears u v f stale) N.nodes).map fun nodes =>
        (N.after nodes (Function.update N.clocks v
          ((net.heardFrame N u v f stamp t j interrupt).hear (N.clocks v))) (N.heard + 1)).reads v
            (net.timesRead N u v stamp t j interrupt)
    else none
  | .other v times, N => some (N.reads v times)

theorem step_of_advance [DecidableRel net.graph.Adj] {e : SynchEvent ι σ}
    (h : net.advance e N = some N') : net.machine.step e N N' := by
  have hown : ∀ {e : TsEvent ι σ}, (∀ u v f stale, e ≠ .hears u v f stale) →
      (net.toTimesynchNet.advance e N.nodes).map (N.after · N.clocks N.heard) = some N' →
      net.machine.step (.own e) N N' := by
    intro e hne h
    obtain ⟨nodes, hstep, heq⟩ := Option.map_eq_some_iff.mp h
    exact ⟨hne, nodes, TimesynchNet.step_of_advance hstep, heq.symm⟩
  cases e with
  | own e =>
    cases e with
    | hears u v f stale => cases h
    | _ => exact hown (by simp) h
  | hears u v f stale stamp t j interrupt =>
    simp only [advance] at h
    split at h
    · next hen =>
      obtain ⟨nodes, hstep, heq⟩ := Option.map_eq_some_iff.mp h
      exact ⟨hen.1, hen.2, nodes, TimesynchNet.step_of_advance hstep, heq.symm⟩
    · cases h
  | other v times => exact (Option.some.inj h).symm

/-- Two nodes whose clocks are 1000 ticks apart, with stamps that are wrong by at most two. -/
def pair : SynchNet Bool Unit (List Effect) where
  toTimesynchNet := .pair
  phase v := if v then 1000 else 0
  error := 2

instance : DecidableRel pair.graph.Adj :=
  inferInstanceAs (DecidableRel TimesynchNet.pair.graph.Adj)

instance (N : State ι σ) (l v : ι) : Decidable (net.Follows N l v) := by
  unfold Follows
  infer_instance

/-- Node `2.0` leads, node `1.0` usurps, and node `2.0` follows it; a frame of another kind comes in
between. -/
def pairRun : List (SynchEvent Bool Unit) :=
  .own (.call true) :: (TimesynchNet.pairSends true).map .own ++
    .hears true false (TimesynchNet.pairFrame 0 ⟨2, 0⟩ ⟨2, 0⟩) [] ⟨2, 0⟩ 500 1 (some 0) ::
    (TimesynchNet.pairSends false).map .own ++
    .hears false true (TimesynchNet.pairFrame 0 ⟨1, 0⟩ ⟨1, 0⟩) [] ⟨1, 999⟩ 600 (-1)
      (some 0) ::
    (TimesynchNet.pairSends true).map .own ++ .other false ⟨640, 643⟩ ::
    [.hears true false (TimesynchNet.pairFrame 1 ⟨1, 0⟩ ⟨2, 0⟩) [] ⟨1, 0⟩ 700 2 (some 999)]

/-- Both follow node `1.0`; one of its samples was a tick off. -/
theorem near_pairRun : ∃ N, pair.machine.ReachableWhen pair.Undisturbed N ∧
    pair.time N true 0 = pair.time N false 0 + 1 ∧ N.heard = 3 ∧
    Near (2 * (N.heard * 2)) (pair.time N true 0) (pair.time N false 0) := by
  let on : State Bool Unit := ⟨TimesynchNet.pairOn, fun _ => .init, fun _ => ⟨0, 0⟩, fun _ => [], 0⟩
  have h : ((Machine.run pair.advance pairRun on).map fun N => decide (pair.Follows N false true ∧
      pair.Follows N false false ∧ pair.time N true 0 = pair.time N false 0 + 1 ∧
        N.heard = 3)) = some true := by
    decide +kernel
  obtain ⟨N, hrun, hN⟩ := Option.map_eq_some_iff.mp h
  obtain ⟨htrue, hfalse, htime, hheard⟩ := of_decide_eq_true hN
  have hinit : pair.machine.init on :=
    ⟨⟨fun _ => ⟨rfl, rfl, fun _ _ _ => List.not_mem_nil⟩, fun _ _ => rfl⟩, fun _ => rfl,
      fun _ => rfl⟩
  have hreach : pair.machine.ReachableWhen pair.Undisturbed N :=
    Machine.ReachableWhen.of_run (b := fun N e => decide (pair.Undisturbed N e))
      (fun _ _ => of_decide_eq_true) (fun _ _ _ => step_of_advance) _ (.init hinit)
      (by decide +kernel) hrun
  exact ⟨N, hreach, htime, hheard, (near_of_reachable (by decide) hreach htrue hfalse 0).1⟩

end SynchNet

end EmergencyNet
