import EmergencyNet.Timesynch.Clock
import EmergencyNet.Timesynch.Leader

/-!
# The clock and the leader

A frame is looked at twice: the sniffer decides by the level the sender had when it sent the
frame whether to take a sample from it, and the connection decides by the originator of the
packet whether to follow it.  A sender that has found a better leader still sends what it had
queued for the old one.

## Main definitions

* `StampedFrame` — a frame with the level of its sender.
* `StampAgrees` — the level of the sender stands where the originator stands.
* `Handling` — a received frame, and what the sniffer and `timesynch_recv` have done with it.
* `ClockNet.machine` — a network in which every frame is looked at twice.

## Main results

* `EcNode.accepted_iff` — which frames `timesynch_recv` accepts.
* `ClockNet.tallies_of_reachable` — **the samples come from the frames that are accepted,
  exactly while the levels agree.**
* `ClockNet.not_tallies` — a frame of a leader that its sender has given up.
-/

namespace EmergencyNet

/-! ### The levels -/

/-- A time synchronisation frame, with the level its sender had when it was sent. -/
structure StampedFrame where
  frame : Frame
  level : UInt8
  deriving DecidableEq

/-- The node, whose address begins with `own`, is on and not better than an originator it would
have to adopt. -/
def Listens (own : UInt8) (ts : Timesynch) (hdr : Header) : Prop :=
  ts.isOn = true ∧ ¬ (hdr.originator.u8₀ < ts.authorityLevel ∧ own < hdr.originator.u8₀)

instance (own : UInt8) (ts : Timesynch) (hdr : Header) : Decidable (Listens own ts hdr) := by
  unfold Listens
  infer_instance

/-- The level of the sender stands where the originator stands, at a node whose address begins
with `own`: they are on the same side of the node's level, which is itself on the good side for
a current packet and on the bad side for an old one.  At a node that is off, or better than the
originator, the sender is on the bad side. -/
def StampAgrees (own : UInt8) (ts : Timesynch) (f : StampedFrame) : Prop :=
  if Listens own ts f.frame.hdr then
    if CurrentSeqno f.frame.hdr.seqno ts.authoritySeqno then
      f.level ≤ ts.authorityLevel ↔ f.frame.hdr.originator.u8₀ ≤ ts.authorityLevel
    else f.level < ts.authorityLevel ↔ f.frame.hdr.originator.u8₀ < ts.authorityLevel
  else if CurrentSeqno f.frame.hdr.seqno ts.authoritySeqno then ts.authorityLevel < f.level
  else ts.authorityLevel ≤ f.level

instance (own : UInt8) (ts : Timesynch) (f : StampedFrame) : Decidable (StampAgrees own ts f) := by
  unfold StampAgrees
  infer_instance

section Levels

variable {own : UInt8} {ts : Timesynch} {f : StampedFrame} {q sender : UInt8}

/-- With a current number a sample is taken on the same level too. -/
theorem samples_iff_le (h : CurrentSeqno q ts.authoritySeqno) :
    Samples ts q sender ↔ sender ≤ ts.authorityLevel := by
  unfold Samples
  rw [UInt8.lt_iff_toNat_lt, UInt8.le_iff_toNat_le, ← UInt8.toNat_inj]
  constructor
  · rintro (hlt | ⟨heq, -⟩)
    · exact hlt.le
    · exact heq.le
  · exact fun hle => hle.lt_or_eq.imp id fun heq => ⟨heq, h⟩

/-- With an old number it is not. -/
theorem samples_iff_lt (h : ¬ CurrentSeqno q ts.authoritySeqno) :
    Samples ts q sender ↔ sender < ts.authorityLevel := by
  unfold Samples
  simp only [h, and_false, or_false]

/-- **The two decisions agree** on a frame exactly when the level of its sender stands where its
originator stands. -/
theorem samples_iff_listens_iff :
    (Samples ts f.frame.hdr.seqno f.level ↔ Listens own ts f.frame.hdr ∧
      Samples ts f.frame.hdr.seqno f.frame.hdr.originator.u8₀) ↔ StampAgrees own ts f := by
  unfold StampAgrees
  split
  · next hlistens =>
    rw [and_iff_right hlistens]
    split
    · next hcur => rw [samples_iff_le hcur, samples_iff_le hcur]
    · next hold => rw [samples_iff_lt hold, samples_iff_lt hold]
  · next hdeaf =>
    have hnot : ¬ (Listens own ts f.frame.hdr ∧
        Samples ts f.frame.hdr.seqno f.frame.hdr.originator.u8₀) := fun h => hdeaf h.1
    refine (iff_false_right hnot).trans ?_
    split
    · next hcur =>
      rw [samples_iff_le hcur, UInt8.le_iff_toNat_le, UInt8.lt_iff_toNat_lt]
      exact not_le
    · next hold =>
      rw [samples_iff_lt hold, UInt8.le_iff_toNat_le, UInt8.lt_iff_toNat_lt]
      exact not_lt

/-- They agree on a frame whose sender has still the level of the leader it has the packet from,
unless the node is switched off or better than that leader. -/
theorem stampAgrees_of_originator (hlistens : Listens own ts f.frame.hdr)
    (hlevel : f.level = f.frame.hdr.originator.u8₀) : StampAgrees own ts f := by
  rw [← samples_iff_listens_iff, and_iff_right hlistens, hlevel]

end Levels

/-! ### What becomes of a packet -/

/-- The packet of an action that enqueues one of the time synchronisation. -/
def Action.timesynchArgs : Action → Option SendArgs
  | .enqueue .timesynchData _ _ a => some a
  | _ => none

/-- A received packet, and what the sniffer and `timesynch_recv` have done with it. -/
structure Handling where
  /-- The address of the node. -/
  own : Rimeaddr
  hdr : Header
  /-- The sniffer has taken a sample. -/
  sampled : Bool
  /-- What the node followed before `timesynch_recv`, and after it. -/
  before : Timesynch
  after : Timesynch
  /-- The time synchronisation packets `timesynch_recv` has enqueued. -/
  enqueued : List SendArgs
  deriving DecidableEq

namespace Handling

/-- The packet is accepted: afterwards the node is on, follows the originator, and is in the round
of the packet. -/
def Accepted (x : Handling) : Prop :=
  x.after.isOn = true ∧ x.after.authorityLevel = x.hdr.originator.u8₀ ∧
    x.after.authoritySeqno = x.hdr.seqno

instance (x : Handling) : Decidable x.Accepted := by
  unfold Accepted
  infer_instance

/-- A sample was taken exactly if the packet was accepted. -/
def Tallies (x : Handling) : Prop := x.sampled = true ↔ x.Accepted

instance (x : Handling) : Decidable x.Tallies := by unfold Tallies; infer_instance

/-- A packet that is accepted is passed on, unless the node was in its round already; one that is
not accepted leaves all as it was, or makes the node lead a round of its own. -/
structure Accounted (x : Handling) : Prop where
  accepted : x.Accepted →
    x.enqueued = [⟨x.hdr.originator, x.own, x.hdr.hops + 1, x.hdr.seqno, []⟩] ∨
      x.after = x.before ∧ x.enqueued = []
  refused : ¬ x.Accepted →
    x.enqueued = [⟨x.own, x.own, 0, x.before.seqno, []⟩] ∧ x.after.authorityLevel = x.own.u8₀ ∨
      x.after = x.before ∧ x.enqueued = []

end Handling

namespace EcNode

variable {σ : Type*}

/-- The reception of a packet at a node, which has gone from `s` to `s'`. -/
def handling (cb : EcCallbacks σ) (hdr : Header) (sampled : Bool) (s s' : EcNode σ) :
    Handling where
  own := cb.addr s.app
  hdr := hdr
  sampled := sampled
  before := s.conn.ts
  after := s'.conn.ts
  enqueued := (s'.conn.trace.take (s'.conn.trace.length - s.conn.trace.length)).filterMap
    Action.timesynchArgs

variable {cb : EcCallbacks σ} {pb : Packetbuf} {sampled : Bool} {hdr : Header} {s s' : EcNode σ}

theorem enqueued_handling {l : List Action} (h : s'.conn.trace = l ++ s.conn.trace) :
    (handling cb hdr sampled s s').enqueued = l.filterMap Action.timesynchArgs := by
  show (s'.conn.trace.take (s'.conn.trace.length - s.conn.trace.length)).filterMap _ = _
  rw [h, List.length_append, Nat.add_sub_cancel, List.take_left']
  rfl

/-- A packet the node passes on is accepted. -/
theorem accounted_forward (sampled : Bool) (hon : s.conn.ts.isOn = true)
    (h : (s.follow hdr).forwardTimesynch cb hdr >>= callTimesynch cb = .ok s') :
    (handling cb hdr sampled s s').Accounted ∧ (handling cb hdr sampled s s').Accepted := by
  obtain ⟨hts, i, htrace⟩ := forward_eq_ok h
  have haccepted : (handling cb hdr sampled s s').Accepted := by
    show s'.conn.ts.isOn = true ∧ s'.conn.ts.authorityLevel = _ ∧ s'.conn.ts.authoritySeqno = _
    rw [hts]
    exact ⟨hon, rfl, rfl⟩
  exact ⟨⟨fun _ => .inl (enqueued_handling (l := [_]) htrace), fun hnot => absurd haccepted hnot⟩,
    haccepted⟩

/-- A packet that leaves the connection as it is. -/
theorem accounted_unmoved (cb : EcCallbacks σ) (hdr : Header) (sampled : Bool)
    (h : s'.conn = s.conn) :
    (handling cb hdr sampled s s').Accounted ∧ ((handling cb hdr sampled s s').Accepted ↔
      s.conn.ts.isOn = true ∧ hdr.originator.u8₀ = s.conn.ts.authorityLevel ∧
        hdr.seqno = s.conn.ts.authoritySeqno) := by
  have hsame : (handling cb hdr sampled s s').after = (handling cb hdr sampled s s').before ∧
      (handling cb hdr sampled s s').enqueued = [] :=
    ⟨congrArg Ec.ts h, enqueued_handling (l := []) (congrArg Ec.trace h)⟩
  refine ⟨⟨fun _ => .inr hsame, fun _ => .inr hsame⟩, ?_⟩
  show s'.conn.ts.isOn = true ∧ s'.conn.ts.authorityLevel = _ ∧ s'.conn.ts.authoritySeqno = _ ↔ _
  rw [h, eq_comm (a := s.conn.ts.authorityLevel), eq_comm (a := s.conn.ts.authoritySeqno)]
  rfl

/-- A packet that makes the node lead is not accepted. -/
theorem accounted_lead (sampled : Bool) (hown : (cb.addr s.app).u8₀ < hdr.originator.u8₀)
    (h : s.timesynchAsLeader cb >>= callTimesynch cb = .ok s') :
    (handling cb hdr sampled s s').Accounted ∧ ¬ (handling cb hdr sampled s s').Accepted := by
  rw [bind_eq_ok] at h
  obtain ⟨t, hlead, hcall⟩ := h
  obtain ⟨hts, i, htrace⟩ := lead_eq_ok hlead
  rw [← callTimesynch_conn hcall] at hts htrace
  have hlevel : s'.conn.ts.authorityLevel = (cb.addr s.app).u8₀ := by rw [hts]
  have hnot : ¬ (handling cb hdr sampled s s').Accepted := by
    rintro ⟨-, heq, -⟩
    exact UInt8.ne_of_lt hown (hlevel.symm.trans heq)
  exact ⟨⟨fun haccepted => absurd haccepted hnot,
    fun _ => .inl ⟨enqueued_handling (l := [_]) htrace, hlevel⟩⟩, hnot⟩

/-- **What `timesynch_recv` does with a packet**: it accepts those that a sample would be taken
from if the sender had the level of the originator, at a node that listens. -/
theorem accepted_iff (hflag : pb.p.hdr.isPacketFlagSet PacketFlags.timesynch = true)
    (h : s.timesynchRecv cb pb = .ok s') :
    (handling cb pb.p.hdr sampled s s').Accounted ∧
      ((handling cb pb.p.hdr sampled s s').Accepted ↔
        Listens (cb.addr s.app).u8₀ s.conn.ts pb.p.hdr ∧
          Samples s.conn.ts pb.p.hdr.seqno pb.p.hdr.originator.u8₀) := by
  rw [timesynchRecv_eq hflag] at h
  have hspec := verdictSpec (cb.addr s.app).u8₀ s.conn.ts pb.p.hdr
  generalize verdict (cb.addr s.app).u8₀ s.conn.ts pb.p.hdr = x at h hspec
  cases hspec with
  | off hon =>
    obtain ⟨haccount, haccepted⟩ := accounted_unmoved cb pb.p.hdr sampled
      (congrArg EcNode.conn (Except.ok.inj h).symm)
    exact ⟨haccount, haccepted.trans (iff_of_false (fun h => hon h.1) fun h => hon h.1.1)⟩
  | usurps hon hlt hown =>
    obtain ⟨haccount, hnot⟩ := accounted_lead sampled hown h
    exact ⟨haccount, iff_of_false hnot fun h => h.1.2 ⟨hlt, hown⟩⟩
  | adopts hon hlt hown =>
    obtain ⟨haccount, haccepted⟩ := accounted_forward sampled hon h
    exact ⟨haccount, iff_of_true haccepted ⟨⟨hon, fun h => hown h.2⟩, .inl hlt⟩⟩
  | renews hon heq hnew =>
    obtain ⟨haccount, haccepted⟩ := accounted_forward sampled hon h
    exact ⟨haccount, iff_of_true haccepted
      ⟨⟨hon, fun h => UInt8.ne_of_lt h.1 heq⟩, .inr ⟨heq, .inl hnew⟩⟩⟩
  | repeats hon heq hrep =>
    obtain ⟨haccount, haccepted⟩ := accounted_unmoved cb pb.p.hdr sampled
      (callTimesynch_conn h)
    exact ⟨haccount, iff_of_true (haccepted.mpr ⟨hon, heq, hrep⟩)
      ⟨⟨hon, fun h => UInt8.ne_of_lt h.1 heq⟩, .inr ⟨heq, .inr hrep⟩⟩⟩
  | ignores hle hold =>
    obtain ⟨haccount, haccepted⟩ := accounted_unmoved cb pb.p.hdr sampled
      (congrArg EcNode.conn (Except.ok.inj h).symm)
    refine ⟨haccount, haccepted.trans (iff_of_false (fun h => (hold h.2.1).2 h.2.2) ?_)⟩
    rintro ⟨-, hlt | ⟨heq, hnew | hrep⟩⟩
    · exact hle hlt
    · exact (hold heq).1 hnew
    · exact (hold heq).2 hrep

end EcNode

/-! ### The network -/

/-- A network of nodes: who hears whom, and the application of each. -/
structure ClockNet (ι σ ε : Type*) where
  hears : ι → ι → Prop
  app : ι → Application σ ε

/-- A time synchronisation frame is received. -/
def NodeEvent.receivesTimesynch {ε : Type*} : NodeEvent ε → Bool
  | .receive .timesynch _ => true
  | _ => false

/-- The events of the network. -/
inductive ClockEvent (ι ε : Type*)
  /-- Node `v` does something else than to receive a time synchronisation frame. -/
  | acts (v : ι) (ev : NodeEvent ε)
  /-- Node `v` receives a frame of `u`; `stale` lies behind it in the buffer. -/
  | hears (u v : ι) (f : StampedFrame) (stale : List UInt8)
      (timeOfDeparture timeOfArrival : UInt16)

variable {ι σ ε : Type*} [DecidableEq ι]

namespace ClockNet

/-- The nodes and their clocks, the time synchronisation frames each node has sent, and what
became of those received. -/
structure State (ι σ : Type*) where
  nodes : ι → EcNode σ
  clocks : ι → Clock
  air : ι → List StampedFrame
  receptions : List Handling

variable (net : ClockNet ι σ ε)

/-- The network after a step of node `v` to `s'`: what it has sent carries the level it has,
which sending does not change. -/
def State.after (N : State ι σ) (v : ι) (s' : EcNode σ) : State ι σ :=
  { N with
    nodes := Function.update N.nodes v s'
    air := Function.update N.air v (N.air v ++
      (TimesynchNet.sent (N.nodes v) s').map (⟨·, s'.conn.ts.authorityLevel⟩)) }

/-- The network after the sniffer of node `v` has looked at a frame, and `timesynch_recv` has made
the node `s'`. -/
def State.heard (N : State ι σ) (v : ι) (f : StampedFrame) (dep arr : UInt16) (s' : EcNode σ) :
    State ι σ :=
  let clock :=
    (N.clocks v).incomingPacket (N.nodes v).conn.ts .timesynch f.frame.hdr f.level dep arr
  { N with
    clocks := Function.update N.clocks v clock
    receptions := (N.nodes v).handling (net.app v).toEcCallbacks f.frame.hdr
      (decide ((N.clocks v).samples.length < clock.samples.length)) s' :: N.receptions }

/-- The network as a transition system.  A frame that was sent may be received any number of
times, and at any time; the sniffer looks at it before the connection does. -/
def machine : Machine (State ι σ) (ClockEvent ι ε) where
  init N := (∀ v, (N.nodes v).conn = .opened ∧ N.air v = []) ∧ N.receptions = []
  step
    | .acts v ev, N, N' => ev.receivesTimesynch = false ∧ (N.nodes v).Enabled ev ∧
        ∃ s', (N.nodes v).step (net.app v) ev = .ok s' ∧ N' = N.after v s'
    | .hears u v f stale dep arr, N, N' => net.hears u v ∧ f ∈ N.air u ∧
        f.frame.hdr.isPacketFlagSet PacketFlags.timesynch = true ∧
        ∃ s', (N.nodes v).step (net.app v) (.receive .timesynch (f.frame.received stale)) = .ok s' ∧
          N' = (N.heard net v f dep arr s').after v s'

/-- The level of the sender of a frame that is received stands where the originator stands. -/
def StampGuard (N : State ι σ) : ClockEvent ι ε → Prop
  | .hears _ v f _ _ _ =>
    StampAgrees ((net.app v).addr (N.nodes v).app).u8₀ (N.nodes v).conn.ts f
  | .acts _ _ => True

instance (N : State ι σ) (e : ClockEvent ι ε) : Decidable (StampGuard net N e) := by
  rcases e <;> unfold StampGuard <;> infer_instance

variable {net} {N N' : State ι σ} {u v : ι} {f : StampedFrame} {stale : List UInt8}
  {dep arr : UInt16}

/-- **A received frame** is put down as it has been handled, and its sample tallies exactly when
the level of its sender stands where its originator stands. -/
theorem tallies_heard (dep arr : UInt16)
    (hflag : f.frame.hdr.isPacketFlagSet PacketFlags.timesynch = true) {s' : EcNode σ}
    (hrun : (N.nodes v).step (net.app v)
      (.receive .timesynch (f.frame.received stale)) = .ok s') :
    ∃ x, (N.heard net v f dep arr s').receptions = x :: N.receptions ∧ x.Accounted ∧
      (x.Tallies ↔ StampAgrees ((net.app v).addr (N.nodes v).app).u8₀ (N.nodes v).conn.ts f) := by
  have hsamples : (N.clocks v).samples.length < ((N.clocks v).incomingPacket (N.nodes v).conn.ts
      .timesynch f.frame.hdr f.level dep arr).samples.length ↔
        Samples (N.nodes v).conn.ts f.frame.hdr.seqno f.level := by
    rw [Clock.samples_incomingPacket hflag]
    split
    · next h => simp [h]
    · next h => simp [h]
  obtain ⟨haccount, haccepted⟩ := EcNode.accepted_iff hflag hrun
  refine ⟨_, rfl, haccount, ?_⟩
  exact (iff_congr (decide_eq_true_iff.trans hsamples) haccepted).trans samples_iff_listens_iff

theorem tallies_hears_iff (htallies : ∀ x ∈ N.receptions, x.Tallies)
    (hstep : net.machine.step (.hears u v f stale dep arr) N N') :
    (∀ x ∈ N'.receptions, x.Tallies) ↔ net.StampGuard N (.hears u v f stale dep arr) := by
  obtain ⟨-, -, hflag, s', hrun, rfl⟩ := hstep
  obtain ⟨x, hx, -, hiff⟩ := tallies_heard dep arr hflag hrun
  change (∀ x ∈ (N.heard net v f dep arr s').receptions, x.Tallies) ↔ _
  rw [hx, List.forall_mem_cons, and_iff_left htallies]
  exact hiff

/-! ### Runs -/

theorem accounted_of_reachable {guard : State ι σ → ClockEvent ι ε → Prop}
    (h : net.machine.ReachableWhen guard N) : ∀ x ∈ N.receptions, x.Accounted := by
  refine h.invariant (I := fun N => ∀ x ∈ N.receptions, x.Accounted) ?_ ?_
  · rintro N ⟨-, hnone⟩ x hx
    rw [hnone] at hx
    cases hx
  · intro N e N' haccount _ hstep
    cases e with
    | acts v ev =>
      obtain ⟨-, -, s', -, rfl⟩ := hstep
      exact haccount
    | hears u v f stale dep arr =>
      obtain ⟨-, -, hflag, s', hrun, rfl⟩ := hstep
      obtain ⟨x, hx, hnew, -⟩ := tallies_heard dep arr hflag hrun
      change ∀ x ∈ (N.heard net v f dep arr s').receptions, x.Accounted
      rw [hx]
      exact List.forall_mem_cons.mpr ⟨hnew, haccount⟩

/-- **The clock follows the leader**: in a run in which the level of the sender of a frame always
stands where its originator stands, the samples come from the frames that `timesynch_recv`
accepts, and none from those that it leaves alone or that make it lead; and a frame for which the
level does not stand there breaks this. -/
theorem tallies_of_reachable (h : net.machine.ReachableWhen net.StampGuard N) :
    (∀ x ∈ N.receptions, x.Accounted ∧ x.Tallies) ∧
      ∀ u v f stale dep arr N', net.machine.step (.hears u v f stale dep arr) N N' →
        ((∀ x ∈ N'.receptions, x.Tallies) ↔ net.StampGuard N (.hears u v f stale dep arr)) := by
  have htallies : ∀ x ∈ N.receptions, x.Tallies := by
    refine h.invariant (I := fun N => ∀ x ∈ N.receptions, x.Tallies) ?_ ?_
    · rintro N ⟨-, hnone⟩ x hx
      rw [hnone] at hx
      cases hx
    · intro N e N' htallies hok hstep
      cases e with
      | acts v ev =>
        obtain ⟨-, -, s', -, rfl⟩ := hstep
        exact htallies
      | hears u v f stale dep arr => exact (tallies_hears_iff htallies hstep).mpr hok
  exact ⟨fun x hx => ⟨accounted_of_reachable h x hx, htallies x hx⟩,
    fun _ _ _ _ _ _ _ hstep => tallies_hears_iff htallies hstep⟩

/-- One event, `none` when it cannot occur or the code that handles it goes wrong. -/
def advance (net : ClockNet ι σ ε) [DecidableRel net.hears] :
    ClockEvent ι ε → State ι σ → Option (State ι σ)
  | .acts v ev, N =>
    if ev.receivesTimesynch = false then ((N.nodes v).advance (net.app v) ev).map (N.after v)
    else none
  | .hears u v f stale dep arr, N =>
    if net.hears u v ∧ f ∈ N.air u ∧
        f.frame.hdr.isPacketFlagSet PacketFlags.timesynch = true then
      ((N.nodes v).advance (net.app v) (.receive .timesynch (f.frame.received stale))).map fun s' =>
        (N.heard net v f dep arr s').after v s'
    else none

theorem step_of_advance [DecidableRel net.hears] {e : ClockEvent ι ε}
    (h : net.advance e N = some N') : net.machine.step e N N' := by
  cases e with
  | acts v ev =>
    simp only [advance] at h
    split at h
    · next hev =>
      obtain ⟨s', hs, rfl⟩ := Option.map_eq_some_iff.mp h
      obtain ⟨hen, hstep⟩ := connMachine_step_of_advance hs
      exact ⟨hev, hen, s', hstep, rfl⟩
    · cases h
  | hears u v f stale dep arr =>
    simp only [advance] at h
    split at h
    · next hev =>
      obtain ⟨s', hs, rfl⟩ := Option.map_eq_some_iff.mp h
      exact ⟨hev.1, hev.2.1, hev.2.2, s', (connMachine_step_of_advance hs).2, rfl⟩
    · cases h

/-! ### Three nodes -/

/-- The first bytes of three addresses. -/
def trioAddr : Fin 3 → UInt8
  | 0 => 5
  | 1 => 7
  | 2 => 9

/-- Three nodes that hear each other. -/
def trio : ClockNet (Fin 3) Unit (List Effect) where
  hears u v := u ≠ v
  app v := .scripted ⟨trioAddr v, 0⟩ .empty

instance : DecidableRel trio.hears := fun u v => inferInstanceAs (Decidable (u ≠ v))

/-- The three nodes after they have been switched on. -/
def trioInit : State (Fin 3) Unit where
  nodes _ := ⟨.opened, ()⟩
  clocks _ := .init
  air _ := []
  receptions := []

/-- Node `v` switches time synchronisation on and leads a round. -/
def leads (v : Fin 3) : ClockEvent (Fin 3) (List Effect) :=
  .acts v (.process [.call .timesynchOn, .call .timesynchNetwork])

/-- Node `v` sends its oldest time synchronisation packet. -/
def sends (v : Fin 3) : List (ClockEvent (Fin 3) (List Effect)) :=
  [.acts v (.expire .timesynchData), .acts v (.timer .timesynchData true)]

/-- Node `v` receives the packet of node `o` from node `u`, which has the level of node `l`. -/
def receives (u v o l : Fin 3) : ClockEvent (Fin 3) (List Effect) :=
  .hears u v ⟨⟨initBroadcastPacket PacketFlags.timesynch (if u = o then 0 else 1)
    ⟨trioAddr o, 0⟩ ⟨trioAddr u, 0⟩ 0, []⟩, trioAddr l⟩ [] 100 40

/-- A leader is followed, again, and by a node behind the first one; a worse one is not. -/
def followRun : List (ClockEvent (Fin 3) (List Effect)) :=
  leads 0 :: sends 0 ++ leads 1 :: sends 1 ++ [receives 0 1 0 0, receives 0 1 0 0] ++ sends 1 ++
    leads 2 :: [receives 1 2 0 0, receives 1 2 1 1]

/-- Node `9.0` leads, but hears of node `5.0` before it has sent its packet. -/
def overtakenRun : List (ClockEvent (Fin 3) (List Effect)) :=
  leads 2 :: leads 0 :: sends 0 ++ receives 0 2 0 0 :: leads 1 :: sends 2 ++ [receives 2 1 2 0]

/-- Whether a sample was taken, whether the packet was accepted, and what was enqueued. -/
def Handling.row (x : Handling) : Bool × Bool × List Rimeaddr :=
  (x.sampled, decide x.Accepted, x.enqueued.map SendArgs.originator)

/-- Samples from accepted frames: two adopted leaders, which are passed on, a packet of the same
round, and the packet of a worse leader. -/
theorem tallies_followRun : ∃ N, trio.machine.ReachableWhen trio.StampGuard N ∧
    N.receptions.map Handling.row = [(false, false, []), (true, true, [⟨5, 0⟩]),
      (true, true, []), (true, true, [⟨5, 0⟩])] ∧
    ∀ x ∈ N.receptions, x.Accounted ∧ x.Tallies := by
  have h : ((Machine.run trio.advance followRun trioInit).map fun N =>
      decide (N.receptions.map Handling.row = [(false, false, []), (true, true, [⟨5, 0⟩]),
        (true, true, []), (true, true, [⟨5, 0⟩])])) = some true := by decide +kernel
  obtain ⟨N, hrun, hN⟩ := Option.map_eq_some_iff.mp h
  have hreach : trio.machine.ReachableWhen trio.StampGuard N :=
    Machine.ReachableWhen.of_run (b := fun N e => decide (trio.StampGuard N e))
      (fun _ _ => of_decide_eq_true) (fun _ _ _ => step_of_advance) _
      (.init ⟨fun _ => ⟨rfl, rfl⟩, rfl⟩) (by decide +kernel) hrun
  exact ⟨N, hreach, of_decide_eq_true hN, (tallies_of_reachable hreach).1⟩

/-- **The packet of a leader that its sender has given up**: node `7.0` leaves it alone, but takes
a sample from it. -/
theorem not_tallies : ∃ N, trio.machine.Reachable N ∧
    N.receptions.map Handling.row = [(true, false, []), (true, true, [⟨5, 0⟩])] ∧
    ¬ ∀ x ∈ N.receptions, x.Tallies := by
  have h : ((Machine.run trio.advance overtakenRun trioInit).map fun N =>
      decide (N.receptions.map Handling.row = [(true, false, []), (true, true, [⟨5, 0⟩])] ∧
        ¬ ∀ x ∈ N.receptions, x.Tallies)) = some true := by
    decide +kernel
  obtain ⟨N, hrun, hN⟩ := Option.map_eq_some_iff.mp h
  exact ⟨N, Machine.Reachable.of_run (fun _ _ _ => step_of_advance) _
    (.init ⟨fun _ => ⟨rfl, rfl⟩, rfl⟩) hrun, of_decide_eq_true hN⟩

end ClockNet

end EmergencyNet
