import EmergencyNet.Timesynch.Steps

/-!
# The rounds of a leader

A leader numbers its rounds with a byte, and a follower tells new rounds from old ones by that
byte: a number is new if it is greater than the last one, or less than an eighth of it, which is
what a number looks like after the wrap.  Seen from after the wrap, the numbers from before it
are greater.

## Main definitions

* `Verdict`, `verdict` — what `timesynch_recv` makes of a packet.
* `Follower`, `followerMachine` — a follower and the packets of one leader.
* `InOrder` — no packet of an earlier round passes for a new one.

## Main results

* `EcNode.timesynchRecv_eq` — what `timesynch_recv` does for each verdict.
* `EcNode.timesynchAsLeader_round` — a leader numbers its rounds one after the other.
* `floods_of_reachable` — **a follower forwards every round once, as long as the packets arrive
  in order.**
* `not_floods` — a packet from before the wrap arrives again.
-/

namespace EmergencyNet

variable {σ ε : Type*}

/-! ### What becomes of a packet -/

/-- What `timesynch_recv` makes of a packet. -/
inductive Verdict
  /-- Time synchronisation is switched off. -/
  | off
  /-- The packet comes from a better leader, but the node is better still. -/
  | usurps
  /-- The packet comes from a better leader. -/
  | adopts
  /-- A new round of the leader the node follows. -/
  | renews
  /-- Another packet of the round the node is in. -/
  | repeats
  /-- The packet comes from a worse leader, or from an earlier round. -/
  | ignores
  deriving DecidableEq, Repr

/-- The number of a new round, seen from the number of the last one. -/
def NewSeqno (q last : UInt8) : Prop := q > last ∨ q < last / 8

instance (q last : UInt8) : Decidable (NewSeqno q last) := by unfold NewSeqno; infer_instance

/-- The verdict on a packet, at a node whose address begins with `own`. -/
def verdict (own : UInt8) (ts : Timesynch) (hdr : Header) : Verdict :=
  if ts.isOn then
    if hdr.originator.u8₀ < ts.authorityLevel then
      if own < hdr.originator.u8₀ then .usurps else .adopts
    else if hdr.originator.u8₀ = ts.authorityLevel then
      if NewSeqno hdr.seqno ts.authoritySeqno then .renews
      else if hdr.seqno = ts.authoritySeqno then .repeats
      else .ignores
    else .ignores
  else .off

/-- What a verdict says about the packet and the node. -/
inductive VerdictSpec (own : UInt8) (ts : Timesynch) (hdr : Header) : Verdict → Prop
  | off (hon : ts.isOn ≠ true) : VerdictSpec own ts hdr .off
  | usurps (hon : ts.isOn = true) (hlt : hdr.originator.u8₀ < ts.authorityLevel)
      (hown : own < hdr.originator.u8₀) : VerdictSpec own ts hdr .usurps
  | adopts (hon : ts.isOn = true) (hlt : hdr.originator.u8₀ < ts.authorityLevel)
      (hown : ¬ own < hdr.originator.u8₀) : VerdictSpec own ts hdr .adopts
  | renews (hon : ts.isOn = true) (heq : hdr.originator.u8₀ = ts.authorityLevel)
      (hnew : NewSeqno hdr.seqno ts.authoritySeqno) : VerdictSpec own ts hdr .renews
  | repeats (hon : ts.isOn = true) (heq : hdr.originator.u8₀ = ts.authorityLevel)
      (hrep : hdr.seqno = ts.authoritySeqno) : VerdictSpec own ts hdr .repeats
  | ignores (hle : ¬ hdr.originator.u8₀ < ts.authorityLevel)
      (hold : hdr.originator.u8₀ = ts.authorityLevel →
        ¬ NewSeqno hdr.seqno ts.authoritySeqno ∧ hdr.seqno ≠ ts.authoritySeqno) :
      VerdictSpec own ts hdr .ignores

theorem verdictSpec (own : UInt8) (ts : Timesynch) (hdr : Header) :
    VerdictSpec own ts hdr (verdict own ts hdr) := by
  unfold verdict
  by_cases hon : ts.isOn = true
  swap
  · rw [if_neg hon]
    exact .off hon
  rw [if_pos hon]
  by_cases hlt : hdr.originator.u8₀ < ts.authorityLevel
  · rw [if_pos hlt]
    split
    · next hown => exact .usurps hon hlt hown
    · next hown => exact .adopts hon hlt hown
  rw [if_neg hlt]
  by_cases heq : hdr.originator.u8₀ = ts.authorityLevel
  swap
  · rw [if_neg heq]
    exact .ignores hlt fun h => absurd h heq
  rw [if_pos heq]
  by_cases hnew : NewSeqno hdr.seqno ts.authoritySeqno
  · rw [if_pos hnew]
    exact .renews hon heq hnew
  rw [if_neg hnew]
  split
  · next hrep => exact .repeats hon heq hrep
  · next hrep => exact .ignores hlt fun _ => ⟨hnew, hrep⟩

namespace EcNode

variable {cb : EcCallbacks σ} {pb : Packetbuf} {s s' : EcNode σ}

/-- What `timesynch_recv` does with a time synchronisation packet. -/
theorem timesynchRecv_eq (hflag : pb.p.hdr.isPacketFlagSet PacketFlags.timesynch = true) :
    s.timesynchRecv cb pb =
      match verdict (cb.addr s.app).u8₀ s.conn.ts pb.p.hdr with
      | .off | .ignores => .ok s
      | .usurps => s.timesynchAsLeader cb >>= callTimesynch cb
      | .adopts | .renews =>
        (s.follow pb.p.hdr).forwardTimesynch cb pb.p.hdr >>= callTimesynch cb
      | .repeats => s.callTimesynch cb := by
  unfold timesynchRecv verdict
  simp only [hflag, if_true]
  by_cases hon : s.conn.ts.isOn = true
  swap
  · rw [if_neg hon, if_neg hon]
  rw [if_pos hon, if_pos hon]
  by_cases hlt : pb.p.hdr.originator.u8₀ < s.conn.ts.authorityLevel
  · rw [if_pos hlt, if_pos hlt]
    split <;> rfl
  rw [if_neg hlt, if_neg hlt]
  by_cases heq : pb.p.hdr.originator.u8₀ = s.conn.ts.authorityLevel
  swap
  · rw [if_neg heq, if_neg heq]
  rw [if_pos heq, if_pos heq]
  by_cases hnew : NewSeqno pb.p.hdr.seqno s.conn.ts.authoritySeqno
  · rw [if_pos hnew]
    exact if_pos hnew
  · rw [if_neg hnew]
    refine (if_neg hnew).trans ?_
    split <;> rfl

/-- A packet that is passed on is enqueued, and the node follows its originator. -/
theorem forward_eq_ok {hdr : Header}
    (h : (s.follow hdr).forwardTimesynch cb hdr >>= callTimesynch cb = .ok s') :
    s'.conn.ts = ⟨s.conn.ts.isOn, s.conn.ts.seqno, hdr.originator.u8₀, hdr.seqno⟩ ∧
      ∃ i, s'.conn.trace = .enqueue .timesynchData i none
        ⟨hdr.originator, cb.addr s.app, hdr.hops + 1, hdr.seqno, []⟩ :: s.conn.trace := by
  rw [bind_eq_ok] at h
  obtain ⟨t, hput, hcall⟩ := h
  obtain ⟨c, hrun, rfl⟩ := tryConn_eq_ok.mp hput
  obtain ⟨-, hts, -, i, htrace⟩ := Ec.putTimesynch_queue hrun
  rw [callTimesynch_conn hcall]
  exact ⟨hts, i, htrace⟩

/-- A node that leads enqueues a packet of its own. -/
theorem lead_eq_ok (h : s.timesynchAsLeader cb = .ok s') :
    s'.conn.ts = ⟨s.conn.ts.isOn, s.conn.ts.seqno + 1, (cb.addr s.app).u8₀, s.conn.ts.seqno⟩ ∧
      ∃ i, s'.conn.trace = .enqueue .timesynchData i none
        ⟨cb.addr s.app, cb.addr s.app, 0, s.conn.ts.seqno, []⟩ :: s.conn.trace := by
  unfold timesynchAsLeader at h
  rw [bind_eq_ok] at h
  obtain ⟨t, hput, hcall⟩ := h
  obtain ⟨c, hrun, rfl⟩ := tryConn_eq_ok.mp hput
  obtain ⟨-, hts, -, i, htrace⟩ := Ec.putTimesynch_queue hrun
  rw [callTimesynch_conn hcall]
  exact ⟨hts, i, htrace⟩

end EcNode

/-! ### A follower of one leader -/

/-- A follower, and the rounds it has forwarded, newest first. -/
structure Follower (σ : Type*) where
  node : EcNode σ
  floods : List ℕ

/-- The events of a follower. -/
inductive RoundEvent (σ : Type*)
  /-- A packet of round `r` arrives, from `sender`; `stale` lies behind it in the buffer. -/
  | arrives (r : ℕ) (hops : UInt8) (sender : Rimeaddr) (stale : List UInt8)
  /-- The node does something else. -/
  | rest (s : EcNode σ)

/-- The number a leader gives its `r`-th round. -/
def roundSeqno (r : ℕ) : UInt8 := .ofNat r

/-- The header of a packet of round `r`. -/
def roundHeader (leader : Rimeaddr) (r : ℕ) (hops : UInt8) (sender : Rimeaddr) : Header :=
  initBroadcastPacket PacketFlags.timesynch hops leader sender (roundSeqno r)

/-- **A leader counts its rounds**: the packets it enqueues carry their numbers one after the
other. -/
theorem EcNode.timesynchAsLeader_round {cb : EcCallbacks σ} {s s' : EcNode σ} {r : ℕ}
    (h : s.timesynchAsLeader cb = .ok s') (hr : s.conn.ts.seqno = roundSeqno r) :
    s'.conn.ts.seqno = roundSeqno (r + 1) ∧
      s'.conn.tsQueue = s.conn.tsQueue ++
        [roundHeader (cb.addr s.app) r 0 (cb.addr s.app)] := by
  unfold timesynchAsLeader at h
  rw [bind_eq_ok] at h
  obtain ⟨t, hput, hcall⟩ := h
  obtain ⟨c, hrun, rfl⟩ := tryConn_eq_ok.mp hput
  obtain ⟨hqueue, hts, -⟩ := Ec.putTimesynch_queue hrun
  rw [callTimesynch_conn hcall]
  constructor
  · rw [hts, roundSeqno, UInt8.ofNat_add, ← roundSeqno, ← hr]
    rfl
  · rw [hqueue, roundHeader, ← hr]
    rfl

/-- A time synchronisation packet is enqueued. -/
def Action.enqueuesTimesynch : Action → Bool
  | .enqueue .timesynchData _ _ _ => true
  | _ => false

/-- The number of time synchronisation packets a node has enqueued on the way from `s` to
`s'`. -/
def forwards (s s' : EcNode σ) : ℕ :=
  (s'.conn.trace.take (s'.conn.trace.length - s.conn.trace.length)).countP
    Action.enqueuesTimesynch

/-- A follower of `leader` as a transition system: at the start it has heard neither of the
leader nor of a better one. -/
def followerMachine (A : Application σ ε) (leader : Rimeaddr) :
    Machine (Follower σ) (RoundEvent σ) where
  init s := s.node.conn.ts.isOn = true ∧ leader.u8₀ < s.node.conn.ts.authorityLevel ∧ s.floods = []
  step
    | .arrives r hops sender stale, s, s' =>
      s.node.step A (.receive .timesynch
        (Frame.received ⟨roundHeader leader r hops sender, []⟩ stale)) = .ok s'.node ∧
        s'.floods = .replicate (forwards s.node s'.node) r ++ s.floods
    | .rest t, s, s' => t.conn.ts = s.node.conn.ts ∧ s' = { s with node := t }

/-- A packet of the round the node is in or an earlier one does not pass for a new one: its
number is not greater than that of the node's round, and not less than an eighth of it. -/
def InOrder (s : Follower σ) : RoundEvent σ → Prop
  | .arrives r _ _ _ =>
    ∀ R ∈ s.floods.head?, r ≤ R → r % 256 ≤ R % 256 ∧ R % 256 / 8 ≤ r % 256
  | .rest _ => True

instance (s : Follower σ) (e : RoundEvent σ) : Decidable (InOrder s e) := by
  rcases e <;> unfold InOrder <;> infer_instance

theorem newSeqno_iff {r R : ℕ} :
    NewSeqno (roundSeqno r) (roundSeqno R) ↔ R % 256 < r % 256 ∨ r % 256 < R % 256 / 8 := by
  have hr : (roundSeqno r).toNat = r % 256 := UInt8.toNat_ofNat'
  have hR : (roundSeqno R).toNat = R % 256 := UInt8.toNat_ofNat'
  rw [NewSeqno, gt_iff_lt, UInt8.lt_iff_toNat_lt, UInt8.lt_iff_toNat_lt, UInt8.toNat_div, hr, hR]
  rfl

/-- What a follower knows of its leader: nothing yet, or the round it has forwarded last. -/
inductive Follows (leader : Rimeaddr) (ts : Timesynch) : List ℕ → Prop
  | unheard (hon : ts.isOn = true) (hlevel : leader.u8₀ < ts.authorityLevel) : Follows leader ts []
  | heard {R : ℕ} {l : List ℕ} (hon : ts.isOn = true) (hlevel : ts.authorityLevel = leader.u8₀)
      (hseqno : ts.authoritySeqno = roundSeqno R) : Follows leader ts (R :: l)

variable {A : Application σ ε} {leader : Rimeaddr} {s s' : Follower σ} {r : ℕ} {hops : UInt8}
  {sender : Rimeaddr} {stale : List UInt8}

theorem forwards_eq {s s' : EcNode σ} {l : List Action} (h : s'.conn.trace = l ++ s.conn.trace) :
    forwards s s' = l.countP Action.enqueuesTimesynch := by
  rw [forwards, h, List.length_append, Nat.add_sub_cancel, List.take_left']
  rfl

/-- A follower that has not heard of its leader adopts it. -/
theorem verdict_unheard {own : UInt8} {ts : Timesynch} (hfollow : leader.u8₀ ≤ own)
    (hon : ts.isOn = true) (hlevel : leader.u8₀ < ts.authorityLevel) :
    verdict own ts (roundHeader leader r hops sender) = .adopts := by
  have hown : ¬ own < leader.u8₀ := by
    rw [UInt8.lt_iff_toNat_lt, not_lt]
    exact UInt8.le_iff_toNat_le.mp hfollow
  rw [verdict, if_pos hon]
  exact (if_pos hlevel).trans (if_neg hown)

/-- A follower that has heard of its leader looks at the number. -/
theorem verdict_heard {own : UInt8} {ts : Timesynch} {R : ℕ} (hon : ts.isOn = true)
    (hlevel : ts.authorityLevel = leader.u8₀) (hseqno : ts.authoritySeqno = roundSeqno R) :
    verdict own ts (roundHeader leader r hops sender) =
      if NewSeqno (roundSeqno r) (roundSeqno R) then .renews
      else if roundSeqno r = roundSeqno R then .repeats else .ignores := by
  have hirrefl : ¬ leader.u8₀ < leader.u8₀ := by
    rw [UInt8.lt_iff_toNat_lt]
    exact lt_irrefl _
  rw [verdict, if_pos hon, hlevel, hseqno]
  exact (if_neg hirrefl).trans (if_pos rfl)

/-- **An arriving packet** is forwarded once, and its round is the one the node is in, when it
is the first one or passes for a new one; otherwise nothing changes. -/
theorem arrives_cases (hfollow : ∀ t, leader.u8₀ ≤ (A.addr t).u8₀)
    (h : Follows leader s.node.conn.ts s.floods)
    (hstep : (followerMachine A leader).step (.arrives r hops sender stale) s s') :
    Follows leader s'.node.conn.ts s'.floods ∧
      ((∀ R ∈ s.floods.head?, NewSeqno (roundSeqno r) (roundSeqno R)) ∧ s'.floods = r :: s.floods ∨
        (∃ R ∈ s.floods.head?, ¬ NewSeqno (roundSeqno r) (roundSeqno R)) ∧
          s'.floods = s.floods) := by
  obtain ⟨hrun, hfloods⟩ := hstep
  change s.node.timesynchRecv A.toEcCallbacks _ = .ok s'.node at hrun
  have hhdr : (Frame.received ⟨roundHeader leader r hops sender, []⟩ stale).p.hdr =
      roundHeader leader r hops sender := rfl
  rw [EcNode.timesynchRecv_eq ((isPacketFlagSet_initBroadcastPacket ..).trans (by decide)),
    hhdr] at hrun
  -- a packet that is taken, whether as the first or as a new one
  have hforward : ((s.node.follow (roundHeader leader r hops sender)).forwardTimesynch
      A.toEcCallbacks (roundHeader leader r hops sender) >>=
        EcNode.callTimesynch A.toEcCallbacks) = .ok s'.node → s.node.conn.ts.isOn = true →
      Follows leader s'.node.conn.ts s'.floods ∧ s'.floods = r :: s.floods := by
    intro hrun hon
    obtain ⟨hts, i, htrace⟩ := EcNode.forward_eq_ok hrun
    rw [forwards_eq (l := [_]) htrace] at hfloods
    rw [hts, hfloods]
    exact ⟨.heard hon rfl rfl, rfl⟩
  cases hknown : s.floods with
  | nil =>
    rw [hknown] at h hforward
    cases h with
    | unheard hon hlevel =>
      rw [verdict_unheard (hfollow _) hon hlevel] at hrun
      obtain ⟨hfollows, heq⟩ := hforward hrun hon
      exact ⟨hfollows, .inl ⟨fun _ hR => (Option.not_mem_none _ hR).elim, heq⟩⟩
  | cons R l =>
    rw [hknown] at h hforward hfloods
    cases h with
    | heard hon hlevel hseqno =>
      rw [verdict_heard hon hlevel hseqno] at hrun
      by_cases hnew : NewSeqno (roundSeqno r) (roundSeqno R)
      · rw [if_pos hnew] at hrun
        obtain ⟨hfollows, heq⟩ := hforward hrun hon
        refine ⟨hfollows, .inl ⟨fun R' hR' => ?_, heq⟩⟩
        rw [← Option.some.inj hR']
        exact hnew
      · rw [if_neg hnew] at hrun
        -- an old packet; the one of the same round still runs the callback
        have hconn : s'.node.conn = s.node.conn := by
          by_cases heq : roundSeqno r = roundSeqno R
          · rw [if_pos heq] at hrun
            exact EcNode.callTimesynch_conn hrun
          · rw [if_neg heq] at hrun
            rw [Except.ok.inj hrun]
        rw [forwards_eq (l := []) (congrArg Ec.trace hconn)] at hfloods
        rw [hconn, hfloods]
        exact ⟨.heard hon hlevel hseqno, .inr ⟨⟨R, rfl, hnew⟩, rfl⟩⟩

/-- What a follower forwards is newer than all it has forwarded before exactly when the packet
arrives in order. -/
theorem sorted_arrives_iff (hfollow : ∀ t, leader.u8₀ ≤ (A.addr t).u8₀)
    (h : Follows leader s.node.conn.ts s.floods) (hsorted : s.floods.Pairwise (· > ·))
    (hstep : (followerMachine A leader).step (.arrives r hops sender stale) s s') :
    s'.floods.Pairwise (· > ·) ↔ InOrder s (.arrives r hops sender stale) := by
  obtain ⟨-, ⟨hnew, heq⟩ | ⟨⟨R, hR, hnew⟩, heq⟩⟩ := arrives_cases hfollow h hstep
  · rw [heq, List.pairwise_cons]
    constructor
    · -- a round that passes for new but is not later would break the order
      rintro ⟨hall, -⟩ R hR hle
      exact absurd (hall R (List.mem_of_mem_head? hR)) (not_lt.mpr hle)
    · intro hord
      refine ⟨fun R' hR' => ?_, hsorted⟩
      cases hfloods : s.floods with
      | nil =>
        rw [hfloods] at hR'
        cases hR'
      | cons R l =>
        have hhead : R ∈ s.floods.head? := by rw [hfloods]; rfl
        rw [hfloods] at hR' hsorted
        have hlt : R < r := by
          by_contra hle
          have hord := hord R hhead (not_lt.mp hle)
          have hnew := newSeqno_iff.mp (hnew R hhead)
          omega
        rcases List.mem_cons.mp hR' with rfl | hR'
        · exact hlt
        · exact ((List.pairwise_cons.mp hsorted).1 R' hR').trans hlt
  · -- a packet that is not forwarded leaves the list as it is
    rw [heq]
    refine iff_of_true hsorted fun R' hR' _ => ?_
    rw [← Option.mem_unique hR hR']
    rw [newSeqno_iff] at hnew
    omega

/-! ### Runs -/

/-- **Every round is forwarded once**: in a run in which the packets arrive in order, the rounds
a follower forwards increase, and the last one is the round it is in; and a packet that arrives
out of order breaks this. -/
theorem floods_of_reachable (hfollow : ∀ t, leader.u8₀ ≤ (A.addr t).u8₀)
    (h : (followerMachine A leader).ReachableWhen InOrder s) :
    (s.floods.Pairwise (· > ·) ∧
      ∀ R ∈ s.floods.head?, s.node.conn.ts.authoritySeqno = roundSeqno R) ∧
    ∀ r hops sender stale s',
      (followerMachine A leader).step (.arrives r hops sender stale) s s' →
      (s'.floods.Pairwise (· > ·) ↔ InOrder s (.arrives r hops sender stale)) := by
  have hinv : Follows leader s.node.conn.ts s.floods ∧ s.floods.Pairwise (· > ·) := by
    refine h.invariant (I := fun s => Follows leader s.node.conn.ts s.floods ∧
      s.floods.Pairwise (· > ·)) ?_ ?_
    · rintro s ⟨hon, hlevel, hfloods⟩
      rw [hfloods]
      exact ⟨.unheard hon hlevel, .nil⟩
    · rintro s e s' ⟨hfollows, hsorted⟩ hok hstep
      cases e with
      | arrives r hops sender stale =>
        exact ⟨(arrives_cases hfollow hfollows hstep).1,
          (sorted_arrives_iff hfollow hfollows hsorted hstep).mpr hok⟩
      | rest t =>
        obtain ⟨hts, rfl⟩ := hstep
        exact ⟨hts ▸ hfollows, hsorted⟩
  refine ⟨⟨hinv.2, fun R hR => ?_⟩, fun r hops sender stale s' hstep =>
    sorted_arrives_iff hfollow hinv.1 hinv.2 hstep⟩
  obtain ⟨hfollows, -⟩ := hinv
  generalize s.floods = l at hfollows hR
  cases hfollows with
  | unheard _ _ => cases hR
  | heard _ _ hseqno => exact Option.some.inj hR ▸ hseqno

/-- One packet after the other, `none` when something goes wrong. -/
def Follower.advance (A : Application σ ε) (leader : Rimeaddr) :
    RoundEvent σ → Follower σ → Option (Follower σ)
  | .arrives r hops sender stale, s =>
    (s.node.step A (.receive .timesynch
      (Frame.received ⟨roundHeader leader r hops sender, []⟩ stale))).toOption.map fun t =>
        ⟨t, .replicate (forwards s.node t) r ++ s.floods⟩
  | .rest _, _ => none

theorem followerMachine_step_of_advance {e : RoundEvent σ} (h : s.advance A leader e = some s') :
    (followerMachine A leader).step e s s' := by
  cases e with
  | arrives r hops sender stale =>
    simp only [Follower.advance] at h
    obtain ⟨t, ht, rfl⟩ := Option.map_eq_some_iff.mp h
    exact ⟨toOption_eq_some.mp ht, rfl⟩
  | rest t => cases h

/-- A node that has just switched time synchronisation on. -/
def newFollower : Follower Unit := ⟨⟨Ec.opened.ecTimesynchOn, ()⟩, []⟩

/-- The packets of the given rounds of leader `1.0`. -/
def heardRounds (l : List ℕ) : List (RoundEvent Unit) := l.map (.arrives · 0 ⟨1, 0⟩ [])

/-- Rounds up to the wrap and beyond it, with repeated packets, late ones and a lost one. -/
theorem floods_newRounds : ∃ s, (followerMachine (.scripted ⟨2, 0⟩ .empty) ⟨1, 0⟩).ReachableWhen
    InOrder s ∧ s.floods = [257, 256, 255, 253] ∧ s.floods.Pairwise (· > ·) := by
  let A : Application Unit (List Effect) := .scripted ⟨2, 0⟩ .empty
  have h : ((Machine.run (fun e s => s.advance A ⟨1, 0⟩ e)
      (heardRounds [253, 253, 255, 254, 256, 256, 257, 256]) newFollower).map fun s =>
        decide (s.floods = [257, 256, 255, 253])) = some true := by decide +kernel
  obtain ⟨s, hrun, hfloods⟩ := Option.map_eq_some_iff.mp h
  have hreach : (followerMachine A ⟨1, 0⟩).ReachableWhen InOrder s :=
    Machine.ReachableWhen.of_run (b := fun s e => decide (InOrder s e))
      (fun _ _ => of_decide_eq_true) (fun _ _ _ => followerMachine_step_of_advance) _
      (.init ⟨rfl, by decide, rfl⟩) (by decide +kernel) hrun
  exact ⟨s, hreach, of_decide_eq_true hfloods,
    (floods_of_reachable (fun _ => show (1 : UInt8) ≤ 2 by decide) hreach).1.1⟩

/-- **A packet from before the wrap arrives again**, one round late: it is forwarded again, and
the node is back in its round. -/
theorem not_floods : ∃ s, (followerMachine (.scripted ⟨2, 0⟩ .empty) ⟨1, 0⟩).Reachable s ∧
    s.floods = [255, 256, 255] ∧ s.node.conn.ts.authoritySeqno = roundSeqno 255 := by
  let A : Application Unit (List Effect) := .scripted ⟨2, 0⟩ .empty
  have h : ((Machine.run (fun e s => s.advance A ⟨1, 0⟩ e) (heardRounds [255, 256, 255])
      newFollower).map fun s => decide (s.floods = [255, 256, 255] ∧
        s.node.conn.ts.authoritySeqno = roundSeqno 255)) = some true := by decide +kernel
  obtain ⟨s, hrun, hs⟩ := Option.map_eq_some_iff.mp h
  have hreach : (followerMachine A ⟨1, 0⟩).Reachable s :=
    Machine.Reachable.of_run (fun _ _ _ => followerMachine_step_of_advance) _
      (.init ⟨rfl, by decide, rfl⟩) hrun
  exact ⟨s, hreach, of_decide_eq_true hs⟩

end EmergencyNet
