import EmergencyNet.Lib.LeastValue
import EmergencyNet.Timesynch.Steps

/-!
# Electing a leader for time synchronisation

A connected network of nodes that synchronise.  Whoever starts a round leads it; a node that
hears of a better leader follows it and passes its packets on, and one that is better than a
leader it follows does not hear of usurps.  The levels only fall, and what a node follows is
known to its neighbours or on its way to them.

## Main definitions

* `TimesynchNet`, `TimesynchNet.State` — the network, its nodes and the frames under way.
* `TsEvent`, `TimesynchNet.machine` — its events.
* `TimesynchNet.NoTimeout`, `TimesynchNet.NoStaleUpdate` — no follower times out, and no timer
  event from before a node followed a better one is handled after it.
* `TimesynchNet.Elects` — the invariant of a run.

## Main results

* `TimesynchNet.leader_of_reachable` — **without stale updates levels never rise, and when nothing
  is under way any more every node follows the least address.**
* `TimesynchNet.not_leader_pairStale` — a stale update makes a follower lead again.
-/

namespace EmergencyNet

/-- A network of nodes that synchronise: who hears whom, and each node's address and
application. -/
structure TimesynchNet (ι σ ε : Type*) where
  graph : SimpleGraph ι
  addr : ι → Rimeaddr
  app : ι → Application σ ε
  addr_app : ∀ v s, (app v).addr s = addr v
  addr_lt : ∀ v, (addr v).authority < noAuthority

variable {ι σ ε : Type*} [DecidableEq ι]

namespace TimesynchNet

/-- The nodes, and for every node the frames it has sent that another has not received. -/
structure State (ι σ : Type*) where
  nodes : ι → EcNode σ
  air : ι → ι → List Frame

end TimesynchNet

/-- The events of the network. -/
inductive TsEvent (ι σ : Type*)
  /-- The application of a node calls `ec_timesynch_network`. -/
  | call (v : ι)
  /-- A timer of the time synchronisation expires. -/
  | expire (v : ι) (t : Timer)
  /-- The event of such a timer is handled; `radio` is whether `abc_send` succeeds. -/
  | timer (v : ι) (t : Timer) (radio : Bool)
  /-- Node `v` receives a frame of `u`; `stale` lies behind it in the buffer. -/
  | hears (u v : ι) (f : Frame) (stale : List UInt8)
  /-- A node does something that has nothing to do with time synchronisation. -/
  | rest (v : ι) (s : EcNode σ)

/-- The timers of the time synchronisation. -/
def Timer.IsTimesynch (t : Timer) : Prop := t = .timesynch ∨ t = .timesynchData

instance (t : Timer) : Decidable t.IsTimesynch := by unfold Timer.IsTimesynch; infer_instance

/-- A node has just switched time synchronisation on. -/
structure JustOn (c : Ec) : Prop where
  ts : c.ts = ⟨true, 0, Ec.authorityLevelMax, 0⟩
  queue : c.tsQueue = []
  trace : ∀ i ns a, Action.enqueue .timesynchData i ns a ∉ c.trace

/-- A node has done nothing that has to do with time synchronisation. -/
structure SameTimesynch (c c' : Ec) : Prop where
  ts : c'.ts = c.ts
  queue : c'.tsQueue = c.tsQueue
  timer : c'.timers .timesynch = c.timers .timesynch
  trace : ∃ l, c'.trace = l ++ c.trace ∧ tsFrames l = [] ∧
    ∀ i ns a, Action.enqueue .timesynchData i ns a ∉ l

namespace TimesynchNet

variable {net : TimesynchNet ι σ ε}

/-- The frames a node has sent on the way from `s` to `s'`. -/
def sent (s s' : EcNode σ) : List Frame :=
  tsFrames (s'.conn.trace.take (s'.conn.trace.length - s.conn.trace.length))

namespace State

/-- The network after a step of node `v` to `s'`: what it has sent is under way to all. -/
def after (N : State ι σ) (v : ι) (s' : EcNode σ) : State ι σ where
  nodes := Function.update N.nodes v s'
  air := Function.update N.air v fun w => N.air v w ++ sent (N.nodes v) s'

/-- The network after `v` has taken a frame of `u` from the air. -/
def received (N : State ι σ) (u v : ι) (f : Frame) : State ι σ where
  nodes := N.nodes
  air := Function.update N.air u (Function.update (N.air u) v ((N.air u v).erase f))

/-- No time synchronisation packet is queued or under way to a neighbour. -/
def Quiet (net : TimesynchNet ι σ ε) (N : State ι σ) : Prop :=
  (∀ v, (N.nodes v).conn.tsQueue = []) ∧ ∀ u v, net.graph.Adj u v → N.air u v = []

end State

/-- What a step of the network does to the node that takes it. -/
def nodeStep (net : TimesynchNet ι σ ε) (N : State ι σ) : TsEvent ι σ → EcNode σ → Prop
  | .call v, s' => EcCall.run (net.app v).toEcCallbacks .timesynchNetwork (N.nodes v) = .ok s'
  | .expire v t, s' => t.IsTimesynch ∧ ((N.nodes v).conn.timers t).active = true ∧
      (N.nodes v).step (net.app v) (.expire t) = .ok s'
  | .timer v t radio, s' => t.IsTimesynch ∧ 0 < ((N.nodes v).conn.timers t).posted ∧
      (N.nodes v).step (net.app v) (.timer t radio) = .ok s'
  | .hears _ v f stale, s' =>
    (N.nodes v).step (net.app v) (.receive .timesynch (f.received stale)) = .ok s'
  | .rest v s, s' => SameTimesynch (N.nodes v).conn s.conn ∧ s' = s

/-- The network as a transition system: at the start all nodes have just switched time
synchronisation on. -/
def machine (net : TimesynchNet ι σ ε) : Machine (State ι σ) (TsEvent ι σ) where
  init N := (∀ v, JustOn (N.nodes v).conn) ∧ ∀ u v, N.air u v = []
  step e N N' := ∃ s', net.nodeStep N e s' ∧ match e with
    | .call v | .expire v _ | .timer v _ _ | .rest v _ => N' = N.after v s'
    | .hears u v f _ => net.graph.Adj u v ∧ f ∈ N.air u v ∧ N' = (N.received u v f).after v s'

/-- No follower times out: the timer that makes a node lead expires only at a node that does not
follow a better one. -/
def NoTimeout (net : TimesynchNet ι σ ε) (N : State ι σ) : TsEvent ι σ → Prop
  | .expire v .timesynch => (net.addr v).authority ≤ (N.nodes v).conn.level
  | _ => True

/-- No update is stale: the event of that timer, posted while the node led, is not handled at a
node that has come to follow a better one.  Following it sets the timer anew, but does not take
the event back. -/
def NoStaleUpdate (net : TimesynchNet ι σ ε) (N : State ι σ) : TsEvent ι σ → Prop
  | .timer v .timesynch _ => ((N.nodes v).conn.timers .timesynch).listed = true →
    (net.addr v).authority ≤ (N.nodes v).conn.level
  | _ => True

/-- No follower times out, and no update is stale. -/
def Timely (net : TimesynchNet ι σ ε) (N : State ι σ) (e : TsEvent ι σ) : Prop :=
  net.NoTimeout N e ∧ net.NoStaleUpdate N e

/-! ### The invariant -/

/-- A packet that tells `v` of the level of `u`, or of a better one, is queued at `u` or under
way from there. -/
def Tells (N : State ι σ) (u v : ι) : Prop :=
  ∃ hdr, (hdr ∈ (N.nodes u).conn.tsQueue ∨ hdr ∈ (N.air u v).map Frame.hdr) ∧
    hdr.originator.authority ≤ (N.nodes u).conn.level

/-- The invariant of a run: every node synchronises, packets come from nodes of the network,
levels are those of nodes, and a neighbour of a node that follows a leader follows one as
good, or is about to hear of it. -/
structure Elects (net : TimesynchNet ι σ ε) (N : State ι σ) : Prop where
  nodes : ∀ v, (N.nodes v).conn.Synchronises (net.addr v)
  queued : ∀ v, ∀ hdr ∈ (N.nodes v).conn.tsQueue, hdr.originator ∈ Set.range net.addr
  air : ∀ u v, ∀ f ∈ N.air u v, f.hdr.originator ∈ Set.range net.addr
  level : ∀ v, (N.nodes v).conn.level = noAuthority ∨
    ∃ w, (N.nodes v).conn.level = (net.addr w).authority
  told : ∀ u v, net.graph.Adj u v → (N.nodes u).conn.level ≠ noAuthority →
    (N.nodes v).conn.level ≤ (N.nodes u).conn.level ∨ Tells N u v

variable {N : State ι σ} {s' : EcNode σ} {u v w : ι} {src : Rimeaddr → Prop}

theorem sent_eq {s : EcNode σ} {l : List Action} (h : s'.conn.trace = l ++ s.conn.trace) :
    sent s s' = tsFrames l := by
  rw [sent, h, List.length_append, Nat.add_sub_cancel, List.take_left']
  rfl

theorem after_nodes_self : (N.after v s').nodes v = s' := Function.update_self ..

theorem after_nodes_of_ne (h : w ≠ v) : (N.after v s').nodes w = N.nodes w :=
  Function.update_of_ne h ..

theorem after_air_self : (N.after v s').air v w = N.air v w ++ sent (N.nodes v) s' := by
  simp [State.after]

theorem after_air_of_ne (h : u ≠ v) : (N.after v s').air u w = N.air u w := by
  simp [State.after, h]

theorem received_air_self {f : Frame} : (N.received u v f).air u v = (N.air u v).erase f := by
  simp [State.received]

theorem received_air_of_ne {f : Frame} {a b : ι} (h : ¬ (a = u ∧ b = v)) :
    (N.received u v f).air a b = N.air a b := by
  by_cases ha : a = u
  · subst ha
    have hb : b ≠ v := fun hb => h ⟨rfl, hb⟩
    simp [State.received, hb]
  · simp [State.received, ha]

/-- A level is at most what it was. -/
theorem after_level_le (hchange : TsChange src (N.nodes v).conn s'.conn) (w : ι) :
    ((N.after v s').nodes w).conn.level ≤ (N.nodes w).conn.level := by
  by_cases hw : w = v
  · subst hw
    rw [after_nodes_self]
    exact hchange.level_le
  · rw [after_nodes_of_ne hw]

/-- What a node had queued or sent is queued or under way afterwards. -/
theorem queued_after (hchange : TsChange src (N.nodes v).conn s'.conn) {hdr : Header}
    (h : hdr ∈ (N.nodes v).conn.tsQueue ∨ hdr ∈ (N.air v w).map Frame.hdr) :
    hdr ∈ s'.conn.tsQueue ∨ hdr ∈ ((N.after v s').air v w).map Frame.hdr := by
  rw [after_air_self, List.map_append, List.mem_append]
  rcases h with h | h
  · cases hchange with
    | keeps _ hqueue _ _ => exact .inl (hqueue ▸ h)
    | takes hdr' _ _ _ hqueue _ _ => exact .inl (hqueue ▸ List.mem_append_left _ h)
    | sends f _ hqueue htrace hsent =>
      rw [hqueue] at h
      rcases List.mem_cons.mp h with rfl | h
      · rw [sent_eq htrace, hsent]
        exact .inr (.inr (by simp))
      · exact .inl h
  · exact .inr (.inl h)

section Origins

variable {s : EcNode σ} {P : Rimeaddr → Prop}

/-- What is queued after a step was queued before, or comes from where packets are taken. -/
theorem queued_origin (hchange : TsChange src s.conn s'.conn) (hsrc : ∀ o, src o → P o)
    (h : ∀ hdr ∈ s.conn.tsQueue, P hdr.originator) :
    ∀ hdr ∈ s'.conn.tsQueue, P hdr.originator := by
  intro hdr hmem
  cases hchange with
  | keeps _ hqueue _ _ => exact h hdr (hqueue ▸ hmem)
  | takes hdr' _ _ ho hqueue _ _ =>
    rw [hqueue] at hmem
    rcases List.mem_append.mp hmem with hmem | hmem
    · exact h hdr hmem
    · rw [List.mem_singleton.mp hmem]
      exact hsrc _ ho
  | sends f _ hqueue _ _ => exact h hdr (hqueue ▸ List.mem_cons_of_mem _ hmem)

/-- What is sent was queued. -/
theorem sent_origin (hchange : TsChange src s.conn s'.conn)
    (h : ∀ hdr ∈ s.conn.tsQueue, P hdr.originator) :
    ∀ f ∈ sent s s', P f.hdr.originator := by
  intro f hmem
  cases hchange with
  | keeps _ _ htrace hsent =>
    rw [sent_eq htrace, hsent] at hmem
    exact absurd hmem List.not_mem_nil
  | takes _ _ _ _ _ htrace hsent =>
    rw [sent_eq htrace, hsent] at hmem
    exact absurd hmem List.not_mem_nil
  | sends f' _ hqueue htrace hsent =>
    rw [sent_eq htrace, hsent] at hmem
    rw [List.mem_singleton.mp hmem]
    exact h f'.hdr (hqueue ▸ List.mem_cons_self)

/-- The level is the one before, or that of an originator. -/
theorem level_origin (hchange : TsChange src s.conn s'.conn) :
    s'.conn.level = s.conn.level ∨ ∃ o, src o ∧ s'.conn.level = o.authority := by
  cases hchange with
  | keeps hl _ _ _ => exact .inl hl
  | takes hdr hl _ ho _ _ _ => exact .inr ⟨hdr.originator, ho, hl⟩
  | sends _ hl _ _ _ => exact .inl hl

end Origins

/-- The node that takes a step has told its neighbours of its level, or tells them. -/
theorem tells_after (hchange : TsChange src (N.nodes v).conn s'.conn)
    (h : s'.conn.level = (N.nodes v).conn.level →
      (N.nodes w).conn.level ≤ (N.nodes v).conn.level ∨ Tells N v w) :
    ((N.after v s').nodes w).conn.level ≤ s'.conn.level ∨ Tells (N.after v s') v w := by
  have hkeeps : s'.conn.level = (N.nodes v).conn.level →
      ((N.after v s').nodes w).conn.level ≤ s'.conn.level ∨ Tells (N.after v s') v w := by
    intro hl
    rcases h hl with hle | ⟨hdr, hmem, hle⟩
    · exact .inl (hl ▸ (after_level_le hchange w).trans hle)
    · refine .inr ⟨hdr, ?_, ?_⟩
      · rw [after_nodes_self]
        exact queued_after hchange hmem
      · rwa [after_nodes_self, hl]
  cases hchange with
  | keeps hl _ _ _ => exact hkeeps hl
  | takes hdr hl _ _ hqueue _ _ =>
    refine .inr ⟨hdr, .inl ?_, ?_⟩ <;> rw [after_nodes_self]
    · rw [hqueue]
      exact List.mem_append_right _ List.mem_cons_self
    · exact hl.ge
  | sends _ hl _ _ _ => exact hkeeps hl

/-- A step of a node, in a network in which all is well but for what the node itself is told in
the step. -/
theorem Elects.after (hnodes : ∀ w, (N.nodes w).conn.Synchronises (net.addr w))
    (hqueued : ∀ w, ∀ hdr ∈ (N.nodes w).conn.tsQueue, hdr.originator ∈ Set.range net.addr)
    (hair : ∀ a b, ∀ f ∈ N.air a b, f.hdr.originator ∈ Set.range net.addr)
    (hlevel : ∀ w, (N.nodes w).conn.level = noAuthority ∨
      ∃ x, (N.nodes w).conn.level = (net.addr x).authority)
    (htold : ∀ a b, net.graph.Adj a b → (N.nodes a).conn.level ≠ noAuthority →
      (N.nodes b).conn.level ≤ (N.nodes a).conn.level ∨ Tells N a b ∨
        b = v ∧ s'.conn.level ≤ (N.nodes a).conn.level)
    (hchange : TsChange src (N.nodes v).conn s'.conn) (hsrc : ∀ o, src o → o ∈ Set.range net.addr)
    (hsync : s'.conn.Synchronises (net.addr v)) : Elects net (N.after v s') := by
  refine ⟨fun w => ?_, fun w => ?_, fun a b => ?_, fun w => ?_, fun a b hadj hne => ?_⟩
  · by_cases hw : w = v
    · subst hw
      rwa [after_nodes_self]
    · rw [after_nodes_of_ne hw]
      exact hnodes w
  · -- what is queued comes from nodes of the network
    by_cases hw : w = v
    · subst hw
      rw [after_nodes_self]
      exact queued_origin hchange hsrc (hqueued w)
    · rw [after_nodes_of_ne hw]
      exact hqueued w
  · by_cases ha : a = v
    · subst ha
      rw [after_air_self]
      intro f hmem
      rcases List.mem_append.mp hmem with hmem | hmem
      · exact hair a b f hmem
      · exact sent_origin (P := (· ∈ Set.range net.addr)) hchange (hqueued a) f hmem
    · rw [after_air_of_ne ha]
      exact hair a b
  · by_cases hw : w = v
    · subst hw
      rw [after_nodes_self]
      rcases level_origin hchange with hl | ⟨o, ho, hl⟩
      · exact hl ▸ hlevel w
      · obtain ⟨x, rfl⟩ := hsrc o ho
        exact .inr ⟨x, hl⟩
    · rw [after_nodes_of_ne hw]
      exact hlevel w
  · by_cases ha : a = v
    · -- the node that takes the step
      subst ha
      have hb : b ≠ a := hadj.ne'
      rw [after_nodes_self] at hne ⊢
      refine tells_after hchange fun hl => ?_
      rcases htold a b hadj (hl ▸ hne) with hle | htells | ⟨heq, -⟩
      · exact .inl hle
      · exact .inr htells
      · exact absurd heq hb
    · rw [after_nodes_of_ne ha] at hne ⊢
      rcases htold a b hadj hne with hle | ⟨hdr, hmem, hle⟩ | ⟨rfl, hle⟩
      · exact .inl ((after_level_le hchange b).trans hle)
      · refine .inr ⟨hdr, ?_, ?_⟩
        · rwa [after_nodes_of_ne ha, after_air_of_ne ha]
        · rwa [after_nodes_of_ne ha]
      · rw [after_nodes_self]
        exact .inl hle

/-- A step of a node that takes nothing from the air. -/
theorem Elects.own (h : Elects net N) (hchange : TsChange src (N.nodes v).conn s'.conn)
    (hsrc : ∀ o, src o → o ∈ Set.range net.addr) (hsync : s'.conn.Synchronises (net.addr v)) :
    Elects net (N.after v s') :=
  .after h.nodes h.queued h.air h.level
    (fun a b hadj hne => (h.told a b hadj hne).imp id .inl) hchange hsrc hsync

/-- A frame of `u` that `v` receives: what it told `v`, `v` knows afterwards. -/
theorem Elects.heard {f : Frame} (h : Elects net N) (hf : f ∈ N.air u v)
    (hchange : TsChange src (N.nodes v).conn s'.conn) (hsrc : ∀ o, src o → o ∈ Set.range net.addr)
    (hsync : s'.conn.Synchronises (net.addr v))
    (hle : s'.conn.level ≤ f.hdr.originator.authority) :
    Elects net ((N.received u v f).after v s') := by
  have hairs : ∀ a b g, g ∈ (N.received u v f).air a b → g ∈ N.air a b := by
    intro a b g hg
    by_cases hab : a = u ∧ b = v
    · obtain ⟨rfl, rfl⟩ := hab
      rw [received_air_self] at hg
      exact List.mem_of_mem_erase hg
    · rwa [received_air_of_ne hab] at hg
  refine .after (N := N.received u v f) h.nodes h.queued
    (fun a b g hg => h.air a b g (hairs a b g hg)) h.level (fun a b hadj hne => ?_)
    hchange hsrc hsync
  rcases h.told a b hadj hne with hlevel | ⟨hdr, hmem, hlevel⟩
  · exact .inl hlevel
  · rcases hmem with hmem | hmem
    · exact .inr (.inl ⟨hdr, .inl hmem, hlevel⟩)
    · obtain ⟨g, hg, rfl⟩ := List.mem_map.mp hmem
      by_cases hkept : g ∈ (N.received u v f).air a b
      · exact .inr (.inl ⟨g.hdr, .inr (List.mem_map_of_mem hkept), hlevel⟩)
      · -- only the frame that has been received has left the air
        have hab : a = u ∧ b = v := by
          by_contra hab
          rw [received_air_of_ne hab] at hkept
          exact hkept hg
        obtain ⟨rfl, rfl⟩ := hab
        have hgf : g = f := by
          by_contra hne
          rw [received_air_self] at hkept
          exact hkept ((List.mem_erase_of_ne hne).mpr hg)
        exact .inr (.inr ⟨rfl, hle.trans (hgf ▸ hlevel)⟩)

theorem Elects.step {e : TsEvent ι σ} {N' : State ι σ} (h : Elects net N)
    (hok : net.Timely N e) (hstep : net.machine.step e N N') :
    Elects net N' ∧ ∀ w, (N'.nodes w).conn.level ≤ (N.nodes w).conn.level := by
  have hrange : ∀ v o, o = net.addr v → o ∈ Set.range net.addr := fun v o ho => ⟨v, ho.symm⟩
  obtain ⟨s', hnode, hN'⟩ := hstep
  cases e with
  | call v =>
    obtain ⟨hchange, hsync⟩ := EcNode.ecTimesynchNetwork_change hnode (net.addr_app v _)
      (net.addr_lt v) (h.nodes v)
    subst hN'
    exact ⟨h.own hchange (hrange v) hsync, after_level_le hchange⟩
  | expire v t =>
    obtain ⟨ht, -, hrun⟩ := hnode
    obtain ⟨hchange, hsync⟩ := EcNode.expire_change (s := N.nodes v) ht
      (fun heq => by subst heq; exact hok.1) (h.nodes v)
    rw [← Except.ok.inj hrun] at hN'
    subst hN'
    exact ⟨h.own hchange (hrange v) hsync, after_level_le hchange⟩
  | timer v t radio =>
    obtain ⟨ht, -, hrun⟩ := hnode
    obtain ⟨hchange, hsync⟩ := EcNode.timer_change hrun ht (net.addr_app v _) (net.addr_lt v)
      (fun heq => by subst heq; exact hok.2) (h.nodes v)
    subst hN'
    exact ⟨h.own hchange (hrange v) hsync, after_level_le hchange⟩
  | hears u v f stale =>
    obtain ⟨hadj, hf, rfl⟩ := hN'
    obtain ⟨x, hx⟩ := h.air u v f hf
    have ho : f.hdr.originator.authority < noAuthority := hx ▸ net.addr_lt x
    obtain ⟨hchange, hsync, hle⟩ := EcNode.timesynchRecv_change hnode
      (net.addr_app v _) (net.addr_lt v) ho (h.nodes v)
    refine ⟨h.heard hf hchange (fun o => ?_) hsync hle,
      after_level_le (N := N.received u v f) hchange⟩
    rintro (rfl | rfl)
    · -- the node itself, if it usurps; else the originator of the frame
      exact ⟨v, rfl⟩
    · exact ⟨x, hx⟩
  | rest v s =>
    obtain ⟨hsame, rfl⟩ := hnode
    obtain ⟨l, htrace, hsent, hno⟩ := hsame.trace
    have hlevel : s'.conn.level = (N.nodes v).conn.level :=
      congrArg (fun ts => ts.authorityLevel.toNat) hsame.ts
    have hchange : TsChange (fun _ => False) (N.nodes v).conn s'.conn :=
      .keeps hlevel hsame.queue htrace hsent
    have hold := h.nodes v
    have hsync : s'.conn.Synchronises (net.addr v) := by
      refine ⟨by rw [hsame.ts]; exact hold.isOn, hlevel ▸ hold.level, fun hlt => ?_, ?_⟩
      · rw [hsame.timer]
        exact hold.active (hlevel ▸ hlt)
      · rw [hlevel]
        rintro ⟨i, ns, a, hmem⟩
        rw [htrace] at hmem
        exact hold.led ⟨i, ns, a, (List.mem_append.mp hmem).resolve_left (hno i ns a)⟩
    subst hN'
    exact ⟨h.own hchange (fun _ => False.elim) hsync, after_level_le hchange⟩

theorem Elects.init (h : net.machine.init N) : Elects net N := by
  obtain ⟨hnodes, hair⟩ := h
  have hlevel : ∀ v, (N.nodes v).conn.level = noAuthority := by
    intro v
    rw [Ec.level, (hnodes v).ts]
    rfl
  refine ⟨fun v => ?_, fun v hdr hmem => ?_, fun u v f hmem => ?_, fun v => .inl (hlevel v),
    fun u v _ hne => absurd (hlevel u) hne⟩
  · refine ⟨?_, .inl (hlevel v), fun hlt => ?_, ?_⟩
    · rw [(hnodes v).ts]
    · rw [hlevel v] at hlt
      exact absurd (net.addr_lt v) (not_lt.mpr hlt.le)
    · rintro ⟨i, ns, a, hmem⟩
      exact absurd hmem ((hnodes v).trace i ns a)
  · rw [(hnodes v).queue] at hmem
    exact absurd hmem List.not_mem_nil
  · rw [hair u v] at hmem
    exact absurd hmem List.not_mem_nil

/-- **A stale update makes the level of its node rise**, to that of the node itself. -/
theorem noStaleUpdate_of_level_le {e : TsEvent ι σ} {N' : State ι σ}
    (hstep : net.machine.step e N N')
    (hle : ∀ w, (N'.nodes w).conn.level ≤ (N.nodes w).conn.level) : net.NoStaleUpdate N e := by
  obtain ⟨s', hnode, hN'⟩ := hstep
  cases e with
  | timer v t radio =>
    obtain ⟨-, -, hrun⟩ := hnode
    cases t with
    | timesynch =>
      intro hlisted
      have hlevel := EcNode.level_timer hrun hlisted
      have hv := hle v
      subst hN'
      rwa [after_nodes_self, hlevel, net.addr_app v] at hv
    | _ => trivial
  | _ => trivial

theorem elects_of_reachable (h : net.machine.ReachableWhen net.Timely N) : Elects net N :=
  h.invariant (I := Elects net) (fun _ => Elects.init) fun _ _ _ h hok hstep => (h.step hok hstep).1

/-- **The least address leads**: along a run without follower timeouts and without stale updates,
no level rises in a step exactly if the step is no stale update, and when no time synchronisation
packet is queued or under way any more and some node has led, all nodes of a connected network
follow the least address. -/
theorem leader_of_reachable (h : net.machine.ReachableWhen net.Timely N)
    (hconn : net.graph.Connected) :
    (∀ e N', net.NoTimeout N e → net.machine.step e N N' →
      ((∀ w, (N'.nodes w).conn.ts.authorityLevel ≤ (N.nodes w).conn.ts.authorityLevel) ↔
        net.NoStaleUpdate N e)) ∧
    (N.Quiet net → (∃ v, (N.nodes v).conn.Led (net.addr v)) →
      ∀ w, IsLeast (Set.range fun v => (net.addr v).authority)
        (N.nodes w).conn.ts.authorityLevel.toNat) := by
  have hel := elects_of_reachable h
  refine ⟨fun e N' hok hstep => ⟨fun hle => ?_, fun hfresh w => ?_⟩, ?_⟩
  · exact noStaleUpdate_of_level_le hstep fun w => UInt8.le_iff_toNat_le.mp (hle w)
  · exact UInt8.le_iff_toNat_le.mpr ((hel.step ⟨hok, hfresh⟩ hstep).2 w)
  · rintro ⟨hqueue, hair⟩ ⟨v, i, ns, a, hled, -⟩ w
    have hholds : HoldsOwn (fun v => (net.addr v).authority) (fun v => (N.nodes v).conn.level)
        noAuthority := by
      refine ⟨fun v => (hel.nodes v).level, fun v => (hel.level v).imp id ?_⟩
      rintro ⟨x, hx⟩
      exact ⟨x, hx.symm⟩
    refine hholds.isLeast hconn.preconnected (fun v => ?_) (fun a b hadj hne => ?_)
      ((hel.nodes v).led ⟨i, ns, a, hled⟩) w
    · have := UInt8.toNat_lt (N.nodes v).conn.ts.authorityLevel
      unfold Ec.level noAuthority
      omega
    · refine (hel.told a b hadj hne).resolve_right ?_
      rintro ⟨hdr, hmem, -⟩
      rw [hqueue a, hair a b hadj] at hmem
      simp at hmem

/-! ### Two nodes -/

instance (N : State ι σ) (e : TsEvent ι σ) : Decidable (net.NoTimeout N e) := by
  unfold NoTimeout
  split <;> infer_instance

instance (N : State ι σ) (e : TsEvent ι σ) : Decidable (net.NoStaleUpdate N e) := by
  unfold NoStaleUpdate
  split <;> infer_instance

instance (N : State ι σ) (e : TsEvent ι σ) : Decidable (net.Timely N e) := by
  unfold Timely
  infer_instance

/-- One event, `none` when it cannot occur or the code that handles it goes wrong. -/
def advance (net : TimesynchNet ι σ ε) [DecidableRel net.graph.Adj] :
    TsEvent ι σ → State ι σ → Option (State ι σ)
  | .call v, N =>
    (EcCall.run (net.app v).toEcCallbacks .timesynchNetwork (N.nodes v)).toOption.map (N.after v)
  | .expire v t, N =>
    if t.IsTimesynch ∧ ((N.nodes v).conn.timers t).active = true then
      ((N.nodes v).step (net.app v) (.expire t)).toOption.map (N.after v)
    else none
  | .timer v t radio, N =>
    if t.IsTimesynch ∧ 0 < ((N.nodes v).conn.timers t).posted then
      ((N.nodes v).step (net.app v) (.timer t radio)).toOption.map (N.after v)
    else none
  | .hears u v f stale, N =>
    if net.graph.Adj u v ∧ f ∈ N.air u v then
      ((N.nodes v).step (net.app v) (.receive .timesynch (f.received stale))).toOption.map
        ((N.received u v f).after v)
    else none
  | .rest _ _, _ => none

theorem step_of_advance [DecidableRel net.graph.Adj] {e : TsEvent ι σ} {N' : State ι σ}
    (h : net.advance e N = some N') : net.machine.step e N N' := by
  have hmap : ∀ {x : Except Fault (EcNode σ)} {g : EcNode σ → State ι σ},
      x.toOption.map g = some N' → ∃ s', x = .ok s' ∧ N' = g s' := by
    intro x g hx
    obtain ⟨s', hs, heq⟩ := Option.map_eq_some_iff.mp hx
    exact ⟨s', toOption_eq_some.mp hs, heq.symm⟩
  cases e with
  | call v => exact hmap h
  | expire v t =>
    simp only [advance] at h
    split at h
    · next hen =>
      obtain ⟨s', hs, hN'⟩ := hmap h
      exact ⟨s', ⟨hen.1, hen.2, hs⟩, hN'⟩
    · cases h
  | timer v t radio =>
    simp only [advance] at h
    split at h
    · next hen =>
      obtain ⟨s', hs, hN'⟩ := hmap h
      exact ⟨s', ⟨hen.1, hen.2, hs⟩, hN'⟩
    · cases h
  | hears u v f stale =>
    simp only [advance] at h
    split at h
    · next hen =>
      obtain ⟨s', hs, hN'⟩ := hmap h
      exact ⟨s', hs, hen.1, hen.2, hN'⟩
    · cases h
  | rest v s => cases h

/-- Nodes `1.0` and `2.0`, each of which hears the other. -/
def pair : TimesynchNet Bool Unit (List Effect) where
  graph := ⊤
  addr v := if v then ⟨2, 0⟩ else ⟨1, 0⟩
  app v := .scripted (if v then ⟨2, 0⟩ else ⟨1, 0⟩) .empty
  addr_app _ _ := rfl
  addr_lt := by decide

instance : DecidableRel pair.graph.Adj := fun u v => decidable_of_iff (u ≠ v) Iff.rfl

/-- Both have just switched time synchronisation on. -/
def pairOn : State Bool Unit where
  nodes _ := ⟨Ec.opened.ecTimesynchOn, ()⟩
  air _ _ := []

/-- Node `v` sends its oldest time synchronisation packet. -/
def pairSends (v : Bool) : List (TsEvent Bool Unit) :=
  [.expire v .timesynchData, .timer v .timesynchData true]

/-- The packet of a leader as it is sent by node `sender`. -/
def pairFrame (hops : UInt8) (leader sender : Rimeaddr) : Frame :=
  ⟨initBroadcastPacket PacketFlags.timesynch hops leader sender 0, []⟩

/-- Node `2.0` leads, node `1.0` usurps, and node `2.0` follows it. -/
def pairUsurps : List (TsEvent Bool Unit) :=
  .call true :: pairSends true ++ .hears true false (pairFrame 0 ⟨2, 0⟩ ⟨2, 0⟩) [] ::
    pairSends false ++ .hears false true (pairFrame 0 ⟨1, 0⟩ ⟨1, 0⟩) [] ::
    pairSends true ++ [.hears true false (pairFrame 1 ⟨1, 0⟩ ⟨2, 0⟩) []]

/-- The better of two nodes that have both led. -/
theorem leader_pairUsurps : ∃ N, pair.machine.ReachableWhen pair.Timely N ∧ N.Quiet pair ∧
    (∃ v, (N.nodes v).conn.Led (pair.addr v)) ∧
    ∀ w, IsLeast (Set.range fun v => (pair.addr v).authority)
      (N.nodes w).conn.ts.authorityLevel.toNat := by
  let led := Action.enqueue .timesynchData 0 none ⟨⟨2, 0⟩, ⟨2, 0⟩, 0, 0, []⟩
  have h : ((Machine.run pair.advance pairUsurps pairOn).map fun N =>
      decide (((∀ v, (N.nodes v).conn.tsQueue = []) ∧ ∀ u v, u ≠ v → N.air u v = []) ∧
        led ∈ (N.nodes true).conn.trace)) = some true := by decide +kernel
  obtain ⟨N, hrun, hN⟩ := Option.map_eq_some_iff.mp h
  obtain ⟨hquiet, hled⟩ := of_decide_eq_true hN
  have hinit : pair.machine.init pairOn :=
    ⟨fun _ => ⟨rfl, rfl, fun _ _ _ => List.not_mem_nil⟩, fun _ _ => rfl⟩
  have hreach : pair.machine.ReachableWhen pair.Timely N :=
    Machine.ReachableWhen.of_run (b := fun N e => decide (pair.Timely N e))
      (fun _ _ => of_decide_eq_true) (fun _ _ _ => step_of_advance) _ (.init hinit)
      (by decide +kernel) hrun
  have hsome : ∃ v, (N.nodes v).conn.Led (pair.addr v) := ⟨true, _, _, _, hled, rfl⟩
  exact ⟨N, hreach, hquiet, hsome,
    (leader_of_reachable hreach SimpleGraph.connected_top).2 hquiet hsome⟩

/-- Node `2.0` leads, node `1.0` usurps, and the timer of node `2.0` expires before it hears of
node `1.0`; the event is handled when it has, and has passed the packet on. -/
def pairStale : List (TsEvent Bool Unit) :=
  .call true :: pairSends true ++ .hears true false (pairFrame 0 ⟨2, 0⟩ ⟨2, 0⟩) [] ::
    pairSends false ++ .expire true .timesynch ::
    .hears false true (pairFrame 0 ⟨1, 0⟩ ⟨1, 0⟩) [] ::
    pairSends true ++ .hears true false (pairFrame 1 ⟨1, 0⟩ ⟨2, 0⟩) [] ::
    .timer true .timesynch true ::
    pairSends true ++
    [.hears true false ⟨initBroadcastPacket PacketFlags.timesynch 0 ⟨2, 0⟩ ⟨2, 0⟩ 1, []⟩ []]

/-- **A stale update**: no follower has timed out, nothing is under way any more, and node `2.0`
leads itself while node `1.0` leads. -/
theorem not_leader_pairStale : ∃ N, pair.machine.ReachableWhen pair.NoTimeout N ∧ N.Quiet pair ∧
    (∃ v, (N.nodes v).conn.Led (pair.addr v)) ∧
    (N.nodes true).conn.ts.authorityLevel = 2 ∧ (N.nodes false).conn.ts.authorityLevel = 1 ∧
    ¬ ∀ w, IsLeast (Set.range fun v => (pair.addr v).authority)
      (N.nodes w).conn.ts.authorityLevel.toNat := by
  let led := Action.enqueue .timesynchData 0 none ⟨⟨2, 0⟩, ⟨2, 0⟩, 0, 0, []⟩
  have h : ((Machine.run pair.advance pairStale pairOn).map fun N =>
      decide (((∀ v, (N.nodes v).conn.tsQueue = []) ∧ ∀ u v, u ≠ v → N.air u v = []) ∧
        led ∈ (N.nodes true).conn.trace ∧ (N.nodes true).conn.ts.authorityLevel = 2 ∧
          (N.nodes false).conn.ts.authorityLevel = 1)) = some true := by decide +kernel
  obtain ⟨N, hrun, hN⟩ := Option.map_eq_some_iff.mp h
  obtain ⟨hquiet, hled, htrue, hfalse⟩ := of_decide_eq_true hN
  have hinit : pair.machine.init pairOn :=
    ⟨fun _ => ⟨rfl, rfl, fun _ _ _ => List.not_mem_nil⟩, fun _ _ => rfl⟩
  have hreach : pair.machine.ReachableWhen pair.NoTimeout N :=
    Machine.ReachableWhen.of_run (b := fun N e => decide (pair.NoTimeout N e))
      (fun _ _ => of_decide_eq_true) (fun _ _ _ => step_of_advance) _ (.init hinit)
      (by decide +kernel) hrun
  refine ⟨N, hreach, hquiet, ⟨true, _, _, _, hled, rfl⟩, htrue, hfalse, fun hall => ?_⟩
  have hleast := (hall true).2 (Set.mem_range_self false)
  rw [htrue] at hleast
  exact absurd hleast (by decide)

end TimesynchNet

end EmergencyNet
