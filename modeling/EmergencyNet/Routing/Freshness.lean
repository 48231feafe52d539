import EmergencyNet.Routing.BestNeighbor

/-!
# The advertised path is the current one

Neighbours route on the path a node last announced, so that path should be the one
`best_neighbor_bp_to_our_bp` computes from the node's state.  Four things feed it: the entry
of the best neighbour, which of them is the best one, whether the node burns and what its
sensor reads.  Each has an event that changes it and announces nothing.

## Main definitions

* `advertMachine` — the node together with the path it last announced.
* `Node.FreshGuard` — the condition on each event of a run.

## Main results

* `Node.fresh_of_reachable` — **in a guarded run the last announced path is the current
  one.**
* `Node.not_fresh` — a burning node whose reading jumps again.
-/

namespace EmergencyNet

/-- The path announced last, given the one announced before. -/
def lastAdvert (old : Option NeighborNodeBestPath) (ads : List PathPacket) :
    Option NeighborNodeBestPath :=
  (ads.getLast?.map PathPacket.bp).or old

@[simp] theorem lastAdvert_nil (old : Option NeighborNodeBestPath) : lastAdvert old [] = old := rfl

@[simp] theorem lastAdvert_singleton (old : Option NeighborNodeBestPath) (p : PathPacket) :
    lastAdvert old [p] = some p.bp := rfl

theorem lastAdvert_cons (old : Option NeighborNodeBestPath) (p : PathPacket) (l : List PathPacket) :
    lastAdvert old (p :: l) = lastAdvert (some p.bp) l := by
  cases l with
  | nil => rfl
  | cons q l =>
    simp only [lastAdvert, List.getLast?_cons_cons,
      List.getLast?_eq_some_getLast (List.cons_ne_nil q l), Option.map_some, Option.some_or]

/-- Announcing `l` and then `m`. -/
theorem lastAdvert_append (old : Option NeighborNodeBestPath) (l m : List PathPacket) :
    lastAdvert old (l ++ m) = lastAdvert (lastAdvert old l) m := by
  induction l generalizing old with
  | nil => rfl
  | cons p l ih => rw [List.cons_append, lastAdvert_cons, lastAdvert_cons, ih]

theorem lastAdvert_eq_none {old : Option NeighborNodeBestPath} {l : List PathPacket} :
    lastAdvert old l = none ↔ old = none ∧ l = [] := by
  simp [lastAdvert, Option.or_eq_none_iff, and_comm]

/-- The node together with the path it last announced to its neighbours. -/
def advertMachine :
    Machine (Node × Option NeighborNodeBestPath) (AppEvent × ClockReading) where
  init σ := nodeMachine.init σ.1 ∧ σ.2 = none
  step e σ σ' := nodeMachine.step e σ.1 σ'.1 ∧ σ'.2 = lastAdvert σ.2 (adverts σ'.1.calls)

namespace Node

variable {s t s' : Node} {i j : ℕ} {p : PathPacket} {last : Option NeighborNodeBestPath}

/-! ### The guard -/

/-- If the sender of `p` in slot `i` is the best neighbour, then the node switches or the
path through the sender is the old one. -/
def KeepsFresh (i : ℕ) (p : PathPacket) (s : Node) : Prop :=
  s.KeepsBest i p ∨ (s.pathWritten i p).bestNeighborBpToOurBp = s.bestNeighborBpToOurBp

/-- The condition on an event under which what was announced stays current: a worsening of
the best neighbour is announced; a burning node's reading does not jump to another
emergency; what a fire or an initialisation announces has neighbours to go to; and a new
neighbour does not take the slot of a best neighbour that is gone. -/
def FreshGuard (s : Node) (e : AppEvent × ClockReading) : Prop :=
  (e.1.Initializes → s.state.isExitNode = true → s.ns.used ≠ []) ∧
  (s.state.hasSentNodeInfo = true → s.bpn ≠ .null →
    match e.1 with
    | .neighborRecv r => s.Listens →
        ∀ i ∈ neighborsFindNeighborNode s.ns r.sender, ∀ p ∈ advertOf r.data, s.KeepsFresh i p
    | .emergencyCheck light => s.abruptMetricChangePoll light = true →
        (s.state.isBurning = true → isEmergency light = false) ∧
        (s.state.isBurning = true ∨ isEmergency light = true → s.ns.used ≠ [])
    | .mcUcRecv _ => ∀ i, s.bpn = .slot i → s.ns.unused.head? ≠ some i
    | _ => True)

instance (i : ℕ) (p : PathPacket) (s : Node) : Decidable (s.KeepsFresh i p) := by
  unfold KeepsFresh; infer_instance

instance (s : Node) (e : AppEvent × ClockReading) : Decidable (s.FreshGuard e) := by
  unfold FreshGuard
  obtain ⟨ev, c⟩ := e
  rcases ev <;> infer_instance

/-! ### The invariant -/

/-- A burning node blinks. -/
def BurnsBlinking (s : Node) : Prop := s.state.isBurning = true → s.state.isBlinking = true

/-- Once the node info is sent, the last announced path is the current one.  The other
fields say that an exit is its own best neighbour and that a node knows its neighbours
before it announces anything. -/
structure FreshInv (last : Option NeighborNodeBestPath) (s : Node) : Prop where
  fresh : s.state.hasSentNodeInfo = true → s.bpn ≠ .null → last = some s.bestNeighborBpToOurBp
  exit : s.state.hasSentNodeInfo = true → s.state.isExitNode = true → s.bpn = .exitNode
  ecNs : s.state.hasSentNodeInfo = true ∨ s.state.isExitNode = true → s.ecNs = true

theorem FreshInv.of_routing (h : FreshInv last s) (hr : SameRouting s t) : FreshInv last t where
  fresh := by
    rw [hr.hasSentNodeInfo, hr.bpn, hr.ourBp]
    exact h.fresh
  exit := by
    rw [hr.hasSentNodeInfo, hr.isExitNode, hr.bpn]
    exact h.exit
  ecNs := by
    rw [hr.hasSentNodeInfo, hr.isExitNode, hr.ecNs]
    exact h.ecNs

/-- A fire lights up the node that senses it, and the light goes out only when the node is set
up anew. -/
theorem BurnsBlinking.outcome {ev : AppEvent} {ads : List PathPacket} (h : BurnsBlinking s)
    (ho : Outcome s ev s' ads) : BurnsBlinking s' := by
  have hroute : ∀ {t : Node}, SameRoute t s' → t.state.isBurning = s.state.isBurning →
      t.state.isBlinking = s.state.isBlinking → BurnsBlinking s' := by
    intro t hr hburn hblink hb
    rw [hr.isBurning, hburn] at hb
    exact hr.isBlinking (hblink.trans (h hb))
  cases ho with
  | configured _ hc => exact fun hb => absurd (hc.isBurning.symm.trans hb) Bool.false_ne_true
  | resetMode _ hr hblink => exact fun hb => hblink (h (hr.isBurning ▸ hb))
  | sensedSent _ _ _ _ hblink => exact fun _ => hblink
  | quiet hr => exact hroute hr rfl rfl
  | newNeighbor _ hr => exact hroute hr rfl rfl
  | keepAlive _ hr => exact hroute hr rfl rfl
  | initialized _ _ _ hr => exact hroute hr rfl rfl
  | path _ _ _ hpath =>
    cases hpath with
    | first _ _ hr => exact hroute hr rfl rfl
    | switched _ _ hr => exact hroute hr rfl rfl
    | kept _ _ hr => exact hroute hr rfl rfl
  | sensed _ _ hr => exact hroute hr rfl rfl
  | dropped _ _ hr => exact hroute hr rfl rfl
  | droppedSwitched _ _ _ hr => exact hroute hr rfl rfl

/-- Where there are neighbours, what is announced is announced. -/
theorem announce_of_ne_nil (hns : s.ecNs = true) (hne : s.ns.used ≠ []) (p : PathPacket) :
    s.announce p = [p] := if_pos ⟨hns, hne⟩

/-- An exit chooses itself. -/
theorem toBest_bpn_exit (hexit : s.state.isExitNode = true) : s.toBest.bpn = .exitNode :=
  findBest_exit hexit

/-- The path a node advertises depends on the metric, the hops, the distance and the address
of its best neighbour, and on the fire. -/
theorem ourBp_congr (hbpn : t.bpn = s.bpn)
    (hderef : ∃ b, t.deref s.bpn = (s.deref s.bpn).setHasSentKeepAlive b)
    (hweigh : ∀ d, t.weighMetrics d = s.weighMetrics d) :
    t.bestNeighborBpToOurBp = s.bestNeighborBpToOurBp := by
  obtain ⟨b, hd⟩ := hderef
  simp only [bestNeighborBpToOurBp, hbpn, hweigh, hd]
  rfl

/-- The same when the table alone has changed, and in the slot of the best neighbour at most
the flag. -/
theorem ourBp_withTable {ns : Neighbors}
    (hitem : ∀ i, s.bpn = .slot i → ∃ b, ns.item i = (s.ns.item i).setHasSentKeepAlive b) :
    (s.withTable ns).bestNeighborBpToOurBp = s.bestNeighborBpToOurBp := by
  refine ourBp_congr rfl ?_ fun _ => rfl
  cases hb : s.bpn with
  | slot i => exact hitem i hb
  | null => exact ⟨_, rfl⟩
  | exitNode => exact ⟨_, rfl⟩
  | maxNode => exact ⟨_, rfl⟩

/-- The sensor matters in a fire only. -/
theorem ourBp_sensed (hburn : s.state.isBurning = false) (light : UInt16) :
    (setBurning false (s.sensed light)).bestNeighborBpToOurBp = s.bestNeighborBpToOurBp := by
  refine ourBp_congr rfl ?_ fun d => ?_
  · cases s.bpn with
    | slot i => exact ⟨(s.ns.item i).hasSentKeepAlive, rfl⟩
    | null => exact ⟨_, rfl⟩
    | exitNode => exact ⟨s.exitNode.hasSentKeepAlive, rfl⟩
    | maxNode => exact ⟨s.maxNode.hasSentKeepAlive, rfl⟩
  · simp only [weighMetrics, hburn, setBurning, Bool.false_eq_true, if_false]

/-- A path packet of another neighbour does not change the advertised path. -/
theorem ourBp_pathWritten_of_ne (h : s.bpn ≠ .slot i) :
    (s.pathWritten i p).bestNeighborBpToOurBp = s.bestNeighborBpToOurBp := by
  refine ourBp_withTable fun j hj => ⟨(s.ns.item j).hasSentKeepAlive, ?_⟩
  have hne : j ≠ i := fun hji => h (hji ▸ hj)
  exact QueueBuffer.set_item_of_ne _ _ hne

/-- **A packet after which nothing is announced leaves the advertised path as it was.** -/
theorem fresh_of_pathKept (h : FreshInv last s) (hsent : s.state.hasSentNodeInfo = true)
    (hkeep : s.KeepsFresh i p)
    (hsw : ¬ (s.pathWritten i p).Switches (.slot i) ∨
      s.state.hasSentNodeInfo = true ∧ s.state.isExitNode = true) :
    (s.pathWritten i p).bestNeighborBpToOurBp = s.bestNeighborBpToOurBp := by
  by_cases hbpn : s.bpn = .slot i
  · rcases hkeep with hkeep | hsame
    · -- the best neighbour's own packet makes the node switch
      exfalso
      have hnsw : ¬ (s.pathWritten i p).Switches (.slot i) := by
        rcases hsw with hsw | ⟨-, hexit⟩
        · exact hsw
        · exact absurd (hbpn.symm.trans (h.exit hsent hexit)) NeighborPtr.noConfusion
      exact hnsw (switches_of_keepsBest hbpn hkeep)
    · exact hsame
  · exact ourBp_pathWritten_of_ne hbpn

/-! ### Every event -/

/-- What is announced is what the last advertised path becomes. -/
theorem lastAdvert_announce (hns : s.ecNs = true) (hne : s.ns.used ≠ []) (p : PathPacket) :
    lastAdvert last (s.announce p) = some p.bp := by
  rw [announce_of_ne_nil hns hne, lastAdvert_singleton]

theorem used_ne_nil_of_find {ns : Neighbors} {addr : Rimeaddr}
    (h : neighborsFindNeighborNode ns addr = some i) : ns.used ≠ [] :=
  List.ne_nil_of_mem (mem_of_neighborsFindNeighborNode h).1

/-- A reading that is recorded and nothing more leaves the advertised path as it was. -/
theorem FreshInv.sensed (h : FreshInv last s) (light : UInt16) (hbb : BurnsBlinking s)
    (hg : s.state.hasSentNodeInfo = true → s.bpn ≠ .null → s.state.isBurning = true →
      isEmergency light = false)
    (hkeep : isEmergency light = true ∧ (s.bpn = .null ∨ s.state.isBurning = true) ∨
      isEmergency light = false ∧ s.state.isBlinking = false) :
    FreshInv last (s.sensed light) := by
  refine ⟨fun hs hn => ?_, h.exit, h.ecNs⟩
  have hburn : s.state.isBurning = false := by
    rcases Bool.eq_false_or_eq_true s.state.isBurning with hburn | hburn
    · exfalso
      rcases hkeep with ⟨hem, -⟩ | ⟨-, hblink⟩
      · exact absurd (hem.symm.trans (hg hs hn hburn)) (by decide)
      · exact absurd (hblink.symm.trans (hbb hburn)) (by decide)
    · exact hburn
  have hsame : SameRouting (setBurning false (s.sensed light)) (s.sensed light) := by
    refine ⟨?_⟩
    change (s.sensed light).routing = { (s.sensed light).routing with isBurning := false }
    rw [← hburn]
    rfl
  rw [h.fresh hs hn, hsame.ourBp, ourBp_sensed hburn]

/-- A reading after which the node announces its path. -/
theorem FreshInv.sensedSent (h : FreshInv last s) (light : UInt16)
    (hg : s.state.hasSentNodeInfo = true → s.bpn ≠ .null →
      s.state.isBurning = true ∨ isEmergency light = true → s.ns.used ≠ []) :
    FreshInv (lastAdvert last (s.announce (.bestPathUpdate
        (setBurning (isEmergency light) (s.sensed light)).bestNeighborBpToOurBp)))
      (setBurning (isEmergency light) (s.sensed light)) := by
  refine ⟨fun hs hn => ?_, h.exit, h.ecNs⟩
  have hns : s.ecNs = true := h.ecNs (Or.inl hs)
  by_cases hne : s.ns.used = []
  · -- nothing is sent, but nothing has changed either
    have hcalm : ¬ (s.state.isBurning = true ∨ isEmergency light = true) := fun hc =>
      hg hs hn hc hne
    rw [not_or, Bool.not_eq_true, Bool.not_eq_true] at hcalm
    rw [hcalm.2, ourBp_sensed hcalm.1]
    have hnone : s.announce (.bestPathUpdate s.bestNeighborBpToOurBp) = [] :=
      if_neg fun h => h.2 hne
    rw [hnone, lastAdvert_nil]
    exact h.fresh hs hn
  · exact lastAdvert_announce hns hne _

/-- A keep-alive check after which nothing is announced. -/
theorem FreshInv.dropped (h : FreshInv last s) : FreshInv last s.dropSilent := by
  have hbpn : s.dropSilent.bpn ≠ .null → s.dropSilent.bpn = s.bpn := by
    intro hn
    rcases s.sweep_bpn with heq | ⟨-, hnull⟩
    · exact heq
    · exact absurd hnull hn
  refine ⟨fun hs hn => ?_, fun hs hx => ?_, h.ecNs⟩
  · have hsame := hbpn hn
    rw [h.fresh hs (hsame ▸ hn)]
    refine congrArg some (ourBp_congr hsame ?_ fun _ => rfl).symm
    cases s.bpn with
    | slot i => exact s.dropSilent_item i
    | null => exact ⟨_, rfl⟩
    | exitNode => exact ⟨_, rfl⟩
    | maxNode => exact ⟨_, rfl⟩
  · rcases s.sweep_bpn with heq | ⟨⟨i, -, hi, -⟩, -⟩
    · exact heq.trans (h.exit hs hx)
    · exact absurd (hi.symm.trans (h.exit hs hx)) NeighborPtr.noConfusion

/-- A path packet at a node with neighbours. -/
theorem FreshInv.path {ads : List PathPacket} (h : FreshInv last s) (hns : s.ecNs = true)
    (hne : s.ns.used ≠ [])
    (hg : s.state.hasSentNodeInfo = true → s.bpn ≠ .null → s.KeepsFresh i p)
    (hpath : PathOutcome s i p s' ads) : FreshInv (lastAdvert last ads) s' := by
  cases hpath with
  | first _ _ hr =>
    have hb : FreshInv (lastAdvert last (s.announce (.nodeInfo s.coordinateNode
        (s.pathWritten i p).toBest.bestNeighborBpToOurBp)))
        (s.pathWritten i p).toBest.sentNodeInfo :=
      ⟨fun _ _ => lastAdvert_announce hns hne _,
        fun _ hx => toBest_bpn_exit (s := s.pathWritten i p) hx, fun _ => hns⟩
    exact hb.of_routing hr.toSameRouting
  | switched _ _ hr =>
    have hb : FreshInv (lastAdvert last (s.announce (.bestPathUpdate
        (s.pathWritten i p).toBest.bestNeighborBpToOurBp))) (s.pathWritten i p).toBest :=
      ⟨fun _ _ => lastAdvert_announce hns hne _,
        fun _ hx => toBest_bpn_exit (s := s.pathWritten i p) hx, fun _ => hns⟩
    exact hb.of_routing hr.toSameRouting
  | kept _ hsw hr =>
    have hb : FreshInv last (s.pathWritten i p) := by
      refine ⟨fun hs hn => ?_, h.exit, h.ecNs⟩
      rw [h.fresh hs hn]
      exact congrArg some (fresh_of_pathKept h hs (hg hs hn) hsw).symm
    exact hb.of_routing hr.toSameRouting

/-- The invariant is kept by every guarded event. -/
theorem FreshInv.outcome {e : AppEvent × ClockReading} {ads : List PathPacket}
    (h : FreshInv last s) (hbb : BurnsBlinking s) (hen : s.Enabled e.1) (hg : s.FreshGuard e)
    (ho : Outcome s e.1 s' ads) : FreshInv (lastAdvert last ads) s' := by
  obtain ⟨ev, c⟩ := e
  obtain ⟨hinit, hg⟩ := hg
  cases ho with
  | quiet hr => exact h.of_routing hr.toSameRouting
  | resetMode _ hr _ => exact h.of_routing hr
  | configured _ hc =>
    refine ⟨fun hs => ?_, fun hs => ?_, fun _ => hc.ecNs⟩
    all_goals exact absurd (hc.hasSentNodeInfo.symm.trans hs) Bool.false_ne_true
  | @newNeighbor r _ ns hns hr =>
    obtain ⟨b, hb, hused, hitem, hhead⟩ := QueueBuffer.pushFront_eq_some hns
    have hb : FreshInv last (s.withTable ns) := by
      refine ⟨fun hs hn => ?_, h.exit, h.ecNs⟩
      rw [h.fresh hs hn]
      refine congrArg some (ourBp_withTable fun j hj => ⟨(s.ns.item j).hasSentKeepAlive, ?_⟩).symm
      -- the guard: the new entry is not put into the slot of the best neighbour
      have hne : j ≠ b := fun hjb => hg hs hn j hj (hjb ▸ hhead)
      rw [hitem, Function.update_of_ne hne]
      rfl
    exact hb.of_routing hr.toSameRouting
  | @keepAlive r _ i hi hr =>
    have hb : FreshInv last (s.withEntry i ((s.ns.item i).setHasSentKeepAlive true)) := by
      refine ⟨fun hs hn => ?_, h.exit, h.ecNs⟩
      rw [h.fresh hs hn]
      exact congrArg some (ourBp_withTable fun j _ => keepAlive_item (s := s) i j).symm
    exact hb.of_routing hr.toSameRouting
  | initialized hev hexit hsent hr =>
    -- an exit announces itself, and is its own best path from then on
    have hns := h.ecNs (Or.inr hexit)
    have hb : FreshInv (lastAdvert last (s.announce
        (.nodeInfo s.coordinateNode s.toBest.bestNeighborBpToOurBp))) s.toBest.sentNodeInfo :=
      ⟨fun _ _ => lastAdvert_announce hns (hinit hev hexit) _, fun _ _ => toBest_bpn_exit hexit,
        fun _ => hns⟩
    exact hb.of_routing hr.toSameRouting
  | @path r _ _ i p hon hp hi hpath =>
    exact h.path hen.1 (used_ne_nil_of_find hi) (fun hs hn => hg hs hn hon i hi p hp) hpath
  | @sensed light _ habrupt hkeep hr =>
    have hb := h.sensed light hbb (fun hs hn => (hg hs hn habrupt).1) hkeep
    exact hb.of_routing hr.toSameRouting
  | @sensedSent light _ habrupt _ _ hr _ =>
    have hb := h.sensedSent light fun hs hn => (hg hs hn habrupt).2
    exact hb.of_routing hr.toSameRouting
  | dropped _ _ hr => exact h.dropped.of_routing hr.toSameRouting
  | droppedSwitched hblink hneed hsw hr =>
    have hne := dropSilent_used_ne_nil hneed
    have hb : FreshInv (lastAdvert last (s.dropSilent.announce (.bestPathUpdate
        s.dropSilent.toBest.bestNeighborBpToOurBp))) s.dropSilent.toBest :=
      ⟨fun hs _ => lastAdvert_announce (s := s.dropSilent) (h.ecNs (Or.inl hs)) hne _,
        fun _ hx => toBest_bpn_exit (s := s.dropSilent) hx, h.ecNs⟩
    exact hb.of_routing hr.toSameRouting

theorem burnsBlinking_of_reachable (h : nodeMachine.Reachable s) : BurnsBlinking s := by
  refine h.invariant ?_ ?_
  · rintro s ⟨addr, flash, rfl, -⟩
    cases flash with
    | none => exact fun hb => absurd hb Bool.false_ne_true
    | some f =>
      exact fun hb => absurd ((configured_setupParse _ true _).1.isBurning.symm.trans hb)
        Bool.false_ne_true
  · rintro s e s' hs - ⟨-, rfl, hc⟩
    exact hs.outcome (outcome_step hc)

theorem freshInv_of_reachable {σ : Node × Option NeighborNodeBestPath}
    (h : advertMachine.ReachableWhen (fun σ e => σ.1.FreshGuard e) σ) :
    FreshInv σ.2 σ.1 ∧ BurnsBlinking σ.1 := by
  refine h.invariant (I := fun σ => FreshInv σ.2 σ.1 ∧ BurnsBlinking σ.1) ?_ ?_
  · rintro ⟨s, last⟩ ⟨⟨addr, flash, rfl, hc⟩, -⟩
    refine ⟨?_, burnsBlinking_of_reachable (.init ⟨addr, flash, rfl, hc⟩)⟩
    cases flash with
    | none =>
      exact ⟨fun hs => absurd hs Bool.false_ne_true, fun hs => absurd hs Bool.false_ne_true,
        fun hs => absurd hs (by simp [resetNodeProperties, zero])⟩
    | some f =>
      have hconf := (configured_setupParse (memRead f setupBufferSize) true (zero addr (some f))).1
      exact ⟨fun hs => absurd (hconf.hasSentNodeInfo.symm.trans hs) Bool.false_ne_true,
        fun hs => absurd (hconf.hasSentNodeInfo.symm.trans hs) Bool.false_ne_true,
        fun _ => hconf.ecNs⟩
  · rintro ⟨s, last⟩ e ⟨s', last'⟩ ⟨hs, hbb⟩ hok ⟨⟨hen, hstep, hc⟩, hlast⟩
    simp only at hs hbb hok hen hstep hc hlast ⊢
    subst hstep hlast
    exact ⟨hs.outcome hbb hen hok (outcome_step hc), hbb.outcome (outcome_step hc)⟩

/-- **In every run whose events all meet the guard, a node that has sent its node info and
has a best neighbour has last announced the path it currently has.** -/
theorem fresh_of_reachable {σ : Node × Option NeighborNodeBestPath}
    (h : advertMachine.ReachableWhen (fun σ e => σ.1.FreshGuard e) σ)
    (hsent : σ.1.state.hasSentNodeInfo = true) (hbpn : σ.1.bpn ≠ .null) :
    σ.2 = some σ.1.bestNeighborBpToOurBp := (freshInv_of_reachable h).1.fresh hsent hbpn

/-! ### A burning node whose reading jumps -/

/-- One event, and what it announces. -/
def advanceAdvert (ev : AppEvent × ClockReading) (σ : Node × Option NeighborNodeBestPath) :
    Option (Node × Option NeighborNodeBestPath) :=
  (advance ev σ.1).map fun s => (s, lastAdvert σ.2 (adverts s.calls))

theorem advertMachine_step_of_advance {e : AppEvent × ClockReading}
    {σ σ' : Node × Option NeighborNodeBestPath} (h : advanceAdvert e σ = some σ') :
    advertMachine.step e σ σ' := by
  obtain ⟨s, hs, rfl⟩ := Option.map_eq_some_iff.mp h
  exact ⟨nodeMachine_step_of_advance hs, rfl⟩

/-- A node from power-up, with nothing announced. -/
def unannounced : Node × Option NeighborNodeBestPath := (resetNodeProperties rimeaddrNull none, none)

theorem init_unannounced : advertMachine.init unannounced :=
  ⟨⟨rimeaddrNull, none, rfl, completes_nil⟩, rfl⟩

/-- A node with two paths catches fire. -/
def fire : List (AppEvent × ClockReading) := twoPaths ++ [(.emergencyCheck 500, ⟨0, 0⟩)]

/-- The guarded run `fire`, after which the announced path is current. -/
theorem fresh_fire :
    ∃ σ, advertMachine.ReachableWhen (fun σ e => σ.1.FreshGuard e) σ ∧
      σ.1.state.isBurning = true ∧ σ.2 = some σ.1.bestNeighborBpToOurBp := by
  have h : ((Machine.run advanceAdvert fire unannounced).map fun σ =>
      (σ.1.state.isBurning, σ.1.state.hasSentNodeInfo, σ.1.bpn)) = some (true, true, .slot 0) := by
    decide +kernel
  obtain ⟨σ, hrun, heq⟩ := Option.map_eq_some_iff.mp h
  simp only [Prod.mk.injEq] at heq
  have hreach : advertMachine.ReachableWhen (fun σ e => σ.1.FreshGuard e) σ :=
    Machine.ReachableWhen.of_run (b := fun σ e => decide (σ.1.FreshGuard e))
      (fun _ _ => of_decide_eq_true) (fun _ _ _ => advertMachine_step_of_advance) fire
      (.init init_unannounced) (by decide +kernel) hrun
  exact ⟨σ, hreach, heq.1,
    fresh_of_reachable hreach heq.2.1 (heq.2.2 ▸ NeighborPtr.noConfusion)⟩

/-- The reading then jumps to `800`; the node has announced `1520` and computes `1820`. -/
theorem run_jump :
    ∃ σ, Machine.run advanceAdvert (fire ++ [(.emergencyCheck 800, ⟨0, 0⟩)]) unannounced = some σ ∧
      σ.1.state.hasSentNodeInfo = true ∧ σ.1.state.isBlinking = true ∧ σ.1.bpn = .slot 0 ∧
      σ.2.map NeighborNodeBestPath.metric16 = some 1520 ∧ σ.1.advertisedMetric = 1820 := by
  have h : ((Machine.run advanceAdvert (fire ++ [(.emergencyCheck 800, ⟨0, 0⟩)]) unannounced).map
      fun σ => (σ.1.state.hasSentNodeInfo, σ.1.state.isBlinking, σ.1.bpn,
        σ.2.map NeighborNodeBestPath.metric16, σ.1.advertisedMetric)) =
      some (true, true, .slot 0, some 1520, 1820) := by decide +kernel
  obtain ⟨σ, hrun, heq⟩ := Option.map_eq_some_iff.mp h
  simp only [Prod.mk.injEq] at heq
  exact ⟨σ, hrun, heq⟩

/-- **The neighbours of a burning node can be left with a path it no longer holds.** -/
theorem not_fresh :
    ¬ ∀ σ : Node × Option NeighborNodeBestPath, advertMachine.Reachable σ →
      σ.1.state.hasSentNodeInfo = true → σ.1.state.isBlinking = true → σ.1.bpn ≠ .null →
      σ.2 = some σ.1.bestNeighborBpToOurBp := by
  obtain ⟨σ, hrun, hsent, hblink, hbpn, hlast, hadv⟩ := run_jump
  intro h
  have hreach : advertMachine.Reachable σ :=
    Machine.Reachable.of_run (fun _ _ _ => advertMachine_step_of_advance) _
      (.init init_unannounced) hrun
  have hfresh := h σ hreach hsent hblink (hbpn ▸ NeighborPtr.noConfusion)
  rw [hfresh, Option.map_some, Option.some.injEq] at hlast
  exact absurd (hlast.symm.trans hadv) (by decide)

end Node

end EmergencyNet
