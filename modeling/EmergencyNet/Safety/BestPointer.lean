import EmergencyNet.App.Setup
import EmergencyNet.Routing.BestNeighbor

/-!
# The pointer to the best neighbour

`g_np.bpn` points into the neighbour table, whose slots are recycled.  `setup_parse` clears
and refills the table and may change the role of the node, and it leaves `bpn` as it is; the
keep-alive check removes entries by address, and an entry behind that of the best neighbour
with the same address takes the best neighbour's entry with it.

## Main definitions

* `Node.BpnSound` — the pointer does not dangle.
* `Node.KeepsPointer`, `Node.SparesBest` — when a set-up and a keep-alive check keep it so.

## Main results

* `Node.bpnSound_takenOver` — a set-up keeps the pointer sound exactly when `KeepsPointer`.
* `Node.bpnSound_of_reachable` — **in a guarded run the pointer does not dangle.**
* `Node.not_bpnSound_reset` — a reset leaves it dangling.
-/

namespace EmergencyNet

namespace Node

variable {s t s' : Node} {w : Sweep} {b i j k : ℕ}

/-! ### The guard -/

/-- The pointer to the best neighbour is `NULL` or points to what it may point to: `exit_node`
at an exit, `max_node`, or an entry of the table. -/
structure BpnSound (s : Node) : Prop where
  exitNode : s.bpn = .exitNode → s.state.isExitNode = true
  slot : ∀ i, s.bpn = .slot i → i ∈ s.ns.used

/-- The packet makes the node an exit if its best neighbour is `exit_node`, and has so many
neighbours that the best neighbour's slot is used again. -/
def KeepsPointer (s : Node) (sp : SetupPacket) : Prop :=
  (s.bpn = .exitNode → sp.isExitNode ≠ 0) ∧
    ∀ i, s.bpn = .slot i → i ∈ (s.ns.unused ++ s.ns.used).take sp.neighbors.length

/-- No silent entry behind that of the best neighbour has its address; or the best neighbour
is silent itself and not the second in the table, after a silent one. -/
def SparesBest (s : Node) : Prop :=
  ∀ b, s.bpn = .slot b →
    (∀ j ∈ s.ns.used, [b, j].Sublist s.ns.used → (s.ns.item j).addr = (s.ns.item b).addr →
      (s.ns.item j).hasSentKeepAlive = true) ∨
    (s.ns.item b).hasSentKeepAlive = false ∧
      (s.ns.used.tail.head? = some b → ∀ x ∈ s.ns.used.head?,
        (s.ns.item x).hasSentKeepAlive = true)

/-- The condition on an event under which the pointer does not come to dangle. -/
def PointerGuard (s : Node) (e : AppEvent × ClockReading) : Prop :=
  (∀ sp ∈ s.installs e.1, s.KeepsPointer sp) ∧
    (e.1 = .keepaliveCheck → s.state.isBlinking = true → s.SparesBest)

instance (s : Node) (sp : SetupPacket) : Decidable (s.KeepsPointer sp) := by
  unfold KeepsPointer; infer_instance

instance (s : Node) : Decidable s.SparesBest := by unfold SparesBest; infer_instance

/-! ### The keep-alive check -/

/-- What a search finds comes before everything else it could have found. -/
theorem sublist_of_find? {α : Type*} {p : α → Bool} {l : List α} {x y : α}
    (hf : l.find? p = some x) (hy : y ∈ l) (hp : p y = true) : y = x ∨ [x, y].Sublist l := by
  obtain ⟨-, as, bs, rfl, hbefore⟩ := List.find?_eq_some_iff_append.mp hf
  rcases List.mem_append.mp hy with hmem | hmem
  · exact absurd hp (by simpa using hbefore y hmem)
  · rcases List.mem_cons.mp hmem with rfl | hmem
    · exact .inl rfl
    · right
      have htail : [x, y].Sublist (x :: bs) := (List.singleton_sublist.mpr hmem).cons_cons x
      exact htail.trans (List.sublist_append_right as _)

/-- Removing a neighbour takes the first entry with its address off the table. -/
theorem neighborsRemove_first {ns : Neighbors} (hi : i ∈ ns.used) :
    ∃ k, neighborsFindNeighborNode ns (ns.item i).addr = some k ∧
      (neighborsRemove ns (ns.item i).addr).used = ns.used.erase k := by
  obtain ⟨k, hf⟩ : ∃ k, neighborsFindNeighborNode ns (ns.item i).addr = some k := by
    rw [← Option.isSome_iff_exists, neighborsFindNeighborNode, QueueBuffer.find, List.find?_isSome]
    exact ⟨i, hi, beq_self_eq_true _⟩
  refine ⟨k, hf, ?_⟩
  rw [neighborsRemove, hf]
  exact QueueBuffer.free_used _ _

/-- What is removed with the address of an entry stands before everything behind the entry. -/
theorem neighborsRemove_behind {ns : Neighbors} {l₁ l₂ : List ℕ} (hused : ns.used = l₁ ++ i :: l₂) :
    ∃ l, l.length = l₁.length ∧ (neighborsRemove ns (ns.item i).addr).used = l ++ l₂ := by
  have hi : i ∈ ns.used := by
    rw [hused]
    exact List.mem_append_right l₁ List.mem_cons_self
  obtain ⟨k, hf, hremoved⟩ := neighborsRemove_first hi
  have hsplit : ns.used = (l₁ ++ [i]) ++ l₂ := by rw [hused, List.append_cons]
  have hk : k ∈ l₁ ++ [i] := by
    unfold neighborsFindNeighborNode QueueBuffer.find at hf
    rw [hsplit, List.find?_append] at hf
    cases hfi : (l₁ ++ [i]).find? fun a => (ns.item a).addr == (ns.item i).addr with
    | none =>
      have hno := List.find?_eq_none.mp hfi i (by simp)
      exact absurd (beq_self_eq_true _) hno
    | some a =>
      rw [hfi, Option.some_or, Option.some.injEq] at hf
      exact hf ▸ List.mem_of_find?_eq_some hfi
  refine ⟨(l₁ ++ [i]).erase k, ?_, ?_⟩
  · rw [List.length_erase_of_mem hk]
    simp
  · rw [hremoved, hsplit, List.erase_append_left _ hk]

/-- As long as no silent entry behind it has its address, the best neighbour's entry is not
removed in another's place. -/
theorem mem_sweep_of_behind (hb : b ∈ s.ns.used) (h : ∀ j ∈ s.ns.used, [b, j].Sublist s.ns.used →
      (s.ns.item j).addr = (s.ns.item b).addr → (s.ns.item j).hasSentKeepAlive = true)
    (hbpn : s.sweep.bpn = .slot b) : b ∈ s.sweep.ns.used := by
  have hP := sweepSilent_induction
    (P := fun w => SweepOk s.ns s.bpn w ∧ (w.bpn = .slot b → b ∈ w.ns.used))
    (fun w j hw hj hsilent => by
      obtain ⟨hok, hmem⟩ := hw
      refine ⟨hok.drop hj hsilent, fun hwb => ?_⟩
      unfold Sweep.drop at hwb ⊢
      simp only at hwb ⊢
      split at hwb
      · exact NeighborPtr.noConfusion hwb
      · next hne =>
        have hjb : j ≠ b := fun heq => hne (heq ▸ hwb)
        obtain ⟨k, hf, hused⟩ := neighborsRemove_first hj
        rw [hused, w.ns.used_nodup.mem_erase_iff]
        refine ⟨fun hbk => ?_, hmem hwb⟩
        -- the entry removed is the best neighbour's only if `j` is behind it
        rw [← hbk] at hf
        have hsub : [b, j].Sublist w.ns.used :=
          (sublist_of_find? hf hj (beq_self_eq_true _)).resolve_left hjb
        have haddr := (mem_of_neighborsFindNeighborNode hf).2
        rw [hok.item] at haddr hsilent
        have hkeep := h j (hok.sublist.subset hj) (hsub.trans hok.sublist) haddr.symm
        exact Bool.noConfusion (hkeep.symm.trans hsilent))
    (fun w hw => ⟨⟨hw.1.item, hw.1.sublist, hw.1.bpn⟩, hw.2⟩)
    s.ns.used.length s.ns.used ⟨s.ns, s.bpn, false⟩ (List.Subset.refl _)
    ⟨⟨rfl, List.Sublist.refl _, .inl rfl⟩, fun _ => hb⟩
  exact hP.2 hbpn

/-- A missing best neighbour is not found again. -/
theorem sweepSilent_bpn_null (fuel : ℕ) (rest : List ℕ) (hsub : rest ⊆ w.ns.used)
    (hnull : w.bpn = .null) : (sweepSilent fuel rest w).bpn = .null := by
  refine sweepSilent_induction (P := fun w => w.bpn = .null) (fun w j hw _ _ => ?_)
    (fun _ hw => hw) fuel rest w hsub hnull
  unfold Sweep.drop
  simp only
  split
  · rfl
  · exact hw

/-- A silent best neighbour that the loop has still to visit, with at most one entry passed
over before, is visited before its entry is removed. -/
theorem mem_sweepSilent_of_silent : ∀ (fuel : ℕ) (front rest : List ℕ) (w : Sweep),
    w.ns.used = front ++ rest → b ∈ rest → (w.ns.item b).hasSentKeepAlive = false →
    (front = [] → ∀ x tail, rest = x :: b :: tail → (w.ns.item x).hasSentKeepAlive = true) →
    w.bpn = .slot b → (sweepSilent fuel rest w).bpn = .slot b →
    b ∈ (sweepSilent fuel rest w).ns.used := by
  intro fuel
  induction fuel with
  | zero =>
    intro front rest w hused hb _ _ _ _
    change b ∈ w.ns.used
    rw [hused]
    exact List.mem_append_right front hb
  | succ fuel ih =>
    intro front rest w hused hb hsilent hfront hbpn hlast
    unfold sweepSilent at hlast ⊢
    split at hlast
    · next hnone => exact absurd (by simpa using hsilent) (List.find?_eq_none.mp hnone b hb)
    · next i hf =>
      obtain ⟨hisilent, l₁, l₂, hsplit, hbefore⟩ := List.find?_eq_some_iff_append.mp hf
      by_cases hib : i = b
      · -- the visit makes the best neighbour missing
        have hnull : (w.drop i).bpn = .null := by
          unfold Sweep.drop
          exact if_pos (hib ▸ hbpn)
        split at hlast
        · rw [hnull] at hlast
          cases hlast
        · next tail hcons =>
          have hsub : tail ⊆ (w.drop i).ns.used := hcons ▸ List.subset_cons_self _ _
          have hgone := sweepSilent_bpn_null (w := { w.drop i with needBroadcastNewPath := true })
            fuel tail hsub hnull
          rw [hgone] at hlast
          cases hlast
      · have hbpn' : (w.drop i).bpn = .slot b := by
          unfold Sweep.drop
          simp only
          rw [if_neg, hbpn]
          rw [hbpn]
          exact fun heq => hib (NeighborPtr.slot.inj heq).symm
        have hb₂ : b ∈ l₂ := by
          rw [hsplit, List.mem_append, List.mem_cons] at hb
          rcases hb with hb | hb | hb
          · exact absurd (hbefore b hb) (by simp [hsilent])
          · exact absurd hb.symm hib
          · exact hb
        have hsplit' : w.ns.used = (front ++ l₁) ++ i :: l₂ := by
          rw [hused, hsplit, List.append_assoc]
        obtain ⟨l, hlen, hremoved⟩ := neighborsRemove_behind hsplit'
        have hleft : (w.drop i).ns.used = l ++ l₂ := hremoved
        have hitem : (w.drop i).ns.item = w.ns.item := neighborsRemove_item _ _
        split at hlast
        · next hnil =>
          rw [hleft, List.append_eq_nil_iff] at hnil
          rw [hnil.2] at hb₂
          cases hb₂
        · next h tail hcons =>
          have hbtail : b ∈ tail := by
            cases l with
            | nil =>
              obtain ⟨hfn, hl₁⟩ := List.append_eq_nil_iff.mp (List.length_eq_zero_iff.mp hlen.symm)
              rw [hleft, List.nil_append] at hcons
              rw [hcons, List.mem_cons] at hb₂
              rcases hb₂ with rfl | hb₂
              · have hkeep := hfront hfn i tail (by rw [hsplit, hl₁, hcons]; rfl)
                simp [hkeep] at hisilent
              · exact hb₂
            | cons a l =>
              rw [hleft, List.cons_append, List.cons.injEq] at hcons
              rw [← hcons.2]
              exact List.mem_append_right l hb₂
          exact ih [h] tail { w.drop i with needBroadcastNewPath := true } hcons hbtail
            (hitem ▸ hsilent) (fun hno => absurd hno (List.cons_ne_nil h [])) hbpn' hlast

/-- **A keep-alive check that spares the best neighbour leaves its entry in the table**, or
leaves the node without one. -/
theorem mem_sweep_of_spares (h : s.SparesBest) (hs : s.BpnSound) (hbpn : s.sweep.bpn = .slot b) :
    b ∈ s.sweep.ns.used := by
  have hsb : s.bpn = .slot b := by
    rcases s.sweep_bpn with heq | ⟨-, hnull⟩
    · exact heq ▸ hbpn
    · rw [hnull] at hbpn
      cases hbpn
  have hb : b ∈ s.ns.used := hs.slot b hsb
  rcases h b hsb with hbehind | ⟨hsilent, hsecond⟩
  · exact mem_sweep_of_behind hb hbehind hbpn
  · refine mem_sweepSilent_of_silent _ [] _ ⟨s.ns, s.bpn, false⟩ rfl hb hsilent ?_ hsb hbpn
    intro _ x tail hused
    have hused' : s.ns.used = x :: b :: tail := hused
    refine hsecond ?_ x ?_
    · rw [hused']
      rfl
    · rw [hused']
      rfl

/-! ### The invariant -/

theorem BpnSound.of_routing (h : BpnSound s) (hr : SameRouting s t) : BpnSound t where
  exitNode := by
    rw [hr.bpn, hr.isExitNode]
    exact h.exitNode
  slot := by
    rw [hr.bpn, hr.ns]
    exact h.slot

/-- The choice of the scan is sound. -/
theorem bpnSound_toBest (s : Node) : BpnSound s.toBest := by
  cases hexit : s.state.isExitNode with
  | true =>
    have hbpn : s.toBest.bpn = .exitNode := findBest_exit hexit
    refine ⟨fun _ => hexit, fun i hi => ?_⟩
    rw [hbpn] at hi
    cases hi
  | false =>
    refine ⟨fun hx => ?_, fun i hi => (findBest_slot_spec hexit hi).1⟩
    have hx' : s.findBestExitPathNeighbor = .exitNode := hx
    obtain ⟨i, hi⟩ | hmax := findBest_slot_or_maxNode hexit
    · rw [hi] at hx'
      cases hx'
    · rw [hmax] at hx'
      cases hx'

/-- **A set-up keeps the pointer sound exactly when it keeps what it points to.** -/
theorem bpnSound_takenOver {sp : SetupPacket} (h : TakenOver sp s t) :
    BpnSound t ↔ s.KeepsPointer sp := by
  constructor
  · rintro ⟨hexit, hslot⟩
    refine ⟨fun hx => ?_, fun i hi => (h.used i).mp (hslot i (h.bpn.trans hi))⟩
    have hx' := h.isExitNode.symm.trans (hexit (h.bpn.trans hx))
    simpa using hx'
  · rintro ⟨hexit, hslot⟩
    refine ⟨fun hx => ?_, fun i hi => (h.used i).mpr (hslot i (h.bpn.symm.trans hi))⟩
    rw [h.isExitNode]
    simpa using hexit (h.bpn.symm.trans hx)

theorem BpnSound.dropSilent (hs : BpnSound s) (h : s.SparesBest) : BpnSound s.dropSilent where
  exitNode := by
    intro hx
    have hx' : s.sweep.bpn = .exitNode := hx
    rcases s.sweep_bpn with heq | ⟨-, hnull⟩
    · exact hs.exitNode (heq ▸ hx')
    · rw [hnull] at hx'
      cases hx'
  slot := by
    intro i hi
    rw [dropSilent_used]
    exact mem_sweep_of_spares h hs hi

/-- What an event that takes no setup packet over keeps. -/
theorem BpnSound.outcome {e : AppEvent × ClockReading} {ads : List PathPacket} (hs : BpnSound s)
    (hg : s.PointerGuard e) (hre : ¬ e.1.Reconfigures) (ho : Outcome s e.1 s' ads) :
    BpnSound s' := by
  obtain ⟨ev, c⟩ := e
  cases ho with
  | quiet hr => exact hs.of_routing hr.toSameRouting
  | configured hev _ => exact absurd hev hre
  | resetMode hev _ _ => exact absurd hev hre
  | @newNeighbor r _ ns hns hr =>
    obtain ⟨k, -, hused, -⟩ := QueueBuffer.pushFront_eq_some hns
    have hb : BpnSound (s.withTable ns) := by
      refine ⟨hs.exitNode, fun i hi => ?_⟩
      change i ∈ ns.used
      rw [hused]
      exact List.mem_cons_of_mem k (hs.slot i hi)
    exact hb.of_routing hr.toSameRouting
  | keepAlive _ hr =>
    exact BpnSound.of_routing (s := s.withEntry _ _) ⟨hs.exitNode, hs.slot⟩ hr.toSameRouting
  | initialized _ _ _ hr =>
    have hb := bpnSound_toBest s
    exact BpnSound.of_routing (s := s.toBest.sentNodeInfo) ⟨hb.exitNode, hb.slot⟩ hr.toSameRouting
  | @path r _ _ i p _ _ _ hpath =>
    have hw : BpnSound (s.pathWritten i p) := ⟨hs.exitNode, hs.slot⟩
    have hb := bpnSound_toBest (s.pathWritten i p)
    cases hpath with
    | first _ _ hr =>
      exact BpnSound.of_routing (s := (s.pathWritten i p).toBest.sentNodeInfo)
        ⟨hb.exitNode, hb.slot⟩ hr.toSameRouting
    | switched _ _ hr => exact hb.of_routing hr.toSameRouting
    | kept _ _ hr => exact hw.of_routing hr.toSameRouting
  | @sensed light _ _ _ hr =>
    exact BpnSound.of_routing (s := s.sensed light) ⟨hs.exitNode, hs.slot⟩ hr.toSameRouting
  | @sensedSent light _ _ _ _ hr =>
    exact BpnSound.of_routing (s := setBurning (isEmergency light) (s.sensed light))
      ⟨hs.exitNode, hs.slot⟩ hr.toSameRouting
  | dropped hblink _ hr =>
    exact (hs.dropSilent (hg.2 rfl hblink)).of_routing hr.toSameRouting
  | droppedSwitched _ _ _ hr => exact (bpnSound_toBest _).of_routing hr.toSameRouting

theorem BpnSound.step {e : AppEvent × ClockReading} (hs : BpnSound s) (hg : s.PointerGuard e)
    (hc : Completes (s.step e).calls) : BpnSound (s.step e) := by
  rcases installs_or_outcome hc with (⟨sp, hsp, ht⟩ | ⟨-, hr, -⟩) | ⟨hre, -, ho⟩
  · exact (bpnSound_takenOver ht).mpr (hg.1 sp hsp)
  · exact hs.of_routing hr
  · exact hs.outcome hg hre ho

/-- **In every run whose events all meet the guard the pointer to the best neighbour does not
dangle**, and it is `exit_node` at exits only. -/
theorem bpnSound_of_reachable (h : nodeMachine.ReachableWhen PointerGuard s) : BpnSound s := by
  refine h.invariant ?_ ?_
  · rintro s ⟨addr, flash, rfl, -⟩
    have hbpn : (resetNodeProperties addr flash).bpn = .null := by
      cases flash with
      | none => rfl
      | some f => exact (takenOver_setupParse _ true _).bpn
    refine ⟨fun hx => ?_, fun i hi => ?_⟩
    · rw [hbpn] at hx
      cases hx
    · rw [hbpn] at hi
      cases hi
  · rintro s e s' hs hok ⟨-, rfl, hc⟩
    exact hs.step hok hc

/-! ### A reset -/

instance (s : Node) (e : AppEvent × ClockReading) : Decidable (s.PointerGuard e) := by
  unfold PointerGuard
  have h : Decidable (e.1 = AppEvent.keepaliveCheck) := by
    rcases e with ⟨_ | _ | _ | _ | _ | _ | _ | _ | _, _⟩
    case keepaliveCheck => exact .isTrue rfl
    all_goals exact .isFalse nofun
  infer_instance

/-- The node with two paths is guarded, and its best neighbour is in the table. -/
theorem bpnSound_twoPaths :
    ∃ s, nodeMachine.ReachableWhen PointerGuard s ∧ s.bpn = .slot 0 ∧ BpnSound s := by
  have h : ((Machine.run advance twoPaths (resetNodeProperties rimeaddrNull none)).map
      fun s => s.bpn) = some (.slot 0) := by decide +kernel
  obtain ⟨s, hrun, hbpn⟩ := Option.map_eq_some_iff.mp h
  have hreach : nodeMachine.ReachableWhen PointerGuard s :=
    reachableWhen_of_run (by decide +kernel) hrun
  exact ⟨s, hreach, hbpn, bpnSound_of_reachable hreach⟩

/-- The flooded packet that resets the system. -/
def resetEvent : AppEvent × ClockReading :=
  (.broadcastRecv ⟨⟨90, 0⟩, ⟨90, 0⟩, 0, 0, [PacketType.resetSystem.toByte], 1⟩, ⟨0, 0⟩)

/-- **A reset fills the table from another slot on and leaves the pointer at the old one.** -/
theorem not_bpnSound_reset : ∃ s, nodeMachine.Reachable s ∧ ¬ BpnSound s := by
  have h : ((Machine.run advance (twoPaths ++ [resetEvent])
      (resetNodeProperties rimeaddrNull none)).map fun s => (s.bpn, s.ns.used)) =
      some (.slot 0, [3, 2]) := by decide +kernel
  obtain ⟨s, hrun, heq⟩ := Option.map_eq_some_iff.mp h
  simp only [Prod.mk.injEq] at heq
  refine ⟨s, reachable_of_run hrun, fun hs => ?_⟩
  have hmem := hs.slot 0 heq.1
  rw [heq.2] at hmem
  exact absurd hmem (by decide)

end Node

end EmergencyNet
