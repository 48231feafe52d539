import EmergencyNet.Safety.Restart
import EmergencyNet.Sensor.SilentNeighbors

/-!
# Who answers the roll

Over a whole run the neighbour table is a roll.  A neighbour that sends a keep-alive packet answers,
and the keep-alive check strikes out those that have not.  The check passes over the entry behind a
silent head, which then is the head of the next check.  So a neighbour that has answered since the
last check is never struck out, and one that falls silent is out after three checks at the latest.

## Main definitions

* `Roll`, `Roll.answer`, `Roll.check` — the table as the check sees it.
* `Node.roll`, `Node.rollAfter` — the roll of a node.
* `Watched` — a node, and for how many checks each address has been silent.

## Main results

* `Node.roll_step` — **what every event does to the roll.**
* `Roll.Counted.check` — a check keeps the count.
* `Watched.silent_of_reachable` — **nobody is silent for more than two checks, and nobody who
  answers is struck out.**
-/

namespace EmergencyNet

/-! ### The roll -/

/-- The neighbours of a node, each with whether it has answered since the last check. -/
abbrev Roll := List (Rimeaddr × Bool)

namespace Roll

variable {l : Roll} {a : Rimeaddr} {silent : Rimeaddr → ℕ}

/-- A keep-alive packet of `a`. -/
def answer (a : Rimeaddr) (l : Roll) : Roll := l.map fun e => if e.1 = a then (e.1, true) else e

/-- Those who answered, who have to answer anew. -/
def answered (l : Roll) : Roll := (l.filter Prod.snd).map fun e => (e.1, false)

/-- A check. -/
def check : Roll → Roll
  | (_, false) :: e :: l => (e.1, false) :: answered l
  | l => answered l

/-- `silent` counts the checks since the entries answered.  An entry that has been silent for two
of them is the head, or behind a head that has answered. -/
structure Counted (l : Roll) (silent : Rimeaddr → ℕ) : Prop where
  heard : ∀ e ∈ l, e.2 = true ↔ silent e.1 = 0
  le : ∀ e ∈ l, silent e.1 ≤ 2
  last : ∀ e ∈ l, silent e.1 = 2 → ∃ h, l.head? = some h ∧ (h = e ∨ h.2 = true)

@[simp] theorem map_fst_answer (a : Rimeaddr) (l : Roll) :
    (l.answer a).map Prod.fst = l.map Prod.fst := by
  rw [answer, List.map_map]
  apply List.map_congr_left
  intro e _
  change (if e.1 = a then (e.1, true) else e).1 = e.1
  split <;> rfl

theorem mem_answered {e : Rimeaddr × Bool} : e ∈ answered l ↔ e.2 = false ∧ (e.1, true) ∈ l := by
  rw [answered, List.mem_map]
  constructor
  · rintro ⟨⟨b, x⟩, hmem, rfl⟩
    rw [List.mem_filter] at hmem
    obtain ⟨hmem, hx⟩ := hmem
    cases hx
    exact ⟨rfl, hmem⟩
  · rintro ⟨hflag, hmem⟩
    refine ⟨(e.1, true), List.mem_filter.mpr ⟨hmem, rfl⟩, ?_⟩
    rw [← hflag]

/-- A check keeps whoever has answered. -/
theorem mem_check_of_answered (h : (a, true) ∈ l) : (a, false) ∈ check l := by
  have hmem : (a, false) ∈ answered l := mem_answered.mpr ⟨rfl, h⟩
  unfold check
  split
  · next e l =>
    rcases List.mem_cons.mp h with hhead | h
    · cases hhead
    · rcases List.mem_cons.mp h with hsecond | h
      · rw [← hsecond]
        exact List.mem_cons_self
      · exact List.mem_cons_of_mem _ (mem_answered.mpr ⟨rfl, h⟩)
  · exact hmem

/-- **What a check keeps**: who has answered, and the entry behind a silent head. -/
theorem mem_check {e : Rimeaddr × Bool} (h : e ∈ check l) : e.2 = false ∧
    ((e.1, true) ∈ l ∨ ∃ b x l', l = (b, false) :: (e.1, x) :: l' ∧ (check l).head? = some e) := by
  unfold check at h ⊢
  split at h
  · next b e' l' =>
    rcases List.mem_cons.mp h with rfl | h
    · exact ⟨rfl, .inr ⟨b, e'.2, l', rfl, rfl⟩⟩
    · obtain ⟨hflag, hmem⟩ := mem_answered.mp h
      exact ⟨hflag, .inl (List.mem_cons_of_mem _ (List.mem_cons_of_mem _ hmem))⟩
  · obtain ⟨hflag, hmem⟩ := mem_answered.mp h
    exact ⟨hflag, .inl hmem⟩

/-! ### The count -/

theorem counted_of_heard (h : ∀ e ∈ l, e.2 = true) : Counted l fun _ => 0 where
  heard e he := by simp [h e he]
  le _ _ := Nat.zero_le 2
  last _ _ h := by cases h

theorem Counted.answer (h : Counted l silent) (a : Rimeaddr) :
    Counted (l.answer a) (Function.update silent a 0) := by
  have hcases : ∀ e ∈ l.answer a, e.1 = a ∧ e.2 = true ∨ e.1 ≠ a ∧ e ∈ l := by
    intro e he
    obtain ⟨e₀, he₀, rfl⟩ := List.mem_map.mp he
    by_cases ha : e₀.1 = a
    · rw [if_pos ha]
      exact .inl ⟨ha, rfl⟩
    · rw [if_neg ha]
      exact .inr ⟨ha, he₀⟩
  refine ⟨fun e he => ?_, fun e he => ?_, fun e he htwo => ?_⟩
  · rcases hcases e he with ⟨ha, hflag⟩ | ⟨ha, he⟩
    · simp [ha, hflag]
    · rw [Function.update_of_ne ha]
      exact h.heard e he
  · rcases hcases e he with ⟨ha, -⟩ | ⟨ha, he⟩
    · simp [ha]
    · rw [Function.update_of_ne ha]
      exact h.le e he
  · rcases hcases e he with ⟨ha, -⟩ | ⟨ha, he⟩
    · simp [ha] at htwo
    · rw [Function.update_of_ne ha] at htwo
      obtain ⟨b, hb, hor⟩ := h.last e he htwo
      refine ⟨if b.1 = a then (b.1, true) else b, by rw [Roll.answer, List.head?_map, hb]; rfl, ?_⟩
      rcases hor with rfl | hflag
      · exact .inl (if_neg ha)
      · right
        split
        · rfl
        · exact hflag

/-- A new neighbour goes in front, and counts as heard. -/
theorem Counted.join (h : Counted l silent) (hnew : a ∉ l.map Prod.fst) :
    Counted ((a, true) :: l) (Function.update silent a 0) := by
  have hne : ∀ e ∈ l, e.1 ≠ a := fun e he heq => hnew (heq ▸ List.mem_map_of_mem he)
  refine ⟨fun e he => ?_, fun e he => ?_, fun e he htwo => ?_⟩
  · rcases List.mem_cons.mp he with rfl | he
    · simp
    · rw [Function.update_of_ne (hne e he)]
      exact h.heard e he
  · rcases List.mem_cons.mp he with rfl | he
    · simp
    · rw [Function.update_of_ne (hne e he)]
      exact h.le e he
  · exact ⟨(a, true), rfl, .inr rfl⟩

/-- Whoever is left after a check has answered since the last one, or is the head now. -/
theorem Counted.left (h : Counted l silent) (hnodup : (l.map Prod.fst).Nodup) :
    ∀ e ∈ l.check, silent e.1 = 0 ∨ silent e.1 = 1 ∧ l.check.head? = some e := by
  intro e he
  obtain ⟨-, hmem | ⟨b, x, l', rfl, hhead⟩⟩ := mem_check he
  · exact .inl ((h.heard _ hmem).mp rfl)
  · have hin : (e.1, x) ∈ (b, false) :: (e.1, x) :: l' :=
      List.mem_cons_of_mem _ List.mem_cons_self
    -- the entry behind a silent head has been silent for one check at most
    have hnot : silent e.1 ≠ 2 := by
      intro htwo
      obtain ⟨h', hh, hor⟩ := h.last _ hin htwo
      cases hh
      rcases hor with heq | hflag
      · rw [List.map_cons, List.map_cons, List.nodup_cons] at hnodup
        exact hnodup.1 (congrArg Prod.fst heq ▸ List.mem_cons_self)
      · cases hflag
    have hle : silent e.1 ≤ 2 := h.le (e.1, x) hin
    by_cases hzero : silent e.1 = 0
    · exact .inl hzero
    · exact .inr ⟨by omega, hhead⟩

/-- **A check strikes out whoever has been silent for two checks.** -/
theorem Counted.check (h : Counted l silent) (hnodup : (l.map Prod.fst).Nodup) :
    Counted (check l) fun a => silent a + 1 := by
  have hleft := h.left hnodup
  refine ⟨fun e he => ?_, fun e he => ?_, fun e he htwo => ?_⟩
  · rw [(mem_check he).1]
    simp
  · rcases hleft e he with hzero | ⟨hone, -⟩ <;> omega
  · rcases hleft e he with hzero | ⟨-, hhead⟩
    · omega
    · exact ⟨e, hhead, .inl rfl⟩

end Roll

namespace Node

variable {s t : Node} {sp : SetupPacket}

/-! ### The roll of a node -/

/-- The neighbour table as a roll. -/
def roll (s : Node) : Roll := s.ns.used.map fun i => ((s.ns.item i).addr, flagged s.ns i)

theorem map_fst_roll (s : Node) : s.roll.map Prod.fst = s.addrs := by
  rw [roll, List.map_map]
  rfl

theorem roll_of_ns (h : t.ns = s.ns) : t.roll = s.roll := by rw [roll, roll, h]

/-- The node handles a keep-alive packet. -/
def HearsAlive (r : RecvArgs) (s : Node) : Prop :=
  s.Listens ∧ packetTypeAt r.data = some .keepAliveNeighbor

instance (r : RecvArgs) (s : Node) : Decidable (s.HearsAlive r) := by
  unfold HearsAlive; infer_instance

/-- The roll after an event that does not set the node up. -/
def rollAfter (s : Node) : AppEvent → Roll
  | .neighborRecv r => if s.HearsAlive r then s.roll.answer r.sender else s.roll
  | .mcUcRecv r => (r.originator, true) :: s.roll
  | .keepaliveCheck => if s.state.isBlinking then s.roll.check else s.roll
  | _ => s.roll

/-- Writing to an entry changes its line of the roll. -/
theorem roll_withEntry {i : ℕ} {nn : NeighborNode} (hi : i ∈ s.ns.used)
    (haddr : nn.addr = (s.ns.item i).addr) (hnodup : s.addrs.Nodup) :
    (s.withEntry i nn).roll = s.roll.map fun e =>
      if e.1 = nn.addr then (e.1, nn.hasSentKeepAlive) else e := by
  unfold roll
  rw [List.map_map]
  apply List.map_congr_left
  intro j hj
  change ((((s.ns.set i nn).item j).addr, flagged (s.ns.set i nn) j) : Rimeaddr × Bool) =
    if (s.ns.item j).addr = nn.addr then ((s.ns.item j).addr, nn.hasSentKeepAlive)
    else ((s.ns.item j).addr, flagged s.ns j)
  by_cases hij : j = i
  · subst hij
    rw [flagged, QueueBuffer.set_item_self, if_pos haddr.symm, haddr]
  · have hne : (s.ns.item j).addr ≠ nn.addr := by
      rw [haddr]
      exact fun heq => hij (List.inj_on_of_nodup_map hnodup hj hi heq)
    rw [flagged, QueueBuffer.set_item_of_ne _ _ hij, if_neg hne]
    rfl

/-- A path does not show in the roll. -/
theorem roll_pathWritten (i : ℕ) (p : PathPacket) : (s.pathWritten i p).roll = s.roll := by
  unfold roll
  apply List.map_congr_left
  intro j _
  have hsame : ((s.pathWritten i p).ns.item j).addr = (s.ns.item j).addr ∧
      ((s.pathWritten i p).ns.item j).hasSentKeepAlive = (s.ns.item j).hasSentKeepAlive := by
    by_cases hij : j = i
    · subst hij
      change ((s.ns.set j _).item j).addr = _ ∧ ((s.ns.set j _).item j).hasSentKeepAlive = _
      rw [QueueBuffer.set_item_self]
      exact ⟨s.entryAfter_addr j p, by cases p <;> rfl⟩
    · change ((s.ns.set i _).item j).addr = _ ∧ ((s.ns.set i _).item j).hasSentKeepAlive = _
      rw [QueueBuffer.set_item_of_ne _ _ hij]
      exact ⟨rfl, rfl⟩
  rw [hsame.1, flagged, hsame.2]
  rfl

/-! ### The check -/

/-- **The keep-alive check is a check of the roll.** -/
theorem roll_keepaliveCheck (hnodup : s.addrs.Nodup) (hblink : s.state.isBlinking = true) :
    s.keepaliveCheck.roll = s.roll.check := by
  have hdistinct : DistinctAddrs s.ns := fun _ ha _ hb heq =>
    List.inj_on_of_nodup_map hnodup ha hb heq
  have hused := keepaliveCheck_used hblink
  have hlines : s.keepaliveCheck.roll =
      s.sweep.ns.used.map fun i => ((s.ns.item i).addr, false) := by
    rw [roll, hused]
    apply List.map_congr_left
    intro i hi
    rw [flagged, keepaliveCheck_item hblink (hused ▸ hi)]
    rfl
  have hanswered : ∀ l : List ℕ,
      Roll.answered (l.map fun i => ((s.ns.item i).addr, flagged s.ns i)) =
        (l.filter (flagged s.ns)).map fun i => ((s.ns.item i).addr, false) := by
    intro l
    rw [Roll.answered, List.filter_map, List.map_map]
    rfl
  rw [hlines]
  by_cases hhead : ∃ a b l, s.ns.used = a :: b :: l ∧ flagged s.ns a = false
  · obtain ⟨a, b, l, htable, ha⟩ := hhead
    rw [sweep_used_of_silent_head hdistinct htable ha, roll, htable]
    simp only [List.map_cons, ha]
    change _ = (_, false) :: Roll.answered _
    rw [hanswered]
  · have hskip : ¬ s.SkipsSilent := by
      rintro ⟨a, b, l, htable, ha, -⟩
      exact hhead ⟨a, b, l, htable, ha⟩
    have hcheck : s.roll.check = s.roll.answered := by
      unfold Roll.check
      split
      · next b e l hroll =>
        -- the roll has a silent head with somebody behind it
        rw [roll] at hroll
        obtain ⟨i, rest, htable, hi, hrest⟩ := List.map_eq_cons_iff.mp hroll
        obtain ⟨j, rest', rfl, -, -⟩ := List.map_eq_cons_iff.mp hrest
        exact absurd ⟨i, j, rest', htable, congrArg Prod.snd hi⟩ hhead
      · rfl
    rw [sweep_used hdistinct hskip, hcheck, roll, hanswered]

/-! ### Every event -/

/-- A packet on the neighbour channel. -/
theorem roll_neighborRecv {r : RecvArgs} (hnodup : s.addrs.Nodup) (h0 : adverts s.calls = [])
    (hre : ¬ (AppEvent.neighborRecv r).Reconfigures) (hc : Completes (ecNeighborsRecv r s).calls) :
    (ecNeighborsRecv r s).roll = s.rollAfter (.neighborRecv r) := by
  have hignored : ¬ s.Listens → packetTypeAt r.data ≠ some .initializeBestPaths →
      ecNeighborsRecv r s = s := by
    intro hoff hne
    unfold ecNeighborsRecv
    split
    · rfl
    · next hig =>
      split
      · rfl
      · next hsink =>
        refine absurd ⟨?_, by simpa using hsink⟩ hoff
        simpa [ignoredInResetMode, hne] using hig
  by_cases halive : packetTypeAt r.data = some .keepAliveNeighbor
  · by_cases hon : s.Listens
    · -- the entry of the sender is marked
      have hig : s.ignoredInResetMode r = false := by
        rw [ignoredInResetMode, hon.1, Bool.false_and]
      rw [rollAfter, if_pos ⟨hon, halive⟩]
      rw [ecNeighborsRecv, hig, if_neg Bool.false_ne_true, hon.2, if_neg Bool.false_ne_true,
        neighborsRecv, halive] at hc ⊢
      simp only [withSender] at hc ⊢
      cases hf : neighborsFindNeighborNode s.ns r.sender with
      | none =>
        simp only [hf] at hc
        exact absurd hc not_completes_assert_false
      | some i =>
        obtain ⟨hi, haddr⟩ := mem_of_neighborsFindNeighborNode hf
        let nn := (s.ns.item i).setHasSentKeepAlive true
        have hmark : (s.withEntry i nn).roll = _ := roll_withEntry hi rfl hnodup
        refine hmark.trans ?_
        change _ = s.roll.map fun e => if e.1 = r.sender then (e.1, true) else e
        rw [← haddr]
        rfl
    · rw [hignored hon (by rw [halive]; decide), rollAfter, if_neg fun h => hon h.1]
  · rw [rollAfter, if_neg fun h => halive h.2]
    by_cases hinit : packetTypeAt r.data = some .initializeBestPaths
    · -- the same handler as for a broadcast
      have hsame : ∀ {ev : AppEvent}, ev.Initializes → Outcome s ev (ecNeighborsRecv r s)
          (adverts (ecNeighborsRecv r s).calls) := by
        intro ev hev
        unfold ecNeighborsRecv at hc ⊢
        split
        · exact .of_quiet h0 (.refl s) rfl
        · next hig =>
          rw [if_neg hig] at hc
          split
          · exact .of_quiet h0 (.refl s) rfl
          · next hsink =>
            rw [if_neg hsink, neighborsRecv, hinit] at hc
            rw [neighborsRecv, hinit]
            exact outcome_forwardInit hev h0 hinit hc
      have hout := @hsame (.serial .init) trivial
      generalize adverts (ecNeighborsRecv r s).calls = ads at hout
      cases hout with
      | quiet h => exact roll_of_ns h.ns
      | configured hev _ => exact hev.elim
      | resetMode hev _ _ => exact hev.elim
      | initialized _ _ _ h => exact roll_of_ns h.ns
    · by_cases hon : s.Listens
      · have hig : s.ignoredInResetMode r = false := by
          rw [ignoredInResetMode, hon.1, Bool.false_and]
        have hpath : ∀ (i : ℕ) (p : PathPacket), (pathRecv i p s).roll = s.roll := by
          intro i p
          refine Eq.trans ?_ (roll_pathWritten i p)
          have hout := pathOutcome_pathRecv i p h0
          generalize adverts (pathRecv i p s).calls = ads at hout
          cases hout with
          | first _ _ h => exact roll_of_ns h.ns
          | switched _ _ h => exact roll_of_ns h.ns
          | kept _ _ h => exact roll_of_ns h.ns
        rw [ecNeighborsRecv, hig, if_neg Bool.false_ne_true, hon.2, if_neg Bool.false_ne_true]
          at hc ⊢
        unfold neighborsRecv withSender at hc ⊢
        split at hc
        · cases hf : neighborsFindNeighborNode s.ns r.sender with
          | none =>
            simp only [hf] at hc
            exact absurd hc not_completes_assert_false
          | some i => exact hpath i (.bestPathUpdate (bestPathAt r.data 1))
        · next ht => exact absurd ht hinit
        · next ht => exact absurd ht halive
        · cases hf : neighborsFindNeighborNode s.ns r.sender with
          | none =>
            simp only [hf] at hc
            exact absurd hc not_completes_assert_false
          | some i => exact hpath i (.nodeInfo (coordinateAt r.data 1) (bestPathAt r.data 5))
        · next ht => exact absurd ht hre
        · exact absurd hc not_completes_assert_false
      · rw [hignored hon hinit]

/-- A neighbour that introduces itself. -/
theorem roll_mcUcRecv {r : RecvArgs} (hc : Completes (ecMcUcRecv r s).calls) :
    (ecMcUcRecv r s).roll = (r.originator, true) :: s.roll := by
  unfold ecMcUcRecv at hc ⊢
  split at hc
  · cases hadd : neighborsAdd s.ns r.originator with
    | none =>
      simp only [addNeighbors, hadd] at hc
      exact absurd hc not_completes_assert_false
    | some ns =>
      obtain ⟨b, hb, hused, hitem, -⟩ := QueueBuffer.pushFront_eq_some hadd
      have hne : ∀ i ∈ s.ns.used, i ≠ b := fun i hi heq => s.ns.disjoint hb (heq ▸ hi)
      have hrest : s.ns.used.map (fun i => ((ns.item i).addr, flagged ns i)) = s.roll := by
        apply List.map_congr_left
        intro i hi
        rw [flagged, hitem, Function.update_of_ne (hne i hi)]
        rfl
      simp only [addNeighbors, hadd]
      change ns.used.map (fun i => ((ns.item i).addr, flagged ns i)) = _
      rw [hused, List.map_cons, hrest, flagged, hitem, Function.update_self]
      rfl
  · exact absurd hc not_completes_assert_false

/-- No other event shows in the roll. -/
theorem roll_outcome {ev : AppEvent} {ads : List PathPacket} (hre : ¬ ev.Reconfigures)
    (hnbr : ∀ r, ev ≠ .neighborRecv r) (hnew : ∀ r, ev ≠ .mcUcRecv r)
    (hcheck : ev ≠ .keepaliveCheck) (ho : Outcome s ev t ads) : t.roll = s.roll := by
  cases ho with
  | quiet h => exact roll_of_ns h.ns
  | configured hev _ => exact absurd hev hre
  | resetMode hev _ _ => exact absurd hev hre
  | newNeighbor _ _ => exact absurd rfl (hnew _)
  | keepAlive _ _ => exact absurd rfl (hnbr _)
  | initialized _ _ _ h => exact roll_of_ns h.ns
  | path _ _ _ _ => exact absurd rfl (hnbr _)
  | sensed _ _ h => exact roll_of_ns h.ns
  | sensedSent _ _ _ h _ => exact roll_of_ns h.ns
  | dropped _ _ _ => exact absurd rfl hcheck
  | droppedSwitched _ _ _ _ => exact absurd rfl hcheck

/-- **What every event does to the roll**, if it does not set the node up. -/
theorem roll_step {e : AppEvent × ClockReading} (hnodup : s.addrs.Nodup)
    (hinst : s.installs e.1 = none) (hc : Completes (s.step e).calls) :
    (s.step e).roll = s.rollAfter e.1 := by
  rcases installs_or_outcome hc with (⟨sp, hsp, -⟩ | ⟨-, hr, -⟩) | ⟨hre, -, ho⟩
  · rw [hinst] at hsp
    cases hsp
  · -- an event that could have set the node up
    obtain ⟨ev, c⟩ := e
    have hroll := roll_of_ns hr.ns
    cases ev with
    | neighborRecv r =>
      by_cases hre : (AppEvent.neighborRecv r).Reconfigures
      · have hnot : ¬ s.HearsAlive r := fun h => by
          have htype := h.2
          rw [show packetTypeAt r.data = some .resetSystem from hre] at htype
          cases htype
        rw [hroll, rollAfter, if_neg hnot]
      · exact roll_neighborRecv (s := s.wake c) hnodup rfl hre hc
    | mcUcRecv r => exact roll_mcUcRecv (s := s.wake c) hc
    | keepaliveCheck =>
      change (s.wake c).keepaliveCheck.roll = if s.state.isBlinking then s.roll.check else s.roll
      split
      · next hblink => exact roll_keepaliveCheck (s := s.wake c) hnodup hblink
      · exact hroll
    | _ => exact hroll
  · obtain ⟨ev, c⟩ := e
    cases ev with
    | neighborRecv r => exact roll_neighborRecv (s := s.wake c) hnodup rfl hre hc
    | mcUcRecv r => exact roll_mcUcRecv (s := s.wake c) hc
    | keepaliveCheck =>
      change (s.wake c).keepaliveCheck.roll = if s.state.isBlinking then s.roll.check else s.roll
      split
      · next hblink => exact roll_keepaliveCheck (s := s.wake c) hnodup hblink
      · next hdark =>
        have hsame : (s.wake c).keepaliveCheck = s.wake c := if_neg hdark
        rw [hsame]
        rfl
    | _ =>
      exact roll_outcome hre (fun _ h => by cases h) (fun _ h => by cases h)
        (fun h => by cases h) ho

end Node

/-! ### Counting -/

/-- A node, and for how many checks each address has been silent. -/
structure Watched where
  node : Node
  silent : Rimeaddr → ℕ

namespace Watched

variable {W W' : Watched} {e : LifeEvent} {a : Rimeaddr}

/-- How the count goes on. -/
def silentAfter (W : Watched) : LifeEvent → Rimeaddr → ℕ
  | .powerUp _ _ => fun _ => 0
  | .app (ev, _) =>
    match W.node.installs ev with
    | some _ => fun _ => 0
    | none =>
      match ev with
      | .neighborRecv r =>
        if W.node.HearsAlive r then Function.update W.silent r.sender 0 else W.silent
      | .mcUcRecv r => Function.update W.silent r.originator 0
      | .keepaliveCheck => if W.node.state.isBlinking then fun a => W.silent a + 1 else W.silent
      | _ => W.silent

/-- The life of a node, with the count beside it. -/
def machine : Machine Watched LifeEvent where
  init W := lifeMachine.init W.node ∧ W.silent = fun _ => 0
  step e W W' := lifeMachine.step e W.node W'.node ∧ W'.silent = W.silentAfter e

/-- The event gives the node a new table. -/
def Replaces (W : Watched) : LifeEvent → Prop
  | .powerUp _ _ => True
  | .app (ev, _) => W.node.installs ev ≠ none

/-- The table is a set, and the count is right. -/
structure Inv (W : Watched) : Prop where
  tabled : W.node.Tabled
  counted : W.node.roll.Counted W.silent

theorem mem_addrs : a ∈ W.node.addrs ↔ ∃ x, (a, x) ∈ W.node.roll := by
  rw [← W.node.map_fst_roll, List.mem_map]
  constructor
  · rintro ⟨⟨b, x⟩, hmem, rfl⟩
    exact ⟨x, hmem⟩
  · rintro ⟨x, hmem⟩
    exact ⟨_, hmem, rfl⟩

/-- Everybody in a new table counts as heard. -/
theorem heard_setupParse (m : List UInt8) (b : Bool) (u : Node) {s : Node}
    (hns : s.ns = (Node.setupParse m b u).ns) : ∀ e ∈ s.roll, e.2 = true := by
  intro e he
  obtain ⟨i, hi, rfl⟩ := List.mem_map.mp he
  rw [hns] at hi ⊢
  obtain ⟨a, ha⟩ := (Node.configured_setupParse m b u).1.fresh i hi
  rw [Node.flagged, ha]
  rfl

theorem heard_resetNodeProperties (addr : Rimeaddr) (flash : Option (List UInt8)) :
    ∀ e ∈ (Node.resetNodeProperties addr flash).roll, e.2 = true := by
  cases flash with
  | none => exact fun e he => by cases he
  | some f => exact heard_setupParse _ _ _ rfl

/-- **An event that gives no new table keeps the count.** -/
theorem counted_step {ev : AppEvent × ClockReading} (h : W.Inv)
    (hg : W.node.NeighborGuard (.app ev)) (hinst : W.node.installs ev.1 = none)
    (hc : Completes (W.node.step ev).calls) :
    (W.node.step ev).roll.Counted (W.silentAfter (.app ev)) := by
  have hnodup := h.tabled.nodup
  rw [Node.roll_step hnodup hinst hc]
  obtain ⟨ev, c⟩ := ev
  simp only at hinst
  simp only [silentAfter, hinst]
  cases ev with
  | neighborRecv r =>
    simp only [Node.rollAfter]
    split
    · exact h.counted.answer r.sender
    · exact h.counted
  | mcUcRecv r =>
    have ht : packetTypeAt r.data = some .imYourNewNeighbor := by
      change Completes (Node.ecMcUcRecv r (W.node.wake c)).calls at hc
      unfold Node.ecMcUcRecv at hc
      split at hc
      · assumption
      · exact absurd hc Node.not_completes_assert_false
    have hnew : r.originator ∉ W.node.roll.map Prod.fst := by
      rw [Node.map_fst_roll]
      exact Node.not_mem_addrs.mp (hg ht).1
    exact h.counted.join hnew
  | keepaliveCheck =>
    simp only [Node.rollAfter]
    split
    · exact h.counted.check (by rw [Node.map_fst_roll]; exact hnodup)
    · exact h.counted
  | _ => exact h.counted

theorem inv_of_reachable (h : machine.ReachableWhen (fun W e => W.node.NeighborGuard e) W) :
    W.Inv := by
  refine h.invariant (fun W hinit => ?_) fun W e W' hW hok hstep => ?_
  · obtain ⟨⟨addr, hnode⟩, hsilent⟩ := hinit
    refine ⟨hnode ▸ Node.tabled_zero addr, ?_⟩
    rw [hsilent, hnode]
    exact Roll.counted_of_heard (heard_resetNodeProperties addr none)
  · obtain ⟨hnode, hsilent⟩ := hstep
    cases e with
    | powerUp addr flash =>
      obtain ⟨hnode, -⟩ := hnode
      refine ⟨hnode ▸ hW.tabled.powerUp hok, ?_⟩
      rw [hsilent, hnode]
      exact Roll.counted_of_heard (heard_resetNodeProperties addr flash)
    | app ev =>
      obtain ⟨-, hnode, hc⟩ := hnode
      rw [hnode] at hc
      refine ⟨hnode ▸ hW.tabled.step hok hc, ?_⟩
      rw [hsilent, hnode]
      rcases Node.installs_cases hc with ⟨sp, hsp, htook⟩ | ⟨hnone, -⟩
      · have hzero : W.silentAfter (.app ev) = fun _ => 0 := by
          simp only [silentAfter, hsp]
        obtain ⟨m, b, u, hns⟩ := htook.ns
        rw [hzero]
        exact Roll.counted_of_heard (heard_setupParse m b u hns)
      · exact counted_step hW hok hnone hc

/-- **Nobody is silent for more than two checks, and nobody who answers is struck out**: a neighbour
leaves the table with the whole table, or in a check that it has not answered.  The check leaves
those who have answered, and one that is the head afterwards and has been silent only now. -/
theorem silent_of_reachable (h : machine.ReachableWhen (fun W e => W.node.NeighborGuard e) W) :
    (∀ a ∈ W.node.addrs, W.silent a ≤ 2) ∧
      (∀ e W', machine.step e W W' → ∀ a ∈ W.node.addrs, a ∉ W'.node.addrs → W.Replaces e ∨
        (∃ c, e = .app (.keepaliveCheck, c)) ∧ W.node.state.isBlinking = true ∧ W.silent a ≠ 0) ∧
      ∀ c W', machine.step (.app (.keepaliveCheck, c)) W W' → W.node.state.isBlinking = true →
        ∀ a ∈ W'.node.addrs, W.silent a = 0 ∨ W.silent a = 1 ∧ W'.node.addrs.head? = some a := by
  have hW := inv_of_reachable h
  have hnodup := hW.tabled.nodup
  refine ⟨fun a ha => ?_, fun e W' hstep a ha hout => ?_, fun c W' hstep hblink a ha => ?_⟩
  · obtain ⟨x, hx⟩ := mem_addrs.mp ha
    exact hW.counted.le _ hx
  · cases e with
    | powerUp addr flash => exact .inl trivial
    | app ev =>
      by_cases hinst : W.node.installs ev.1 = none
      · obtain ⟨⟨-, hnode, hc⟩, -⟩ := hstep
        rw [hnode] at hc
        have hroll := Node.roll_step hnodup hinst hc
        rw [← hnode] at hroll
        obtain ⟨ev, c⟩ := ev
        -- the addresses stay, but for a check
        have hsame : ∀ l : Roll, W'.node.roll = l → a ∈ l.map Prod.fst → False := by
          rintro _ rfl hmem
          rw [Node.map_fst_roll] at hmem
          exact hout hmem
        rw [← Node.map_fst_roll] at ha
        cases ev with
        | neighborRecv r =>
          refine (hsame _ hroll ?_).elim
          simp only [Node.rollAfter]
          split
          · rw [Roll.map_fst_answer]
            exact ha
          · exact ha
        | mcUcRecv r => exact (hsame _ hroll (List.mem_cons_of_mem _ ha)).elim
        | keepaliveCheck =>
          simp only [Node.rollAfter] at hroll
          split at hroll
          · next hblink =>
            refine .inr ⟨⟨c, rfl⟩, hblink, fun hzero => ?_⟩
            obtain ⟨⟨b, x⟩, hmem, rfl⟩ := List.mem_map.mp ha
            have hx : x = true := (hW.counted.heard _ hmem).mpr hzero
            rw [hx] at hmem
            exact hsame _ hroll (List.mem_map.mpr ⟨_, Roll.mem_check_of_answered hmem, rfl⟩)
          · exact (hsame _ hroll ha).elim
        | _ => exact (hsame _ hroll ha).elim
      · exact .inl hinst
  · obtain ⟨⟨-, hnode, hc⟩, -⟩ := hstep
    rw [hnode] at hc
    have hroll := Node.roll_step hnodup rfl hc
    rw [← hnode, Node.rollAfter, if_pos hblink] at hroll
    obtain ⟨x, hx⟩ := mem_addrs.mp ha
    rw [hroll] at hx
    rcases hW.counted.left (by rw [Node.map_fst_roll]; exact hnodup) _ hx with hzero | ⟨hone, hhead⟩
    · exact .inl hzero
    · refine .inr ⟨hone, ?_⟩
      rw [← Node.map_fst_roll, hroll, List.head?_map, hhead]
      rfl

/-! ### Two silent neighbours -/

/-- One event, `none` where `lifeMachine` has no step. -/
def advance (e : LifeEvent) (W : Watched) : Option Watched :=
  (Node.lifeAdvance e W.node).map fun s => ⟨s, W.silentAfter e⟩

theorem step_of_advance (e : LifeEvent) (W W' : Watched) (h : W.advance e = some W') :
    machine.step e W W' := by
  obtain ⟨s, hs, rfl⟩ := Option.map_eq_some_iff.mp h
  exact ⟨Node.lifeMachine_step_of_lifeAdvance _ _ _ hs, rfl⟩

/-- An exit node with two neighbours detects a fire, and hears from none of them. -/
def silentRun : List LifeEvent :=
  let at₀ (ev : AppEvent) : LifeEvent := .app (ev, ⟨0, 0⟩)
  [at₀ (.serial (.simulationSetup { Node.twoNeighbors with isExitNode := 1 })),
    at₀ (.serial .init), at₀ (.emergencyCheck 500), at₀ .keepaliveCheck, at₀ .keepaliveCheck]

/-- One of them has been struck out after two checks, the other will be in the third. -/
theorem silent_pair : ∃ W, machine.ReachableWhen (fun W e => W.node.NeighborGuard e) W ∧
    W.node.addrs = [⟨20, 0⟩] ∧ W.silent ⟨20, 0⟩ = 2 ∧
    ∀ c W', machine.step (.app (.keepaliveCheck, c)) W W' → ⟨20, 0⟩ ∉ W'.node.addrs := by
  have h : ((Machine.run advance silentRun ⟨.resetNodeProperties rimeaddrNull none, fun _ => 0⟩).map
      fun W => (W.node.addrs, W.silent ⟨20, 0⟩, W.node.state.isBlinking)) =
        some ([⟨20, 0⟩], 2, true) := by
    decide +kernel
  obtain ⟨W, hrun, hW⟩ := Option.map_eq_some_iff.mp h
  simp only [Prod.mk.injEq] at hW
  obtain ⟨haddrs, hsilent, hblink⟩ := hW
  have hreach : machine.ReachableWhen (fun W e => W.node.NeighborGuard e) W :=
    Machine.ReachableWhen.of_run (b := fun W e => decide (W.node.NeighborGuard e))
      (fun _ _ => of_decide_eq_true) step_of_advance _ (.init ⟨⟨rimeaddrNull, rfl⟩, rfl⟩)
      (by decide +kernel) hrun
  obtain ⟨-, -, hcheck⟩ := silent_of_reachable hreach
  refine ⟨W, hreach, haddrs, hsilent, fun c W' hstep hmem => ?_⟩
  have hleft := hcheck c W' hstep hblink _ hmem
  rw [hsilent] at hleft
  omega

end Watched

end EmergencyNet
