import EmergencyNet.Routing.Selection

/-!
# The keep-alive check

The first loop of the check removes the entries of silent neighbours, by address, and
starts over at the head of the list after each removal; the second clears the flags of
those that are left.

## Main definitions

* `Node.BpnUnshadowed` — no other silent entry has the address of the best neighbour's.

## Main results

* `Node.sweep_cases` — **the three ways the first loop can end.**
* `Node.sweep_bpn`, `Node.mem_sweep_of_bpn` — what becomes of the best neighbour.
* `Node.findBest_dropSilent` — the check keeps the choice if it keeps the chosen entry.
-/

namespace EmergencyNet

namespace Node

variable {s : Node} {w : Sweep} {i j : ℕ}

/-! ### One removal -/

/-- Removing a neighbour takes one entry with its address off the table. -/
theorem neighborsRemove_used {ns : Neighbors} (hi : i ∈ ns.used) :
    ∃ k ∈ ns.used, (ns.item k).addr = (ns.item i).addr ∧
      (neighborsRemove ns (ns.item i).addr).used = ns.used.erase k := by
  unfold neighborsRemove
  cases hf : neighborsFindNeighborNode ns (ns.item i).addr with
  | none =>
    unfold neighborsFindNeighborNode QueueBuffer.find at hf
    exact absurd (beq_self_eq_true _) (List.find?_eq_none.mp hf i hi)
  | some k =>
    obtain ⟨hk, haddr⟩ := mem_of_neighborsFindNeighborNode hf
    exact ⟨k, hk, haddr, QueueBuffer.free_used _ _⟩

theorem neighborsRemove_item (ns : Neighbors) (addr : Rimeaddr) :
    (neighborsRemove ns addr).item = ns.item := by
  unfold neighborsRemove
  split
  · exact QueueBuffer.free_item _ _
  · rfl

theorem neighborsRemove_used_sublist (ns : Neighbors) (addr : Rimeaddr) :
    (neighborsRemove ns addr).used.Sublist ns.used := by
  unfold neighborsRemove
  split
  · rw [QueueBuffer.free_used]
    exact List.erase_sublist
  · exact List.Sublist.refl _

/-! ### The first loop -/

/-- What the first loop preserves, started on table `ns` with the best neighbour `bpn`. -/
structure SweepOk (ns : Neighbors) (bpn : NeighborPtr) (w : Sweep) : Prop where
  item : w.ns.item = ns.item
  sublist : w.ns.used.Sublist ns.used
  /-- The best neighbour is kept or was the entry of a silent one. -/
  bpn : w.bpn = bpn ∨ (∃ i ∈ ns.used, bpn = .slot i ∧ (ns.item i).hasSentKeepAlive = false) ∧
    w.bpn = .null

theorem SweepOk.drop {ns : Neighbors} {bpn : NeighborPtr} (h : SweepOk ns bpn w)
    (hi : i ∈ w.ns.used) (hsilent : (w.ns.item i).hasSentKeepAlive = false) :
    SweepOk ns bpn (w.drop i) where
  item := (neighborsRemove_item ..).trans h.item
  sublist := (neighborsRemove_used_sublist ..).trans h.sublist
  bpn := by
    unfold Sweep.drop
    simp only
    split
    · next hw =>
      refine Or.inr ⟨?_, rfl⟩
      rcases h.bpn with heq | ⟨-, hnull⟩
      · exact ⟨i, h.sublist.subset hi, heq ▸ hw, h.item ▸ hsilent⟩
      · rw [hnull] at hw
        exact NeighborPtr.noConfusion hw
    · exact h.bpn

/-- Every turn of the first loop keeps a predicate that a single removal keeps. -/
theorem sweepSilent_induction {P : Sweep → Prop}
    (hdrop : ∀ w i, P w → i ∈ w.ns.used → (w.ns.item i).hasSentKeepAlive = false → P (w.drop i))
    (hneed : ∀ w, P w → P { w with needBroadcastNewPath := true }) :
    ∀ (fuel : ℕ) (rest : List ℕ) (w : Sweep), rest ⊆ w.ns.used → P w →
      P (sweepSilent fuel rest w) := by
  intro fuel
  induction fuel with
  | zero => exact fun _ _ _ h => h
  | succ fuel ih =>
    intro rest w hsub h
    unfold sweepSilent
    split
    · exact h
    · next i hf =>
      have hsilent : (w.ns.item i).hasSentKeepAlive = false := by simpa using List.find?_some hf
      have hd := hdrop w i h (hsub (List.mem_of_find?_eq_some hf)) hsilent
      split
      · exact hd
      · next tail hused =>
        exact ih tail _ (by rw [hused]; exact List.subset_cons_self _ _) (hneed _ hd)

theorem sweepOk (s : Node) : SweepOk s.ns s.bpn s.sweep :=
  sweepSilent_induction (P := SweepOk s.ns s.bpn) (fun _ _ h => h.drop)
    (fun _ h => ⟨h.item, h.sublist, h.bpn⟩) _ _ _ (List.Subset.refl _)
    ⟨rfl, List.Sublist.refl _, Or.inl rfl⟩

/-- Once a new path is to be announced, an entry is left: the head of the list is passed
over, and no removal takes more than one entry. -/
theorem needBroadcastNewPath_sweepSilent : ∀ (fuel : ℕ) (rest : List ℕ) (w : Sweep),
    w.needBroadcastNewPath = true → rest ⊆ w.ns.used → rest.length < w.ns.used.length →
    (sweepSilent fuel rest w).needBroadcastNewPath = true ∧
      (sweepSilent fuel rest w).ns.used ≠ [] := by
  intro fuel
  induction fuel with
  | zero =>
    intro rest w hneed _ hlt
    exact ⟨hneed, List.ne_nil_of_length_pos (Nat.zero_lt_of_lt hlt)⟩
  | succ fuel ih =>
    intro rest w hneed hsub hlt
    unfold sweepSilent
    split
    · exact ⟨hneed, List.ne_nil_of_length_pos (Nat.zero_lt_of_lt hlt)⟩
    · next i hf =>
      have hmem := List.mem_of_find?_eq_some hf
      have hpos : 0 < rest.length := List.length_pos_of_mem hmem
      obtain ⟨k, hk, -, hused⟩ := neighborsRemove_used (hsub hmem)
      have hlen : (w.drop i).ns.used.length = w.ns.used.length - 1 := by
        change (neighborsRemove w.ns (w.ns.item i).addr).used.length = _
        rw [hused, List.length_erase_of_mem hk]
      split
      · next hnil =>
        rw [hnil, List.length_nil] at hlen
        omega
      · next j tail hcons =>
        exact ih tail _ rfl (hcons ▸ List.subset_cons_self _ _)
          (show tail.length < (w.drop i).ns.used.length by rw [hcons]; simp)

/-- **The three ways the first loop can end**: nobody was silent; the only entry was removed;
or an entry is left and a new path is to be announced. -/
theorem sweep_cases (s : Node) :
    s.sweep = ⟨s.ns, s.bpn, false⟩ ∨
    (∃ i, s.ns.used = [i] ∧ (s.ns.item i).hasSentKeepAlive = false ∧
      s.sweep.needBroadcastNewPath = false ∧ s.sweep.ns.used = [] ∧
      s.sweep.bpn = if s.bpn = .slot i then .null else s.bpn) ∨
    (s.sweep.needBroadcastNewPath = true ∧ s.sweep.ns.used ≠ []) := by
  unfold sweep
  generalize hn : s.ns.used.length = n
  cases n with
  | zero => exact Or.inl rfl
  | succ n =>
    unfold sweepSilent
    split
    · exact Or.inl rfl
    · next i hf =>
      refine Or.inr ?_
      have hmem : i ∈ s.ns.used := List.mem_of_find?_eq_some hf
      have hsilent : (s.ns.item i).hasSentKeepAlive = false := by simpa using List.find?_some hf
      split
      · next hnil =>
        refine Or.inl ⟨i, ?_, hsilent, rfl, hnil, rfl⟩
        obtain ⟨k, hk, -, hused⟩ := neighborsRemove_used hmem
        have herase : s.ns.used.erase k = [] := hused ▸ hnil
        have hlen := List.length_erase_of_mem hk
        rw [herase, List.length_nil] at hlen
        have hone : s.ns.used.length = 1 := by omega
        obtain ⟨a, ha⟩ := List.length_eq_one_iff.mp hone
        rw [ha, List.mem_singleton] at hmem
        rw [ha, hmem]
      · next j tail hcons =>
        exact Or.inr (needBroadcastNewPath_sweepSilent n tail _ rfl
          (hcons ▸ List.subset_cons_self _ _)
          (show tail.length < (Sweep.drop i _).ns.used.length by rw [hcons]; simp))

/-- The best neighbour is what it was, or missing if its entry was silent. -/
theorem sweep_bpn (s : Node) : s.sweep.bpn = s.bpn ∨
    (∃ i ∈ s.ns.used, s.bpn = .slot i ∧ (s.ns.item i).hasSentKeepAlive = false) ∧
      s.sweep.bpn = .null := (sweepOk s).bpn

/-- No other silent entry has the address of the best neighbour's entry.  Removal is by
address, so such an entry would take that of the best neighbour with it. -/
def BpnUnshadowed (s : Node) : Prop :=
  ∀ i, s.bpn = .slot i → ∀ j ∈ s.ns.used, j ≠ i → (s.ns.item j).addr = (s.ns.item i).addr →
    (s.ns.item j).hasSentKeepAlive = true

instance (s : Node) : Decidable s.BpnUnshadowed := by unfold BpnUnshadowed; infer_instance

/-- The best neighbour's entry stays in the table as long as the node holds on to it. -/
theorem mem_sweep_of_bpn (h : s.BpnUnshadowed) (hbpn : s.sweep.bpn = .slot i)
    (hi : i ∈ s.ns.used) : i ∈ s.sweep.ns.used := by
  have hP := sweepSilent_induction
    (P := fun w => SweepOk s.ns s.bpn w ∧ ∀ i, w.bpn = .slot i → i ∈ s.ns.used → i ∈ w.ns.used)
    (fun w j hw hj hsilent => by
      obtain ⟨hok, hmem⟩ := hw
      refine ⟨hok.drop hj hsilent, fun i hwi his => ?_⟩
      unfold Sweep.drop at hwi ⊢
      simp only at hwi ⊢
      split at hwi
      · exact absurd hwi NeighborPtr.noConfusion
      · next hne =>
        have hsi : s.bpn = .slot i := by
          rcases hok.bpn with heq | ⟨-, hnull⟩
          · exact heq ▸ hwi
          · rw [hnull] at hwi
            exact NeighborPtr.noConfusion hwi
        have hji : j ≠ i := fun heq => hne (heq ▸ hwi)
        obtain ⟨k, hk, haddr, hused⟩ := neighborsRemove_used hj
        rw [hused, w.ns.used_nodup.mem_erase_iff]
        refine ⟨fun hik => ?_, hmem i hwi his⟩
        rw [hok.item] at haddr hsilent
        rw [h i hsi j (hok.sublist.subset hj) hji (hik ▸ haddr.symm)] at hsilent
        exact Bool.noConfusion hsilent)
    (fun w hw => ⟨⟨hw.1.item, hw.1.sublist, hw.1.bpn⟩, hw.2⟩)
    s.ns.used.length s.ns.used ⟨s.ns, s.bpn, false⟩ (List.Subset.refl _)
    ⟨⟨rfl, List.Sublist.refl _, Or.inl rfl⟩, fun _ _ h => h⟩
  exact hP.2 i hbpn hi

/-! ### The second loop -/

theorem clearKeepAlive_used : ∀ (l : List ℕ) (ns : Neighbors),
    (clearKeepAlive l ns).used = ns.used := by
  intro l
  induction l with
  | nil => exact fun _ => rfl
  | cons i rest ih => exact fun ns => ih _

theorem clearKeepAlive_item : ∀ (l : List ℕ) (ns : Neighbors) (j : ℕ),
    ∃ b, (clearKeepAlive l ns).item j = (ns.item j).setHasSentKeepAlive b := by
  intro l
  induction l with
  | nil => exact fun ns j => ⟨(ns.item j).hasSentKeepAlive, rfl⟩
  | cons i rest ih =>
    intro ns j
    obtain ⟨b, hb⟩ := ih (ns.set i ((ns.item i).setHasSentKeepAlive false)) j
    refine ⟨b, hb.trans ?_⟩
    by_cases hij : j = i
    · subst hij
      rw [QueueBuffer.set_item_self]
      rfl
    · rw [QueueBuffer.set_item_of_ne _ _ hij]

/-! ### The check -/

theorem dropSilent_used (s : Node) : s.dropSilent.ns.used = s.sweep.ns.used :=
  clearKeepAlive_used _ _

theorem dropSilent_used_sublist (s : Node) : s.dropSilent.ns.used.Sublist s.ns.used :=
  s.dropSilent_used ▸ (sweepOk s).sublist

/-- When a new path is to be announced, there is somebody to announce it to. -/
theorem dropSilent_used_ne_nil (hneed : s.sweep.needBroadcastNewPath = true) :
    s.dropSilent.ns.used ≠ [] := by
  rw [dropSilent_used]
  rcases s.sweep_cases with hsame | ⟨i, -, -, hno, -⟩ | ⟨-, hne⟩
  · rw [hsame] at hneed
    exact absurd hneed Bool.false_ne_true
  · exact absurd (hno.symm.trans hneed) Bool.false_ne_true
  · exact hne

/-- The check leaves the entries as they are, but for the flag it reads. -/
theorem dropSilent_item (s : Node) (j : ℕ) :
    ∃ b, s.dropSilent.ns.item j = (s.ns.item j).setHasSentKeepAlive b := by
  obtain ⟨b, hb⟩ := clearKeepAlive_item s.sweep.ns.used s.sweep.ns j
  exact ⟨b, hb.trans (by rw [(sweepOk s).item])⟩

/-- The flag is no part of what an entry costs. -/
theorem cost_of_keepAlive {t : Node} {b : Bool} (haddr : t.rimeaddrNodeAddr = s.rimeaddrNodeAddr)
    (hitem : t.ns.item j = (s.ns.item j).setHasSentKeepAlive b) : t.cost j = s.cost j := by
  simp only [cost, total, eligible, hitem, haddr]
  rfl

theorem cost_dropSilent (s : Node) (j : ℕ) : s.dropSilent.cost j = s.cost j := by
  obtain ⟨b, hb⟩ := s.dropSilent_item j
  exact cost_of_keepAlive rfl hb

/-- The check keeps the choice if it keeps the chosen entry. -/
theorem findBest_dropSilent (hexit : s.state.isExitNode = false)
    (hkeep : ∀ i, s.findBestExitPathNeighbor = .slot i → i ∈ s.dropSilent.ns.used) :
    s.dropSilent.findBestExitPathNeighbor = s.findBestExitPathNeighbor :=
  findBest_of_dropped hexit hexit s.dropSilent_used_sublist (fun j _ => s.cost_dropSilent j) hkeep

end Node

end EmergencyNet
