import Mathlib.Data.List.Nodup

/-!
# Histories with a window

A store that keeps the `n` newest entries of its history, and takes an entry only when it is
not among these.  Histories are lists, newest entry first, so the window is a prefix.

## Main definitions

* `Windowed n l` — every entry of `l` was put in front of `n` others that differ from it.

## Main results

* `Windowed.nodup_take` — the window never holds an entry twice.
* `Windowed.exists_others` — **an entry leaves the window only after `n` others have been
  put in front of it.**
-/

namespace EmergencyNet

variable {α : Type*} {n : ℕ} {x : α} {l a b : List α}

/-- Every entry of the history differs from the `n` entries before it. -/
def Windowed (n : ℕ) : List α → Prop
  | [] => True
  | x :: l => x ∉ l.take n ∧ Windowed n l

theorem Windowed.of_append : ∀ {a : List α}, Windowed n (a ++ b) → Windowed n b := by
  intro a
  induction a with
  | nil => exact fun h => h
  | cons x a ih => exact fun h => ih h.2

/-- Together with the entry put last the window holds no entry twice. -/
theorem Windowed.nodup_take_succ : ∀ {l : List α} (n : ℕ), Windowed n l → (l.take (n + 1)).Nodup := by
  intro l
  induction l with
  | nil => intro n _; simp
  | cons x l ih =>
    intro n h
    rw [List.take_succ_cons, List.nodup_cons]
    refine ⟨h.1, ?_⟩
    have hsub : (l.take n).Sublist (l.take (n + 1)) := List.take_sublist_take_left (Nat.le_succ n)
    exact (ih n h.2).sublist hsub

/-- The window holds no entry twice. -/
theorem Windowed.nodup_take (h : Windowed n l) : (l.take n).Nodup :=
  (h.nodup_take_succ n).sublist (List.take_sublist_take_left (Nat.le_succ n))

/-- What has come into the window was put in front. -/
theorem mem_of_mem_take_append (h : x ∈ (a ++ b).take n) (hx : x ∉ b.take n) : x ∈ a := by
  rw [List.take_append, List.mem_append] at h
  rcases h with h | h
  · exact List.mem_of_mem_take h
  · have hsub : (b.take (n - a.length)).Sublist (b.take n) :=
      List.take_sublist_take_left (Nat.sub_le n a.length)
    exact absurd (hsub.subset h) hx

/-- **An entry leaves the window only after `n` others have been put in front of it.** -/
theorem Windowed.exists_others (h : Windowed n (a ++ x :: b)) (hx : x ∉ (a ++ x :: b).take n) :
    ∃ w : List α, w.Sublist a ∧ w.Nodup ∧ w.length = n ∧ x ∉ w := by
  -- the newest occurrence of the entry is the one that counts
  have hmem : x ∈ a ++ x :: b := List.mem_append_right a List.mem_cons_self
  obtain ⟨a', b', heq, hnew⟩ := List.eq_append_cons_of_mem hmem
  have hsub : a'.Sublist a := by
    obtain ⟨c, ha', hc⟩ | ⟨c, rfl, -⟩ := List.append_eq_append_iff.mp heq
    · cases c with
      | nil => rw [ha', List.append_nil]
      | cons y c =>
        rw [List.cons_append, List.cons.injEq] at hc
        refine absurd ?_ hnew
        rw [ha', ← hc.1]
        exact List.mem_append_right a List.mem_cons_self
    · exact List.sublist_append_left a' c
  rw [heq] at h hx
  have hlen : n ≤ a'.length := by
    by_contra hlt
    refine hx ?_
    rw [List.take_append, List.mem_append]
    refine Or.inr ?_
    rw [show n - a'.length = (n - a'.length - 1) + 1 by omega, List.take_succ_cons]
    exact List.mem_cons_self
  refine ⟨a'.drop (a'.length - n), (List.drop_sublist _ _).trans hsub, ?_, ?_, ?_⟩
  · have hw : Windowed n (a'.drop (a'.length - n) ++ x :: b') := by
      rw [← List.take_append_drop (a'.length - n) a', List.append_assoc] at h
      exact h.of_append
    have htake : (a'.drop (a'.length - n) ++ x :: b').take n = a'.drop (a'.length - n) := by
      apply List.take_left'
      rw [List.length_drop]
      omega
    rw [← htake]
    exact hw.nodup_take
  · rw [List.length_drop]
    omega
  · exact fun hw => hnew (List.mem_of_mem_drop hw)

end EmergencyNet
