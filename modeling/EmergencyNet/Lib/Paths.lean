import Mathlib.Data.List.Chain
import Mathlib.Data.List.Nodup
import Mathlib.Order.Bounds.Basic

/-!
# Paths to a set of goals

Two facts about a relation between nodes and a set of goals.  If every node that is no goal
has a successor of smaller rank, then following successors leads to a goal without visiting
a node twice.  If a function solves Bellman's equations for positive weights, it gives the
least cost of a walk to a goal.

## Main definitions

* `SimplePath` — a list of nodes that leads to a goal and holds no node twice.
* `Walk` — a walk to a goal, with its cost.
* `Route` — a way from a node, with the number of its hops.

## Main results

* `exists_simplePath` — **a rank that decreases leads to a goal.**
* `isLeast_of_bellman` — **a solution of Bellman's equations is the least cost.**
-/

namespace EmergencyNet

namespace Paths

variable {V : Type*} {next edge : V → V → Prop} {goal ok : V → Prop} {cost : V → V → ℕ}
  {d : V → ℕ} {v w : V} {k : ℕ}

/-! ### Descending paths -/

/-- The list leads from `v` along `next` to a goal and holds no node twice. -/
structure SimplePath (next : V → V → Prop) (goal : V → Prop) (v : V) (l : List V) : Prop where
  head : l.head? = some v
  chain : l.IsChain next
  last : ∃ g ∈ l.getLast?, goal g
  nodup : l.Nodup

/-- The path of one node. -/
theorem simplePath_singleton (h : goal v) : SimplePath next goal v [v] where
  head := rfl
  chain := .singleton v
  last := ⟨v, rfl, h⟩
  nodup := List.nodup_singleton v

/-- One more node in front. -/
theorem SimplePath.cons {l : List V} (h : SimplePath next goal w l) (hnext : next v w)
    (hnot : v ∉ l) : SimplePath next goal v (v :: l) := by
  cases l with
  | nil => exact absurd h.head (by simp)
  | cons b l =>
    obtain rfl : b = w := by simpa using h.head
    refine ⟨rfl, h.chain.cons_cons hnext, ?_, List.nodup_cons.mpr ⟨hnot, h.nodup⟩⟩
    rw [List.getLast?_cons_cons]
    exact h.last

/-- **Where every node has reached a goal or has a successor of smaller rank, following the
successors leads to a goal without visiting a node twice.** -/
theorem exists_simplePath (ok : V → Prop) (rank : V → ℕ)
    (h : ∀ v, ok v → goal v ∨ ∃ w, next v w ∧ ok w ∧ rank w < rank v) (hv : ok v) :
    ∃ l, SimplePath next goal v l := by
  -- by induction on the rank, which also bounds the ranks along the path
  suffices hbound : ∀ (n : ℕ) (v : V), rank v = n → ok v →
      ∃ l, SimplePath next goal v l ∧ ∀ b ∈ l, rank b ≤ rank v by
    obtain ⟨l, hl, -⟩ := hbound _ v rfl hv
    exact ⟨l, hl⟩
  intro n
  induction n using Nat.strong_induction_on with
  | _ n ih =>
    intro v hn hok
    rcases h v hok with hgoal | ⟨w, hnext, hw, hlt⟩
    · refine ⟨[v], simplePath_singleton hgoal, fun b hb => ?_⟩
      rw [List.mem_singleton.mp hb]
    · obtain ⟨l, hl, hle⟩ := ih (rank w) (hn ▸ hlt) w rfl hw
      refine ⟨v :: l, hl.cons hnext fun hmem => ?_, fun b hb => ?_⟩
      · exact absurd (hle v hmem) (not_le.mpr hlt)
      · rcases List.mem_cons.mp hb with rfl | hb
        · exact le_rfl
        · exact (hle b hb).trans hlt.le

/-- A path does not leave a set that is closed under the relation. -/
theorem SimplePath.mem_of_closed {S : V → Prop} {l : List V} (hS : ∀ a b, S a → next a b → S b)
    (h : SimplePath next goal v l) (hv : S v) : ∃ g, goal g ∧ S g := by
  have hall : ∀ (l : List V) (v : V), l.head? = some v → l.IsChain next → S v → ∀ b ∈ l, S b := by
    intro l
    induction l with
    | nil => intro v _ _ _ b hb; cases hb
    | cons a l ih =>
      intro v hhead hchain hv b hb
      obtain rfl : a = v := by simpa using hhead
      rcases List.mem_cons.mp hb with rfl | hb
      · exact hv
      · cases l with
        | nil => cases hb
        | cons c l =>
          obtain ⟨hnext, hrest⟩ := List.isChain_cons_cons.mp hchain
          exact ih c rfl hrest (hS a c hv hnext) b hb
  obtain ⟨g, hg, hgoal⟩ := h.last
  exact ⟨g, hgoal, hall l v h.head h.chain hv g (List.mem_of_mem_getLast? hg)⟩

/-! ### Least costs -/

/-- `Walk edge cost goal v k`: a walk of cost `k` leads from `v` to a goal. -/
inductive Walk (edge : V → V → Prop) (cost : V → V → ℕ) (goal : V → Prop) : V → ℕ → Prop
  | stop {v : V} (h : goal v) : Walk edge cost goal v 0
  | step {v w : V} {k : ℕ} (h : edge v w) (hw : Walk edge cost goal w k) :
      Walk edge cost goal v (cost v w + k)

/-- No walk costs less than a function that grows along an edge by at most its cost. -/
theorem le_of_walk (hclosed : ∀ v w, ok v → edge v w → ok w)
    (hgoal : ∀ v, ok v → goal v → d v = 0)
    (hle : ∀ v w, ok v → edge v w → d v ≤ cost v w + d w) (hwalk : Walk edge cost goal v k) :
    ok v → d v ≤ k := by
  induction hwalk with
  | stop h => exact fun hok => (hgoal _ hok h).le
  | step h _ ih =>
    intro hok
    have hw := ih (hclosed _ _ hok h)
    exact (hle _ _ hok h).trans (Nat.add_le_add_left hw _)

/-- A function attained along edges of positive cost is the cost of a walk. -/
theorem walk_of_attained (hpos : ∀ v w, edge v w → 0 < cost v w)
    (hclosed : ∀ v w, ok v → edge v w → ok w) (hgoal : ∀ v, ok v → goal v → d v = 0)
    (hattain : ∀ v, ok v → goal v ∨ ∃ w, edge v w ∧ d v = cost v w + d w) (hv : ok v) :
    Walk edge cost goal v (d v) := by
  generalize hn : d v = n
  induction n using Nat.strong_induction_on generalizing v with
  | _ n ih =>
    rcases hattain v hv with hg | ⟨w, hedge, heq⟩
    · rw [← hn, hgoal v hv hg]
      exact .stop hg
    · have hlt : d w < n := by
        have := hpos v w hedge
        omega
      rw [← hn, heq]
      exact .step hedge (ih (d w) hlt (hclosed v w hv hedge) rfl)

/-- **A solution of Bellman's equations is the least cost of a walk to a goal.** -/
theorem isLeast_of_bellman (ok : V → Prop) (hpos : ∀ v w, edge v w → 0 < cost v w)
    (hclosed : ∀ v w, ok v → edge v w → ok w) (hgoal : ∀ v, ok v → goal v → d v = 0)
    (hle : ∀ v w, ok v → edge v w → d v ≤ cost v w + d w)
    (hattain : ∀ v, ok v → goal v ∨ ∃ w, edge v w ∧ d v = cost v w + d w) (hv : ok v) :
    IsLeast { k | Walk edge cost goal v k } (d v) :=
  ⟨walk_of_attained hpos hclosed hgoal hattain hv, fun _ hk => le_of_walk hclosed hgoal hle hk hv⟩

/-! ### Routes -/

/-- A way of `k` hops from `v` along `edge`; the last hop comes last. -/
inductive Route (edge : V → V → Prop) (v : V) : V → ℕ → Prop
  | here : Route edge v v 0
  | hop {u w : V} {k : ℕ} (h : Route edge v u k) (hedge : edge u w) : Route edge v w (k + 1)

/-- Whatever is reached by a route is reached. -/
theorem Route.reflTransGen (h : Route edge v w k) : Relation.ReflTransGen edge v w := by
  induction h with
  | here => exact .refl
  | hop _ hedge ih => exact ih.tail hedge

end Paths

end EmergencyNet
