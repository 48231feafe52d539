import Mathlib.Combinatorics.SimpleGraph.Connectivity.Connected
import Mathlib.Order.Bounds.Basic

/-!
# Agreeing on the least value

Every node of a graph has a value of its own and holds a value, which is a bound it has heard
of or nothing yet.  When what a node holds reaches all its neighbours, and a node never holds
more than its own value, then in a connected graph all nodes hold the least value.

## Main definitions

* `HoldsOwn own top held` — what the nodes hold is a value of some node, and no more than their
  own, or nothing yet.

## Main results

* `HoldsOwn.isLeast` — **where no node holds less than a neighbour, all hold the least value.**
-/

namespace EmergencyNet

variable {ι α : Type*} [LinearOrder α] {own held : ι → α} {top : α} {G : SimpleGraph ι}

/-- Every node holds the value of some node, and no more than its own; or nothing yet, which
is `top`. -/
structure HoldsOwn (own held : ι → α) (top : α) : Prop where
  le : ∀ v, held v = top ∨ held v ≤ own v
  mem : ∀ v, held v = top ∨ held v ∈ Set.range own

/-- A bound that passes from neighbour to neighbour holds everywhere. -/
theorem le_of_reachable {u v : ι} (h : G.Reachable u v) (hu : held u ≠ top)
    (htop : ∀ w, held w ≤ top) (hedge : ∀ a b, G.Adj a b → held a ≠ top → held b ≤ held a) :
    held v ≤ held u := by
  obtain ⟨walk⟩ := h
  induction walk with
  | nil => exact le_refl _
  | @cons a b c hadj _ ih =>
    have hab : held b ≤ held a := hedge a b hadj hu
    have hb : held b ≠ top := fun heq => hu (le_antisymm (htop a) (heq ▸ hab))
    exact (ih hb).trans hab

/-- **Where no node holds less than a neighbour, and some node holds a value, all hold the
least.** -/
theorem HoldsOwn.isLeast (h : HoldsOwn own held top) (hG : G.Preconnected) (htop : ∀ w, held w ≤ top)
    (hedge : ∀ a b, G.Adj a b → held a ≠ top → held b ≤ held a) {u : ι} (hu : held u ≠ top) (v : ι) :
    IsLeast (Set.range own) (held v) := by
  have hvu : held v ≤ held u := le_of_reachable (hG u v) hu htop hedge
  have hv : held v ≠ top := fun heq => hu (le_antisymm (htop u) (heq ▸ hvu))
  refine ⟨(h.mem v).resolve_left hv, ?_⟩
  rintro x ⟨w, rfl⟩
  have hwv : held w ≤ held v := le_of_reachable (hG v w) hv htop hedge
  have hw : held w ≠ top := fun heq => hv (le_antisymm (htop v) (heq ▸ hwv))
  have hvw : held v ≤ held w := le_of_reachable (hG w v) hw htop hedge
  exact hvw.trans ((h.le w).resolve_left hw)

end EmergencyNet
