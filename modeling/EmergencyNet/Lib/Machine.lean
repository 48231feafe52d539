import Mathlib.Logic.Relation

/-!
# Transition systems and guarded runs

A `Machine` has initial states and labelled steps.  A *guarded* run is a run all of whose
steps meet a condition on the state before the step and on its label; plain
reachability is the run guarded by `True`.

## Main definitions

* `Machine σ ε` — initial states and a labelled step relation.
* `Machine.ReachableWhen ok s` — `s` is reached by a run whose steps all meet `ok`.
* `Machine.Reachable s` — `s` is reached by some run.
* `Machine.ofStep` — the machine of a partial step function.

## Main results

* `Machine.ReachableWhen.invariant` — **what holds initially and is preserved by every
  guarded step holds along every guarded run.**
* `Machine.ReachableWhen.of_run` — an explicit list of labels gives a guarded run.
-/

namespace EmergencyNet

/-- A transition system with states `σ` and step labels `ε`. -/
structure Machine (σ ε : Type*) where
  /-- The states a run may start in. -/
  init : σ → Prop
  /-- `step e s s'`: in `s` the step `e` may lead to `s'`. -/
  step : ε → σ → σ → Prop

namespace Machine

variable {σ ε : Type*} {M : Machine σ ε} {ok ok' : σ → ε → Prop} {s s' : σ} {e : ε}

/-- The states reached by a run of `M` whose steps all meet `ok`. -/
inductive ReachableWhen (M : Machine σ ε) (ok : σ → ε → Prop) : σ → Prop
  | init {s : σ} (h : M.init s) : ReachableWhen M ok s
  | next {s s' : σ} {e : ε} (h : ReachableWhen M ok s) (hok : ok s e) (hstep : M.step e s s') :
      ReachableWhen M ok s'

/-- The states reached by some run of `M`. -/
abbrev Reachable (M : Machine σ ε) : σ → Prop := M.ReachableWhen fun _ _ => True

/-- **The invariant rule**: a predicate that holds initially and is preserved by every
guarded step holds in every state of a guarded run. -/
theorem ReachableWhen.invariant {I : σ → Prop} (h : M.ReachableWhen ok s)
    (hinit : ∀ s, M.init s → I s)
    (hstep : ∀ s e s', I s → ok s e → M.step e s s' → I s') : I s := by
  induction h with
  | init h => exact hinit _ h
  | next _ hok hs ih => exact hstep _ _ _ ih hok hs

/-- Weakening the guard keeps the run. -/
theorem ReachableWhen.mono (h : M.ReachableWhen ok s) (himp : ∀ s e, ok s e → ok' s e) :
    M.ReachableWhen ok' s := by
  induction h with
  | init h => exact .init h
  | next _ hok hs ih => exact .next ih (himp _ _ hok) hs

/-- A guarded run is a run. -/
theorem ReachableWhen.reachable (h : M.ReachableWhen ok s) : M.Reachable s :=
  h.mono fun _ _ _ => trivial

/-- The machine that starts in `s₀` and moves by the partial step function `f`. -/
def ofStep (s₀ : σ) (f : ε → σ → Option σ) : Machine σ ε where
  init s := s = s₀
  step e s s' := f e s = some s'

@[simp] theorem ofStep_init {s₀ : σ} {f : ε → σ → Option σ} :
    (ofStep s₀ f).init s ↔ s = s₀ := Iff.rfl

@[simp] theorem ofStep_step {s₀ : σ} {f : ε → σ → Option σ} :
    (ofStep s₀ f).step e s s' ↔ f e s = some s' := Iff.rfl

/-- The state a partial step function reaches along a list of labels. -/
def run (f : ε → σ → Option σ) : List ε → σ → Option σ
  | [], s => some s
  | e :: es, s => (f e s).bind (run f es)

/-- Every label of the list meets the guard in the state it is taken in. -/
def runMeets (f : ε → σ → Option σ) (ok : σ → ε → Bool) : List ε → σ → Bool
  | [], _ => true
  | e :: es, s => ok s e && ((f e s).elim true fun s' => runMeets f ok es s')

/-- An explicit list of labels whose steps meet the guard is a guarded run. -/
theorem ReachableWhen.of_run {f : ε → σ → Option σ} {b : σ → ε → Bool}
    (hb : ∀ s e, b s e = true → ok s e) (hM : ∀ e s s', f e s = some s' → M.step e s s') :
    ∀ (es : List ε) {s s' : σ}, M.ReachableWhen ok s → runMeets f b es s = true →
      run f es s = some s' → M.ReachableWhen ok s' := by
  intro es
  induction es with
  | nil =>
    intro s s' h _ hrun
    rw [run, Option.some.injEq] at hrun
    exact hrun ▸ h
  | cons e es ih =>
    intro s s' h hmeets hrun
    rw [runMeets, Bool.and_eq_true] at hmeets
    cases hs : f e s with
    | none => simp [run, hs] at hrun
    | some s₁ =>
      simp only [run, hs, Option.bind_some] at hrun
      simp only [hs, Option.elim] at hmeets
      exact ih (h.next (hb _ _ hmeets.1) (hM _ _ _ hs)) hmeets.2 hrun

/-- The state an explicit list of labels leads to is reachable. -/
theorem Reachable.of_run {f : ε → σ → Option σ} (hM : ∀ e s s', f e s = some s' → M.step e s s')
    (es : List ε) (h : M.Reachable s) (hrun : run f es s = some s') : M.Reachable s' := by
  refine ReachableWhen.of_run (b := fun _ _ => true) (fun _ _ _ => trivial) hM es h ?_ hrun
  have hall : ∀ (es : List ε) (s : σ), runMeets f (fun _ _ => true) es s = true := by
    intro es
    induction es with
    | nil => intro s; rfl
    | cons e es ih => intro s; rw [runMeets]; cases f e s <;> simp [ih]
  exact hall es s

end Machine

end EmergencyNet
