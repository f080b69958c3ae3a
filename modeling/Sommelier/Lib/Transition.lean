import Mathlib.Tactic.SplitIfs
import Mathlib.Tactic.TypeStar

/-!
# Input-driven transition systems

A system has initial states and a partial step: an input either moves the state or
ends the session. Properties of whole runs are derived from what one step preserves,
possibly only for the steps that meet a side condition on the state and the input.

## Main definitions

* `TransitionSystem`: initial states and a partial step.
* `TransitionSystem.run`: the state after a list of inputs.
* `TransitionSystem.ReachableWhile`: the states of runs whose steps meet a condition.
* `TransitionSystem.restrict`: the system that refuses the other steps.
-/

/-- Initial states and a step taken on an input; `none` ends the session. -/
structure TransitionSystem (σ ι : Type*) where
  init : σ → Prop
  step : σ → ι → Option σ

namespace TransitionSystem
variable {σ ι : Type*} (T : TransitionSystem σ ι)

/-- The state after a list of inputs, when no input ends the session. -/
def run (s : σ) (is : List ι) : Option σ := is.foldlM T.step s

@[simp] theorem run_nil (s : σ) : T.run s [] = some s := rfl

@[simp] theorem run_cons (s : σ) (i : ι) (is : List ι) :
    T.run s (i :: is) = (T.step s i).bind fun t => T.run t is := by
  simp [run, List.foldlM_cons]

theorem run_append (s : σ) (is js : List ι) :
    T.run s (is ++ js) = (T.run s is).bind fun t => T.run t js := by
  simp [run, List.foldlM_append]

/-- The states of runs from an initial state whose steps all meet `G`. -/
inductive ReachableWhile (G : σ → ι → Prop) : σ → Prop
  | init {s : σ} (h : T.init s) : ReachableWhile G s
  | step {s t : σ} {i : ι} (hs : ReachableWhile G s) (hG : G s i)
      (ht : T.step s i = some t) : ReachableWhile G t

/-- The states of unrestricted runs. -/
abbrev Reachable : σ → Prop := T.ReachableWhile fun _ _ => True

variable {T} {G G' : σ → ι → Prop} {I : σ → Prop}

theorem ReachableWhile.mono (hGG' : ∀ s i, G s i → G' s i) {s : σ}
    (hs : T.ReachableWhile G s) : T.ReachableWhile G' s := by
  induction hs with
  | init h => exact .init h
  | step _ hG ht ih => exact .step ih (hGG' _ _ hG) ht

theorem ReachableWhile.reachable {s : σ} (hs : T.ReachableWhile G s) : T.Reachable s :=
  hs.mono fun _ _ _ => trivial

/-- What holds initially and survives every admitted step holds along every run. -/
theorem ReachableWhile.invariant (hinit : ∀ s, T.init s → I s)
    (hstep : ∀ s i t, T.ReachableWhile G s → I s → G s i → T.step s i = some t → I t)
    {s : σ} (hs : T.ReachableWhile G s) : I s := by
  induction hs with
  | init h => exact hinit _ h
  | step hs hG ht ih => exact hstep _ _ _ hs ih hG ht

/-- Runs of a system that another one follows step by step are runs of the other. -/
theorem ReachableWhile.map {τ : Type*} {U : TransitionSystem τ ι} {H : τ → ι → Prop} {f : σ → τ}
    (hinit : ∀ s, T.init s → U.init (f s))
    (hstep : ∀ s i t, G s i → T.step s i = some t → H (f s) i ∧ U.step (f s) i = some (f t))
    {s : σ} (hs : T.ReachableWhile G s) : U.ReachableWhile H (f s) := by
  induction hs with
  | init h => exact .init (hinit _ h)
  | step _ hG ht ih => exact .step ih (hstep _ _ _ hG ht).1 (hstep _ _ _ hG ht).2

/-- A successful run whose inputs meet the condition in every state. -/
theorem ReachableWhile.run {s t : σ} {is : List ι} (hs : T.ReachableWhile G s)
    (hG : ∀ i ∈ is, ∀ s, G s i) (ht : T.run s is = some t) : T.ReachableWhile G t := by
  induction is generalizing s with
  | nil =>
    rw [run_nil, Option.some.injEq] at ht
    exact ht ▸ hs
  | cons i is ih =>
    rw [run_cons, Option.bind_eq_some_iff] at ht
    obtain ⟨u, hu, ht⟩ := ht
    obtain ⟨hi, his⟩ := List.forall_mem_cons.mp hG
    exact ih (.step hs (hi s) hu) his ht

/-- A successful run from a reachable state ends in a reachable state. -/
theorem Reachable.run {s t : σ} {is : List ι} (hs : T.Reachable s)
    (ht : T.run s is = some t) : T.Reachable t :=
  ReachableWhile.run hs (fun _ _ _ => trivial) ht

/-- The system that takes only the steps that pass a test. -/
def restrict (T : TransitionSystem σ ι) (test : σ → ι → Bool) : TransitionSystem σ ι where
  init := T.init
  step s i := if test s i then T.step s i else none

theorem run_of_restrict {test : σ → ι → Bool} {s t : σ} {is : List ι}
    (h : (T.restrict test).run s is = some t) : T.run s is = some t := by
  induction is generalizing s with
  | nil => exact h
  | cons i is ih =>
    rw [run_cons, Option.bind_eq_some_iff] at h ⊢
    obtain ⟨u, hu, ht⟩ := h
    change (if test s i then T.step s i else none) = some u at hu
    split_ifs at hu
    exact ⟨u, hu, ih ht⟩

theorem Reachable.of_restrict {test : σ → ι → Bool} (htest : ∀ s i, test s i = true → G s i)
    {s : σ} (hs : (T.restrict test).Reachable s) : T.ReachableWhile G s := by
  induction hs with
  | init h => exact .init h
  | @step s t i _ _ ht ih =>
    change (if test s i then T.step s i else none) = some t at ht
    split_ifs at ht with hpass
    exact .step ih (htest s i hpass) ht

end TransitionSystem
