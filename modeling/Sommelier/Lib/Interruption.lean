import Mathlib.Data.Nat.Notation
import Mathlib.Tactic.TypeStar

/-!
# Interrupted machines

A deterministic machine advances by itself and is interrupted now and then. While it runs it
counts its own steps, so the log of a run can say when each interruption came. When two runs
have the same log and neither machine can advance any more, they have ended in the same state.

## Main definitions

* `Interruptible`: a machine with its interruptions.
* `Interruptible.Run`: the runs of the machine, with their logs.
-/

/-- A machine that can be interrupted while it is running. Each of its own steps after which it
is still running moves its position on, interruptions do not move it. -/
structure Interruptible (κ μ : Type*) where
  Running : κ → Prop
  position : κ → ℕ
  advance : κ → Option κ
  interrupt : μ → κ → κ
  running_of_advance : ∀ {k k'}, advance k = some k' → Running k
  position_lt : ∀ {k k'}, advance k = some k' → Running k' → position k < position k'

namespace Interruptible
variable {κ μ : Type*} (M : Interruptible κ μ) {k k' k₁ k₂ : κ} {log log' : List (ℕ × μ)}

/-- The runs between two states, with the interruptions and their positions. -/
inductive Run : κ → List (ℕ × μ) → κ → Prop
  | refl (k : κ) : Run k [] k
  | advance {k k₁ k' : κ} {log : List (ℕ × μ)} (hstep : M.advance k = some k₁)
      (hrun : Run k₁ log k') : Run k log k'
  | interrupt {k k' : κ} {m : μ} {log : List (ℕ × μ)} (hrunning : M.Running k)
      (hrun : Run (M.interrupt m k) log k') : Run k ((M.position k, m) :: log) k'

namespace Run
variable {M}

theorem trans (h : M.Run k log k') (h' : M.Run k' log' k₂) : M.Run k (log ++ log') k₂ := by
  induction h with
  | refl k => exact h'
  | advance hstep _ ih => exact .advance hstep (ih h')
  | interrupt hrunning _ ih => exact .interrupt hrunning (ih h')

theorem running (h : M.Run k log k') (hlog : log ≠ []) : M.Running k := by
  cases h with
  | refl => exact absurd rfl hlog
  | advance hstep _ => exact M.running_of_advance hstep
  | interrupt hrunning _ => exact hrunning

/-- The first interruption does not come before the position of the state. -/
theorem position_le {p : ℕ} {m : μ} (h : M.Run k ((p, m) :: log) k') : M.position k ≤ p := by
  generalize hlog : (p, m) :: log = log' at h
  induction h with
  | refl => cases hlog
  | advance hstep hrun ih =>
    have hrunning := hrun.running (hlog ▸ List.cons_ne_nil _ _)
    exact Nat.le_trans (Nat.le_of_lt (M.position_lt hstep hrunning)) (ih hlog)
  | interrupt =>
    cases hlog
    exact Nat.le_refl _

/-- A machine that could advance where it was interrupted would be past that position. -/
theorem not_advance_of_interrupt {m : μ} (hstep : M.advance k = some k₁)
    (h : M.Run k₁ ((M.position k, m) :: log) k') : False :=
  Nat.not_lt_of_le h.position_le (M.position_lt hstep (h.running (List.cons_ne_nil _ _)))

/-- The log determines the state in which a machine comes to rest. -/
theorem unique (h₁ : M.Run k log k₁) (h₂ : M.Run k log k₂) (hrest₁ : M.advance k₁ = none)
    (hrest₂ : M.advance k₂ = none) : k₁ = k₂ := by
  induction h₁ with
  | refl k =>
    cases h₂ with
    | refl => rfl
    | advance hstep _ => cases hrest₁.symm.trans hstep
  | @advance k k' _ log hstep hrun ih =>
    cases h₂ with
    | refl => cases hrest₂.symm.trans hstep
    | advance hstep' hrun' =>
      obtain rfl := Option.some.inj (hstep.symm.trans hstep')
      exact ih hrun' hrest₁
    | interrupt _ _ => exact (not_advance_of_interrupt hstep hrun).elim
  | @interrupt k _ m log hrunning hrun ih =>
    cases h₂ with
    | advance hstep' hrun' => exact (not_advance_of_interrupt hstep' hrun').elim
    | interrupt _ hrun' => exact ih hrun' hrest₁

end Run
end Interruptible
