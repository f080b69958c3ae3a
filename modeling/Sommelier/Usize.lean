import Mathlib.Algebra.Group.Nat.Defs
import Mathlib.Tactic.Common

/-!
# Machine sizes

Checked arithmetic on the 64-bit `usize`, and slices of byte strings. An index outside a
byte string is a panic, which the model keeps apart from every other result.

## Main definitions

* `checkedAdd`, `checkedMul`, `checkedSub`: sums, products and differences, unless they
  overflow.
* `slice`: a part of a byte string, unless its bounds are wrong.
-/
namespace Sommelier

/-- `checked_add`, `checked_mul` and `checked_sub` on 64-bit `usize`. -/
def checkedAdd (a b : ℕ) : Option ℕ := if a + b < 2 ^ 64 then some (a + b) else none

def checkedMul (a b : ℕ) : Option ℕ := if a * b < 2 ^ 64 then some (a * b) else none

def checkedSub (a b : ℕ) : Option ℕ := if b ≤ a then some (a - b) else none

theorem checkedAdd_eq_some {a b c : ℕ} (h : checkedAdd a b = some c) : c = a + b := by
  unfold checkedAdd at h
  split_ifs at h
  exact (Option.some.inj h).symm

theorem checkedMul_eq_some {a b c : ℕ} (h : checkedMul a b = some c) : c = a * b := by
  unfold checkedMul at h
  split_ifs at h
  exact (Option.some.inj h).symm

theorem checkedAdd_eq_some_iff {a b c : ℕ} :
    checkedAdd a b = some c ↔ a + b < 2 ^ 64 ∧ a + b = c := by
  simp [checkedAdd, Option.ite_none_right_eq_some]

theorem checkedMul_eq_some_iff {a b c : ℕ} :
    checkedMul a b = some c ↔ a * b < 2 ^ 64 ∧ a * b = c := by
  simp [checkedMul, Option.ite_none_right_eq_some]

theorem checkedMul_of_lt {a b : ℕ} (h : a * b < 2 ^ 64) : checkedMul a b = some (a * b) :=
  if_pos h

theorem checkedAdd_of_lt {a b : ℕ} (h : a + b < 2 ^ 64) : checkedAdd a b = some (a + b) :=
  if_pos h

/-- `bytes[start..stop]`; `none` is the panic of bounds that are out of order or outside. -/
def slice {α : Type} (bytes : List α) (start stop : ℕ) : Option (List α) :=
  if start ≤ stop ∧ stop ≤ bytes.length then some ((bytes.drop start).take (stop - start))
  else none

theorem slice_of_le {α : Type} {bytes : List α} {start stop : ℕ} (hstart : start ≤ stop)
    (hstop : stop ≤ bytes.length) :
    slice bytes start stop = some ((bytes.drop start).take (stop - start)) :=
  if_pos ⟨hstart, hstop⟩

end Sommelier
