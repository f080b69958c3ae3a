import Mathlib.Algebra.Group.Int.Defs
import Mathlib.Algebra.Ring.Nat
import Mathlib.Algebra.BigOperators.Group.List.Basic
import Mathlib.Tactic.Common

/-!
# Texts with a caret

A text is split at its caret. Text is inserted before the caret, and a range that is given
relative to the caret can be deleted. A range that touches the caret deletes some of the end of
what is before it and some of the start of what is after it; such deletions add up.

## Main definitions

* `SplitText`: a text and its caret.
* `SplitText.delete`: the deletion of a range relative to the caret.
* `SplitText.deleteAround`: the deletion of text on both sides of the caret.
-/

/-- A text before and after its caret. -/
@[ext] structure SplitText (α : Type*) where
  before : List α
  after : List α
  deriving DecidableEq, Repr

namespace SplitText
variable {α : Type*} (t : SplitText α)

def insert (text : List α) : SplitText α := { t with before := t.before ++ text }

/-- Delete `length` characters from the one `index` characters after the caret on, as far as the
text has them. -/
def delete (index : ℤ) (length : ℕ) : SplitText α :=
  let start := (t.before.length + index).toNat
  let stop := (t.before.length + index + length).toNat
  { before := t.before.take start ++ t.before.drop stop
    after := t.after.take (start - t.before.length) ++ t.after.drop (stop - t.before.length) }

/-- Delete `before` characters before the caret and `after` characters after it, as far as the
text has them. -/
def deleteAround (before after : ℕ) : SplitText α where
  before := t.before.take (t.before.length - before)
  after := t.after.drop after

/-- The caret is within the range or at one of its ends. -/
def Touches (range : ℤ × ℕ) : Prop := range.1 ≤ 0 ∧ 0 ≤ range.1 + range.2

instance : DecidablePred Touches := fun range =>
  inferInstanceAs (Decidable (range.1 ≤ 0 ∧ 0 ≤ range.1 + range.2))

/-- The parts of a range on the two sides of the caret. -/
def sides (range : ℤ × ℕ) : ℕ × ℕ := (range.1.natAbs, (range.1 + range.2).toNat)

/-- A range that touches the caret is deleted on its two sides. -/
theorem delete_of_touches {range : ℤ × ℕ} (h : Touches range) :
    t.delete range.1 range.2 = t.deleteAround (sides range).1 (sides range).2 := by
  obtain ⟨index, length⟩ := range
  obtain ⟨hindex, hlength⟩ := h
  dsimp only at hindex hlength
  have hstart : (t.before.length + index).toNat = t.before.length - index.natAbs := by omega
  have hstop : (t.before.length + index + length).toNat =
      t.before.length + (index + length).toNat := by omega
  have hnone : t.before.length - index.natAbs - t.before.length = 0 := by omega
  simp [delete, deleteAround, sides, hstart, hstop, hnone]

/-- What two deletions delete together. -/
theorem deleteAround_deleteAround (b a b' a' : ℕ) :
    (t.deleteAround b a).deleteAround b' a' = t.deleteAround (b + b') (a + a') := by
  refine SplitText.ext ?_ List.drop_drop
  simp only [deleteAround, List.length_take, List.take_take]
  congr 1
  omega

@[simp] theorem deleteAround_zero : t.deleteAround 0 0 = t := by
  simp [deleteAround]

/-- Ranges that touch the caret are deleted like one range. -/
theorem foldl_delete {ranges : List (ℤ × ℕ)} (h : ∀ range ∈ ranges, Touches range) :
    ranges.foldl (fun t range => t.delete range.1 range.2) t =
      t.deleteAround (ranges.map fun range => (sides range).1).sum
        (ranges.map fun range => (sides range).2).sum := by
  induction ranges generalizing t with
  | nil => simp
  | cons range ranges ih =>
    obtain ⟨hrange, hranges⟩ := List.forall_mem_cons.mp h
    rw [List.foldl_cons, ih _ hranges, t.delete_of_touches hrange, deleteAround_deleteAround]
    simp

/-- Two deletions differ only where the text has what one of them deletes. -/
theorem deleteAround_inj {b a b' a' : ℕ} : t.deleteAround b a = t.deleteAround b' a' ↔
    min b t.before.length = min b' t.before.length ∧
      min a t.after.length = min a' t.after.length := by
  simp only [deleteAround, mk.injEq, List.take_eq_take_iff, List.drop_eq_drop_iff]
  omega

theorem insert_inj {t t' : SplitText α} {text : List α} :
    t.insert text = t'.insert text ↔ t = t' := by
  simp [insert, SplitText.ext_iff]

end SplitText
