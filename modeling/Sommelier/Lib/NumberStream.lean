import Mathlib.Data.List.Basic
import Mathlib.Data.Nat.Notation
import Mathlib.Order.Basic

/-!
# Numbers handed out in order

A counter hands out numbers and skips those that are used for something else. What it handed
out is increasing, and every number below the counter was handed out or skipped.

## Main definitions

* `Counted`: the numbers a counter handed out from its start to its current value.
-/

/-- The numbers a counter handed out on its way from `start` to `next`. -/
structure Counted (used : ℕ → Prop) (start next : ℕ) (out : List ℕ) : Prop where
  increasing : out.Pairwise (· < ·)
  start_le : ∀ k ∈ out, start ≤ k
  lt_next : ∀ k ∈ out, k < next
  covered : ∀ k, start ≤ k → k < next → k ∈ out ∨ used k

namespace Counted
variable {used used' : ℕ → Prop} {start next next' number : ℕ} {out : List ℕ}

theorem empty (used : ℕ → Prop) (start : ℕ) : Counted used start start [] where
  increasing := .nil
  start_le := by simp
  lt_next := by simp
  covered := by omega

theorem mono (h : Counted used start next out) (hused : ∀ k, used k → used' k) :
    Counted used' start next out where
  increasing := h.increasing
  start_le := h.start_le
  lt_next := h.lt_next
  covered k hk hk' := (h.covered k hk hk').imp_right (hused k)

/-- The counter skips used numbers up to the one it hands out. -/
theorem append (h : Counted used start next out) (hstart : start ≤ number)
    (hle : next ≤ number) (hskip : ∀ k, next ≤ k → k < number → used k) :
    Counted used start (number + 1) (out ++ [number]) where
  increasing := by
    rw [List.pairwise_append]
    refine ⟨h.increasing, List.pairwise_singleton _ _, ?_⟩
    intro k hk k' hk'
    have hlt := h.lt_next k hk
    rw [List.mem_singleton] at hk'
    omega
  start_le := by
    intro k hk
    rcases List.mem_append.mp hk with hk | hk
    · exact h.start_le k hk
    · rwa [List.mem_singleton.mp hk]
  lt_next := by
    intro k hk
    rcases List.mem_append.mp hk with hk | hk
    · have hlt := h.lt_next k hk
      omega
    · rw [List.mem_singleton.mp hk]
      omega
  covered := by
    intro k hk hk'
    rcases Nat.lt_or_ge k next with hlt | hge
    · exact (h.covered k hk hlt).imp_left (List.mem_append_left _)
    · rcases Nat.lt_or_ge k number with hlt | hge'
      · exact .inr (hskip k hge hlt)
      · have heq : k = number := by omega
        exact .inl (by simp [heq])

/-- The numbers come without gaps: those below one of them came before it or are used. -/
theorem before (h : Counted used start next out) {earlier later : List ℕ}
    (hout : out = earlier ++ number :: later) {k : ℕ} (hk : start ≤ k) (hlt : k < number) :
    k ∈ earlier ∨ used k := by
  have hincreasing := h.increasing
  rw [hout, List.pairwise_append, List.pairwise_cons] at hincreasing
  obtain ⟨-, ⟨hlater, -⟩, -⟩ := hincreasing
  have hnumber : number < next := h.lt_next number (by simp [hout])
  refine (h.covered k hk (by omega)).imp_left fun hmem => ?_
  rw [hout, List.mem_append, List.mem_cons] at hmem
  rcases hmem with hmem | rfl | hmem
  · exact hmem
  · omega
  · have hgt := hlater k hmem
    omega

end Counted
