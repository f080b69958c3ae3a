import Sommelier.State.ShadowTable

/-!
# The search for a host ID

`allocate_host_id` walks a cursor through the IDs, from the largest back to 2, and takes the
first free one. It finds a free ID if there is one; while the cursor does not wrap, the IDs it
passes are in use; and it returns the ID it returned last only if no other is free.

## Main definitions

* `ShadowTable.nextHostCandidate`: the cursor after one step.
* `ShadowTable.CursorFits`: the cursor is an ID.
* `ShadowTable.RoomForTwo`: two searches in a row return two IDs.
-/
namespace Sommelier.ShadowTable

/-- The number of host IDs an allocation can return. -/
def hostIdCount : ℕ := 2 ^ 32 - 2

/-- The cursor after the candidate `id` was looked at. -/
def nextHostCandidate (id : ℕ) : ℕ := max ((id + 1) % 2 ^ 32) 2

/-- The cursor is an ID that can be returned. -/
def CursorFits (t : ShadowTable) : Prop := 2 ≤ t.nextHostId ∧ t.nextHostId < 2 ^ 32

/-- A free ID is never the only one. -/
def RoomForTwo (t : ShadowTable) : Prop :=
  ∀ h, 2 ≤ h → h < 2 ^ 32 → t.hostIdFree h = true →
    ∃ other, other ≠ h ∧ 2 ≤ other ∧ other < 2 ^ 32 ∧ t.hostIdFree other = true

variable {t t' : ShadowTable} {h : ℕ}

theorem nextHostCandidate_fits (id : ℕ) :
    2 ≤ nextHostCandidate id ∧ nextHostCandidate id < 2 ^ 32 := by
  unfold nextHostCandidate
  omega

theorem cursorFits_next (t : ShadowTable) (id : ℕ) :
    CursorFits { t with nextHostId := nextHostCandidate id } := nextHostCandidate_fits id

/-- Stepping the cursor is addition modulo the number of IDs. -/
theorem iterate_nextHostCandidate {id : ℕ} (hid : 2 ≤ id) (hlt : id < 2 ^ 32) (k : ℕ) :
    nextHostCandidate^[k] id = 2 + (id - 2 + k) % hostIdCount := by
  induction k with
  | zero =>
    rw [Function.iterate_zero_apply]
    unfold hostIdCount
    omega
  | succ k ih =>
    rw [Function.iterate_succ_apply', ih]
    unfold nextHostCandidate hostIdCount
    omega

/-- The search takes the first free ID from the cursor on. -/
theorem allocateHostIdLoop_first {fuel : ℕ} (hi : allocateHostIdLoop fuel t = some (h, t')) :
    ∃ k < fuel, h = nextHostCandidate^[k] t.nextHostId ∧ 2 ≤ h ∧ t.hostIdFree h = true ∧
      (∀ j < k, 2 ≤ nextHostCandidate^[j] t.nextHostId →
        t.hostIdFree (nextHostCandidate^[j] t.nextHostId) = false) ∧
      t' = { t with nextHostId := nextHostCandidate h } := by
  induction fuel generalizing t with
  | zero => simp [allocateHostIdLoop] at hi
  | succ fuel ih =>
    unfold allocateHostIdLoop at hi
    simp only [Bool.and_eq_true, decide_eq_true_eq] at hi
    split_ifs at hi with hfree
    · obtain ⟨rfl, rfl⟩ := Prod.mk.inj (Option.some.inj hi)
      exact ⟨0, Nat.succ_pos _, rfl, hfree.1, hfree.2, by simp, rfl⟩
    · obtain ⟨k, hk, rfl, hle, hfree', hbefore, rfl⟩ := ih hi
      refine ⟨k + 1, Nat.succ_lt_succ hk, rfl, hle, hfree', fun j hj h2 => ?_, rfl⟩
      cases j with
      | zero =>
        rw [Function.iterate_zero_apply] at h2 ⊢
        exact Bool.eq_false_iff.mpr fun hnow => hfree ⟨h2, hnow⟩
      | succ j => exact hbefore j (Nat.lt_of_succ_lt_succ hj) h2

/-- The search from a cursor that fits: the first free ID, less than one round away. -/
theorem allocateHostId_first (hfits : t.CursorFits) (hi : t.allocateHostId = some (h, t')) :
    ∃ k < hostIdCount, h = 2 + (t.nextHostId - 2 + k) % hostIdCount ∧
      (∀ j < k, t.hostIdFree (2 + (t.nextHostId - 2 + j) % hostIdCount) = false) ∧
      t' = { t with nextHostId := nextHostCandidate h } := by
  obtain ⟨k, -, rfl, -, hfree, hbefore, rfl⟩ := allocateHostIdLoop_first hi
  simp only [iterate_nextHostCandidate hfits.1 hfits.2] at hfree hbefore ⊢
  refine ⟨k, ?_, rfl, fun j hj => hbefore j hj (Nat.le_add_right _ _), trivial⟩
  -- One round earlier the search saw the same ID.
  by_contra hround
  have hsame : (t.nextHostId - 2 + (k - hostIdCount)) % hostIdCount =
      (t.nextHostId - 2 + k) % hostIdCount := by
    have hk : t.nextHostId - 2 + k = t.nextHostId - 2 + (k - hostIdCount) + hostIdCount := by
      omega
    rw [hk, Nat.add_mod_right]
  have hearlier := hbefore (k - hostIdCount) (by unfold hostIdCount at *; omega)
    (Nat.le_add_right _ _)
  rw [hsame, hfree] at hearlier
  exact absurd hearlier (by simp)

theorem allocateHostId_fits (hi : t.allocateHostId = some (h, t')) : t'.CursorFits := by
  obtain ⟨k, -, -, -, -, -, rfl⟩ := allocateHostIdLoop_first hi
  exact cursorFits_next t h

theorem allocateHostIdLoop_isSome {fuel k : ℕ} (hk : k < fuel)
    (hle : 2 ≤ nextHostCandidate^[k] t.nextHostId)
    (hfree : t.hostIdFree (nextHostCandidate^[k] t.nextHostId) = true) :
    (allocateHostIdLoop fuel t).isSome = true := by
  induction fuel generalizing t k with
  | zero => omega
  | succ fuel ih =>
    unfold allocateHostIdLoop
    dsimp only
    split_ifs with hnow
    · rfl
    · cases k with
      | zero =>
        refine absurd ?_ hnow
        rw [Function.iterate_zero_apply] at hle hfree
        rw [Bool.and_eq_true, decide_eq_true_eq]
        exact ⟨hle, hfree⟩
      | succ k => exact ih (k := k) (by omega) hle hfree

/-- The cursor reaches every ID. -/
theorem exists_iterate (hfits : t.CursorFits) (hle : 2 ≤ h) (hlt : h < 2 ^ 32) :
    ∃ k < hostIdCount, 2 + (t.nextHostId - 2 + k) % hostIdCount = h := by
  obtain ⟨hle', hlt'⟩ := hfits
  refine ⟨(h + hostIdCount - t.nextHostId) % hostIdCount, Nat.mod_lt _ (by decide), ?_⟩
  unfold hostIdCount
  omega

/-- The search finds a free ID when there is one. -/
theorem allocateHostId_isSome (hfits : t.CursorFits) (hle : 2 ≤ h) (hlt : h < 2 ^ 32)
    (hfree : t.hostIdFree h = true) : t.allocateHostId.isSome = true := by
  obtain ⟨k, hk, rfl⟩ := exists_iterate hfits hle hlt
  rw [← iterate_nextHostCandidate hfits.1 hfits.2] at hle hfree
  exact allocateHostIdLoop_isSome (by unfold hostIdCount at hk; omega) hle hfree

/-- The cursor moved on without wrapping: it stands behind the returned ID, and the IDs it
passed are in use. -/
theorem allocateHostId_passed (hfits : t.CursorFits) (hi : t.allocateHostId = some (h, t'))
    (hwrap : t.nextHostId < t'.nextHostId) : t.nextHostId ≤ h ∧ t'.nextHostId = h + 1 ∧
      ∀ k, t.nextHostId ≤ k → k < h → t.hostIdFree k = false := by
  obtain ⟨k, hk, hh, hbefore, rfl⟩ := allocateHostId_first hfits hi
  obtain ⟨hle, hlt⟩ := hfits
  have hlast : h < 2 ^ 32 := by
    unfold hostIdCount at hh
    omega
  have hround : h = t.nextHostId + k := by
    simp only [nextHostCandidate] at hwrap
    unfold hostIdCount at hk hh
    omega
  refine ⟨by omega, ?_, fun j hj hjlt => ?_⟩
  · simp only [nextHostCandidate] at hwrap ⊢
    omega
  · have hpassed := hbefore (j - t.nextHostId) (by omega)
    have hj' : 2 + (t.nextHostId - 2 + (j - t.nextHostId)) % hostIdCount = j := by
      unfold hostIdCount at hk hh ⊢
      omega
    rwa [hj'] at hpassed

/-- A second search right after the first returns the same ID only if no other is free. -/
theorem allocateHostId_again {h' : ℕ} {t'' : ShadowTable} (hfits : t.CursorFits)
    (hi : t.allocateHostId = some (h, t')) (hi' : t'.allocateHostId = some (h', t''))
    {other : ℕ} (hother : other ≠ h) (hle : 2 ≤ other) (hlt : other < 2 ^ 32)
    (hfree : t.hostIdFree other = true) : h' ≠ h := by
  obtain ⟨k, -, hh, -, rfl⟩ := allocateHostId_first hfits hi
  have hround := Nat.mod_lt (t.nextHostId - 2 + k) (show 0 < hostIdCount by decide)
  rintro rfl
  obtain ⟨k', hk', hh', hbefore, -⟩ := allocateHostId_first (cursorFits_next t _) hi'
  obtain ⟨j, hj, hjother⟩ := exists_iterate (cursorFits_next t h') hle hlt
  -- The ID returned last is the last one of the round.
  have hlast : j < k' := by
    simp only [nextHostCandidate] at hh' hjother
    unfold hostIdCount at *
    omega
  have hused := hbefore j hlast
  rw [hjother] at hused
  exact absurd (hfree.symm.trans hused) (by simp)

end Sommelier.ShadowTable
