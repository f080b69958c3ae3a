import Sommelier.Lib.Table

/-!
# Exclusive flags

The entries of a table fall into groups, and a flag may be raised by one entry of each group
at a time. Entries lower the flag freely; one raises it when no other of its group has it.

## Main definitions

* `Exclusive`: at most one entry of each group has the flag.
* `Lowers`: an update after which no entry has gained the flag or changed its group.
-/

section
variable {κ ν γ : Type*} [DecidableEq κ] {group : ν → γ} {flag flag' : ν → Bool}
  {t t' t'' : Table κ ν} {k : κ} {v : ν}

/-- At most one entry of each group has the flag. -/
def Exclusive (group : ν → γ) (flag : ν → Bool) (t : Table κ ν) : Prop :=
  ∀ k k' v v', t.get k = some v → t.get k' = some v' → group v = group v' →
    flag v = true → flag v' = true → k = k'

/-- Whoever has the flag after the update had it before, in the same group. -/
def Lowers (group : ν → γ) (flag : ν → Bool) (t t' : Table κ ν) : Prop :=
  ∀ k v', t'.get k = some v' → flag v' = true →
    ∃ v, t.get k = some v ∧ group v = group v' ∧ flag v = true

theorem exclusive_empty : Exclusive group flag (∅ : Table κ ν) := by
  intro k k' v v' h
  simp at h

/-- An update of one entry that keeps its group and does not raise its flag. -/
theorem lowers_modify (f : ν → ν) (hgroup : ∀ v, group (f v) = group v)
    (hflag : ∀ v, flag (f v) = true → flag v = true) :
    Lowers group flag t (t.modify k f) := by
  intro k' v' hv' hraised
  rw [Table.get_modify] at hv'
  split_ifs at hv'
  · obtain ⟨v, hv, rfl⟩ := Option.map_eq_some_iff.mp hv'
    exact ⟨v, hv, (hgroup v).symm, hflag v hraised⟩
  · exact ⟨v', hv', rfl, hraised⟩

theorem lowers_erase : Lowers group flag t (t.erase k) := by
  intro k' v' hv' hraised
  rw [Table.get_erase] at hv'
  split_ifs at hv'
  exact ⟨v', hv', rfl, hraised⟩

/-- A new entry without the flag. -/
theorem lowers_set (hv : flag v = false) : Lowers group flag t (t.set k v) := by
  intro k' v' hv' hraised
  rw [Table.get_set] at hv'
  split_ifs at hv'
  · rw [← Option.some.inj hv', hv] at hraised
    cases hraised
  · exact ⟨v', hv', rfl, hraised⟩

theorem Exclusive.lower (h : Exclusive group flag t) (hl : Lowers group flag t t') :
    Exclusive group flag t' := by
  intro k k' v v' hv hv' hgroup hflag hflag'
  obtain ⟨w, hw, hgw, hfw⟩ := hl k v hv hflag
  obtain ⟨w', hw', hgw', hfw'⟩ := hl k' v' hv' hflag'
  exact h k k' w w' hw hw' (hgw.trans (hgroup.trans hgw'.symm)) hfw hfw'

/-- An entry raises its flag while no other of its group has it. -/
theorem Exclusive.raise (h : Exclusive group flag t)
    (hother : ∀ k' v', t.get k' = some v' → k' ≠ k → group v' = group v → flag v' = false) :
    Exclusive group flag (t.set k v) := by
  intro k₁ k₂ v₁ v₂ hv₁ hv₂ hgroup hflag₁ hflag₂
  rw [Table.get_set] at hv₁ hv₂
  split_ifs at hv₁ hv₂ with h₁ h₂ h₂
  · rw [h₁, h₂]
  · obtain rfl := Option.some.inj hv₁
    simp [hother k₂ v₂ hv₂ h₂ hgroup.symm] at hflag₂
  · obtain rfl := Option.some.inj hv₂
    simp [hother k₁ v₁ hv₁ h₁ hgroup] at hflag₁
  · exact h k₁ k₂ v₁ v₂ hv₁ hv₂ hgroup hflag₁ hflag₂

/-- A flag that only flagged entries have is as exclusive. -/
theorem Exclusive.of_implies (h : Exclusive group flag t)
    (himp : ∀ k v, t.get k = some v → flag' v = true → flag v = true) :
    Exclusive group flag' t :=
  fun k k' v v' hv hv' hgroup hflag hflag' =>
    h k k' v v' hv hv' hgroup (himp k v hv hflag) (himp k' v' hv' hflag')

end
