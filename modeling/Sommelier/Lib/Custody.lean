import Mathlib.Algebra.Order.Group.Multiset
import Mathlib.Data.Multiset.Range
import Mathlib.Tactic.Abel
import Sommelier.Lib.Table

/-!
# Custody of resources

Resources lie in the lists of a table and move between it and other places. A move keeps the sum
of all places; when the sum is that of the resources handed out so far, each of them is in exactly
one place.

## Main definitions

* `Table.held`, `Table.flatten`: all resources in the lists of a table.
-/

section
variable {κ ι : Type*}

/-- The resources of the entries of a list. -/
def heldIn (entries : List (Sigma fun _ : κ => List ι)) : Multiset ι :=
  (entries.map fun e => (e.2 : Multiset ι)).sum

@[simp] theorem heldIn_nil : heldIn ([] : List (Sigma fun _ : κ => List ι)) = 0 := rfl

@[simp] theorem heldIn_cons (e : Sigma fun _ : κ => List ι)
    (entries : List (Sigma fun _ : κ => List ι)) :
    heldIn (e :: entries) = e.2 + heldIn entries := by
  simp [heldIn]

theorem heldIn_kerase [DecidableEq κ] {entries : List (Sigma fun _ : κ => List ι)} {k : κ}
    {l : List ι} (hl : entries.dlookup k = some l) :
    heldIn entries = l + heldIn (entries.kerase k) := by
  induction entries with
  | nil => simp at hl
  | cons e entries ih =>
    by_cases hk : k = e.1
    · rw [List.kerase_cons_eq hk]
      obtain ⟨k', l'⟩ := e
      obtain rfl : k = k' := hk
      rw [List.dlookup_cons_eq, Option.some.injEq] at hl
      simp [hl]
    · rw [List.dlookup_cons_ne _ _ hk] at hl
      rw [List.kerase_cons_ne hk, heldIn_cons, heldIn_cons, ih hl]
      abel

theorem heldIn_filter (entries : List (Sigma fun _ : κ => List ι))
    (p : (Sigma fun _ : κ => List ι) → Bool) :
    heldIn entries = heldIn (entries.filter p) + heldIn (entries.filter fun e => !p e) := by
  induction entries with
  | nil => simp
  | cons e entries ih =>
    by_cases hp : p e = true
    · simp only [List.filter_cons, hp, if_true, Bool.not_true, Bool.false_eq_true, if_false,
        heldIn_cons]
      rw [ih]
      abel
    · simp only [List.filter_cons, hp, if_false, Bool.not_false, if_true, heldIn_cons,
        Bool.false_eq_true]
      rw [ih]
      abel

end

namespace Table
variable {κ ι : Type*} {t : Table κ (List ι)} {k : κ} {l : List ι} {x : ι}

/-- All resources in the lists of a table. -/
def held (t : Table κ (List ι)) : Multiset ι := heldIn t.entries

/-- The same as a list, in the order of the entries. -/
def flatten (t : Table κ (List ι)) : List ι := t.entries.flatMap fun e => e.2

@[simp] theorem held_empty : (∅ : Table κ (List ι)).held = 0 := rfl

@[simp] theorem coe_flatten (t : Table κ (List ι)) : (t.flatten : Multiset ι) = t.held := by
  unfold flatten held
  induction t.entries with
  | nil => rfl
  | cons e entries ih => rw [List.flatMap_cons, ← Multiset.coe_add, ih, heldIn_cons]

theorem held_retain (t : Table κ (List ι)) (p : κ → List ι → Bool) :
    t.held = (t.retain p).held + (t.retain fun k l => !p k l).held := heldIn_filter _ _

variable [DecidableEq κ]

theorem held_set (t : Table κ (List ι)) (k : κ) (l : List ι) :
    (t.set k l).held = l + (t.erase k).held := heldIn_cons ..

theorem held_of_get (hl : t.get k = some l) : t.held = l + (t.erase k).held := heldIn_kerase hl

/-- A key without a list holds nothing. -/
theorem held_erase (t : Table κ (List ι)) (k : κ) :
    t.held = ((t.get k).getD [] : List ι) + (t.erase k).held := by
  cases hl : t.get k with
  | none => simp [erase_of_get_none hl]
  | some l => exact held_of_get hl

theorem held_set_of_none (hk : t.get k = none) : (t.set k l).held = l + t.held := by
  rw [held_set, erase_of_get_none hk]

/-- A list that grows. -/
theorem held_append {l' : List ι} (hl : t.get k = some l) :
    (t.set k (l ++ l')).held = l' + t.held := by
  rw [held_set, held_of_get hl, ← Multiset.coe_add]
  abel

end Table
