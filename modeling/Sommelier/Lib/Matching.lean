import Mathlib.Data.List.Induction
import Mathlib.Tactic.Common

/-!
# Matching of openings and closings

Under every key generations are opened and closed. Opening a generation supersedes the one that
was open under the key. A log is lawful when every closing names what is open; then each
closing belongs to exactly one opening, and no opening is closed twice.

## Main definitions

* `GenerationEvent`: the events, oldest first in a log.
* `openGeneration`: what is open under a key after a log.
* `WellClosed`: every closing names the open generation.
* `Closes`: the opening a closing belongs to.
-/

/-- Events about the generations of keys. -/
inductive GenerationEvent (κ ν : Type*)
  | opened (key : κ) (value : ν)
  | closed (key : κ) (value : ν)
  | other
  deriving DecidableEq, Repr

namespace GenerationEvent
variable {κ ν : Type*} [DecidableEq κ]

/-- What is open under `k` after the event. -/
def next (k : κ) : GenerationEvent κ ν → Option ν → Option ν
  | opened key value, current => if key = k then some value else current
  | closed key _, current => if key = k then none else current
  | other, current => current

/-- The event opens or closes a generation of `k`. -/
def About (k : κ) : GenerationEvent κ ν → Prop
  | opened key _ => key = k
  | closed key _ => key = k
  | other => False

theorem next_of_not_about {k : κ} {e : GenerationEvent κ ν} (h : ¬ e.About k)
    (current : Option ν) : e.next k current = current := by
  cases e with
  | opened key value => exact if_neg h
  | closed key value => exact if_neg h
  | other => rfl

end GenerationEvent

section
variable {κ ν : Type*} [DecidableEq κ] {es : List (GenerationEvent κ ν)} {k : κ} {v : ν}
  {i i' j j' : ℕ}

/-- What is open under a key after a log, oldest event first. -/
def openGeneration (es : List (GenerationEvent κ ν)) (k : κ) : Option ν :=
  es.foldl (fun current e => e.next k current) none

/-- Every closing names the generation that is open under its key. -/
def WellClosed (es : List (GenerationEvent κ ν)) : Prop :=
  ∀ j k v, es[j]? = some (.closed k v) → openGeneration (es.take j) k = some v

/-- The event at `j` closes the opening at `i`: same key and value, not superseded between. -/
def Closes (es : List (GenerationEvent κ ν)) (i j : ℕ) : Prop :=
  i < j ∧ ∃ k v, es[i]? = some (.opened k v) ∧ es[j]? = some (.closed k v) ∧
    ∀ m, i < m → m < j → ∀ v', es[m]? ≠ some (.opened k v')

@[simp] theorem openGeneration_nil (k : κ) :
    openGeneration ([] : List (GenerationEvent κ ν)) k = none := rfl

@[simp] theorem openGeneration_snoc (es : List (GenerationEvent κ ν))
    (e : GenerationEvent κ ν) (k : κ) :
    openGeneration (es ++ [e]) k = e.next k (openGeneration es k) := by
  simp [openGeneration]

theorem wellClosed_nil : WellClosed ([] : List (GenerationEvent κ ν)) := by
  intro j k v h
  simp at h

/-- One more event keeps a log lawful when it closes only what is open. -/
theorem WellClosed.snoc (h : WellClosed es) {e : GenerationEvent κ ν}
    (he : ∀ k v, e = .closed k v → openGeneration es k = some v) : WellClosed (es ++ [e]) := by
  intro j k v hj
  rcases Nat.lt_trichotomy j es.length with hlt | rfl | hgt
  · rw [List.getElem?_append_left hlt] at hj
    rw [List.take_append_of_le_length (Nat.le_of_lt hlt)]
    exact h j k v hj
  · rw [List.getElem?_concat_length, Option.some.injEq] at hj
    rw [List.take_left]
    exact he k v hj
  · rw [List.getElem?_eq_none (by simp; omega)] at hj
    cases hj

/-- What is open was opened by the last event about its key. -/
theorem exists_opening_of_open (h : openGeneration es k = some v) :
    ∃ i : ℕ, es[i]? = some (.opened k v) ∧ ∀ m e, i < m → es[m]? = some e → ¬ e.About k := by
  induction es using List.reverseRecOn with
  | nil => cases h
  | append_singleton es e ih =>
    rw [openGeneration_snoc] at h
    by_cases habout : e.About k
    · cases e with
      | opened key value =>
        obtain rfl : key = k := habout
        obtain rfl : value = v := by simpa [GenerationEvent.next] using h
        refine ⟨es.length, List.getElem?_concat_length, fun m e' hm he' => ?_⟩
        rw [List.getElem?_eq_none (by simp; omega)] at he'
        cases he'
      | closed key value =>
        obtain rfl : key = k := habout
        simp [GenerationEvent.next] at h
      | other => exact habout.elim
    · rw [GenerationEvent.next_of_not_about habout] at h
      obtain ⟨i, hi, hlast⟩ := ih h
      have hlt : i < es.length := (List.getElem?_eq_some_iff.mp hi).1
      refine ⟨i, by rw [List.getElem?_append_left hlt, hi], fun m e' hm he' => ?_⟩
      rcases Nat.lt_trichotomy m es.length with hm' | rfl | hm'
      · rw [List.getElem?_append_left hm'] at he'
        exact hlast m e' hm he'
      · rw [List.getElem?_concat_length, Option.some.injEq] at he'
        exact he' ▸ habout
      · rw [List.getElem?_eq_none (by simp; omega)] at he'
        cases he'

/-- A closing of a lawful log has an opening, the last event about its key. -/
theorem WellClosed.exists_opening (h : WellClosed es) (hj : es[j]? = some (.closed k v)) :
    ∃ i : ℕ, i < j ∧ es[i]? = some (.opened k v) ∧
      ∀ m e, i < m → m < j → es[m]? = some e → ¬ e.About k := by
  obtain ⟨i, hi, hlast⟩ := exists_opening_of_open (h j k v hj)
  have hlt : i < j := by
    have := (List.getElem?_eq_some_iff.mp hi).1
    rw [List.length_take] at this
    omega
  rw [List.getElem?_take_of_lt hlt] at hi
  refine ⟨i, hlt, hi, fun m e him hmj he => hlast m e him ?_⟩
  rw [List.getElem?_take_of_lt hmj, he]

omit [DecidableEq κ] in
theorem Closes.opening_unique (h : Closes es i j) (h' : Closes es i' j) : i = i' := by
  obtain ⟨hij, k, v, hi, hj, hbetween⟩ := h
  obtain ⟨hij', k', v', hi', hj', hbetween'⟩ := h'
  obtain ⟨rfl, rfl⟩ : k = k' ∧ v = v' := by simpa using hj.symm.trans hj'
  rcases Nat.lt_trichotomy i i' with hlt | heq | hgt
  · exact absurd hi' (hbetween i' hlt hij' v)
  · exact heq
  · exact absurd hi (hbetween' i hgt hij v)

/-- Each closing of a lawful log closes exactly one opening. -/
theorem WellClosed.closes_one (h : WellClosed es) (hj : es[j]? = some (.closed k v)) :
    ∃! i, Closes es i j := by
  obtain ⟨i, hij, hi, hlast⟩ := h.exists_opening hj
  have hcloses : Closes es i j :=
    ⟨hij, k, v, hi, hj, fun m him hmj v' hm => hlast m _ him hmj hm rfl⟩
  exact ⟨i, hcloses, fun i' h' => h'.opening_unique hcloses⟩

/-- No opening of a lawful log is closed twice. -/
theorem WellClosed.closes_once (h : WellClosed es) (hi : Closes es i j) (hi' : Closes es i j') :
    j = j' := by
  -- The later of two closings has an opening after the earlier one.
  have hle : ∀ {j j'}, Closes es i j → Closes es i j' → ¬ j < j' := by
    rintro j j' ⟨hij, k, v, hi, hj, -⟩ ⟨-, k', v', hi', hj', hbetween⟩ hlt
    obtain ⟨rfl, rfl⟩ : k = k' ∧ v = v' := by simpa using hi.symm.trans hi'
    obtain ⟨l, hlj', hl, hlast⟩ := h.exists_opening hj'
    rcases Nat.lt_trichotomy l j with hlt' | rfl | hgt
    · exact hlast j _ hlt' hlt hj rfl
    · cases hl.symm.trans hj
    · exact hbetween l (Nat.lt_trans hij hgt) hlj' v hl
  rcases Nat.lt_trichotomy j j' with hlt | heq | hgt
  · exact absurd hlt (hle hi hi')
  · exact heq
  · exact absurd hgt (hle hi' hi)

end
