import Mathlib.Data.List.AList

/-!
# Finite tables

A table is a finite partial map, an `AList` of a constant value type. Its updates are
described by what they look up, so that no proof has to open the list of entries.

## Main definitions

* `Table`: a finite partial map with `get`, `set`, `erase` and `modify`.
* `Table.any`, `Table.mapValues`, `Table.modifyWhere`, `Table.retain`: a test, two updates and a
  filter of all entries.
* `Table.keysWhere`, `Table.valuesWhere`: the keys and the values of the entries that pass a test.
-/

/-- A finite partial map. -/
abbrev Table (κ ν : Type*) := AList fun _ : κ => ν

namespace Table
variable {κ ν : Type*} [DecidableEq κ]

def get (t : Table κ ν) (k : κ) : Option ν := t.lookup k

def set (t : Table κ ν) (k : κ) (v : ν) : Table κ ν := t.insert k v

def erase (t : Table κ ν) (k : κ) : Table κ ν := AList.erase k t

/-- Update the value of a key, if it has one. -/
def modify (t : Table κ ν) (k : κ) (f : ν → ν) : Table κ ν :=
  match t.get k with
  | none => t
  | some v => t.set k (f v)

/-- Some entry passes the test. -/
def any (t : Table κ ν) (p : κ → ν → Bool) : Bool := t.entries.any fun e => p e.1 e.2

/-- Update every value. -/
def mapValues (t : Table κ ν) (f : ν → ν) : Table κ ν where
  entries := t.entries.map fun e => ⟨e.1, f e.2⟩
  nodupKeys := by
    have hkeys : (t.entries.map fun e => (⟨e.1, f e.2⟩ : Sigma fun _ : κ => ν)).keys =
        t.entries.keys := by simp [List.keys, Function.comp_def]
    rw [List.NodupKeys, hkeys]
    exact t.nodupKeys

/-- Update the values of the keys that pass the test. -/
def modifyWhere (t : Table κ ν) (p : κ → Bool) (f : ν → ν) : Table κ ν where
  entries := t.entries.map fun e => ⟨e.1, if p e.1 then f e.2 else e.2⟩
  nodupKeys := by
    have hkeys : (t.entries.map fun e => (⟨e.1, if p e.1 then f e.2 else e.2⟩ :
        Sigma fun _ : κ => ν)).keys = t.entries.keys := by
      simp [List.keys, Function.comp_def]
    rw [List.NodupKeys, hkeys]
    exact t.nodupKeys

/-- Keep the entries that pass the test. -/
def retain (t : Table κ ν) (p : κ → ν → Bool) : Table κ ν where
  entries := t.entries.filter fun e => p e.1 e.2
  nodupKeys := t.nodupKeys.sublist List.filter_sublist

/-- The keys of the entries that pass the test. -/
def keysWhere (t : Table κ ν) (p : κ → ν → Bool) : List κ :=
  t.entries.filterMap fun e => if p e.1 e.2 then some e.1 else none

/-- The values of the entries that pass the test. -/
def valuesWhere (t : Table κ ν) (p : κ → ν → Bool) : List ν :=
  t.entries.filterMap fun e => if p e.1 e.2 then some e.2 else none

@[simp] theorem get_empty (k : κ) : get (∅ : Table κ ν) k = none := AList.lookup_empty k

@[simp] theorem get_set (t : Table κ ν) (k : κ) (v : ν) (k' : κ) :
    (t.set k v).get k' = if k' = k then some v else t.get k' := by
  by_cases h : k' = k
  · subst h
    simp [get, set]
  · simp [get, set, AList.lookup_insert_ne h, h]

@[simp] theorem get_erase (t : Table κ ν) (k k' : κ) :
    (t.erase k).get k' = if k' = k then none else t.get k' := by
  by_cases h : k' = k
  · subst h
    simp [get, erase]
  · simp [get, erase, AList.lookup_erase_ne h, h]

theorem erase_of_get_none {t : Table κ ν} {k : κ} (h : t.get k = none) : t.erase k = t :=
  AList.ext (List.kerase_of_notMem_keys (AList.lookup_eq_none.mp h))

@[simp] theorem get_modify (t : Table κ ν) (k : κ) (f : ν → ν) (k' : κ) :
    (t.modify k f).get k' = if k' = k then (t.get k').map f else t.get k' := by
  unfold modify
  by_cases h : k' = k
  · subst h
    cases hv : t.get k' <;> simp [hv]
  · cases t.get k <;> simp [h]

theorem mem_entries (t : Table κ ν) (k : κ) (v : ν) :
    (⟨k, v⟩ : Sigma fun _ : κ => ν) ∈ t.entries ↔ t.get k = some v := by
  rw [get, ← Option.mem_def, AList.mem_lookup_iff]

@[simp] theorem any_eq_true (t : Table κ ν) (p : κ → ν → Bool) :
    t.any p = true ↔ ∃ k v, t.get k = some v ∧ p k v = true := by
  simp only [any, List.any_eq_true]
  constructor
  · rintro ⟨⟨k, v⟩, he, hp⟩
    exact ⟨k, v, (t.mem_entries k v).mp he, hp⟩
  · rintro ⟨k, v, hv, hp⟩
    exact ⟨⟨k, v⟩, (t.mem_entries k v).mpr hv, hp⟩

@[simp] theorem get_mapValues (t : Table κ ν) (f : ν → ν) (k : κ) :
    (t.mapValues f).get k = (t.get k).map f :=
  List.dlookup_map₂ (f := fun _ => f) k

@[simp] theorem get_modifyWhere (t : Table κ ν) (p : κ → Bool) (f : ν → ν) (k : κ) :
    (t.modifyWhere p f).get k = if p k then (t.get k).map f else t.get k := by
  have h := List.dlookup_map₂ (l := t.entries) (f := fun a v => if p a then f v else v) k
  calc (t.modifyWhere p f).get k
      = (t.get k).map (fun v => if p k then f v else v) := h
    _ = if p k then (t.get k).map f else t.get k := by split <;> simp

@[simp] theorem get_retain (t : Table κ ν) (p : κ → ν → Bool) (k : κ) :
    (t.retain p).get k = (t.get k).filter (p k) := by
  ext v
  rw [← mem_entries, Option.filter_eq_some_iff, ← mem_entries]
  simp [retain]

@[simp] theorem mem_keysWhere (t : Table κ ν) (p : κ → ν → Bool) (k : κ) :
    k ∈ t.keysWhere p ↔ ∃ v, t.get k = some v ∧ p k v = true := by
  simp only [keysWhere, List.mem_filterMap, Option.ite_none_right_eq_some, Option.some.injEq]
  constructor
  · rintro ⟨⟨k', v⟩, he, hp, rfl⟩
    exact ⟨v, (t.mem_entries k' v).mp he, hp⟩
  · rintro ⟨v, hv, hp⟩
    exact ⟨⟨k, v⟩, (t.mem_entries k v).mpr hv, hp, rfl⟩

@[simp] theorem mem_valuesWhere (t : Table κ ν) (p : κ → ν → Bool) (v : ν) :
    v ∈ t.valuesWhere p ↔ ∃ k, t.get k = some v ∧ p k v = true := by
  simp only [valuesWhere, List.mem_filterMap, Option.ite_none_right_eq_some, Option.some.injEq]
  constructor
  · rintro ⟨⟨k, v'⟩, he, hp, rfl⟩
    exact ⟨k, (t.mem_entries k v').mp he, hp⟩
  · rintro ⟨k, hv, hp⟩
    exact ⟨⟨k, v⟩, (t.mem_entries k v).mpr hv, hp, rfl⟩

end Table
