import Mathlib.Data.List.Dedup
import Mathlib.Data.List.Sort
import Sommelier.Lib.Table

/-!
# Keyboard focus

Every keyboard of a seat that has a focus owns the surface of the seat. A keyboard whose seat
moved to another surface loses its focus, but its resource was told an enter and still needs
one leave: it keeps a tombstone under the host surface.

## Main definitions

* `KeyboardFocus`, `SeatFocusChange`, `KeyboardFocusUpdate`: a focus, and what an operation did.
* `KeyboardFocusRegistry`: the foci and the tombstones, with `enter`, `leave`, `release` and
  `destroySurface`.
* `KeyboardFocusRegistry.Coherent`: the keyboards of a seat agree on its surface.
-/
namespace Sommelier

/-- One focus generation of a keyboard, with its surface in both namespaces. -/
structure KeyboardFocus where
  guestSeat : ℕ
  guestSurface : ℕ
  hostSurface : ℕ
  deriving DecidableEq, Repr

structure SeatFocusChange where
  guestSeat : ℕ
  previousSurface : Option ℕ
  currentSurface : Option ℕ
  deriving DecidableEq, Repr

/-- What an operation on the registry did. -/
structure KeyboardFocusUpdate where
  accepted : Bool
  seatChanges : List SeatFocusChange
  retiredKeyboards : List ℕ
  deriving DecidableEq, Repr

/-- The update of an operation that changed nothing. -/
def KeyboardFocusUpdate.default : KeyboardFocusUpdate :=
  { accepted := false, seatChanges := [], retiredKeyboards := [] }

/-- The foci by host keyboard, and the superseded foci by host keyboard and host surface. -/
structure KeyboardFocusRegistry where
  keyboards : Table ℕ KeyboardFocus
  retiredGuestEnters : Table (ℕ × ℕ) KeyboardFocus

namespace KeyboardFocusRegistry

def new : KeyboardFocusRegistry := { keyboards := ∅, retiredGuestEnters := ∅ }

def surfaceForSeat (r : KeyboardFocusRegistry) (guestSeat : ℕ) : Option ℕ :=
  (r.keyboards.valuesWhere fun _ focus => focus.guestSeat == guestSeat).head?.map
    (·.guestSurface)

def focusForKeyboard (r : KeyboardFocusRegistry) (hostKeyboard : ℕ) : Option KeyboardFocus :=
  r.keyboards.get hostKeyboard

def keyboardOwnsSurface (r : KeyboardFocusRegistry) (hostKeyboard guestSurface : ℕ) : Bool :=
  (r.focusForKeyboard hostKeyboard).any fun focus => focus.guestSurface == guestSurface

/-- Forget the tombstones of a keyboard. -/
def forgetEnters (r : KeyboardFocusRegistry) (hostKeyboard : ℕ) : KeyboardFocusRegistry :=
  { r with
    retiredGuestEnters := r.retiredGuestEnters.retain fun key _ => key.1 != hostKeyboard }

/-- Take the focus of a keyboard away; unless it is entering again itself, its enter becomes a
tombstone. -/
def retireFocus (hostKeyboard : ℕ) (r : KeyboardFocusRegistry) (keyboard : ℕ) :
    KeyboardFocusRegistry :=
  match r.keyboards.get keyboard with
  | none => r
  | some retiredFocus =>
    { keyboards := r.keyboards.erase keyboard
      retiredGuestEnters :=
        if keyboard = hostKeyboard then r.retiredGuestEnters
        else r.retiredGuestEnters.set (keyboard, retiredFocus.hostSurface) retiredFocus }

/-- The keyboard enters itself, or it holds another surface of the seat that is entered. -/
def yieldsTo (hostKeyboard : ℕ) (focus : KeyboardFocus) (keyboard : ℕ)
    (current : KeyboardFocus) : Bool :=
  keyboard == hostKeyboard ||
    (current.guestSeat == focus.guestSeat && current.guestSurface != focus.guestSurface)

def enter (r : KeyboardFocusRegistry) (hostKeyboard : ℕ) (focus : KeyboardFocus) :
    KeyboardFocusUpdate × KeyboardFocusRegistry :=
  if r.focusForKeyboard hostKeyboard = some focus then (.default, r)
  else
    let affectedSeats := ((focus.guestSeat ::
      ((r.focusForKeyboard hostKeyboard).map (·.guestSeat)).toList).mergeSort).dedup
    let previousSurfaces := affectedSeats.map fun seat => (seat, r.surfaceForSeat seat)
    let retiredKeyboards := (r.keyboards.keysWhere (yieldsTo hostKeyboard focus)).mergeSort
    let r := retiredKeyboards.foldl (retireFocus hostKeyboard) (r.forgetEnters hostKeyboard)
    let r := { r with keyboards := r.keyboards.set hostKeyboard focus }
    let seatChanges := previousSurfaces.filterMap fun (guestSeat, previousSurface) =>
      let currentSurface := r.surfaceForSeat guestSeat
      if previousSurface ≠ currentSurface then
        some { guestSeat, previousSurface, currentSurface }
      else none
    ({ accepted := true, seatChanges, retiredKeyboards }, r)

def removeKeyboard (r : KeyboardFocusRegistry) (hostKeyboard : ℕ) (focus : KeyboardFocus) :
    KeyboardFocusUpdate × KeyboardFocusRegistry :=
  let previousSurface := r.surfaceForSeat focus.guestSeat
  let r := { r with keyboards := r.keyboards.erase hostKeyboard }
  let currentSurface := r.surfaceForSeat focus.guestSeat
  ({ accepted := true
     seatChanges :=
      if previousSurface ≠ currentSurface then
        [{ guestSeat := focus.guestSeat, previousSurface, currentSurface }]
      else []
     retiredKeyboards := [hostKeyboard] }, r)

def leave (r : KeyboardFocusRegistry) (hostKeyboard hostSurface : ℕ) :
    KeyboardFocusUpdate × KeyboardFocusRegistry :=
  match r.focusForKeyboard hostKeyboard with
  | none =>
    match r.retiredGuestEnters.get (hostKeyboard, hostSurface) with
    | some _ =>
      ({ KeyboardFocusUpdate.default with accepted := true },
        { r with retiredGuestEnters := r.retiredGuestEnters.erase (hostKeyboard, hostSurface) })
    | none => (.default, r)
  | some focus =>
    if focus.hostSurface ≠ hostSurface then (.default, r)
    else r.removeKeyboard hostKeyboard focus

def release (r : KeyboardFocusRegistry) (hostKeyboard : ℕ) :
    KeyboardFocusUpdate × KeyboardFocusRegistry :=
  let r := r.forgetEnters hostKeyboard
  match r.focusForKeyboard hostKeyboard with
  | none => (.default, r)
  | some focus => r.removeKeyboard hostKeyboard focus

def destroySurface (r : KeyboardFocusRegistry) (guestSurface : ℕ) :
    KeyboardFocusUpdate × KeyboardFocusRegistry :=
  let retiredKeyboards := (r.keyboards.keysWhere fun _ focus =>
    focus.guestSurface == guestSurface).mergeSort
  let affectedSeats := (((r.keyboards.valuesWhere fun _ focus =>
    focus.guestSurface == guestSurface).map (·.guestSeat)).mergeSort).dedup
  let r :=
    { keyboards := retiredKeyboards.foldl Table.erase r.keyboards
      retiredGuestEnters := r.retiredGuestEnters.retain fun _ focus =>
        focus.guestSurface != guestSurface }
  let seatChanges := affectedSeats.map fun guestSeat =>
    { guestSeat, previousSurface := some guestSurface,
      currentSurface := r.surfaceForSeat guestSeat }
  ({ accepted := !retiredKeyboards.isEmpty, seatChanges, retiredKeyboards }, r)

/-! ## What the operations change -/

variable {r r' : KeyboardFocusRegistry} {k seat surface hostKeyboard hostSurface : ℕ}
  {f focus : KeyboardFocus}

/-- Some keyboard of the seat has its focus on the surface. -/
def Holds (r : KeyboardFocusRegistry) (seat surface : ℕ) : Prop :=
  ∃ k f, r.keyboards.get k = some f ∧ f.guestSeat = seat ∧ f.guestSurface = surface

/-- All keyboards of a seat that have a focus own the same surface. -/
def Coherent (r : KeyboardFocusRegistry) : Prop :=
  ∀ k k' f f', r.keyboards.get k = some f → r.keyboards.get k' = some f' →
    f.guestSeat = f'.guestSeat → f.guestSurface = f'.guestSurface

theorem surfaceForSeat_eq_some (h : r.surfaceForSeat seat = some surface) :
    r.Holds seat surface := by
  obtain ⟨f, hf, rfl⟩ := Option.map_eq_some_iff.mp h
  obtain ⟨k, hk, hseat⟩ := (Table.mem_valuesWhere ..).mp (List.mem_of_head? hf)
  exact ⟨k, f, hk, by simpa using hseat, rfl⟩

theorem surfaceForSeat_eq_none (h : r.surfaceForSeat seat = none) (surface : ℕ) :
    ¬ r.Holds seat surface := by
  rintro ⟨k, f, hf, rfl, -⟩
  have hmem : f ∈ r.keyboards.valuesWhere fun _ focus => focus.guestSeat == f.guestSeat :=
    (Table.mem_valuesWhere ..).mpr ⟨k, hf, by simp⟩
  rw [surfaceForSeat, Option.map_eq_none_iff, List.head?_eq_none_iff] at h
  rw [h] at hmem
  cases hmem

/-- In a coherent registry the surface of a seat does not depend on the keyboard found first. -/
theorem Coherent.surfaceForSeat_iff (hr : r.Coherent) :
    r.surfaceForSeat seat = some surface ↔ r.Holds seat surface := by
  refine ⟨surfaceForSeat_eq_some, fun h => ?_⟩
  cases hs : r.surfaceForSeat seat with
  | none => exact absurd h (surfaceForSeat_eq_none hs surface)
  | some surface' =>
    obtain ⟨k, f, hf, hseat, rfl⟩ := h
    obtain ⟨k', f', hf', hseat', rfl⟩ := surfaceForSeat_eq_some hs
    rw [hr k' k f' f hf' hf (hseat'.trans hseat.symm)]

theorem Coherent.surfaceForSeat_congr (hr : r.Coherent) (hr' : r'.Coherent)
    (h : ∀ surface, r.Holds seat surface ↔ r'.Holds seat surface) :
    r.surfaceForSeat seat = r'.surfaceForSeat seat := by
  ext surface
  rw [hr.surfaceForSeat_iff, hr'.surfaceForSeat_iff, h]

/-- Fewer foci are as coherent. -/
theorem Coherent.of_subset (hr : r.Coherent)
    (h : ∀ k f, r'.keyboards.get k = some f → r.keyboards.get k = some f) : r'.Coherent :=
  fun k k' f f' hf hf' => hr k k' f f' (h k f hf) (h k' f' hf')

@[simp] theorem keyboards_forgetEnters (r : KeyboardFocusRegistry) (hostKeyboard : ℕ) :
    (r.forgetEnters hostKeyboard).keyboards = r.keyboards := rfl

theorem forgetEnters_retired (r : KeyboardFocusRegistry) (hostKeyboard k surface : ℕ) :
    (r.forgetEnters hostKeyboard).retiredGuestEnters.get (k, surface) =
      if k = hostKeyboard then none else r.retiredGuestEnters.get (k, surface) := by
  rw [forgetEnters, Table.get_retain]
  cases r.retiredGuestEnters.get (k, surface) with
  | none => simp
  | some f => by_cases h : k = hostKeyboard <;> simp [Option.filter_some, h]

@[simp] theorem retireFocus_keyboards (r : KeyboardFocusRegistry) (hostKeyboard k k' : ℕ) :
    (retireFocus hostKeyboard r k).keyboards.get k' =
      if k' = k then none else r.keyboards.get k' := by
  unfold retireFocus
  split
  next hk =>
    split_ifs with heq
    · exact heq ▸ hk
    · rfl
  next => exact Table.get_erase ..

theorem retireFocus_retired (h : (retireFocus hostKeyboard r k).retiredGuestEnters.get
    (k', surface) = some f) : r.retiredGuestEnters.get (k', surface) = some f ∨
      k' = k ∧ k ≠ hostKeyboard ∧ r.keyboards.get k = some f ∧ f.hostSurface = surface := by
  unfold retireFocus at h
  cases hk : r.keyboards.get k with
  | none => exact .inl (by simpa [hk] using h)
  | some current =>
    simp only [hk] at h
    split_ifs at h with heq
    · exact .inl h
    · rw [Table.get_set] at h
      split_ifs at h with hkey
      · obtain ⟨rfl, rfl⟩ := Prod.mk.inj hkey
        obtain rfl := Option.some.inj h
        exact .inr ⟨rfl, heq, rfl, rfl⟩
      · exact .inl h

theorem foldl_retireFocus_keyboards (ks : List ℕ) (r : KeyboardFocusRegistry) (k : ℕ) :
    (ks.foldl (retireFocus hostKeyboard) r).keyboards.get k =
      if k ∈ ks then none else r.keyboards.get k := by
  induction ks generalizing r with
  | nil => simp
  | cons k' ks ih =>
    rw [List.foldl_cons, ih, retireFocus_keyboards]
    by_cases hk : k ∈ ks <;> simp [hk]

theorem foldl_retireFocus_retired {ks : List ℕ}
    (h : (ks.foldl (retireFocus hostKeyboard) r).retiredGuestEnters.get (k, surface) = some f) :
    r.retiredGuestEnters.get (k, surface) = some f ∨
      k ∈ ks ∧ k ≠ hostKeyboard ∧ r.keyboards.get k = some f ∧ f.hostSurface = surface := by
  induction ks generalizing r with
  | nil => exact .inl h
  | cons k' ks ih =>
    rcases ih h with hold | ⟨hmem, hne, hget, hsurface⟩
    · rcases retireFocus_retired hold with hold | ⟨rfl, hne, hget, hsurface⟩
      · exact .inl hold
      · exact .inr ⟨List.mem_cons_self, hne, hget, hsurface⟩
    · rw [retireFocus_keyboards] at hget
      split_ifs at hget
      exact .inr ⟨List.mem_cons_of_mem _ hmem, hne, hget, hsurface⟩

theorem enter_duplicate (h : r.keyboards.get hostKeyboard = some focus) :
    r.enter hostKeyboard focus = (.default, r) := if_pos h

theorem enter_accepted (h : r.keyboards.get hostKeyboard ≠ some focus) :
    (r.enter hostKeyboard focus).1.accepted = true := by
  unfold enter
  rw [if_neg (show ¬ r.focusForKeyboard hostKeyboard = some focus from h)]

/-- An accepted enter takes the foci away that hold another surface of the seat. -/
theorem enter_keyboards (h : r.keyboards.get hostKeyboard ≠ some focus) (k : ℕ) :
    (r.enter hostKeyboard focus).2.keyboards.get k =
      if k = hostKeyboard then some focus
      else (r.keyboards.get k).filter fun f => !yieldsTo hostKeyboard focus k f := by
  unfold enter
  rw [if_neg (show ¬ r.focusForKeyboard hostKeyboard = some focus from h)]
  simp only [Table.get_set, foldl_retireFocus_keyboards, List.mem_mergeSort,
    Table.mem_keysWhere, keyboards_forgetEnters]
  split_ifs with hk hyields
  · rfl
  · obtain ⟨f, hf, hy⟩ := hyields
    simp [hf, hy, Option.filter_some]
  · cases hf : r.keyboards.get k with
    | none => rfl
    | some f => simpa [hf, Option.filter_some] using hyields

/-- The tombstones after an accepted enter. -/
theorem enter_retired (h : r.keyboards.get hostKeyboard ≠ some focus)
    (hget : (r.enter hostKeyboard focus).2.retiredGuestEnters.get (k, surface) = some f) :
    k ≠ hostKeyboard ∧ (r.retiredGuestEnters.get (k, surface) = some f ∨
      r.keyboards.get k = some f ∧ yieldsTo hostKeyboard focus k f = true ∧
        f.hostSurface = surface) := by
  unfold enter at hget
  rw [if_neg (show ¬ r.focusForKeyboard hostKeyboard = some focus from h)] at hget
  rcases foldl_retireFocus_retired hget with hold | ⟨hmem, hne, hfocus, hsurface⟩
  · rw [forgetEnters_retired] at hold
    split_ifs at hold with heq
    exact ⟨heq, .inl hold⟩
  · rw [List.mem_mergeSort, Table.mem_keysWhere] at hmem
    obtain ⟨f', hf', hy⟩ := hmem
    obtain rfl : f' = f := Option.some.inj (hf'.symm.trans hfocus)
    exact ⟨hne, .inr ⟨hf', hy, hsurface⟩⟩

/-- A leave is ignored, consumes a tombstone, or ends the focus of its keyboard. -/
theorem leave_cases (r : KeyboardFocusRegistry) (hostKeyboard hostSurface : ℕ) :
    r.leave hostKeyboard hostSurface = (.default, r) ∨
    (∃ f, r.keyboards.get hostKeyboard = none ∧
      r.retiredGuestEnters.get (hostKeyboard, hostSurface) = some f ∧
      r.leave hostKeyboard hostSurface =
        ({ KeyboardFocusUpdate.default with accepted := true },
          { r with retiredGuestEnters :=
              r.retiredGuestEnters.erase (hostKeyboard, hostSurface) })) ∨
    ∃ focus, r.keyboards.get hostKeyboard = some focus ∧ focus.hostSurface = hostSurface ∧
      r.leave hostKeyboard hostSurface = r.removeKeyboard hostKeyboard focus := by
  unfold leave focusForKeyboard
  cases hfocus : r.keyboards.get hostKeyboard with
  | none =>
    cases hretired : r.retiredGuestEnters.get (hostKeyboard, hostSurface) with
    | none => exact .inl rfl
    | some f => exact .inr (.inl ⟨f, rfl, rfl, rfl⟩)
  | some focus =>
    by_cases hsurface : focus.hostSurface = hostSurface
    · exact .inr (.inr ⟨focus, rfl, hsurface, if_neg (not_not_intro hsurface)⟩)
    · exact .inl (if_pos hsurface)

theorem release_cases (r : KeyboardFocusRegistry) (hostKeyboard : ℕ) :
    r.release hostKeyboard = (.default, r.forgetEnters hostKeyboard) ∨
    ∃ focus, r.keyboards.get hostKeyboard = some focus ∧
      r.release hostKeyboard = (r.forgetEnters hostKeyboard).removeKeyboard hostKeyboard focus := by
  simp only [release, focusForKeyboard, keyboards_forgetEnters]
  cases hfocus : r.keyboards.get hostKeyboard with
  | none => exact .inl rfl
  | some focus => exact .inr ⟨focus, rfl, rfl⟩

@[simp] theorem removeKeyboard_keyboards (r : KeyboardFocusRegistry) (k : ℕ)
    (f : KeyboardFocus) :
    (r.removeKeyboard k f).2.keyboards = r.keyboards.erase k := rfl

@[simp] theorem removeKeyboard_retired (r : KeyboardFocusRegistry) (k : ℕ)
    (f : KeyboardFocus) :
    (r.removeKeyboard k f).2.retiredGuestEnters = r.retiredGuestEnters := rfl

theorem foldl_erase_get (ks : List ℕ) (t : Table ℕ KeyboardFocus) (k : ℕ) :
    (ks.foldl Table.erase t).get k = if k ∈ ks then none else t.get k := by
  induction ks generalizing t with
  | nil => simp
  | cons k' ks ih =>
    rw [List.foldl_cons, ih, Table.get_erase]
    by_cases hk : k ∈ ks <;> simp [hk]

theorem destroySurface_keyboards (r : KeyboardFocusRegistry) (surface k : ℕ) :
    (r.destroySurface surface).2.keyboards.get k =
      (r.keyboards.get k).filter fun f => f.guestSurface != surface := by
  simp only [destroySurface, foldl_erase_get, List.mem_mergeSort, Table.mem_keysWhere]
  cases hf : r.keyboards.get k with
  | none => simp
  | some f => by_cases hs : f.guestSurface = surface <;> simp [hs, Option.filter_some]

theorem destroySurface_retired
    (h : (r.destroySurface surface).2.retiredGuestEnters.get (k, hostSurface) = some f) :
    r.retiredGuestEnters.get (k, hostSurface) = some f := by
  rw [destroySurface, Table.get_retain, Option.filter_eq_some_iff] at h
  exact h.1

end KeyboardFocusRegistry
end Sommelier
