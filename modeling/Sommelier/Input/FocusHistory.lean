import Sommelier.Lib.Matching
import Sommelier.State.KeyboardFocus

/-!
# Histories of keyboard focus

What the focus registry reports over a sequence of operations: the leaves it accepts match the
enters it accepted, and the seat changes it reports are those that happened.

## Main definitions

* `FocusOp`, `FocusHistory`: the operations, and the registry with all it reported.
* `FocusHistory.Tracks`: the invariant.
* `keyboard_focus`: agreement on a seat, matched leaves and exact seat changes.
-/
namespace Sommelier

inductive FocusOp
  | enter (hostKeyboard : ℕ) (focus : KeyboardFocus)
  | leave (hostKeyboard hostSurface : ℕ)
  | release (hostKeyboard : ℕ)
  | destroySurface (guestSurface : ℕ)
  deriving DecidableEq, Repr

def KeyboardFocusRegistry.apply (r : KeyboardFocusRegistry) :
    FocusOp → KeyboardFocusUpdate × KeyboardFocusRegistry
  | .enter hostKeyboard focus => r.enter hostKeyboard focus
  | .leave hostKeyboard hostSurface => r.leave hostKeyboard hostSurface
  | .release hostKeyboard => r.release hostKeyboard
  | .destroySurface guestSurface => r.destroySurface guestSurface

/-- The changes of one seat among the reported ones. -/
def changesOf (seat : ℕ) (changes : List SeatFocusChange) : List SeatFocusChange :=
  changes.filter (·.guestSeat == seat)

/-- An accepted enter opens a generation of its keyboard, an accepted leave closes one. -/
def generationEvent : FocusOp × KeyboardFocusUpdate → GenerationEvent ℕ ℕ
  | (.enter hostKeyboard focus, update) =>
    if update.accepted then .opened hostKeyboard focus.hostSurface else .other
  | (.leave hostKeyboard hostSurface, update) =>
    if update.accepted then .closed hostKeyboard hostSurface else .other
  | _ => .other

/-- The registry with the operations so far and their updates, oldest first. -/
structure FocusHistory where
  registry : KeyboardFocusRegistry
  log : List (FocusOp × KeyboardFocusUpdate)

namespace FocusHistory

def step (h : FocusHistory) (op : FocusOp) : FocusHistory :=
  let (update, registry) := h.registry.apply op
  { registry, log := h.log ++ [(op, update)] }

def events (h : FocusHistory) : List (GenerationEvent ℕ ℕ) := h.log.map generationEvent

/-- All changes of a seat that were reported, oldest first. -/
def seatChanges (h : FocusHistory) (seat : ℕ) : List SeatFocusChange :=
  changesOf seat (h.log.flatMap (·.2.seatChanges))

end FocusHistory

/-- The history of a sequence of operations. -/
def focusHistory (ops : List FocusOp) : FocusHistory :=
  ops.foldl FocusHistory.step { registry := .new, log := [] }

/-- Changes that lead from one surface to another: each starts where the one before ended. -/
def ChainsFrom : Option ℕ → List SeatFocusChange → Option ℕ → Prop
  | start, [], last => start = last
  | start, change :: changes, last =>
    change.previousSurface = start ∧ change.currentSurface ≠ start ∧
      ChainsFrom change.currentSurface changes last

theorem ChainsFrom.append {start middle last : Option ℕ} {changes changes' : List SeatFocusChange}
    (h : ChainsFrom start changes middle) (h' : ChainsFrom middle changes' last) :
    ChainsFrom start (changes ++ changes') last := by
  induction changes generalizing start with
  | nil =>
    obtain rfl : start = middle := h
    exact h'
  | cons change changes ih => exact ⟨h.1, h.2.1, ih h.2.2⟩

/-! ## The reported changes -/

namespace KeyboardFocusRegistry
variable {r r' : KeyboardFocusRegistry} {seat hostKeyboard hostSurface surface : ℕ}
  {focus : KeyboardFocus}

/-- The change of a seat between two registries, if there is one. -/
def seatChange (r r' : KeyboardFocusRegistry) (guestSeat : ℕ) : Option SeatFocusChange :=
  if r.surfaceForSeat guestSeat ≠ r'.surfaceForSeat guestSeat then
    some { guestSeat, previousSurface := r.surfaceForSeat guestSeat,
           currentSurface := r'.surfaceForSeat guestSeat }
  else none

theorem seatChange_eq_none (h : r.surfaceForSeat seat = r'.surfaceForSeat seat) :
    r.seatChange r' seat = none := if_neg (not_not_intro h)

theorem seatChange_of_keyboards (h : r.keyboards = r'.keyboards) : r.seatChange r' seat = none :=
  seatChange_eq_none (by rw [surfaceForSeat, surfaceForSeat, h])

theorem seatChange_seat {change : SeatFocusChange} (h : r.seatChange r' seat = some change) :
    change.guestSeat = seat := by
  unfold seatChange at h
  split_ifs at h
  obtain rfl := Option.some.inj h
  rfl

/-- Of the changes computed for distinct seats, one is about each seat. -/
theorem changesOf_filterMap {seats : List ℕ} (hnodup : seats.Nodup) (r r' : KeyboardFocusRegistry)
    (seat : ℕ) : changesOf seat (seats.filterMap (r.seatChange r')) =
      if seat ∈ seats then (r.seatChange r' seat).toList else [] := by
  induction seats with
  | nil => rfl
  | cons first seats ih =>
    obtain ⟨hfirst, hnodup⟩ := List.nodup_cons.mp hnodup
    unfold changesOf at ih ⊢
    rw [List.filterMap_cons]
    cases hchange : r.seatChange r' first with
    | none =>
      rw [ih hnodup]
      by_cases heq : seat = first
      · subst heq
        simp [hfirst, hchange]
      · simp [heq]
    | some change =>
      have hseat := seatChange_seat hchange
      rw [List.filter_cons, ih hnodup, hseat]
      by_cases heq : seat = first
      · subst heq
        simp [hfirst, hchange]
      · simp [heq, Ne.symm heq]

/-- The changes computed for distinct seats are exact when no other seat changed. -/
theorem changesOf_exact {seats : List ℕ} (hnodup : seats.Nodup)
    (hother : ∀ seat, seat ∉ seats → r.surfaceForSeat seat = r'.surfaceForSeat seat) (seat : ℕ) :
    changesOf seat (seats.filterMap (r.seatChange r')) = (r.seatChange r' seat).toList := by
  rw [changesOf_filterMap hnodup]
  split_ifs with hmem
  · rfl
  · rw [seatChange_eq_none (hother seat hmem), Option.toList_none]

theorem Coherent.enter (hr : r.Coherent) : (r.enter hostKeyboard focus).2.Coherent := by
  by_cases hdup : r.keyboards.get hostKeyboard = some focus
  · rw [enter_duplicate hdup]
    exact hr
  -- Every focus left on the seat that is entered is on the surface that is entered.
  have hseat : ∀ k f, (r.enter hostKeyboard focus).2.keyboards.get k = some f →
      f.guestSeat = focus.guestSeat → f.guestSurface = focus.guestSurface := by
    intro k f hf heq
    rw [enter_keyboards hdup] at hf
    split_ifs at hf with hk
    · rw [← Option.some.inj hf]
    · obtain ⟨-, hstays⟩ := Option.filter_eq_some_iff.mp hf
      simpa [yieldsTo, hk, heq] using hstays
  intro k k' f f' hf hf' heq
  by_cases hon : f.guestSeat = focus.guestSeat
  · rw [hseat k f hf hon, hseat k' f' hf' (heq.symm.trans hon)]
  · have hold : ∀ k f, (r.enter hostKeyboard focus).2.keyboards.get k = some f →
        f.guestSeat ≠ focus.guestSeat → r.keyboards.get k = some f := by
      intro k f hf hne
      rw [enter_keyboards hdup] at hf
      split_ifs at hf
      · exact absurd (by rw [← Option.some.inj hf]) hne
      · exact (Option.filter_eq_some_iff.mp hf).1
    exact hr k k' f f' (hold k f hf hon) (hold k' f' hf' (heq ▸ hon)) heq

/-- An enter changes the surface of its own seat, and of the seat its keyboard was on. -/
theorem surfaceForSeat_enter (hr : r.Coherent) (hne : seat ≠ focus.guestSeat)
    (hprevious : ∀ f, r.keyboards.get hostKeyboard = some f → seat ≠ f.guestSeat) :
    r.surfaceForSeat seat = (r.enter hostKeyboard focus).2.surfaceForSeat seat := by
  by_cases hdup : r.keyboards.get hostKeyboard = some focus
  · rw [enter_duplicate hdup]
  refine hr.surfaceForSeat_congr hr.enter fun surface => ⟨?_, ?_⟩
  · rintro ⟨k, f, hf, rfl, rfl⟩
    have hk : k ≠ hostKeyboard := fun heq => hprevious f (heq ▸ hf) rfl
    refine ⟨k, f, ?_, rfl, rfl⟩
    rw [enter_keyboards hdup, if_neg hk, hf]
    simp [Option.filter_some, yieldsTo, hk, hne]
  · rintro ⟨k, f, hf, rfl, rfl⟩
    rw [enter_keyboards hdup] at hf
    split_ifs at hf
    · exact absurd (by rw [← Option.some.inj hf]) hne
    · exact ⟨k, f, (Option.filter_eq_some_iff.mp hf).1, rfl, rfl⟩

theorem enter_changes (hr : r.Coherent) (seat : ℕ) :
    changesOf seat (r.enter hostKeyboard focus).1.seatChanges =
      (r.seatChange (r.enter hostKeyboard focus).2 seat).toList := by
  by_cases hdup : r.keyboards.get hostKeyboard = some focus
  · rw [enter_duplicate hdup, seatChange_eq_none rfl]
    rfl
  have hseats : (r.enter hostKeyboard focus).1.seatChanges =
      (((focus.guestSeat :: ((r.focusForKeyboard hostKeyboard).map (·.guestSeat)).toList).mergeSort
        ).dedup).filterMap (r.seatChange (r.enter hostKeyboard focus).2) := by
    unfold enter
    rw [if_neg (show ¬ r.focusForKeyboard hostKeyboard = some focus from hdup)]
    simp only [List.filterMap_map]
    rfl
  rw [hseats]
  refine changesOf_exact (List.nodup_dedup _) (fun seat hmem => ?_) seat
  rw [List.mem_dedup, List.mem_mergeSort, List.mem_cons, Option.mem_toList,
    Option.map_eq_some_iff] at hmem
  exact surfaceForSeat_enter hr (fun heq => hmem (.inl heq))
    fun f hf heq => hmem (.inr ⟨f, hf, heq.symm⟩)

theorem Coherent.removeKeyboard (hr : r.Coherent) :
    (r.removeKeyboard hostKeyboard focus).2.Coherent := by
  refine hr.of_subset fun k f hf => ?_
  change (r.keyboards.erase hostKeyboard).get k = some f at hf
  rw [Table.get_erase] at hf
  split_ifs at hf
  exact hf

theorem removeKeyboard_changes (hr : r.Coherent)
    (hfocus : r.keyboards.get hostKeyboard = some focus) (seat : ℕ) :
    changesOf seat (r.removeKeyboard hostKeyboard focus).1.seatChanges =
      (r.seatChange (r.removeKeyboard hostKeyboard focus).2 seat).toList := by
  have hseats : (r.removeKeyboard hostKeyboard focus).1.seatChanges =
      [focus.guestSeat].filterMap (r.seatChange (r.removeKeyboard hostKeyboard focus).2) := by
    simp only [List.filterMap_cons, List.filterMap_nil, seatChange]
    by_cases h : r.surfaceForSeat focus.guestSeat =
        (r.removeKeyboard hostKeyboard focus).2.surfaceForSeat focus.guestSeat
    · rw [if_neg (not_not_intro h)]
      exact if_neg (not_not_intro h)
    · rw [if_pos h]
      exact if_pos h
  rw [hseats]
  refine changesOf_exact (List.nodup_singleton _) (fun seat hmem => ?_) seat
  have hne : seat ≠ focus.guestSeat := by simpa using hmem
  refine hr.surfaceForSeat_congr hr.removeKeyboard fun surface => ⟨?_, ?_⟩
  · rintro ⟨k, f, hf, rfl, rfl⟩
    have hk : k ≠ hostKeyboard := by
      rintro rfl
      rw [hf] at hfocus
      exact hne (by rw [Option.some.inj hfocus])
    exact ⟨k, f, by simp [KeyboardFocusRegistry.removeKeyboard, hk, hf], rfl, rfl⟩
  · rintro ⟨k, f, hf, rfl, rfl⟩
    change (r.keyboards.erase hostKeyboard).get k = some f at hf
    rw [Table.get_erase] at hf
    split_ifs at hf
    exact ⟨k, f, hf, rfl, rfl⟩

theorem Coherent.destroySurface (hr : r.Coherent) : (r.destroySurface surface).2.Coherent := by
  refine hr.of_subset fun k f hf => ?_
  rw [destroySurface_keyboards] at hf
  exact (Option.filter_eq_some_iff.mp hf).1

/-- A destroyed surface leaves no focus behind on its seats. -/
theorem surfaceForSeat_destroySurface (hr : r.Coherent) (h : r.Holds seat surface) :
    (r.destroySurface surface).2.surfaceForSeat seat = none := by
  cases hs : (r.destroySurface surface).2.surfaceForSeat seat with
  | none => rfl
  | some surface' =>
    obtain ⟨k, f, hf, rfl, rfl⟩ := surfaceForSeat_eq_some hs
    obtain ⟨k', f', hf', hseat, hsurface⟩ := h
    rw [destroySurface_keyboards] at hf
    obtain ⟨hf, hother⟩ := Option.filter_eq_some_iff.mp hf
    have heq := hr k k' f f' hf hf' hseat.symm
    simp [heq, hsurface] at hother

theorem destroySurface_changes (hr : r.Coherent) (seat : ℕ) :
    changesOf seat (r.destroySurface surface).1.seatChanges =
      (r.seatChange (r.destroySurface surface).2 seat).toList := by
  let seats := (((r.keyboards.valuesWhere fun _ focus =>
    focus.guestSurface == surface).map (·.guestSeat)).mergeSort).dedup
  have hmem : ∀ seat, seat ∈ seats ↔ r.Holds seat surface := by
    intro seat
    simp only [seats, List.mem_dedup, List.mem_mergeSort, List.mem_map, Table.mem_valuesWhere,
      beq_iff_eq]
    constructor
    · rintro ⟨f, ⟨k, hf, hs⟩, hseat⟩
      exact ⟨k, f, hf, hseat, hs⟩
    · rintro ⟨k, f, hf, hseat, hs⟩
      exact ⟨f, ⟨k, hf, hs⟩, hseat⟩
  have hseats : (r.destroySurface surface).1.seatChanges =
      seats.filterMap (r.seatChange (r.destroySurface surface).2) := by
    rw [List.filterMap_congr (g := fun guestSeat => some
      { guestSeat, previousSurface := some surface,
        currentSurface := (r.destroySurface surface).2.surfaceForSeat guestSeat }),
      List.filterMap_eq_map']
    · rfl
    · intro seat hseat
      have hholds := (hmem seat).mp hseat
      rw [seatChange, hr.surfaceForSeat_iff.mpr hholds, if_pos]
      rw [surfaceForSeat_destroySurface hr hholds]
      exact Option.some_ne_none surface
  rw [hseats]
  refine changesOf_exact (List.nodup_dedup _) (fun seat hseat => ?_) seat
  refine hr.surfaceForSeat_congr hr.destroySurface fun surface' => ⟨?_, ?_⟩
  · rintro ⟨k, f, hf, rfl, rfl⟩
    have hne : f.guestSurface ≠ surface := fun heq =>
      hseat ((hmem f.guestSeat).mpr ⟨k, f, hf, rfl, heq⟩)
    exact ⟨k, f, by simp [destroySurface_keyboards, hf, Option.filter_some, hne], rfl, rfl⟩
  · rintro ⟨k, f, hf, rfl, rfl⟩
    rw [destroySurface_keyboards] at hf
    exact ⟨k, f, (Option.filter_eq_some_iff.mp hf).1, rfl, rfl⟩

/-- Every operation keeps the keyboards of a seat in agreement. -/
theorem Coherent.apply (hr : r.Coherent) (op : FocusOp) : (r.apply op).2.Coherent := by
  cases op with
  | enter hostKeyboard focus => exact hr.enter
  | leave hostKeyboard hostSurface =>
    change (r.leave hostKeyboard hostSurface).2.Coherent
    rcases r.leave_cases hostKeyboard hostSurface with h | ⟨-, -, -, h⟩ | ⟨focus, -, -, h⟩ <;>
      rw [h]
    · exact hr
    · exact hr
    · exact hr.removeKeyboard
  | release hostKeyboard =>
    change (r.release hostKeyboard).2.Coherent
    rcases r.release_cases hostKeyboard with h | ⟨focus, -, h⟩ <;> rw [h]
    · exact hr
    · exact Coherent.removeKeyboard (r := r.forgetEnters hostKeyboard) hr
  | destroySurface guestSurface => exact hr.destroySurface

/-- An operation reports the change of a seat exactly when its surface changed. -/
theorem apply_changes (hr : r.Coherent) (op : FocusOp) (seat : ℕ) :
    changesOf seat (r.apply op).1.seatChanges = (r.seatChange (r.apply op).2 seat).toList := by
  cases op with
  | enter hostKeyboard focus => exact enter_changes hr seat
  | leave hostKeyboard hostSurface =>
    change changesOf seat (r.leave hostKeyboard hostSurface).1.seatChanges =
      (r.seatChange (r.leave hostKeyboard hostSurface).2 seat).toList
    rcases r.leave_cases hostKeyboard hostSurface with
      h | ⟨-, -, -, h⟩ | ⟨focus, hf, -, h⟩ <;> rw [h]
    · rw [seatChange_eq_none rfl]
      rfl
    · rw [seatChange_of_keyboards] <;> rfl
    · exact removeKeyboard_changes hr hf seat
  | release hostKeyboard =>
    change changesOf seat (r.release hostKeyboard).1.seatChanges =
      (r.seatChange (r.release hostKeyboard).2 seat).toList
    rcases r.release_cases hostKeyboard with h | ⟨focus, hf, h⟩ <;> rw [h]
    · rw [seatChange_of_keyboards] <;> rfl
    · exact removeKeyboard_changes (r := r.forgetEnters hostKeyboard) hr hf seat
  | destroySurface guestSurface => exact destroySurface_changes hr seat

end KeyboardFocusRegistry

/-! ## The invariant -/

namespace FocusHistory
open KeyboardFocusRegistry

/-- Every focus and every tombstone belongs to the open generation of its keyboard, and a
keyboard with a tombstone has no focus. -/
structure Tracks (h : FocusHistory) : Prop where
  coherent : h.registry.Coherent
  focused : ∀ k f, h.registry.keyboards.get k = some f →
    openGeneration h.events k = some f.hostSurface
  retired : ∀ k surface f, h.registry.retiredGuestEnters.get (k, surface) = some f →
    h.registry.keyboards.get k = none ∧ openGeneration h.events k = some surface
  wellClosed : WellClosed h.events
  chained : ∀ seat, ChainsFrom none (h.seatChanges seat) (h.registry.surfaceForSeat seat)

variable {h : FocusHistory}

@[simp] theorem events_step (h : FocusHistory) (op : FocusOp) :
    (h.step op).events = h.events ++ [generationEvent (op, (h.registry.apply op).1)] := by
  simp [events, step]

@[simp] theorem registry_step (h : FocusHistory) (op : FocusOp) :
    (h.step op).registry = (h.registry.apply op).2 := rfl

theorem seatChanges_step (h : FocusHistory) (op : FocusOp) (seat : ℕ) :
    (h.step op).seatChanges seat =
      h.seatChanges seat ++ changesOf seat (h.registry.apply op).1.seatChanges := by
  simp [seatChanges, step, changesOf]

theorem chainsFrom_seatChange (r r' : KeyboardFocusRegistry) (seat : ℕ) :
    ChainsFrom (r.surfaceForSeat seat) (r.seatChange r' seat).toList (r'.surfaceForSeat seat) := by
  unfold seatChange
  split_ifs with hne
  · exact ⟨rfl, Ne.symm hne, rfl⟩
  · exact not_not.mp hne

/-- An operation after which no keyboard has gained a focus or a tombstone, and whose event, if
it closes a generation, closes the one its keyboard holds. -/
theorem Tracks.shrink (hh : h.Tracks) {op : FocusOp}
    (hkeyboards : ∀ k f, (h.registry.apply op).2.keyboards.get k = some f →
      h.registry.keyboards.get k = some f)
    (hretired : ∀ k surface f,
      (h.registry.apply op).2.retiredGuestEnters.get (k, surface) = some f →
      h.registry.retiredGuestEnters.get (k, surface) = some f)
    (hevent : generationEvent (op, (h.registry.apply op).1) = .other ∨
      ∃ k surface, generationEvent (op, (h.registry.apply op).1) = .closed k surface ∧
        openGeneration h.events k = some surface ∧
        (h.registry.apply op).2.keyboards.get k = none ∧
        ∀ surface', (h.registry.apply op).2.retiredGuestEnters.get (k, surface') = none) :
    (h.step op).Tracks where
  coherent := hh.coherent.apply op
  focused k f hf := by
    have hopen := hh.focused k f (hkeyboards k f hf)
    rw [events_step, openGeneration_snoc]
    rcases hevent with hother | ⟨k', surface, hclosed, -, hnone, -⟩
    · rw [hother]
      exact hopen
    · have hne : k' ≠ k := by
        rintro rfl
        rw [registry_step, hnone] at hf
        cases hf
      rw [hclosed, GenerationEvent.next_of_not_about
        (show ¬ GenerationEvent.About k (.closed k' _) from hne), hopen]
  retired k surface f hf := by
    obtain ⟨hfocus, hopen⟩ := hh.retired k surface f (hretired k surface f hf)
    constructor
    · cases hget : (h.step op).registry.keyboards.get k with
      | none => rfl
      | some f' =>
        rw [hkeyboards k f' hget] at hfocus
        cases hfocus
    rw [events_step, openGeneration_snoc]
    rcases hevent with hother | ⟨k', surface', hclosed, -, -, hnone⟩
    · rw [hother]
      exact hopen
    · have hne : k' ≠ k := by
        rintro rfl
        rw [registry_step, hnone] at hf
        cases hf
      rw [hclosed, GenerationEvent.next_of_not_about
        (show ¬ GenerationEvent.About k (.closed k' _) from hne), hopen]
  wellClosed := by
    rw [events_step]
    refine hh.wellClosed.snoc fun k v he => ?_
    rcases hevent with hother | ⟨k', surface, hclosed, hopen, -⟩
    · rw [hother] at he
      cases he
    · rw [hclosed] at he
      cases he
      exact hopen
  chained seat := by
    rw [seatChanges_step, apply_changes hh.coherent]
    exact (hh.chained seat).append (chainsFrom_seatChange ..)

/-- An operation that is ignored. -/
theorem Tracks.ignore (hh : h.Tracks) {op : FocusOp}
    (happly : h.registry.apply op = (.default, h.registry)) : (h.step op).Tracks := by
  refine hh.shrink (fun k f hf => ?_) (fun k surface f hf => ?_) (.inl ?_)
  · rwa [happly] at hf
  · rwa [happly] at hf
  · rw [happly]
    cases op <;> rfl

theorem Tracks.enter (hh : h.Tracks) (hostKeyboard : ℕ) (focus : KeyboardFocus) :
    (h.step (.enter hostKeyboard focus)).Tracks := by
  by_cases hdup : h.registry.keyboards.get hostKeyboard = some focus
  · exact hh.ignore (enter_duplicate hdup)
  have hevent : generationEvent (.enter hostKeyboard focus,
      (h.registry.apply (.enter hostKeyboard focus)).1) =
      .opened hostKeyboard focus.hostSurface := if_pos (enter_accepted hdup)
  -- The event opens a generation of the entering keyboard and is about no other one.
  have hopen : ∀ k, openGeneration (h.step (.enter hostKeyboard focus)).events k =
      if hostKeyboard = k then some focus.hostSurface else openGeneration h.events k := by
    intro k
    rw [events_step, hevent, openGeneration_snoc]
    rfl
  constructor
  case coherent => exact hh.coherent.apply (.enter hostKeyboard focus)
  case focused =>
    intro k f hf
    rw [hopen]
    change (h.registry.enter hostKeyboard focus).2.keyboards.get k = some f at hf
    rw [enter_keyboards hdup] at hf
    split_ifs at hf with hk
    · rw [if_pos hk.symm, Option.some.inj hf]
    · rw [if_neg (Ne.symm hk)]
      exact hh.focused k f (Option.filter_eq_some_iff.mp hf).1
  case retired =>
    intro k surface f hf
    obtain ⟨hne, hcases⟩ := enter_retired hdup hf
    have hnone : (h.step (.enter hostKeyboard focus)).registry.keyboards.get k = none := by
      change (h.registry.enter hostKeyboard focus).2.keyboards.get k = none
      rw [enter_keyboards hdup, if_neg hne]
      rcases hcases with hold | ⟨hget, hyields, -⟩
      · rw [(hh.retired k surface f hold).1]
        rfl
      · simp [hget, hyields, Option.filter_some]
    refine ⟨hnone, ?_⟩
    rw [hopen, if_neg (Ne.symm hne)]
    rcases hcases with hold | ⟨hget, -, rfl⟩
    · exact (hh.retired k surface f hold).2
    · exact hh.focused k f hget
  case wellClosed =>
    rw [events_step, hevent]
    exact hh.wellClosed.snoc fun k v he => by cases he
  case chained =>
    intro seat
    rw [seatChanges_step, apply_changes hh.coherent]
    exact (hh.chained seat).append (chainsFrom_seatChange ..)

theorem Tracks.leave (hh : h.Tracks) (hostKeyboard hostSurface : ℕ) :
    (h.step (.leave hostKeyboard hostSurface)).Tracks := by
  rcases h.registry.leave_cases hostKeyboard hostSurface with
    happly | ⟨f, hfocus, hretired, happly⟩ | ⟨focus, hfocus, rfl, happly⟩
  · exact hh.ignore happly
  · replace happly : h.registry.apply (.leave hostKeyboard hostSurface) = _ := happly
    have hopen := (hh.retired hostKeyboard hostSurface f hretired).2
    refine hh.shrink (fun k f hf => ?_) (fun k surface f hf => ?_)
      (.inr ⟨hostKeyboard, hostSurface, ?_, hopen, ?_, fun surface => ?_⟩)
    · rwa [happly] at hf
    · rw [happly, Table.get_erase] at hf
      split_ifs at hf
      exact hf
    · rw [happly]
      rfl
    · rw [happly]
      exact hfocus
    · rw [happly, Table.get_erase]
      split_ifs with hsame
      · rfl
      · cases hget : h.registry.retiredGuestEnters.get (hostKeyboard, surface) with
        | none => rfl
        | some f' =>
          -- A keyboard has a tombstone for its open generation only.
          have hopen' := (hh.retired hostKeyboard surface f' hget).2
          rw [hopen] at hopen'
          exact absurd (by rw [Option.some.inj hopen']) hsame
  · replace happly : h.registry.apply (.leave hostKeyboard focus.hostSurface) = _ := happly
    refine hh.shrink (fun k f hf => ?_) (fun k surface f hf => ?_)
      (.inr ⟨hostKeyboard, focus.hostSurface, ?_, hh.focused hostKeyboard focus hfocus, ?_,
        fun surface => ?_⟩)
    · rw [happly, removeKeyboard_keyboards, Table.get_erase] at hf
      split_ifs at hf
      exact hf
    · rwa [happly] at hf
    · rw [happly]
      rfl
    · rw [happly, removeKeyboard_keyboards, Table.get_erase, if_pos rfl]
    · rw [happly, removeKeyboard_retired]
      cases hget : h.registry.retiredGuestEnters.get (hostKeyboard, surface) with
      | none => rfl
      | some f =>
        rw [(hh.retired hostKeyboard surface f hget).1] at hfocus
        cases hfocus

theorem Tracks.release (hh : h.Tracks) (hostKeyboard : ℕ) :
    (h.step (.release hostKeyboard)).Tracks := by
  have hretired : ∀ k surface f, (h.registry.forgetEnters hostKeyboard).retiredGuestEnters.get
      (k, surface) = some f → h.registry.retiredGuestEnters.get (k, surface) = some f := by
    intro k surface f hf
    rw [forgetEnters_retired] at hf
    split_ifs at hf
    exact hf
  rcases h.registry.release_cases hostKeyboard with happly | ⟨focus, -, happly⟩
  · replace happly : h.registry.apply (.release hostKeyboard) = _ := happly
    refine hh.shrink (fun k f hf => ?_) (fun k surface f hf => ?_) (.inl rfl)
    · rwa [happly] at hf
    · rw [happly] at hf
      exact hretired k surface f hf
  · replace happly : h.registry.apply (.release hostKeyboard) = _ := happly
    refine hh.shrink (fun k f hf => ?_) (fun k surface f hf => ?_) (.inl rfl)
    · rw [happly, removeKeyboard_keyboards, Table.get_erase] at hf
      split_ifs at hf
      exact hf
    · rw [happly] at hf
      exact hretired k surface f hf

theorem Tracks.destroySurface (hh : h.Tracks) (guestSurface : ℕ) :
    (h.step (.destroySurface guestSurface)).Tracks := by
  refine hh.shrink (fun k f hf => ?_) (fun k surface f hf => ?_) (.inl rfl)
  · change (h.registry.destroySurface guestSurface).2.keyboards.get k = some f at hf
    rw [destroySurface_keyboards] at hf
    exact (Option.filter_eq_some_iff.mp hf).1
  · exact destroySurface_retired hf

theorem Tracks.step (hh : h.Tracks) (op : FocusOp) : (h.step op).Tracks := by
  cases op with
  | enter hostKeyboard focus => exact hh.enter hostKeyboard focus
  | leave hostKeyboard hostSurface => exact hh.leave hostKeyboard hostSurface
  | release hostKeyboard => exact hh.release hostKeyboard
  | destroySurface guestSurface => exact hh.destroySurface guestSurface

theorem tracks_new : Tracks { registry := .new, log := [] } where
  coherent k k' f f' hf := by simp [KeyboardFocusRegistry.new] at hf
  focused k f hf := by simp [KeyboardFocusRegistry.new] at hf
  retired k surface f hf := by simp [KeyboardFocusRegistry.new] at hf
  wellClosed := wellClosed_nil
  chained _ := rfl

end FocusHistory

/-- Every history is tracked by its registry. -/
theorem tracks_focusHistory (ops : List FocusOp) : (focusHistory ops).Tracks := by
  have hrun : ∀ (ops : List FocusOp) (h : FocusHistory), h.Tracks →
      (ops.foldl FocusHistory.step h).Tracks := by
    intro ops
    induction ops with
    | nil => exact fun h hh => hh
    | cons op ops ih => exact fun h hh => ih _ (hh.step op)
  exact hrun ops _ FocusHistory.tracks_new

/-- After every sequence of operations the keyboards of a seat agree on its surface, every
accepted leave closes exactly one earlier accepted enter of its keyboard with its host surface,
not superseded by a later one, and no enter is closed twice. An operation reports one change of
a seat, from the surface before to the surface after it, when the two differ, and none
otherwise; the reported changes of a seat form a chain. -/
theorem keyboard_focus (ops : List FocusOp) :
    (focusHistory ops).registry.Coherent ∧
    (∀ j hostKeyboard hostSurface,
      (focusHistory ops).events[j]? = some (.closed hostKeyboard hostSurface) →
        ∃! i, Closes (focusHistory ops).events i j) ∧
    (∀ i j j', Closes (focusHistory ops).events i j → Closes (focusHistory ops).events i j' →
      j = j') ∧
    (∀ op seat, changesOf seat ((focusHistory ops).registry.apply op).1.seatChanges =
      if (focusHistory ops).registry.surfaceForSeat seat =
          ((focusHistory ops).registry.apply op).2.surfaceForSeat seat then []
      else [{ guestSeat := seat
              previousSurface := (focusHistory ops).registry.surfaceForSeat seat
              currentSurface :=
                ((focusHistory ops).registry.apply op).2.surfaceForSeat seat }]) ∧
    ∀ seat, ChainsFrom none ((focusHistory ops).seatChanges seat)
      ((focusHistory ops).registry.surfaceForSeat seat) := by
  have hh := tracks_focusHistory ops
  refine ⟨hh.coherent, fun j k surface hj => hh.wellClosed.closes_one hj,
    fun i j j' hi hi' => hh.wellClosed.closes_once hi hi', fun op seat => ?_, hh.chained⟩
  rw [KeyboardFocusRegistry.apply_changes hh.coherent, KeyboardFocusRegistry.seatChange]
  split_ifs <;> first | rfl | contradiction

end Sommelier
