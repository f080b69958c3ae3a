import Mathlib.Logic.Relation
import Sommelier.State.KeyGenerations

/-!
# Moves of key generations

Every operation on the registry takes each generation a few moves further, starts a new one or
drops it, so that what the moves keep holds as long as a session lasts.

## Main definitions

* `KeyGeneration.Move`: what one operation does to a generation.
* `KeyGeneration.Sound`: what the moves keep.
* `KeyGenerationRegistry.Moves`: what an operation does to all generations.
-/
namespace Sommelier

/-! ## Moves of a generation -/

namespace KeyGeneration

/-- Nothing of this generation can be recovered: it was peeked as a key that is not eligible, or
will be. -/
def barred (g : KeyGeneration) : Bool :=
  match g.peek with
  | none => g.hostAcceleratorSuppressed
  | some press => !press.eligible

/-- A press that is found to be an accelerator now would leave no trace: the guest has the key
from a text input, and a later peek would make it eligible. -/
def losesAccelerator (g : KeyGeneration) : Bool :=
  g.guestOwner == some .textInputKeysym && g.peek.isNone && g.physicalState != .released

/-- The generation would outlive its suppression, and a later peek would make it eligible. -/
def losesSuppression (g : KeyGeneration) : Bool :=
  g.hostAcceleratorSuppressed && g.peek.isNone && g.physicalState != .released &&
    !{ g with hostAcceleratorSuppressed := false }.isUnreferenced

/-- The generation is over, or closed by its release at the earliest, or barred. -/
def Remembers (g : KeyGeneration) : Prop :=
  g.physicalState = .released ∨ g.guestOwner = some .physical ∨ g.barred = true

/-- What one operation does to a generation. A `careful` operation does not hide that the key is
an accelerator. -/
inductive Move (careful : Prop) : KeyGeneration → KeyGeneration → Prop
  | press {g : KeyGeneration} (hstate : g.physicalState ≠ .released) :
    Move careful g { g with physicalState := .held }
  | release (g : KeyGeneration) (serial : Option ℕ) : Move careful g (g.observeRelease serial)
  | forgetPeek {g : KeyGeneration} (hstate : g.physicalState ≠ .held) :
    Move careful g { g with peek := none }
  | peek {g : KeyGeneration} (serial time : ℕ) {eligible : Bool}
    (hstate : g.physicalState = .held) (hpeek : g.peek = none)
    (heligible : g.hostAcceleratorSuppressed = true → eligible = false) :
    Move careful g
      { g with
        peekPressSerial := some serial
        peek := some { serial, time, sequence := g.id, eligible } }
  | refresh (g : KeyGeneration) (serial time : ℕ) :
    Move careful g
      { g with
        peekPressSerial := some serial
        peek := g.peek.map fun press => { press with serial, time } }
  | invalidate (g : KeyGeneration) :
    Move careful g { g with peek := g.peek.map fun press => { press with eligible := false } }
  | repeats (g : KeyGeneration) (cancelled : Bool) (owner : Option ℕ) :
    Move careful g { g with backspaceRepeatCancelled := cancelled, imeRepeatOwner := owner }
  | claim {g : KeyGeneration} (owner : GuestKeyOwner) (hfree : g.guestOwner = none)
    (howner : g.hostAcceleratorSuppressed = true → owner = .imeRecovery) :
    Move careful g { g with guestOwner := some owner }
  | pressSerial (g : KeyGeneration) (serial : Option ℕ) :
    Move careful g { g with guestPressSerial := serial }
  | take {g : KeyGeneration} (hstate : g.physicalState = .released) :
    Move careful g { g with guestOwner := none, guestPressSerial := none }
  | complete {g : KeyGeneration} (howner : g.guestOwner = some .textInputKeysym) :
    Move careful g { g with guestOwner := some .imeRecovery }
  | suppress {g : KeyGeneration} (hforwarded : g.forwarded = false) :
    Move careful g { g with hostAcceleratorSuppressed := true }
  | unsuppress {g : KeyGeneration} (h : careful → g.hostAcceleratorSuppressed = true →
      g.peek = none → g.physicalState = .released) :
    Move careful g { g with hostAcceleratorSuppressed := false }
  | note {g : KeyGeneration} (h : careful → g.Remembers) :
    Move careful g { g with accelerator := true }

/-- Some moves after each other. -/
abbrev Moves (careful : Prop) : KeyGeneration → KeyGeneration → Prop :=
  Relation.ReflTransGen (Move careful)

/-- A suppressed key is not with the guest, a peeked press has the number of its generation, and
after careful moves an accelerator cannot be recovered. -/
structure Sound (careful : Prop) (g : KeyGeneration) : Prop where
  suppressed : g.hostAcceleratorSuppressed = true → g.forwarded = false
  sequence : ∀ press, g.peek = some press → press.sequence = g.id
  unseen : g.physicalState = .unseen → g.peek = none
  remembers : careful → g.accelerator = true → g.Remembers

theorem sound_new (careful : Prop) (id : ℕ) : (new id).Sound careful where
  suppressed h := by cases h
  sequence _ h := by cases h
  unseen _ := rfl
  remembers _ h := by cases h

variable {careful : Prop} {g g' : KeyGeneration}

theorem Move.suppressed (h : Move careful g g')
    (hg : g.hostAcceleratorSuppressed = true → g.forwarded = false) :
    g'.hostAcceleratorSuppressed = true → g'.forwarded = false := by
  cases h with
  | claim owner hfree howner =>
    intro hsuppressed
    obtain rfl := howner hsuppressed
    rfl
  | suppress hforwarded => exact fun _ => hforwarded
  | unsuppress h => intro hsuppressed; cases hsuppressed
  | take hstate => exact fun _ => rfl
  | complete howner => exact fun _ => rfl
  | _ => exact hg

theorem Move.sequence (h : Move careful g g')
    (hg : ∀ press, g.peek = some press → press.sequence = g.id) :
    ∀ press, g'.peek = some press → press.sequence = g'.id := by
  cases h with
  | forgetPeek hstate => intro press hpress; cases hpress
  | peek serial time hstate hpeek heligible => rintro _ ⟨⟩; rfl
  | refresh serial time =>
    intro press hpress
    obtain ⟨press', hpress', rfl⟩ := Option.map_eq_some_iff.mp hpress
    exact hg press' hpress'
  | invalidate =>
    intro press hpress
    obtain ⟨press', hpress', rfl⟩ := Option.map_eq_some_iff.mp hpress
    exact hg press' hpress'
  | _ => exact hg

theorem Move.unseen (h : Move careful g g')
    (hg : g.physicalState = .unseen → g.peek = none) :
    g'.physicalState = .unseen → g'.peek = none := by
  cases h with
  | press hstate => intro hstate; cases hstate
  | release serial => intro hstate; cases hstate
  | forgetPeek hstate => exact fun _ => rfl
  | peek serial time hstate hpeek heligible =>
    intro hunseen
    cases hstate.symm.trans hunseen
  | refresh serial time => exact fun hstate => Option.map_eq_none_iff.mpr (hg hstate)
  | invalidate => exact fun hstate => Option.map_eq_none_iff.mpr (hg hstate)
  | _ => exact hg

theorem barred_of_suppressed (hsuppressed : g.hostAcceleratorSuppressed = true)
    (hpeek : g.peek = none) : g.barred = true := by
  rw [barred, hpeek]
  exact hsuppressed

/-- Only a peeked press that is not eligible bars a generation that is not suppressed. -/
theorem suppressed_of_barred (h : g.barred = true) (hpeek : g.peek = none) :
    g.hostAcceleratorSuppressed = true := by
  rwa [barred, hpeek] at h

theorem Move.remembers (h : Move careful g g') (hcareful : careful) (hg : g.Sound careful)
    (haccelerator : g'.accelerator = true) : g'.Remembers := by
  cases h with
  | note h => exact h hcareful
  | release serial => exact .inl rfl
  | take hstate => exact .inl hstate
  | press hstate =>
    rcases hg.remembers hcareful haccelerator with h | h | h
    · exact absurd h hstate
    · exact .inr (.inl h)
    · exact .inr (.inr h)
  | forgetPeek hstate =>
    rcases hg.remembers hcareful haccelerator with h | h | h
    · exact .inl h
    · exact .inr (.inl h)
    · -- A generation that is neither held nor released was not peeked.
      by_cases hreleased : g.physicalState = .released
      · exact .inl hreleased
      · have hunseen : g.physicalState = .unseen := by
          cases hphysical : g.physicalState with
          | held => exact absurd hphysical hstate
          | released => exact absurd hphysical hreleased
          | unseen => rfl
        exact .inr (.inr (suppressed_of_barred (g := g) h (hg.unseen hunseen)))
  | peek serial time hstate hpeek heligible =>
    rcases hg.remembers hcareful haccelerator with h | h | h
    · cases hstate.symm.trans h
    · exact .inr (.inl h)
    · rw [heligible (suppressed_of_barred h hpeek)]
      exact .inr (.inr rfl)
  | refresh serial time =>
    refine (hg.remembers hcareful haccelerator).imp_right (.imp_right fun h => ?_)
    cases hpeek : g.peek with
    | none => simpa [barred, hpeek] using h
    | some press => simpa [barred, hpeek] using h
  | invalidate =>
    refine (hg.remembers hcareful haccelerator).imp_right (.imp_right fun h => ?_)
    cases hpeek : g.peek with
    | none => simpa [barred, hpeek] using h
    | some press => simp [barred]
  | claim owner hfree howner =>
    rcases hg.remembers hcareful haccelerator with h | h | h
    · exact .inl h
    · rw [hfree] at h
      cases h
    · exact .inr (.inr h)
  | complete howner =>
    rcases hg.remembers hcareful haccelerator with h | h | h
    · exact .inl h
    · rw [howner] at h
      cases h
    · exact .inr (.inr h)
  | suppress hforwarded =>
    refine (hg.remembers hcareful haccelerator).imp_right (.imp_right fun h => ?_)
    cases hpeek : g.peek with
    | none => simp [barred]
    | some press => simpa [barred, hpeek] using h
  | unsuppress h =>
    rcases hg.remembers hcareful haccelerator with hstate | howner | hbarred
    · exact .inl hstate
    · exact .inr (.inl howner)
    · cases hpeek : g.peek with
      | none => exact .inl (h hcareful (suppressed_of_barred hbarred hpeek) hpeek)
      | some press => exact .inr (.inr (by simpa [barred, hpeek] using hbarred))
  | _ => exact hg.remembers hcareful haccelerator

theorem Move.sound (h : Move careful g g') (hg : g.Sound careful) : g'.Sound careful where
  suppressed := h.suppressed hg.suppressed
  sequence := h.sequence hg.sequence
  unseen := h.unseen hg.unseen
  remembers hcareful := h.remembers hcareful hg

theorem Moves.sound (h : Moves careful g g') (hg : g.Sound careful) : g'.Sound careful := by
  induction h with
  | refl => exact hg
  | tail _ hmove ih => exact hmove.sound ih

end KeyGeneration

/-! ## Moves of a registry -/

namespace KeyGenerationRegistry
open KeyGeneration (Move)

/-- Every generation afterwards was there before, or is new, and made some moves. -/
structure Moves (careful : Prop) (r r' : KeyGenerationRegistry) : Prop where
  source : ∀ keyboard key g', r'.generation keyboard key = some g' →
    ∃ g, (r.generation keyboard key = some g ∨ ∃ id, g = .new id) ∧ g.Moves careful g'

variable {careful : Prop} {r r' r'' : KeyGenerationRegistry} {keyboard key : ℕ}

/-- Generations were dropped at most. -/
theorem Moves.of_subset (h : ∀ keyboard key g, r'.generation keyboard key = some g →
    r.generation keyboard key = some g) : Moves careful r r' :=
  ⟨fun keyboard key g hg => ⟨g, .inl (h keyboard key g hg), .refl⟩⟩

theorem Moves.of_entries (h : r'.entries = r.entries) : Moves careful r r' :=
  .of_subset fun keyboard key g hg => by rwa [generation, h] at hg

theorem Moves.refl (careful : Prop) (r : KeyGenerationRegistry) : Moves careful r r :=
  .of_entries rfl

theorem Moves.trans (h : Moves careful r r') (h' : Moves careful r' r'') :
    Moves careful r r'' := by
  refine ⟨fun keyboard key g'' hg'' => ?_⟩
  obtain ⟨g', hg' | hnew, hmoves'⟩ := h'.source keyboard key g'' hg''
  · obtain ⟨g, hg, hmoves⟩ := h.source keyboard key g' hg'
    exact ⟨g, hg, hmoves.trans hmoves'⟩
  · exact ⟨g', .inr hnew, hmoves'⟩

/-- Sound generations stay sound. -/
theorem Moves.sound (h : Moves careful r r')
    (hr : ∀ keyboard key g, r.generation keyboard key = some g → g.Sound careful)
    {g' : KeyGeneration} (hg' : r'.generation keyboard key = some g') : g'.Sound careful := by
  obtain ⟨g, hg | ⟨id, rfl⟩, hmoves⟩ := h.source keyboard key g' hg'
  · exact hmoves.sound (hr keyboard key g hg)
  · exact hmoves.sound (KeyGeneration.sound_new careful id)

/-- Take one generation some moves further. -/
theorem Moves.update {f : KeyGeneration → KeyGeneration}
    (h : ∀ g, r.generation keyboard key = some g → g.Moves careful (f g)) :
    Moves careful r (r.update keyboard key f) := by
  refine ⟨fun keyboard' key' g' hg' => ?_⟩
  rw [generation_update] at hg'
  split_ifs at hg' with heq
  · obtain ⟨rfl, rfl⟩ := heq
    obtain ⟨g, hg, rfl⟩ := Option.map_eq_some_iff.mp hg'
    exact ⟨g, .inl hg, h g hg⟩
  · exact ⟨g', .inl hg', .refl⟩

theorem Moves.update_move {f : KeyGeneration → KeyGeneration}
    (h : ∀ g, r.generation keyboard key = some g → Move careful g (f g)) :
    Moves careful r (r.update keyboard key f) :=
  .update fun g hg => .single (h g hg)

theorem moves_ensureGeneration (careful : Prop) (r : KeyGenerationRegistry) (keyboard key : ℕ) :
    Moves careful r (r.ensureGeneration keyboard key) := by
  refine ⟨fun keyboard' key' g hg => ?_⟩
  rcases r.generation_ensureGeneration keyboard key keyboard' key' with h | ⟨-, -, -, id, h⟩
  · exact ⟨g, .inl (h.symm.trans hg), .refl⟩
  · exact ⟨g, .inr ⟨id, Option.some.inj (hg.symm.trans h)⟩, .refl⟩

/-- A generation of the key is there in the end; it is new unless there was one. -/
theorem Moves.ensure_update {f : KeyGeneration → KeyGeneration}
    (h : ∀ g, r.generation keyboard key = some g → g.Moves careful (f g))
    (hnew : r.generation keyboard key = none → ∀ id,
      (KeyGeneration.new id).Moves careful (f (.new id))) :
    Moves careful r ((r.ensureGeneration keyboard key).update keyboard key f) := by
  refine (moves_ensureGeneration careful r keyboard key).trans (.update fun g hg => ?_)
  rcases r.generation_ensureGeneration keyboard key keyboard key with
    heq | ⟨-, -, hnone, id, heq⟩
  · exact h g (heq.symm.trans hg)
  · obtain rfl : g = .new id := Option.some.inj (hg.symm.trans heq)
    exact hnew hnone id

theorem moves_pruneKey (careful : Prop) (r : KeyGenerationRegistry) (keyboard key : ℕ) :
    Moves careful r (r.pruneKey keyboard key) :=
  .of_subset fun _ _ _ => generation_of_pruneKey

theorem moves_clearKeyboard (careful : Prop) (r : KeyGenerationRegistry) (keyboard : ℕ) :
    Moves careful r (r.clearKeyboard keyboard) :=
  .of_subset fun _ _ _ => generation_of_clearKeyboard

theorem moves_retireReleasedGeneration (careful : Prop) (r : KeyGenerationRegistry)
    (keyboard key : ℕ) (nextPressSerial : Option ℕ) :
    Moves careful r (r.retireReleasedGeneration keyboard key nextPressSerial) :=
  .of_subset fun _ _ _ hg => (generation_of_retireReleasedGeneration hg).1

/-! ## Physical events -/

theorem moves_observePhysicalPress (careful : Prop) (r : KeyGenerationRegistry)
    (keyboard key : ℕ) (nextPressSerial : Option ℕ) :
    Moves careful r (r.observePhysicalPress keyboard key nextPressSerial) := by
  refine (moves_retireReleasedGeneration careful r keyboard key nextPressSerial).trans
    (.ensure_update (fun g hg => ?_) fun _ id => ?_)
  · exact .single (.press ((generation_of_retireReleasedGeneration hg).2 rfl rfl))
  · exact .single (.press (by simp [KeyGeneration.new]))

/-- When nothing of a keyboard is held, its peeked presses are forgotten. -/
theorem moves_forgetPeeks (hheld : r.anyPhysicallyHeld keyboard = false) :
    Moves careful r (r.updateKeyboard keyboard fun g => { g with peek := none }) := by
  refine ⟨fun keyboard' key' g' hg' => ?_⟩
  rw [generation_updateKeyboard] at hg'
  split_ifs at hg' with heq
  · subst heq
    obtain ⟨g, hg, rfl⟩ := Option.map_eq_some_iff.mp hg'
    refine ⟨g, .inl hg, .single (.forgetPeek fun hstate => ?_)⟩
    have hany : r.anyPhysicallyHeld keyboard' = true :=
      (Table.any_eq_true ..).mpr ⟨(keyboard', key'), g, hg, by simp [hstate]⟩
    rw [hheld] at hany
    cases hany
  · exact ⟨g', .inl hg', .refl⟩

theorem moves_observePhysicalRelease (careful : Prop) (r : KeyGenerationRegistry)
    (keyboard key : ℕ) (serial : Option ℕ) :
    Moves careful r (r.observePhysicalRelease keyboard key serial) := by
  have hrelease : Moves careful r (r.update keyboard key (.observeRelease serial)) :=
    .update_move fun g _ => .release g serial
  refine hrelease.trans (.trans ?_ (moves_pruneKey ..))
  split_ifs with hheld
  · exact .refl ..
  · exact (moves_forgetPeeks (by simpa using hheld)).trans
      (.of_subset fun _ _ _ hg => (generation_of_pruneKeyboard hg).1)

theorem moves_observePhysicalEvent (careful : Prop) (r : KeyGenerationRegistry)
    (keyboard key state : ℕ) (serial : Option ℕ) :
    Moves careful r (r.observePhysicalEvent keyboard key state serial) := by
  unfold observePhysicalEvent
  split
  · exact moves_observePhysicalPress ..
  · exact moves_observePhysicalRelease ..
  · exact .refl ..

/-- After a release no generation of the key is open. -/
theorem released_of_observePhysicalRelease {serial : Option ℕ} {g : KeyGeneration}
    (hg : (r.observePhysicalRelease keyboard key serial).generation keyboard key = some g) :
    g.physicalState = .released := by
  unfold observePhysicalRelease at hg
  have hrelease : ∀ {g : KeyGeneration}, (r.update keyboard key
      (.observeRelease serial)).generation keyboard key = some g → g.physicalState = .released := by
    intro g hg
    rw [generation_update, if_pos ⟨rfl, rfl⟩] at hg
    obtain ⟨g, -, rfl⟩ := Option.map_eq_some_iff.mp hg
    rfl
  have hg := generation_of_pruneKey hg
  split_ifs at hg
  · exact hrelease hg
  · have hg := (generation_of_pruneKeyboard hg).1
    rw [generation_updateKeyboard, if_pos rfl] at hg
    obtain ⟨g', hg', rfl⟩ := Option.map_eq_some_iff.mp hg
    exact hrelease (g := g') hg'

/-- A generation of the snapshot: the key was down, and the guest was told so. -/
def entered (id : ℕ) : KeyGeneration :=
  { KeyGeneration.new id with physicalState := .held, guestOwner := some .physical }

theorem generation_of_installEnterSnapshot {keys : List ℕ} {keyboard' key' : ℕ}
    {g : KeyGeneration}
    (hg : (r.installEnterSnapshot keyboard keys).generation keyboard' key' = some g) :
    r.generation keyboard' key' = some g ∨ ∃ id, g = entered id := by
  let P (r' : KeyGenerationRegistry) : Prop := ∀ keyboard' key' g,
    r'.generation keyboard' key' = some g →
      (keyboard' ≠ keyboard ∧ r.generation keyboard' key' = some g) ∨ ∃ id, g = entered id
  have hclear : P (r.clearKeyboard keyboard) := by
    intro keyboard' key' g hg
    simp only [generation, clearKeyboard, Table.get_retain, Option.filter_eq_some_iff] at hg
    exact .inl ⟨by simpa using hg.2, hg.1⟩
  have hsnapshot : P (r.installEnterSnapshot keyboard keys) := by
    refine List.foldlRecOn keys _ hclear fun r' hr' key _ keyboard' key' g hg => ?_
    rw [generation_update] at hg
    split_ifs at hg with heq
    · obtain ⟨rfl, rfl⟩ := heq
      obtain ⟨g₀, hg₀, rfl⟩ := Option.map_eq_some_iff.mp hg
      rcases r'.generation_ensureGeneration keyboard' key' keyboard' key' with
        h | ⟨-, -, -, id, h⟩
      · rcases hr' keyboard' key' g₀ (h.symm.trans hg₀) with ⟨hne, -⟩ | ⟨id, rfl⟩
        · exact absurd rfl hne
        · exact .inr ⟨id, rfl⟩
      · obtain rfl : g₀ = .new id := Option.some.inj (hg₀.symm.trans h)
        exact .inr ⟨id, rfl⟩
    · rcases r'.generation_ensureGeneration keyboard key keyboard' key' with
        h | ⟨hkeyboard, hkey, -⟩
      · exact hr' keyboard' key' g (h.symm.trans hg)
      · exact absurd ⟨hkeyboard, hkey⟩ heq
  exact (hsnapshot keyboard' key' g hg).imp_left And.right

theorem moves_installEnterSnapshot (careful : Prop) (r : KeyGenerationRegistry) (keyboard : ℕ)
    (keys : List ℕ) : Moves careful r (r.installEnterSnapshot keyboard keys) := by
  refine ⟨fun keyboard' key' g hg => ?_⟩
  rcases generation_of_installEnterSnapshot hg with h | ⟨id, rfl⟩
  · exact ⟨g, .inl h, .refl⟩
  · have hpress : Move careful (.new id) { KeyGeneration.new id with physicalState := .held } :=
      .press (by simp [KeyGeneration.new])
    exact ⟨.new id, .inr ⟨id, rfl⟩, .tail (.single hpress)
      (.claim .physical rfl (by simp [KeyGeneration.new]))⟩

/-! ## Peeked events -/

theorem generation_observePhysicalPress {nextPressSerial : Option ℕ} {g : KeyGeneration}
    (hg : (r.observePhysicalPress keyboard key nextPressSerial).generation keyboard key = some g) :
    ∃ g₀, g = { g₀ with physicalState := .held } ∧
      ((r.generation keyboard key = some g₀ ∧ g₀.physicalState ≠ .released) ∨
        ∃ id, g₀ = .new id) := by
  rw [observePhysicalPress, generation_update, if_pos ⟨rfl, rfl⟩] at hg
  obtain ⟨g₀, hg₀, rfl⟩ := Option.map_eq_some_iff.mp hg
  refine ⟨g₀, rfl, ?_⟩
  rcases (r.retireReleasedGeneration keyboard key nextPressSerial).generation_ensureGeneration
    keyboard key keyboard key with h | ⟨-, -, -, id, h⟩
  · obtain ⟨hsame, hstate⟩ := generation_of_retireReleasedGeneration (h.symm.trans hg₀)
    exact .inl ⟨hsame, hstate rfl rfl⟩
  · exact .inr ⟨id, Option.some.inj (hg₀.symm.trans h)⟩

theorem observePhysicalPress_ne_none {nextPressSerial : Option ℕ} :
    (r.observePhysicalPress keyboard key nextPressSerial).generation keyboard key ≠ none := by
  rw [observePhysicalPress, generation_update, if_pos ⟨rfl, rfl⟩]
  simpa using ensureGeneration_ne_none

/-- A generation is peeked once. -/
theorem moves_observePeekPress {eligible : Bool} (serial time : ℕ)
    (hpeek : ∀ g, r.generation keyboard key = some g → g.physicalState ≠ .released →
      g.peek = none)
    (heligible : r.hostAcceleratorSuppressed keyboard key = true → eligible = false) :
    Moves careful r (r.observePeekPress keyboard key serial time eligible).2 := by
  set r₁ := if r.physicallyHeld keyboard key then r
    else r.observePhysicalPress keyboard key (some serial) with hr₁
  have hmoves : Moves careful r r₁ := by
    rw [hr₁]
    split_ifs
    · exact .refl ..
    · exact moves_observePhysicalPress ..
  have hsome : r₁.generation keyboard key ≠ none := by
    rw [hr₁]
    split_ifs with hheld
    · obtain ⟨g, hg, -⟩ := (Option.any_eq_true ..).mp hheld
      simp [hg]
    · exact observePhysicalPress_ne_none
  have hfresh : ∀ g, r₁.generation keyboard key = some g → g.physicalState = .held ∧
      g.peek = none ∧ (g.hostAcceleratorSuppressed = true → eligible = false) := by
    have hopen : ∀ g, r.generation keyboard key = some g → g.physicalState ≠ .released →
        g.peek = none ∧ (g.hostAcceleratorSuppressed = true → eligible = false) :=
      fun g hg hstate => ⟨hpeek g hg hstate, fun h =>
        heligible (by simp [hostAcceleratorSuppressed, hg, h])⟩
    intro g hg
    rw [hr₁] at hg
    split_ifs at hg with hheld
    · obtain ⟨g', hg', hstate⟩ := (Option.any_eq_true ..).mp hheld
      obtain rfl : g' = g := Option.some.inj (hg'.symm.trans hg)
      have hstate : g'.physicalState = .held := by simpa using hstate
      exact ⟨hstate, hopen g' hg (by simp [hstate])⟩
    · obtain ⟨g₀, rfl, ⟨hg₀, hstate⟩ | ⟨id, rfl⟩⟩ := generation_observePhysicalPress hg
      · exact ⟨rfl, hopen g₀ hg₀ hstate⟩
      · exact ⟨rfl, rfl, fun h => by cases h⟩
  refine hmoves.trans (.ensure_update (fun g hg => ?_) fun hnone => absurd hnone hsome)
  obtain ⟨hstate, hnone, hsuppressed⟩ := hfresh g hg
  exact .single (.peek serial time hstate hnone hsuppressed)

theorem moves_refreshPeek (careful : Prop) (r : KeyGenerationRegistry)
    (keyboard key serial time : ℕ) :
    Moves careful r (r.refreshPeek keyboard key serial time) :=
  .update_move fun g _ => .refresh g serial time

theorem moves_invalidatePeek (careful : Prop) (r : KeyGenerationRegistry) (keyboard key : ℕ) :
    Moves careful r (r.invalidatePeek keyboard key) :=
  .update_move fun g _ => .invalidate g

/-! ## Repeats of the input method -/

theorem moves_cancelBackspaceRepeat (careful : Prop) (r : KeyGenerationRegistry)
    (keyboard backspace : ℕ) :
    Moves careful r (r.cancelBackspaceRepeat keyboard backspace) := by
  unfold cancelBackspaceRepeat
  split_ifs
  · exact .update_move fun g _ => .repeats g true none
  · exact .refl ..

theorem moves_cancelBackspaceRepeatForOwner (careful : Prop) (r : KeyGenerationRegistry)
    (keyboard backspace guestTextInput : ℕ) :
    Moves careful r (r.cancelBackspaceRepeatForOwner keyboard backspace guestTextInput) := by
  unfold cancelBackspaceRepeatForOwner
  split_ifs
  · exact moves_cancelBackspaceRepeat ..
  · exact .refl ..

theorem moves_armImeRepeat (careful : Prop) (r : KeyGenerationRegistry)
    (keyboard key guestTextInput : ℕ) :
    Moves careful r (r.armImeRepeat keyboard key guestTextInput) := by
  refine .update fun g _ => ?_
  split_ifs
  · exact .single (.repeats g g.backspaceRepeatCancelled (some guestTextInput))
  · exact .refl

/-! ## Owners -/

theorem hostAcceleratorSuppressed_eq_false {g : KeyGeneration}
    (h : r.hostAcceleratorSuppressed keyboard key = false)
    (hg : r.generation keyboard key = some g) : g.hostAcceleratorSuppressed = false := by
  simpa [hostAcceleratorSuppressed, hg] using h

/-- Only the input method may claim a suppressed key. -/
theorem moves_claimGuestOwner (careful : Prop) {owner : GuestKeyOwner}
    (h : r.hostAcceleratorSuppressed keyboard key = true → owner = .imeRecovery) :
    Moves careful r (r.claimGuestOwner keyboard key owner).2 := by
  have hensure := moves_ensureGeneration careful r keyboard key
  unfold claimGuestOwner
  dsimp only
  split_ifs with howner
  · exact hensure
  · refine hensure.trans (.update_move fun g hg => .claim owner ?_ fun hsuppressed => ?_)
    · simpa [guestOwner, hg] using howner
    · rcases r.generation_ensureGeneration keyboard key keyboard key with
        heq | ⟨-, -, -, id, heq⟩
      · exact h (by simp [hostAcceleratorSuppressed, ← heq, hg, hsuppressed])
      · obtain rfl : g = .new id := Option.some.inj (hg.symm.trans heq)
        cases hsuppressed

theorem guestOwner_ensureGeneration :
    (r.ensureGeneration keyboard key).guestOwner keyboard key = r.guestOwner keyboard key := by
  unfold guestOwner
  rcases r.generation_ensureGeneration keyboard key keyboard key with h | ⟨-, -, hnone, id, h⟩
  · rw [h]
  · rw [h, hnone]
    rfl

/-- The owner that claims a key no one has. -/
theorem owner_of_claimGuestOwner {owner : GuestKeyOwner} {g : KeyGeneration}
    (h : r.guestOwner keyboard key = none)
    (hg : (r.claimGuestOwner keyboard key owner).2.generation keyboard key = some g) :
    g.guestOwner = some owner := by
  rw [claimGuestOwner, guestOwner_ensureGeneration, h] at hg
  simp only [Option.isSome_none, Bool.false_eq_true, if_false, generation_update, and_self,
    if_true, Option.map_eq_some_iff] at hg
  obtain ⟨g₀, -, rfl⟩ := hg
  rfl

theorem moves_claimTextInputOwner (careful : Prop) (serial : ℕ)
    (h : r.hostAcceleratorSuppressed keyboard key = false) :
    Moves careful r (r.claimTextInputOwner keyboard key serial).2 := by
  unfold claimTextInputOwner
  dsimp only
  generalize hr₁ : (if (r.generation keyboard key).any fun g => g.endsBefore serial then
      if r.physicalReleased keyboard key then
        r.retireReleasedGeneration keyboard key (some serial)
      else r.remove keyboard key
    else r) = r₁
  have hsubset : ∀ keyboard' key' g, r₁.generation keyboard' key' = some g →
      r.generation keyboard' key' = some g := by
    intro keyboard' key' g hg
    rw [← hr₁] at hg
    split_ifs at hg
    · exact (generation_of_retireReleasedGeneration hg).1
    · rw [generation_remove] at hg
      split_ifs at hg
      exact hg
    · exact hg
  have hfree : r₁.hostAcceleratorSuppressed keyboard key = true → GuestKeyOwner.textInputKeysym =
      .imeRecovery := by
    intro hsuppressed
    obtain ⟨g, hg, hsuppressed⟩ := (Option.any_eq_true ..).mp hsuppressed
    rw [hostAcceleratorSuppressed_eq_false h (hsubset _ _ g hg)] at hsuppressed
    cases hsuppressed
  have hclaim := (Moves.of_subset hsubset).trans (moves_claimGuestOwner careful hfree)
  split_ifs with hclaimed
  · exact hclaim.trans (.update_move fun g _ => .pressSerial g (some serial))
  · exact hclaim

/-- The owner of a generation is taken after its release only. -/
theorem moves_takeGuestOwner (careful : Prop)
    (h : ∀ g, r.generation keyboard key = some g → g.physicalState = .released) :
    Moves careful r (r.takeGuestOwner keyboard key) := by
  refine .trans (.update fun g hg => ?_) (moves_pruneKey ..)
  split_ifs
  · exact .single (.take (h g hg))
  · exact .refl

theorem moves_completeGuestOwnerIf (careful : Prop) (r : KeyGenerationRegistry)
    (keyboard key : ℕ) :
    Moves careful r (r.completeGuestOwnerIf keyboard key .textInputKeysym).2 := by
  unfold completeGuestOwnerIf
  split_ifs with howner
  · exact .update_move fun g hg => .complete (by simpa [guestOwner, hg] using howner)
  · exact .refl ..

/-! ## Host accelerators -/

theorem moves_suppressHostAccelerator (careful : Prop)
    (h : ∀ g, r.generation keyboard key = some g → g.forwarded = false) :
    Moves careful r (r.suppressHostAccelerator keyboard key) :=
  .ensure_update (fun g hg => .single (.suppress (h g hg))) fun _ _ => .single (.suppress rfl)

theorem moves_takeHostAcceleratorSuppression (careful : Prop)
    (h : ∀ g, r.generation keyboard key = some g → g.physicalState = .released) :
    Moves careful r (r.takeHostAcceleratorSuppression keyboard key).2 :=
  .trans (.update_move fun g hg => .unsuppress fun _ _ _ => h g hg) (moves_pruneKey ..)

/-- A suppression that a generation outlives may be forgotten once the press was peeked. -/
theorem moves_clearAcceleratorSuppressions
    (h : careful → ∀ key g, r.generation keyboard key = some g → g.losesSuppression = false) :
    Moves careful r (r.clearAcceleratorSuppressions keyboard) := by
  refine ⟨fun keyboard' key' g' hg' => ?_⟩
  obtain ⟨hafter, hreferenced⟩ := generation_of_pruneKeyboard hg'
  rw [generation_updateKeyboard] at hafter
  split_ifs at hafter with heq
  · subst heq
    obtain ⟨g, hg, rfl⟩ := Option.map_eq_some_iff.mp hafter
    refine ⟨g, .inl hg, .single (.unsuppress fun hcareful hsuppressed hpeek => ?_)⟩
    by_contra hstate
    have hloses := h hcareful key' g hg
    rw [KeyGeneration.losesSuppression, hreferenced rfl] at hloses
    simp [hsuppressed, hpeek, hstate] at hloses
  · exact ⟨g', .inl hafter, .refl⟩

theorem moves_noteAccelerator
    (h : careful → ∀ g, r.generation keyboard key = some g → g.Remembers) :
    Moves careful r (r.noteAccelerator keyboard key) :=
  .update_move fun g hg => .note fun hcareful => h hcareful g hg

/-! ## Decisions -/

theorem forwarded_eq_false {g : KeyGeneration} (h : r.forwarded keyboard key = false)
    (hg : r.generation keyboard key = some g) : g.forwarded = false := by
  simpa [forwarded, hg] using h

/-- The press of a key that the guest does not have may be suppressed. -/
theorem moves_physicalPress (careful : Prop) (r : KeyGenerationRegistry) (keyboard key : ℕ)
    (repeated hostAccelerator imeRepeatActive : Bool) :
    Moves careful r
      (r.physicalPress keyboard key repeated hostAccelerator imeRepeatActive).2 := by
  unfold physicalPress
  dsimp only
  generalize hsuppress : (r.guestOwner keyboard key == some .imeRecovery ||
    imeRepeatActive && !r.forwarded keyboard key) = suppressForIme
  generalize hr₁ : (if suppressForIme && (r.guestOwner keyboard key).isNone then
    (r.claimGuestOwner keyboard key .imeRecovery).2 else r) = r₁
  have hmoves : Moves careful r r₁ := by
    rw [← hr₁]
    split_ifs
    · exact moves_claimGuestOwner careful fun _ => rfl
    · exact .refl ..
  have hforwarded : r.forwarded keyboard key = false → ∀ g,
      r₁.generation keyboard key = some g → g.forwarded = false := by
    intro hforwarded g hg
    rw [← hr₁] at hg
    split_ifs at hg with hclaims
    · have hfree := Option.isNone_iff_eq_none.mp (Bool.and_eq_true_iff.mp hclaims).2
      have howner := owner_of_claimGuestOwner hfree hg
      simp [KeyGeneration.forwarded, howner]
    · exact forwarded_eq_false hforwarded hg
  split_ifs with hdropped hforwards
  · exact hmoves
  · exact hmoves.trans
      (moves_suppressHostAccelerator careful (hforwarded (by simpa using hforwards)))
  · exact hmoves
  · exact hmoves
  · exact hmoves
  · exact hmoves
  · refine hmoves.trans (moves_claimGuestOwner careful fun hsuppressed => ?_)
    simp [hsuppressed] at hdropped

/-- A release is decided once it was observed. -/
theorem moves_physicalRelease (careful : Prop)
    (h : ∀ g, r.generation keyboard key = some g → g.physicalState = .released) :
    Moves careful r (r.physicalRelease keyboard key).2 := by
  have htake := moves_takeHostAcceleratorSuppression careful h
  unfold physicalRelease
  dsimp only
  split_ifs
  all_goals first
    | exact htake
    | refine htake.trans (moves_takeGuestOwner careful fun g hg => ?_)
  all_goals
    have hg := generation_of_pruneKey hg
    rw [generation_update, if_pos ⟨rfl, rfl⟩] at hg
    obtain ⟨g₀, hg₀, rfl⟩ := Option.map_eq_some_iff.mp hg
    exact h g₀ hg₀

theorem moves_textInputPress (careful : Prop) (r : KeyGenerationRegistry)
    (keyboard key serial : ℕ) :
    Moves careful r (r.textInputPress keyboard key serial).2 := by
  unfold textInputPress
  dsimp only
  split_ifs with haccelerator
  · exact .refl ..
  all_goals
    refine moves_claimTextInputOwner careful serial ?_
    simp only [Bool.or_eq_true, not_or, Bool.not_eq_true] at haccelerator
    exact haccelerator.1.1

theorem moves_textInputRelease (careful : Prop) (r : KeyGenerationRegistry)
    (keyboard key serial : ℕ) :
    Moves careful r (r.textInputRelease keyboard key serial).2 := by
  have htake : Moves careful r (r.takePendingTextInputRelease keyboard key serial).2 :=
    .of_entries (entries_takeRetiredGuestRelease _)
  unfold textInputRelease
  dsimp only
  split_ifs
  all_goals first
    | exact htake
    | exact htake.trans (moves_completeGuestOwnerIf ..)

theorem moves_recoverIme (careful : Prop) (r : KeyGenerationRegistry) (keyboard key : ℕ) :
    Moves careful r (r.recoverIme keyboard key).2 := by
  unfold recoverIme
  split_ifs
  · exact .refl ..
  · exact moves_claimGuestOwner careful fun _ => rfl
  · exact .refl ..

/-- Every decision but one on a release, which needs the release to be observed. -/
theorem moves_transitionGuestKey (careful : Prop) (r : KeyGenerationRegistry)
    (keyboard key : ℕ) {event : GuestKeyEvent} (h : event ≠ .physicalRelease) :
    Moves careful r (r.transitionGuestKey keyboard key event).2 := by
  cases event with
  | physicalPress repeated hostAccelerator imeRepeatActive => exact moves_physicalPress ..
  | physicalRelease => exact absurd rfl h
  | textInputPress serial => exact moves_textInputPress ..
  | textInputRepeat => exact .refl ..
  | textInputRelease serial => exact moves_textInputRelease ..
  | recoverIme => exact moves_recoverIme ..

/-! ## Accelerators -/

theorem peek_update {f : KeyGeneration → KeyGeneration} (hf : ∀ g, (f g).peek = g.peek) :
    (r.update keyboard key f).peek keyboard key = r.peek keyboard key := by
  cases h : r.generation keyboard key <;> simp [peek, h, hf]

theorem peek_ensureGeneration :
    (r.ensureGeneration keyboard key).peek keyboard key = r.peek keyboard key := by
  unfold peek
  rcases r.generation_ensureGeneration keyboard key keyboard key with h | ⟨-, -, hnone, id, h⟩
  · rw [h]
  · rw [h, hnone]
    rfl

theorem peek_claimGuestOwner {owner : GuestKeyOwner} :
    (r.claimGuestOwner keyboard key owner).2.peek keyboard key = r.peek keyboard key := by
  unfold claimGuestOwner
  dsimp only
  split_ifs
  · exact peek_ensureGeneration
  · exact (peek_update (f := fun g => { g with guestOwner := some owner }) fun _ => rfl).trans
      peek_ensureGeneration

/-- A key of the guest is not peeked later without notice. -/
theorem remembers_of_forwarded {g : KeyGeneration} (hforwarded : g.forwarded = true)
    (hloses : g.losesAccelerator = false)
    (hpeek : ∀ press, g.peek = some press → press.eligible = false) : g.Remembers := by
  simp only [KeyGeneration.forwarded, Bool.or_eq_true, beq_iff_eq] at hforwarded
  rcases hforwarded with howner | howner
  · exact .inr (.inl howner)
  · cases hp : g.peek with
    | none =>
      refine .inl ?_
      simpa [KeyGeneration.losesAccelerator, howner, hp] using hloses
    | some press =>
      refine .inr (.inr ?_)
      simp [KeyGeneration.barred, hp, hpeek press hp]

theorem accelerator_of_forwarded {repeated imeRepeatActive : Bool}
    (h : r.forwarded keyboard key = true) :
    (r.physicalPress keyboard key repeated true imeRepeatActive).2 = r := by
  have howner : (r.guestOwner keyboard key == some .imeRecovery) = false := by
    obtain ⟨g, hg, hforwarded⟩ := (Option.any_eq_true ..).mp h
    simp only [KeyGeneration.forwarded, Bool.or_eq_true, beq_iff_eq] at hforwarded
    rcases hforwarded with h | h <;> simp [guestOwner, hg, h]
  simp [physicalPress, h, howner]

theorem accelerator_of_not_forwarded {repeated imeRepeatActive : Bool}
    (h : r.forwarded keyboard key = false) :
    ∃ r₁ : KeyGenerationRegistry, r₁.peek keyboard key = r.peek keyboard key ∧
      (r.physicalPress keyboard key repeated true imeRepeatActive).2 =
        r₁.suppressHostAccelerator keyboard key := by
  unfold physicalPress
  simp only [h, Bool.or_true, if_true, Bool.false_eq_true, if_false]
  refine ⟨_, ?_, rfl⟩
  split_ifs
  · exact peek_claimGuestOwner
  · rfl

/-- A suppressed key that was not peeked as eligible cannot be recovered. -/
theorem barred_of_suppressHostAccelerator
    (h : ∀ press, r.peek keyboard key = some press → press.eligible = false) {g : KeyGeneration}
    (hg : (r.suppressHostAccelerator keyboard key).generation keyboard key = some g) :
    g.barred = true := by
  have hpeek : (r.suppressHostAccelerator keyboard key).peek keyboard key = r.peek keyboard key :=
    (peek_update (f := fun g => { g with hostAcceleratorSuppressed := true }) fun _ => rfl).trans
      peek_ensureGeneration
  have hsuppressed : g.hostAcceleratorSuppressed = true := by
    rw [suppressHostAccelerator, generation_update, if_pos ⟨rfl, rfl⟩] at hg
    obtain ⟨g₀, -, rfl⟩ := Option.map_eq_some_iff.mp hg
    rfl
  cases hp : g.peek with
  | none => exact KeyGeneration.barred_of_suppressed hsuppressed hp
  | some press =>
    have hpress := h press (by rw [← hpeek, peek, hg]; exact hp)
    simp [KeyGeneration.barred, hp, hpress]

/-- A press that is found to be an accelerator is remembered, unless it leaves no trace. -/
theorem remembers_of_physicalPress {repeated imeRepeatActive : Bool}
    (h : ∀ g, r.generation keyboard key = some g → g.losesAccelerator = false)
    {g : KeyGeneration}
    (hg : ((r.invalidatePeek keyboard key).physicalPress keyboard key repeated true
      imeRepeatActive).2.generation keyboard key = some g) : g.Remembers := by
  have hinvalid : ∀ g, (r.invalidatePeek keyboard key).generation keyboard key = some g →
      g.losesAccelerator = false ∧ ∀ press, g.peek = some press → press.eligible = false := by
    intro g hg
    rw [invalidatePeek, generation_update, if_pos ⟨rfl, rfl⟩] at hg
    obtain ⟨g₀, hg₀, rfl⟩ := Option.map_eq_some_iff.mp hg
    refine ⟨by simpa [KeyGeneration.losesAccelerator] using h g₀ hg₀, fun press hpress => ?_⟩
    obtain ⟨press₀, -, rfl⟩ := Option.map_eq_some_iff.mp hpress
    rfl
  cases hforwarded : (r.invalidatePeek keyboard key).forwarded keyboard key with
  | true =>
    rw [accelerator_of_forwarded hforwarded] at hg
    obtain ⟨hloses, hpeek⟩ := hinvalid g hg
    exact remembers_of_forwarded (by simpa [forwarded, hg] using hforwarded) hloses hpeek
  | false =>
    obtain ⟨r₁, hpeek, heq⟩ := accelerator_of_not_forwarded hforwarded
    rw [heq] at hg
    refine .inr (.inr (barred_of_suppressHostAccelerator (fun press hpress => ?_) hg))
    obtain ⟨g₀, hg₀, hpress⟩ := Option.bind_eq_some_iff.mp (hpeek ▸ hpress)
    exact (hinvalid g₀ hg₀).2 press hpress

/-- A press peeked as an accelerator is not eligible. -/
theorem remembers_of_observePeekPress {serial time : ℕ} {g : KeyGeneration}
    (hg : (r.observePeekPress keyboard key serial time false).2.generation keyboard key = some g) :
    g.Remembers := by
  unfold observePeekPress at hg
  rw [generation_update, if_pos ⟨rfl, rfl⟩] at hg
  obtain ⟨g₀, -, rfl⟩ := Option.map_eq_some_iff.mp hg
  exact .inr (.inr rfl)

end KeyGenerationRegistry
end Sommelier
