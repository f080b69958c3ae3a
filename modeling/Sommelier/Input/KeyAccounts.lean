import Mathlib.Data.List.Count
import Sommelier.Input.KeyAcks

/-!
# What the guest is owed

A press the guest got is closed by one release. A press that is open is that of the current
generation of its key, which then has an owner, or of one that was replaced and whose release is
still to come.

## Main definitions

* `KeyGenerationRegistry.outstanding`: the releases the registry owes the guest for a key.
* `KeyGenerationRegistry.Keeps`, `KeyGenerationRegistry.Tells`: the operations that owe what they
  owed before, and those that tell the guest of a press or a release.

## Main results

* `tells_transitionGuestKey`: what a decision tells the guest is what it owes more or less.
-/
namespace Sommelier

/-! ## What is owed -/

/-- The generation knows the serials its release is found by, and a suppressed one has no press of
the guest. -/
structure KeyGeneration.Accountable (g : KeyGeneration) : Prop where
  keysym : g.guestOwner = some .textInputKeysym → g.guestPressSerial.isSome = true
  released : g.physicalState = .released → g.physicalReleaseSerial.isSome = true
  suppressed : g.hostAcceleratorSuppressed = true → g.forwarded = false

theorem KeyGeneration.accountable_new (id : ℕ) : (KeyGeneration.new id).Accountable where
  keysym := nofun
  released := nofun
  suppressed := nofun

namespace KeyGenerationRegistry
variable {r r' r'' : KeyGenerationRegistry} {keyboard key : ℕ} {g : KeyGeneration}

/-- The releases to come for replaced generations of a key. -/
def owed (r : KeyGenerationRegistry) (keyboard key : ℕ) : List RetiredGuestRelease :=
  (r.retiredGuestReleases.get (keyboard, key)).getD []

def outstanding (r : KeyGenerationRegistry) (keyboard key : ℕ) : ℕ :=
  (r.forwarded keyboard key).toNat + (r.owed keyboard key).length

def Accountable (r : KeyGenerationRegistry) : Prop :=
  ∀ keyboard key g, r.generation keyboard key = some g → g.Accountable

/-- The operation tells the guest nothing and owes it what it owed before. -/
structure Keeps (r r' : KeyGenerationRegistry) : Prop where
  accountable : r.Accountable → r'.Accountable
  outstanding : r.Accountable → ∀ keyboard key,
    r'.outstanding keyboard key = r.outstanding keyboard key

theorem Keeps.refl (r : KeyGenerationRegistry) : Keeps r r :=
  ⟨id, fun _ _ _ => rfl⟩

theorem Keeps.trans (h : Keeps r r') (h' : Keeps r' r'') : Keeps r r'' :=
  ⟨fun hr => h'.accountable (h.accountable hr), fun hr keyboard key =>
    (h'.outstanding (h.accountable hr) keyboard key).trans (h.outstanding hr keyboard key)⟩

/-- Nothing is owed for the generations that are dropped. -/
theorem Keeps.of_generations
    (hretired : r'.retiredGuestReleases = r.retiredGuestReleases)
    (h : ∀ keyboard key, r.Accountable →
      (∀ g, r'.generation keyboard key = some g → g.Accountable) ∧
        r'.forwarded keyboard key = r.forwarded keyboard key) : Keeps r r' := by
  refine ⟨fun hr keyboard key g hg => (h keyboard key hr).1 g hg, fun hr keyboard key => ?_⟩
  rw [KeyGenerationRegistry.outstanding, KeyGenerationRegistry.outstanding, owed, owed, hretired,
    (h keyboard key hr).2]

theorem Keeps.of_entries (hentries : r'.entries = r.entries)
    (hretired : r'.retiredGuestReleases = r.retiredGuestReleases) : Keeps r r' := by
  refine .of_generations hretired fun keyboard key hr => ?_
  have hgeneration : r'.generation keyboard key = r.generation keyboard key := by
    simp only [generation, hentries]
  rw [forwarded, forwarded, hgeneration]
  exact ⟨hr keyboard key, rfl⟩

/-- An update that changes no owner between forwarded and not. -/
theorem Keeps.update {f : KeyGeneration → KeyGeneration}
    (h : ∀ g, r.generation keyboard key = some g → g.Accountable →
      (f g).Accountable ∧ (f g).forwarded = g.forwarded) : Keeps r (r.update keyboard key f) := by
  refine .of_generations rfl fun keyboard' key' hr => ?_
  rw [forwarded, forwarded, generation_update]
  split_ifs with heq
  · obtain ⟨rfl, rfl⟩ := heq
    cases hg : r.generation keyboard' key' with
    | none => simp
    | some g =>
      obtain ⟨hf, hforwarded⟩ := h g hg (hr _ _ g hg)
      simpa [hforwarded] using hf
  · exact ⟨hr keyboard' key', rfl⟩

theorem Keeps.updateKeyboard {f : KeyGeneration → KeyGeneration}
    (h : ∀ g, g.Accountable → (f g).Accountable ∧ (f g).forwarded = g.forwarded) :
    Keeps r (r.updateKeyboard keyboard f) := by
  refine .of_generations rfl fun keyboard' key' hr => ?_
  rw [forwarded, forwarded, generation_updateKeyboard]
  split_ifs with heq
  · cases hg : r.generation keyboard' key' with
    | none => simp
    | some g =>
      obtain ⟨hf, hforwarded⟩ := h g (hr _ _ g hg)
      simpa [hforwarded] using hf
  · exact ⟨hr keyboard' key', rfl⟩

theorem forwarded_of_isUnreferenced (h : g.isUnreferenced = true) : g.forwarded = false := by
  simp only [KeyGeneration.isUnreferenced, Bool.and_eq_true, Option.isNone_iff_eq_none] at h
  simp [KeyGeneration.forwarded, h]

theorem keeps_remove (h : r.forwarded keyboard key = false) :
    Keeps r (r.remove keyboard key) := by
  refine .of_generations rfl fun keyboard' key' hr => ?_
  rw [forwarded, generation_remove]
  split_ifs with heq
  · obtain ⟨rfl, rfl⟩ := heq
    exact ⟨by simp, h.symm⟩
  · exact ⟨hr keyboard' key', rfl⟩

theorem keeps_pruneKey (r : KeyGenerationRegistry) (keyboard key : ℕ) :
    Keeps r (r.pruneKey keyboard key) := by
  unfold pruneKey
  split_ifs with hprune
  · obtain ⟨g, hg, hunreferenced⟩ := (Option.any_eq_true ..).mp hprune
    exact keeps_remove (by simp [forwarded, hg, forwarded_of_isUnreferenced hunreferenced])
  · exact .refl r

theorem keeps_pruneKeyboard (r : KeyGenerationRegistry) (keyboard : ℕ) :
    Keeps r (r.pruneKeyboard keyboard) := by
  refine .of_generations rfl fun keyboard' key' hr => ?_
  have hgeneration : (r.pruneKeyboard keyboard).generation keyboard' key' =
      (r.generation keyboard' key').filter fun g =>
        !(keyboard' == keyboard && g.isUnreferenced) := by
    simp [generation, pruneKeyboard]
  rw [forwarded, forwarded, hgeneration]
  cases hg : r.generation keyboard' key' with
  | none => simp
  | some g =>
    rw [Option.filter_some]
    split_ifs with hkept
    · exact ⟨hr keyboard' key' |> fun h g' hg' => h g' (hg.trans hg'), rfl⟩
    · have hunreferenced : g.isUnreferenced = true := by
        simp only [Bool.not_eq_true', Bool.not_eq_false, Bool.and_eq_true] at hkept
        exact hkept.2
      simp [forwarded_of_isUnreferenced hunreferenced]

theorem keeps_ensureGeneration (r : KeyGenerationRegistry) (keyboard key : ℕ) :
    Keeps r (r.ensureGeneration keyboard key) := by
  refine .of_generations ?_ fun keyboard' key' hr => ?_
  · unfold ensureGeneration
    split <;> rfl
  · rw [forwarded, forwarded]
    rcases r.generation_ensureGeneration keyboard key keyboard' key' with
      heq | ⟨rfl, rfl, hnone, id, hnew⟩
    · rw [heq]
      exact ⟨hr keyboard' key', rfl⟩
    · rw [hnew, hnone]
      refine ⟨fun g hg => ?_, rfl⟩
      exact Option.some.inj hg ▸ KeyGeneration.accountable_new id

/-! ## Physical events -/

/-- A generation that is over is forwarded exactly if a release is still to come for it. -/
theorem isSome_retiredRelease (hg : g.Accountable) (hreleased : g.physicalState = .released)
    (nextPressSerial : Option ℕ) :
    (g.retiredRelease nextPressSerial).isSome = g.forwarded := by
  have hserial := hg.released hreleased
  unfold KeyGeneration.retiredRelease KeyGeneration.forwarded
  cases howner : g.guestOwner with
  | none => rfl
  | some owner =>
    cases owner with
    | physical => simpa using hserial
    | textInputKeysym => simpa using hg.keysym howner
    | imeRecovery => rfl

theorem keeps_retireReleasedGeneration (r : KeyGenerationRegistry) (keyboard key : ℕ)
    (nextPressSerial : Option ℕ) :
    Keeps r (r.retireReleasedGeneration keyboard key nextPressSerial) := by
  refine ⟨fun hr keyboard' key' g hg =>
    hr keyboard' key' g (generation_of_retireReleasedGeneration hg).1, fun hr keyboard' key' => ?_⟩
  unfold retireReleasedGeneration
  cases hg : r.generation keyboard key with
  | none => rfl
  | some g =>
    dsimp only
    split_ifs with hreleased
    · have hsome := isSome_retiredRelease (hr keyboard key g hg) hreleased nextPressSerial
      by_cases heq : keyboard' = keyboard ∧ key' = key
      · obtain ⟨rfl, rfl⟩ := heq
        have hremoved : (r.remove keyboard' key').forwarded keyboard' key' = false := by
          simp [forwarded]
        have hforwarded : r.forwarded keyboard' key' = g.forwarded := by simp [forwarded, hg]
        cases hretired : g.retiredRelease nextPressSerial with
        | none =>
          rw [hretired] at hsome
          change ((r.remove keyboard' key').forwarded keyboard' key').toNat + _ = _
          rw [outstanding, hremoved, hforwarded, ← hsome]
          rfl
        | some release =>
          rw [hretired] at hsome
          change ((r.remove keyboard' key').forwarded keyboard' key').toNat + _ = _
          rw [outstanding, hremoved, hforwarded, ← hsome]
          simp [owed, Nat.add_comm]
      · have hforwarded : (r.remove keyboard key).forwarded keyboard' key' =
            r.forwarded keyboard' key' := by simp [forwarded, heq]
        change ((r.remove keyboard key).forwarded keyboard' key').toNat + _ = _
        rw [outstanding, hforwarded]
        cases g.retiredRelease nextPressSerial with
        | none => rfl
        | some release => simp [owed, heq]
    · rfl

theorem keeps_observePhysicalPress (r : KeyGenerationRegistry) (keyboard key : ℕ)
    (nextPressSerial : Option ℕ) :
    Keeps r (r.observePhysicalPress keyboard key nextPressSerial) :=
  ((keeps_retireReleasedGeneration ..).trans (keeps_ensureGeneration ..)).trans <|
    .update fun _ _ hg => ⟨⟨hg.keysym, nofun, hg.suppressed⟩, rfl⟩

theorem keeps_observePhysicalRelease (r : KeyGenerationRegistry) (keyboard key serial : ℕ) :
    Keeps r (r.observePhysicalRelease keyboard key (some serial)) := by
  have hrelease : Keeps r (r.update keyboard key (KeyGeneration.observeRelease (some serial))) :=
    .update fun _ _ hg => ⟨⟨hg.keysym, fun _ => rfl, hg.suppressed⟩, rfl⟩
  have hforget : ∀ r : KeyGenerationRegistry, Keeps r
      ((r.updateKeyboard keyboard fun g => { g with peek := none }).pruneKeyboard keyboard) :=
    fun r => by
      refine Keeps.trans (.updateKeyboard fun g hg => ?_) (keeps_pruneKeyboard ..)
      exact ⟨⟨hg.keysym, hg.released, hg.suppressed⟩, rfl⟩
  unfold observePhysicalRelease
  dsimp only
  refine Keeps.trans ?_ (keeps_pruneKey ..)
  split_ifs
  · exact hrelease
  · exact hrelease.trans (hforget _)

theorem keeps_observePhysicalEvent (r : KeyGenerationRegistry) (keyboard key state serial : ℕ) :
    Keeps r (r.observePhysicalEvent keyboard key state (some serial)) := by
  unfold observePhysicalEvent
  split
  · exact keeps_observePhysicalPress ..
  · exact keeps_observePhysicalRelease ..
  · exact .refl r

/-! ## Peeked events and repeats -/

theorem keeps_observePeekPress (r : KeyGenerationRegistry) (keyboard key serial time : ℕ)
    (eligible : Bool) : Keeps r (r.observePeekPress keyboard key serial time eligible).2 := by
  unfold observePeekPress
  refine Keeps.trans ?_ (.update fun _ _ hg => ⟨⟨hg.keysym, hg.released, hg.suppressed⟩, rfl⟩)
  refine Keeps.trans ?_ (keeps_ensureGeneration ..)
  split_ifs
  · exact .refl r
  · exact keeps_observePhysicalPress ..

theorem keeps_refreshPeek (r : KeyGenerationRegistry) (keyboard key serial time : ℕ) :
    Keeps r (r.refreshPeek keyboard key serial time) :=
  .update fun _ _ hg => ⟨⟨hg.keysym, hg.released, hg.suppressed⟩, rfl⟩

theorem keeps_invalidatePeek (r : KeyGenerationRegistry) (keyboard key : ℕ) :
    Keeps r (r.invalidatePeek keyboard key) :=
  .update fun _ _ hg => ⟨⟨hg.keysym, hg.released, hg.suppressed⟩, rfl⟩

theorem keeps_cancelBackspaceRepeat (r : KeyGenerationRegistry) (keyboard backspace : ℕ) :
    Keeps r (r.cancelBackspaceRepeat keyboard backspace) := by
  unfold cancelBackspaceRepeat
  split_ifs
  · exact .update fun _ _ hg => ⟨⟨hg.keysym, hg.released, hg.suppressed⟩, rfl⟩
  · exact .refl r

theorem keeps_cancelBackspaceRepeatForOwner (r : KeyGenerationRegistry)
    (keyboard backspace guestTextInput : ℕ) :
    Keeps r (r.cancelBackspaceRepeatForOwner keyboard backspace guestTextInput) := by
  unfold cancelBackspaceRepeatForOwner
  split_ifs
  · exact keeps_cancelBackspaceRepeat ..
  · exact .refl r

theorem keeps_armImeRepeat (r : KeyGenerationRegistry) (keyboard key guestTextInput : ℕ) :
    Keeps r (r.armImeRepeat keyboard key guestTextInput) := by
  refine .update fun g _ hg => ?_
  split_ifs
  · exact ⟨⟨hg.keysym, hg.released, hg.suppressed⟩, rfl⟩
  · exact ⟨hg, rfl⟩

theorem keeps_clearAcceleratorSuppressions (r : KeyGenerationRegistry) (keyboard : ℕ) :
    Keeps r (r.clearAcceleratorSuppressions keyboard) := by
  refine Keeps.trans (.updateKeyboard fun g hg => ?_) (keeps_pruneKeyboard ..)
  exact ⟨⟨hg.keysym, hg.released, nofun⟩, rfl⟩

theorem keeps_noteAccelerator (r : KeyGenerationRegistry) (keyboard key : ℕ) :
    Keeps r (r.noteAccelerator keyboard key) :=
  .update fun _ _ hg => ⟨⟨hg.keysym, hg.released, hg.suppressed⟩, rfl⟩

/-! ## What the guest is told -/

/-- The guest is told of presses (`true`) and releases of a key, and owed the difference. -/
structure Tells (told : List Bool) (keyboard key : ℕ) (r r' : KeyGenerationRegistry) : Prop where
  accountable : r.Accountable → r'.Accountable
  outstanding : r.Accountable → r'.outstanding keyboard key + told.count false =
    r.outstanding keyboard key + told.count true
  others : r.Accountable → ∀ keyboard' key', ¬(keyboard' = keyboard ∧ key' = key) →
    r'.outstanding keyboard' key' = r.outstanding keyboard' key'

variable {told : List Bool}

theorem Keeps.tells (h : Keeps r r') (htold : told.count false = told.count true) :
    Tells told keyboard key r r' where
  accountable := h.accountable
  outstanding hr := by rw [h.outstanding hr, htold]
  others hr keyboard' key' _ := h.outstanding hr keyboard' key'

theorem Keeps.tells_nil (h : Keeps r r') : Tells [] keyboard key r r' := h.tells rfl

theorem Keeps.trans_tells (h : Keeps r r') (h' : Tells told keyboard key r' r'') :
    Tells told keyboard key r r'' where
  accountable hr := h'.accountable (h.accountable hr)
  outstanding hr := by rw [h'.outstanding (h.accountable hr), h.outstanding hr]
  others hr keyboard' key' hne := by
    rw [h'.others (h.accountable hr) keyboard' key' hne, h.outstanding hr]

theorem Tells.trans_keeps (h : Tells told keyboard key r r') (h' : Keeps r' r'') :
    Tells told keyboard key r r'' where
  accountable hr := h'.accountable (h.accountable hr)
  outstanding hr := by rw [h'.outstanding (h.accountable hr), h.outstanding hr]
  others hr keyboard' key' hne := by
    rw [h'.outstanding (h.accountable hr), h.others hr keyboard' key' hne]

/-- A change of the generation of one key, which opens or closes a press. -/
theorem Tells.of_map {f : KeyGeneration → KeyGeneration}
    (hretired : r'.retiredGuestReleases = r.retiredGuestReleases)
    (hmap : ∀ keyboard' key', r'.generation keyboard' key' =
      if keyboard' = keyboard ∧ key' = key then (r.generation keyboard' key').map f
      else r.generation keyboard' key')
    (hgeneration : r.generation keyboard key ≠ none)
    (h : ∀ g, r.generation keyboard key = some g → g.Accountable → (f g).Accountable ∧
      (f g).forwarded.toNat + told.count false = g.forwarded.toNat + told.count true) :
    Tells told keyboard key r r' := by
  obtain ⟨g, hg⟩ := Option.ne_none_iff_exists'.mp hgeneration
  have howed : ∀ keyboard' key', r'.owed keyboard' key' = r.owed keyboard' key' := by
    intro keyboard' key'
    rw [owed, owed, hretired]
  refine ⟨fun hr keyboard' key' g' hg' => ?_, fun hr => ?_, fun hr keyboard' key' hne => ?_⟩
  · rw [hmap] at hg'
    split_ifs at hg' with heq
    · obtain ⟨rfl, rfl⟩ := heq
      obtain ⟨g₀, hg₀, rfl⟩ := Option.map_eq_some_iff.mp hg'
      exact (h g₀ hg₀ (hr _ _ g₀ hg₀)).1
    · exact hr keyboard' key' g' hg'
  · have hf := (h g hg (hr keyboard key g hg)).2
    have hbefore : r.forwarded keyboard key = g.forwarded := by simp [forwarded, hg]
    have hafter : r'.forwarded keyboard key = (f g).forwarded := by simp [forwarded, hmap, hg]
    rw [KeyGenerationRegistry.outstanding, KeyGenerationRegistry.outstanding, howed, hbefore,
      hafter]
    omega
  · rw [KeyGenerationRegistry.outstanding, KeyGenerationRegistry.outstanding, howed, forwarded,
      forwarded, hmap, if_neg hne]

theorem Tells.update {f : KeyGeneration → KeyGeneration}
    (hgeneration : r.generation keyboard key ≠ none)
    (h : ∀ g, r.generation keyboard key = some g → g.Accountable → (f g).Accountable ∧
      (f g).forwarded.toNat + told.count false = g.forwarded.toNat + told.count true) :
    Tells told keyboard key r (r.update keyboard key f) :=
  .of_map rfl (fun _ _ => generation_update ..) hgeneration h

theorem any_of_takeRetiredGuestRelease {predicate : RetiredGuestRelease → Bool}
    (h : (r.takeRetiredGuestRelease keyboard key predicate).1 = true) :
    (r.owed keyboard key).any predicate = true := by
  unfold takeRetiredGuestRelease at h
  cases hreleases : r.retiredGuestReleases.get (keyboard, key) with
  | none => simp [hreleases] at h
  | some releases =>
    by_cases hany : releases.any predicate = true
    · rw [owed, hreleases, Option.getD_some, hany]
    · simp [hreleases, hany] at h

theorem owed_takeRetiredGuestRelease {predicate : RetiredGuestRelease → Bool}
    (h : (r.takeRetiredGuestRelease keyboard key predicate).1 = true) (keyboard' key' : ℕ) :
    (r.takeRetiredGuestRelease keyboard key predicate).2.owed keyboard' key' =
      if keyboard' = keyboard ∧ key' = key then (r.owed keyboard key).eraseP predicate
      else r.owed keyboard' key' := by
  have hany := any_of_takeRetiredGuestRelease h
  unfold takeRetiredGuestRelease
  cases hreleases : r.retiredGuestReleases.get (keyboard, key) with
  | none => simp [owed, hreleases] at hany
  | some releases =>
    rw [owed, hreleases, Option.getD_some] at hany
    simp only [hany, if_true, owed, hreleases, Option.getD_some]
    cases hempty : (releases.eraseP predicate).isEmpty with
    | true =>
      rw [List.isEmpty_iff] at hempty
      rw [hempty]
      simp only [if_true, Table.get_erase, Prod.mk.injEq]
      split_ifs <;> rfl
    | false =>
      simp only [Bool.false_eq_true, if_false, Table.get_set, Prod.mk.injEq]
      split_ifs <;> rfl

/-- Taking a release that was to come closes a press. -/
theorem tells_takeRetiredGuestRelease {predicate : RetiredGuestRelease → Bool}
    (h : (r.takeRetiredGuestRelease keyboard key predicate).1 = true) :
    Tells [false] keyboard key r (r.takeRetiredGuestRelease keyboard key predicate).2 := by
  have hentries : (r.takeRetiredGuestRelease keyboard key predicate).2.entries = r.entries :=
    entries_takeRetiredGuestRelease predicate
  have howed := owed_takeRetiredGuestRelease h
  generalize (r.takeRetiredGuestRelease keyboard key predicate).2 = r' at hentries howed
  have hforwarded : ∀ keyboard' key', r'.forwarded keyboard' key' =
      r.forwarded keyboard' key' := by
    intro keyboard' key'
    simp only [forwarded, generation, hentries]
  refine ⟨fun hr keyboard' key' g hg => ?_, fun hr => ?_, fun hr keyboard' key' hne => ?_⟩
  · simp only [generation, hentries] at hg
    exact hr keyboard' key' g hg
  · obtain ⟨release, hmem, hrelease⟩ := List.any_eq_true.mp (any_of_takeRetiredGuestRelease h)
    have hlength := List.length_eraseP_of_mem hmem hrelease
    have hpos := List.length_pos_of_mem hmem
    rw [outstanding, outstanding, hforwarded, howed, if_pos ⟨rfl, rfl⟩, hlength]
    simp
    omega
  · rw [outstanding, outstanding, hforwarded, howed, if_neg hne]

/-! ## Owners -/

theorem forwarded_ensureGeneration (keyboard' key' : ℕ) :
    (r.ensureGeneration keyboard key).forwarded keyboard' key' = r.forwarded keyboard' key' := by
  rw [forwarded, forwarded]
  rcases r.generation_ensureGeneration keyboard key keyboard' key' with
    heq | ⟨rfl, rfl, hnone, id, hnew⟩
  · rw [heq]
  · rw [hnew, hnone]
    rfl

/-- The owner of what nobody delivered yet. -/
theorem claimGuestOwner_eq (r : KeyGenerationRegistry) (keyboard key : ℕ)
    (owner : GuestKeyOwner) :
    r.claimGuestOwner keyboard key owner =
      if r.guestOwner keyboard key = none then
        (true, (r.ensureGeneration keyboard key).update keyboard key fun g =>
          { g with guestOwner := some owner })
      else (false, r.ensureGeneration keyboard key) := by
  unfold claimGuestOwner
  simp only [guestOwner_ensureGeneration]
  cases r.guestOwner keyboard key <;> simp

theorem keeps_claimImeRecovery (r : KeyGenerationRegistry) (keyboard key : ℕ) :
    Keeps r (r.claimGuestOwner keyboard key .imeRecovery).2 := by
  rw [claimGuestOwner_eq]
  split_ifs with howner
  · refine (keeps_ensureGeneration ..).trans (.update fun g hg hacc => ?_)
    have hnone : g.guestOwner = none := by
      rw [← guestOwner_ensureGeneration] at howner
      simpa [guestOwner, hg] using howner
    refine ⟨⟨by simp, hacc.released, fun _ => rfl⟩, ?_⟩
    simp [KeyGeneration.forwarded, hnone]
  · exact keeps_ensureGeneration ..

/-! ## Decisions -/

/-- What the guest is told of a key when an event is decided: presses (`true`) and releases. The
repeats of a key that is down are not counted. -/
def toldOf : GuestKeyEvent → GuestKeyDelivery → List Bool
  | .physicalPress false _ _, .forward => [true]
  | .textInputPress _, .forward => [true]
  | .physicalRelease, .forward => [false]
  | .textInputRelease _, .forward => [false]
  | .recoverIme, .emitBalancedPair => [true, false]
  | _, _ => []

theorem Keeps.tells_drop (h : Keeps r r') (event : GuestKeyEvent) :
    Tells (toldOf event .drop) keyboard key r r' := by
  have hdrop : toldOf event .drop = [] := by
    unfold toldOf
    split <;> simp_all
  rw [hdrop]
  exact h.tells_nil

theorem hostAcceleratorSuppressed_of_generation
    (h : r.hostAcceleratorSuppressed keyboard key = false)
    (hg : (r.ensureGeneration keyboard key).generation keyboard key = some g) :
    g.hostAcceleratorSuppressed = false := by
  rw [← hostAcceleratorSuppressed_ensureGeneration] at h
  exact hostAcceleratorSuppressed_eq_false h hg

theorem guestOwner_of_generation (h : r.guestOwner keyboard key = none)
    (hg : (r.ensureGeneration keyboard key).generation keyboard key = some g) :
    g.guestOwner = none := by
  rw [← guestOwner_ensureGeneration] at h
  simpa [guestOwner, hg] using h

/-- Who neither has the press nor recovered the key does not own it. -/
theorem guestOwner_eq_none (hrecovered : r.guestOwner keyboard key ≠ some .imeRecovery)
    (hforwarded : r.forwarded keyboard key = false) : r.guestOwner keyboard key = none := by
  cases hg : r.generation keyboard key with
  | none => simp [guestOwner, hg]
  | some g =>
    have hfalse := forwarded_eq_false hforwarded hg
    simp only [guestOwner, hg, Option.bind_some] at hrecovered ⊢
    cases howner : g.guestOwner with
    | none => rfl
    | some owner =>
      cases owner with
      | physical => simp [KeyGeneration.forwarded, howner] at hfalse
      | textInputKeysym => simp [KeyGeneration.forwarded, howner] at hfalse
      | imeRecovery => exact absurd howner hrecovered

theorem forwarded_claimImeRecovery (howner : r.guestOwner keyboard key = none) :
    (r.claimGuestOwner keyboard key .imeRecovery).2.forwarded keyboard key = false := by
  rw [forwarded, Option.any_eq_false]
  intro g hg
  have howner := owner_of_claimGuestOwner howner hg
  simp [KeyGeneration.forwarded, howner]

theorem keeps_suppressHostAccelerator (h : r.forwarded keyboard key = false) :
    Keeps r (r.suppressHostAccelerator keyboard key) := by
  refine (keeps_ensureGeneration ..).trans (.update fun g hg hacc => ?_)
  have hsame : (r.ensureGeneration keyboard key).forwarded keyboard key =
      r.forwarded keyboard key := forwarded_ensureGeneration keyboard key
  have hforwarded : g.forwarded = false := forwarded_eq_false (hsame.trans h) hg
  exact ⟨⟨hacc.keysym, hacc.released, fun _ => hforwarded⟩, rfl⟩

/-- Claiming a key that nobody has for the physical channel opens a press. -/
theorem tells_claimPhysical (howner : r.guestOwner keyboard key = none)
    (hsuppressed : r.hostAcceleratorSuppressed keyboard key = false) :
    Tells [true] keyboard key r (r.claimGuestOwner keyboard key .physical).2 := by
  rw [claimGuestOwner_eq, if_pos howner]
  refine (keeps_ensureGeneration ..).trans_tells (.update ensureGeneration_ne_none
    fun g hg hacc => ⟨⟨nofun, hacc.released, fun h => ?_⟩, ?_⟩)
  · have hfalse := hostAcceleratorSuppressed_of_generation hsuppressed hg
    change g.hostAcceleratorSuppressed = true at h
    rw [hfalse] at h
    cases h
  · simp [KeyGeneration.forwarded, guestOwner_of_generation howner hg]

theorem tells_physicalPress (r : KeyGenerationRegistry) (keyboard key : ℕ)
    (repeated hostAccelerator imeRepeatActive : Bool) :
    Tells (toldOf (.physicalPress repeated hostAccelerator imeRepeatActive)
      (r.physicalPress keyboard key repeated hostAccelerator imeRepeatActive).1.delivery)
      keyboard key r
      (r.physicalPress keyboard key repeated hostAccelerator imeRepeatActive).2 := by
  unfold physicalPress
  dsimp only
  generalize hsuppress : (r.guestOwner keyboard key == some .imeRecovery ||
    imeRepeatActive && !r.forwarded keyboard key) = suppressForIme
  generalize hr₁ : (if suppressForIme && (r.guestOwner keyboard key).isNone then
    (r.claimGuestOwner keyboard key .imeRecovery).2 else r) = r₁
  have hkeeps : Keeps r r₁ := by
    rw [← hr₁]
    split_ifs
    · exact keeps_claimImeRecovery ..
    · exact .refl r
  split_ifs with hdropped hforwards hime hknown hrepeated hforwards
  · exact hkeeps.tells_drop _
  · have hforwarded : r₁.forwarded keyboard key = false := by
      rw [← hr₁]
      split_ifs with hclaims
      · simp only [Bool.and_eq_true, Option.isNone_iff_eq_none] at hclaims
        exact forwarded_claimImeRecovery hclaims.2
      · simpa using hforwards
    exact (hkeeps.trans (keeps_suppressHostAccelerator hforwarded)).tells_drop _
  · exact hkeeps.tells_drop _
  · exact hkeeps.tells_drop _
  · subst hrepeated
    exact hkeeps.tells_nil
  · exact hkeeps.tells_drop _
  · -- The guest has no press of the key, so the new one opens an account.
    have hfree : r₁ = r := by simp [← hr₁, hime]
    rw [hfree] at hdropped ⊢
    simp only [Bool.not_eq_true] at hrepeated hime
    rw [hime] at hsuppress
    rw [Bool.or_eq_false_iff, beq_eq_false_iff_ne] at hsuppress
    have howner : r.guestOwner keyboard key = none :=
      guestOwner_eq_none hsuppress.1 (by simpa [hrepeated] using hknown)
    rw [hrepeated]
    simp only [Bool.or_eq_true, not_or, Bool.not_eq_true] at hdropped
    exact tells_claimPhysical howner hdropped.1

theorem keeps_takeHostAcceleratorSuppression (r : KeyGenerationRegistry) (keyboard key : ℕ) :
    Keeps r (r.takeHostAcceleratorSuppression keyboard key).2 := by
  refine Keeps.trans (.update fun g _ hacc => ?_) (keeps_pruneKey ..)
  exact ⟨⟨hacc.keysym, hacc.released, nofun⟩, rfl⟩

/-- Taking the owner closes the press it had. -/
theorem tells_takeGuestOwner (r : KeyGenerationRegistry) (keyboard key : ℕ) :
    Tells (if r.forwarded keyboard key then [false] else []) keyboard key r
      (r.takeGuestOwner keyboard key) := by
  have htaken : ∀ g : KeyGeneration, g.Accountable →
      (if g.guestOwner.isSome then { g with guestOwner := none, guestPressSerial := none }
        else g).Accountable ∧
      (if g.guestOwner.isSome then { g with guestOwner := none, guestPressSerial := none }
        else g).forwarded = false := by
    intro g hacc
    split_ifs with howner
    · exact ⟨⟨nofun, hacc.released, fun _ => rfl⟩, rfl⟩
    · rw [Bool.not_eq_true, Option.isSome_eq_false_iff, Option.isNone_iff_eq_none] at howner
      exact ⟨hacc, by simp [KeyGeneration.forwarded, howner]⟩
  refine Tells.trans_keeps ?_ (keeps_pruneKey ..)
  split_ifs with hforwarded
  · obtain ⟨g₀, hg₀, hg₀forwarded⟩ := (Option.any_eq_true ..).mp hforwarded
    refine .update (by simp [hg₀]) fun g hg hacc => ⟨(htaken g hacc).1, ?_⟩
    obtain rfl : g₀ = g := Option.some.inj (hg₀.symm.trans hg)
    simp [(htaken g₀ hacc).2, hg₀forwarded]
  · refine (Keeps.update fun g hg hacc => ⟨(htaken g hacc).1, ?_⟩).tells_nil
    rw [(htaken g hacc).2, forwarded_eq_false (by simpa using hforwarded) hg]

theorem guestOwner_ne_imeRecovery (h : r.forwarded keyboard key = true) :
    (r.guestOwner keyboard key == some .imeRecovery) = false := by
  obtain ⟨g, hg, hforwarded⟩ := (Option.any_eq_true ..).mp h
  cases howner : g.guestOwner with
  | none => simp [guestOwner, hg, howner]
  | some owner => cases owner <;> simp_all [guestOwner, KeyGeneration.forwarded]

/-- The guest is told of the release of a key exactly if it has a press of it. -/
theorem tells_physicalRelease (hr : r.Accountable) :
    Tells (toldOf .physicalRelease (r.physicalRelease keyboard key).1.delivery) keyboard key r
      (r.physicalRelease keyboard key).2 := by
  have hkeeps := keeps_takeHostAcceleratorSuppression r keyboard key
  have hbefore : (r.takeHostAcceleratorSuppression keyboard key).2.forwarded keyboard key = true →
      r.forwarded keyboard key = true := forwarded_takeHostAcceleratorSuppression
  have hsuppressed : r.forwarded keyboard key = true →
      (r.takeHostAcceleratorSuppression keyboard key).1 = false := by
    intro hforwarded
    obtain ⟨g, hg, hforwarded⟩ := (Option.any_eq_true ..).mp hforwarded
    change r.hostAcceleratorSuppressed keyboard key = false
    by_contra hne
    have hnot := (hr keyboard key g hg).suppressed
      (by simpa [hostAcceleratorSuppressed, hg] using hne)
    rw [hforwarded] at hnot
    cases hnot
  unfold physicalRelease
  dsimp only
  generalize (r.takeHostAcceleratorSuppression keyboard key).1 = suppressed at hsuppressed ⊢
  generalize (r.takeHostAcceleratorSuppression keyboard key).2 = r₁ at hkeeps hbefore ⊢
  cases hforwarded : r₁.forwarded keyboard key with
  | false =>
    simp only [Bool.false_and, Bool.false_eq_true, if_false]
    split_ifs
    · exact hkeeps.tells_drop _
    · have htells := tells_takeGuestOwner r₁ keyboard key
      simp only [hforwarded, Bool.false_eq_true, if_false] at htells
      exact hkeeps.trans_tells htells
  | true =>
    have htells := tells_takeGuestOwner r₁ keyboard key
    simp only [hforwarded, if_true] at htells
    simp only [guestOwner_ne_imeRecovery hforwarded, hsuppressed (hbefore hforwarded),
      Bool.not_false, Bool.and_self, if_true, Bool.false_eq_true, if_false]
    exact hkeeps.trans_tells htells

/-! ## Keysyms -/

/-- A generation that a keysym press replaces before its release is known owes none. -/
theorem forwarded_of_endsBefore {serial : ℕ} (h : g.endsBefore serial = true)
    (hreleased : g.physicalState ≠ .released) : g.forwarded = false := by
  unfold KeyGeneration.endsBefore at h
  cases howner : g.guestOwner with
  | none => simp [KeyGeneration.forwarded, howner]
  | some owner => cases owner <;> simp_all [KeyGeneration.forwarded]

/-- A keysym press makes place for its generation. -/
theorem keeps_endGeneration (r : KeyGenerationRegistry) (keyboard key serial : ℕ) :
    Keeps r (if (r.generation keyboard key).any fun g => g.endsBefore serial then
      if r.physicalReleased keyboard key then
        r.retireReleasedGeneration keyboard key (some serial)
      else r.remove keyboard key
    else r) := by
  split_ifs with hends hreleased
  · exact keeps_retireReleasedGeneration ..
  · obtain ⟨g, hg, hends⟩ := (Option.any_eq_true ..).mp hends
    refine keeps_remove ?_
    have hstate : g.physicalState ≠ .released := by simpa [physicalReleased, hg] using hreleased
    simp [forwarded, hg, forwarded_of_endsBefore hends hstate]
  · exact .refl r

/-- Claiming a key that nobody has for a keysym opens a press, whose serial is known. -/
theorem tells_claimTextInput {serial : ℕ} (howner : r.guestOwner keyboard key = none)
    (hsuppressed : r.hostAcceleratorSuppressed keyboard key = false) :
    Tells [true] keyboard key r
      ((r.claimGuestOwner keyboard key .textInputKeysym).2.update keyboard key fun g =>
        { g with guestPressSerial := some serial }) := by
  rw [claimGuestOwner_eq, if_pos howner]
  refine (keeps_ensureGeneration ..).trans_tells (.of_map (f := fun g =>
    { g with guestOwner := some .textInputKeysym, guestPressSerial := some serial }) rfl
    (fun keyboard' key' => ?_) ensureGeneration_ne_none
    fun g hg hacc => ⟨⟨fun _ => rfl, hacc.released, fun h => ?_⟩, ?_⟩)
  · simp only [generation_update]
    split_ifs
    · rw [Option.map_map]
      rfl
    · rfl
  · have hfalse := hostAcceleratorSuppressed_of_generation hsuppressed hg
    change g.hostAcceleratorSuppressed = true at h
    rw [hfalse] at h
    cases h
  · simp [KeyGeneration.forwarded, guestOwner_of_generation howner hg]

theorem tells_claimTextInputOwner (serial : ℕ)
    (h : r.hostAcceleratorSuppressed keyboard key = false) :
    Tells (if (r.claimTextInputOwner keyboard key serial).1 then [true] else []) keyboard key r
      (r.claimTextInputOwner keyboard key serial).2 := by
  have hkeeps := keeps_endGeneration r keyboard key serial
  have hsuppressed : (if (r.generation keyboard key).any fun g => g.endsBefore serial then
      if r.physicalReleased keyboard key then
        r.retireReleasedGeneration keyboard key (some serial)
      else r.remove keyboard key
    else r).hostAcceleratorSuppressed keyboard key = false := by
    rw [hostAcceleratorSuppressed, Option.any_eq_false]
    intro g hg
    refine Bool.not_eq_true _ ▸ hostAcceleratorSuppressed_eq_false h ?_
    split_ifs at hg
    · exact (generation_of_retireReleasedGeneration hg).1
    · rw [generation_remove] at hg
      split_ifs at hg
      exact hg
    · exact hg
  unfold claimTextInputOwner
  dsimp only
  generalize (if (r.generation keyboard key).any fun g => g.endsBefore serial then
      if r.physicalReleased keyboard key then
        r.retireReleasedGeneration keyboard key (some serial)
      else r.remove keyboard key
    else r) = r₁ at hkeeps hsuppressed ⊢
  by_cases howner : r₁.guestOwner keyboard key = none
  · have hclaimed : (r₁.claimGuestOwner keyboard key .textInputKeysym).1 = true := by
      rw [claimGuestOwner_eq, if_pos howner]
    rw [hclaimed]
    exact hkeeps.trans_tells (tells_claimTextInput howner hsuppressed)
  · have hclaim : r₁.claimGuestOwner keyboard key .textInputKeysym =
        (false, r₁.ensureGeneration keyboard key) := by rw [claimGuestOwner_eq, if_neg howner]
    simp only [hclaim, Bool.false_eq_true, if_false]
    exact (hkeeps.trans (keeps_ensureGeneration ..)).tells_nil

theorem tells_textInputPress (r : KeyGenerationRegistry) (keyboard key serial : ℕ) :
    Tells (toldOf (.textInputPress serial) (r.textInputPress keyboard key serial).1.delivery)
      keyboard key r (r.textInputPress keyboard key serial).2 := by
  unfold textInputPress
  dsimp only
  split_ifs with haccelerator hclaimed
  · exact (Keeps.refl r).tells_drop _
  all_goals
    simp only [Bool.or_eq_true, not_or, Bool.not_eq_true] at haccelerator
    have htells := tells_claimTextInputOwner serial haccelerator.1.1
    simpa [hclaimed, toldOf] using htells

theorem takeRetiredGuestRelease_of_false {predicate : RetiredGuestRelease → Bool}
    (h : (r.takeRetiredGuestRelease keyboard key predicate).1 = false) :
    (r.takeRetiredGuestRelease keyboard key predicate).2 = r := by
  unfold takeRetiredGuestRelease at h ⊢
  cases hreleases : r.retiredGuestReleases.get (keyboard, key) with
  | none => rfl
  | some releases =>
    rw [hreleases] at h
    dsimp only at h ⊢
    split_ifs at h ⊢
    rfl

theorem tells_takePendingPhysicalRelease (r : KeyGenerationRegistry) (keyboard key serial : ℕ) :
    Tells (if (r.takePendingPhysicalRelease keyboard key serial).1 then [false] else [])
      keyboard key r (r.takePendingPhysicalRelease keyboard key serial).2 := by
  unfold takePendingPhysicalRelease
  split_ifs with hpending
  · exact tells_takeRetiredGuestRelease hpending
  · rw [takeRetiredGuestRelease_of_false (by simpa using hpending)]
    exact (Keeps.refl r).tells_nil

theorem tells_completeGuestOwnerIf (r : KeyGenerationRegistry) (keyboard key : ℕ) :
    Tells (if (r.completeGuestOwnerIf keyboard key .textInputKeysym).1 then [false] else [])
      keyboard key r (r.completeGuestOwnerIf keyboard key .textInputKeysym).2 := by
  unfold completeGuestOwnerIf
  by_cases howner : r.guestOwner keyboard key = some .textInputKeysym
  · simp only [howner, if_true]
    obtain ⟨g₀, hg₀, howner⟩ := Option.bind_eq_some_iff.mp howner
    refine .update (by simp [hg₀]) fun g hg hacc => ?_
    obtain rfl : g₀ = g := Option.some.inj (hg₀.symm.trans hg)
    exact ⟨⟨nofun, hacc.released, fun _ => rfl⟩, by simp [KeyGeneration.forwarded, howner]⟩
  · simp only [howner, if_false, Bool.false_eq_true]
    exact (Keeps.refl r).tells_nil

theorem tells_textInputRelease (r : KeyGenerationRegistry) (keyboard key serial : ℕ) :
    Tells (toldOf (.textInputRelease serial) (r.textInputRelease keyboard key serial).1.delivery)
      keyboard key r (r.textInputRelease keyboard key serial).2 := by
  have htake : (r.takePendingTextInputRelease keyboard key serial).1 = true →
      Tells [false] keyboard key r (r.takePendingTextInputRelease keyboard key serial).2 :=
    tells_takeRetiredGuestRelease
  have hsame : (r.takePendingTextInputRelease keyboard key serial).1 = false →
      (r.takePendingTextInputRelease keyboard key serial).2 = r :=
    takeRetiredGuestRelease_of_false
  have hcomplete := tells_completeGuestOwnerIf r keyboard key
  unfold textInputRelease
  dsimp only
  generalize r.takePendingTextInputRelease keyboard key serial = taken at htake hsame ⊢
  cases hretired : taken.1 with
  | true =>
    rw [if_pos rfl]
    exact htake hretired
  | false =>
    rw [if_neg Bool.false_ne_true, hsame hretired]
    split_ifs with hcurrent hcompleted hcompleted
    · simpa [hcompleted, toldOf] using hcomplete
    · simpa [hcompleted, toldOf] using hcomplete
    · cases hcompleted
    · exact (Keeps.refl r).tells_drop _

theorem tells_recoverIme (r : KeyGenerationRegistry) (keyboard key : ℕ) :
    Tells (toldOf .recoverIme (r.recoverIme keyboard key).1.delivery) keyboard key r
      (r.recoverIme keyboard key).2 := by
  unfold recoverIme
  split_ifs
  · exact (Keeps.refl r).tells_drop _
  · exact (keeps_claimImeRecovery ..).tells rfl
  · exact (Keeps.refl r).tells rfl

theorem tells_transitionGuestKey (hr : r.Accountable) (keyboard key : ℕ)
    (event : GuestKeyEvent) :
    Tells (toldOf event (r.transitionGuestKey keyboard key event).1.delivery) keyboard key r
      (r.transitionGuestKey keyboard key event).2 := by
  cases event with
  | physicalPress repeated hostAccelerator imeRepeatActive => exact tells_physicalPress ..
  | physicalRelease => exact tells_physicalRelease hr
  | textInputPress serial => exact tells_textInputPress ..
  | textInputRepeat => exact (Keeps.refl r).tells_nil
  | textInputRelease serial => exact tells_textInputRelease ..
  | recoverIme => exact tells_recoverIme ..

/-! ## Keyboards that start anew -/

theorem owed_clearKeyboard (keyboard' key' : ℕ) :
    (r.clearKeyboard keyboard).owed keyboard' key' =
      if keyboard' = keyboard then [] else r.owed keyboard' key' := by
  by_cases heq : keyboard' = keyboard
  · simp [owed, clearKeyboard, heq]
  · cases howed : r.retiredGuestReleases.get (keyboard', key') <;>
      simp [owed, clearKeyboard, heq, howed, Option.filter_some]

theorem generation_clearKeyboard (keyboard' key' : ℕ) :
    (r.clearKeyboard keyboard).generation keyboard' key' =
      if keyboard' = keyboard then none else r.generation keyboard' key' := by
  by_cases heq : keyboard' = keyboard
  · simp [generation, clearKeyboard, heq]
  · cases hg : r.entries.get (keyboard', key') <;> simp [generation, clearKeyboard, heq, hg]

theorem accountable_clearKeyboard (hr : r.Accountable) : (r.clearKeyboard keyboard).Accountable :=
  fun keyboard' key' _ hg => hr keyboard' key' _ (generation_of_clearKeyboard hg)

theorem outstanding_clearKeyboard (keyboard' key' : ℕ) :
    (r.clearKeyboard keyboard).outstanding keyboard' key' =
      if keyboard' = keyboard then 0 else r.outstanding keyboard' key' := by
  rw [outstanding, forwarded, generation_clearKeyboard, owed_clearKeyboard]
  split_ifs <;> rfl

/-- The press of a snapshot key, which the guest learns of when its surface is entered. -/
theorem forwarded_enterKey (keyboard' key' : ℕ) :
    ((r.ensureGeneration keyboard key).update keyboard key fun g =>
      { g with physicalState := .held, guestOwner := some .physical }).forwarded keyboard' key' =
        (decide (keyboard' = keyboard ∧ key' = key) || r.forwarded keyboard' key') := by
  have hsame : (r.ensureGeneration keyboard key).forwarded keyboard' key' =
      r.forwarded keyboard' key' := forwarded_ensureGeneration keyboard' key'
  rw [← hsame, forwarded, forwarded, generation_update]
  by_cases heq : keyboard' = keyboard ∧ key' = key
  · obtain ⟨rfl, rfl⟩ := heq
    have hgeneration : (r.ensureGeneration keyboard' key').generation keyboard' key' ≠ none :=
      ensureGeneration_ne_none
    obtain ⟨g, hg⟩ := Option.ne_none_iff_exists'.mp hgeneration
    simp [hg, KeyGeneration.forwarded]
  · simp [heq]

/-- Only the keys of the snapshot are open after it. -/
theorem forwarded_installEnterSnapshot (keys : List ℕ) (keyboard' key' : ℕ) :
    (r.installEnterSnapshot keyboard keys).forwarded keyboard' key' =
      if keyboard' = keyboard then decide (key' ∈ keys) else r.forwarded keyboard' key' := by
  have hfold : ∀ (keys : List ℕ) (r : KeyGenerationRegistry),
      (keys.foldl (fun r key => (r.ensureGeneration keyboard key).update keyboard key fun g =>
        { g with physicalState := .held, guestOwner := some .physical }) r).forwarded
          keyboard' key' =
        (decide (keyboard' = keyboard ∧ key' ∈ keys) || r.forwarded keyboard' key') := by
    intro keys
    induction keys with
    | nil => simp
    | cons key keys ih =>
      intro r
      rw [List.foldl_cons, ih, forwarded_enterKey]
      by_cases heq : keyboard' = keyboard <;> by_cases hkey : key' = key <;> simp [heq, hkey]
  rw [installEnterSnapshot, hfold, forwarded, generation_clearKeyboard]
  by_cases heq : keyboard' = keyboard
  · simp [heq]
  · simp [heq, forwarded]

theorem owed_installEnterSnapshot (keys : List ℕ) (keyboard' key' : ℕ) :
    (r.installEnterSnapshot keyboard keys).owed keyboard' key' =
      if keyboard' = keyboard then [] else r.owed keyboard' key' := by
  rw [← owed_clearKeyboard]
  refine List.foldlRecOn keys (motive := fun r' : KeyGenerationRegistry =>
    r'.owed keyboard' key' = (r.clearKeyboard keyboard).owed keyboard' key') _ rfl ?_
  intro r' hr' key _
  rw [← hr', owed, owed]
  unfold ensureGeneration
  split <;> rfl

theorem accountable_installEnterSnapshot (hr : r.Accountable) (keys : List ℕ) :
    (r.installEnterSnapshot keyboard keys).Accountable := by
  intro keyboard' key' g hg
  rcases generation_of_installEnterSnapshot hg with h | ⟨id, rfl⟩
  · exact hr keyboard' key' g h
  · exact ⟨nofun, nofun, nofun⟩

theorem outstanding_installEnterSnapshot (keys : List ℕ) (keyboard' key' : ℕ) :
    (r.installEnterSnapshot keyboard keys).outstanding keyboard' key' =
      if keyboard' = keyboard then (decide (key' ∈ keys)).toNat
      else r.outstanding keyboard' key' := by
  rw [outstanding, forwarded_installEnterSnapshot, owed_installEnterSnapshot]
  split_ifs <;> rfl

end KeyGenerationRegistry

end Sommelier
