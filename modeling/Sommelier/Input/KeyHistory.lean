import Sommelier.Handler.Keyboard
import Sommelier.Input.KeyMoves
import Sommelier.Input.TextInputs

/-!
# Histories of key generations

A session as the keyboards see it: the three channels of the keys, keymaps, modifiers and focus
changes, and the messages of the text inputs, in any order. The generations of every session are
sound.

## Main definitions

* `KeyboardMessage`, `keyboardSystem`: the messages, and the system.
* `KeyboardContext.guarded`: the steps that hide no accelerator.
* `KeyboardContext.Sound`: the invariant.
-/
namespace Sommelier

/-! ## Messages -/

inductive KeyboardMessage
  -- events of the host
  | keymap (hostKeyboard format size : ℕ) (mapping : Option (List UInt8))
  | enter (hostKeyboard hostSurface : ℕ) (keys : List UInt8)
  | leave (hostKeyboard hostSurface : ℕ)
  | key (hostKeyboard serial time key state : ℕ)
  | modifiers (hostKeyboard depressed latched locked group : ℕ)
  | peekKey (hostExtended serial time key state : ℕ)
  | keysym (hostId serial time sym state : ℕ)
  | confirmPreedit (hostExtId : ℕ)
  -- requests of the guest
  | release (guestKeyboard : ℕ)
  | destroySurface (guestSurface : ℕ)
  -- the other messages of the text inputs
  | text (message : InputMessage)
  -- the registry binds the keyboard extension, or lets it go
  | extension (hostId : Option ℕ)

namespace KeyboardContext
variable {x : Xkb}

/-- A preedit that the host cleared while backspace is held starts repeats of backspace. -/
def repeatAfterPreedit (c : KeyboardContext x) (guestId : ℕ) (state : TextInputState)
    (text commit : String) : KeyboardContext x :=
  match c.heldBackspaceKeyboardForSeat state.guestSeat with
  | some hostKeyboard =>
    if text = "" ∧ state.currentPreedit ≠ "" ∧ commit = "" then
      c.onKeys fun keys => keys.armImeRepeat hostKeyboard evdevKeyBackspace guestId
    else c.endBackspaceRepeatForTextInput state.guestSeat guestId
  | none => c.endBackspaceRepeatForTextInput state.guestSeat guestId

/-- The text input a message is about, when it is one that can touch the repeats. -/
def textInputOf (c : InputContext) : InputMessage → Option ℕ
  | .destroyTextInput textInput => some textInput
  | .commitTextInput textInput => some textInput
  | .preeditString hostId _ _ => c.shadowTable.getGuestId hostId
  | .commitString hostId _ => c.shadowTable.getGuestId hostId
  | .setPreeditRegion hostExtId _ _ => guestForExtension c hostExtId
  | _ => none

/-- What a message to or from a text input means for the repeats of its seat, given whether
something was queued for the guest. -/
def endRepeatAfter (c : KeyboardContext x) (guestId : ℕ) (state : TextInputState)
    (queued : Bool) : InputMessage → KeyboardContext x
  | .destroyTextInput _ => c.endBackspaceRepeatForTextInput state.guestSeat guestId
  | .commitTextInput _ =>
    let plan := state.prepareGuestCommit (enableConflicts c.input guestId state)
    if v3IsFocused c.input guestId && (encodeTransaction (commitMessages c.input plan)).isSome &&
        plan.resetsComposition then
      c.endBackspaceRepeatForTextInput state.guestSeat guestId
    else c
  | .preeditString _ text commit =>
    if queued then c.repeatAfterPreedit guestId state text commit else c
  | .commitString _ _ | .setPreeditRegion _ _ _ =>
    if queued then c.endBackspaceRepeatForTextInput state.guestSeat guestId else c
  | _ => c

/-- A message that reaches no key but may end or start repeats of backspace. -/
def onText (c : KeyboardContext x) (m : InputMessage) : Option (KeyboardContext x) :=
  (c.input.handle m).map fun input =>
    match textInputOf c.input m with
    | none => { c with input }
    | some guestId =>
      match c.input.textInputs.get guestId with
      | none => { c with input }
      | some state => { c.endRepeatAfter guestId state (sent c.input input) m with input }

/-- The messages of a text input that reach no key. -/
def reachesNoKey : InputMessage → Bool
  | .releaseKeyboard _ | .destroySurface _ | .keyboardEnter _ _ | .keyboardLeave _ _
  | .confirmPreedit _ _ => false
  | _ => true

/-- The handler of a message; `none` is a panic. -/
def handle (o : ByteOrder) (c : KeyboardContext x) :
    KeyboardMessage → Option (Action × KeyboardContext x)
  | .keymap hostKeyboard format size mapping => some (c.onKeymap hostKeyboard format size mapping)
  | .enter hostKeyboard hostSurface keys => c.onEnter o hostKeyboard hostSurface keys
  | .leave hostKeyboard hostSurface => c.onLeave hostKeyboard hostSurface
  | .key hostKeyboard serial _ key state => some (c.onKey hostKeyboard serial key state)
  | .modifiers hostKeyboard depressed latched locked group =>
    some (c.onModifiers hostKeyboard depressed latched locked group)
  | .peekKey hostExtended serial time key state =>
    some (.drop, c.onPeekKey hostExtended serial time key state)
  | .keysym hostId serial time sym state => some (.drop, c.onKeysym hostId serial time sym state)
  | .confirmPreedit hostExtId => some (.drop, c.onConfirmPreeditKeys hostExtId)
  | .release guestKeyboard => c.onRelease guestKeyboard
  | .destroySurface guestSurface => (c.onSurfaceDestroy guestSurface).map (.drop, ·)
  -- the five other messages of a text input have a handler above, which reaches the keys too
  | .text message => if reachesNoKey message then (c.onText message).map (.drop, ·) else none
  | .extension hostId => some (.drop, { c with hostKeyboardExtensionId := hostId })

end KeyboardContext

/-- Sessions with any accelerators; a fatal error ends a session. -/
def keyboardSystem (o : ByteOrder) (x : Xkb) :
    TransitionSystem (KeyboardContext x) KeyboardMessage where
  init c := ∃ accelerators, c = .new x accelerators
  step c m := (c.handle o m).bind fun (_, c) =>
    if c.input.fatalProtocolError then none else some c

/-! ## Steps that hide no accelerator -/

namespace KeyboardContext
variable {x : Xkb}

/-- The event is not stale, and its key is found to be an accelerator. -/
def findsAccelerator (c : KeyboardContext x) (hostKeyboard serial key state : ℕ) : Bool :=
  (state == 1 || state == 2) && !c.isStaleKey hostKeyboard serial key state &&
    c.isHostAccelerator hostKeyboard key

/-- No press that is found to be an accelerator leaves no trace, and no keymap is loaded while a
suppressed generation would outlive it. -/
def guarded (c : KeyboardContext x) : KeyboardMessage → Bool
  | .key hostKeyboard serial _ key state =>
    !(c.findsAccelerator hostKeyboard serial key state &&
      ((c.observeKey hostKeyboard serial key state).keyGenerations.generation hostKeyboard key).any
        KeyGeneration.losesAccelerator)
  | .keymap hostKeyboard format size mapping =>
    !((parseKeymap format size mapping : Option x.Keymap).isSome &&
      c.keyGenerations.entries.any fun k g => k.1 == hostKeyboard && g.losesSuppression)
  | _ => true

end KeyboardContext

/-! ## Handlers -/

namespace KeyboardContext
variable {x : Xkb} {careful : Prop} {c c' : KeyboardContext x}

open KeyGenerationRegistry (Moves)

theorem moves_endBackspaceRepeatForSeat (careful : Prop) (c : KeyboardContext x)
    (guestSeat : ℕ) :
    Moves careful c.keyGenerations (c.endBackspaceRepeatForSeat guestSeat).keyGenerations := by
  refine List.foldlRecOn _ _ (.refl careful c.keyGenerations) fun keys hkeys keyboard _ => ?_
  obtain ⟨guestKeyboard, hostKeyboard⟩ := keyboard
  dsimp only
  split_ifs
  · exact hkeys.trans (KeyGenerationRegistry.moves_cancelBackspaceRepeat ..)
  · exact hkeys

theorem moves_endBackspaceRepeatForTextInput (careful : Prop) (c : KeyboardContext x)
    (guestSeat guestTextInput : ℕ) :
    Moves careful c.keyGenerations
      (c.endBackspaceRepeatForTextInput guestSeat guestTextInput).keyGenerations :=
  List.foldlRecOn _ _ (.refl careful c.keyGenerations) fun _ hkeys _ _ =>
    hkeys.trans (KeyGenerationRegistry.moves_cancelBackspaceRepeatForOwner ..)

theorem moves_endBackspaceRepeat (careful : Prop) (c : KeyboardContext x)
    (hostKeyboard key : ℕ) :
    Moves careful c.keyGenerations (c.endBackspaceRepeat hostKeyboard key).keyGenerations := by
  have hcancel := KeyGenerationRegistry.moves_cancelBackspaceRepeat careful c.keyGenerations
    hostKeyboard evdevKeyBackspace
  unfold endBackspaceRepeat
  split_ifs
  · exact .refl ..
  · dsimp only
    generalize hc₁ : c.onKeys _ = c₁
    have hcancel : Moves careful c.keyGenerations c₁.keyGenerations := hc₁ ▸ hcancel
    split
    · exact hcancel
    · exact hcancel.trans (moves_endBackspaceRepeatForSeat ..)

theorem moves_endBackspaceSession (careful : Prop) (c : KeyboardContext x)
    (hostKeyboard key : ℕ) :
    Moves careful c.keyGenerations (c.endBackspaceSession hostKeyboard key).keyGenerations := by
  unfold endBackspaceSession
  split_ifs
  · split
    · exact .refl ..
    · exact moves_endBackspaceRepeatForSeat ..
  · exact .refl ..

/-! ### Keymaps and focus -/

theorem moves_onKeymap {hostKeyboard format size : ℕ} {mapping : Option (List UInt8)}
    (h : careful → c.guarded (.keymap hostKeyboard format size mapping) = true) :
    Moves careful c.keyGenerations
      (c.onKeymap hostKeyboard format size mapping).2.keyGenerations := by
  unfold onKeymap
  cases hkeymap : (parseKeymap format size mapping : Option x.Keymap) with
  | none => exact KeyGenerationRegistry.moves_clearKeyboard ..
  | some keymap =>
    refine KeyGenerationRegistry.moves_clearAcceleratorSuppressions fun hcareful key g hg => ?_
    have hguarded := h hcareful
    simp only [guarded, hkeymap, Option.isSome_some, Bool.true_and, Bool.not_eq_true',
      Bool.eq_false_iff] at hguarded
    by_contra hloses
    exact hguarded ((Table.any_eq_true ..).mpr
      ⟨(hostKeyboard, key), g, hg, by simpa using hloses⟩)

theorem moves_retireFocus (careful : Prop) (hkeys : c'.keyGenerations = c.keyGenerations)
    (hostKeyboards : List ℕ) :
    Moves careful c.keyGenerations
      (hostKeyboards.foldl retireFocusScopedKeyboardState c').keyGenerations := by
  rw [← hkeys]
  exact List.foldlRecOn (motive := fun c₁ : KeyboardContext x =>
    Moves careful c'.keyGenerations c₁.keyGenerations) hostKeyboards _ (.refl ..)
      fun _ hmoves _ _ => hmoves.trans (KeyGenerationRegistry.moves_clearKeyboard ..)

theorem moves_applyFocusChange {change : SeatFocusChange}
    (h : c.applyFocusChange change = some c') :
    Moves careful c.keyGenerations c'.keyGenerations := by
  unfold applyFocusChange at h
  split_ifs at h
  · exact Option.some.inj h ▸ .refl ..
  · obtain ⟨input, -, rfl⟩ := Option.map_eq_some_iff.mp h
    have hclear : Moves careful c.keyGenerations
        (c.keyGenerations.clearPeekWatermarksForSeat change.guestSeat) := .of_entries rfl
    exact hclear.trans (moves_endBackspaceRepeatForSeat careful
      (c.onKeys fun keys => keys.clearPeekWatermarksForSeat change.guestSeat) change.guestSeat)

theorem moves_applyFocusChanges {changes : List SeatFocusChange}
    (h : c.applyFocusChanges changes = some c') :
    Moves careful c.keyGenerations c'.keyGenerations := by
  unfold applyFocusChanges at h
  induction changes generalizing c with
  | nil => exact Option.some.inj h ▸ .refl ..
  | cons change changes ih =>
    rw [List.foldlM_cons, Option.bind_eq_bind, Option.bind_eq_some_iff] at h
    obtain ⟨c₁, h₁, h⟩ := h
    exact (moves_applyFocusChange h₁).trans (ih h)

theorem keyGenerations_ensureExtendedKeyboardBound {hostKeyboard : ℕ}
    (h : c.ensureExtendedKeyboardBound hostKeyboard = some c') :
    c'.keyGenerations = c.keyGenerations := by
  unfold ensureExtendedKeyboardBound at h
  split at h
  · obtain ⟨-, -, rfl⟩ := Option.map_eq_some_iff.mp h
    rfl
  · exact Option.some.inj h ▸ rfl

theorem moves_enterFocus {hostKeyboard : ℕ} {focus : KeyboardFocus} {keys : List ℕ}
    (h : c.enterFocus hostKeyboard focus keys = some c') :
    Moves careful c.keyGenerations c'.keyGenerations := by
  unfold enterFocus at h
  dsimp only at h
  generalize hretired : List.foldl _ _ _ = c₁ at h
  have hretire : Moves careful c.keyGenerations c₁.keyGenerations :=
    hretired ▸ moves_retireFocus careful (by rfl) _
  have hsnapshot := KeyGenerationRegistry.moves_installEnterSnapshot careful c₁.keyGenerations
    hostKeyboard keys
  exact (hretire.trans hsnapshot).trans (moves_applyFocusChanges h)

theorem moves_onEnter {o : ByteOrder} {hostKeyboard hostSurface : ℕ} {keys : List UInt8}
    {action : Action} (h : c.onEnter o hostKeyboard hostSurface keys = some (action, c')) :
    Moves careful c.keyGenerations c'.keyGenerations := by
  have hdrop : ∀ {action' : Action}, some (action', c) = some (action, c') →
      Moves careful c.keyGenerations c'.keyGenerations := by
    intro action' h
    obtain ⟨-, rfl⟩ := Prod.mk.inj (Option.some.inj h)
    exact .refl ..
  unfold onEnter at h
  dsimp only at h
  split_ifs at h
  · exact hdrop h
  · split at h
    · exact hdrop h
    · split_ifs at h
      · exact hdrop h
      · obtain ⟨c₁, h₁, h⟩ := Option.bind_eq_some_iff.mp h
        obtain ⟨c₂, h₂, h⟩ := Option.map_eq_some_iff.mp h
        obtain ⟨-, rfl⟩ := Prod.mk.inj h
        rw [← keyGenerations_ensureExtendedKeyboardBound h₁]
        exact moves_enterFocus h₂

theorem moves_onLeave {hostKeyboard hostSurface : ℕ} {action : Action}
    (h : c.onLeave hostKeyboard hostSurface = some (action, c')) :
    Moves careful c.keyGenerations c'.keyGenerations := by
  unfold onLeave at h
  dsimp only at h
  generalize hretired : List.foldl _ _ _ = c₁ at h
  have hretire : Moves careful c.keyGenerations c₁.keyGenerations :=
    hretired ▸ moves_retireFocus careful (by rfl) _
  split_ifs at h
  · obtain ⟨-, rfl⟩ := Prod.mk.inj (Option.some.inj h)
    exact .refl ..
  all_goals
    obtain ⟨c₂, h₂, h⟩ := Option.map_eq_some_iff.mp h
    obtain ⟨-, rfl⟩ := Prod.mk.inj h
    exact hretire.trans (moves_applyFocusChanges h₂)

theorem keyGenerations_destroyExtendedKeyboard (c : KeyboardContext x) (hostKeyboard : ℕ) :
    (c.destroyExtendedKeyboard hostKeyboard).keyGenerations = c.keyGenerations := by
  unfold destroyExtendedKeyboard
  split <;> rfl

theorem moves_onRelease {guestKeyboard : ℕ} {action : Action}
    (h : c.onRelease guestKeyboard = some (action, c')) :
    Moves careful c.keyGenerations c'.keyGenerations := by
  unfold onRelease at h
  dsimp only at h
  split at h
  · obtain ⟨-, rfl⟩ := Prod.mk.inj (Option.some.inj h)
    split
    · exact .refl ..
    · exact moves_endBackspaceRepeatForSeat careful { c with input := { c.input with
        keyboardToSeat := c.input.keyboardToSeat.erase guestKeyboard } } _
  · obtain ⟨c₁, h₁, h⟩ := Option.map_eq_some_iff.mp h
    obtain ⟨-, rfl⟩ := Prod.mk.inj h
    refine .trans ?_ (moves_applyFocusChanges h₁)
    rw [keyGenerations_destroyExtendedKeyboard]
    exact KeyGenerationRegistry.moves_clearKeyboard ..

theorem moves_onSurfaceDestroy {guestSurface : ℕ}
    (h : c.onSurfaceDestroy guestSurface = some c') :
    Moves careful c.keyGenerations c'.keyGenerations := by
  unfold onSurfaceDestroy at h
  obtain ⟨c₁, h₁, h⟩ := Option.bind_eq_some_iff.mp h
  obtain ⟨input, -, rfl⟩ := Option.map_eq_some_iff.mp h
  have hclear : Moves careful c.keyGenerations
      (c.keyGenerations.clearPeekWatermarksForSurface guestSurface) := .of_entries rfl
  refine (hclear.trans (moves_applyFocusChanges h₁)).trans ?_
  exact List.foldlRecOn _ _ (.refl careful c₁.keyGenerations) fun _ hkeys _ _ =>
    hkeys.trans (KeyGenerationRegistry.moves_clearKeyboard ..)

/-! ### Keys -/

theorem endBackspaceRepeat_eq (c : KeyboardContext x) (hostKeyboard key : ℕ) :
    ∃ keys, c.endBackspaceRepeat hostKeyboard key = { c with keyGenerations := keys } := by
  unfold endBackspaceRepeat
  split_ifs
  · exact ⟨_, rfl⟩
  · dsimp only
    split <;> exact ⟨_, rfl⟩

theorem endBackspaceSession_eq (c : KeyboardContext x) (hostKeyboard key : ℕ) :
    ∃ keys, c.endBackspaceSession hostKeyboard key = { c with keyGenerations := keys } := by
  unfold endBackspaceSession
  split_ifs
  · split <;> exact ⟨_, rfl⟩
  · exact ⟨_, rfl⟩

theorem observeKey_eq (c : KeyboardContext x) (hostKeyboard serial key state : ℕ) :
    ∃ keys, c.observeKey hostKeyboard serial key state = { c with keyGenerations := keys } := by
  unfold observeKey
  dsimp only
  split_ifs <;> exact ⟨_, rfl⟩

theorem keyGenerations_sendAckKey (c : KeyboardContext x) (hostKeyboard serial : ℕ)
    (handled : Bool) :
    (c.sendAckKey hostKeyboard serial handled).keyGenerations = c.keyGenerations := by
  unfold sendAckKey
  split <;> rfl

theorem moves_observeKey (careful : Prop) (c : KeyboardContext x)
    (hostKeyboard serial key state : ℕ) :
    Moves careful c.keyGenerations
      (c.observeKey hostKeyboard serial key state).keyGenerations := by
  unfold observeKey
  dsimp only
  split_ifs
  · exact KeyGenerationRegistry.moves_observePhysicalEvent ..
  · exact .refl ..

theorem isHostAccelerator_endBackspaceRepeat (c : KeyboardContext x) (hostKeyboard key : ℕ) :
    (c.endBackspaceRepeat hostKeyboard key).isHostAccelerator hostKeyboard key =
      c.isHostAccelerator hostKeyboard key := by
  unfold endBackspaceRepeat
  split_ifs
  · rfl
  · dsimp only
    split <;> rfl

theorem isHostAccelerator_observeKey (c : KeyboardContext x)
    (hostKeyboard serial key state : ℕ) :
    (c.observeKey hostKeyboard serial key state).isHostAccelerator hostKeyboard key =
      c.isHostAccelerator hostKeyboard key := by
  unfold observeKey
  dsimp only
  split_ifs <;> rfl

/-- Repeats end without a trace on other keys than backspace. -/
theorem generation_endBackspaceRepeat (c : KeyboardContext x) (hostKeyboard key : ℕ) :
    (c.endBackspaceRepeat hostKeyboard key).keyGenerations.generation hostKeyboard key =
      c.keyGenerations.generation hostKeyboard key := by
  unfold endBackspaceRepeat
  split_ifs with hkey
  · rfl
  · have hcancel : ∀ (r : KeyGenerationRegistry) keyboard,
        (r.cancelBackspaceRepeat keyboard evdevKeyBackspace).generation hostKeyboard key =
          r.generation hostKeyboard key := by
      intro r keyboard
      unfold KeyGenerationRegistry.cancelBackspaceRepeat
      split_ifs
      · rw [KeyGenerationRegistry.generation_update, if_neg fun h => hkey h.2]
      · rfl
    dsimp only
    split
    · exact hcancel ..
    · refine List.foldlRecOn (motive := fun r : KeyGenerationRegistry =>
        r.generation hostKeyboard key = c.keyGenerations.generation hostKeyboard key) _ _
          (hcancel ..) fun r hr keyboard _ => ?_
      obtain ⟨guestKeyboard, keyboard⟩ := keyboard
      dsimp only
      split_ifs
      · exact (hcancel r keyboard).trans hr
      · exact hr

/-- A press is decided without hiding that its key is an accelerator, unless it loses it. -/
theorem moves_pressKey {hostKeyboard serial key : ℕ} {repeated imeRepeatActive : Bool}
    (h : careful → c.isHostAccelerator hostKeyboard key = true → ∀ g,
      c.keyGenerations.generation hostKeyboard key = some g → g.losesAccelerator = false) :
    Moves careful c.keyGenerations
      (c.pressKey hostKeyboard serial key repeated imeRepeatActive).2.keyGenerations := by
  have hend := moves_endBackspaceRepeat careful c hostKeyboard key
  unfold pressKey finishKey
  simp only [keyGenerations_sendAckKey, isHostAccelerator_endBackspaceRepeat]
  cases haccelerator : c.isHostAccelerator hostKeyboard key with
  | false =>
    exact hend.trans (KeyGenerationRegistry.moves_physicalPress ..)
  | true =>
    refine ((hend.trans (KeyGenerationRegistry.moves_invalidatePeek ..)).trans
      (KeyGenerationRegistry.moves_physicalPress ..)).trans
        (KeyGenerationRegistry.moves_noteAccelerator fun hcareful g hg => ?_)
    refine KeyGenerationRegistry.remembers_of_physicalPress (fun g hg => ?_) hg
    rw [generation_endBackspaceRepeat] at hg
    exact h hcareful haccelerator g hg

theorem moves_releaseKey (careful : Prop) {hostKeyboard serial key : ℕ}
    (h : ∀ g, c.keyGenerations.generation hostKeyboard key = some g →
      g.physicalState = .released) :
    Moves careful c.keyGenerations (c.releaseKey hostKeyboard serial key).2.keyGenerations := by
  have hrelease := KeyGenerationRegistry.moves_physicalRelease careful h
  unfold releaseKey finishKey
  simp only [keyGenerations_sendAckKey]
  split_ifs
  · exact hrelease.trans (moves_endBackspaceSession careful
      { c with keyGenerations := (c.keyGenerations.physicalRelease hostKeyboard key).2 } _ _)
  · exact hrelease

theorem released_of_observeKey {hostKeyboard serial key : ℕ} {g : KeyGeneration}
    (hg : (c.observeKey hostKeyboard serial key 0).keyGenerations.generation hostKeyboard key =
      some g) : g.physicalState = .released := by
  simp only [observeKey, Nat.reduceBEq, Bool.false_and, Bool.or_true, Bool.true_or, if_true] at hg
  exact KeyGenerationRegistry.released_of_observePhysicalRelease hg

/-- A key is acknowledged at once when it belongs to a replaced generation, or decided on. -/
theorem onKey_cases (c : KeyboardContext x) (hostKeyboard serial key state : ℕ) :
    let taken := c.keyGenerations.takePendingPhysicalRelease hostKeyboard key serial
    let observed := c.observeKey hostKeyboard serial key state
    (state = 0 ∧ taken.1 = true ∧ c.onKey hostKeyboard serial key state =
      (.forward, { c with keyGenerations := taken.2 }.sendAckKey hostKeyboard serial true)) ∨
    (c.isStaleKey hostKeyboard serial key state = true ∧
      c.onKey hostKeyboard serial key state = (.drop, c.sendAckKey hostKeyboard serial false)) ∨
    ((state = 1 ∨ state = 2) ∧ c.isStaleKey hostKeyboard serial key state = false ∧
      ∃ imeRepeatActive, c.onKey hostKeyboard serial key state =
        observed.pressKey hostKeyboard serial key (state == 2) imeRepeatActive) ∨
    (state = 0 ∧ c.onKey hostKeyboard serial key state =
      observed.releaseKey hostKeyboard serial key) ∨
    (2 < state ∧ c.onKey hostKeyboard serial key state = (.drop, observed)) := by
  intro taken observed
  by_cases htaken : state = 0 ∧ taken.1 = true
  · obtain ⟨rfl, htaken⟩ := htaken
    exact .inl ⟨rfl, htaken, by simp [onKey, htaken, taken]⟩
  have hpending : (if state = 0 then
      c.keyGenerations.takePendingPhysicalRelease hostKeyboard key serial
      else (false, c.keyGenerations)).1 = false := by
    split_ifs with hstate
    · simpa [hstate] using htaken
    · rfl
  refine .inr ?_
  unfold onKey
  simp only [hpending, Bool.false_eq_true, if_false]
  cases hstale : c.isStaleKey hostKeyboard serial key state with
  | true => exact .inl ⟨rfl, by simp⟩
  | false =>
    refine .inr ?_
    simp only [Bool.false_eq_true, if_false]
    split
    · exact .inl ⟨.inl rfl, trivial, _, rfl⟩
    · exact .inl ⟨.inr rfl, trivial, _, rfl⟩
    · exact .inr (.inl ⟨rfl, rfl⟩)
    · rename_i hne₁ hne₂ hne₀
      have hne : state ≠ 1 ∧ state ≠ 2 ∧ state ≠ 0 := ⟨hne₁, hne₂, hne₀⟩
      exact .inr (.inr ⟨by omega, rfl⟩)

theorem moves_onKey {hostKeyboard serial time key state : ℕ}
    (h : careful → c.guarded (.key hostKeyboard serial time key state) = true) :
    Moves careful c.keyGenerations (c.onKey hostKeyboard serial key state).2.keyGenerations := by
  have hobserve := moves_observeKey careful c hostKeyboard serial key state
  rcases c.onKey_cases hostKeyboard serial key state with ⟨-, -, heq⟩ | ⟨-, heq⟩ |
    ⟨hstate, hstale, _, heq⟩ | ⟨rfl, heq⟩ | ⟨-, heq⟩ <;> rw [heq]
  · rw [keyGenerations_sendAckKey]
    exact .of_entries (KeyGenerationRegistry.entries_takeRetiredGuestRelease _)
  · rw [keyGenerations_sendAckKey]
    exact .refl ..
  · refine hobserve.trans (moves_pressKey fun hcareful haccelerator g hg => ?_)
    have hguarded := h hcareful
    rw [isHostAccelerator_observeKey] at haccelerator
    have hfinds : c.findsAccelerator hostKeyboard serial key state = true := by
      rcases hstate with rfl | rfl <;> simp [findsAccelerator, hstale, haccelerator]
    simpa [guarded, hfinds, hg] using hguarded
  · exact hobserve.trans (moves_releaseKey careful fun _ => released_of_observeKey)
  · exact hobserve

/-! ### Peeked keys -/

/-- The generations of a session are sound. -/
def Sound (careful : Prop) (c : KeyboardContext x) : Prop :=
  ∀ keyboard key g, c.keyGenerations.generation keyboard key = some g → g.Sound careful

/-- A first peeked press, of a generation that was not peeked before. -/
theorem moves_peekPress {hostKeyboard serial time key : ℕ}
    (hpeek : ∀ g, c.keyGenerations.generation hostKeyboard key = some g →
      g.physicalState ≠ .released → g.peek = none) :
    Moves careful c.keyGenerations (c.peekPress hostKeyboard serial time key).keyGenerations := by
  set eligible : Bool := !c.keyGenerations.hostAcceleratorSuppressed hostKeyboard key &&
    !c.isHostAccelerator hostKeyboard key with heligible
  have hobserve : Moves careful c.keyGenerations
      (c.keyGenerations.observePeekPress hostKeyboard key serial time eligible).2 :=
    KeyGenerationRegistry.moves_observePeekPress serial time hpeek
      fun hsuppressed => by simp [heligible, hsuppressed]
  have hnote : Moves careful c.keyGenerations (if c.isHostAccelerator hostKeyboard key then
      (c.keyGenerations.observePeekPress hostKeyboard key serial time eligible).2.noteAccelerator
        hostKeyboard key
      else (c.keyGenerations.observePeekPress hostKeyboard key serial time eligible).2) := by
    split_ifs with haccelerator
    · refine hobserve.trans (KeyGenerationRegistry.moves_noteAccelerator fun _ g hg => ?_)
      rw [show eligible = false by simp [heligible, haccelerator]] at hg
      exact KeyGenerationRegistry.remembers_of_observePeekPress hg
    · exact hobserve
  unfold peekPress
  dsimp only
  split
  · exact hnote
  · exact hnote.trans (.of_entries rfl)

theorem moves_notePeek {hostKeyboard serial time key state : ℕ} (hc : c.Sound careful) :
    Moves careful c.keyGenerations
      (c.notePeek hostKeyboard serial time key state).keyGenerations := by
  unfold notePeek
  dsimp only
  split_ifs with hfirst
  · refine moves_peekPress fun g hg hstate => ?_
    cases hphysical : g.physicalState with
    | unseen => exact (hc hostKeyboard key g hg).unseen hphysical
    | released => exact absurd hphysical hstate
    | held =>
      simpa [KeyGenerationRegistry.physicallyHeld, KeyGenerationRegistry.peek, hg, hphysical]
        using hfirst.2
  · exact KeyGenerationRegistry.moves_refreshPeek ..

theorem moves_peekPressed {hostKeyboard serial time key state : ℕ} (hc : c.Sound careful) :
    Moves careful c.keyGenerations
      (c.peekPressed hostKeyboard serial time key state).keyGenerations := by
  set c₁ := (c.notePeek hostKeyboard serial time key state).onKeys fun keys =>
    keys.observePhysicalEvent hostKeyboard key state (some serial)
  have hobserve : Moves careful c.keyGenerations c₁.keyGenerations :=
    (moves_notePeek hc).trans (KeyGenerationRegistry.moves_observePhysicalEvent ..)
  unfold peekPressed
  dsimp only
  split_ifs
  · exact hobserve.trans (moves_endBackspaceRepeat careful c₁ hostKeyboard key)
  · exact hobserve

theorem moves_peekReleased (careful : Prop) (c : KeyboardContext x)
    (hostKeyboard serial time key : ℕ) :
    Moves careful c.keyGenerations
      (c.peekReleased hostKeyboard serial time key).keyGenerations := by
  unfold peekReleased
  split_ifs
  · exact .refl ..
  · have hrelease : Moves careful c.keyGenerations
        (c.keyGenerations.observePeekRelease hostKeyboard key serial) :=
      KeyGenerationRegistry.moves_observePhysicalEvent ..
    exact hrelease.trans (moves_endBackspaceSession careful (c.onKeys fun keys =>
      keys.observePeekRelease hostKeyboard key serial) hostKeyboard key)

theorem moves_onPeekKey {hostExtended serial time key state : ℕ} (hc : c.Sound careful) :
    Moves careful c.keyGenerations
      (c.onPeekKey hostExtended serial time key state).keyGenerations := by
  unfold onPeekKey
  split
  · exact .refl ..
  · split_ifs
    · exact moves_peekPressed hc
    · exact moves_peekReleased ..
    · exact .refl ..

/-! ### Text inputs -/

theorem keysymEvent_ne (serial state : ℕ) : keysymEvent serial state ≠ .physicalRelease := by
  unfold keysymEvent
  split <;> simp

theorem moves_sendKeysym (careful : Prop) (c : KeyboardContext x)
    (guestSeat guestKeyboard serial time key state : ℕ) (endsRepeat : Bool) :
    Moves careful c.keyGenerations (c.sendKeysym guestSeat guestKeyboard serial time key state
      endsRepeat).keyGenerations := by
  unfold sendKeysym
  dsimp only
  split_ifs
  all_goals first
    | exact .refl ..
    | exact moves_endBackspaceRepeatForSeat ..

theorem moves_deliverKeysym (careful : Prop) (c : KeyboardContext x)
    (guestSeat guestKeyboard hostKeyboard serial time key state : ℕ) :
    Moves careful c.keyGenerations (c.deliverKeysym guestSeat guestKeyboard hostKeyboard serial
      time key state).keyGenerations := by
  have hmoves := KeyGenerationRegistry.moves_transitionGuestKey careful c.keyGenerations
    hostKeyboard key (keysymEvent_ne serial state)
  unfold deliverKeysym
  dsimp only
  generalize c.keyGenerations.transitionGuestKey hostKeyboard key (keysymEvent serial state) =
    decided at hmoves ⊢
  split_ifs
  · exact hmoves.trans (moves_sendKeysym careful { c with keyGenerations := decided.2 } ..)
  · exact hmoves

theorem moves_onKeysym (careful : Prop) (c : KeyboardContext x)
    (hostId serial time sym state : ℕ) :
    Moves careful c.keyGenerations (c.onKeysym hostId serial time sym state).keyGenerations := by
  unfold onKeysym
  split
  · exact .refl ..
  · split
    · exact .refl ..
    · split_ifs
      · split
        · exact .refl ..
        · exact moves_deliverKeysym ..
      · exact .refl ..

theorem moves_synthesizeImeConsumedKeyPair (careful : Prop) (c : KeyboardContext x)
    (held : HeldRepeatKey) :
    Moves careful c.keyGenerations (c.synthesizeImeConsumedKeyPair held).2.keyGenerations := by
  have hmoves := KeyGenerationRegistry.moves_recoverIme careful c.keyGenerations
    held.hostKeyboard held.key
  unfold synthesizeImeConsumedKeyPair
  dsimp only
  split_ifs <;> exact hmoves

theorem moves_finishRecovery (careful : Prop) (c : KeyboardContext x)
    (guestSeat guestTextInput : ℕ) (held : HeldRepeatKey) (recovered : Bool) :
    Moves careful c.keyGenerations
      (c.finishRecovery guestSeat guestTextInput held recovered).keyGenerations := by
  unfold finishRecovery
  split_ifs
  · exact KeyGenerationRegistry.moves_armImeRepeat ..
  · exact moves_endBackspaceRepeatForTextInput ..
  · exact .refl ..

theorem moves_confirmHeldKey (careful : Prop) (c : KeyboardContext x)
    (hostExtId guestSeat guestId : ℕ) (held : HeldRepeatKey) :
    Moves careful c.keyGenerations
      (c.confirmHeldKey hostExtId guestSeat guestId held).keyGenerations := by
  have hsynthesize := moves_synthesizeImeConsumedKeyPair careful c held
  unfold confirmHeldKey
  rcases hrecovered : c.synthesizeImeConsumedKeyPair held with ⟨pair, c₁⟩
  rw [hrecovered] at hsynthesize
  exact hsynthesize.trans (moves_finishRecovery careful { c₁ with
    input := onConfirmPreedit c₁.input hostExtId
      (recoveredMessages c₁.input hostExtId (some pair)) }
      guestSeat guestId held pair.isSome)

theorem moves_confirmText (careful : Prop) (c : KeyboardContext x)
    (hostExtId guestSeat guestId : ℕ) :
    Moves careful c.keyGenerations
      (c.confirmText hostExtId guestSeat guestId).keyGenerations := by
  unfold confirmText
  dsimp only
  split_ifs
  · exact moves_endBackspaceRepeatForTextInput careful
      { c with input := onConfirmPreedit c.input hostExtId [] } guestSeat guestId
  · exact .refl ..

theorem moves_onConfirmPreeditKeys (careful : Prop) (c : KeyboardContext x) (hostExtId : ℕ) :
    Moves careful c.keyGenerations (c.onConfirmPreeditKeys hostExtId).keyGenerations := by
  unfold onConfirmPreeditKeys
  split
  · exact .refl ..
  · split
    · exact .refl ..
    · split_ifs
      · split
        · exact moves_endBackspaceRepeatForTextInput ..
        · exact moves_confirmHeldKey ..
      · exact moves_confirmText ..

theorem moves_repeatAfterPreedit (careful : Prop) (c : KeyboardContext x) (guestId : ℕ)
    (state : TextInputState) (text commit : String) :
    Moves careful c.keyGenerations
      (c.repeatAfterPreedit guestId state text commit).keyGenerations := by
  unfold repeatAfterPreedit
  split
  · split_ifs
    · exact KeyGenerationRegistry.moves_armImeRepeat ..
    · exact moves_endBackspaceRepeatForTextInput ..
  · exact moves_endBackspaceRepeatForTextInput ..

theorem moves_endRepeatAfter (careful : Prop) (c : KeyboardContext x) (guestId : ℕ)
    (state : TextInputState) (queued : Bool) (m : InputMessage) :
    Moves careful c.keyGenerations (c.endRepeatAfter guestId state queued m).keyGenerations := by
  unfold endRepeatAfter
  split
  · exact moves_endBackspaceRepeatForTextInput ..
  · dsimp only
    split_ifs
    · exact moves_endBackspaceRepeatForTextInput ..
    · exact .refl ..
  · split_ifs
    · exact moves_repeatAfterPreedit ..
    · exact .refl ..
  · split_ifs
    · exact moves_endBackspaceRepeatForTextInput ..
    · exact .refl ..
  · split_ifs
    · exact moves_endBackspaceRepeatForTextInput ..
    · exact .refl ..
  · exact .refl ..

theorem moves_onText {m : InputMessage} (h : c.onText m = some c') :
    Moves careful c.keyGenerations c'.keyGenerations := by
  obtain ⟨input, -, rfl⟩ := Option.map_eq_some_iff.mp h
  split
  · exact .refl ..
  · split
    · exact .refl ..
    · exact moves_endRepeatAfter ..

/-! ### Sessions -/

/-- A step moves the generations; one that is guarded moves them carefully. -/
theorem moves_handle {o : ByteOrder} {m : KeyboardMessage} {action : Action}
    (hc : c.Sound careful) (hguarded : careful → c.guarded m = true)
    (h : c.handle o m = some (action, c')) :
    Moves careful c.keyGenerations c'.keyGenerations := by
  cases m with
  | keymap hostKeyboard format size mapping =>
    obtain rfl := congrArg Prod.snd (Option.some.inj h)
    exact moves_onKeymap hguarded
  | enter hostKeyboard hostSurface keys => exact moves_onEnter h
  | leave hostKeyboard hostSurface => exact moves_onLeave h
  | key hostKeyboard serial time key state =>
    obtain rfl := congrArg Prod.snd (Option.some.inj h)
    exact moves_onKey hguarded
  | modifiers hostKeyboard depressed latched locked group =>
    obtain rfl := congrArg Prod.snd (Option.some.inj h)
    unfold onModifiers
    dsimp only
    split <;> exact .refl ..
  | peekKey hostExtended serial time key state =>
    obtain rfl := congrArg Prod.snd (Option.some.inj h)
    exact moves_onPeekKey hc
  | keysym hostId serial time sym state =>
    obtain rfl := congrArg Prod.snd (Option.some.inj h)
    exact moves_onKeysym ..
  | confirmPreedit hostExtId =>
    obtain rfl := congrArg Prod.snd (Option.some.inj h)
    exact moves_onConfirmPreeditKeys ..
  | release guestKeyboard => exact moves_onRelease h
  | destroySurface guestSurface =>
    obtain ⟨c₁, h₁, h⟩ := Option.map_eq_some_iff.mp h
    obtain rfl := congrArg Prod.snd h
    exact moves_onSurfaceDestroy h₁
  | text message =>
    simp only [handle] at h
    split_ifs at h
    obtain ⟨c₁, h₁, h⟩ := Option.map_eq_some_iff.mp h
    obtain rfl := congrArg Prod.snd h
    exact moves_onText h₁
  | extension hostId =>
    obtain rfl := congrArg Prod.snd (Option.some.inj h)
    exact .refl ..

theorem sound_of_reachable {o : ByteOrder} {G : KeyboardContext x → KeyboardMessage → Prop}
    (hG : careful → ∀ c m, G c m → c.guarded m = true)
    (hc : (keyboardSystem o x).ReachableWhile G c) : c.Sound careful := by
  refine hc.invariant (fun c hinit => ?_) fun c m c' _ hsound hstep h => ?_
  · obtain ⟨accelerators, rfl⟩ := hinit
    intro keyboard key g hg
    cases hg
  · obtain ⟨⟨action, c₁⟩, hhandle, h⟩ := Option.bind_eq_some_iff.mp h
    dsimp only at h
    split_ifs at h
    obtain rfl := Option.some.inj h
    have hmoves := moves_handle hsound (fun hcareful => hG hcareful c m hstep) hhandle
    exact fun keyboard key g hg => hmoves.sound hsound hg

end KeyboardContext
end Sommelier
