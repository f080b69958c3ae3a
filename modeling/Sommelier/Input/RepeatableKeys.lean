import Sommelier.Input.KeyHistory

/-!
# Keys that repeat

Each keyboard has a list of the keys that repeat in its keymap, which is kept beside the keymap
and follows it in every session.

## Main definitions

* `KeyboardContext.keymapTables`: the keymaps and the lists.
* `KeyboardContext.RepeatsFollowKeymaps`: the invariant.
-/
namespace Sommelier

/-- The keys of the list, which are eight less than their keycodes, repeat in the keymap. -/
theorem Xkb.mem_repeatableEvdevKeycodes {x : Xkb} {keymap : x.Keymap} {key : ℕ}
    (h : key ∈ x.repeatableEvdevKeycodes keymap) : x.keyRepeats keymap (key + 8) = true := by
  simp only [repeatableEvdevKeycodes, keycodes, List.mem_map, List.mem_filter] at h
  obtain ⟨keycode, ⟨⟨-, hcode⟩, hrepeats⟩, rfl⟩ := h
  rwa [Nat.sub_add_cancel (by simpa using hcode)]

namespace KeyboardContext
variable {x : Xkb} {c c' : KeyboardContext x}

/-- The lists follow the keymaps. -/
def RepeatsFollowKeymaps (c : KeyboardContext x) : Prop :=
  ∀ hostKeyboard, c.keyboardRepeatableKeys.get hostKeyboard =
    (c.keymaps.get hostKeyboard).map x.repeatableEvdevKeycodes

/-- A keymap is dropped with its list. -/
theorem repeatsFollowKeymaps_clear (h : c.RepeatsFollowKeymaps) (hostKeyboard : ℕ) :
    (c.clearHostKeyboardKeymap hostKeyboard).RepeatsFollowKeymaps := by
  intro keyboard
  have hkeyboard := h keyboard
  simp only [clearHostKeyboardKeymap, Table.get_erase]
  split_ifs
  · rfl
  · exact hkeyboard

/-- A keymap is loaded with its list, after the previous one was dropped. -/
theorem repeatsFollowKeymaps_load (h : c.RepeatsFollowKeymaps) (hostKeyboard : ℕ)
    (keymap : x.Keymap) : (c.loadKeymap hostKeyboard keymap).RepeatsFollowKeymaps := by
  intro keyboard
  have hkeyboard := repeatsFollowKeymaps_clear h hostKeyboard keyboard
  simp only [loadKeymap, onKeys, Table.get_set]
  split_ifs
  · rfl
  · exact hkeyboard

/-! ## Handlers that load no keymap -/

/-- The keymaps and the lists of the keys that repeat. -/
def keymapTables (c : KeyboardContext x) : Table ℕ x.Keymap × Table ℕ (List ℕ) :=
  (c.keymaps, c.keyboardRepeatableKeys)

/-- The invariant is about the two tables alone. -/
theorem RepeatsFollowKeymaps.of_keymapTables (h : c.RepeatsFollowKeymaps)
    (hsame : c'.keymapTables = c.keymapTables) : c'.RepeatsFollowKeymaps := by
  obtain ⟨hkeymaps, hkeys⟩ := Prod.mk.inj hsame
  intro keyboard
  rw [hkeymaps, hkeys]
  exact h keyboard

theorem keymapTables_retireFocus (hostKeyboards : List ℕ) :
    (hostKeyboards.foldl retireFocusScopedKeyboardState c).keymapTables = c.keymapTables := by
  induction hostKeyboards generalizing c with
  | nil => rfl
  | cons hostKeyboard hostKeyboards ih => exact ih

/-- A keyboard that loses its focus keeps its keymap. -/
theorem keymapTables_applyFocusChanges {changes : List SeatFocusChange}
    (h : c.applyFocusChanges changes = some c') : c'.keymapTables = c.keymapTables := by
  unfold applyFocusChanges at h
  induction changes generalizing c with
  | nil => exact Option.some.inj h ▸ rfl
  | cons change changes ih =>
    rw [List.foldlM_cons, Option.bind_eq_bind, Option.bind_eq_some_iff] at h
    obtain ⟨c₁, h₁, h⟩ := h
    refine (ih h).trans ?_
    unfold applyFocusChange at h₁
    split_ifs at h₁
    · exact Option.some.inj h₁ ▸ rfl
    · obtain ⟨input, -, rfl⟩ := Option.map_eq_some_iff.mp h₁
      rfl

theorem keymapTables_ensureExtendedKeyboardBound {hostKeyboard : ℕ}
    (h : c.ensureExtendedKeyboardBound hostKeyboard = some c') :
    c'.keymapTables = c.keymapTables := by
  unfold ensureExtendedKeyboardBound at h
  split at h
  · obtain ⟨-, -, rfl⟩ := Option.map_eq_some_iff.mp h
    rfl
  · exact Option.some.inj h ▸ rfl

/-- The keys that are down at an enter go to the generations of the keys. -/
theorem keymapTables_onEnter {o : ByteOrder} {hostKeyboard hostSurface : ℕ}
    {keys : List UInt8} {action : Action}
    (h : c.onEnter o hostKeyboard hostSurface keys = some (action, c')) :
    c'.keymapTables = c.keymapTables := by
  unfold onEnter at h
  dsimp only at h
  split_ifs at h
  · exact (Prod.mk.inj (Option.some.inj h)).2 ▸ rfl
  · split at h
    · exact (Prod.mk.inj (Option.some.inj h)).2 ▸ rfl
    · split_ifs at h
      · exact (Prod.mk.inj (Option.some.inj h)).2 ▸ rfl
      · obtain ⟨c₁, h₁, h⟩ := Option.bind_eq_some_iff.mp h
        obtain ⟨c₂, h₂, h⟩ := Option.map_eq_some_iff.mp h
        obtain ⟨-, rfl⟩ := Prod.mk.inj h
        refine ((keymapTables_applyFocusChanges h₂).trans ?_).trans
          (keymapTables_ensureExtendedKeyboardBound h₁)
        exact keymapTables_retireFocus (c := { c₁ with input := { c₁.input with
          keyboardFocus := (c₁.input.keyboardFocus.enter hostKeyboard _).2 } }) _

theorem keymapTables_onLeave {hostKeyboard hostSurface : ℕ} {action : Action}
    (h : c.onLeave hostKeyboard hostSurface = some (action, c')) :
    c'.keymapTables = c.keymapTables := by
  unfold onLeave at h
  dsimp only at h
  split_ifs at h
  · exact (Prod.mk.inj (Option.some.inj h)).2 ▸ rfl
  all_goals
    obtain ⟨c₂, h₂, h⟩ := Option.map_eq_some_iff.mp h
    obtain ⟨-, rfl⟩ := Prod.mk.inj h
    refine (keymapTables_applyFocusChanges h₂).trans ?_
    exact keymapTables_retireFocus (c := { c with input := { c.input with
      keyboardFocus := (c.input.keyboardFocus.leave hostKeyboard hostSurface).2 } }) _

theorem keymapTables_onSurfaceDestroy {guestSurface : ℕ}
    (h : c.onSurfaceDestroy guestSurface = some c') : c'.keymapTables = c.keymapTables := by
  obtain ⟨c₁, h₁, h⟩ := Option.bind_eq_some_iff.mp h
  obtain ⟨input, -, rfl⟩ := Option.map_eq_some_iff.mp h
  have htables := keymapTables_applyFocusChanges h₁
  exact htables

theorem keymapTables_sendAckKey (hostKeyboard serial : ℕ) (handled : Bool) :
    (c.sendAckKey hostKeyboard serial handled).keymapTables = c.keymapTables := by
  unfold sendAckKey
  split <;> rfl

/-- A press may end a repeat and changes generations and queues. -/
theorem keymapTables_pressKey (hostKeyboard serial key : ℕ) (repeated imeRepeatActive : Bool) :
    (c.pressKey hostKeyboard serial key repeated imeRepeatActive).2.keymapTables =
      c.keymapTables := by
  obtain ⟨keys, hkeys⟩ := endBackspaceRepeat_eq c hostKeyboard key
  unfold pressKey finishKey
  simp only [hkeys, keymapTables_sendAckKey]
  split_ifs <;> rfl

theorem keymapTables_releaseKey (hostKeyboard serial key : ℕ) :
    (c.releaseKey hostKeyboard serial key).2.keymapTables = c.keymapTables := by
  obtain ⟨keys, hkeys⟩ := endBackspaceSession_eq { c with
    keyGenerations := (c.keyGenerations.physicalRelease hostKeyboard key).2 } hostKeyboard key
  unfold releaseKey finishKey
  simp only [KeyGenerationRegistry.transitionGuestKey, hkeys, keymapTables_sendAckKey]
  split_ifs <;> rfl

theorem keymapTables_onKey (hostKeyboard serial key state : ℕ) :
    (c.onKey hostKeyboard serial key state).2.keymapTables = c.keymapTables := by
  obtain ⟨keys, hkeys⟩ := observeKey_eq c hostKeyboard serial key state
  have hobserve : (c.observeKey hostKeyboard serial key state).keymapTables =
      c.keymapTables := by rw [hkeys]; rfl
  rcases c.onKey_cases hostKeyboard serial key state with ⟨-, -, heq⟩ | ⟨-, heq⟩ |
    ⟨-, -, _, heq⟩ | ⟨rfl, heq⟩ | ⟨-, heq⟩ <;> rw [heq]
  · exact keymapTables_sendAckKey ..
  · exact keymapTables_sendAckKey ..
  · exact (keymapTables_pressKey ..).trans hobserve
  · exact (keymapTables_releaseKey ..).trans hobserve
  · exact hobserve

/-! ### Peeked keys and text inputs -/

/-- A peeked key is recorded in the generations of its keyboard. -/
theorem keymapTables_onPeekKey (hostExtended serial time key state : ℕ) :
    (c.onPeekKey hostExtended serial time key state).keymapTables = c.keymapTables := by
  have hpeek : ∀ hostKeyboard, (c.notePeek hostKeyboard serial time key state).keymapTables =
      c.keymapTables := by
    intro hostKeyboard
    unfold notePeek peekPress
    dsimp only
    split_ifs
    all_goals first | rfl | split <;> rfl
  unfold onPeekKey
  split
  · rfl
  · rename_i hostKeyboard _
    split_ifs
    · unfold peekPressed
      dsimp only
      split_ifs
      · obtain ⟨keys, hkeys⟩ := endBackspaceRepeat_eq ((c.notePeek hostKeyboard serial time key
          state).onKeys fun keys => keys.observePhysicalEvent hostKeyboard key state (some serial))
            hostKeyboard key
        rw [hkeys]
        exact hpeek hostKeyboard
      · exact hpeek hostKeyboard
    · unfold peekReleased
      split_ifs
      · rfl
      · obtain ⟨keys, hkeys⟩ := endBackspaceSession_eq (c.onKeys fun keys =>
          keys.observePeekRelease hostKeyboard key serial) hostKeyboard key
        rw [hkeys]
        rfl
    · rfl

/-- A symbol is delivered as a key of a keyboard, whose keymap is only read. -/
theorem keymapTables_onKeysym (hostId serial time sym state : ℕ) :
    (c.onKeysym hostId serial time sym state).keymapTables = c.keymapTables := by
  unfold onKeysym
  split
  · rfl
  · split
    · rfl
    · split_ifs
      · split
        · rfl
        · unfold deliverKeysym sendKeysym
          dsimp only
          split_ifs <;> rfl
      · rfl

theorem keymapTables_onConfirmPreeditKeys (hostExtId : ℕ) :
    (c.onConfirmPreeditKeys hostExtId).keymapTables = c.keymapTables := by
  unfold onConfirmPreeditKeys
  split
  · rfl
  · split
    · rfl
    · split_ifs
      · split
        · rfl
        · unfold confirmHeldKey synthesizeImeConsumedKeyPair finishRecovery
          dsimp only
          split_ifs <;> rfl
      · unfold confirmText
        dsimp only
        split_ifs <;> rfl

theorem keymapTables_repeatAfterPreedit (guestId : ℕ) (state : TextInputState)
    (text commit : String) :
    (c.repeatAfterPreedit guestId state text commit).keymapTables = c.keymapTables := by
  unfold repeatAfterPreedit
  split
  · split_ifs <;> rfl
  · rfl

/-- A text input that ends a repeat of the backspace changes the generations of its keyboard.
-/
theorem keymapTables_endRepeatAfter (guestId : ℕ) (state : TextInputState) (queued : Bool)
    (m : InputMessage) :
    (c.endRepeatAfter guestId state queued m).keymapTables = c.keymapTables := by
  unfold endRepeatAfter
  split
  · rfl
  · dsimp only
    split_ifs <;> rfl
  · split_ifs
    · exact keymapTables_repeatAfterPreedit ..
    · rfl
  · split_ifs <;> rfl
  · split_ifs <;> rfl
  · rfl

theorem keymapTables_onText {m : InputMessage} (h : c.onText m = some c') :
    c'.keymapTables = c.keymapTables := by
  obtain ⟨input, -, rfl⟩ := Option.map_eq_some_iff.mp h
  split
  · rfl
  · split
    · rfl
    · exact keymapTables_endRepeatAfter ..

/-! ## Sessions -/

/-- Only a keymap event and the release of a keyboard change the tables. -/
theorem repeatsFollowKeymaps_handle {o : ByteOrder} {m : KeyboardMessage} {action : Action}
    (hc : c.RepeatsFollowKeymaps) (h : c.handle o m = some (action, c')) :
    c'.RepeatsFollowKeymaps := by
  cases m with
  | keymap hostKeyboard format size mapping =>
    obtain rfl := congrArg Prod.snd (Option.some.inj h)
    unfold onKeymap
    cases (parseKeymap format size mapping : Option x.Keymap) with
    | none => exact repeatsFollowKeymaps_clear hc hostKeyboard
    | some keymap => exact repeatsFollowKeymaps_load hc hostKeyboard keymap
  | release guestKeyboard =>
    unfold handle onRelease at h
    dsimp only at h
    split at h
    · obtain ⟨-, rfl⟩ := Prod.mk.inj (Option.some.inj h)
      split <;> exact hc
    · rename_i hostKeyboard _
      obtain ⟨c₁, h₁, h⟩ := Option.map_eq_some_iff.mp h
      obtain ⟨-, rfl⟩ := Prod.mk.inj h
      refine (repeatsFollowKeymaps_clear hc hostKeyboard).of_keymapTables
        ((keymapTables_applyFocusChanges h₁).trans ?_)
      unfold destroyExtendedKeyboard
      split <;> rfl
  | enter hostKeyboard hostSurface keys => exact hc.of_keymapTables (keymapTables_onEnter h)
  | leave hostKeyboard hostSurface => exact hc.of_keymapTables (keymapTables_onLeave h)
  | key hostKeyboard serial time key state =>
    obtain rfl := congrArg Prod.snd (Option.some.inj h)
    exact hc.of_keymapTables (keymapTables_onKey ..)
  | modifiers hostKeyboard depressed latched locked group =>
    obtain rfl := congrArg Prod.snd (Option.some.inj h)
    unfold onModifiers
    dsimp only
    split <;> exact hc
  | peekKey hostExtended serial time key state =>
    obtain rfl := congrArg Prod.snd (Option.some.inj h)
    exact hc.of_keymapTables (keymapTables_onPeekKey ..)
  | keysym hostId serial time sym state =>
    obtain rfl := congrArg Prod.snd (Option.some.inj h)
    exact hc.of_keymapTables (keymapTables_onKeysym ..)
  | confirmPreedit hostExtId =>
    obtain rfl := congrArg Prod.snd (Option.some.inj h)
    exact hc.of_keymapTables (keymapTables_onConfirmPreeditKeys ..)
  | destroySurface guestSurface =>
    obtain ⟨c₁, h₁, h⟩ := Option.map_eq_some_iff.mp h
    obtain rfl := congrArg Prod.snd h
    exact hc.of_keymapTables (keymapTables_onSurfaceDestroy h₁)
  | text message =>
    simp only [handle] at h
    split_ifs at h
    obtain ⟨c₁, h₁, h⟩ := Option.map_eq_some_iff.mp h
    obtain rfl := congrArg Prod.snd h
    exact hc.of_keymapTables (keymapTables_onText h₁)
  | extension hostId =>
    obtain rfl := congrArg Prod.snd (Option.some.inj h)
    exact hc

/-- A session starts without keymaps. -/
theorem repeatsFollowKeymaps_of_reachable {o : ByteOrder}
    (hc : (keyboardSystem o x).Reachable c) : c.RepeatsFollowKeymaps := by
  refine hc.invariant (fun c hinit => ?_) fun c m c' _ hfollow _ h => ?_
  · obtain ⟨accelerators, rfl⟩ := hinit
    exact fun _ => rfl
  · obtain ⟨⟨action, c₁⟩, hhandle, h⟩ := Option.bind_eq_some_iff.mp h
    dsimp only at h
    split_ifs at h
    obtain rfl := Option.some.inj h
    exact repeatsFollowKeymaps_handle hfollow hhandle

end KeyboardContext
end Sommelier
