import Sommelier.Accelerators
import Sommelier.Input.KeyAcks

/-!
# Keys the host keeps

A session takes its accelerators from the configuration once. A key is the host's exactly if an
entry of the text names its symbol and the modifiers that are active, neither more nor fewer, as
the last event of the modifiers left them.

## Main definitions

* `KeyboardContext.Configured`: an entry of the text is about the key as it is now.

## Main results

* `host_keys_configured`: which keys are the host's, and that it gets these.
-/
namespace Sommelier

/-! ## Masks -/

/-- The bits of the four modifiers. -/
def bitsOf (control alt shift logo : Bool) : ℕ :=
  control.toNat ||| alt.toNat * 2 ||| shift.toNat * 4 ||| logo.toNat * 8

/-- A modifier sets its own bit. -/
theorem bitsOf_or (modifier : Modifier) (control alt shift logo : Bool) :
    bitsOf control alt shift logo ||| modifier.mask =
      bitsOf (control || .control == modifier) (alt || .alt == modifier)
        (shift || .shift == modifier) (logo || .logo == modifier) := by
  revert control alt shift logo
  cases modifier <;> decide

/-- The bits tell which modifiers are active. -/
theorem bitsOf_inj : ∀ control alt shift logo control' alt' shift' logo' : Bool,
    bitsOf control alt shift logo = bitsOf control' alt' shift' logo' →
      control = control' ∧ alt = alt' ∧ shift = shift' ∧ logo = logo' := by
  decide

/-- A list of modifiers sets the bits of those it contains. -/
theorem foldl_mask (modifiers : List Modifier) (control alt shift logo : Bool) :
    modifiers.foldl (fun mask modifier => mask ||| modifier.mask) (bitsOf control alt shift logo) =
      bitsOf (control || modifiers.contains .control) (alt || modifiers.contains .alt)
        (shift || modifiers.contains .shift) (logo || modifiers.contains .logo) := by
  induction modifiers generalizing control alt shift logo with
  | nil => simp
  | cons modifier modifiers ih =>
    rw [List.foldl_cons, bitsOf_or, ih]
    simp only [List.contains_cons, Bool.or_assoc]

/-- Masks are equal if the same modifiers are in them. -/
theorem maskOf_eq_iff {modifiers modifiers' : List Modifier} :
    maskOf modifiers = maskOf modifiers' ↔ ∀ m, m ∈ modifiers ↔ m ∈ modifiers' := by
  have hmask : ∀ l : List Modifier, maskOf l = bitsOf (l.contains .control) (l.contains .alt)
      (l.contains .shift) (l.contains .logo) := by
    intro l
    have hfold := foldl_mask l false false false false
    simp only [Bool.false_or] at hfold
    exact hfold
  rw [hmask, hmask]
  constructor
  · intro h m
    obtain ⟨hcontrol, halt, hshift, hlogo⟩ := bitsOf_inj _ _ _ _ _ _ _ _ h
    simp only [← List.contains_iff_mem, ← Bool.eq_iff_iff]
    cases m with
    | control => exact hcontrol
    | alt => exact halt
    | shift => exact hshift
    | logo => exact hlogo
  · intro h
    have hcontains : ∀ m, modifiers.contains m = modifiers'.contains m := by
      intro m
      rw [Bool.eq_iff_iff, List.contains_iff_mem, List.contains_iff_mem, h m]
    simp only [hcontains]

/-- The active modifiers are collected as those of an accelerator. -/
theorem activeModifiers_eq (x : Xkb) (state : x.State) : x.activeModifiers state =
    maskOf ([Modifier.control, .alt, .shift, .logo].filter (x.modNameIsActive state)) := rfl

theorem mem_active {x : Xkb} {state : x.State} {m : Modifier} :
    m ∈ [Modifier.control, .alt, .shift, .logo].filter (x.modNameIsActive state) ↔
      x.modNameIsActive state m = true := by
  cases m <;> simp

namespace KeyboardContext
variable {x : Xkb} {c c' : KeyboardContext x}

/-! ## What the messages keep -/

/-- The modifiers of a keyboard are known from its state, or not known. -/
structure KnowsModifiers (accelerators : List Accelerator) (c : KeyboardContext x) : Prop where
  accelerators : c.accelerators = accelerators
  modifiers : ∀ k mask, c.modifiers.get k = some mask →
    ∃ state, c.states.get k = some state ∧ mask = x.activeModifiers state

/-- The keymaps of the keyboards and their states stay. -/
structure SameKeymaps (c c' : KeyboardContext x) : Prop where
  accelerators : c'.accelerators = c.accelerators
  states : c'.states = c.states
  modifiers : c'.modifiers = c.modifiers

variable {accelerators : List Accelerator}

/-- What is known of the modifiers depends on keymaps, states and modifiers alone. -/
theorem KnowsModifiers.of_same (hc : c.KnowsModifiers accelerators) (h : SameKeymaps c c') :
    c'.KnowsModifiers accelerators := by
  refine ⟨h.accelerators.trans hc.accelerators, fun k mask hmask => ?_⟩
  rw [h.states]
  exact hc.modifiers k mask (h.modifiers ▸ hmask)

theorem SameKeymaps.trans {c'' : KeyboardContext x} (h : SameKeymaps c c')
    (h' : SameKeymaps c' c'') : SameKeymaps c c'' :=
  ⟨h'.accelerators.trans h.accelerators, h'.states.trans h.states,
    h'.modifiers.trans h.modifiers⟩

theorem sameKeymaps_keys (c : KeyboardContext x) (keys : KeyGenerationRegistry) :
    SameKeymaps c { c with keyGenerations := keys } :=
  ⟨rfl, rfl, rfl⟩

/-- The modifiers of a reset keyboard are not known. -/
theorem KnowsModifiers.reset (hc : c.KnowsModifiers accelerators) (hostKeyboard : ℕ) :
    (c.resetHostKeyboardModifiers hostKeyboard).KnowsModifiers accelerators := by
  refine ⟨hc.accelerators, fun k mask hmask => ?_⟩
  simp only [resetHostKeyboardModifiers, Table.get_erase] at hmask ⊢
  split_ifs at hmask with hk
  obtain ⟨state, hstate, rfl⟩ := hc.modifiers k mask hmask
  exact ⟨state, by simp [hk, hstate], rfl⟩

/-- Keyboards that lose the focus are reset. -/
theorem KnowsModifiers.retireFocus (hc : c.KnowsModifiers accelerators) (hostKeyboards : List ℕ) :
    (hostKeyboards.foldl retireFocusScopedKeyboardState c).KnowsModifiers accelerators :=
  List.foldlRecOn (motive := fun c : KeyboardContext x => c.KnowsModifiers accelerators)
    hostKeyboards _ hc fun c hc k _ => (hc.of_same (sameKeymaps_keys c _)).reset k

/-- A keyboard without a keymap has no modifiers either. -/
theorem KnowsModifiers.clearKeymap (hc : c.KnowsModifiers accelerators) (hostKeyboard : ℕ) :
    (c.clearHostKeyboardKeymap hostKeyboard).KnowsModifiers accelerators := by
  refine ⟨hc.accelerators, fun k mask hmask => ?_⟩
  simp only [clearHostKeyboardKeymap, Table.get_erase] at hmask ⊢
  split_ifs at hmask with hk
  rw [if_neg hk]
  exact hc.modifiers k mask hmask

/-- A new keymap comes with a new state, whose modifiers are not known yet. -/
theorem KnowsModifiers.onKeymap (hc : c.KnowsModifiers accelerators)
    (hostKeyboard format size : ℕ) (mapping : Option (List UInt8)) :
    (c.onKeymap hostKeyboard format size mapping).2.KnowsModifiers accelerators := by
  have hclear := hc.clearKeymap hostKeyboard
  unfold KeyboardContext.onKeymap
  dsimp only
  split
  · exact hclear.of_same ⟨rfl, rfl, rfl⟩
  · refine ⟨hclear.accelerators, fun k mask hmask => ?_⟩
    have hne : k ≠ hostKeyboard := by
      rintro rfl
      simp [loadKeymap, onKeys, clearHostKeyboardKeymap] at hmask
    obtain ⟨state, hstate, rfl⟩ := hclear.modifiers k mask hmask
    refine ⟨state, ?_, rfl⟩
    simpa [loadKeymap, onKeys, hne] using hstate

/-- The modifiers are those of the state after the update. -/
theorem KnowsModifiers.onModifiers (hc : c.KnowsModifiers accelerators)
    (hostKeyboard depressed latched locked group : ℕ) :
    (c.onModifiers hostKeyboard depressed latched locked group).2.KnowsModifiers
      accelerators := by
  unfold KeyboardContext.onModifiers
  dsimp only
  split
  · refine ⟨hc.accelerators, fun k mask hmask => hc.modifiers k mask ?_⟩
    simp only [Table.get_erase] at hmask
    split_ifs at hmask
    exact hmask
  · refine ⟨hc.accelerators, fun k mask hmask => ?_⟩
    simp only [Table.get_set] at hmask ⊢
    split_ifs at hmask ⊢ with hk
    · exact ⟨_, rfl, (Option.some.inj hmask).symm⟩
    · exact hc.modifiers k mask hmask

/-! ### Focus -/

theorem sameKeymaps_applyFocusChanges {changes : List SeatFocusChange}
    (h : c.applyFocusChanges changes = some c') : SameKeymaps c c' := by
  unfold applyFocusChanges at h
  induction changes generalizing c with
  | nil => exact Option.some.inj h ▸ ⟨rfl, rfl, rfl⟩
  | cons change changes ih =>
    rw [List.foldlM_cons, Option.bind_eq_bind, Option.bind_eq_some_iff] at h
    obtain ⟨c₁, h₁, h⟩ := h
    refine SameKeymaps.trans ?_ (ih h)
    unfold applyFocusChange at h₁
    split_ifs at h₁
    · exact Option.some.inj h₁ ▸ ⟨rfl, rfl, rfl⟩
    · obtain ⟨input, -, rfl⟩ := Option.map_eq_some_iff.mp h₁
      exact ⟨rfl, rfl, rfl⟩

theorem sameKeymaps_ensureExtendedKeyboardBound {hostKeyboard : ℕ}
    (h : c.ensureExtendedKeyboardBound hostKeyboard = some c') : SameKeymaps c c' := by
  unfold ensureExtendedKeyboardBound at h
  split at h
  · obtain ⟨-, -, rfl⟩ := Option.map_eq_some_iff.mp h
    exact ⟨rfl, rfl, rfl⟩
  · exact Option.some.inj h ▸ ⟨rfl, rfl, rfl⟩

/-- A keyboard that enters a surface is reset, as are those that lose their focus by it. -/
theorem KnowsModifiers.onEnter (hc : c.KnowsModifiers accelerators) {o : ByteOrder}
    {hostKeyboard hostSurface : ℕ} {keys : List UInt8} {action : Action}
    (h : c.onEnter o hostKeyboard hostSurface keys = some (action, c')) :
    c'.KnowsModifiers accelerators := by
  have hdrop : ∀ {action' : Action}, some (action', c) = some (action, c') →
      c'.KnowsModifiers accelerators := by
    intro action' h
    exact (Prod.mk.inj (Option.some.inj h)).2 ▸ hc
  unfold KeyboardContext.onEnter at h
  dsimp only at h
  split_ifs at h
  · exact hdrop h
  · split at h
    · exact hdrop h
    · split_ifs at h
      · exact hdrop h
      · obtain ⟨c₁, h₁, h⟩ := Option.bind_eq_some_iff.mp h
        obtain ⟨c₂, h₂, h⟩ := Option.map_eq_some_iff.mp h
        obtain ⟨-, rfl⟩ := Prod.mk.inj h
        have hc₁ := hc.of_same (sameKeymaps_ensureExtendedKeyboardBound h₁)
        unfold enterFocus at h₂
        dsimp only at h₂
        refine KnowsModifiers.of_same (.reset ?_ hostKeyboard)
          (sameKeymaps_applyFocusChanges h₂)
        refine .of_same (.retireFocus ?_ _) (sameKeymaps_keys ..)
        exact hc₁.of_same ⟨rfl, rfl, rfl⟩

theorem KnowsModifiers.onLeave (hc : c.KnowsModifiers accelerators)
    {hostKeyboard hostSurface : ℕ} {action : Action}
    (h : c.onLeave hostKeyboard hostSurface = some (action, c')) :
    c'.KnowsModifiers accelerators := by
  unfold KeyboardContext.onLeave at h
  dsimp only at h
  split_ifs at h
  · exact (Prod.mk.inj (Option.some.inj h)).2 ▸ hc.of_same ⟨rfl, rfl, rfl⟩
  all_goals
    obtain ⟨c₂, h₂, h⟩ := Option.map_eq_some_iff.mp h
    obtain ⟨-, rfl⟩ := Prod.mk.inj h
    refine .of_same (.retireFocus ?_ _) (sameKeymaps_applyFocusChanges h₂)
    exact hc.of_same ⟨rfl, rfl, rfl⟩

theorem sameKeymaps_destroyExtendedKeyboard (c : KeyboardContext x) (hostKeyboard : ℕ) :
    SameKeymaps c (c.destroyExtendedKeyboard hostKeyboard) := by
  unfold destroyExtendedKeyboard
  split <;> exact ⟨rfl, rfl, rfl⟩

theorem KnowsModifiers.onRelease (hc : c.KnowsModifiers accelerators) {guestKeyboard : ℕ}
    {action : Action} (h : c.onRelease guestKeyboard = some (action, c')) :
    c'.KnowsModifiers accelerators := by
  unfold KeyboardContext.onRelease at h
  dsimp only at h
  split at h
  · obtain ⟨-, rfl⟩ := Prod.mk.inj (Option.some.inj h)
    split <;> exact hc.of_same ⟨rfl, rfl, rfl⟩
  · rename_i hostKeyboard _
    obtain ⟨c₁, h₁, h⟩ := Option.map_eq_some_iff.mp h
    obtain ⟨-, rfl⟩ := Prod.mk.inj h
    refine .of_same ?_ (sameKeymaps_applyFocusChanges h₁)
    refine .of_same ?_ (sameKeymaps_destroyExtendedKeyboard ..)
    exact (hc.clearKeymap hostKeyboard).of_same ⟨rfl, rfl, rfl⟩

theorem sameKeymaps_onSurfaceDestroy {guestSurface : ℕ}
    (h : c.onSurfaceDestroy guestSurface = some c') : SameKeymaps c c' := by
  unfold onSurfaceDestroy at h
  obtain ⟨c₁, h₁, h⟩ := Option.bind_eq_some_iff.mp h
  obtain ⟨input, -, rfl⟩ := Option.map_eq_some_iff.mp h
  have hsame := sameKeymaps_applyFocusChanges h₁
  exact ⟨hsame.accelerators, hsame.states, hsame.modifiers⟩

/-! ### Keys -/

theorem sameKeymaps_sendAckKey (c : KeyboardContext x) (hostKeyboard serial : ℕ)
    (handled : Bool) : SameKeymaps c (c.sendAckKey hostKeyboard serial handled) := by
  unfold sendAckKey
  split <;> exact ⟨rfl, rfl, rfl⟩

theorem sameKeymaps_finishKey (c : KeyboardContext x) (keys : KeyGenerationRegistry)
    (hostKeyboard serial : ℕ) (decision : GuestKeyDecision) :
    SameKeymaps c ({ c with keyGenerations := keys }.finishKey hostKeyboard serial decision).2 :=
  (sameKeymaps_keys c keys).trans (sameKeymaps_sendAckKey ..)

/-- A key asks the keymap and changes only generations and queues. -/
theorem sameKeymaps_onKey (c : KeyboardContext x) (hostKeyboard serial key state : ℕ) :
    SameKeymaps c (c.onKey hostKeyboard serial key state).2 := by
  obtain ⟨keys, hkeys⟩ := observeKey_eq c hostKeyboard serial key state
  have hobserve : SameKeymaps c (c.observeKey hostKeyboard serial key state) :=
    hkeys ▸ sameKeymaps_keys c keys
  rcases c.onKey_cases hostKeyboard serial key state with ⟨-, -, heq⟩ | ⟨-, heq⟩ |
    ⟨-, -, imeRepeatActive, heq⟩ | ⟨rfl, heq⟩ | ⟨-, heq⟩ <;> rw [heq]
  · exact (sameKeymaps_keys c _).trans (sameKeymaps_sendAckKey ..)
  · exact sameKeymaps_sendAckKey ..
  · refine hobserve.trans ?_
    generalize c.observeKey hostKeyboard serial key state = c₁
    obtain ⟨keys, hkeys⟩ := endBackspaceRepeat_eq c₁ hostKeyboard key
    unfold pressKey
    rw [hkeys]
    dsimp only
    cases KeyboardContext.isHostAccelerator _ hostKeyboard key <;>
      exact sameKeymaps_finishKey c₁ ..
  · refine hobserve.trans ?_
    generalize c.observeKey hostKeyboard serial key 0 = c₁
    unfold releaseKey
    dsimp only
    split_ifs
    · obtain ⟨keys, hkeys⟩ := endBackspaceSession_eq { c₁ with keyGenerations :=
        (c₁.keyGenerations.transitionGuestKey hostKeyboard key .physicalRelease).2 }
        hostKeyboard key
      rw [hkeys]
      exact sameKeymaps_finishKey c₁ ..
    · exact sameKeymaps_finishKey c₁ ..
  · exact hobserve

/-- A peeked key changes the generations of its keyboard. -/
theorem sameKeymaps_onPeekKey (c : KeyboardContext x) (hostExtended serial time key state : ℕ) :
    SameKeymaps c (c.onPeekKey hostExtended serial time key state) := by
  unfold onPeekKey
  split
  · exact ⟨rfl, rfl, rfl⟩
  · rename_i hostKeyboard _
    have hnote : SameKeymaps c (c.notePeek hostKeyboard serial time key state) := by
      unfold notePeek peekPress
      dsimp only
      split_ifs
      · split <;> exact ⟨rfl, rfl, rfl⟩
      · split <;> exact ⟨rfl, rfl, rfl⟩
      · exact ⟨rfl, rfl, rfl⟩
    split_ifs
    · refine hnote.trans ?_
      unfold peekPressed
      generalize c.notePeek hostKeyboard serial time key state = c₁
      dsimp only
      split_ifs
      · obtain ⟨keys, hkeys⟩ := endBackspaceRepeat_eq (c₁.onKeys fun keys =>
          keys.observePhysicalEvent hostKeyboard key state (some serial)) hostKeyboard key
        rw [hkeys]
        exact ⟨rfl, rfl, rfl⟩
      · exact ⟨rfl, rfl, rfl⟩
    · unfold peekReleased
      split_ifs
      · exact ⟨rfl, rfl, rfl⟩
      · obtain ⟨keys, hkeys⟩ := endBackspaceSession_eq (c.onKeys fun keys =>
          keys.observePeekRelease hostKeyboard key serial) hostKeyboard key
        rw [hkeys]
        exact ⟨rfl, rfl, rfl⟩
    · exact ⟨rfl, rfl, rfl⟩

/-! ### Text inputs -/

theorem sameKeymaps_onKeysym (c : KeyboardContext x) (hostId serial time sym state : ℕ) :
    SameKeymaps c (c.onKeysym hostId serial time sym state) := by
  unfold onKeysym
  split
  · exact ⟨rfl, rfl, rfl⟩
  · split
    · exact ⟨rfl, rfl, rfl⟩
    · split_ifs
      · split
        · exact ⟨rfl, rfl, rfl⟩
        · unfold deliverKeysym sendKeysym
          dsimp only
          split_ifs <;> exact ⟨rfl, rfl, rfl⟩
      · exact ⟨rfl, rfl, rfl⟩

theorem sameKeymaps_finishRecovery (c : KeyboardContext x) (guestSeat guestTextInput : ℕ)
    (held : HeldRepeatKey) (recovered : Bool) :
    SameKeymaps c (c.finishRecovery guestSeat guestTextInput held recovered) := by
  unfold finishRecovery
  split_ifs <;> exact ⟨rfl, rfl, rfl⟩

theorem sameKeymaps_onConfirmPreeditKeys (c : KeyboardContext x) (hostExtId : ℕ) :
    SameKeymaps c (c.onConfirmPreeditKeys hostExtId) := by
  unfold onConfirmPreeditKeys
  split
  · exact ⟨rfl, rfl, rfl⟩
  · split
    · exact ⟨rfl, rfl, rfl⟩
    · split_ifs
      · split
        · exact ⟨rfl, rfl, rfl⟩
        · rename_i held _
          unfold confirmHeldKey
          have hpair : SameKeymaps c (c.synthesizeImeConsumedKeyPair held).2 := by
            unfold synthesizeImeConsumedKeyPair
            dsimp only
            split_ifs <;> exact ⟨rfl, rfl, rfl⟩
          rcases hrecovered : c.synthesizeImeConsumedKeyPair held with ⟨pair, c₁⟩
          rw [hrecovered] at hpair
          refine hpair.trans (SameKeymaps.trans ?_ (sameKeymaps_finishRecovery ..))
          exact ⟨rfl, rfl, rfl⟩
      · unfold confirmText
        dsimp only
        split_ifs <;> exact ⟨rfl, rfl, rfl⟩

theorem sameKeymaps_endRepeatAfter (c : KeyboardContext x) (guestId : ℕ)
    (state : TextInputState) (queued : Bool) (m : InputMessage) :
    SameKeymaps c (c.endRepeatAfter guestId state queued m) := by
  unfold endRepeatAfter
  split
  · exact ⟨rfl, rfl, rfl⟩
  · dsimp only
    split_ifs <;> exact ⟨rfl, rfl, rfl⟩
  · unfold repeatAfterPreedit
    split_ifs
    · split <;> exact ⟨rfl, rfl, rfl⟩
    · split <;> exact ⟨rfl, rfl, rfl⟩
    · exact ⟨rfl, rfl, rfl⟩
  · split_ifs <;> exact ⟨rfl, rfl, rfl⟩
  · split_ifs <;> exact ⟨rfl, rfl, rfl⟩
  · exact ⟨rfl, rfl, rfl⟩

/-- A text input may end a repeat, which is about generations. -/
theorem sameKeymaps_onText {m : InputMessage} (h : c.onText m = some c') : SameKeymaps c c' := by
  obtain ⟨input, -, rfl⟩ := Option.map_eq_some_iff.mp h
  split
  · exact ⟨rfl, rfl, rfl⟩
  · split
    · exact ⟨rfl, rfl, rfl⟩
    · obtain ⟨haccelerators, hstates, hmodifiers⟩ := sameKeymaps_endRepeatAfter c ..
      exact ⟨haccelerators, hstates, hmodifiers⟩

/-! ### Sessions -/

/-- Modifiers change with a keymap, a modifiers event, a focus change or a release only. -/
theorem KnowsModifiers.handle (hc : c.KnowsModifiers accelerators) {o : ByteOrder}
    {m : KeyboardMessage} {action : Action} (h : c.handle o m = some (action, c')) :
    c'.KnowsModifiers accelerators := by
  cases m with
  | keymap hostKeyboard format size mapping =>
    obtain rfl := congrArg Prod.snd (Option.some.inj h)
    exact hc.onKeymap ..
  | enter hostKeyboard hostSurface keys => exact hc.onEnter h
  | leave hostKeyboard hostSurface => exact hc.onLeave h
  | key hostKeyboard serial time key state =>
    obtain rfl := congrArg Prod.snd (Option.some.inj h)
    exact hc.of_same (sameKeymaps_onKey ..)
  | modifiers hostKeyboard depressed latched locked group =>
    obtain rfl := congrArg Prod.snd (Option.some.inj h)
    exact hc.onModifiers ..
  | peekKey hostExtended serial time key state =>
    obtain rfl := congrArg Prod.snd (Option.some.inj h)
    exact hc.of_same (sameKeymaps_onPeekKey ..)
  | keysym hostId serial time sym state =>
    obtain rfl := congrArg Prod.snd (Option.some.inj h)
    exact hc.of_same (sameKeymaps_onKeysym ..)
  | confirmPreedit hostExtId =>
    obtain rfl := congrArg Prod.snd (Option.some.inj h)
    exact hc.of_same (sameKeymaps_onConfirmPreeditKeys ..)
  | release guestKeyboard => exact hc.onRelease h
  | destroySurface guestSurface =>
    obtain ⟨c₁, h₁, h⟩ := Option.map_eq_some_iff.mp h
    obtain rfl := congrArg Prod.snd h
    exact hc.of_same (sameKeymaps_onSurfaceDestroy h₁)
  | text message =>
    simp only [KeyboardContext.handle] at h
    split_ifs at h
    obtain ⟨c₁, h₁, h⟩ := Option.map_eq_some_iff.mp h
    obtain rfl := congrArg Prod.snd h
    exact hc.of_same (sameKeymaps_onText h₁)
  | extension hostId =>
    obtain rfl := congrArg Prod.snd (Option.some.inj h)
    exact hc.of_same ⟨rfl, rfl, rfl⟩

/-- The entry of the text is about the key with the modifiers that are active. -/
def Configured (keysymFromName : List Char → ℕ) (text : List Char) (c : KeyboardContext x)
    (hostKeyboard key : ℕ) : Prop :=
  ∃ state, c.states.get hostKeyboard = some state ∧ key + 8 < 2 ^ 32 ∧
    x.keyGetOneSym state (key + 8) ≠ 0 ∧
    ∃ entry ∈ entries text, ∃ modifiers name, Names keysymFromName entry modifiers name ∧
      x.keysymToLower (x.keyGetOneSym state (key + 8)) = x.keysymToLower (keysymFromName name) ∧
      ∀ m, m ∈ modifiers ↔
        (c.modifiers.get hostKeyboard).isSome = true ∧ x.modNameIsActive state m = true

end KeyboardContext

/-- Sessions with the accelerators of a configuration. -/
def configuredSystem (o : ByteOrder) (x : Xkb) (keysymFromName : List Char → ℕ)
    (text : List Char) : TransitionSystem (KeyboardContext x) KeyboardMessage :=
  { keyboardSystem o x with
    init c := c = .new x (configuredAccelerators keysymFromName x.keysymToLower text) }

namespace KeyboardContext
variable {x : Xkb} {c : KeyboardContext x} {o : ByteOrder} {keysymFromName : List Char → ℕ}
  {text : List Char}

theorem knowsModifiers_of_reachable
    (hc : (configuredSystem o x keysymFromName text).Reachable c) :
    c.KnowsModifiers (configuredAccelerators keysymFromName x.keysymToLower text) := by
  refine hc.invariant (fun c hinit => ?_) fun c m c' _ hknows _ h => ?_
  · subst hinit
    exact ⟨rfl, fun k mask hmask => by simp [new] at hmask⟩
  · obtain ⟨⟨action, c₁⟩, hhandle, h⟩ := Option.bind_eq_some_iff.mp h
    dsimp only at h
    split_ifs at h
    obtain rfl := Option.some.inj h
    exact hknows.handle hhandle

/-- Lists that are related element by element have a partner for each element. -/
theorem exists_of_forall₂ {α β : Type} {R : α → β → Prop} {l : List α} {m : List β}
    (h : List.Forall₂ R l m) : (∀ a ∈ l, ∃ b ∈ m, R a b) ∧ ∀ b ∈ m, ∃ a ∈ l, R a b := by
  induction h with
  | nil => exact ⟨nofun, nofun⟩
  | cons hab _ ih =>
    simp only [List.forall_mem_cons, List.exists_mem_cons_iff]
    exact ⟨⟨.inl hab, fun a ha => .inr (ih.1 a ha)⟩, .inl hab, fun b hb => .inr (ih.2 b hb)⟩

/-- An entry spells one accelerator. -/
theorem spells_unique {keysymToLower : ℕ → ℕ} {entry : List Char}
    {accelerator accelerator' : Accelerator}
    (h : Spells keysymFromName keysymToLower entry accelerator)
    (h' : Spells keysymFromName keysymToLower entry accelerator') : accelerator = accelerator' :=
  Except.ok.inj ((parseAccelerator_spells h).symm.trans (parseAccelerator_spells h'))

/-- The accelerators of a text are those of its entries, if all of them are accelerators. -/
theorem mem_configuredAccelerators {keysymToLower : ℕ → ℕ} {accelerator : Accelerator} :
    accelerator ∈ configuredAccelerators keysymFromName keysymToLower text ↔
      (∀ entry ∈ entries text, ∃ accelerator, Spells keysymFromName keysymToLower entry
        accelerator) ∧
      ∃ entry ∈ entries text, Spells keysymFromName keysymToLower entry accelerator := by
  unfold configuredAccelerators
  cases hparse : parseAccelerators keysymFromName keysymToLower text with
  | ok accelerators =>
    obtain ⟨hentries, haccelerators⟩ := exists_of_forall₂ (parseAccelerators_ok.mp hparse)
    constructor
    · intro hmem
      refine ⟨fun entry hentry => ?_, haccelerators _ hmem⟩
      obtain ⟨accelerator', -, hspells⟩ := hentries entry hentry
      exact ⟨accelerator', hspells⟩
    · rintro ⟨-, entry, hentry, hspells⟩
      obtain ⟨accelerator', hmem, hspells'⟩ := hentries entry hentry
      exact spells_unique hspells hspells' ▸ hmem
  | error e =>
    refine iff_of_false List.not_mem_nil ?_
    rintro ⟨hall, -⟩
    obtain ⟨first, entry, rest, hsplit, -, hfaulty⟩ := parseTokens_error.mp hparse
    obtain ⟨accelerator', hspells⟩ := hall entry (by
      rw [entries, hsplit]
      simp)
    have hok := parseAccelerator_spells hspells
    rw [parseAccelerator_faulty hfaulty] at hok
    cases hok

/-- The mask of the active modifiers is that of a list if these are the active ones. -/
theorem KnowsModifiers.mask_eq_iff {accelerators : List Accelerator} {hostKeyboard : ℕ}
    {state : x.State} (hc : c.KnowsModifiers accelerators)
    (hstate : c.states.get hostKeyboard = some state) (modifiers : List Modifier) :
    (c.modifiers.get hostKeyboard).getD 0 = maskOf modifiers ↔ ∀ m, m ∈ modifiers ↔
      (c.modifiers.get hostKeyboard).isSome = true ∧ x.modNameIsActive state m = true := by
  cases hmask : c.modifiers.get hostKeyboard with
  | none =>
    rw [Option.getD_none, show (0 : ℕ) = maskOf [] from rfl, maskOf_eq_iff]
    simp [iff_comm]
  | some mask =>
    obtain ⟨state', hstate', rfl⟩ := hc.modifiers hostKeyboard mask hmask
    obtain rfl := Option.some.inj (hstate.symm.trans hstate')
    rw [Option.getD_some, activeModifiers_eq, maskOf_eq_iff]
    simp only [mem_active, Option.isSome_some, true_and]
    exact forall_congr' fun m => iff_comm

/-- A key is an accelerator when the modifiers and its symbol in lower case are those of one.
-/
theorem isHostAccelerator_iff {hostKeyboard key : ℕ} : c.isHostAccelerator hostKeyboard key = true ↔
    ∃ state, c.states.get hostKeyboard = some state ∧ key + 8 < 2 ^ 32 ∧
      x.keyGetOneSym state (key + 8) ≠ 0 ∧ ∃ accelerator ∈ c.accelerators,
        (c.modifiers.get hostKeyboard).getD 0 = accelerator.modifiers ∧
        x.keysymToLower (x.keyGetOneSym state (key + 8)) = accelerator.symbol := by
  unfold isHostAccelerator
  cases hstate : c.states.get hostKeyboard with
  | none => simp
  | some state => simp [and_assoc]

/-- A press of an accelerator does not reach the guest. -/
theorem pressKey_accelerator {hostKeyboard key : ℕ}
    (h : c.isHostAccelerator hostKeyboard key = true) (serial : ℕ)
    (repeated imeRepeatActive : Bool) :
    (c.pressKey hostKeyboard serial key repeated imeRepeatActive).1 = .drop := by
  have haccelerator := isHostAccelerator_endBackspaceRepeat c hostKeyboard key
  rw [h] at haccelerator
  unfold pressKey
  simp only [haccelerator, if_true]
  obtain ⟨-, hforward, hdecided⟩ := KeyGenerationRegistry.ack_physicalPress
    ((c.endBackspaceRepeat hostKeyboard key).keyGenerations.invalidatePeek hostKeyboard key)
    hostKeyboard key repeated true imeRepeatActive
  -- A press the guest gets is a handled one, and this one is not.
  refine if_neg fun hdelivery => ?_
  have hhandled := (hforward hdelivery).symm.trans (hdecided (.inl rfl))
  cases hhandled

/-- What becomes of presses and repeats of an accelerator. -/
theorem onKey_accelerator {hostKeyboard key state : ℕ}
    (h : c.isHostAccelerator hostKeyboard key = true) (serial : ℕ)
    (hstate : state = 1 ∨ state = 2) :
    (c.onKey hostKeyboard serial key state).1 = .drop ∧
      ∀ hostExtended, c.keyboardToExtendedKeyboard.get hostKeyboard = some hostExtended →
        c.Acknowledges hostExtended serial false (c.onKey hostKeyboard serial key state) := by
  have hobserved := isHostAccelerator_observeKey c hostKeyboard serial key state
  rw [h] at hobserved
  rcases c.onKey_cases hostKeyboard serial key state with ⟨hzero, -⟩ | ⟨-, heq⟩ |
    ⟨-, -, imeRepeatActive, heq⟩ | ⟨hzero, -⟩ | ⟨hlarge, -⟩
  · omega
  · rw [heq]
    exact ⟨rfl, fun hostExtended hext => acknowledges_sendAckKey hext c.keyGenerations ..⟩
  · rw [heq]
    refine ⟨pressKey_accelerator hobserved .., fun hostExtended hext => ?_⟩
    obtain ⟨keys, hkeys⟩ := observeKey_eq c hostKeyboard serial key state
    have hext' : (c.observeKey hostKeyboard serial key state).keyboardToExtendedKeyboard.get
        hostKeyboard = some hostExtended := by rwa [hkeys]
    obtain ⟨handled, hack, -, hdecided⟩ := acknowledged_pressKey serial key (state == 2)
      imeRepeatActive hext'
    obtain rfl := hdecided (.inl hobserved)
    simpa only [Acknowledges, hkeys] using hack
  · omega
  · omega

end KeyboardContext

open KeyboardContext

/-- In a session with a configuration, a key is the host's exactly if the text is well-formed and
one of its entries is about it. Presses and repeats of such a key do not reach the guest. Where
the keyboard has its extension object, the host is told over it to act on them. -/
theorem host_keys_configured {x : Xkb} {c : KeyboardContext x} {o : ByteOrder}
    {keysymFromName : List Char → ℕ} {text : List Char}
    (hc : (configuredSystem o x keysymFromName text).Reachable c) (hostKeyboard key : ℕ) :
    (c.isHostAccelerator hostKeyboard key = true ↔
      (∀ entry ∈ entries text, ∃ modifiers name, Names keysymFromName entry modifiers name) ∧
        c.Configured keysymFromName text hostKeyboard key) ∧
    (c.isHostAccelerator hostKeyboard key = true → ∀ serial state, state = 1 ∨ state = 2 →
      (c.onKey hostKeyboard serial key state).1 = .drop ∧
      ∀ hostExtended, c.keyboardToExtendedKeyboard.get hostKeyboard = some hostExtended →
        c.Acknowledges hostExtended serial false (c.onKey hostKeyboard serial key state)) := by
  have hknows := knowsModifiers_of_reachable hc
  constructor
  · rw [isHostAccelerator_iff, hknows.accelerators]
    constructor
    · rintro ⟨state, hstate, hkey, hsym, accelerator, hmem, hmask, hlower⟩
      obtain ⟨hall, entry, hentry, modifiers, name, hnames, rfl⟩ :=
        mem_configuredAccelerators.mp hmem
      refine ⟨fun entry hentry => ?_, state, hstate, hkey, hsym, entry, hentry, modifiers, name,
        hnames, hlower, (hknows.mask_eq_iff hstate modifiers).mp hmask⟩
      obtain ⟨-, modifiers, name, hnames, -⟩ := hall entry hentry
      exact ⟨modifiers, name, hnames⟩
    · rintro ⟨hall, state, hstate, hkey, hsym, entry, hentry, modifiers, name, hnames, hlower,
        hactive⟩
      refine ⟨state, hstate, hkey, hsym, ⟨maskOf modifiers, _⟩,
        mem_configuredAccelerators.mpr ⟨fun entry hentry => ?_, entry, hentry, modifiers, name,
          hnames, rfl⟩, (hknows.mask_eq_iff hstate modifiers).mpr hactive, hlower⟩
      obtain ⟨modifiers, name, hnames⟩ := hall entry hentry
      exact ⟨_, modifiers, name, hnames, rfl⟩
  · intro haccelerator serial state hstate
    exact onKey_accelerator haccelerator serial hstate

/-- The one key has a name. -/
def oneKeyNamed (name : List Char) : ℕ := if name = ['a'] then 0x61 else 0

def controlText : List Char := [' ', '<', 'C', 't', 'r', 'L', '>', 'a', ',']

theorem configured_controlText :
    configuredAccelerators oneKeyNamed oneKey.keysymToLower controlText = [⟨1, 0x61⟩] := by
  have hentries : entries controlText = [[' ', '<', 'C', 't', 'r', 'L', '>', 'a']] := by
    decide +kernel
  have htrim : trim [' ', '<', 'C', 't', 'r', 'L', '>', 'a'] =
      ['<', 'C', 't', 'r', 'L', '>', 'a'] := by decide +kernel
  have hcore : Padded [' ', '<', 'C', 't', 'r', 'L', '>', 'a']
      ['<', 'C', 't', 'r', 'L', '>', 'a'] := htrim ▸ trim_padded _
  have hspells : Spells oneKeyNamed oneKey.keysymToLower [' ', '<', 'C', 't', 'r', 'L', '>', 'a']
      ⟨1, 0x61⟩ := by
    refine ⟨[.control], ['a'], ⟨['<', 'C', 't', 'r', 'L', '>', 'a'], hcore,
      @Tagged.tag ['C', 't', 'r', 'L'] _ _ _ _ (by simp) (by decide +kernel) (.done _),
      by simp, by simp, by decide⟩, rfl⟩
  have hparse : parseAccelerators oneKeyNamed oneKey.keysymToLower controlText =
      .ok [⟨1, 0x61⟩] := by
    rw [parseAccelerators_ok, hentries]
    exact .cons hspells .nil
  rw [configuredAccelerators, hparse]

theorem host_keys_configured_control :
    ∃ c, (configuredSystem .little oneKey oneKeyNamed controlText).run
        (.new oneKey (configuredAccelerators oneKeyNamed oneKey.keysymToLower controlText))
        (keyboardReady ++ [.modifiers 50 1 0 0 0]) = some c ∧
      (c.onKey 50 7 30 1).1 = .drop ∧ c.Acknowledges 2 7 false (c.onKey 50 7 30 1) := by
  have hrun : ((configuredSystem .little oneKey oneKeyNamed controlText).run
      (.new oneKey [⟨1, 0x61⟩]) (keyboardReady ++ [.modifiers 50 1 0 0 0])).map
        (fun c => (c.keyboardToExtendedKeyboard.get 50, c.isHostAccelerator 50 30)) =
      some (some 2, true) := by decide +kernel
  rw [← configured_controlText] at hrun
  obtain ⟨c, hc, heq⟩ := Option.map_eq_some_iff.mp hrun
  obtain ⟨hext, haccelerator⟩ := Prod.mk.inj heq
  obtain ⟨hdrop, hack⟩ := (host_keys_configured (.run (.init rfl) hc) 50 30).2 haccelerator 7 1
    (.inl rfl)
  exact ⟨c, hc, hdrop, hack 2 hext⟩

end Sommelier
