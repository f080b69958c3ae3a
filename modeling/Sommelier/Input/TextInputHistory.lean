import Sommelier.Input.TextInputs

/-!
# The history of a text input

In a session each text input is only ever changed in a few ways, one for each handler that
touches it. What these keep, every text input of a session has.

## Main definitions

* `TextInputState.Moves`: the ways a text input changes.
* `TextInputState.Reached`: the states a text input can come to.
* `reached_of_reachable`: the text inputs of a session have reached their states so.
-/
namespace Sommelier

/-- A surrounding text with its cursor and anchor between characters. -/
def ValidSurrounding : String × ℤ × ℤ → Prop
  | (text, cursor, anchor) => 0 ≤ cursor ∧ 0 ≤ anchor ∧
    isCharBoundary text cursor.toNat = true ∧ isCharBoundary text anchor.toNat = true

namespace TextInputState

/-- One change of a text input by a handler. -/
inductive Moves : TextInputState → TextInputState → Prop
  | activation (s : TextInputState) (hostActivation : HostActivationState) :
    Moves s { s with hostActivation }
  | focus (s : TextInputState) (surface : Option ℕ) : Moves s (s.applyFocus surface)
  | destroy (s : TextInputState) : Moves s s.beginDestroy
  | enabled (s : TextInputState) (enabled : Bool) : Moves s (s.beginEnabledTransaction enabled)
  | surroundingText (s : TextInputState) (text : String) (cursor anchor : ℤ)
    (h : ValidSurrounding (text, cursor, anchor)) :
    Moves s (s.setSurroundingText text cursor anchor)
  | textChangeCause (s : TextInputState) (cause : ℕ) : Moves s (s.setTextChangeCause cause)
  | contentType (s : TextInputState) (hint purpose : ℕ) : Moves s (s.setContentType hint purpose)
  | cursorRect (s : TextInputState) (rect : ℤ × ℤ × ℤ × ℤ) : Moves s (s.setCursorRect rect)
  | commit (s : TextInputState) (enableConflict : Bool) :
    Moves s (s.finishGuestCommit (s.prepareGuestCommit enableConflict))
  | preeditSelection (s : TextInputState) (index length : ℕ) :
    Moves s (s.recordPreeditSelection index length)
  | preeditCursor (s : TextInputState) (index : ℤ) : Moves s (s.recordPreeditCursor index)
  | cursorPosition (s : TextInputState) (index anchor : ℤ) :
    Moves s (s.recordCursorPosition index anchor)
  | delete (s : TextInputState) (before after : ℕ) : Moves s (s.recordDelete before after)
  | preedit (s : TextInputState) (text : String) : Moves s (s.finishPreedit text)
  | hostCommit (s : TextInputState) : Moves s s.clearHostComposition

/-- The states a text input can come to. -/
inductive Reached : TextInputState → Prop
  | new (hostV1Id : ℕ) (hostExtId : Option ℕ) (guestSeat : ℕ) (activeSurface : Option ℕ) :
    Reached (.new hostV1Id hostExtId guestSeat activeSurface)
  | moves {s s' : TextInputState} (hs : Reached s) (h : Moves s s') : Reached s'

/-- A move of the activation that is not allowed leaves the state as it is. -/
theorem Reached.moveActivation {s : TextInputState} (hs : Reached s)
    (source target : HostActivationState) : Reached ((s.moveActivation source target).getD s) := by
  unfold TextInputState.moveActivation
  split_ifs
  · exact hs.moves (.activation s target)
  · exact hs

end TextInputState

open TextInputState

namespace InputContext

/-- All text inputs have reached their states. -/
def History (c : InputContext) : Prop := ∀ i s, c.textInputs.get i = some s → Reached s

variable {c c' : InputContext} {i : ℕ}

/-- A step of one text input. -/
theorem History.onTextInput {f : TextInputState → TextInputState} (hc : c.History) (i : ℕ)
    (hf : ∀ s, Reached s → Reached (f s)) : (c.onTextInput i f).History := by
  intro j s hs
  simp only [InputContext.onTextInput, Table.get_modify] at hs
  split_ifs at hs
  · obtain ⟨s₀, hs₀, rfl⟩ := Option.map_eq_some_iff.mp hs
    exact hf s₀ (hc j s₀ hs₀)
  · exact hc j s hs

/-- The same for a move. -/
theorem History.moves {f : TextInputState → TextInputState} (hc : c.History) (i : ℕ)
    (hf : ∀ s, Moves s (f s)) : (c.onTextInput i f).History :=
  hc.onTextInput i fun s hs => hs.moves (hf s)

/-- A text input is written back, or a new one is stored. -/
theorem History.set {s : TextInputState} (hc : c.History) (i : ℕ) (hs : Reached s)
    (htable : c'.textInputs = c.textInputs.set i s) : c'.History := by
  intro j s' hs'
  rw [htable, Table.get_set] at hs'
  split_ifs at hs'
  · exact Option.some.inj hs' ▸ hs
  · exact hc j s' hs'

/-- Nothing happened to the text inputs. -/
theorem History.keep (hc : c.History) (htable : c'.textInputs = c.textInputs) : c'.History := by
  intro j s hs
  exact hc j s (htable ▸ hs)

end InputContext

variable {c c' : InputContext} {i hostV1Id hostSeat : ℕ}

/-! ## Host activation and focus -/

/-- A barrier waits for the events that the host still sends to a text input. -/
theorem history_barrier (hc : c.History)
    (h : queueHostDeactivationBarrier c i hostV1Id hostSeat = some c') : c'.History := by
  unfold queueHostDeactivationBarrier at h
  obtain ⟨⟨callback, shadowTable⟩, -, h⟩ := Option.bind_eq_some_iff.mp h
  dsimp only at h
  split_ifs at h
  · exact hc.keep (by rw [← Option.some.inj h]; rfl)
  cases hs : c.textInputs.get i with
  | none =>
    simp only [hs] at h
    exact hc.keep (by rw [← Option.some.inj h]; rfl)
  | some s =>
    simp only [hs] at h
    cases hdrain : s.beginHostDraining callback with
    | none =>
      simp only [hdrain] at h
      exact hc.keep (by rw [← Option.some.inj h]; rfl)
    | some s' =>
      simp only [hdrain] at h
      obtain ⟨-, rfl⟩ := TextInputState.moveActivation_eq_some hdrain
      exact hc.set i ((hc i s hs).moves (.activation s _)) (by rw [← Option.some.inj h]; rfl)

/-- The activation on the host follows the committed state by its own moves. -/
theorem history_updateHostActivation (hc : c.History)
    (h : updateHostActivation c i = some c') : c'.History := by
  unfold updateHostActivation at h
  have hmove : ∀ c₁ : InputContext, c₁.History → ∀ source target,
      (c₁.onTextInput i fun s => (s.moveActivation source target).getD s).History :=
    fun c₁ hc₁ source target => hc₁.onTextInput i fun s hs => hs.moveActivation source target
  split at h
  · exact Option.some.inj h ▸ hc
  dsimp only at h
  split_ifs at h
  · exact Option.some.inj h ▸ hmove c hc _ _
  · split at h
    · exact Option.some.inj h ▸ hc
    · exact Option.some.inj h ▸ hmove (c.toHost _) (hc.keep rfl) _ _
  · split at h
    · exact Option.some.inj h ▸ hmove c hc _ _
    · exact history_barrier hc h
  · exact Option.some.inj h ▸ hc

theorem history_updates {ids : List ℕ} (hc : c.History)
    (h : ids.foldlM updateHostActivation c = some c') : c'.History := by
  induction ids generalizing c with
  | nil => exact Option.some.inj h ▸ hc
  | cons i ids ih =>
    rw [List.foldlM_cons] at h
    obtain ⟨c₁, h₁, h⟩ := Option.bind_eq_some_iff.mp h
    exact ih (history_updateHostActivation hc h₁) h

theorem history_applyFocus (update : ℕ × Option ℕ) (hc : c.History) :
    (applyTextInputFocus c update).History := by
  unfold applyTextInputFocus
  split
  · exact hc
  · exact InputContext.History.moves (hc.keep rfl) update.1 fun s => .focus s update.2

/-- The focus of all text inputs first, then their activation. -/
theorem history_focusUpdates {updates : List (ℕ × Option ℕ)} (hc : c.History)
    (h : applyTextInputFocusUpdates c updates = some c') : c'.History := by
  refine history_updates ?_ h
  clear h
  induction updates generalizing c with
  | nil => exact hc
  | cons update updates ih => exact ih (history_applyFocus update hc)

theorem history_focusChanges {changes : List SeatFocusChange} (hc : c.History)
    (h : applyKeyboardFocusChanges c changes = some c') : c'.History := by
  unfold applyKeyboardFocusChanges at h
  induction changes generalizing c with
  | nil => exact Option.some.inj h ▸ hc
  | cons change changes ih =>
    rw [List.foldlM_cons] at h
    obtain ⟨c₁, h₁, h⟩ := Option.bind_eq_some_iff.mp h
    refine ih ?_ h
    unfold applyKeyboardFocusChange at h₁
    split_ifs at h₁
    · exact Option.some.inj h₁ ▸ hc
    · exact history_focusUpdates hc h₁

/-! ## The handlers -/

theorem history_getTextInput {id seat : ℕ} (hc : c.History)
    (h : onGetTextInput c id seat = some c') : c'.History := by
  unfold onGetTextInput at h
  split at h
  · exact Option.some.inj h ▸ hc
  · obtain ⟨⟨hostV1Id, shadowTable⟩, -, h⟩ := Option.bind_eq_some_iff.mp h
    obtain ⟨⟨hostExtId, c₁⟩, h₁, rfl⟩ := Option.map_eq_some_iff.mp h
    have hc₁ : c₁.History := by
      unfold getExtendedTextInput at h₁
      split at h₁
      · obtain ⟨-, rfl⟩ := Prod.mk.inj (Option.some.inj h₁)
        exact hc.keep rfl
      · obtain ⟨⟨hostExtId', shadowTable'⟩, -, h₁⟩ := Option.bind_eq_some_iff.mp h₁
        obtain ⟨-, rfl⟩ := Prod.mk.inj (Option.some.inj h₁)
        exact hc.keep rfl
    exact hc₁.set id (.new hostV1Id hostExtId seat _) rfl

/-- A commit applies the plan it was prepared with. -/
theorem history_commit (hc : c.History) (h : onCommitTextInput c i = some c') : c'.History := by
  unfold onCommitTextInput at h
  split_ifs at h
  · exact Option.some.inj h ▸ hc
  split at h
  · exact Option.some.inj h ▸ hc
  next s hs =>
    dsimp only at h
    split at h
    · exact Option.some.inj h ▸ hc
    · obtain ⟨c₁, h₁, rfl⟩ := Option.map_eq_some_iff.mp h
      have hpublished : (c.onTextInput i
          (finishGuestCommit (s.prepareGuestCommit (enableConflicts c i s)))).History :=
        hc.set i ((hc i s hs).moves (.commit s (enableConflicts c i s)))
          (by simp [InputContext.onTextInput, Table.modify, hs])
      exact (history_updateHostActivation hpublished h₁).keep rfl

theorem history_retire (hc : c.History) : (retireTextInput c i).History := by
  unfold retireTextInput queueGuestDeleteId
  split_ifs
  · exact hc
  · exact hc.keep rfl

/-- A destroyed text input is deactivated before its state is removed. -/
theorem history_destroy (hc : c.History) (h : onDestroyTextInput c i = some c') : c'.History := by
  obtain ⟨c₁, h₁, rfl⟩ := Option.map_eq_some_iff.mp h
  have hc₁ := history_updateHostActivation (hc.moves i fun s => .destroy s) h₁
  have herased : InputContext.History { c₁ with textInputs := c₁.textInputs.erase i } := by
    intro j s hs
    simp only [Table.get_erase] at hs
    split_ifs at hs
    exact hc₁ j s hs
  dsimp only
  split
  · exact history_retire hc₁
  · refine history_retire ?_
    split
    · exact herased
    · exact herased.keep rfl

/-- A request of the guest; it moves a text input that has the focus. -/
theorem history_onFocused {f : TextInputState → TextInputState} (hc : c.History)
    (hf : ∀ s, Moves s (f s)) : (onFocused c i f).History := by
  unfold onFocused
  split_ifs
  · exact hc.moves i hf
  · exact hc

/-- An event of the host; it moves a text input that is active there. -/
theorem history_onActive {f : TextInputState → TextInputState} {hostId : ℕ} (hc : c.History)
    (hf : ∀ s, Moves s (f s)) : (onActive c hostId f).History := by
  unfold onActive
  split
  · exact hc
  · exact hc.moves _ hf

/-- A composition moves the text input only after all of its messages fit. -/
theorem history_compose {f : TextInputState → TextInputState} {messages : List QueuedMessage}
    (hc : c.History) (hf : ∀ s, Moves s (f s)) : (compose c i messages f).History := by
  unfold compose
  split
  · exact hc
  · exact (hc.moves i hf).keep rfl

/-- A barrier is passed in the state that waits for it. -/
theorem history_callback {callback : ℕ} {done : Bool} (hc : c.History)
    (h : completeHostActivationBarrier c callback = some (done, c')) : c'.History := by
  unfold completeHostActivationBarrier at h
  split at h
  · obtain ⟨-, rfl⟩ := Prod.mk.inj (Option.some.inj h)
    exact hc
  next guestId hostV1Id _ =>
    dsimp only at h
    split at h
    · obtain ⟨-, rfl⟩ := Prod.mk.inj (Option.some.inj h)
      exact hc.keep rfl
    next s' hs' =>
      obtain ⟨c₁, h₁, heq⟩ := Option.map_eq_some_iff.mp h
      obtain ⟨-, rfl⟩ := Prod.mk.inj heq
      obtain ⟨s, hs, hdrained⟩ := Option.bind_eq_some_iff.mp hs'
      split_ifs at hdrained
      obtain ⟨-, rfl⟩ := TextInputState.moveActivation_eq_some hdrained
      exact history_updateHostActivation
        (hc.set guestId ((hc guestId s hs).moves (.activation s .inactive)) rfl) h₁

/-- Every handler applies moves of a text input, or none. -/
theorem history_handle {m : InputMessage} (hc : c.History) (h : c.handle m = some c') :
    c'.History := by
  cases m with
  | getTextInput id seat => exact history_getTextInput hc h
  | destroyTextInput textInput => exact history_destroy hc h
  | enable textInput =>
    obtain rfl := Option.some.inj h
    exact history_onFocused hc fun s => .enabled s true
  | disable textInput =>
    obtain rfl := Option.some.inj h
    exact history_onFocused hc fun s => .enabled s false
  | setSurroundingText textInput text cursor anchor =>
    obtain rfl := Option.some.inj h
    unfold onSetSurroundingText
    split_ifs with hvalid
    · simp only [Bool.and_eq_true, decide_eq_true_eq] at hvalid
      obtain ⟨⟨⟨hcursor, hanchor⟩, hcursor'⟩, hanchor'⟩ := hvalid
      exact history_onFocused hc fun s =>
        .surroundingText s text cursor anchor ⟨hcursor, hanchor, hcursor', hanchor'⟩
    · exact hc
  | setTextChangeCause textInput cause =>
    obtain rfl := Option.some.inj h
    exact history_onFocused hc fun s => .textChangeCause s cause
  | setContentType textInput hint purpose =>
    obtain rfl := Option.some.inj h
    exact history_onFocused hc fun s => .contentType s hint purpose
  | setCursorRectangle textInput x y width height =>
    obtain rfl := Option.some.inj h
    exact history_onFocused hc fun s => .cursorRect s (x, y, width, height)
  | commitTextInput textInput => exact history_commit hc h
  | releaseKeyboard guestKeyboard =>
    change onKeyboardRelease c guestKeyboard = some c' at h
    unfold onKeyboardRelease at h
    dsimp only at h
    split at h
    · exact Option.some.inj h ▸ hc.keep rfl
    · exact history_focusChanges (by exact hc.keep rfl) h
  | destroySurface guestSurface =>
    obtain ⟨c₁, h₁, h⟩ := Option.bind_eq_some_iff.mp h
    exact history_focusUpdates (history_focusChanges (by exact hc.keep rfl) h₁) h
  | keyboardEnter hostKeyboard hostSurface =>
    change onKeyboardEnter c hostKeyboard hostSurface = some c' at h
    unfold onKeyboardEnter at h
    split at h
    · exact Option.some.inj h ▸ hc
    split_ifs at h
    · exact Option.some.inj h ▸ hc
    split at h
    · exact Option.some.inj h ▸ hc
    dsimp only at h
    split_ifs at h
    · exact Option.some.inj h ▸ hc
    · exact history_focusChanges (by exact hc.keep rfl) h
  | keyboardLeave hostKeyboard hostSurface =>
    change onKeyboardLeave c hostKeyboard hostSurface = some c' at h
    unfold onKeyboardLeave at h
    dsimp only at h
    split_ifs at h
    · exact Option.some.inj h ▸ hc.keep rfl
    · exact history_focusChanges (by exact hc.keep rfl) h
  | callbackDone callback =>
    obtain ⟨⟨done, c₁⟩, h₁, rfl⟩ := Option.map_eq_some_iff.mp h
    exact history_callback hc h₁
  | preeditStyling hostId index length style =>
    obtain rfl := Option.some.inj h
    unfold onPreeditStyling
    split_ifs
    · exact history_onActive hc fun s => .preeditSelection s index length
    · exact hc
  | preeditCursor hostId index =>
    obtain rfl := Option.some.inj h
    exact history_onActive hc fun s => .preeditCursor s index
  | cursorPosition hostId index anchor =>
    obtain rfl := Option.some.inj h
    exact history_onActive hc fun s => .cursorPosition s index anchor
  | deleteSurroundingText hostId index length =>
    obtain rfl := Option.some.inj h
    unfold onDeleteSurroundingText
    split
    · exact hc
    · exact history_onActive hc fun s => .delete s _ _
  | preeditString hostId text commit =>
    obtain rfl := Option.some.inj h
    unfold onPreeditString
    split
    · exact hc
    split
    · exact hc
    · exact history_compose hc fun s => .preedit s text
  | commitString hostId text =>
    obtain rfl := Option.some.inj h
    unfold onCommitString
    split
    · exact hc
    split
    · exact hc
    · exact history_compose hc fun s => .hostCommit s
  | setPreeditRegion hostExtId index length =>
    obtain rfl := Option.some.inj h
    unfold onSetPreeditRegion
    split
    · exact hc
    split
    · exact hc
    dsimp only
    split_ifs
    · exact history_compose hc fun s => .preedit s _
    · exact hc
  | confirmPreedit hostExtId recovered =>
    obtain rfl := Option.some.inj h
    unfold onConfirmPreedit
    split
    · exact hc
    split
    · exact hc
    split_ifs
    · exact hc.keep rfl
    · exact history_compose hc fun s => .preedit s ""
  | other shadowTable keyboardToSeat manager extension =>
    obtain rfl := Option.some.inj h
    exact hc.keep rfl

/-- The text inputs of a session have reached their states by the ways they change. -/
theorem reached_of_reachable (hc : inputSystem.Reachable c) : c.History := by
  refine hc.invariant (fun c hinit => ?_) fun c m c' _ hc _ hstep => ?_
  · obtain rfl : c = .new := hinit
    exact fun i s hs => by simp [InputContext.new] at hs
  · obtain ⟨c₁, h₁, hstep⟩ := Option.bind_eq_some_iff.mp hstep
    split_ifs at hstep
    exact Option.some.inj hstep ▸ history_handle hc h₁

/-! ## Surrounding texts -/

/-- The surrounding texts of a text input, published or not, are valid. -/
structure TextInputState.ValidTexts (s : TextInputState) : Prop where
  pending : ∀ surrounding ∈ s.pendingSurroundingText, ValidSurrounding surrounding
  committed : ∀ surrounding ∈ s.committedSurroundingText, ValidSurrounding surrounding

/-- A surrounding text is accepted with valid cursors only, and a commit takes over what was
accepted. -/
theorem TextInputState.ValidTexts.moves {s s' : TextInputState} (hs : s.ValidTexts)
    (h : Moves s s') : s'.ValidTexts := by
  cases h with
  | focus surface => exact ⟨by simp [applyFocus], by simp [applyFocus]⟩
  | enabled enabled => exact ⟨by simp [beginEnabledTransaction], hs.committed⟩
  | surroundingText text cursor anchor h =>
    refine ⟨fun surrounding hmem => ?_, hs.committed⟩
    exact Option.some.inj hmem ▸ h
  | commit enableConflict =>
    set plan := s.prepareGuestCommit enableConflict with hplan
    have hpending : (s.finishGuestCommit plan).pendingSurroundingText =
        s.pendingSurroundingText := by
      unfold finishGuestCommit finishEnabled clearHostComposition
      dsimp only
      split_ifs <;> rfl
    refine ⟨fun surrounding hmem => hs.pending surrounding (hpending ▸ hmem), ?_⟩
    intro surrounding hmem
    cases hdirty : s.surroundingTextDirty <;> cases hreset : s.enabledDirty <;>
      simp only [hplan, finishGuestCommit, finishEnabled, clearHostComposition, prepareGuestCommit,
        hdirty, hreset, if_true, if_false, Bool.false_eq_true, Option.getD_none,
        Option.getD_some] at hmem
    · exact hs.committed surrounding hmem
    · exact hs.committed surrounding hmem
    · exact hs.pending surrounding hmem
    · exact hs.pending surrounding hmem
  | delete before after =>
    unfold recordDelete
    split_ifs
    · exact hs
    · exact ⟨hs.pending, hs.committed⟩
  | _ => exact ⟨hs.pending, hs.committed⟩

theorem TextInputState.Reached.validTexts {s : TextInputState} (hs : s.Reached) :
    s.ValidTexts := by
  induction hs with
  | new hostV1Id hostExtId guestSeat activeSurface =>
    exact ⟨by simp [TextInputState.new], by simp [TextInputState.new]⟩
  | moves _ h ih => exact ih.moves h

end Sommelier
