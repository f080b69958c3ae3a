import Sommelier.Input.EditorCommits
import Sommelier.Input.FocusHistory
import Sommelier.Input.HostTextEvents

/-!
# What a message does to the text inputs

Most messages leave the number of commits, the seat and the surface of every text input as they
are, and send no enter or leave to one. The rest are the new text inputs, the commits, and what
moves the focus of the keyboards.

## Main definitions

* `SessionInput`: the messages of a session, where each confirmation has its own answer.
* `InputContext.Answers`: what most messages do.
* `getTextInput_cases`, `commitTextInput_cases`, `InputContext.Refocuses`: what the rest do.
* `handle_cases`: which messages do which.
-/
namespace Sommelier

inductive SessionInput
  | message (m : InputMessage)
  /-- `confirm_preedit`, with the key that is held for it -/
  | confirmPreedit (hostExtId : ℕ) (held : Option (Option KeyPair))

/-- The generated code refuses a new ID that is in use, as 1 is by the display. -/
def SessionInput.toMessage (c : InputContext) : SessionInput → Option InputMessage
  | message (.confirmPreedit _ _) => none
  | message (.getTextInput id seat) =>
    if id = 1 ∨ (c.textInputs.get id).isSome then none else some (.getTextInput id seat)
  | message m => some m
  | confirmPreedit hostExtId held =>
    some (.confirmPreedit hostExtId (recoveredMessages c hostExtId held))

/-- A confirmation comes with what was recovered, and a new text input has an unused ID. -/
theorem SessionInput.toMessage_cases {c : InputContext} {input : SessionInput} {m : InputMessage}
    (h : input.toMessage c = some m) :
    (∃ hostExtId held, m = .confirmPreedit hostExtId (recoveredMessages c hostExtId held)) ∨
    input = .message m ∧ (∀ hostExtId recovered, m ≠ .confirmPreedit hostExtId recovered) ∧
      ∀ id seat, m = .getTextInput id seat → id ≠ 1 ∧ c.textInputs.get id = none := by
  cases input with
  | confirmPreedit hostExtId held => exact .inl ⟨hostExtId, held, (Option.some.inj h).symm⟩
  | message message =>
    right
    cases message with
    | confirmPreedit hostExtId recovered => cases h
    | getTextInput id seat =>
      simp only [toMessage] at h
      split_ifs at h with hused
      obtain rfl := Option.some.inj h
      refine ⟨rfl, by simp, ?_⟩
      rintro _ _ ⟨⟩
      simpa [not_or] using hused
    | _ =>
      obtain rfl := Option.some.inj h
      exact ⟨rfl, by simp, by simp⟩

/-- The text input is entered on a surface, and its commit can be sent to the host. -/
def servesCommit (c : InputContext) (guestId : ℕ) : Bool :=
  v3IsFocused c guestId && (commitTransaction c guestId).isSome

namespace TextInputState

/-- What most messages leave as it is. -/
def footing (s : TextInputState) : ℕ × ℕ × Option ℕ :=
  (s.guestCommitSerial, s.guestSeat, s.activeSurface)

theorem footing_recordDelete (s : TextInputState) (before after : ℕ) :
    (s.recordDelete before after).footing = s.footing := by
  unfold recordDelete
  split_ifs <;> rfl

theorem doneSerial_of_prepareComposition {s : TextInputState} {plan : CompositionPlan}
    (h : s.prepareComposition = some plan) : plan.doneSerial = s.guestCommitSerial := by
  unfold prepareComposition at h
  split_ifs at h
  exact Option.some.inj h ▸ rfl

end TextInputState

variable {c c' c'' : InputContext} {i : ℕ}

/-! ## Host activation -/

namespace InputContext

/-- Nothing changed for the guest: the text inputs are as before, but for their activation on the
host. -/
structure OnlyActivates (c c' : InputContext) : Prop where
  text : ∀ j s', c'.textInputs.get j = some s' →
    ∃ s hostActivation, c.textInputs.get j = some s ∧ s' = { s with hostActivation }
  queue : c'.hostToClientQueue = c.hostToClientQueue
  registry : c'.keyboardFocus = c.keyboardFocus

theorem OnlyActivates.keep (htable : c'.textInputs = c.textInputs)
    (hqueue : c'.hostToClientQueue = c.hostToClientQueue)
    (hregistry : c'.keyboardFocus = c.keyboardFocus) : c.OnlyActivates c' :=
  ⟨fun _ s' hs' => ⟨s', s'.hostActivation, htable ▸ hs', rfl⟩, hqueue, hregistry⟩

theorem OnlyActivates.refl (c : InputContext) : c.OnlyActivates c := .keep rfl rfl rfl

theorem OnlyActivates.trans {c₁ : InputContext} (h : c.OnlyActivates c₁)
    (h' : c₁.OnlyActivates c') : c.OnlyActivates c' where
  text j s' hs' := by
    obtain ⟨s₁, a, hs₁, rfl⟩ := h'.text j s' hs'
    obtain ⟨s, a', hs, rfl⟩ := h.text j s₁ hs₁
    exact ⟨s, a, hs, rfl⟩
  queue := h'.queue.trans h.queue
  registry := h'.registry.trans h.registry

theorem OnlyActivates.set {s : TextInputState} {hostActivation : HostActivationState}
    (hs : c.textInputs.get i = some s)
    (htable : c'.textInputs = c.textInputs.set i { s with hostActivation })
    (hqueue : c'.hostToClientQueue = c.hostToClientQueue)
    (hregistry : c'.keyboardFocus = c.keyboardFocus) : c.OnlyActivates c' where
  text j s' hs' := by
    rw [htable, Table.get_set] at hs'
    split_ifs at hs' with heq
    · exact ⟨s, hostActivation, heq ▸ hs, (Option.some.inj hs').symm⟩
    · exact ⟨s', s'.hostActivation, hs', rfl⟩
  queue := hqueue
  registry := hregistry

theorem OnlyActivates.move {s : TextInputState} (hs : c.textInputs.get i = some s)
    (source target : HostActivationState) :
    c.OnlyActivates (c.onTextInput i fun s => (s.moveActivation source target).getD s) := by
  unfold onTextInput Table.modify
  rw [hs]
  dsimp only
  unfold TextInputState.moveActivation
  split_ifs
  · exact .set hs rfl rfl rfl
  · exact OnlyActivates.set (s := s) hs rfl rfl rfl

end InputContext

theorem onlyActivates_barrier {hostV1Id hostSeat : ℕ}
    (h : queueHostDeactivationBarrier c i hostV1Id hostSeat = some c') : c.OnlyActivates c' := by
  unfold queueHostDeactivationBarrier at h
  obtain ⟨⟨callback, shadowTable⟩, -, h⟩ := Option.bind_eq_some_iff.mp h
  dsimp only at h
  split_ifs at h
  · exact Option.some.inj h ▸ .keep rfl rfl rfl
  cases hs : c.textInputs.get i with
  | none =>
    simp only [hs] at h
    exact Option.some.inj h ▸ .keep rfl rfl rfl
  | some s =>
    simp only [hs] at h
    cases hdrain : s.beginHostDraining callback with
    | none =>
      simp only [hdrain] at h
      exact Option.some.inj h ▸ .keep rfl rfl rfl
    | some s' =>
      simp only [hdrain] at h
      obtain ⟨-, rfl⟩ := TextInputState.moveActivation_eq_some hdrain
      exact Option.some.inj h ▸ .set hs rfl rfl rfl

theorem onlyActivates_updateHostActivation (h : updateHostActivation c i = some c') :
    c.OnlyActivates c' := by
  unfold updateHostActivation at h
  cases hs : c.textInputs.get i with
  | none =>
    simp only [hs] at h
    exact Option.some.inj h ▸ .refl c
  | some s =>
    simp only [hs] at h
    split_ifs at h
    · exact Option.some.inj h ▸ .move hs ..
    · split at h
      · exact Option.some.inj h ▸ .refl c
      · obtain rfl := Option.some.inj h
        refine .trans ?_ (.move (s := s) ?_ ..)
        · exact .keep rfl rfl rfl
        · exact hs
    · split at h
      · exact Option.some.inj h ▸ .move hs ..
      · exact onlyActivates_barrier h
    · exact Option.some.inj h ▸ .refl c

theorem onlyActivates_updates {ids : List ℕ} (h : ids.foldlM updateHostActivation c = some c') :
    c.OnlyActivates c' := by
  induction ids generalizing c with
  | nil => exact Option.some.inj h ▸ .refl c
  | cons i ids ih =>
    rw [List.foldlM_cons] at h
    obtain ⟨c₁, h₁, h⟩ := Option.bind_eq_some_iff.mp h
    exact (onlyActivates_updateHostActivation h₁).trans (ih h)

theorem onlyActivates_callback {callback : ℕ} {done : Bool}
    (h : completeHostActivationBarrier c callback = some (done, c')) : c.OnlyActivates c' := by
  unfold completeHostActivationBarrier at h
  split at h
  · obtain ⟨-, rfl⟩ := Prod.mk.inj (Option.some.inj h)
    exact .refl c
  next guestId hostV1Id _ =>
    dsimp only at h
    split at h
    · obtain ⟨-, rfl⟩ := Prod.mk.inj (Option.some.inj h)
      exact .keep rfl rfl rfl
    next s' hs' =>
      obtain ⟨c₁, h₁, heq⟩ := Option.map_eq_some_iff.mp h
      obtain ⟨-, rfl⟩ := Prod.mk.inj heq
      obtain ⟨s, hs, hdrained⟩ := Option.bind_eq_some_iff.mp hs'
      split_ifs at hdrained
      obtain ⟨-, rfl⟩ := TextInputState.moveActivation_eq_some hdrained
      refine .trans ?_ (onlyActivates_updateHostActivation h₁)
      exact .set hs rfl rfl rfl

/-! ## Answers -/

namespace InputContext

/-- The message is no enter and no leave of a text input, and if it is a `done` event, it carries
the serial of its text input. -/
structure IsAnswer (c : InputContext) (m : QueuedMessage) : Prop where
  done : m.opcode = 5 → ∃ s, c.textInputs.get m.senderId = some s ∧
    m.payload = [.word s.guestCommitSerial]
  still : m.senderId = 1 ∨ 2 ≤ m.opcode

/-- The text inputs stay where they are, and what is sent are answers. -/
structure Answers (c c' : InputContext) : Prop where
  text : ∀ j s', c'.textInputs.get j = some s' →
    ∃ s, c.textInputs.get j = some s ∧ s'.footing = s.footing
  queue : ∃ news, c'.hostToClientQueue = c.hostToClientQueue ++ news ∧ ∀ m ∈ news, c.IsAnswer m
  registry : c'.keyboardFocus = c.keyboardFocus

theorem Answers.keep (htable : c'.textInputs = c.textInputs)
    (hqueue : c'.hostToClientQueue = c.hostToClientQueue)
    (hregistry : c'.keyboardFocus = c.keyboardFocus) : c.Answers c' where
  text _ s' hs' := ⟨s', htable ▸ hs', rfl⟩
  queue := ⟨[], by simp [hqueue], by simp⟩
  registry := hregistry

theorem Answers.refl (c : InputContext) : c.Answers c := .keep rfl rfl rfl

theorem Answers.activate (h : c.Answers c') (h' : c'.OnlyActivates c'') : c.Answers c'' where
  text j s' hs' := by
    obtain ⟨s₁, hostActivation, hs₁, rfl⟩ := h'.text j s' hs'
    exact h.text j s₁ hs₁
  queue := h'.queue ▸ h.queue
  registry := h'.registry.trans h.registry

theorem Answers.onTextInput {f : TextInputState → TextInputState} (h : c.Answers c') (i : ℕ)
    (hf : ∀ s, (f s).footing = s.footing) : c.Answers (c'.onTextInput i f) where
  text j s' hs' := by
    simp only [InputContext.onTextInput, Table.get_modify] at hs'
    split_ifs at hs'
    · obtain ⟨s₁, hs₁, rfl⟩ := Option.map_eq_some_iff.mp hs'
      rw [hf]
      exact h.text j s₁ hs₁
    · exact h.text j s' hs'
  queue := h.queue
  registry := h.registry

/-- A text input that is gone is of no account. -/
theorem Answers.forget {f : TextInputState → TextInputState}
    (h : (c.onTextInput i f).OnlyActivates c') (hgone : c''.textInputs.get i = none)
    (hother : ∀ j ≠ i, c''.textInputs.get j = c'.textInputs.get j)
    (hqueue : c''.hostToClientQueue = c'.hostToClientQueue)
    (hregistry : c''.keyboardFocus = c'.keyboardFocus) : c.Answers c'' where
  text j s' hs' := by
    have hne : j ≠ i := by
      rintro rfl
      simp [hgone] at hs'
    rw [hother j hne] at hs'
    obtain ⟨s, hostActivation, hs, rfl⟩ := h.text j s' hs'
    simp only [InputContext.onTextInput, Table.get_modify, if_neg hne] at hs
    exact ⟨s, hs, rfl⟩
  queue := ⟨[], by simp [hqueue, h.queue, InputContext.onTextInput], by simp⟩
  registry := hregistry.trans h.registry

theorem Answers.toGuest {messages : List QueuedMessage} (h : c.Answers c')
    (hm : ∀ m ∈ messages, c.IsAnswer m) : c.Answers (c'.toGuest messages) where
  text := h.text
  queue := by
    obtain ⟨news, hqueue, hnews⟩ := h.queue
    refine ⟨news ++ messages, by simp [InputContext.toGuest, hqueue], fun m hmem => ?_⟩
    exact (List.mem_append.mp hmem).elim (hnews m) (hm m)
  registry := h.registry

/-- Most messages to a text input are neither an enter or a leave nor a `done` event. -/
theorem isAnswer_of_opcode {m : QueuedMessage} (h : 2 ≤ m.opcode) (hdone : m.opcode ≠ 5) :
    c.IsAnswer m := ⟨fun heq => absurd heq hdone, .inr h⟩

theorem isAnswer_done {s : TextInputState} {plan : CompositionPlan}
    (hs : c.textInputs.get i = some s) (hplan : s.prepareComposition = some plan) :
    c.IsAnswer ⟨i, 5, [.word plan.doneSerial]⟩ where
  done _ := ⟨s, hs, by rw [TextInputState.doneSerial_of_prepareComposition hplan]⟩
  still := .inr (by simp)

theorem isAnswer_preedit (preedit : String) (cursor : ℤ × ℤ) :
    c.IsAnswer (preeditMessage i preedit cursor) :=
  isAnswer_of_opcode (by simp [preeditMessage]) (by simp [preeditMessage])

theorem isAnswer_keyPair {pair : KeyPair} : ∀ m ∈ pair.messages, c.IsAnswer m := by
  simp [KeyPair.messages, isAnswer_of_opcode]

end InputContext

open InputContext

/-! ### New text inputs and commits -/

/-- A new text input is told the surface its seat has. -/
theorem getTextInput_cases {id seat : ℕ} (h : onGetTextInput c id seat = some c') :
    c' = c ∨ ∃ s : TextInputState,
      s.footing = (0, seat, c.keyboardFocus.surfaceForSeat seat) ∧
      c'.textInputs = c.textInputs.set id s ∧
      c'.hostToClientQueue = c.hostToClientQueue ++
        focusEvents id none (c.keyboardFocus.surfaceForSeat seat) ∧
      c'.keyboardFocus = c.keyboardFocus := by
  unfold onGetTextInput at h
  split at h
  · exact .inl (Option.some.inj h).symm
  · obtain ⟨⟨hostV1Id, shadowTable⟩, -, h⟩ := Option.bind_eq_some_iff.mp h
    obtain ⟨⟨hostExtId, c₁⟩, h₁, rfl⟩ := Option.map_eq_some_iff.mp h
    refine .inr ⟨.new hostV1Id hostExtId seat (c.keyboardFocus.surfaceForSeat seat), rfl, ?_⟩
    unfold getExtendedTextInput at h₁
    split at h₁
    · obtain ⟨-, rfl⟩ := Prod.mk.inj (Option.some.inj h₁)
      exact ⟨rfl, rfl, rfl⟩
    · obtain ⟨⟨hostExtId', shadowTable'⟩, -, h₁⟩ := Option.bind_eq_some_iff.mp h₁
      obtain ⟨-, rfl⟩ := Prod.mk.inj (Option.some.inj h₁)
      exact ⟨rfl, rfl, rfl⟩

/-- A commit that is served counts the serial of its text input up. -/
theorem commitTextInput_cases (h : onCommitTextInput c i = some c') :
    servesCommit c i = false ∧ c' = c ∨
    servesCommit c i = true ∧ ∃ s plan, c.textInputs.get i = some s ∧
      plan.serial = (s.guestCommitSerial + 1) % 2 ^ 32 ∧
      (c.onTextInput i (TextInputState.finishGuestCommit plan)).OnlyActivates c' := by
  unfold onCommitTextInput at h
  split_ifs at h with hfocused
  · have hunfocused : v3IsFocused c i = false := by simpa using hfocused
    exact .inl ⟨by simp [servesCommit, hunfocused], (Option.some.inj h).symm⟩
  cases hs : c.textInputs.get i with
  | none => simp [v3IsFocused, hs] at hfocused
  | some s =>
    simp only [hs] at h
    have htransaction : commitTransaction c i =
        encodeTransaction (commitMessages c (s.prepareGuestCommit (enableConflicts c i s))) := by
      simp [commitTransaction, hs]
    rw [← htransaction] at h
    cases hcommit : commitTransaction c i with
    | none =>
      simp only [hcommit] at h
      exact .inl ⟨by simp [servesCommit, hcommit], (Option.some.inj h).symm⟩
    | some transaction =>
      simp only [hcommit] at h
      obtain ⟨c₁, h₁, rfl⟩ := Option.map_eq_some_iff.mp h
      refine .inr ⟨by simpa [servesCommit, hcommit] using hfocused, s, _, rfl, ?_,
        (onlyActivates_updateHostActivation h₁).trans (.keep rfl rfl rfl)⟩
      rfl

/-! ### Focus changes -/

namespace InputContext

/-- The registry handles an operation, the text inputs follow its changes, and a surface that is
destroyed is repaired. -/
structure Refocuses (op : FocusOp) (c c' : InputContext) : Prop where
  follows : ∃ c₁ c₂ : InputContext, c₁.textInputs = c.textInputs ∧
    c₁.hostToClientQueue = c.hostToClientQueue ∧
    c₁.keyboardFocus = (c.keyboardFocus.apply op).2 ∧
    applyKeyboardFocusChanges c₁ (c.keyboardFocus.apply op).1.seatChanges = some c₂ ∧
    (c' = c₂ ∨ ∃ surface, repairDestroyedSurfaceFocus c₂ surface = some c')

theorem Refocuses.intro {op : FocusOp}
    (h : applyKeyboardFocusChanges c'' (c.keyboardFocus.apply op).1.seatChanges = some c')
    (htable : c''.textInputs = c.textInputs) (hqueue : c''.hostToClientQueue = c.hostToClientQueue)
    (hregistry : c''.keyboardFocus = (c.keyboardFocus.apply op).2) : c.Refocuses op c' :=
  ⟨c'', c', htable, hqueue, hregistry, h, .inl rfl⟩

end InputContext

theorem refocuses_keyboardEnter {hostKeyboard hostSurface : ℕ}
    (h : onKeyboardEnter c hostKeyboard hostSurface = some c') :
    c.Answers c' ∨ ∃ op, c.Refocuses op c' := by
  unfold onKeyboardEnter at h
  split at h
  · exact .inl (Option.some.inj h ▸ .refl c)
  split_ifs at h
  · exact .inl (Option.some.inj h ▸ .refl c)
  split at h
  · exact .inl (Option.some.inj h ▸ .refl c)
  dsimp only at h
  split_ifs at h
  · exact .inl (Option.some.inj h ▸ .refl c)
  · exact .inr ⟨.enter hostKeyboard _, .intro h rfl rfl rfl⟩

theorem refocuses_keyboardLeave {hostKeyboard hostSurface : ℕ}
    (h : onKeyboardLeave c hostKeyboard hostSurface = some c') :
    ∃ op, c.Refocuses op c' := by
  unfold onKeyboardLeave at h
  refine ⟨.leave hostKeyboard hostSurface, ?_⟩
  dsimp only at h
  split_ifs at h with haccepted
  · -- What is not accepted reports no changes.
    have hnone : (c.keyboardFocus.apply (.leave hostKeyboard hostSurface)).1.seatChanges = [] := by
      change (c.keyboardFocus.leave hostKeyboard hostSurface).1.seatChanges = []
      rcases c.keyboardFocus.leave_cases hostKeyboard hostSurface with
        h | ⟨f, -, -, h⟩ | ⟨f, -, -, h⟩
      · rw [h]
        rfl
      · rw [h]
        rfl
      · rw [h] at haccepted
        cases haccepted
    have hfollows : applyKeyboardFocusChanges
        { c with keyboardFocus := (c.keyboardFocus.leave hostKeyboard hostSurface).2 }
        (c.keyboardFocus.apply (.leave hostKeyboard hostSurface)).1.seatChanges = some c' := by
      rw [hnone]
      exact h
    exact .intro hfollows rfl rfl rfl
  · exact .intro h rfl rfl rfl

theorem refocuses_keyboardRelease {guestKeyboard : ℕ}
    (h : onKeyboardRelease c guestKeyboard = some c') :
    c.Answers c' ∨ ∃ op, c.Refocuses op c' := by
  unfold onKeyboardRelease at h
  dsimp only at h
  split at h
  · exact .inl (Option.some.inj h ▸ .keep rfl rfl rfl)
  · exact .inr ⟨.release _, .intro h rfl rfl rfl⟩

theorem refocuses_surfaceDestroyed {guestSurface : ℕ}
    (h : onSurfaceDestroyed c guestSurface = some c') : ∃ op, c.Refocuses op c' := by
  obtain ⟨c₁, h₁, h⟩ := Option.bind_eq_some_iff.mp h
  refine ⟨.destroySurface guestSurface, ⟨_, c₁, ?_, ?_, ?_, h₁, .inr ⟨guestSurface, h⟩⟩⟩ <;> rfl

/-! ### Requests -/

theorem answers_retire (h : c.Answers c') : c.Answers (retireTextInput c' i) := by
  unfold retireTextInput queueGuestDeleteId
  split_ifs
  · exact h
  · have hsent : c.Answers (c'.toGuest [⟨1, 1, [.word i]⟩]) :=
      h.toGuest (by simpa using ⟨by simp, .inl rfl⟩)
    exact ⟨hsent.text, hsent.queue, hsent.registry⟩

theorem answers_destroy (h : onDestroyTextInput c i = some c') : c.Answers c' := by
  obtain ⟨c₁, h₁, rfl⟩ := Option.map_eq_some_iff.mp h
  have hupdate := onlyActivates_updateHostActivation h₁
  dsimp only
  split
  next hnone => exact answers_retire (.forget hupdate hnone (fun _ _ => rfl) rfl rfl)
  · refine answers_retire ?_
    split
    · exact .forget hupdate (by simp) (fun j hne => by simp [hne]) rfl rfl
    · exact .forget hupdate (by simp [toHost]) (fun j hne => by simp [toHost, hne]) rfl rfl

theorem answers_onFocused {f : TextInputState → TextInputState}
    (hf : ∀ s, (f s).footing = s.footing) : c.Answers (onFocused c i f) := by
  unfold onFocused
  split_ifs
  · exact (Answers.refl c).onTextInput i hf
  · exact .refl c

theorem answers_setSurroundingText {text : String} {cursor anchor : ℤ} :
    c.Answers (onSetSurroundingText c i text cursor anchor) := by
  unfold onSetSurroundingText
  split_ifs
  · exact answers_onFocused fun _ => rfl
  · exact .refl c

/-! ### Events of the host -/

theorem answers_onActive {f : TextInputState → TextInputState} {hostId : ℕ}
    (hf : ∀ s, (f s).footing = s.footing) : c.Answers (onActive c hostId f) := by
  unfold onActive
  split
  · exact .refl c
  · exact (Answers.refl c).onTextInput _ hf

theorem answers_preeditStyling {hostId index length style : ℕ} :
    c.Answers (onPreeditStyling c hostId index length style) := by
  unfold onPreeditStyling
  split_ifs
  · exact answers_onActive fun _ => rfl
  · exact .refl c

theorem answers_deleteSurroundingText {hostId length : ℕ} {index : ℤ} :
    c.Answers (onDeleteSurroundingText c hostId index length) := by
  unfold onDeleteSurroundingText
  split
  · exact .refl c
  · exact answers_onActive fun s => s.footing_recordDelete _ _

theorem answers_compose {f : TextInputState → TextInputState} {messages : List QueuedMessage}
    (hmessages : ∀ m ∈ messages, c.IsAnswer m) (hf : ∀ s, (f s).footing = s.footing) :
    c.Answers (compose c i messages f) := by
  unfold compose encodeTransaction
  split_ifs
  · exact ((Answers.refl c).onTextInput i hf).toGuest hmessages
  · exact .refl c

theorem answers_confirmPreedit (hostExtId : ℕ) (held : Option (Option KeyPair)) :
    c.Answers (onConfirmPreedit c hostExtId (recoveredMessages c hostExtId held)) := by
  unfold onConfirmPreedit recoveredMessages
  cases guestForExtension c hostExtId with
  | none => exact .refl c
  | some guestId =>
    dsimp only
    cases hplan : (c.textInputs.get guestId).bind TextInputState.prepareComposition with
    | none => exact .refl c
    | some plan =>
      obtain ⟨s, hs, hprepare⟩ := Option.bind_eq_some_iff.mp hplan
      dsimp only
      split_ifs
      · refine (Answers.refl c).toGuest fun m hm => ?_
        cases held with
        | none => cases hm
        | some pair =>
          rcases List.mem_append.mp hm with hm | hm
          · cases pair with
            | none => cases hm
            | some pair => exact isAnswer_keyPair m hm
          · exact List.mem_singleton.mp hm ▸ isAnswer_done hs hprepare
      · refine answers_compose ?_ fun _ => rfl
        simp [isAnswer_preedit, isAnswer_of_opcode, isAnswer_done hs hprepare]

theorem answers_preeditString {hostId : ℕ} {text commit : String} :
    c.Answers (onPreeditString c hostId text commit) := by
  unfold onPreeditString
  split
  · exact .refl c
  next guestId _ =>
    cases hplan : (c.textInputs.get guestId).bind TextInputState.prepareComposition with
    | none => exact .refl c
    | some plan =>
      obtain ⟨s, hs, hprepare⟩ := Option.bind_eq_some_iff.mp hplan
      refine answers_compose ?_ fun _ => rfl
      intro m hm
      simp only [List.mem_append, List.mem_cons, List.not_mem_nil, or_false] at hm
      rcases hm with hm | rfl | rfl
      · split_ifs at hm
        · obtain rfl := List.mem_singleton.mp hm
          exact isAnswer_of_opcode (by simp) (by simp)
        · cases hm
      · exact isAnswer_preedit ..
      · exact isAnswer_done hs hprepare

theorem answers_commitString {hostId : ℕ} {text : String} :
    c.Answers (onCommitString c hostId text) := by
  unfold onCommitString
  split
  · exact .refl c
  next guestId _ =>
    cases hplan : (c.textInputs.get guestId).bind TextInputState.prepareComposition with
    | none => exact .refl c
    | some plan =>
      obtain ⟨s, hs, hprepare⟩ := Option.bind_eq_some_iff.mp hplan
      refine answers_compose ?_ fun _ => rfl
      intro m hm
      simp only [List.mem_append, List.mem_cons, List.mem_map, List.not_mem_nil, or_false] at hm
      rcases hm with (hm | ⟨range, -, rfl⟩) | rfl | rfl
      · split_ifs at hm
        · exact List.mem_singleton.mp hm ▸ isAnswer_preedit ..
        · cases hm
      · exact isAnswer_of_opcode (by simp) (by simp)
      · exact isAnswer_of_opcode (by simp) (by simp)
      · exact isAnswer_done hs hprepare

theorem answers_setPreeditRegion {hostExtId length : ℕ} {index : ℤ} :
    c.Answers (onSetPreeditRegion c hostExtId index length) := by
  unfold onSetPreeditRegion
  split
  · exact .refl c
  next guestId _ =>
    dsimp only
    split
    · exact .refl c
    next plan text cursor anchor hplan =>
      obtain ⟨s, hs, hbind⟩ := Option.bind_eq_some_iff.mp hplan
      obtain ⟨plan', hprepare, hmap⟩ := Option.bind_eq_some_iff.mp hbind
      obtain ⟨surrounding, -, heq⟩ := Option.map_eq_some_iff.mp hmap
      obtain ⟨rfl, -⟩ := Prod.mk.inj heq
      split_ifs
      · refine answers_compose ?_ fun _ => rfl
        simp [isAnswer_preedit, isAnswer_of_opcode, isAnswer_done hs hprepare]
      · exact .refl c

/-! ### All messages -/

/-- What any message but a new text input and a commit does. -/
theorem handle_cases {m : InputMessage} (hnew : ∀ id seat, m ≠ .getTextInput id seat)
    (hcommit : ∀ id, m ≠ .commitTextInput id)
    (hconfirm : ∀ hostExtId recovered, m ≠ .confirmPreedit hostExtId recovered)
    (h : c.handle m = some c') : c.Answers c' ∨ ∃ op, c.Refocuses op c' := by
  cases m with
  | getTextInput id seat => exact absurd rfl (hnew id seat)
  | commitTextInput textInput => exact absurd rfl (hcommit textInput)
  | releaseKeyboard guestKeyboard => exact refocuses_keyboardRelease h
  | destroySurface guestSurface => exact .inr (refocuses_surfaceDestroyed h)
  | keyboardEnter hostKeyboard hostSurface => exact refocuses_keyboardEnter h
  | keyboardLeave hostKeyboard hostSurface => exact .inr (refocuses_keyboardLeave h)
  | confirmPreedit hostExtId recovered => exact absurd rfl (hconfirm hostExtId recovered)
  | destroyTextInput textInput => exact .inl (answers_destroy h)
  | enable textInput => exact .inl (Option.some.inj h ▸ answers_onFocused fun _ => rfl)
  | disable textInput => exact .inl (Option.some.inj h ▸ answers_onFocused fun _ => rfl)
  | setSurroundingText textInput text cursor anchor =>
    exact .inl (Option.some.inj h ▸ answers_setSurroundingText)
  | setTextChangeCause textInput cause =>
    exact .inl (Option.some.inj h ▸ answers_onFocused fun _ => rfl)
  | setContentType textInput hint purpose =>
    exact .inl (Option.some.inj h ▸ answers_onFocused fun _ => rfl)
  | setCursorRectangle textInput x y width height =>
    exact .inl (Option.some.inj h ▸ answers_onFocused fun _ => rfl)
  | callbackDone callback =>
    obtain ⟨⟨done, c₁⟩, h₁, rfl⟩ := Option.map_eq_some_iff.mp h
    exact .inl ((Answers.refl c).activate (onlyActivates_callback h₁))
  | preeditStyling hostId index length style =>
    exact .inl (Option.some.inj h ▸ answers_preeditStyling)
  | preeditCursor hostId index => exact .inl (Option.some.inj h ▸ answers_onActive fun _ => rfl)
  | cursorPosition hostId index anchor =>
    exact .inl (Option.some.inj h ▸ answers_onActive fun _ => rfl)
  | deleteSurroundingText hostId index length =>
    exact .inl (Option.some.inj h ▸ answers_deleteSurroundingText)
  | preeditString hostId text commit => exact .inl (Option.some.inj h ▸ answers_preeditString)
  | commitString hostId text => exact .inl (Option.some.inj h ▸ answers_commitString)
  | setPreeditRegion hostExtId index length =>
    exact .inl (Option.some.inj h ▸ answers_setPreeditRegion)
  | other shadowTable keyboardToSeat manager extension =>
    exact .inl (Option.some.inj h ▸ .keep rfl rfl rfl)

end Sommelier
