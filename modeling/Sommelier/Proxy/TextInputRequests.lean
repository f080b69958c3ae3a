import Sommelier.Input.TextInputs
import Sommelier.Proxy.Blind

/-!
# Text-input requests in batches

A handler of the text inputs adds to the queues of both directions and reads neither, so a
request is decided alike whether the messages before it went out in an earlier batch or wait to
go out with it.

## Main definitions

* `InputContext.Settles`: an operation that reads neither queue.
* `textInputRequests`: the handlers of the requests to text inputs.
-/
namespace Sommelier
namespace InputContext

/-- What later messages depend on. -/
def settled (c : InputContext) : InputContext :=
  { c with clientToHostQueue := [], hostToClientQueue := [] }

/-- A handler that reads neither queue; `none` is a panic. -/
def Settles (f : InputContext → Option InputContext) : Prop :=
  ∀ c, (f c).map settled = (f c.settled).map settled

variable {c c' : InputContext} {f g : InputContext → Option InputContext}

theorem Settles.agrees (hf : Settles f) (h : c.settled = c'.settled) :
    (f c).map settled = (f c').map settled := by
  rw [hf c, h, ← hf c']

/-- One operation after the other. -/
theorem Settles.bind (hf : Settles f) (hg : Settles g) : Settles fun c => (f c).bind g := by
  intro c
  have hsame := hf c
  dsimp only
  cases hc : f c with
  | none => simp_all
  | some d =>
    obtain ⟨d', hd', heq⟩ := Option.map_eq_some_iff.mp (hsame.symm.trans (by rw [hc]; rfl))
    rw [hd']
    exact hg.agrees heq.symm

theorem settles_foldlM {α : Type} {f : InputContext → α → Option InputContext}
    (hf : ∀ a, Settles (f · a)) (as : List α) : Settles (as.foldlM f) := by
  induction as with
  | nil => exact fun _ => rfl
  | cons a as ih => exact (hf a).bind ih

@[simp] theorem settled_shadowTable (c : InputContext) : c.settled.shadowTable = c.shadowTable :=
  rfl

@[simp] theorem settled_textInputs (c : InputContext) : c.settled.textInputs = c.textInputs := rfl

@[simp] theorem settled_v3IsFocused (c : InputContext) (guestId : ℕ) :
    v3IsFocused c.settled guestId = v3IsFocused c guestId := rfl

@[simp] theorem settled_guestForExtension (c : InputContext) (hostExtId : ℕ) :
    guestForExtension c.settled hostExtId = guestForExtension c hostExtId := rfl

/-- The barrier is queued for the host behind whatever is there. -/
theorem settles_queueHostDeactivationBarrier (guestId hostV1Id hostSeat : ℕ) :
    Settles (queueHostDeactivationBarrier · guestId hostV1Id hostSeat) := by
  rintro ⟨t, inputs, barriers, focus, seats, manager, extension, hostQueue, guestQueue, fatal⟩
  dsimp only [queueHostDeactivationBarrier, settled]
  cases t.allocateHostId with
  | none => rfl
  | some allocated =>
    simp only [Option.bind_eq_bind, Option.bind_some]
    split_ifs
    · rfl
    · cases inputs.get guestId with
      | none => rfl
      | some state =>
        dsimp only
        cases state.beginHostDraining allocated.1 <;> rfl

theorem settles_updateHostActivation (guestId : ℕ) :
    Settles (updateHostActivation · guestId) := by
  rintro ⟨t, inputs, barriers, focus, seats, manager, extension, hostQueue, guestQueue, fatal⟩
  dsimp only [updateHostActivation, settled]
  cases inputs.get guestId with
  | none => rfl
  | some state =>
    dsimp only
    split_ifs
    · rfl
    · cases t.getHostId state.guestSeat <;> rfl
    · cases t.getHostId state.guestSeat with
      | none => rfl
      | some hostSeat => exact settles_queueHostDeactivationBarrier ..
    · rfl

/-- An operation that does not fail comes first. -/
theorem Settles.after (hf : Settles f) {F : InputContext → InputContext}
    (hF : ∀ c, (F c).settled = (F c.settled).settled) : Settles fun c => f (F c) := fun c =>
  hf.agrees (hF c)

/-- Operations that do not fail. -/
theorem settles_some {f : InputContext → InputContext}
    (hf : ∀ c, (f c).settled = (f c.settled).settled) : Settles fun c => some (f c) := fun c =>
  congrArg some (hf c)

theorem Settles.map (hf : Settles f) {F : InputContext → InputContext}
    (hF : ∀ c, (F c).settled = (F c.settled).settled) : Settles fun c => (f c).map F := by
  simp only [Option.map_eq_bind]
  exact hf.bind (settles_some hF)

/-- A callback that is not a barrier changes nothing. -/
theorem settles_completeHostActivationBarrier (callback : ℕ) :
    Settles fun c => (completeHostActivationBarrier c callback).map Prod.snd := by
  rintro ⟨t, inputs, barriers, focus, seats, manager, extension, hostQueue, guestQueue, fatal⟩
  dsimp only [completeHostActivationBarrier, settled]
  cases barriers.get callback with
  | none => rfl
  | some barrier =>
    dsimp only
    cases (inputs.get barrier.1).bind fun s =>
        if s.hostV1Id = barrier.2 then s.completeHostDraining callback else none with
    | none => rfl
    | some state =>
      simp only [Option.map_map, Function.comp_def, Option.map_id']
      exact settles_updateHostActivation barrier.1 _

theorem settled_applyTextInputFocus (c : InputContext) (update : ℕ × Option ℕ) :
    (applyTextInputFocus c update).settled = (applyTextInputFocus c.settled update).settled := by
  dsimp only [applyTextInputFocus, settled_textInputs]
  cases c.textInputs.get update.1 <;> rfl

/-- The updates are found in what is settled. -/
theorem settles_applyTextInputFocusUpdates (updates : InputContext → List (ℕ × Option ℕ))
    (h : ∀ c : InputContext, updates c.settled = updates c) :
    Settles fun c => applyTextInputFocusUpdates c (updates c) := by
  intro c
  dsimp only [applyTextInputFocusUpdates]
  rw [h c]
  refine (settles_foldlM settles_updateHostActivation _).agrees ?_
  have hfold := settles_foldlM (fun update => settles_some fun c => settled_applyTextInputFocus c
    update) (updates c) c
  simp only [← Option.pure_def, List.foldlM_pure] at hfold
  exact Option.some.inj hfold

theorem settles_applyKeyboardFocusChanges (changes : List SeatFocusChange) :
    Settles (applyKeyboardFocusChanges · changes) := by
  refine settles_foldlM (fun change => ?_) changes
  intro c
  dsimp only [applyKeyboardFocusChange]
  split_ifs
  · rfl
  · exact settles_applyTextInputFocusUpdates
      (fun c => (c.textInputs.keysWhere fun _ state => state.guestSeat == change.guestSeat).map
        fun guestId => (guestId, change.currentSurface)) (fun _ => rfl) c

theorem settles_onKeyboardEnter (hostKeyboard hostSurface : ℕ) :
    Settles (onKeyboardEnter · hostKeyboard hostSurface) := by
  rintro ⟨t, inputs, barriers, focus, seats, manager, extension, hostQueue, guestQueue, fatal⟩
  dsimp only [onKeyboardEnter, settled]
  cases t.getGuestId hostSurface with
  | none => rfl
  | some guestSurface =>
    dsimp only
    split_ifs
    · rfl
    · cases seats.get ((t.getGuestId hostKeyboard).getD 0) with
      | none => rfl
      | some guestSeat =>
        dsimp only
        split_ifs
        · rfl
        · exact settles_applyKeyboardFocusChanges _ _

theorem settles_onKeyboardLeave (hostKeyboard hostSurface : ℕ) :
    Settles (onKeyboardLeave · hostKeyboard hostSurface) := by
  rintro ⟨t, inputs, barriers, focus, seats, manager, extension, hostQueue, guestQueue, fatal⟩
  dsimp only [onKeyboardLeave, settled]
  split_ifs
  · rfl
  · exact settles_applyKeyboardFocusChanges _ _

theorem settles_onKeyboardRelease (guestKeyboard : ℕ) :
    Settles (onKeyboardRelease · guestKeyboard) := by
  rintro ⟨t, inputs, barriers, focus, seats, manager, extension, hostQueue, guestQueue, fatal⟩
  dsimp only [onKeyboardRelease, settled]
  cases t.getHostId guestKeyboard with
  | none => rfl
  | some hostKeyboard => exact settles_applyKeyboardFocusChanges _ _

/-- The focus is repaired after it was moved off the surface. -/
theorem settles_onSurfaceDestroyed (guestSurface : ℕ) :
    Settles (onSurfaceDestroyed · guestSurface) := by
  intro c
  have hrepair : Settles (repairDestroyedSurfaceFocus · guestSurface) :=
    settles_applyTextInputFocusUpdates (fun c =>
      (c.textInputs.keysWhere fun _ state => state.activeSurface == some guestSurface).map
        fun guestId => (guestId, (c.textInputs.get guestId).bind fun state =>
          c.keyboardFocus.surfaceForSeat state.guestSeat)) fun _ => rfl
  let destroyed := c.keyboardFocus.destroySurface guestSurface
  exact (settles_applyKeyboardFocusChanges destroyed.1.seatChanges).bind hrepair
    { c with keyboardFocus := destroyed.2 }

theorem settles_onGetTextInput (id seat : ℕ) : Settles (onGetTextInput · id seat) := by
  rintro ⟨t, inputs, barriers, focus, seats, manager, extension, hostQueue, guestQueue, fatal⟩
  dsimp only [onGetTextInput, getExtendedTextInput, settled, toHost]
  cases manager with
  | none => rfl
  | some hostManagerId =>
    dsimp only
    cases t.allocateHostId with
    | none => rfl
    | some allocated =>
      cases extension with
      | none => rfl
      | some hostExtManagerId =>
        simp only [Option.bind_some, Option.bind_eq_bind]
        cases allocated.2.allocateHostId <;> rfl

/-- The transaction of a commit fits or not whatever was queued before it. -/
theorem settles_onCommitTextInput (guestId : ℕ) : Settles (onCommitTextInput · guestId) := by
  intro c
  dsimp only [onCommitTextInput, settled_textInputs]
  rw [settled_v3IsFocused]
  cases v3IsFocused c guestId with
  | false => rfl
  | true =>
    cases c.textInputs.get guestId with
    | none => rfl
    | some state =>
      dsimp only [Bool.not_true]
      have hconflicts : enableConflicts c.settled guestId state = enableConflicts c guestId state :=
        rfl
      rw [hconflicts]
      generalize state.prepareGuestCommit (enableConflicts c guestId state) = plan
      have hmessages : commitMessages c.settled plan = commitMessages c plan := rfl
      rw [hmessages]
      cases encodeTransaction (commitMessages c plan) with
      | none => rfl
      | some transaction =>
        have hupdate : Settles fun c => updateHostActivation
            (c.onTextInput guestId (TextInputState.finishGuestCommit plan)) guestId :=
          (settles_updateHostActivation guestId).after fun _ => rfl
        exact hupdate.map (F := (·.toHost transaction)) (fun _ => rfl) c

theorem settled_retireTextInput (guestId : ℕ) (c : InputContext) :
    (retireTextInput c guestId).settled = (retireTextInput c.settled guestId).settled := by
  cases hnone : (c.shadowTable.getInterface guestId).isNone <;>
    simp [retireTextInput, queueGuestDeleteId, hnone] <;> rfl

theorem settles_onDestroyTextInput (guestId : ℕ) : Settles (onDestroyTextInput · guestId) := by
  have hupdate : Settles fun c =>
      updateHostActivation (c.onTextInput guestId TextInputState.beginDestroy) guestId :=
    (settles_updateHostActivation guestId).after fun _ => rfl
  refine hupdate.map fun c => ?_
  dsimp only [settled_textInputs]
  cases c.textInputs.get guestId with
  | none => exact settled_retireTextInput guestId c
  | some state =>
    dsimp only
    rw [settled_retireTextInput]
    conv_rhs => rw [settled_retireTextInput]
    cases state.hostExtId <;> rfl

/-! ### Events of the host -/

theorem settled_onFocused (guestId : ℕ) (f : TextInputState → TextInputState)
    (c : InputContext) :
    (onFocused c guestId f).settled = (onFocused c.settled guestId f).settled := by
  cases hfocused : v3IsFocused c guestId <;> simp [onFocused, hfocused] <;> rfl

theorem settled_onActive (hostId : ℕ) (f : TextInputState → TextInputState)
    (c : InputContext) :
    (onActive c hostId f).settled = (onActive c.settled hostId f).settled := by
  unfold onActive
  have hactive : activeGuestForHostTextInput c.settled hostId =
      activeGuestForHostTextInput c hostId := rfl
  rw [hactive]
  cases activeGuestForHostTextInput c hostId <;> rfl

theorem settled_compose (guestId : ℕ) (messages : List QueuedMessage)
    (finish : TextInputState → TextInputState) (c : InputContext) :
    (compose c guestId messages finish).settled =
      (compose c.settled guestId messages finish).settled := by
  unfold compose
  cases encodeTransaction messages <;> rfl

theorem settled_onSetSurroundingText (textInput : ℕ) (text : String) (cursor anchor : ℤ)
    (c : InputContext) :
    (onSetSurroundingText c textInput text cursor anchor).settled =
      (onSetSurroundingText c.settled textInput text cursor anchor).settled := by
  unfold onSetSurroundingText
  split_ifs
  · exact settled_onFocused ..
  · rfl

theorem settled_onPreeditStyling (hostId index length style : ℕ) (c : InputContext) :
    (onPreeditStyling c hostId index length style).settled =
      (onPreeditStyling c.settled hostId index length style).settled := by
  unfold onPreeditStyling
  split_ifs
  · exact settled_onActive ..
  · rfl

theorem settled_onDeleteSurroundingText (hostId : ℕ) (index : ℤ) (length : ℕ)
    (c : InputContext) :
    (onDeleteSurroundingText c hostId index length).settled =
      (onDeleteSurroundingText c.settled hostId index length).settled := by
  unfold onDeleteSurroundingText
  cases convertDeleteRange index length with
  | none => rfl
  | some range => exact settled_onActive ..

/-- The text of a composition is resolved in what is settled. -/
theorem settled_onPreeditString (hostId : ℕ) (text commit : String) (c : InputContext) :
    (onPreeditString c hostId text commit).settled =
      (onPreeditString c.settled hostId text commit).settled := by
  dsimp only [onPreeditString, settled_shadowTable, settled_textInputs]
  cases c.shadowTable.getGuestId hostId with
  | none => rfl
  | some guestId =>
    dsimp only
    cases (c.textInputs.get guestId).bind TextInputState.prepareComposition with
    | none => rfl
    | some plan => exact settled_compose ..

theorem settled_onCommitString (hostId : ℕ) (text : String) (c : InputContext) :
    (onCommitString c hostId text).settled = (onCommitString c.settled hostId text).settled := by
  dsimp only [onCommitString, settled_shadowTable, settled_textInputs]
  cases c.shadowTable.getGuestId hostId with
  | none => rfl
  | some guestId =>
    dsimp only
    cases (c.textInputs.get guestId).bind TextInputState.prepareComposition with
    | none => rfl
    | some plan => exact settled_compose ..

theorem settled_onSetPreeditRegion (hostExtId : ℕ) (index : ℤ) (length : ℕ)
    (c : InputContext) :
    (onSetPreeditRegion c hostExtId index length).settled =
      (onSetPreeditRegion c.settled hostExtId index length).settled := by
  dsimp only [onSetPreeditRegion, settled_textInputs, settled_guestForExtension]
  cases guestForExtension c hostExtId with
  | none => rfl
  | some guestId =>
    dsimp only
    cases (c.textInputs.get guestId).bind fun state =>
        state.prepareComposition.bind fun plan =>
          state.committedSurroundingText.map (plan, ·) with
    | none => rfl
    | some composed =>
      dsimp only
      split_ifs
      · exact settled_compose ..
      · rfl

theorem settled_onConfirmPreedit (hostExtId : ℕ) (recovered : List QueuedMessage)
    (c : InputContext) :
    (onConfirmPreedit c hostExtId recovered).settled =
      (onConfirmPreedit c.settled hostExtId recovered).settled := by
  dsimp only [onConfirmPreedit, settled_textInputs, settled_guestForExtension]
  cases guestForExtension c hostExtId with
  | none => rfl
  | some guestId =>
    dsimp only
    cases (c.textInputs.get guestId).bind TextInputState.prepareComposition with
    | none => rfl
    | some plan =>
      dsimp only
      split_ifs
      · rfl
      · exact settled_compose ..

/-- A message is handled alike whatever the queues hold. -/
theorem settles_handle (m : InputMessage) : Settles (·.handle m) := by
  cases m with
  | getTextInput id seat => exact settles_onGetTextInput id seat
  | destroyTextInput textInput => exact settles_onDestroyTextInput textInput
  | enable | disable | setTextChangeCause | setContentType | setCursorRectangle =>
    exact settles_some (settled_onFocused _ _)
  | setSurroundingText => exact settles_some (settled_onSetSurroundingText _ _ _ _)
  | commitTextInput textInput => exact settles_onCommitTextInput textInput
  | releaseKeyboard guestKeyboard => exact settles_onKeyboardRelease guestKeyboard
  | destroySurface guestSurface => exact settles_onSurfaceDestroyed guestSurface
  | keyboardEnter hostKeyboard hostSurface =>
    exact settles_onKeyboardEnter hostKeyboard hostSurface
  | keyboardLeave hostKeyboard hostSurface =>
    exact settles_onKeyboardLeave hostKeyboard hostSurface
  | callbackDone callback => exact settles_completeHostActivationBarrier callback
  | preeditStyling => exact settles_some (settled_onPreeditStyling _ _ _ _)
  | preeditCursor | cursorPosition => exact settles_some (settled_onActive _ _)
  | deleteSurroundingText => exact settles_some (settled_onDeleteSurroundingText _ _ _)
  | preeditString => exact settles_some (settled_onPreeditString _ _ _)
  | commitString => exact settles_some (settled_onCommitString _ _)
  | setPreeditRegion => exact settles_some (settled_onSetPreeditRegion _ _ _)
  | confirmPreedit => exact settles_some (settled_onConfirmPreedit _ _)
  | other => exact fun _ => rfl

end InputContext

/-- The requests of `zwp_text_input_v3`, in the order of their opcodes. -/
def textInputV3Requests : List (MessageSchema .clientToHost) :=
  [{ since := none, args := [], destructor := true },
    { since := none, args := [], destructor := false },
    { since := none, args := [], destructor := false },
    { since := none, args := [.string false, .int, .int], destructor := false },
    { since := none, args := [.uint], destructor := false },
    { since := none, args := [.uint, .uint], destructor := false },
    { since := none, args := [.int, .int, .int, .int], destructor := false },
    { since := none, args := [], destructor := false }]

/-- The arguments of a request to a text input. -/
def textInputArgs {d : Direction} : (args : List (ArgType d)) → ArgValues args → List Payload
  | [], _ => []
  | .int :: args, (v, vs) => .signed v :: textInputArgs args vs
  | .uint :: args, (v, vs) => .word v :: textInputArgs args vs
  | .string false :: args, (v, vs) => .text v :: textInputArgs args vs
  | _ :: args, (_, vs) => textInputArgs args vs

/-- The handler of a request, by its opcode. -/
def textInputRequest (textInput : ℕ) : ℕ → List Payload → Option InputMessage
  | 0, [] => some (.destroyTextInput textInput)
  | 1, [] => some (.enable textInput)
  | 2, [] => some (.disable textInput)
  | 3, [.text text, .signed cursor, .signed anchor] =>
    some (.setSurroundingText textInput text cursor anchor)
  | 4, [.word cause] => some (.setTextChangeCause textInput cause)
  | 5, [.word hint, .word purpose] => some (.setContentType textInput hint purpose)
  | 6, [.signed x, .signed y, .signed width, .signed height] =>
    some (.setCursorRectangle textInput x y width height)
  | 7, [] => some (.commitTextInput textInput)
  | _, _ => none

/-- What the generated code does with a request; no handler of a text input forwards it. -/
def handleTextInputRequest (c : InputContext) (senderId opcode : ℕ)
    (decoded : Decoded .clientToHost) : InputContext × Except ProtocolError (Option Packet) :=
  if c.shadowTable.isPendingDestroyGuest senderId ||
      ((c.shadowTable.getHostId senderId).isNone &&
        !c.shadowTable.isLocalOnlyGuestObject senderId) then
    (c, .error (.invalidObjectId senderId))
  else
    match (textInputRequest senderId opcode (textInputArgs decoded.1.args decoded.2)).bind
        c.handle with
    | some c => (c, .ok none)
    -- a panic, which ends the session as an error does
    | none => (c, .error (.invalidObjectId senderId))

namespace QueuedMessage

/-- Encode a message for the queue it is added to. -/
def packet (o : ByteOrder) (m : QueuedMessage) : Except ProtocolError Packet :=
  let builder := m.payload.foldl (fun b arg =>
    match arg with
    | .word value => b.writeU32 o value
    | .signed value => b.writeI32 o value
    | .text value => b.writeString o value) MessageBuilder.new
  (tryBuildMessage o builder.payload m.senderId m.opcode).map fun bytes => (bytes, builder.fds)

end QueuedMessage

/-- The same with the checks before the handler. -/
theorem settled_handleTextInputRequest {c c' : InputContext} (h : c.settled = c'.settled)
    (senderId opcode : ℕ) (decoded : Decoded .clientToHost) :
    (handleTextInputRequest c senderId opcode decoded).1.settled =
        (handleTextInputRequest c' senderId opcode decoded).1.settled ∧
      (handleTextInputRequest c senderId opcode decoded).2 =
        (handleTextInputRequest c' senderId opcode decoded).2 := by
  have htable : c.shadowTable = c'.shadowTable := congrArg (·.shadowTable) h
  unfold handleTextInputRequest
  rw [htable]
  split_ifs
  · exact ⟨h, rfl⟩
  · cases textInputRequest senderId opcode (textInputArgs decoded.1.args decoded.2) with
    | none => exact ⟨h, rfl⟩
    | some m =>
      have hhandled := (InputContext.settles_handle m).agrees h
      simp only [Option.bind_some]
      cases hc : c.handle m with
      | none =>
        rw [hc, Option.map_none, eq_comm, Option.map_eq_none_iff] at hhandled
        rw [hhandled]
        exact ⟨h, rfl⟩
      | some d =>
        rw [hc, Option.map_some, eq_comm, Option.map_eq_some_iff] at hhandled
        obtain ⟨d', hd', hsettled⟩ := hhandled
        rw [hd']
        exact ⟨hsettled.symm, rfl⟩

/-- The handlers of the requests the guest sends to its text inputs. -/
def textInputRequests (o : ByteOrder) : SommelierHandler InputContext where
  shadowTable := InputContext.shadowTable
  interfaceName interface := if interface = .zwpTextInputV3 then "zwp_text_input_v3" else ""
  classifyInterface name :=
    if name = "zwp_text_input_v3" then
      some { schema := ⟨textInputV3Requests, []⟩, aura := false, aura_fdCount := nofun }
    else none
  on
    | .clientToHost, c, _, senderId, opcode, decoded =>
      handleTextInputRequest c senderId opcode decoded
    | .hostToClient, c, _, _, _, _ => (c, .ok none)
  pendingHostEventIsStale c senderId _ _ := c.shadowTable.isPendingDestroyHost senderId
  setLastSenderId c _ := c
  fatalProtocolError := InputContext.fatalProtocolError
  takeQueue
    | .clientToHost, c =>
      (c.clientToHostQueue.filterMap fun m => (m.packet o).toOption,
        { c with clientToHostQueue := [] })
    | .hostToClient, c =>
      (c.hostToClientQueue.filterMap fun m => (m.packet o).toOption,
        { c with hostToClientQueue := [] })
  reapClipboardPumps c := c
  clearFeedbackRefreshPending c := c
  shadowTable_setLastSenderId _ _ := rfl

/-- The requests are decided alike in all batches. -/
theorem textInputRequests_blind (o : ByteOrder) :
    (textInputRequests o).Blind InputContext.settled where
  reap _ := rfl
  clear _ := rfl
  takeQueue d _ := by cases d <;> rfl
  shadowTable h := by
    have htable := congrArg InputContext.shadowTable h
    exact htable
  stale h := by
    have htable := congrArg InputContext.shadowTable h
    funext senderId _ _
    exact congrArg (·.isPendingDestroyHost senderId) htable
  fatal h := by
    have hfatal := congrArg InputContext.fatalProtocolError h
    exact hfatal
  setLastSenderId h _ := h
  on h d _ senderId opcode decoded := by
    cases d with
    | clientToHost => exact settled_handleTextInputRequest h senderId opcode decoded
    | hostToClient => exact ⟨h, rfl⟩

end Sommelier
