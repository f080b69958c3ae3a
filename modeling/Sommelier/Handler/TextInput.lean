import Mathlib.Algebra.Ring.Nat
import Sommelier.State.KeyboardFocus
import Sommelier.State.ShadowTable
import Sommelier.State.TextInput

/-!
# Text inputs

A guest text input is backed by a host text input of an older protocol, which is activated for
one surface at a time. The handlers keep the host activation in step with the focus of the
seat and with what the guest enabled.

## Main definitions

* `QueuedMessage`: a message of these handlers, with the part of its size that can be large.
* `InputContext`: the session state these handlers share.
* `updateHostActivation`: the reconciliation of the host object.
* `applyKeyboardFocusChanges`, `repairDestroyedSurfaceFocus`: focus changes.
-/
namespace Sommelier

/-! ## Messages -/

inductive Payload
  | word (value : ℕ)
  | signed (value : ℤ)
  | text (value : String)
  deriving DecidableEq, Repr

/-- The bytes of an argument; a text has its length before it and is padded. -/
def Payload.size : Payload → ℕ
  | word _ => 4
  | signed _ => 4
  | text value => 4 + (value.utf8ByteSize + 4) / 4 * 4

structure QueuedMessage where
  senderId : ℕ
  opcode : ℕ
  payload : List Payload
  deriving DecidableEq, Repr

/-- The message can be built: its length fits the header. -/
def QueuedMessage.fits (m : QueuedMessage) : Bool :=
  decide ((m.payload.map Payload.size).sum + 8 ≤ 0xffff)

/-- A transaction is sent whole, or not at all when one of its messages is too large. -/
def encodeTransaction (messages : List QueuedMessage) : Option (List QueuedMessage) :=
  if messages.all QueuedMessage.fits then some messages else none

def isCharBoundary (text : String) (index : ℕ) : Bool := String.Pos.Raw.isValid text ⟨index⟩

/-! ## State -/

structure InputContext where
  shadowTable : ShadowTable
  textInputs : Table ℕ TextInputState
  /-- the text input and its host object, by callback -/
  textInputActivationBarriers : Table ℕ (ℕ × ℕ)
  keyboardFocus : KeyboardFocusRegistry
  keyboardToSeat : Table ℕ ℕ
  hostTextInputManagerV1Id : Option ℕ
  hostTextInputExtensionV1Id : Option ℕ
  clientToHostQueue : List QueuedMessage
  hostToClientQueue : List QueuedMessage
  fatalProtocolError : Bool

namespace InputContext

def new : InputContext where
  shadowTable := (ShadowTable.new.mapId 1 1).trackInterface 1 .wlDisplay
  textInputs := ∅
  textInputActivationBarriers := ∅
  keyboardFocus := .new
  keyboardToSeat := ∅
  hostTextInputManagerV1Id := none
  hostTextInputExtensionV1Id := none
  clientToHostQueue := []
  hostToClientQueue := []
  fatalProtocolError := false

def toHost (c : InputContext) (messages : List QueuedMessage) : InputContext :=
  { c with clientToHostQueue := c.clientToHostQueue ++ messages }

def toGuest (c : InputContext) (messages : List QueuedMessage) : InputContext :=
  { c with hostToClientQueue := c.hostToClientQueue ++ messages }

def onTextInput (c : InputContext) (guestId : ℕ) (f : TextInputState → TextInputState) :
    InputContext :=
  { c with textInputs := c.textInputs.modify guestId f }

def fatal (c : InputContext) : InputContext := { c with fatalProtocolError := true }

end InputContext

/-! ## Host activation -/

/-- Forget a callback that was never sent. -/
def withdrawBarrier (c : InputContext) (callback : ℕ) : InputContext :=
  { c with
    textInputActivationBarriers := c.textInputActivationBarriers.erase callback
    shadowTable := c.shadowTable.removeHostInterface callback }

/-- Deactivate the host object and wait for the callback that drains its events; `none` is the
panic of an exhausted ID space. -/
def queueHostDeactivationBarrier (c : InputContext) (guestId hostV1Id hostSeat : ℕ) :
    Option InputContext := do
  let (callback, shadowTable) ← c.shadowTable.allocateHostId
  let c := { c with
    shadowTable := shadowTable.trackHostInterfaceWithVersion callback .wlCallback 1 }
  if (c.textInputActivationBarriers.get callback).isSome then
    return { c.fatal with shadowTable := c.shadowTable.removeHostInterface callback }
  let c := { c with
    textInputActivationBarriers :=
      c.textInputActivationBarriers.set callback (guestId, hostV1Id) }
  match c.textInputs.get guestId with
  | none => return withdrawBarrier c callback
  | some state =>
    match state.beginHostDraining callback with
    | none => return (withdrawBarrier c callback).fatal
    | some state =>
      return { c with textInputs := c.textInputs.set guestId state }.toHost
        [⟨hostV1Id, 1, [.word hostSeat]⟩, ⟨1, 0, [.word callback]⟩]

/-- Reconcile the host object with the state of a text input. -/
def updateHostActivation (c : InputContext) (guestId : ℕ) : Option InputContext :=
  match c.textInputs.get guestId with
  | none => some c
  | some state =>
    let hostSurface := state.activeSurface.bind c.shadowTable.getHostId
    let targetActivated := state.committedEnabled && hostSurface.isSome
    if (targetActivated && state.hostActivation == .inactive) ||
        (!targetActivated && state.hostActivation == .active) then
      -- Nothing is sent for a seat that is being destroyed or is gone.
      if c.shadowTable.isPendingDestroyGuest state.guestSeat then
        some (c.onTextInput guestId fun s => s.deactivateHostWithoutBarrier.getD s)
      else
        match c.shadowTable.getHostId state.guestSeat with
        | none =>
          if targetActivated then some c
          else some (c.onTextInput guestId fun s => s.deactivateHostWithoutBarrier.getD s)
        | some hostSeat =>
          if targetActivated then
            some ((c.toHost
              [⟨state.hostV1Id, 0, [.word hostSeat, .word (hostSurface.getD 0)]⟩]).onTextInput
                guestId fun s => s.activateHost.getD s)
          else queueHostDeactivationBarrier c guestId state.hostV1Id hostSeat
    else some c

/-- The callback of a barrier arrived; `none` in the pair when it belongs to no barrier. -/
def completeHostActivationBarrier (c : InputContext) (callback : ℕ) :
    Option (Bool × InputContext) :=
  match c.textInputActivationBarriers.get callback with
  | none => some (false, c)
  | some (guestId, hostV1Id) =>
    let c := { c with
      textInputActivationBarriers := c.textInputActivationBarriers.erase callback
      shadowTable := (c.shadowTable.markPendingDestroyHost callback).2 }
    match (c.textInputs.get guestId).bind fun s =>
        if s.hostV1Id = hostV1Id then s.completeHostDraining callback else none with
    | none => some (true, c)
    | some state =>
      (updateHostActivation { c with textInputs := c.textInputs.set guestId state } guestId).map
        fun c => (true, c)

/-! ## Focus -/

/-- The leave and the enter a text input is told when its surface changes. -/
def focusEvents (guestId : ℕ) (previousSurface currentSurface : Option ℕ) : List QueuedMessage :=
  if previousSurface = currentSurface then []
  else (previousSurface.toList.map fun surface => ⟨guestId, 1, [.word surface]⟩) ++
    currentSurface.toList.map fun surface => ⟨guestId, 0, [.word surface]⟩

/-- Move the focus of one text input. -/
def applyTextInputFocus (c : InputContext) (update : ℕ × Option ℕ) : InputContext :=
  match c.textInputs.get update.1 with
  | none => c
  | some state =>
    (c.toGuest (focusEvents update.1 state.activeSurface update.2)).onTextInput update.1
      (TextInputState.applyFocus update.2)

/-- All text inputs move before the first host object is reconciled. -/
def applyTextInputFocusUpdates (c : InputContext) (updates : List (ℕ × Option ℕ)) :
    Option InputContext :=
  (updates.map Prod.fst).foldlM updateHostActivation (updates.foldl applyTextInputFocus c)

def applyKeyboardFocusChange (c : InputContext) (change : SeatFocusChange) :
    Option InputContext :=
  if change.previousSurface = change.currentSurface then some c
  else applyTextInputFocusUpdates c
    ((c.textInputs.keysWhere fun _ state => state.guestSeat == change.guestSeat).map
      fun guestId => (guestId, change.currentSurface))

def applyKeyboardFocusChanges (c : InputContext) (changes : List SeatFocusChange) :
    Option InputContext :=
  changes.foldlM applyKeyboardFocusChange c

/-- Text inputs that still refer to a destroyed surface take the surface of their seat. -/
def repairDestroyedSurfaceFocus (c : InputContext) (destroyedSurface : ℕ) :
    Option InputContext :=
  applyTextInputFocusUpdates c
    ((c.textInputs.keysWhere fun _ state => state.activeSurface == some destroyedSurface).map
      fun guestId => (guestId, (c.textInputs.get guestId).bind fun state =>
        c.keyboardFocus.surfaceForSeat state.guestSeat))

/-! ## Guest requests -/

/-- A text input without a surface ignores its requests. -/
def v3IsFocused (c : InputContext) (guestId : ℕ) : Bool :=
  (c.textInputs.get guestId).any fun state => state.activeSurface.isSome

/-- A request that changes the pending state of a focused text input. -/
def onFocused (c : InputContext) (guestId : ℕ) (f : TextInputState → TextInputState) :
    InputContext :=
  if v3IsFocused c guestId then c.onTextInput guestId f else c

/-- Ask the extension for its half of a new text input, if the host has the extension. -/
def getExtendedTextInput (c : InputContext) (hostV1Id : ℕ) : Option (Option ℕ × InputContext) :=
  match c.hostTextInputExtensionV1Id with
  | none => some (none, c)
  | some hostExtManagerId => do
    let (hostExtId, shadowTable) ← c.shadowTable.allocateHostId
    return (some hostExtId, { c with shadowTable }.toHost
      [⟨hostExtManagerId, 0, [.word hostExtId, .word hostV1Id]⟩])

/-- The IDs of a new text input and its host objects. -/
def registerTextInput (c : InputContext) (id hostV1Id : ℕ) (hostExtId : Option ℕ) :
    ShadowTable :=
  let shadowTable := ((c.shadowTable.mapId id hostV1Id).trackInterfaceWithVersion id
    .zwpTextInputV3 1).trackHostInterfaceWithVersion hostV1Id .zwpTextInputV1 1
  match hostExtId with
  | none => shadowTable
  | some hostExtId =>
    shadowTable.trackHostInterfaceWithVersion hostExtId .zcrExtendedTextInputV1
      ((c.hostTextInputExtensionV1Id.bind shadowTable.hostObjectVersion).getD unknownObjectVersion)

/-- `none` is the panic of an exhausted ID space. -/
def onGetTextInput (c : InputContext) (id seat : ℕ) : Option InputContext :=
  match c.hostTextInputManagerV1Id with
  | none => some c
  | some hostManagerId =>
    c.shadowTable.allocateHostId.bind fun (hostV1Id, shadowTable) =>
      (getExtendedTextInput ({ c with shadowTable }.toHost [⟨hostManagerId, 0, [.word hostV1Id]⟩])
        hostV1Id).map fun (hostExtId, c) =>
          let activeSurface := c.keyboardFocus.surfaceForSeat seat
          { c with
            shadowTable := registerTextInput c id hostV1Id hostExtId
            textInputs := c.textInputs.set id
              (.new hostV1Id hostExtId seat activeSurface) }.toGuest
            (focusEvents id none activeSurface)

def onEnable (c : InputContext) (guestId : ℕ) : InputContext :=
  onFocused c guestId (TextInputState.beginEnabledTransaction true)

def onDisable (c : InputContext) (guestId : ℕ) : InputContext :=
  onFocused c guestId (TextInputState.beginEnabledTransaction false)

def onSetSurroundingText (c : InputContext) (guestId : ℕ) (text : String) (cursor anchor : ℤ) :
    InputContext :=
  if 0 ≤ cursor && 0 ≤ anchor && isCharBoundary text cursor.toNat &&
      isCharBoundary text anchor.toNat then
    onFocused c guestId (TextInputState.setSurroundingText text cursor anchor)
  else c

def onSetTextChangeCause (c : InputContext) (guestId cause : ℕ) : InputContext :=
  onFocused c guestId (TextInputState.setTextChangeCause cause)

def onSetContentType (c : InputContext) (guestId hint purpose : ℕ) : InputContext :=
  onFocused c guestId (TextInputState.setContentType hint purpose)

def onSetCursorRectangle (c : InputContext) (guestId : ℕ) (x y width height : ℤ) :
    InputContext :=
  onFocused c guestId (TextInputState.setCursorRect (x, y, width, height))

/-- Another text input of the seat is enabled. -/
def enableConflicts (c : InputContext) (guestId : ℕ) (state : TextInputState) : Bool :=
  state.enabledDirty && state.pendingEnabled && c.textInputs.any fun otherId other =>
    otherId != guestId && other.guestSeat == state.guestSeat && other.committedEnabled

def extensionVersionAllows (version required : ℕ) : Bool :=
  version == unknownObjectVersion || decide (required ≤ version)

/-- The hint and the purpose of the host protocol, and its extension's type, mode, flags and
learning mode. -/
def mapV3ContentType (hint purpose : ℕ) : ℕ × ℕ × ℕ × ℕ × ℕ × ℕ :=
  let flag (mask value : ℕ) : ℕ := if hint &&& mask ≠ 0 then value else 0
  let isPassword := purpose == 8 || purpose == 9
  let sensitive := decide (hint &&& (0x40 ||| 0x80) ≠ 0)
  let v1Hint := if purpose = 9 then hint ||| 0x80 else hint
  let v1Purpose := match purpose with
    | 9 => 2
    | 10 => 9
    | 11 => 10
    | 12 => 11
    | 13 => 12
    | _ => if purpose ≤ 8 then purpose else 0
  let inputType := match purpose with
    | 0 | 1 | 7 => if hint &&& 0x200 ≠ 0 then 14 else 1
    | 2 | 3 | 9 => 5
    | 4 => 6
    | 5 => 7
    | 6 => 4
    | 8 => 2
    | 10 => 8
    | 11 => 12
    | 12 => 9
    | _ => 1
  let inputMode := match purpose with
    | 2 | 9 => 6
    | 3 => 7
    | 4 => 3
    | 5 => 4
    | 6 => 5
    | _ => 0
  let inputFlags := flag 0x1 1 ||| flag 0x2 (1 <<< 4) ||| flag 0x4 (1 <<< 9) |||
    flag 0x8 (1 <<< 6) ||| flag 0x10 (1 <<< 7) ||| flag 0x20 (1 <<< 8) |||
    if sensitive || isPassword then 1 <<< 10 else 0
  let learningMode := if isPassword || sensitive then 0 else 1
  (v1Hint, v1Purpose, inputType, inputMode, inputFlags, learningMode)

/-- The content type of a commit; what the extension is told depends on its version. -/
def contentTypeMessages (c : InputContext) (plan : GuestCommitPlan) (hint purpose : ℕ) :
    List QueuedMessage :=
  let (v1Hint, v1Purpose, inputType, inputMode, inputFlags, learningMode) :=
    mapV3ContentType hint purpose
  let toExtension (message : ℕ → ℕ → List QueuedMessage) : List QueuedMessage :=
    match plan.hostExtId with
    | none => []
    | some hostExtId =>
      message hostExtId ((c.shadowTable.hostObjectVersion hostExtId).getD unknownObjectVersion)
  let arguments : List Payload :=
    [.word inputType, .word inputMode, .word inputFlags, .word learningMode]
  toExtension (fun hostExtId version =>
      if extensionVersionAllows version 9 then
        [⟨hostExtId, 7, [.word (if plan.hasSurroundingText then 1 else 0)]⟩]
      else []) ++
    [⟨plan.hostV1Id, 6, [.word v1Hint, .word v1Purpose]⟩] ++
    toExtension (fun hostExtId version =>
      if extensionVersionAllows version 8 then [⟨hostExtId, 6, arguments ++ [.word 1]⟩]
      else if extensionVersionAllows version 2 then [⟨hostExtId, 1, arguments⟩]
      else [])

/-- The messages of a commit, in order. -/
def commitMessages (c : InputContext) (plan : GuestCommitPlan) : List QueuedMessage :=
  (match plan.surroundingText with
    | none => []
    | some none => [⟨plan.hostV1Id, 5, [.text "", .word 0, .word 0]⟩]
    | some (some (text, cursor, anchor)) =>
      [⟨plan.hostV1Id, 5, [.text text, .word cursor.toNat, .word anchor.toNat]⟩]) ++
  (match plan.contentType with
    | none => []
    | some (hint, purpose) => contentTypeMessages c plan hint purpose) ++
  (match plan.cursorRect with
    | none => []
    | some (x, y, w, h) =>
      [⟨plan.hostV1Id, 7, [.signed x, .signed y, .signed w, .signed h]⟩]) ++
  [⟨plan.hostV1Id, 9, [.word plan.serial]⟩]

/-- The state is changed only when every message of the commit could be built. -/
def onCommitTextInput (c : InputContext) (guestId : ℕ) : Option InputContext :=
  if !v3IsFocused c guestId then some c
  else
    match c.textInputs.get guestId with
    | none => some c
    | some state =>
      let plan := state.prepareGuestCommit (enableConflicts c guestId state)
      match encodeTransaction (commitMessages c plan) with
      | none => some c
      | some transaction =>
        (updateHostActivation (c.onTextInput guestId (TextInputState.finishGuestCommit plan))
          guestId).map fun c => c.toHost transaction

/-- Tell the guest that the ID of a text input is free; `false` when it has no interface. -/
def queueGuestDeleteId (c : InputContext) (guestId : ℕ) : Bool × InputContext :=
  if (c.shadowTable.getInterface guestId).isNone then (false, c)
  else (true, c.toGuest [⟨1, 1, [.word guestId]⟩])

/-- The host object stays: its protocol has no destructor. -/
def retireTextInput (c : InputContext) (guestId : ℕ) : InputContext :=
  let (queued, c) := queueGuestDeleteId c guestId
  if queued then { c with shadowTable := c.shadowTable.removeGuestMapping guestId } else c

def onDestroyTextInput (c : InputContext) (guestId : ℕ) : Option InputContext :=
  (updateHostActivation (c.onTextInput guestId TextInputState.beginDestroy) guestId).map fun c =>
    match c.textInputs.get guestId with
    | none => retireTextInput c guestId
    | some state =>
      let c := { c with textInputs := c.textInputs.erase guestId }
      let c := match state.hostExtId with
        | none => c
        | some hostExtId =>
          { c.toHost [⟨hostExtId, 0, []⟩] with
            shadowTable := (c.shadowTable.markPendingDestroyHost hostExtId).2 }
      retireTextInput c guestId

/-! ## Host composition events -/

def activeGuestForHostTextInput (c : InputContext) (hostId : ℕ) : Option ℕ :=
  (c.shadowTable.getGuestId hostId).filter fun guestId =>
    (c.textInputs.get guestId).any TextInputState.hostIsActive

/-- An event that only notes something for the next composition. -/
def onActive (c : InputContext) (hostId : ℕ) (f : TextInputState → TextInputState) :
    InputContext :=
  match activeGuestForHostTextInput c hostId with
  | none => c
  | some guestId => c.onTextInput guestId f

def onPreeditStyling (c : InputContext) (hostId index length style : ℕ) : InputContext :=
  if style = 6 then onActive c hostId (TextInputState.recordPreeditSelection index length) else c

def onPreeditCursor (c : InputContext) (hostId : ℕ) (index : ℤ) : InputContext :=
  onActive c hostId (TextInputState.recordPreeditCursor index)

def onCursorPosition (c : InputContext) (hostId : ℕ) (index anchor : ℤ) : InputContext :=
  onActive c hostId (TextInputState.recordCursorPosition index anchor)

/-- The bytes before and after the cursor, when the range touches it. -/
def convertDeleteRange (index : ℤ) (length : ℕ) : Option (ℕ × ℕ) :=
  if 0 < index ∨ index + length < 0 then none
  else some (index.natAbs, (index + length).toNat)

def onDeleteSurroundingText (c : InputContext) (hostId : ℕ) (index : ℤ) (length : ℕ) :
    InputContext :=
  match convertDeleteRange index length with
  | none => c
  | some (before, after) => onActive c hostId (TextInputState.recordDelete before after)

/-- A composition that is sent to the guest as a whole, or dropped. -/
def compose (c : InputContext) (guestId : ℕ) (messages : List QueuedMessage)
    (finish : TextInputState → TextInputState) : InputContext :=
  match encodeTransaction messages with
  | none => c
  | some transaction => (c.onTextInput guestId finish).toGuest transaction

def resolvePreeditCursor (text : String) (selection : Option (ℕ × ℕ)) (cursor : Option ℤ) :
    ℤ × ℤ :=
  let atEnd : ℤ × ℤ := (text.utf8ByteSize, text.utf8ByteSize)
  match selection, cursor with
  | some (index, length), _ =>
    let last := min (index + length) 0xffffffff
    if isCharBoundary text index && isCharBoundary text last then (index, last) else atEnd
  | none, some cursor =>
    if cursor < 0 then (-1, -1)
    else if isCharBoundary text cursor.toNat then (cursor, cursor)
    else atEnd
  | none, none => atEnd

def preeditMessage (guestId : ℕ) (text : String) (cursor : ℤ × ℤ) : QueuedMessage :=
  ⟨guestId, 2, [.text text, .signed cursor.1, .signed cursor.2]⟩

def onPreeditString (c : InputContext) (hostId : ℕ) (text commit : String) : InputContext :=
  match c.shadowTable.getGuestId hostId with
  | none => c
  | some guestId =>
    match (c.textInputs.get guestId).bind TextInputState.prepareComposition with
    | none => c
    | some plan =>
      -- The fallback text is inserted only when the host clears the preedit.
      let fallback : List QueuedMessage :=
        if plan.preedit ≠ "" ∧ text = "" ∧ commit ≠ "" then [⟨guestId, 3, [.text commit]⟩] else []
      compose c guestId
        (fallback ++ [preeditMessage guestId text
          (resolvePreeditCursor text plan.selection plan.cursor),
          ⟨guestId, 5, [.word plan.doneSerial]⟩])
        (TextInputState.finishHostPreedit text)

def onCommitString (c : InputContext) (hostId : ℕ) (text : String) : InputContext :=
  match c.shadowTable.getGuestId hostId with
  | none => c
  | some guestId =>
    match (c.textInputs.get guestId).bind TextInputState.prepareComposition with
    | none => c
    | some plan =>
      compose c guestId
        ((if plan.preedit ≠ "" then [preeditMessage guestId "" (0, 0)] else []) ++
          plan.deletes.map (fun (before, after) => ⟨guestId, 4, [.word before, .word after]⟩) ++
          [⟨guestId, 3, [.text text]⟩, ⟨guestId, 5, [.word plan.doneSerial]⟩])
        TextInputState.finishHostCommit

/-- The text input an extension object belongs to. -/
def guestForExtension (c : InputContext) (hostExtId : ℕ) : Option ℕ :=
  (c.textInputs.keysWhere fun _ state => state.hostExtId == some hostExtId).head?

def onSetPreeditRegion (c : InputContext) (hostExtId : ℕ) (index : ℤ) (length : ℕ) :
    InputContext :=
  match guestForExtension c hostExtId with
  | none => c
  | some guestId =>
    match (c.textInputs.get guestId).bind fun state =>
        state.prepareComposition.bind fun plan => state.committedSurroundingText.map (plan, ·) with
    | none => c
    | some (plan, text, cursor, _) =>
      let start := cursor + index
      let stop := start + length
      if 0 ≤ start && stop ≤ text.utf8ByteSize && isCharBoundary text start.toNat &&
          isCharBoundary text stop.toNat && start ≤ cursor && cursor ≤ stop then
        let preedit := String.Pos.Raw.extract text ⟨start.toNat⟩ ⟨stop.toNat⟩
        compose c guestId
          [⟨guestId, 4, [.word (cursor - start).toNat, .word (stop - cursor).toNat]⟩,
            preeditMessage guestId preedit (resolvePreeditCursor preedit plan.selection
              (plan.cursor.or (some (cursor - start)))),
            ⟨guestId, 5, [.word plan.doneSerial]⟩]
          (TextInputState.finishPreeditRegion preedit)
      else c

/-- An empty confirmation may stand for a key the input method took; it is answered by
`recovered` messages and changes no text input. -/
def onConfirmPreedit (c : InputContext) (hostExtId : ℕ) (recovered : List QueuedMessage) :
    InputContext :=
  match guestForExtension c hostExtId with
  | none => c
  | some guestId =>
    match (c.textInputs.get guestId).bind TextInputState.prepareComposition with
    | none => c
    | some plan =>
      if plan.preedit = "" then c.toGuest recovered
      else compose c guestId
        [preeditMessage guestId "" (0, 0), ⟨guestId, 3, [.text plan.preedit]⟩,
          ⟨guestId, 5, [.word plan.doneSerial]⟩]
        TextInputState.finishConfirmPreedit

/-! ## Keyboards and surfaces -/

/-- `wl_keyboard.enter`. -/
def onKeyboardEnter (c : InputContext) (hostKeyboard hostSurface : ℕ) : Option InputContext :=
  match c.shadowTable.getGuestId hostSurface with
  | none => some c
  | some guestSurface =>
    if guestSurface = 0 ∨ c.shadowTable.isPendingDestroyHost hostSurface = true then some c
    else
      match c.keyboardToSeat.get ((c.shadowTable.getGuestId hostKeyboard).getD 0) with
      | none => some c
      | some guestSeat =>
        let focus : KeyboardFocus := { guestSeat, guestSurface, hostSurface }
        if c.keyboardFocus.focusForKeyboard hostKeyboard = some focus then some c
        else
          let (update, keyboardFocus) := c.keyboardFocus.enter hostKeyboard focus
          applyKeyboardFocusChanges { c with keyboardFocus } update.seatChanges

/-- `wl_keyboard.leave`. -/
def onKeyboardLeave (c : InputContext) (hostKeyboard hostSurface : ℕ) : Option InputContext :=
  let (update, keyboardFocus) := c.keyboardFocus.leave hostKeyboard hostSurface
  let c := { c with keyboardFocus }
  if !update.accepted then some c else applyKeyboardFocusChanges c update.seatChanges

/-- `wl_keyboard.release`. -/
def onKeyboardRelease (c : InputContext) (guestKeyboard : ℕ) : Option InputContext :=
  let c := { c with keyboardToSeat := c.keyboardToSeat.erase guestKeyboard }
  match c.shadowTable.getHostId guestKeyboard with
  | none => some c
  | some hostKeyboard =>
    let (update, keyboardFocus) := c.keyboardFocus.release hostKeyboard
    applyKeyboardFocusChanges { c with keyboardFocus } update.seatChanges

/-- The input part of `wl_surface.destroy`. -/
def onSurfaceDestroyed (c : InputContext) (guestSurface : ℕ) : Option InputContext := do
  let (update, keyboardFocus) := c.keyboardFocus.destroySurface guestSurface
  let c ← applyKeyboardFocusChanges { c with keyboardFocus } update.seatChanges
  repairDestroyedSurfaceFocus c guestSurface

end Sommelier
