import Sommelier.Ids.Context

/-!
# Text inputs and keyboards

The handlers of text inputs, keyboards and their focus, as far as they create, name or retire
IDs: the host objects behind a text input, the callbacks that drain one, the extended object
of a keyboard, and the events that tell the guest about the surface in focus.

## Main definitions

* `IdContext.updateHostActivation`: the reconciliation of a text input with its host object.
* `IdContext.onGetTextInput`, `IdContext.onDestroyTextInput`: the life of a text input.
* `IdContext.applyKeyboardFocusChanges`, `IdContext.repairDestroyedSurfaceFocus`: focus.
* `IdContext.onKeyboardEnter`, `IdContext.onKeyboardLeave`, `IdContext.onKeyboardRelease`.
-/
namespace Sommelier.IdContext

def onTextInput (c : IdContext) (guestId : ℕ) (f : TextInputState → TextInputState) : IdContext :=
  { c with textInputs := c.textInputs.modify guestId f }

/-! ## Host activation -/

/-- Forget a callback that was never sent. -/
def withdrawBarrier (c : IdContext) (callback : ℕ) : IdContext :=
  { c with
    textInputActivationBarriers := c.textInputActivationBarriers.erase callback }.onIds
      (·.onTable (·.removeHostInterface callback))

/-- Deactivate the host object and wait for the callback that drains its events. A barrier that
is already there, or an object that is not active, ends the session. -/
def queueHostDeactivationBarrier (c : IdContext) (guestId hostV1Id : ℕ) : Option IdContext := do
  let (callback, s) ← c.toIdState.allocateHostId
  let c := { c with
    toIdState := s.onTable (·.trackHostInterfaceWithVersion callback .wlCallback 1) }
  if (c.textInputActivationBarriers.get callback).isSome then none
  else
    let c := { c with
      textInputActivationBarriers :=
        c.textInputActivationBarriers.set callback (guestId, hostV1Id) }
    match c.textInputs.get guestId with
    | none => return c.withdrawBarrier callback
    | some state =>
      (state.beginHostDraining callback).map fun state =>
        { c with textInputs := c.textInputs.set guestId state }.onIds (·.queueNewId callback)

/-- Reconcile the host object with the state of a text input. -/
def updateHostActivation (c : IdContext) (guestId : ℕ) : Option IdContext :=
  match c.textInputs.get guestId with
  | none => some c
  | some state =>
    let hostSurface := state.activeSurface.bind c.shadowTable.getHostId
    let targetActivated := state.committedEnabled && hostSurface.isSome
    if (targetActivated && state.hostActivation == .inactive) ||
        (!targetActivated && state.hostActivation == .active) then
      -- Nothing is sent for a seat that is being destroyed or is gone.
      if c.shadowTable.isPendingDestroyGuest state.guestSeat then
        some (c.onTextInput guestId fun s => s.deactivateHostWithoutBarrier.getD s)
      else if (c.shadowTable.getHostId state.guestSeat).isNone then
        if targetActivated then some c
        else some (c.onTextInput guestId fun s => s.deactivateHostWithoutBarrier.getD s)
      else if targetActivated then some (c.onTextInput guestId fun s => s.activateHost.getD s)
      else c.queueHostDeactivationBarrier guestId state.hostV1Id
    else some c

/-- The callback of a barrier arrived. -/
def completeHostActivationBarrier (c : IdContext) (callback guestId hostV1Id : ℕ) :
    Option IdContext :=
  let c := { c with
    textInputActivationBarriers := c.textInputActivationBarriers.erase callback }.onIds
      (·.destroyInternal callback)
  match (c.textInputs.get guestId).bind fun s =>
      if s.hostV1Id = hostV1Id then s.completeHostDraining callback else none with
  | none => some c
  | some state => { c with textInputs := c.textInputs.set guestId state }.updateHostActivation
      guestId

/-! ## Focus -/

/-- The leave and the enter a text input is told when its surface changes. -/
def sendFocus (c : IdContext) (guestId : ℕ) (previousSurface currentSurface : Option ℕ) :
    IdContext :=
  if previousSurface = currentSurface then c
  else (previousSurface.toList ++ currentSurface.toList).foldl
    (fun c surface => c.onIds (·.emit guestId [surface])) c

/-- Move the focus of one text input. -/
def applyTextInputFocus (c : IdContext) (update : ℕ × Option ℕ) : IdContext :=
  match c.textInputs.get update.1 with
  | none => c
  | some state =>
    (c.sendFocus update.1 state.activeSurface update.2).onTextInput update.1
      (TextInputState.applyFocus update.2)

/-- All text inputs move before the first host object is reconciled. -/
def applyTextInputFocusUpdates (c : IdContext) (updates : List (ℕ × Option ℕ)) :
    Option IdContext :=
  (updates.map Prod.fst).foldlM updateHostActivation (updates.foldl applyTextInputFocus c)

def applyKeyboardFocusChange (c : IdContext) (change : SeatFocusChange) : Option IdContext :=
  if change.previousSurface = change.currentSurface then some c
  else c.applyTextInputFocusUpdates
    ((c.textInputs.keysWhere fun _ state => state.guestSeat == change.guestSeat).map
      fun guestId => (guestId, change.currentSurface))

def applyKeyboardFocusChanges (c : IdContext) (changes : List SeatFocusChange) :
    Option IdContext :=
  changes.foldlM applyKeyboardFocusChange c

/-- Text inputs that still refer to a destroyed surface take the surface of their seat. -/
def repairDestroyedSurfaceFocus (c : IdContext) (destroyedSurface : ℕ) : Option IdContext :=
  c.applyTextInputFocusUpdates
    ((c.textInputs.keysWhere fun _ state => state.activeSurface == some destroyedSurface).map
      fun guestId => (guestId, (c.textInputs.get guestId).bind fun state =>
        c.keyboardFocus.surfaceForSeat state.guestSeat))

/-! ## Text inputs -/

/-- `get_text_input`; the text input is told at once which surface is in focus. -/
def onGetTextInput (c : IdContext) (id seat : ℕ) : Option IdContext :=
  match c.hostIds.get .textInputManagerV1 with
  | none => some c
  | some _ =>
    (c.toIdState.createTextInput id (c.hostIds.get .textInputExtensionV1)).map
      fun ((hostV1Id, hostExtId), s) =>
        let activeSurface := c.keyboardFocus.surfaceForSeat seat
        { c with
          toIdState := s
          textInputs := c.textInputs.set id
            (.new hostV1Id hostExtId seat activeSurface) }.sendFocus id none activeSurface

/-- `enable` and `disable`, ignored without a surface in focus. -/
def onSetEnabled (c : IdContext) (guestId : ℕ) (enabled : Bool) : IdContext :=
  if (c.textInputs.get guestId).any fun state => state.activeSurface.isSome then
    c.onTextInput guestId (TextInputState.beginEnabledTransaction enabled)
  else c

/-- Another text input of the seat is enabled. -/
def enableConflicts (c : IdContext) (guestId : ℕ) (state : TextInputState) : Bool :=
  state.enabledDirty && state.pendingEnabled && c.textInputs.any fun otherId other =>
    otherId != guestId && other.guestSeat == state.guestSeat && other.committedEnabled

/-- A commit, unless one of its messages is too large. -/
def onCommitTextInput (c : IdContext) (guestId : ℕ) (fits : Bool) : Option IdContext :=
  match c.textInputs.get guestId with
  | none => some c
  | some state =>
    if state.activeSurface.isNone || !fits then some c
    else (c.onTextInput guestId (TextInputState.finishGuestCommit
      (state.prepareGuestCommit (c.enableConflicts guestId state)))).updateHostActivation guestId

/-- The host object stays: its protocol has no destructor. -/
def retireTextInput (c : IdContext) (guestId : ℕ) : IdContext :=
  match c.toIdState.queueGuestDeleteId guestId with
  | (true, s) => { c with toIdState := s.onTable (·.removeGuestMapping guestId) }
  | (false, s) => { c with toIdState := s }

def onDestroyTextInput (c : IdContext) (guestId : ℕ) : Option IdContext :=
  ((c.onTextInput guestId TextInputState.beginDestroy).updateHostActivation guestId).map fun c =>
    match c.textInputs.get guestId with
    | none => c.retireTextInput guestId
    | some state =>
      let c := { c with textInputs := c.textInputs.erase guestId }
      match state.hostExtId with
      | none => c.retireTextInput guestId
      | some hostExtId => (c.onIds (·.destroyInternal hostExtId)).retireTextInput guestId

/-- A composition event of the host object of a text input, if the object is active: the guest
is told about the text. -/
def onCompose (c : IdContext) (hostV1Id : ℕ) : IdContext :=
  match c.shadowTable.getGuestId hostV1Id with
  | none => c
  | some guestId =>
    if (c.textInputs.get guestId).any TextInputState.hostIsActive then
      c.onIds (·.emit guestId [])
    else c

/-- The text input an extension object belongs to. -/
def guestForExtension (c : IdContext) (hostExtId : ℕ) : Option ℕ :=
  (c.textInputs.keysWhere fun _ state => state.hostExtId == some hostExtId).head?

/-- A composition event of the extension of a text input. -/
def onComposeExtended (c : IdContext) (hostExtId : ℕ) : IdContext :=
  match c.guestForExtension hostExtId with
  | none => c
  | some guestId =>
    if (c.textInputs.get guestId).any TextInputState.hostIsActive then
      c.onIds (·.emit guestId [])
    else c

/-- A key that the input method took reaches the guest through one of the keyboards it has. -/
def sendKey (c : IdContext) (guestKeyboard : ℕ) : IdContext :=
  if (c.keyboardToSeat.get guestKeyboard).isSome &&
      (c.shadowTable.getHostId guestKeyboard).isSome then
    c.onIds (·.emit guestKeyboard [])
  else c

/-! ## Keyboards -/

/-- The extended object of a keyboard, created when the keyboard first enters a surface. -/
def ensureExtendedKeyboardBound (c : IdContext) (hostKeyboard : ℕ) : Option IdContext :=
  match c.hostIds.get .keyboardExtension with
  | none => some c
  | some extension =>
    if (c.keyboardToExtendedKeyboard.get hostKeyboard).isSome then some c
    else (c.bindInternal .zcrExtendedKeyboardV1
      ((c.shadowTable.hostObjectVersion extension).getD unknownObjectVersion)).map
        fun (hostExtended, c) =>
          { c with
            keyboardToExtendedKeyboard :=
              c.keyboardToExtendedKeyboard.set hostKeyboard hostExtended }

/-- `wl_keyboard.enter`. -/
def onKeyboardEnter (c : IdContext) (hostKeyboard hostSurface : ℕ) : Option IdContext :=
  match c.shadowTable.getGuestId hostSurface with
  | none => some c
  | some guestSurface =>
    if c.shadowTable.isPendingDestroyHost hostSurface then some c
    else
      match c.keyboardToSeat.get ((c.shadowTable.getGuestId hostKeyboard).getD 0) with
      | none => some c
      | some guestSeat =>
        let focus : KeyboardFocus := { guestSeat, guestSurface, hostSurface }
        if c.keyboardFocus.focusForKeyboard hostKeyboard = some focus then some c
        else do
          let c ← c.ensureExtendedKeyboardBound hostKeyboard
          let (update, keyboardFocus) := c.keyboardFocus.enter hostKeyboard focus
          let c ← { c with keyboardFocus }.applyKeyboardFocusChanges update.seatChanges
          return c.forwardEvent hostKeyboard [guestSurface]

/-- `wl_keyboard.leave`. -/
def onKeyboardLeave (c : IdContext) (hostKeyboard hostSurface : ℕ) : Option IdContext :=
  let forwarded := (c.shadowTable.getGuestId hostSurface).filter fun _ =>
    !c.shadowTable.isPendingDestroyHost hostSurface
  let (update, keyboardFocus) := c.keyboardFocus.leave hostKeyboard hostSurface
  let c := { c with keyboardFocus }
  if !update.accepted then some c
  else (c.applyKeyboardFocusChanges update.seatChanges).map fun c =>
    match forwarded with
    | some guestSurface => c.forwardEvent hostKeyboard [guestSurface]
    | none => c

/-- The keyboard's own objects, when the guest releases it. -/
def releaseExtendedKeyboard (c : IdContext) (hostKeyboard : ℕ) : IdContext :=
  match c.keyboardToExtendedKeyboard.get hostKeyboard with
  | none => c
  | some hostExtended =>
    { c with
      keyboardToExtendedKeyboard := c.keyboardToExtendedKeyboard.erase hostKeyboard }.onIds
        (·.destroyInternal hostExtended)

/-- `wl_keyboard.release`, before it is forwarded. -/
def onKeyboardRelease (c : IdContext) (guestKeyboard : ℕ) : Option IdContext :=
  let c := { c with keyboardToSeat := c.keyboardToSeat.erase guestKeyboard }
  match c.shadowTable.getHostId guestKeyboard with
  | none => some c
  | some hostKeyboard =>
    let (update, keyboardFocus) := c.keyboardFocus.release hostKeyboard
    ({ c with keyboardFocus }.releaseExtendedKeyboard hostKeyboard).applyKeyboardFocusChanges
      update.seatChanges

end Sommelier.IdContext
