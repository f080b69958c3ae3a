import Sommelier.Ids.Buffers
import Sommelier.Ids.Input
import Sommelier.Ids.Registry
import Sommelier.Lib.Transition

/-!
# The system of object IDs

A session as far as object IDs are concerned, as a transition system over guest requests and
host events in batches of one direction. A message that ends the session has no successor.
Neither peer is restricted: what the host promises is a condition on the steps of a run.

## Main definitions

* `PlainRequest`, `PlainEvent`: the messages without a handler that matters here.
* `IdRequest`, `IdEvent`, `IdMessage`: the inputs of the system.
* `IdContext.requestStep`, `IdContext.eventStep`, `idSystem`: one message, and the system.
-/
namespace Sommelier

namespace Interface

/-- Interfaces whose objects a forwarded request creates, without a handler of their own. -/
def hasPlainCreation : Interface → Bool
  | wlSurface | wlRegion | wlCallback | wlDataSource | wlDataDevice | wlShellSurface | wlPointer
  | wlTouch | wlSubsurface | xdgPositioner | xdgSurface | xdgToplevel | xdgPopup | wpViewport
  | zxdgToplevelDecorationV1 | wpFractionalScaleV1 => true
  | _ => false

/-- Interfaces whose destructor is forwarded, without a handler of its own. -/
def hasPlainDestructor : Interface → Bool
  | wlDataOffer | wlDataSource | wlDataDevice | wlSeat | wlPointer | wlTouch | wlOutput
  | wlRegion | wlSubcompositor | wlSubsurface | wlFixes | xdgWmBase | xdgPositioner | xdgSurface
  | xdgToplevel | xdgPopup | zwpLinuxDmabufV1 | wpViewporter | wpViewport
  | zxdgDecorationManagerV1 | zxdgToplevelDecorationV1 | wpFractionalScaleManagerV1
  | wpFractionalScaleV1 => true
  | _ => false

/-- The version that added the destructor of an object only the proxy knows. -/
def localDestructorSince : Interface → Option ℕ
  | wlShm => some 2
  | wlShmPool | zwpTextInputManagerV3 | zwpLinuxDmabufFeedbackV1 => some 0
  | _ => none

/-- Interfaces with events that are forwarded as they are. -/
def hasPlainEvents : Interface → Bool
  | wlDataOffer | wlDataSource | wlDataDevice | wlShellSurface | wlSurface | wlSeat | wlPointer
  | wlKeyboard | wlTouch | wlOutput | xdgWmBase | xdgSurface | xdgToplevel | xdgPopup
  | zxdgToplevelDecorationV1 | wpFractionalScaleV1 => true
  | _ => false

/-- Interfaces a guest may bind; the others belong to the proxy. -/
def isBindable : Interface → Bool
  | zwpTextInputV1 | zwpTextInputManagerV1 | zcrTextInputExtensionV1 | zcrExtendedTextInputV1
  | zcrKeyboardExtensionV1 | zcrExtendedKeyboardV1 | zauraShell | zauraSurface | zauraOutput
  | zauraToplevel | zauraPopup | unclassified _ => false
  | _ => true

end Interface

/-! ## Inputs -/

/-- An object argument. -/
structure ObjectArg where
  id : ℕ
  interface : Option Interface
  allowNull : Bool
  deriving DecidableEq, Repr

/-- A request that is forwarded, with the object arguments before and after its new ID. -/
structure PlainRequest where
  senderId : ℕ
  interface : Interface
  since : ℕ
  before : List ObjectArg
  newId : Option (ℕ × Interface)
  after : List ObjectArg
  deriving DecidableEq, Repr

/-- An event that is forwarded and creates nothing. -/
structure PlainEvent where
  senderId : ℕ
  interface : Interface
  since : ℕ
  objects : List ObjectArg
  deriving DecidableEq, Repr

/-- A request of the guest, with what its handler decides from data that names no object. -/
inductive IdRequest
  | getRegistry (registry : ℕ)
  | sync (callback : ℕ)
  | bind (registry newId : ℕ) (interface : Interface) (version generation : ℕ)
  | destroyRegistry (fixes registry : ℕ)
  | getTextInput (manager id seat : ℕ)
  | setEnabled (textInput : ℕ) (enabled : Bool)
  | commitTextInput (textInput : ℕ) (fits : Bool)
  | destroyTextInput (textInput : ℕ)
  | createPool (shm pool : ℕ) (stale : Bool)
  | createBuffer (pool buffer : ℕ) (backing : Option IdContext.BufferBacking)
  | destroyBuffer (buffer : ℕ) (inUse : Bool)
  | createParams (factory params : ℕ)
  | create (params : ℕ)
  | createImmed (params buffer : ℕ)
  | destroyParams (params : ℕ)
  | getFeedback (factory feedback : ℕ)
  | destroyLocal (object : ℕ) (interface : Interface)
  | updateSurface (surface : ℕ) (eligible : List ℕ)
  | destroySurface (surface : ℕ) (eligible : List ℕ)
  | getKeyboard (seat keyboard : ℕ)
  | releaseKeyboard (keyboard : ℕ)
  | getGtkSurface (shell gtkSurface surface : ℕ)
  | setAppId (toplevel surface : ℕ)
  | plain (request : PlainRequest)
  | plainDestructor (object : ℕ) (interface : Interface) (since : ℕ)
  deriving DecidableEq, Repr

/-- An event of the host, with what its handler decides from data that names no object. -/
inductive IdEvent
  | global (registry name : ℕ) (interface : Interface) (version : ℕ) (ad : IdContext.Advertised)
  | globalRemove (registry name : ℕ) (generation : Option ℕ) (last visible : Bool)
  | done (callback : ℕ) (current : List DeferredGlobal)
  | deleteId (hostId : ℕ)
  | error (objectId : ℕ)
  | created (params buffer : ℕ)
  | failed (params : ℕ)
  | dataOffer (device offer : ℕ)
  | release (buffer : ℕ) (pending : Bool)
  | keyboardEnter (keyboard surface : ℕ)
  | keyboardLeave (keyboard surface : ℕ)
  | compose (textInput : ℕ)
  | composeExtended (extended : ℕ)
  | key (textInput : ℕ) (interface : Interface) (keyboard : ℕ)
  | shmFormat (shm : ℕ) (changed : Bool)
  | dmabufFormat (factory : ℕ) (shmChanged changed : Bool)
  | plain (event : PlainEvent)
  deriving DecidableEq, Repr

/-- A message, or the end of a batch: the queue to the peer it came from is sent. -/
inductive IdMessage
  | request (request : IdRequest)
  | event (event : IdEvent)
  | endBatch (next : Direction)
  deriving DecidableEq, Repr

/-- The new ID a request names. -/
def IdRequest.newId : IdRequest → Option ℕ
  | getRegistry registry => some registry
  | sync callback => some callback
  | bind _ newId _ _ _ => some newId
  | getTextInput _ id _ => some id
  | createPool _ pool _ => some pool
  | createBuffer _ buffer _ => some buffer
  | createParams _ params => some params
  | createImmed _ buffer => some buffer
  | getFeedback _ feedback => some feedback
  | getKeyboard _ keyboard => some keyboard
  | getGtkSurface _ gtkSurface _ => some gtkSurface
  | plain request => request.newId.map (·.1)
  | _ => none

/-- The object a request destroys. -/
def IdRequest.destroys : IdRequest → Option ℕ
  | destroyRegistry _ registry => some registry
  | destroyTextInput textInput => some textInput
  | destroyBuffer buffer _ => some buffer
  | destroyParams params => some params
  | destroyLocal object _ => some object
  | destroySurface surface _ => some surface
  | releaseKeyboard keyboard => some keyboard
  | plainDestructor object _ _ => some object
  | _ => none

/-! ## Object arguments -/

def ObjectArg.isNull (a : ObjectArg) : Bool := a.allowNull && a.id == 0

/-- The validation of an object argument of a request. -/
def ObjectArg.isValid (c : IdContext) (a : ObjectArg) : Bool :=
  a.isNull || match a.interface with
    | some interface => c.senderAllowed a.id interface
    | none => !c.shadowTable.isPendingDestroyGuest a.id && (c.shadowTable.getHostId a.id).isSome

/-- The argument can be translated for the host. -/
def ObjectArg.isMapped (c : IdContext) (a : ObjectArg) : Bool :=
  a.isNull || (c.shadowTable.getHostId a.id).isSome

/-- The validation of an object argument of an event. -/
def ObjectArg.isKnown (c : IdContext) (a : ObjectArg) : Bool :=
  a.isNull || ((c.shadowTable.getGuestId a.id).isSome && match a.interface with
    | some interface => !c.shadowTable.isPendingDestroyHost a.id &&
        c.shadowTable.hostObjectMatches a.id interface
    | none => true)

/-- The argument as the guest sees it. -/
def ObjectArg.translate (c : IdContext) (a : ObjectArg) : Option ℕ :=
  if a.isNull then none else c.shadowTable.getGuestId a.id

/-- No forwarded request is of an object that only the proxy knows, or takes one. -/
def PlainRequest.isPlain (r : PlainRequest) : Bool :=
  !r.interface.isLocalOnly &&
    (r.before ++ r.after).all (fun a => !a.interface.any Interface.isLocalOnly) &&
    r.newId.all fun new => new.2.hasPlainCreation

/-- All object arguments of a forwarded event are typed. -/
def PlainEvent.isPlain (e : PlainEvent) : Bool :=
  e.interface.hasPlainEvents && e.objects.all fun a => a.interface.isSome

namespace IdContext

/-! ## Requests -/

/-- The new object of a forwarded request; a request that is not `sent` is dropped after its
new object was mapped. -/
def forwardNewId (c : IdContext) (senderId guestId : ℕ) (interface : Interface) (sent : Bool) :
    Option IdContext :=
  let version := (c.shadowTable.guestObjectVersion senderId).getD unknownObjectVersion
  let hostVersion := ((c.shadowTable.getHostId senderId).bind
    c.shadowTable.hostObjectVersion).getD version
  let register := registerVersions guestId interface version hostVersion
  if sent && (c.shadowTable.getHostId senderId).isSome then
    (c.toIdState.pairSent guestId register).map fun s => { c with toIdState := s }
  else c.toIdState.allocateHostId.map fun (hostId, s) =>
    { c with toIdState := s.onTable fun t => register hostId (t.mapId guestId hostId) }

/-- A request without a handler: its arguments are translated in order, and one that has no
counterpart drops the request. -/
def onPlainRequest (c : IdContext) (r : PlainRequest) : Option IdContext :=
  guarded (r.isPlain && c.requestAllowed r.senderId r.interface r.since &&
    (r.before ++ r.after).all (·.isValid c)) <|
    match r.newId with
    | none => some c
    | some (guestId, interface) =>
      if r.before.all (·.isMapped c) then
        c.forwardNewId r.senderId guestId interface (r.after.all (·.isMapped c))
      else some c

/-- The destructor of an object is forwarded. -/
def forwardDestructor (c : IdContext) (guestId : ℕ) : IdContext :=
  match c.shadowTable.getHostId guestId with
  | none => c
  | some hostId => c.onIds (·.forwardDestructor guestId hostId)

/-- A destructor without a handler. -/
def onPlainDestructor (c : IdContext) (guestId : ℕ) (interface : Interface) : IdContext :=
  { c with
    dmabufGuestGenerations :=
      if interface = Interface.zwpLinuxDmabufV1 then
        c.dmabufGuestGenerations.erase guestId
      else c.dmabufGuestGenerations }.forwardDestructor guestId

/-- The destructor of an object that only the proxy knows. Feedback the proxy did not make up
is an object of the host. -/
def onDestroyLocal (c : IdContext) (guestId : ℕ) (interface : Interface) : IdContext :=
  let forwarded := interface == .zwpLinuxDmabufFeedbackV1 &&
    (c.syntheticFeedbackObjects.get guestId).isNone
  let c := { c with
    shmGuests :=
      if interface = Interface.wlShm then c.shmGuests.filter (· ≠ guestId) else c.shmGuests
    syntheticFeedbackObjects :=
      if interface = Interface.zwpLinuxDmabufFeedbackV1 then
        c.syntheticFeedbackObjects.erase guestId
      else c.syntheticFeedbackObjects }
  (if forwarded then c.forwardDestructor guestId else c).onIds (·.queueLocalDeleteId guestId)

/-- A factory of a known generation answers as soon as its capabilities are known. -/
def onGetFeedback (c : IdContext) (factory feedback : ℕ) : Option IdContext :=
  (c.dmabufGuestGenerations.get factory).map fun generation =>
    let c := { c.trackLocal feedback .zwpLinuxDmabufFeedbackV1 4 with
      syntheticFeedbackObjects := c.syntheticFeedbackObjects.set feedback generation }
    if generation ∈ c.readyGenerations then c.onIds (·.emit feedback []) else c

def onCreateParams (c : IdContext) (factory params : ℕ) : Option IdContext :=
  { c with usedDmabufParams := c.usedDmabufParams.erase params }.forwardNewId factory params
    .zwpLinuxBufferParamsV1 true

def onGetKeyboard (c : IdContext) (seat keyboard : ℕ) : Option IdContext :=
  { c with keyboardToSeat := c.keyboardToSeat.set keyboard seat }.onIds
    (·.onTable (·.trackInterface keyboard .wlKeyboard)) |>.forwardNewId seat keyboard .wlKeyboard
      true

/-- `gtk_shell1.get_gtk_surface`, for a shell that is known. -/
def onGetGtkSurface (c : IdContext) (shell gtkSurface surface : ℕ) : Option IdContext :=
  if shell ∈ c.gtkShells then
    (c.ensureHostZauraSurface surface).map (·.trackLocal gtkSurface .gtkSurface1 1)
  else some c

/-- `wl_surface.destroy`: the destructor follows that of the Aura object, and the guest hears
that the surface lost its focus before it is gone. -/
def surfaceOnDestroy (c : IdContext) (surface : ℕ) (eligible : List ℕ) : Option IdContext :=
  match c.shadowTable.getHostId surface with
  | none => none
  | some hostSurface =>
    let c := ((c.releaseZauraSurface hostSurface).onIds
      (·.logHost (.destroy hostSurface))).retireEligibleBuffers eligible
    let (update, keyboardFocus) := c.keyboardFocus.destroySurface surface
    do
      let c ← { c with keyboardFocus }.applyKeyboardFocusChanges update.seatChanges
      let c ← c.repairDestroyedSurfaceFocus surface
      return c.onIds (·.onTable (·.markPendingDestroy surface))

/-- A request to its handler, after the checks of its sender and of its object arguments. -/
def onRequest (c : IdContext) : IdRequest → Option IdContext
  | .getRegistry registry => c.onGetRegistry registry
  | .sync callback => c.onSync callback
  | .bind registry newId interface version generation =>
    guarded (c.requestAllowed registry .wlRegistry 0 && interface.isBindable)
      (c.onBind registry newId interface version generation)
  | .destroyRegistry fixes registry =>
    guarded (c.requestAllowed fixes .wlFixes 0 && c.senderAllowed registry .wlRegistry)
      (some (c.onDestroyRegistry registry))
  | .getTextInput manager id seat =>
    guarded (c.requestAllowed manager .zwpTextInputManagerV3 0 && c.senderAllowed seat .wlSeat)
      (c.onGetTextInput id seat)
  | .setEnabled textInput enabled =>
    guarded (c.requestAllowed textInput .zwpTextInputV3 0) (some (c.onSetEnabled textInput enabled))
  | .commitTextInput textInput fits =>
    guarded (c.requestAllowed textInput .zwpTextInputV3 0) (c.onCommitTextInput textInput fits)
  | .destroyTextInput textInput =>
    guarded (c.requestAllowed textInput .zwpTextInputV3 0) (c.onDestroyTextInput textInput)
  | .createPool shm pool stale =>
    guarded (c.requestAllowed shm .wlShm 0)
      (some (if stale then c else c.trackLocal pool .wlShmPool 1))
  | .createBuffer pool buffer backing =>
    guarded (c.requestAllowed pool .wlShmPool 0)
      (backing.elim (some c) (c.onCreateBuffer buffer))
  | .destroyBuffer buffer inUse =>
    guarded (c.requestAllowed buffer .wlBuffer 0) (some (c.bufferOnDestroy buffer inUse))
  | .createParams factory params =>
    guarded (c.requestAllowed factory .zwpLinuxDmabufV1 0) (c.onCreateParams factory params)
  | .create params =>
    guarded (c.requestAllowed params .zwpLinuxBufferParamsV1 0) (c.onCreate params)
  | .createImmed params buffer =>
    guarded (c.requestAllowed params .zwpLinuxBufferParamsV1 2) (c.onCreateImmed params buffer)
  | .destroyParams params =>
    guarded (c.requestAllowed params .zwpLinuxBufferParamsV1 0)
      (some ((c.paramsOnDestroy params).forwardDestructor params))
  | .getFeedback factory feedback =>
    guarded (c.requestAllowed factory .zwpLinuxDmabufV1 4) (c.onGetFeedback factory feedback)
  | .destroyLocal object interface =>
    guarded (interface.localDestructorSince.any (c.requestAllowed object interface))
      (some (c.onDestroyLocal object interface))
  | .updateSurface surface eligible =>
    guarded (c.requestAllowed surface .wlSurface 0) (some (c.retireEligibleBuffers eligible))
  | .destroySurface surface eligible =>
    guarded (c.requestAllowed surface .wlSurface 0) (c.surfaceOnDestroy surface eligible)
  | .getKeyboard seat keyboard =>
    guarded (c.requestAllowed seat .wlSeat 0) (c.onGetKeyboard seat keyboard)
  | .releaseKeyboard keyboard =>
    guarded (c.requestAllowed keyboard .wlKeyboard 3)
      ((c.onKeyboardRelease keyboard).map (·.forwardDestructor keyboard))
  | .getGtkSurface shell gtkSurface surface =>
    guarded (c.requestAllowed shell .gtkShell1 0 && c.senderAllowed surface .wlSurface)
      (c.onGetGtkSurface shell gtkSurface surface)
  | .setAppId toplevel surface =>
    guarded (c.requestAllowed toplevel .xdgToplevel 0) (c.ensureHostZauraSurface surface)
  | .plain request => c.onPlainRequest request
  | .plainDestructor object interface since =>
    guarded (c.requestAllowed object interface since && interface.hasPlainDestructor)
      (some (c.onPlainDestructor object interface))

/-- A request: its new ID has to be available, and the queue to the host follows it. -/
def requestStep (c : IdContext) (r : IdRequest) : Option IdContext :=
  guarded (r.newId.all c.shadowTable.isGuestIdAvailable) <| do
    let c ← (c.onIds fun s => r.newId.elim s fun id => s.logGuest (.create id)).onRequest r
    return (c.onIds fun s => r.destroys.elim s fun id => s.logGuest (.destroy id)).onIds (·.flush)

/-! ## Events -/

/-- An event without a handler; one that names an object the guest does not know is dropped. -/
def onPlainEvent (c : IdContext) (e : PlainEvent) : Option IdContext :=
  guarded (e.isPlain &&
    (e.since == 0 || (c.shadowTable.hostObjectVersion e.senderId).any (decide <| e.since ≤ ·))) <|
    some (if e.objects.all (·.isKnown c) then
      c.forwardEvent e.senderId (e.objects.filterMap (·.translate c)) else c)

/-- A `wl_display.delete_id` of the host. -/
def onDeleteId (c : IdContext) (hostId : ℕ) : IdContext :=
  let consumed := decide (hostId ∈ c.shadowTable.pendingDestroyHostIds)
  let c' := c.onIds (·.onDeleteId hostId)
  if consumed then { c' with guestDestroyedBuffers := c.guestDestroyedBuffers.erase hostId }
  else if (c.orphanedDmabufParams.get hostId).isNone &&
      (c.shadowTable.getGuestId hostId).isSome then
    { c' with
      guestDestroyedBuffers := c.guestDestroyedBuffers.erase hostId
      pendingNativeCreates := c.pendingNativeCreates.erase hostId }
  else c'

/-- An object of the host, as `wl_display.error` names it. -/
def onError (c : IdContext) (objectId : ℕ) : IdContext :=
  (c.shadowTable.getGuestId objectId).elim c fun guestId => c.onIds (·.emitError guestId)

/-- The new offer of a data device. -/
def onDataOffer (c : IdContext) (device offer : ℕ) : Option IdContext :=
  (c.toIdState.pairAnnounced offer .wlDataOffer
    ((c.shadowTable.hostObjectVersion device).getD unknownObjectVersion)).map
      fun (guestOffer, s) => { c with toIdState := s }.forwardEvent device [guestOffer]

/-- The guests' pools hear of a format. -/
def sendShmFormat (c : IdContext) : IdContext :=
  c.shmGuests.foldl (fun c guestId => c.onIds (·.emit guestId [])) c

def onShmFormat (c : IdContext) (shm : ℕ) (changed : Bool) : IdContext :=
  if c.hostIds.get .shm = some shm then if changed then c.sendShmFormat else c
  else c.forwardEvent shm []

/-- A format of a dma-buf global, for the proxy or for a guest that knows no feedback. -/
def onDmabufFormat (c : IdContext) (factory : ℕ) (shmChanged changed : Bool) : IdContext :=
  if c.hostIds.get .dmabuf = some factory then
    let c := if shmChanged then c.sendShmFormat else c
    match c.hostDmabufGeneration with
    | none => c
    | some generation =>
      if changed && decide (generation ∈ c.readyGenerations) then c.sendFeedback generation else c
  else if ((c.shadowTable.getGuestId factory).bind c.shadowTable.guestObjectVersion).any
      (decide <| 4 ≤ ·) then c
  else c.forwardEvent factory []

/-- A surface argument that the guest still knows. -/
def surfaceKnown (c : IdContext) (surface : ℕ) : Bool :=
  ObjectArg.isKnown c ⟨surface, some .wlSurface, false⟩

def eventStep (c : IdContext) : IdEvent → Option IdContext
  | .global registry name interface version ad =>
    c.deliver registry .wlRegistry false false (c.onGlobal registry name interface version ad)
  | .globalRemove registry name generation last visible =>
    c.deliver registry .wlRegistry false false
      (some (c.onGlobalRemove registry name generation last visible))
  | .done callback current =>
    c.deliver callback .wlCallback false false <|
      match c.textInputActivationBarriers.get callback with
      | some (guestId, hostV1Id) => c.completeHostActivationBarrier callback guestId hostV1Id
      | none => some (c.onDone callback current)
  | .deleteId hostId => c.deliver 1 .wlDisplay false false (some (c.onDeleteId hostId))
  | .error objectId => c.deliver 1 .wlDisplay false false (some (c.onError objectId))
  | .created params buffer =>
    c.deliver params .zwpLinuxBufferParamsV1 false true <|
      guarded (c.shadowTable.isHostIdAvailable buffer) (c.onCreated params buffer)
  | .failed params => c.deliver params .zwpLinuxBufferParamsV1 false true (c.onFailed params)
  | .dataOffer device offer =>
    c.deliver device .wlDataDevice false false <|
      guarded (c.shadowTable.isHostIdAvailable offer) (c.onDataOffer device offer)
  | .release buffer pending =>
    c.deliver buffer .wlBuffer true false (some (c.bufferOnRelease buffer pending))
  | .keyboardEnter keyboard surface =>
    c.deliver keyboard .wlKeyboard false false <|
      if c.surfaceKnown surface then c.onKeyboardEnter keyboard surface else some c
  | .keyboardLeave keyboard surface =>
    c.deliver keyboard .wlKeyboard false false <|
      if c.surfaceKnown surface then c.onKeyboardLeave keyboard surface else some c
  | .compose textInput =>
    c.deliver textInput .zwpTextInputV1 false false (some (c.onCompose textInput))
  | .composeExtended extended =>
    c.deliver extended .zcrExtendedTextInputV1 false false (some (c.onComposeExtended extended))
  | .key sender interface keyboard =>
    c.deliver sender interface false false (some (c.sendKey keyboard))
  | .shmFormat shm changed => c.deliver shm .wlShm false false (some (c.onShmFormat shm changed))
  | .dmabufFormat factory shmChanged changed =>
    c.deliver factory .zwpLinuxDmabufV1 false false
      (some (c.onDmabufFormat factory shmChanged changed))
  | .plain event => c.deliver event.senderId event.interface false false (c.onPlainEvent event)

/-! ## Batches -/

/-- A message of the batch under way, or its end. -/
def step (c : IdContext) : IdMessage → Option IdContext
  | .request r => guarded (c.batch == .clientToHost) (c.requestStep r)
  | .event e => guarded (c.batch == .hostToClient) (c.eventStep e)
  | .endBatch next => some ({ c with batch := next }.onIds (·.flush))

end IdContext

/-- A session as far as object IDs are concerned. -/
def idSystem : TransitionSystem IdContext IdMessage where
  init c := c = .new
  step := IdContext.step

end Sommelier
