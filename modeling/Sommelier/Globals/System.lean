import Sommelier.Handler.DmabufFeedback
import Sommelier.Lib.Transition

/-!
# The system of globals

A session as far as globals, formats and feedback are concerned, as a transition system over
guest requests and host events. A message that ends the session has no successor. The host
advertises and removes a name by turns on each registry, and acknowledges what was destroyed.

## Main definitions

* `GlobalMessage`: the inputs of the system.
* `GlobalSession`: the state of the proxy, and what the host advertised on each registry.
* `globalSystem`: the system.
-/
namespace Sommelier

/-- Interfaces whose objects none of the handlers here creates or destroys. -/
def Interface.isOrdinary : Interface → Bool
  | wlDisplay | wlRegistry | wlCallback | wlShm | wlShmPool | zwpTextInputManagerV3
  | zwpLinuxDmabufV1 | zwpLinuxDmabufFeedbackV1 | gtkShell1 | gtkSurface1 => false
  | _ => true

inductive GlobalMessage
  -- requests of the guest
  | getRegistry (registry : ℕ)
  | bind (registry name : ℕ) (interface : Interface) (version newId : ℕ)
  | destroyRegistry (fixes registry : ℕ)
  | getFeedback (factory newId : ℕ) (tables : Bool)
  | destroyFeedback (feedback : ℕ)
  | destroyDmabuf (factory : ℕ)
  | createPool (shm newId : ℕ) (mapped : Bool)
  | destroyPool (pool : ℕ)
  | releaseShm (shm : ℕ)
  | newObject (sender newId : ℕ) (interface : Interface)
  | destroyObject (guestId : ℕ) (interface : Interface)
  -- events of the host
  | global (registry name : ℕ) (interface : Interface) (version : ℕ)
  | globalRemove (registry name : ℕ)
  | shmFormat (shm format : ℕ)
  | dmabufFormat (factory format : ℕ) (tables : Bool)
  | dmabufModifier (factory format modifierHi modifierLo : ℕ) (tables : Bool)
  | callbackDone (callback : ℕ) (tables : Bool)
  | deleteId (hostId : ℕ)
  -- the end of a batch of messages in one direction
  | endBatch
  deriving DecidableEq, Repr

namespace GlobalContext

/-! ## Dispatch -/

/-- The sender is a live object of the interface, on the host or emulated. -/
def senderAllowed (c : GlobalContext) (senderId : ℕ) (interface : Interface) : Bool :=
  c.shadowTable.guestObjectMatches senderId interface &&
    !c.shadowTable.isPendingDestroyGuest senderId &&
    ((c.shadowTable.getHostId senderId).isSome ||
      c.shadowTable.isLocalOnlyGuestObject senderId)

/-- The sender is allowed, and new enough for a request added in version `since`. -/
def requestAllowed (c : GlobalContext) (senderId : ℕ) (interface : Interface) (since : ℕ) : Bool :=
  c.senderAllowed senderId interface &&
    (since == 0 || (c.shadowTable.guestObjectVersion senderId).any (decide <| since ≤ ·))

def eventInterface (c : GlobalContext) (hostId : ℕ) : Option Interface :=
  (c.shadowTable.getHostInterface hostId).or
    ((c.shadowTable.getGuestId hostId).bind c.shadowTable.getInterface)

def settle (c : GlobalContext) : Option GlobalContext :=
  if c.fatalProtocolError then none else some c

def guarded (allowed : Bool) (next : Option GlobalContext) : Option GlobalContext :=
  if allowed then next else none

/-- Deliver an event to its handler, unless its object is being destroyed or unknown. -/
def deliver (c : GlobalContext) (senderId : ℕ) (interface : Interface)
    (handle : Option GlobalContext) : Option GlobalContext :=
  match c.eventInterface senderId with
  | none => some c
  | some name =>
    if name ≠ interface then none
    else if c.shadowTable.isPendingDestroyHost senderId then some c
    else handle

/-- Send an event on if its handler says so and the guest has the object. -/
def forwardEvent (result : Action × GlobalContext) (hostId : ℕ) (event : ℕ → GuestEvent) :
    GlobalContext :=
  match result.1, result.2.shadowTable.getGuestId hostId with
  | .forward, some guestId => result.2.sendGuest (event guestId)
  | _, _ => result.2

/-- Map the object of a forwarded request. -/
def mapNewId (c : GlobalContext) (senderId guestId : ℕ) (interface : Interface) :
    Option GlobalContext := do
  let objectVersion := (c.shadowTable.guestObjectVersion senderId).getD unknownObjectVersion
  let hostObjectVersion := ((c.shadowTable.getHostId senderId).bind
    c.shadowTable.hostObjectVersion).getD objectVersion
  let (hostId, shadowTable) ← c.shadowTable.allocateHostId
  let shadowTable :=
    shadowTable.registerObject guestId hostId interface objectVersion hostObjectVersion
  return { c with shadowTable }.sendHost (.create hostId)

/-- The destructor of an object of the host. -/
def forwardDestructor (c : GlobalContext) (guestId : ℕ) : GlobalContext :=
  match c.shadowTable.getHostId guestId with
  | none => c
  | some hostId =>
    { c with shadowTable := c.shadowTable.markPendingDestroy guestId }.sendHost (.destroy hostId)

/-- The destructor of an object that only the proxy knows. -/
def queueLocalDeleteId (c : GlobalContext) (guestId : ℕ) : GlobalContext :=
  if (c.shadowTable.getInterface guestId).isSome && (c.shadowTable.getHostId guestId).isNone then
    { c with shadowTable := c.shadowTable.removeId guestId }.sendGuest (.deleteId guestId)
  else c

/-- `wl_display.delete_id`. -/
def onDeleteId (c : GlobalContext) (hostId : ℕ) : GlobalContext :=
  let (consumed, shadowTable) := c.shadowTable.consumeHostDeleteId hostId
  let c := { c with shadowTable }
  if consumed then c
  else
    match c.shadowTable.getGuestId hostId with
    | none => c
    | some guestId =>
      { c with shadowTable := c.shadowTable.removeId guestId }.sendGuest (.deleteId guestId)

/-! ## Steps -/

def requestStep (c : GlobalContext) : GlobalMessage → Option GlobalContext
  | .getRegistry registry =>
    guarded (c.requestAllowed 1 .wlDisplay 0 && c.shadowTable.isGuestIdAvailable registry)
      ((c.onGetRegistry registry).map (·.2))
  | .bind registry name interface version newId =>
    guarded (c.requestAllowed registry .wlRegistry 0 && c.shadowTable.isGuestIdAvailable newId)
      ((c.onBind registry name interface version newId).bind fun result => result.2.settle)
  | .destroyRegistry fixes registry =>
    guarded (c.requestAllowed fixes .wlFixes 0 && c.senderAllowed registry .wlRegistry)
      (c.onDestroyRegistry registry).2
  | .getFeedback factory newId tables =>
    guarded (c.requestAllowed factory .zwpLinuxDmabufV1 4 &&
      c.shadowTable.isGuestIdAvailable newId)
      (c.createSyntheticFeedback tables factory newId).2.settle
  | .destroyFeedback feedback =>
    guarded (c.requestAllowed feedback .zwpLinuxDmabufFeedbackV1 0)
      ((c.feedbackOnDestroy feedback).2.queueLocalDeleteId feedback)
  | .destroyDmabuf factory =>
    guarded (c.requestAllowed factory .zwpLinuxDmabufV1 0)
      ((c.dmabufOnDestroy factory).2.forwardDestructor factory)
  | .createPool shm newId mapped =>
    guarded (c.requestAllowed shm .wlShm 0 && c.shadowTable.isGuestIdAvailable newId)
      (c.onCreatePool shm newId mapped).2.settle
  | .destroyPool pool =>
    guarded (c.requestAllowed pool .wlShmPool 0) ((c.poolOnDestroy pool).2.queueLocalDeleteId pool)
  | .releaseShm shm =>
    guarded (c.requestAllowed shm .wlShm 2) ((c.shmOnRelease shm).2.queueLocalDeleteId shm)
  | .newObject sender newId interface =>
    guarded (interface.isOrdinary && c.requestAllowed sender interface 0 &&
      c.shadowTable.isGuestIdAvailable newId) (c.mapNewId sender newId interface)
  | .destroyObject guestId interface =>
    guarded (interface.isOrdinary && c.requestAllowed guestId interface 0)
      (c.forwardDestructor guestId)
  | _ => none

def eventStep (c : GlobalContext) : GlobalMessage → Option GlobalContext
  | .global registry name interface version =>
    c.deliver registry .wlRegistry ((c.onGlobal registry name interface version).map fun result =>
      forwardEvent result registry fun guestId => .global guestId name interface version)
  | .globalRemove registry name =>
    c.deliver registry .wlRegistry (forwardEvent (c.onGlobalRemove registry name) registry
      fun guestId => .globalRemove guestId name)
  | .shmFormat shm format =>
    c.deliver shm .wlShm (forwardEvent (c.shmOnFormat shm format) shm
      fun guestId => .shmFormat guestId format)
  | .dmabufFormat factory format tables =>
    c.deliver factory .zwpLinuxDmabufV1 (forwardEvent (c.onFormat tables factory format) factory
      fun guestId => .dmabufFormat guestId format).settle
  | .dmabufModifier factory format modifierHi modifierLo tables =>
    c.deliver factory .zwpLinuxDmabufV1
      (forwardEvent (c.onModifier tables factory format modifierHi modifierLo) factory
        fun guestId =>
          .dmabufModifier guestId format (modifierHi * 2 ^ 32 + modifierLo)).settle
  | .callbackDone callback tables =>
    c.deliver callback .wlCallback (c.callbackOnDone tables callback).2.settle
  | .deleteId hostId => c.onDeleteId hostId
  | .endBatch => some { c with syntheticFeedbackRefreshPending := ∅ }
  | _ => none

end GlobalContext

/-- The state of the proxy, and the names the host has advertised on each registry and not
removed since. -/
structure GlobalSession where
  context : GlobalContext
  advertised : ℕ → Finset ℕ

namespace GlobalSession

def new (options : GlobalOptions) : GlobalSession where
  context := .new options
  advertised := fun _ => ∅

/-- What a host that follows the protocol sends; guests are not restricted. -/
def hostConforms (s : GlobalSession) : GlobalMessage → Bool
  | .global registry name _ _ => decide (name ∉ s.advertised registry)
  | .globalRemove registry name => decide (name ∈ s.advertised registry)
  | .deleteId hostId =>
    decide (hostId ∈ s.context.shadowTable.pendingDestroyHostIds) ||
      s.context.shadowTable.isPendingDestroyHost hostId
  | _ => true

/-- The host's side of a message: a registry that is created starts with nothing. -/
def advertise (s : GlobalSession) : GlobalMessage → ℕ → Finset ℕ
  | .global registry name _ _ =>
    Function.update s.advertised registry (insert name (s.advertised registry))
  | .globalRemove registry name =>
    Function.update s.advertised registry ((s.advertised registry).erase name)
  | .deleteId hostId =>
    if s.context.shadowTable.isPendingDestroyHost hostId then
      Function.update s.advertised hostId ∅
    else s.advertised
  | _ => s.advertised

def step (s : GlobalSession) (m : GlobalMessage) : Option GlobalSession :=
  if s.hostConforms m then
    ((s.context.requestStep m).or (s.context.eventStep m)).map fun next =>
      { context := next, advertised := s.advertise m }
  else none

end GlobalSession

/-- Sessions from their start. -/
def globalSystem (options : GlobalOptions) : TransitionSystem GlobalSession GlobalMessage where
  init s := s = .new options
  step := GlobalSession.step

/-- A proxy with a GPU and an allocator. -/
def gpuOptions : GlobalOptions where
  gpuAccel := true
  allocator := true
  virtwaylandChannel := none
  xdgDecoration := false

end Sommelier
