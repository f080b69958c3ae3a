import Sommelier.Ids.State
import Sommelier.Proxy.HandleMsgs
import Sommelier.State.KeyboardFocus
import Sommelier.State.TextInput

/-!
# Holders of IDs

The state in which the handlers keep IDs of their own: the objects the proxy creates for
itself on the host, the callbacks it waits for, and the guest objects its events are sent to.
What a handler decides from data that names no object is a choice of the message.

## Main definitions

* `InternalGlobal`: the globals the proxy binds for itself.
* `IdContext`: the ID state with all holders.
* `IdContext.requestAllowed`, `IdContext.eventInterface`, `IdContext.deliver`: the generated
  checks.
-/
namespace Sommelier

/-- The globals the proxy binds for itself; the source has a `host_*_id` and a
`host_*_global_name` for each. -/
inductive InternalGlobal
  | dmabuf
  | shm
  | textInputManagerV1
  | textInputExtensionV1
  | keyboardExtension
  | zauraShell
  deriving DecidableEq, Repr

namespace InternalGlobal

def all : List InternalGlobal :=
  [dmabuf, shm, textInputManagerV1, textInputExtensionV1, keyboardExtension, zauraShell]

def interface : InternalGlobal → Interface
  | dmabuf => .zwpLinuxDmabufV1
  | shm => .wlShm
  | textInputManagerV1 => .zwpTextInputManagerV1
  | textInputExtensionV1 => .zcrTextInputExtensionV1
  | keyboardExtension => .zcrKeyboardExtensionV1
  | zauraShell => .zauraShell

def ofInterface : Interface → Option InternalGlobal
  | .zwpLinuxDmabufV1 => some dmabuf
  | .wlShm => some shm
  | .zwpTextInputManagerV1 => some textInputManagerV1
  | .zcrTextInputExtensionV1 => some textInputExtensionV1
  | .zcrKeyboardExtensionV1 => some keyboardExtension
  | .zauraShell => some zauraShell
  | _ => none

/-- The version the proxy binds of a global that is advertised with `version`. -/
def boundVersion (version : ℕ) : InternalGlobal → ℕ
  | dmabuf => min version 3
  | shm => 1
  | textInputManagerV1 => min version 1
  | textInputExtensionV1 => min version 11
  | keyboardExtension => min version 2
  | zauraShell => min version 38

/-- The two text-input managers have no destructor, and their objects still need them after
their global is removed. -/
def outlivesGlobal : InternalGlobal → Bool
  | textInputManagerV1 | textInputExtensionV1 => true
  | _ => false

end InternalGlobal

/-- A synthetic dma-buf global that waits for the capabilities of its generation. -/
structure DeferredGlobal where
  registryHostId : ℕ
  name : ℕ
  generation : ℕ
  deriving DecidableEq, Repr

structure IdContext extends IdState where
  -- host objects of the proxy
  hostIds : Table InternalGlobal ℕ
  globalNames : Table InternalGlobal ℕ
  hostZauraShellVersion : ℕ
  hostDmabufGeneration : Option ℕ
  /-- the extended keyboard, by host keyboard -/
  keyboardToExtendedKeyboard : Table ℕ ℕ
  /-- the Aura surface, by host surface -/
  wlSurfaceToZauraSurface : Table ℕ ℕ
  /-- the generation, by callback -/
  dmabufCapabilityCallbacks : Table ℕ ℕ
  /-- the shell, by callback -/
  gtkShellCapabilityCallbacks : Table ℕ ℕ
  /-- the text input and its host object, by callback -/
  textInputActivationBarriers : Table ℕ (ℕ × ℕ)
  -- guest objects the proxy sends events to
  textInputs : Table ℕ TextInputState
  keyboardFocus : KeyboardFocusRegistry
  keyboardToSeat : Table ℕ ℕ
  gtkShells : Finset ℕ
  shmGuests : List ℕ
  /-- the generation, by feedback object -/
  syntheticFeedbackObjects : Table ℕ ℕ
  dmabufGuestGenerations : Table ℕ ℕ
  readyGenerations : Finset ℕ
  pendingDmabufGlobals : List DeferredGlobal
  -- buffers and their parameters
  /-- host buffers whose guest object is gone before the host released them -/
  guestDestroyedBuffers : Finset ℕ
  usedDmabufParams : Finset ℕ
  /-- the guest parameters, by host parameters -/
  pendingNativeCreates : Table ℕ ℕ
  /-- the direction of the batch that is processed -/
  batch : Direction

namespace IdContext

def new : IdContext where
  toIdState := .new
  hostIds := ∅
  globalNames := ∅
  hostZauraShellVersion := 0
  hostDmabufGeneration := none
  keyboardToExtendedKeyboard := ∅
  wlSurfaceToZauraSurface := ∅
  dmabufCapabilityCallbacks := ∅
  gtkShellCapabilityCallbacks := ∅
  textInputActivationBarriers := ∅
  textInputs := ∅
  keyboardFocus := .new
  keyboardToSeat := ∅
  gtkShells := ∅
  shmGuests := []
  syntheticFeedbackObjects := ∅
  dmabufGuestGenerations := ∅
  readyGenerations := ∅
  pendingDmabufGlobals := []
  guestDestroyedBuffers := ∅
  usedDmabufParams := ∅
  pendingNativeCreates := ∅
  batch := .clientToHost

/-- Change the ID state alone. -/
def onIds (c : IdContext) (f : IdState → IdState) : IdContext :=
  { c with toIdState := f c.toIdState }

@[simp] theorem onIds_toIdState (c : IdContext) (f : IdState → IdState) :
    (c.onIds f).toIdState = f c.toIdState := rfl

/-- Create a host object of the proxy itself. -/
def bindInternal (c : IdContext) (interface : Interface) (version : ℕ) :
    Option (ℕ × IdContext) :=
  (c.toIdState.bindInternal interface version).map fun (hostId, s) =>
    (hostId, { c with toIdState := s })

/-! ## Checks -/

/-- The sender is a live object of the interface, on the host or emulated. -/
def senderAllowed (c : IdContext) (senderId : ℕ) (interface : Interface) : Bool :=
  c.shadowTable.guestObjectMatches senderId interface &&
    !c.shadowTable.isPendingDestroyGuest senderId &&
    ((c.shadowTable.getHostId senderId).isSome ||
      c.shadowTable.isLocalOnlyGuestObject senderId)

/-- The sender is allowed, and new enough for a request added in version `since`. -/
def requestAllowed (c : IdContext) (senderId : ℕ) (interface : Interface) (since : ℕ) : Bool :=
  c.senderAllowed senderId interface &&
    (since == 0 || (c.shadowTable.guestObjectVersion senderId).any (decide <| since ≤ ·))

/-- The interface that decodes an event of a host object, if the object is known. -/
def eventInterface (c : IdContext) (hostId : ℕ) : Option Interface :=
  (c.shadowTable.getHostInterface hostId).or
    ((c.shadowTable.getGuestId hostId).bind c.shadowTable.getInterface)

/-- An event for an object whose destructor is under way is decoded but not delivered, but for
the release of a buffer whose destructor waits for it and the answers for destroyed dma-buf
parameters. -/
def pendingHostEventIsStale (c : IdContext) (senderId : ℕ) (isRelease isAnswer : Bool) : Bool :=
  let guestId := c.shadowTable.getGuestId senderId
  let allowsDeferredBufferRelease := c.eventInterface senderId == some .wlBuffer && isRelease &&
    decide (senderId ∈ c.guestDestroyedBuffers)
  let allowsOrphanAnswer := c.eventInterface senderId == some .zwpLinuxBufferParamsV1 &&
    isAnswer && (guestId.any c.shadowTable.isPendingDestroyGuest ||
      (c.orphanedDmabufParams.get senderId).isSome)
  c.shadowTable.isPendingDestroyHost senderId && !allowsDeferredBufferRelease &&
    !allowsOrphanAnswer

/-- Handle a message that passes the checks; another one ends the session. -/
def guarded (allowed : Bool) (next : Option IdContext) : Option IdContext :=
  if allowed then next else none

/-- Deliver an event to its handler, unless its object is unknown or being destroyed. -/
def deliver (c : IdContext) (senderId : ℕ) (interface : Interface) (isRelease isAnswer : Bool)
    (handled : Option IdContext) : Option IdContext :=
  match c.eventInterface senderId with
  | none => some c
  | some name =>
    if name ≠ interface then none
    else if c.pendingHostEventIsStale senderId isRelease isAnswer then some c
    else handled

/-- The guest's side of a forwarded event: the sender and the objects it names. -/
def forwardEvent (c : IdContext) (senderId : ℕ) (objects : List ℕ) : IdContext :=
  match c.shadowTable.getGuestId senderId with
  | none => c
  | some guestId => c.onIds (·.emit guestId objects)

end IdContext
end Sommelier
