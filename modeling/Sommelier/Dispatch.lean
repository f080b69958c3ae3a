import Sommelier.State.Context

/-!
# Generated dispatch

The code generated for every protocol checks a message before its handler runs, and maps
its IDs and settles its destructor afterwards. `none` is a message that ends the session.

## Main definitions

* `Context.requestAllowed`, `Context.objectAllowed`: the checks of sender and arguments.
* `mapNewId`, `mapAnnouncedId`: registration of the objects requests and events create.
* `forwardDestructor`: what follows a forwarded destructor.
* `pendingHostEventIsStale`, `onDeleteId`: events for objects that are being destroyed.
-/
namespace Sommelier
namespace Context

/-! ## Checks -/

/-- The sender is a live object of the interface, on the host or emulated. -/
def senderAllowed (c : Context) (senderId : ℕ) (interface : Interface) : Bool :=
  c.shadowTable.guestObjectMatches senderId interface &&
    !c.shadowTable.isPendingDestroyGuest senderId &&
    ((c.shadowTable.getHostId senderId).isSome ||
      c.shadowTable.isLocalOnlyGuestObject senderId)

/-- The sender is allowed, and new enough for a request added in version `since`. -/
def requestAllowed (c : Context) (senderId : ℕ) (interface : Interface) (since : ℕ) : Bool :=
  c.senderAllowed senderId interface &&
    (since == 0 || (c.shadowTable.guestObjectVersion senderId).any (decide <| since ≤ ·))

/-- An object argument names a live object of the interface. -/
def objectAllowed (c : Context) (objectId : ℕ) (interface : Interface) : Bool :=
  c.senderAllowed objectId interface

/-- The interface that decodes an event of a host object, if the object is known. -/
def eventInterface (c : Context) (hostId : ℕ) : Option Interface :=
  (c.shadowTable.getHostInterface hostId).or
    ((c.shadowTable.getGuestId hostId).bind c.shadowTable.getInterface)

end Context

/-! ## Mapping -/

/-- Map the `new_id` of a forwarded request. `none` is the panic of an exhausted ID space. -/
def mapNewId (c : Context) (senderId guestId : ℕ) (interface : Interface) : Option Context := do
  let objectVersion := (c.shadowTable.guestObjectVersion senderId).getD unknownObjectVersion
  let hostObjectVersion := ((c.shadowTable.getHostId senderId).bind
    c.shadowTable.hostObjectVersion).getD objectVersion
  let (hostId, shadowTable) ← c.shadowTable.allocateHostId
  let shadowTable :=
    shadowTable.registerObject guestId hostId interface objectVersion hostObjectVersion
  let c := { c with shadowTable }
  return c.queue (.create hostId)

/-- Map the `new_id` of a forwarded event to a guest ID of the server range. -/
def mapAnnouncedId (c : Context) (senderId hostId : ℕ) (interface : Interface) :
    Option Context := do
  let objectVersion := (c.shadowTable.hostObjectVersion senderId).getD unknownObjectVersion
  let (guestId, shadowTable) ← c.shadowTable.allocateGuestServerId
  let shadowTable :=
    shadowTable.registerObject guestId hostId interface objectVersion objectVersion
  let c := { c with shadowTable }
  return c.queue (.announce hostId)

/-- Send a destructor and settle the IDs of its object. -/
def forwardDestructor (c : Context) (guestId hostId : ℕ) : Context :=
  let c := c.queue (.destroy hostId)
  if ShadowTable.isGuestServerId guestId then
    { c with shadowTable := c.shadowTable.removeId guestId }
  else { c with shadowTable := c.shadowTable.markPendingDestroy guestId }

/-- Settle the destructor of an object that only the proxy knows. -/
def queueLocalDeleteId (c : Context) (guestId : ℕ) : Context :=
  if (c.shadowTable.getInterface guestId).isSome && (c.shadowTable.getHostId guestId).isNone then
    { c with shadowTable := c.shadowTable.removeId guestId }
  else c

/-! ## Objects that are being destroyed -/

/-- An event for an object whose destructor is under way is decoded but not delivered.
Exempt are the release of a buffer whose destructor waits for it (opcode 0), and the
answers `created` (0) and `failed` (1) for destroyed dma-buf parameters. -/
def pendingHostEventIsStale (c : Context) (senderId opcode : ℕ) : Bool :=
  let guestId := c.shadowTable.getGuestId senderId
  let name := c.eventInterface senderId
  let allowsDeferredBufferRelease :=
    name == some .wlBuffer && opcode == 0 && c.hostBufferIsGuestDestroyed senderId
  let orphaned := (guestId.any c.shadowTable.isPendingDestroyGuest) ||
    (c.orphanedDmabufParams.get senderId).isSome
  let allowsOrphanAnswer :=
    name == some .zwpLinuxBufferParamsV1 && (opcode == 0 || opcode == 1) && orphaned
  c.shadowTable.isPendingDestroyHost senderId && !allowsDeferredBufferRelease &&
    !allowsOrphanAnswer

/-- `wl_display.delete_id`: the host acknowledges a destructor. -/
def onDeleteId (c : Context) (hostId : ℕ) : Context :=
  let (consumed, shadowTable) := c.shadowTable.consumeHostDeleteId hostId
  let c := { c with shadowTable }
  if consumed then { c with renderBuffers := (c.renderBuffers.remove hostId).2 }
  else
    match c.orphanedDmabufParams.get hostId with
    | some guestId =>
      -- The late answer for the parameters still needs their host interface.
      if c.shadowTable.getGuestId hostId = some guestId &&
          (c.shadowTable.getInterface guestId).isSome then
        { c with
          shadowTable :=
            (c.shadowTable.removeGuestMapping guestId).clearPendingDestroyGuest guestId }
      else c
    | none =>
      match c.shadowTable.getGuestId hostId with
      | none => c
      | some guestId =>
        { c with
          renderBuffers := (c.renderBuffers.remove hostId).2
          shadowTable := c.shadowTable.removeId guestId
          pendingNativeCreates := c.pendingNativeCreates.erase hostId }

end Sommelier
