import Sommelier.Lib.Lifetime
import Sommelier.State.HostIds

/-!
# Object IDs of a session

The part of the session state that decides about object IDs, with what both peers were told:
the life of each ID on the host side and on the guest side, the new IDs of the host stream,
and the objects the guest's events name.

## Main definitions

* `GuestTraffic`: what the guest was told, and what it created and destroyed.
* `IdState`: the shadow table with the traffic.
* `IdState.allocateHostId`, `IdState.queueNewId`, `IdState.sendNewId`: a new ID on its way to
  the host.
* `IdState.queueLocalDeleteId`, `IdState.onDeleteId`: acknowledgements to the guest.
-/
namespace Sommelier

/-- One entry of the guest's traffic. A destructor is noted once it was handled. -/
inductive GuestTraffic
  | lifetime (event : LifetimeEvent ℕ)
  | event (senderId : ℕ) (objects : List ℕ)
  | error (objectId : ℕ)
  deriving DecidableEq, Repr

/-- The entry as an event in the life of a guest ID. -/
def GuestTraffic.lifetimeEvent : GuestTraffic → Option (LifetimeEvent ℕ)
  | lifetime e => some e
  | _ => none

/-- What decides about IDs, and the traffic so far; the traffic is newest first, the lists of
new IDs are in order. -/
structure IdState where
  shadowTable : ShadowTable
  /-- host params destroyed before their asynchronous creation was answered -/
  orphanedDmabufParams : Table ℕ ℕ
  hostTraffic : List (LifetimeEvent ℕ)
  guestTraffic : List GuestTraffic
  /-- what `allocate_host_id` returned -/
  allocated : List ℕ
  /-- the new IDs of the requests sent to the host -/
  sentNewIds : List ℕ
  /-- the new IDs of the requests in the queue to the host -/
  queuedNewIds : List ℕ
  /-- the cursor of `allocate_host_id` wrapped -/
  wrapped : Bool

namespace IdState

/-- The session before its first message: only `wl_display` exists on both sides. -/
def new : IdState where
  shadowTable := (ShadowTable.new.mapId 1 1).trackInterface 1 .wlDisplay
  orphanedDmabufParams := ∅
  hostTraffic := []
  guestTraffic := []
  allocated := []
  sentNewIds := []
  queuedNewIds := []
  wrapped := false

/-- The life of the guest's IDs. -/
def guestLifetimes (s : IdState) : List (LifetimeEvent ℕ) :=
  s.guestTraffic.filterMap GuestTraffic.lifetimeEvent

/-! ## Traffic -/

def logHost (s : IdState) (e : LifetimeEvent ℕ) : IdState :=
  { s with hostTraffic := e :: s.hostTraffic }

def logGuest (s : IdState) (e : LifetimeEvent ℕ) : IdState :=
  { s with guestTraffic := .lifetime e :: s.guestTraffic }

/-- An event for the guest, with the objects it names. -/
def emit (s : IdState) (senderId : ℕ) (objects : List ℕ) : IdState :=
  { s with guestTraffic := .event senderId objects :: s.guestTraffic }

/-- `wl_display.error` for an object. -/
def emitError (s : IdState) (objectId : ℕ) : IdState :=
  { s with guestTraffic := .error objectId :: s.guestTraffic }

def onTable (s : IdState) (f : ShadowTable → ShadowTable) : IdState :=
  { s with shadowTable := f s.shadowTable }

/-! ## New IDs of the host -/

/-- `none` is the panic of an exhausted ID space. -/
def allocateHostId (s : IdState) : Option (ℕ × IdState) :=
  s.shadowTable.allocateHostId.map fun (hostId, shadowTable) =>
    (hostId, { s with
      shadowTable
      allocated := s.allocated ++ [hostId]
      wrapped := s.wrapped || decide (shadowTable.nextHostId ≤ s.shadowTable.nextHostId) })

/-- A request that creates the object is queued. -/
def queueNewId (s : IdState) (hostId : ℕ) : IdState :=
  { s.logHost (.create hostId) with queuedNewIds := s.queuedNewIds ++ [hostId] }

/-- A request that creates the object is forwarded: it precedes what its handler queued. -/
def sendNewId (s : IdState) (hostId : ℕ) : IdState :=
  { s.logHost (.create hostId) with sentNewIds := s.sentNewIds ++ [hostId] }

/-- The queue to the host is sent. -/
def flush (s : IdState) : IdState :=
  { s with sentNewIds := s.sentNewIds ++ s.queuedNewIds, queuedNewIds := [] }

/-- A host object of the proxy itself, created by a queued request. -/
def bindInternal (s : IdState) (interface : Interface) (version : ℕ) : Option (ℕ × IdState) :=
  s.allocateHostId.map fun (hostId, s) =>
    (hostId, (s.onTable (·.trackHostInterfaceWithVersion hostId interface version)).queueNewId
      hostId)

/-- The destructor of a host object of the proxy itself. -/
def destroyInternal (s : IdState) (hostId : ℕ) : IdState :=
  (s.logHost (.destroy hostId)).onTable fun t => (t.markPendingDestroyHost hostId).2

/-- A host object of the proxy itself that has no destructor. -/
def retireInternal (s : IdState) (hostId : ℕ) : IdState :=
  s.onTable (·.retireHostInterface hostId)

/-! ## Acknowledgements to the guest -/

/-- `queue_guest_delete_id`: nothing is sent for an object without interface. -/
def queueGuestDeleteId (s : IdState) (guestId : ℕ) : Bool × IdState :=
  if (s.shadowTable.getInterface guestId).isNone then (false, s)
  else (true, s.logGuest (.acknowledge guestId))

/-- `queue_local_delete_id`: the end of an object that only the proxy knows. -/
def queueLocalDeleteId (s : IdState) (guestId : ℕ) : IdState :=
  if (s.shadowTable.getInterface guestId).isSome && (s.shadowTable.getHostId guestId).isNone then
    (s.logGuest (.acknowledge guestId)).onTable (·.removeId guestId)
  else s

/-- `wl_display.delete_id`: the host acknowledged a destructor. -/
def onDeleteId (s : IdState) (hostId : ℕ) : IdState :=
  let s := s.logHost (.acknowledge hostId)
  let (consumed, shadowTable) := s.shadowTable.consumeHostDeleteId hostId
  let s := { s with shadowTable }
  if consumed then s
  else
    match s.orphanedDmabufParams.get hostId with
    | some guestId =>
      if s.shadowTable.getGuestId hostId = some guestId then
        match s.queueGuestDeleteId guestId with
        | (true, s) => s.onTable fun t =>
          (t.removeGuestMapping guestId).clearPendingDestroyGuest guestId
        | (false, s) => s
      else s
    | none =>
      match s.shadowTable.getGuestId hostId with
      | some guestId => (s.onTable (·.removeId guestId)).logGuest (.acknowledge guestId)
      | none => s

/-! ## Objects both peers know -/

/-- The object of a guest request, created by a queued request to the host. -/
def pairQueued (s : IdState) (guestId : ℕ) (register : ℕ → ShadowTable → ShadowTable) :
    Option IdState :=
  s.allocateHostId.map fun (hostId, s) =>
    (s.onTable fun t => register hostId (t.mapId guestId hostId)).queueNewId hostId

/-- The object of a forwarded request. -/
def pairSent (s : IdState) (guestId : ℕ) (register : ℕ → ShadowTable → ShadowTable) :
    Option IdState :=
  s.allocateHostId.map fun (hostId, s) =>
    (s.onTable fun t => register hostId (t.mapId guestId hostId)).sendNewId hostId

/-- The object of a forwarded event, under a fresh guest ID of the server range. -/
def pairAnnounced (s : IdState) (hostId : ℕ) (interface : Interface) (version : ℕ) :
    Option (ℕ × IdState) :=
  s.shadowTable.allocateGuestServerId.map fun (guestId, shadowTable) =>
    (guestId, (({ s with
      shadowTable := shadowTable.registerObject guestId hostId interface version version }.logHost
        (.announce hostId)).logGuest (.announce guestId)))

/-- The tables after both host objects of a text input were created. -/
def registerTextInput (id hostV1Id : ℕ) (hostExtId extManagerId : Option ℕ) (t : ShadowTable) :
    ShadowTable :=
  let t := ((t.mapId id hostV1Id).trackInterfaceWithVersion id .zwpTextInputV3
    1).trackHostInterfaceWithVersion hostV1Id .zwpTextInputV1 1
  match hostExtId with
  | none => t
  | some hostExtId => t.trackHostInterfaceWithVersion hostExtId .zcrExtendedTextInputV1
      ((extManagerId.bind t.hostObjectVersion).getD unknownObjectVersion)

/-- The host object of a text input, and its extension if the host has one. Both are created
before either is registered. -/
def createTextInput (s : IdState) (id : ℕ) (extManagerId : Option ℕ) :
    Option ((ℕ × Option ℕ) × IdState) := do
  let (hostV1Id, s) ← s.allocateHostId
  let s := s.queueNewId hostV1Id
  let (hostExtId, s) ← match extManagerId with
    | none => some (none, s)
    | some _ => s.allocateHostId.map fun (hostExtId, s) =>
        (some hostExtId, s.queueNewId hostExtId)
  return ((hostV1Id, hostExtId), s.onTable (registerTextInput id hostV1Id hostExtId extManagerId))

/-- A destructor is forwarded: an ID of the server range is free at once, the others wait for
the host. -/
def forwardDestructor (s : IdState) (guestId hostId : ℕ) : IdState :=
  (s.logHost (.destroy hostId)).onTable fun t =>
    if ShadowTable.isGuestServerId guestId then t.removeId guestId else t.markPendingDestroy guestId

/-- An unanswered creation outlives its parameters. -/
def orphanParams (s : IdState) (params hostParams : ℕ) : IdState :=
  { s with orphanedDmabufParams := s.orphanedDmabufParams.set hostParams params }

/-- The answer for destroyed parameters arrived: their host ID is free once the host
acknowledged their destructor. -/
def answerOrphan (s : IdState) (hostParams : ℕ) : IdState :=
  { s with
    orphanedDmabufParams := s.orphanedDmabufParams.erase hostParams }.onTable fun t =>
      if (t.getGuestId hostParams).isNone then t.removeHostInterface hostParams else t

/-- The terminal event of a callback of the guest. -/
def completeCallback (s : IdState) (guestId hostId : ℕ) : IdState :=
  (((s.emit guestId []).logGuest (.acknowledge guestId)).onTable fun t =>
    (t.retireServerDestroyedObject guestId).2).logHost (.destroy hostId)

end IdState
end Sommelier
