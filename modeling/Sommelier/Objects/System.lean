import Sommelier.Dispatch
import Sommelier.Handler.Compositor
import Sommelier.Handler.LinuxDmabuf
import Sommelier.Lib.Transition

/-!
# The object system

A session as a transition system over guest requests, host events and guest writes to
shared memory. A message that ends the session has no successor. The host follows the
protocol: it acknowledges destructors it received, announces IDs of its own range that are
free, and answers each asynchronous dma-buf creation once.

## Main definitions

* `Message`: the inputs of the system.
* `hostConforms`: what the protocol lets the host send.
* `step`, `objectSystem`: one message, and the system.
-/
namespace Sommelier

/-- Interfaces whose objects the generated code creates and destroys without a handler. -/
def Interface.isPlain : Interface → Bool
  | wlDisplay | wlShm | wlShmPool | wlBuffer | zwpLinuxBufferParamsV1 | wpViewport
  | zwpTextInputManagerV3 | zwpLinuxDmabufFeedbackV1 | gtkShell1 | gtkSurface1 => false
  | _ => true

inductive Message
  -- requests of the guest
  | newObject (sender guestId : ℕ) (interface : Interface)
  | newLocalObject (guestId : ℕ) (interface : Interface) (version : ℕ)
  | destroyObject (guestId : ℕ) (interface : Interface)
  | createPool (shm pool : ℕ) (size : ℤ) (bytes : Option Memory)
  | createBuffer (pool guestId : ℕ) (request : BufferRequest) (storage : HostStorage)
  | destroyBuffer (guestId : ℕ)
  | createParams (factory params : ℕ)
  | addPlane (params : ℕ) (plane : PendingParam) (duplicated : Bool)
  | create (params : ℕ) (width height : ℤ) (format : ℕ) (duplicated : Bool)
  | createImmed (params buffer : ℕ) (width height : ℤ) (format : ℕ) (duplicated : Bool)
  | destroyParams (params : ℕ)
  | attach (surface buffer : ℕ) (x y : ℤ)
  | damage (surface : ℕ) (rect : DamageRect)
  | damageBuffer (surface : ℕ) (rect : DamageRect)
  | setBufferScale (surface : ℕ) (scale : ℤ)
  | setBufferTransform (surface : ℕ) (transform : ℤ)
  | offset (surface : ℕ) (x y : ℤ)
  | commit (surface : ℕ) (env : CommitEnvironment)
  | destroySurface (surface : ℕ)
  | getViewport (viewporter viewport surface : ℕ)
  | setSource (viewport : ℕ) (x y width height : ℤ)
  | setDestination (viewport : ℕ) (width height : ℤ)
  | destroyViewport (viewport : ℕ)
  -- writes of the guest to a mapping, which only grows
  | writePool (mapping : ℕ) (bytes : Memory) (growth : ℕ)
  -- events of the host
  | release (buffer : ℕ)
  | deleteId (hostId : ℕ)
  | created (params buffer : ℕ)
  | failed (params : ℕ)
  | dataOffer (device offer : ℕ)
  | shmGlobalRemoved

/-- A sender of a request that is forwarded: a live object with a host counterpart. -/
def Context.forwardsFor (c : Context) (senderId : ℕ) : Bool :=
  (c.shadowTable.getInterface senderId).isSome &&
    !c.shadowTable.isPendingDestroyGuest senderId && (c.shadowTable.getHostId senderId).isSome

/-- The numbers the host chooses for its objects. -/
def isServerId (hostId : ℕ) : Bool := decide (guestServerIdStart ≤ hostId ∧ hostId < 2 ^ 32)

/-- The messages a host that follows the protocol sends; guests are not restricted. -/
def hostConforms (c : Context) : Message → Bool
  | .deleteId hostId => c.hostLifetime hostId == some .destroyed
  | .created params buffer =>
    isServerId buffer && c.hostLifetime buffer == some .free &&
      ((c.pendingNativeCreates.get params).isSome || (c.orphanedDmabufParams.get params).isSome)
  | .failed params =>
    (c.pendingNativeCreates.get params).isSome || (c.orphanedDmabufParams.get params).isSome
  | .dataOffer _ offer => isServerId offer && c.hostLifetime offer == some .free
  | _ => true

/-- The session goes on unless the handler found a fatal error. -/
def settle (c : Context) : Option Context := if c.fatalProtocolError then none else some c

/-- An attachment with its host IDs. -/
def attachRequest (table : ShadowTable) (surface buffer : ℕ) : Option HostTraffic :=
  match table.getHostId surface, if buffer = 0 then some 0 else table.getHostId buffer with
  | some hostSurface, some hostBuffer => some (.attach hostSurface hostBuffer)
  | _, _ => none

/-- The destructor of an object without handler, on the host or local. -/
def destroyPlain (c : Context) (guestId : ℕ) : Context :=
  match c.shadowTable.getHostId guestId with
  | some hostId => forwardDestructor c guestId hostId
  | none => queueLocalDeleteId c guestId

/-- Deliver an event to its handler, unless its object is being destroyed or unknown. -/
def deliver (c : Context) (senderId opcode : ℕ) (interface : Interface)
    (handle : Context → Option Context) : Option Context :=
  match c.eventInterface senderId with
  | none => some c
  | some name =>
    if name ≠ interface then none
    else if pendingHostEventIsStale c senderId opcode then some c
    else handle c

/-- A request is handled only for a sender and arguments that pass the checks. -/
def guarded (allowed : Bool) (next : Option Context) : Option Context :=
  if allowed then next else none

/-- The requests of the guest and its writes. -/
def requestStep (maps : DamageMapping) (c : Context) : Message → Option Context
  | .newObject sender guestId interface =>
    guarded (interface.isPlain && c.forwardsFor sender &&
      c.shadowTable.isGuestIdAvailable guestId) (mapNewId c sender guestId interface)
  | .newLocalObject guestId interface version =>
    guarded (interface.isLocalOnly && interface != .wlShmPool &&
      c.shadowTable.isGuestIdAvailable guestId)
      (some { c with
        shadowTable := c.shadowTable.trackInterfaceWithVersion guestId interface version })
  | .destroyObject guestId interface =>
    guarded ((interface.isPlain || interface.isLocalOnly) && interface != .wlSurface &&
      c.requestAllowed guestId interface 0)
      (let c := if interface = .wlShmPool then (poolOnDestroy c guestId).2
        else if interface = .wlShm then (shmOnRelease c guestId).2 else c
      settle (destroyPlain c guestId))
  | .createPool shm pool size bytes =>
    guarded (c.requestAllowed shm .wlShm 0 && c.shadowTable.isGuestIdAvailable pool)
      (settle (onCreatePool c shm pool size bytes).2)
  | .createBuffer pool guestId request storage =>
    guarded (c.requestAllowed pool .wlShmPool 0 && c.shadowTable.isGuestIdAvailable guestId)
      ((onCreateBuffer c pool guestId request storage).bind fun result => settle result.2)
  | .destroyBuffer guestId =>
    guarded (c.requestAllowed guestId .wlBuffer 0) (settle (bufferOnDestroy c guestId).2)
  | .createParams factory params =>
    guarded (c.requestAllowed factory .zwpLinuxDmabufV1 0 &&
      c.shadowTable.isGuestIdAvailable params)
      (mapNewId (onCreateParams c params).2 factory params .zwpLinuxBufferParamsV1)
  | .addPlane params plane duplicated =>
    guarded (c.requestAllowed params .zwpLinuxBufferParamsV1 0)
      (settle (onAdd c params plane duplicated).2)
  | .create params width height format duplicated =>
    guarded (c.requestAllowed params .zwpLinuxBufferParamsV1 0)
      (settle (onCreate c params width height format duplicated).2)
  | .createImmed params buffer width height format duplicated =>
    guarded (c.requestAllowed params .zwpLinuxBufferParamsV1 2 &&
      c.shadowTable.isGuestIdAvailable buffer)
      ((onCreateImmed c params buffer width height format duplicated).bind fun result =>
        settle result.2)
  | .destroyParams params =>
    guarded (c.requestAllowed params .zwpLinuxBufferParamsV1 0)
      (settle (destroyPlain (paramsOnDestroy c params).2 params))
  | .attach surface buffer x y =>
    guarded (c.requestAllowed surface .wlSurface 0 &&
      (buffer == 0 || c.objectAllowed buffer .wlBuffer))
      -- The handler starts with an empty queue, which is sent after the request itself.
      (let (action, handled) := onAttach { c with traffic := [] } surface buffer x y
      let request :=
        if action = .forward then attachRequest handled.shadowTable surface buffer else none
      settle (handled.after (request.toList ++ c.traffic)))
  | .damage surface rect =>
    guarded (c.requestAllowed surface .wlSurface 0) (settle (onDamage c surface rect).2)
  | .damageBuffer surface rect =>
    guarded (c.requestAllowed surface .wlSurface 4) (settle (onDamageBuffer c surface rect).2)
  | .setBufferScale surface scale =>
    guarded (c.requestAllowed surface .wlSurface 3)
      (settle (onSetBufferScale c surface scale).2)
  | .setBufferTransform surface transform =>
    guarded (c.requestAllowed surface .wlSurface 2)
      (settle (onSetBufferTransform c surface transform).2)
  | .offset surface x y =>
    guarded (c.requestAllowed surface .wlSurface 5) (settle (onOffset c surface x y).2)
  | .commit surface env =>
    guarded (c.requestAllowed surface .wlSurface 0) (settle (onCommit maps c surface env).2)
  | .destroySurface surface =>
    guarded (c.requestAllowed surface .wlSurface 0) (settle (surfaceOnDestroy c surface).2)
  | .getViewport viewporter viewport surface =>
    guarded (c.requestAllowed viewporter .wpViewporter 0 &&
      c.shadowTable.isGuestIdAvailable viewport && c.objectAllowed surface .wlSurface)
      ((settle (onGetViewport c viewport surface).2).bind fun c =>
        mapNewId c viewporter viewport .wpViewport)
  | .setSource viewport x y width height =>
    guarded (c.requestAllowed viewport .wpViewport 0)
      (settle (onSetSource c viewport x y width height).2)
  | .setDestination viewport width height =>
    guarded (c.requestAllowed viewport .wpViewport 0)
      (settle (onSetDestination c viewport width height).2)
  | .destroyViewport viewport =>
    guarded (c.requestAllowed viewport .wpViewport 0)
      (settle (destroyPlain (viewportOnDestroy c viewport).2 viewport))
  | .writePool mapping bytes growth =>
    some { c with
      mappings := Function.update c.mappings mapping
        { bytes, size := (c.mappings mapping).size + growth } }
  | _ => none

/-- The events of the host. -/
def eventStep (c : Context) : Message → Option Context
  | .release buffer =>
    deliver c buffer 0 .wlBuffer fun c => settle (bufferOnRelease c buffer).2
  | .deleteId hostId => settle (onDeleteId (c.queue (.deleteId hostId)) hostId)
  | .created params buffer =>
    deliver c params 0 .zwpLinuxBufferParamsV1 fun c =>
      guarded (c.shadowTable.isHostIdAvailable buffer)
        (let (action, c) := onCreated c params buffer
        (settle c).bind fun c =>
          if action = .forward then mapAnnouncedId c params buffer .wlBuffer else some c)
  | .failed params =>
    deliver c params 1 .zwpLinuxBufferParamsV1 fun c => settle (onFailed c params).2
  | .dataOffer device offer =>
    deliver c device 0 .wlDataDevice fun c =>
      guarded (c.shadowTable.isHostIdAvailable offer) (mapAnnouncedId c device offer .wlDataOffer)
  | .shmGlobalRemoved =>
    some { c with
      staleShmGuestObjects := c.staleShmGuestObjects ∪
        (c.shadowTable.interfaces.keys.filter fun guestId =>
          c.shadowTable.getInterface guestId == some .wlShm).toFinset
      staleShmPools := c.staleShmPools ∪ c.pools.keys.toFinset }
  | _ => none

/-- One message; an event must be one the host may send. -/
def step (maps : DamageMapping) (c : Context) (m : Message) : Option Context :=
  if hostConforms c m then (requestStep maps c m).or (eventStep c m) else none

/-- Sessions from their start, for any conversion of damage. Their hosts follow the rules for
object IDs: a step that `hostConforms` excludes is not one of them. -/
def objectSystem (maps : DamageMapping) : TransitionSystem Context Message where
  init c := c = .new
  step := step maps

end Sommelier
