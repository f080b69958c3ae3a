import Sommelier.Ids.Context

/-!
# Buffers and surfaces

The handlers of pools, buffers, dma-buf parameters and surfaces, as far as they create, name or
retire IDs: the temporary host objects behind a bridged buffer, the destructors that wait for a
release, the asynchronous creations and their orphans, and the Aura object of a surface.

## Main definitions

* `IdContext.onCreateBuffer`, `IdContext.bufferOnDestroy`, `IdContext.bufferOnRelease`.
* `IdContext.onCreateImmed`, `IdContext.onCreated`, `IdContext.onFailed`.
* `IdContext.surfaceOnDestroy`, `IdContext.ensureHostZauraSurface`.
-/
namespace Sommelier.IdContext

/-! ## Pools and buffers -/

/-- How a bridged buffer reaches the host: the temporary object it is created from. -/
inductive BufferBacking
  | dmabuf
  | shm
  deriving DecidableEq, Repr

namespace BufferBacking

def factory : BufferBacking → InternalGlobal
  | dmabuf => .dmabuf
  | shm => .shm

def interface : BufferBacking → Interface
  | dmabuf => .zwpLinuxBufferParamsV1
  | shm => .wlShmPool

def version : BufferBacking → ℕ
  | dmabuf => 2
  | shm => 1

end BufferBacking

/-- The registration of a bridged buffer. -/
def registerBuffer (guestId hostId : ℕ) (t : ShadowTable) : ShadowTable :=
  (t.trackInterfaceWithVersion guestId .wlBuffer 1).setHostVersion hostId 1

/-- `wl_shm_pool.create_buffer`: a temporary pool or parameters object, the buffer created from
it, and the destructor of the temporary object. What fails on the way ends the session. -/
def onCreateBuffer (c : IdContext) (guestId : ℕ) (backing : BufferBacking) : Option IdContext :=
  match c.hostIds.get backing.factory with
  | none => none
  | some _ => do
    let (temporary, c) ← c.bindInternal backing.interface backing.version
    let (hostId, s) ← c.toIdState.allocateHostId
    return { c with
      toIdState := ((s.queueNewId hostId).destroyInternal temporary).onTable fun t =>
        registerBuffer guestId hostId (t.mapId guestId hostId) }

/-- The destructor of a buffer is queued. -/
def queueBufferDestroy (c : IdContext) (guestId hostId : ℕ) : IdContext :=
  { c with
    guestDestroyedBuffers := c.guestDestroyedBuffers.erase hostId }.onIds
      (·.forwardDestructor guestId hostId)

/-- `wl_buffer.destroy`; a buffer in use is only retired, its destructor waits. -/
def bufferOnDestroy (c : IdContext) (guestId : ℕ) (inUse : Bool) : IdContext :=
  match c.shadowTable.getHostId guestId with
  | none => c
  | some hostId =>
    if inUse then
      { c with
        guestDestroyedBuffers := insert hostId c.guestDestroyedBuffers }.onIds
          (·.onTable (·.retireGuestObject guestId))
    else c.queueBufferDestroy guestId hostId

/-- `wl_buffer.release`; the release a destructor waited for is not sent on, nor is it the last
one while an attachment is `pending`. -/
def bufferOnRelease (c : IdContext) (hostId : ℕ) (pending : Bool) : IdContext :=
  match c.shadowTable.getGuestId hostId with
  | none => c
  | some guestId =>
    if hostId ∈ c.guestDestroyedBuffers then
      if pending then c else c.queueBufferDestroy guestId hostId
    else c.forwardEvent hostId []

/-- Queue the destructor of a buffer that waited for it. -/
def retireBuffer (c : IdContext) (hostId : ℕ) : IdContext :=
  if hostId ∈ c.guestDestroyedBuffers then
    match c.shadowTable.getGuestId hostId with
    | none => c
    | some guestId => c.queueBufferDestroy guestId hostId
  else c

/-- `retire_eligible_buffers`: those whose last use ended. -/
def retireEligibleBuffers (c : IdContext) (eligible : List ℕ) : IdContext :=
  eligible.foldl retireBuffer c

/-! ## dma-buf parameters -/

/-- `create`; the host answers with `created` or `failed`. -/
def onCreate (c : IdContext) (params : ℕ) : Option IdContext :=
  if params ∈ c.usedDmabufParams then none
  else
    match c.shadowTable.getHostId params with
    | none => none
    | some hostParams =>
      if (c.pendingNativeCreates.get hostParams).isSome then none
      else some { c with
        usedDmabufParams := insert params c.usedDmabufParams
        pendingNativeCreates := c.pendingNativeCreates.set hostParams params }

/-- `create_immed`. -/
def onCreateImmed (c : IdContext) (params buffer : ℕ) : Option IdContext :=
  if params ∈ c.usedDmabufParams then none
  else
    match c.shadowTable.getHostId params with
    | none => none
    | some _ =>
      let version := (c.shadowTable.guestObjectVersion params).getD unknownObjectVersion
      (c.toIdState.pairQueued buffer fun hostId t =>
        (t.trackInterfaceWithVersion buffer .wlBuffer version).setHostVersion hostId version).map
          fun s => { c with
            toIdState := s
            usedDmabufParams := insert params c.usedDmabufParams }

/-- `zwp_linux_buffer_params_v1.destroy`, before it is forwarded: an unanswered creation
outlives its parameters. -/
def paramsOnDestroy (c : IdContext) (params : ℕ) : IdContext :=
  let c := { c with usedDmabufParams := c.usedDmabufParams.erase params }
  match c.shadowTable.getHostId params with
  | none => c
  | some hostParams =>
    if (c.pendingNativeCreates.get hostParams).isSome then
      { c with
        pendingNativeCreates := c.pendingNativeCreates.erase hostParams }.onIds
          (·.orphanParams params hostParams)
    else c

/-- The answer for destroyed parameters arrived. -/
def answerOrphan (c : IdContext) (hostParams : ℕ) : IdContext :=
  { c with
    pendingNativeCreates := c.pendingNativeCreates.erase hostParams }.onIds
      (·.answerOrphan hostParams)

/-- A buffer without a guest object is destroyed at once. -/
def destroyOrphanedBuffer (c : IdContext) (hostParams buffer : ℕ) : IdContext :=
  c.onIds fun s => ((s.logHost (.announce buffer)).onTable
    (·.trackHostInterfaceWithVersion buffer .wlBuffer
      ((s.shadowTable.hostObjectVersion hostParams).getD unknownObjectVersion))).destroyInternal
        buffer

/-- The buffer of a successful creation gets a guest ID, and the guest hears of it. -/
def forwardCreated (c : IdContext) (hostParams buffer : ℕ) : Option IdContext :=
  match c.shadowTable.getGuestId hostParams with
  | none => some c
  | some guestParams =>
    (c.toIdState.pairAnnounced buffer .wlBuffer
      ((c.shadowTable.hostObjectVersion hostParams).getD unknownObjectVersion)).map
        fun (guestBuffer, s) => { c with toIdState := s.emit guestParams [guestBuffer] }

/-- `created`. -/
def onCreated (c : IdContext) (hostParams buffer : ℕ) : Option IdContext :=
  if (c.orphanedDmabufParams.get hostParams).isSome then
    some ((c.destroyOrphanedBuffer hostParams buffer).answerOrphan hostParams)
  else
    match c.shadowTable.getGuestId hostParams with
    | none => some c
    | some guestParams =>
      if c.shadowTable.isPendingDestroyGuest guestParams then
        let c := c.destroyOrphanedBuffer hostParams buffer
        some { c with pendingNativeCreates := c.pendingNativeCreates.erase hostParams }
      else
        match c.pendingNativeCreates.get hostParams with
        | none => c.forwardCreated hostParams buffer
        | some pending =>
          if pending ≠ guestParams then none
          else { c with
            pendingNativeCreates :=
              c.pendingNativeCreates.erase hostParams }.forwardCreated hostParams buffer

/-- `failed`. -/
def onFailed (c : IdContext) (hostParams : ℕ) : Option IdContext :=
  if (c.orphanedDmabufParams.get hostParams).isSome then some (c.answerOrphan hostParams)
  else
    match c.shadowTable.getGuestId hostParams with
    | none => some c
    | some guestParams =>
      if c.shadowTable.isPendingDestroyGuest guestParams then
        some { c with pendingNativeCreates := c.pendingNativeCreates.erase hostParams }
      else
        match c.pendingNativeCreates.get hostParams with
        | none => some (c.forwardEvent hostParams [])
        | some pending =>
          if pending ≠ guestParams then none
          else some ({ c with
            pendingNativeCreates :=
              c.pendingNativeCreates.erase hostParams }.forwardEvent hostParams [])

/-! ## Surfaces -/

/-- The Aura object of a surface, created when it is first needed. -/
def ensureHostZauraSurface (c : IdContext) (surface : ℕ) : Option IdContext :=
  match c.shadowTable.getHostId surface, c.hostIds.get .zauraShell with
  | some hostSurface, some _ =>
    if (c.wlSurfaceToZauraSurface.get hostSurface).isSome then some c
    else (c.bindInternal .zauraSurface c.hostZauraShellVersion).map fun (hostAura, c) =>
      { c with
        wlSurfaceToZauraSurface := c.wlSurfaceToZauraSurface.set hostSurface hostAura }
  | _, _ => some c

/-- The Aura object goes before its surface; older versions have no destructor. -/
def releaseZauraSurface (c : IdContext) (hostSurface : ℕ) : IdContext :=
  match c.wlSurfaceToZauraSurface.get hostSurface with
  | none => c
  | some hostAura =>
    let version := (c.shadowTable.hostObjectVersion hostAura).getD c.hostZauraShellVersion
    { c with
      wlSurfaceToZauraSurface := c.wlSurfaceToZauraSurface.erase hostSurface }.onIds fun s =>
        if 38 ≤ version then s.destroyInternal hostAura else s.retireInternal hostAura

end Sommelier.IdContext
