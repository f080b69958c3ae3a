import Sommelier.Handler.ShmCopy
import Sommelier.Lib.Lifetime
import Sommelier.State.ShadowTable

/-!
# Session context

The part of the session state that the surface, buffer and dma-buf handlers share, with
the operations that combine the shadow table and the render-buffer registry.

## Main definitions

* `BufferState`: an SHM buffer with its layout, its host storage and its copy mark.
* `HostTraffic`: what was exchanged with the host about objects, surfaces and commits.
* `Context`: the session state, with `renderBufferHostId`, `finalizeSurfaceAttachment` and
  `completeQueuedBufferDestroy`.
-/
namespace Sommelier

/-! ## Formats -/

def wlShmFormatRgb565 : ℕ := 0x36314752
def drmFormatXrgb8888 : ℕ := 0x34325258
def drmFormatArgb8888 : ℕ := 0x34325241
def drmFormatXbgr8888 : ℕ := 0x34324258
def drmFormatAbgr8888 : ℕ := 0x34324241

def isSupportedDrmFormat (format : ℕ) : Bool :=
  format == wlShmFormatNv12 || format == wlShmFormatRgb565 || format == drmFormatXrgb8888 ||
    format == drmFormatArgb8888 || format == drmFormatXbgr8888 || format == drmFormatAbgr8888

/-! ## Data -/

/-- A mapped guest pool; the guest writes to it at any time and may let it grow. -/
structure PoolInner where
  bytes : Memory
  size : ℕ

/-- A bridged SHM buffer: its pool mapping, and the host storage its image is copied to. -/
structure BufferState where
  pool : ℕ
  layout : ShmCopyLayout
  valid : layout.Valid
  dest : Memory
  dmabufSync : Bool
  needsFullCopy : Bool

/-- One plane added to a `zwp_linux_buffer_params_v1`. -/
structure PendingParam where
  planeIdx : ℕ
  offset : ℕ
  stride : ℕ
  modifier : ℕ
  deriving DecidableEq, Repr

/-- An asynchronous dma-buf import the host has not answered. -/
structure PendingNativeCreate where
  guestParamsId : ℕ
  dimensions : ℤ × ℤ
  deriving DecidableEq, Repr

/-- Messages exchanged with the host that create, destroy or commit its objects. A buffer
destructor notes whether the buffer was in use when it was queued. -/
inductive HostTraffic
  | create (hostId : ℕ)
  | announce (hostId : ℕ)
  | destroy (hostId : ℕ)
  | destroyBuffer (hostId : ℕ) (awaitingRelease pendingAttach : Bool)
  | deleteId (hostId : ℕ)
  | attach (surface buffer : ℕ)
  | damage (surface : ℕ) (rect : DamageRect)
  | commit (surface : ℕ)
  deriving DecidableEq, Repr

/-- The message as an event in the life of a host ID. -/
def HostTraffic.lifetimeEvent : HostTraffic → Option (LifetimeEvent ℕ)
  | create hostId => some (.create hostId)
  | announce hostId => some (.announce hostId)
  | destroy hostId => some (.destroy hostId)
  | destroyBuffer hostId _ _ => some (.destroy hostId)
  | deleteId hostId => some (.acknowledge hostId)
  | _ => none

structure Context where
  shadowTable : ShadowTable
  surfaces : Table ℕ SurfaceState
  viewportToWlSurface : Table ℕ ℕ
  pools : Table ℕ ℕ
  mappings : ℕ → PoolInner
  nextMapping : ℕ
  staleShmGuestObjects : Finset ℕ
  staleShmPools : Finset ℕ
  renderBuffers : RenderBufferRegistry BufferState
  pendingParams : Table ℕ (List PendingParam)
  usedDmabufParams : Finset ℕ
  pendingNativeCreates : Table ℕ PendingNativeCreate
  orphanedDmabufParams : Table ℕ ℕ
  traffic : List HostTraffic
  fatalProtocolError : Bool

/-- What a handler decides about the message it was given. -/
inductive Action
  | forward
  | drop
  deriving DecidableEq, Repr

namespace Context

/-- The session before its first request: only `wl_display` exists on both sides. -/
def new : Context where
  shadowTable := (ShadowTable.new.mapId 1 1).trackInterface 1 .wlDisplay
  surfaces := ∅
  viewportToWlSurface := ∅
  pools := ∅
  mappings := fun _ => { bytes := fun _ => 0, size := 0 }
  nextMapping := 0
  staleShmGuestObjects := ∅
  staleShmPools := ∅
  renderBuffers := ∅
  pendingParams := ∅
  usedDmabufParams := ∅
  pendingNativeCreates := ∅
  orphanedDmabufParams := ∅
  traffic := [.create 1]
  fatalProtocolError := false

/-- The life of a host ID as the traffic shows it; `none` when it broke the rules of IDs. -/
def hostLifetime (c : Context) (hostId : ℕ) : Option Lifetime :=
  lifetime (c.traffic.filterMap HostTraffic.lifetimeEvent) hostId

/-- The newest message about the life of a host ID. -/
def lastAbout (c : Context) (hostId : ℕ) : Option HostTraffic :=
  c.traffic.find? fun message => message.lifetimeEvent.any (·.id == hostId)

def queue (c : Context) (message : HostTraffic) : Context :=
  { c with traffic := message :: c.traffic }

/-- What is queued follows the messages that were sent. -/
def after (c : Context) (sent : List HostTraffic) : Context :=
  { c with traffic := c.traffic ++ sent }

@[simp] theorem after_shadowTable (c : Context) (sent : List HostTraffic) :
    (c.after sent).shadowTable = c.shadowTable := rfl

@[simp] theorem after_renderBuffers (c : Context) (sent : List HostTraffic) :
    (c.after sent).renderBuffers = c.renderBuffers := rfl

/-- A protocol error ends the session once it was sent. -/
def queueProtocolError (c : Context) : Context := { c with fatalProtocolError := true }

/-! ## Surfaces -/

def surfaceOrDefault (c : Context) (surfaceId : ℕ) : SurfaceState :=
  (c.surfaces.get surfaceId).getD .new

/-- Update the state of a surface, which starts with its first request. -/
def updateSurface (c : Context) (surfaceId : ℕ) (f : SurfaceState → SurfaceState) : Context :=
  { c with surfaces := c.surfaces.set surfaceId (f (c.surfaceOrDefault surfaceId)) }

/-! ## Buffers -/

def renderBufferHostId (c : Context) (guestId : ℕ) : Option ℕ :=
  (c.shadowTable.getHostId guestId).filter c.renderBuffers.contains

def localBuffer (c : Context) (guestId : ℕ) : Option BufferState :=
  (c.renderBufferHostId guestId).bind c.renderBuffers.localCopy

def bufferDimensions (c : Context) (guestId : ℕ) : Option (ℤ × ℤ) :=
  ((c.renderBufferHostId guestId).bind c.renderBuffers.activeBuffer).map fun buffer =>
    match buffer.backing with
    | .localCopy backing => ((backing.layout.width : ℤ), (backing.layout.height : ℤ))
    | .native size => size

def hostBufferUse (c : Context) (guestId : ℕ) : Option RenderBufferUse :=
  (c.renderBufferHostId guestId).bind c.renderBuffers.useState

def bufferIsSubmitted (c : Context) (guestId : ℕ) : Bool :=
  (c.hostBufferUse guestId).any RenderBufferUse.isAwaitingRelease

def bufferIsReleased (c : Context) (guestId : ℕ) : Bool :=
  c.hostBufferUse guestId == some .released

def hostBufferIsGuestDestroyed (c : Context) (hostId : ℕ) : Bool :=
  c.renderBuffers.isGuestDestroyed hostId

/-- Apply a registry transition that reports whether it was legal. -/
def onRenderBuffer (c : Context) (guestId : ℕ)
    (f : RenderBufferRegistry BufferState → ℕ → Bool × RenderBufferRegistry BufferState) :
    Bool × Context :=
  match c.renderBufferHostId guestId with
  | none => (false, c)
  | some hostId =>
    let (ok, renderBuffers) := f c.renderBuffers hostId
    (ok, { c with renderBuffers })

def markBufferReleased (c : Context) (guestId : ℕ) : Bool × Context :=
  c.onRenderBuffer guestId RenderBufferRegistry.release

def finishSurfaceDestroyUse (c : Context) (guestId : ℕ) (hasOtherCurrent : Bool) :
    Bool × Context :=
  c.onRenderBuffer guestId fun r hostId => r.endLastSurfaceUse hostId hasOtherCurrent

def markBufferGuestDestroyed (c : Context) (guestId : ℕ) : Bool × Context :=
  c.onRenderBuffer guestId RenderBufferRegistry.markGuestDestroyed

/-- The generation an attachment names; an attachment of no buffer names none. -/
def resolveAttachment (c : Context) : Option ℕ → Option (Option ℕ)
  | some guestId => (c.renderBufferHostId guestId).map some
  | none => some none

def finalizeSurfaceAttachment (c : Context) (previous next : Option ℕ) : Bool × Context :=
  match c.resolveAttachment previous, c.resolveAttachment next with
  | some previous, some next =>
    let (ok, renderBuffers) := c.renderBuffers.finalizeAttachment previous next
    (ok, { c with renderBuffers })
  | _, _ => (false, c)

/-- Settle the IDs of a buffer whose destructor was queued: a number of the client range
stays reserved for the acknowledgement, one of the server range is free again. -/
def completeQueuedBufferDestroy (c : Context) (guestId hostId : ℕ) : Bool × Context :=
  if c.shadowTable.getHostId guestId ≠ some hostId then (false, c)
  else if ShadowTable.isGuestServerId guestId then
    let (removed, renderBuffers) := c.renderBuffers.remove hostId
    if removed then
      (true, { c with renderBuffers, shadowTable := c.shadowTable.removeId guestId })
    else (false, c)
  else
    let (marked, renderBuffers) := c.renderBuffers.markHostDestroyQueued hostId
    if c.renderBuffers.contains hostId && !marked then (false, c)
    else
      (true, { c with renderBuffers, shadowTable := c.shadowTable.markPendingDestroy guestId })

end Context
end Sommelier
