import Sommelier.Handler.Shm

/-!
# Surfaces

Requests on `wl_surface` and `wp_viewport`. Pending state collects in the surface; a
commit prepares a transaction, copies the attached SHM buffer into its host storage,
settles the buffer uses, and only then sends the damage and the commit.

## Main definitions

* `onAttach`, `onDamage`, `onDamageBuffer`, …: requests that collect pending state.
* `copySurfaceBuffer`: the copy of the attached buffer, for the damage of the commit.
* `onCommit`, `CommitExit`: the commit and its exits.
* `surfaceOnDestroy`: the end of a surface.
-/
namespace Sommelier

/-! ## Damage sent to the host -/

/-- Headroom around the damage range: a tenth of the bounds of `i32`. -/
def damageMin : ℤ := -214748364
def damageMax : ℤ := 214748364

def clampDamageEdge (value : ℤ) : ℤ := max damageMin (min value damageMax)

/-- Surface damage, grown by one pixel on each side. -/
def mapSurfaceDamage (rect : DamageRect) : DamageRect :=
  if rect.width ≤ 0 ∨ rect.height ≤ 0 then { x := 0, y := 0, width := 0, height := 0 }
  else
    let left := clampDamageEdge (rect.x - 1)
    let top := clampDamageEdge (rect.y - 1)
    let right := clampDamageEdge (rect.x + rect.width + 1)
    let bottom := clampDamageEdge (rect.y + rect.height + 1)
    { x := left, y := top, width := max (right - left) 1, height := max (bottom - top) 1 }

/-- The conversions of damage from buffer to surface coordinates. They divide in floating
point and only choose which damage the host is told about, so any conversion will do. -/
structure DamageMapping where
  mapBufferDamage : DamageRect → SurfaceState → ℤ → ℤ → DamageRect
  fullSurfaceDamage : SurfaceState → ℤ → ℤ → DamageRect

/-- The conversions on a surface without scale, transform and viewport. -/
def DamageMapping.unscaled : DamageMapping where
  mapBufferDamage rect _ _ _ := mapSurfaceDamage rect
  fullSurfaceDamage _ width height :=
    { x := 0, y := 0, width := max width 1, height := max height 1 }

/-- The damage and commit requests of one transaction; `none` without a host surface. -/
def buildSurfaceCommitMessages (maps : DamageMapping) (c : Context) (surfaceId : ℕ)
    (surfaceDamage bufferDamage : List DamageRect) (surfaceState : SurfaceState)
    (forceFullDamage : Bool) : Option (List HostTraffic) :=
  match c.shadowTable.getHostId surfaceId with
  | none => none
  | some hostSurfaceId =>
    let (bufferWidth, bufferHeight) :=
      ((surfaceState.currentBufferId.bind c.bufferDimensions).or
        surfaceState.currentBufferDimensions).getD (1, 1)
    let fullDamage := maps.fullSurfaceDamage surfaceState bufferWidth bufferHeight
    let mapped := (if forceFullDamage then [fullDamage] else []) ++
      surfaceDamage.map mapSurfaceDamage ++
      bufferDamage.map fun rect =>
        maps.mapBufferDamage rect surfaceState bufferWidth bufferHeight
    let visible := (coalesceDamageRects mapped).filter fun rect =>
      decide (0 < rect.width) && decide (0 < rect.height)
    some (visible.map (.damage hostSurfaceId) ++ [.commit hostSurfaceId])

/-! ## Copying the attached buffer -/

inductive NativeSync
  | synchronized
  | implicitSyncFallback
  | failed
  deriving DecidableEq, Repr

/-- What the system calls of one commit return. -/
structure CommitEnvironment where
  poolMapped : Bool
  syncBegins : Bool
  destMapped : Bool
  syncEnds : Bool
  nativeSync : NativeSync
  deriving DecidableEq, Repr

/-- The damage a copy is made for: the whole image, or the declared rectangles. -/
def copyDamage (l : ShmCopyLayout) (needsFullCopy : Bool)
    (surfaceDamage bufferDamage : List DamageRect) (surfaceMappingRequiresFullCopy : Bool) :
    List DamageRect :=
  if needsFullCopy || (surfaceMappingRequiresFullCopy && !surfaceDamage.isEmpty) then
    [{ x := 0, y := 0, width := l.width, height := l.height }]
  else surfaceDamage ++ bufferDamage

namespace BufferState

/-- The layout with the current size of the guest mapping. -/
def mappedLayout (b : BufferState) (pool : PoolInner) : ShmCopyLayout :=
  { b.layout with poolSize := pool.size }

/-- The damage a commit of the buffer copies. -/
def commitDamage (b : BufferState) (commit : SurfaceCommit) : List DamageRect :=
  copyDamage b.layout (b.needsFullCopy || commit.hasFullDamage) commit.surfaceDamage.toRects
    commit.bufferDamage.toRects commit.usesFullMapping

/-- Copy for a commit; a failure leaves the mark for a copy of the whole image. -/
def copyFrom (b : BufferState) (pool : PoolInner) (env : CommitEnvironment)
    (commit : SurfaceCommit) : Bool × BufferState :=
  let syncStarted := !b.dmabufSync || env.syncBegins
  if !env.poolMapped || !syncStarted || !env.destMapped then
    (false, { b with needsFullCopy := true })
  else
    match copyShmDamage pool.bytes b.dest (b.mappedLayout pool) (b.commitDamage commit) with
    | none => (false, { b with needsFullCopy := true })
    | some dest =>
      if b.dmabufSync && !env.syncEnds then (false, { b with dest, needsFullCopy := true })
      else (true, { b with dest, needsFullCopy := false })

end BufferState

/-- Copy a bridged buffer before its commit is sent; a native buffer needs no copy. -/
def copySurfaceBuffer (c : Context) (bufferId : ℕ) (env : CommitEnvironment)
    (commit : SurfaceCommit) : Bool × Context :=
  match c.renderBufferHostId bufferId with
  | none => (true, c)
  | some hostId =>
    match c.renderBuffers.localCopy hostId with
    | none => (true, c)
    | some buffer =>
      let (copied, buffer) := buffer.copyFrom (c.mappings buffer.pool) env commit
      (copied, { c with renderBuffers := c.renderBuffers.setLocalCopy hostId buffer })

/-- Wait for the guest's writes to a native buffer; `none` when the wait fails. -/
def waitForNativeBuffer (c : Context) (bufferId : ℕ) (sync : NativeSync) : Option Context :=
  match (c.renderBufferHostId bufferId).bind fun hostId =>
      (c.renderBuffers.activeBuffer hostId).map fun buffer => (hostId, buffer) with
  | some (hostId, { backing := .native _, implicitSyncFallback := false, .. }) =>
    match sync with
    | .synchronized => some c
    | .implicitSyncFallback =>
      some { c with
        renderBuffers := c.renderBuffers.modify hostId (RenderBuffer.mapActive fun buffer =>
          { buffer with implicitSyncFallback := true }) }
    | .failed => none
  | _ => some c

/-- Copy the buffer a commit attaches; `false` when the copy fails. -/
def copyAttachedBuffer (c : Context) (env : CommitEnvironment) (commit : SurfaceCommit) :
    Bool × Context :=
  match commit.attachedBufferId with
  | none => (true, c)
  | some bufferId => copySurfaceBuffer c bufferId env commit

/-- Wait for the writes to the buffer a commit attaches. -/
def waitForAttachedBuffer (c : Context) (env : CommitEnvironment) (commit : SurfaceCommit) :
    Option Context :=
  match commit.attachedBufferId with
  | none => some c
  | some bufferId => waitForNativeBuffer c bufferId env.nativeSync

/-! ## Requests that collect pending state -/

def onAttach (c : Context) (surfaceId buffer : ℕ) (x y : ℤ) : Action × Context :=
  let objectVersion := c.shadowTable.guestObjectVersion surfaceId
  if (objectVersion.any fun version => version != unknownObjectVersion && decide (5 ≤ version)) &&
      (x != 0 || y != 0) then (.drop, c.queueProtocolError)
  else
    let legacyAttachOffset := objectVersion.all fun version =>
      decide (version < 5) || version == unknownObjectVersion
    let c := c.updateSurface surfaceId fun surface =>
      { surface with
        pendingAttachment := if buffer = 0 then .detach else .attach buffer
        pendingAttachOffset :=
          if buffer ≠ 0 ∧ legacyAttachOffset = true then some (x, y) else none }
    -- The superseded attachment will never be released.
    (.forward, retireEligibleBuffers c)

def onDamage (c : Context) (surfaceId : ℕ) (rect : DamageRect) : Action × Context :=
  (.drop, c.updateSurface surfaceId fun surface =>
    { surface with pendingSurfaceDamage := surface.pendingSurfaceDamage.push rect })

def onDamageBuffer (c : Context) (surfaceId : ℕ) (rect : DamageRect) : Action × Context :=
  (.drop, c.updateSurface surfaceId fun surface =>
    { surface with pendingBufferDamage := surface.pendingBufferDamage.push rect })

def onSetBufferScale (c : Context) (surfaceId : ℕ) (scale : ℤ) : Action × Context :=
  if scale ≤ 0 then (.drop, c.queueProtocolError)
  else
    (.forward, c.updateSurface surfaceId fun surface =>
      { surface with pendingBufferScale := some scale })

def onSetBufferTransform (c : Context) (surfaceId : ℕ) (transform : ℤ) : Action × Context :=
  if transform < 0 ∨ 7 < transform then (.drop, c.queueProtocolError)
  else
    (.forward, c.updateSurface surfaceId fun surface =>
      { surface with pendingBufferTransform := some transform })

def onOffset (c : Context) (surfaceId : ℕ) (x y : ℤ) : Action × Context :=
  (.forward, c.updateSurface surfaceId fun surface =>
    { surface with pendingOffset := some (x, y) })

/-! ## Viewports -/

def onGetViewport (c : Context) (viewportId surfaceId : ℕ) : Action × Context :=
  if c.viewportToWlSurface.any fun _ owner => owner == surfaceId then
    (.drop, c.queueProtocolError)
  else
    let c := { c with viewportToWlSurface := c.viewportToWlSurface.set viewportId surfaceId }
    (.forward, c.updateSurface surfaceId fun surface =>
      { surface with pendingViewport := some (some .new) })

/-- Change the pending crop and scale of the surface of a viewport. -/
def updateViewport (c : Context) (viewportId : ℕ) (valid : Bool)
    (f : ViewportState → ViewportState) : Action × Context :=
  match c.viewportToWlSurface.get viewportId with
  | none => (.drop, c.queueProtocolError)
  | some surfaceId =>
    if !valid then (.drop, c.queueProtocolError)
    else
      (.forward, c.updateSurface surfaceId fun surface =>
        let viewport := ((surface.pendingViewport.bind id).or surface.viewport).getD .new
        { surface with pendingViewport := some (some (f viewport)) })

def onSetSource (c : Context) (viewportId : ℕ) (x y width height : ℤ) : Action × Context :=
  let isUnset := decide ((x, y, width, height) = (-256, -256, -256, -256))
  updateViewport c viewportId
    (isUnset || !(decide (x < 0) || decide (y < 0) || decide (width ≤ 0) || decide (height ≤ 0)))
    fun viewport =>
      { viewport with source := if isUnset then none else some (x, y, width, height) }

def onSetDestination (c : Context) (viewportId : ℕ) (width height : ℤ) : Action × Context :=
  let isUnset := decide (width = -1 ∧ height = -1)
  updateViewport c viewportId (isUnset || !(decide (width ≤ 0) || decide (height ≤ 0)))
    fun viewport => { viewport with destination := if isUnset then none else some (width, height) }

def viewportOnDestroy (c : Context) (viewportId : ℕ) : Action × Context :=
  match c.viewportToWlSurface.get viewportId with
  | none => (.forward, c)
  | some surfaceId =>
    (.forward, { c with
      viewportToWlSurface := c.viewportToWlSurface.erase viewportId
      surfaces := c.surfaces.modify surfaceId fun surface =>
        { surface with pendingViewport := some none } })

/-! ## Commit -/

/-- The exits of a commit. Only `forwarded` sends it to the host. -/
inductive CommitExit
  | invalidViewport
  | noHostSurface
  | copyFailed
  | syncFailed
  | finalizeFailed
  | forwarded
  deriving DecidableEq, Repr

/-- Put a surface, if it has any state, in the given state. -/
def Context.setSurface (c : Context) (surfaceId : ℕ) (state : SurfaceState) : Context :=
  { c with surfaces := c.surfaces.modify surfaceId fun _ => state }

/-- Record the size of the buffer a commit shows; `false` when the surface lost it. -/
def updateSnapshot (c : Context) (surfaceId : ℕ) (next : Option ℕ) : Bool × Context :=
  match next with
  | none => ((c.surfaces.get surfaceId).isSome, c)
  | some bufferId =>
    match (c.surfaces.get surfaceId).bind
        (·.setCurrentBufferDimensions bufferId (c.bufferDimensions bufferId)) with
    | none => (false, c)
    | some surface => (true, c.setSurface surfaceId surface)

/-- Apply the buffer replacement of a commit to the surface and to the registry. -/
def finalizeCommit (c : Context) (surfaceId : ℕ) (commit : SurfaceCommit) : Bool × Context :=
  match commit.attachmentTransition with
  | none => (true, c)
  | some (previous, next) =>
    let (updated, c) := updateSnapshot c surfaceId next
    if updated then c.finalizeSurfaceAttachment previous next else (false, c)

/-- Whether the host is told that the whole surface changed. -/
def forceFullDamage (c : Context) (commit : SurfaceCommit) : Bool :=
  let surfaceDamage := commit.surfaceDamage.toRects
  let bufferDamage := commit.bufferDamage.toRects
  let needsFullDamage :=
    ((commit.attachedBufferId.bind c.localBuffer).map (·.needsFullCopy)).getD false
  needsFullDamage || commit.hasFullDamage ||
    (commit.bufferOffset != (0, 0) && (!surfaceDamage.isEmpty || !bufferDamage.isEmpty)) ||
    (commit.attachedBufferId.isSome && commit.usesFullMapping && surfaceDamage.isEmpty &&
      bufferDamage.isEmpty)

/-- Undo a commit that is not sent, and destroy what it was the last to use. -/
def abandonCommit (c : Context) (surfaceId : ℕ) (commit : SurfaceCommit) (fatal : Bool) :
    Context :=
  let c := { c with fatalProtocolError := c.fatalProtocolError || fatal }
  retireEligibleBuffers (c.setSurface surfaceId commit.previous)

def onCommit (maps : DamageMapping) (c : Context) (surfaceId : ℕ) (env : CommitEnvironment) :
    CommitExit × Context :=
  let commit := (c.surfaceOrDefault surfaceId).prepareCommit
  let c := c.setSurface surfaceId commit.state
  if commit.hasInvalidFractionalViewport then
    let hasViewport := c.viewportToWlSurface.any fun _ owner => owner == surfaceId
    let c := if hasViewport then c.queueProtocolError else c
    (.invalidViewport, c.setSurface surfaceId commit.previous)
  else
    match buildSurfaceCommitMessages maps c surfaceId commit.surfaceDamage.toRects
        commit.bufferDamage.toRects commit.state (forceFullDamage c commit) with
    | none => (.noHostSurface, abandonCommit c surfaceId commit true)
    | some messages =>
      let (commitReady, c) := copyAttachedBuffer c env commit
      if !commitReady then (.copyFailed, abandonCommit c surfaceId commit false)
      else
        match waitForAttachedBuffer c env commit with
        | none => (.syncFailed, abandonCommit c surfaceId commit true)
        | some c =>
          let (finalized, c) := finalizeCommit c surfaceId commit
          if !finalized then (.finalizeFailed, abandonCommit c surfaceId commit true)
          else (.forwarded, retireEligibleBuffers (messages.foldl Context.queue c))

/-! ## End of a surface -/

def surfaceOnDestroy (c : Context) (surfaceId : ℕ) : Action × Context :=
  match c.shadowTable.getHostId surfaceId with
  | none => (.drop, { c with fatalProtocolError := true })
  | some hostId =>
    let destroyedSurfaceBuffer :=
      (c.surfaces.get surfaceId).bind SurfaceState.currentBufferId
    let c := c.queue (.destroy hostId)
    let c := { c with surfaces := c.surfaces.erase surfaceId }
    let c := clearBufferUsesAfterSurfaceDestroy c destroyedSurfaceBuffer
    let c := retireEligibleBuffers c
    let c := { c with
      viewportToWlSurface := c.viewportToWlSurface.retain fun _ owner => owner != surfaceId }
    (.drop, { c with shadowTable := c.shadowTable.markPendingDestroy surfaceId })

end Sommelier
