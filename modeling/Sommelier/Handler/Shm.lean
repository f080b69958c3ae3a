import Sommelier.State.Context

/-!
# SHM buffers

Creation of pools and of buffers with host storage, and the end of a `wl_buffer`: it is
destroyed at once when nothing uses it, and otherwise when its last use ends.

## Main definitions

* `onCreatePool`, `onCreateBuffer`: creation, with the checks of pool, stride and layout.
* `SurfaceBufferReferences`, `canRetireDeferredBuffer`, `retireEligibleBuffers`: deferred ends.
* `bufferOnDestroy`, `bufferOnRelease`: the `wl_buffer` handlers.
-/
namespace Sommelier

/-! ## Checks of a new buffer -/

def validPoolSize (size : ℤ) : Bool := decide (0 < size)

/-- The arguments of `wl_shm_pool.create_buffer`. -/
structure BufferRequest where
  offset : ℤ
  width : ℤ
  height : ℤ
  stride : ℤ
  format : ℕ
  deriving DecidableEq, Repr

def validShmStride (format : ℕ) (width stride : ℤ) : Bool :=
  if width < 0 ∨ stride < 0 then false
  else
    match formatBytesPerPixel format with
    | none => false
    | some bytesPerPixel =>
      decide (width.toNat * bytesPerPixel ≤ stride.toNat) &&
        (format != wlShmFormatNv12 ||
          (decide (width.toNat % 2 = 0) && decide (stride.toNat % 2 = 0)))

/-- The bytes the image takes in its pool, when it lies in the pool. -/
def validBufferLayout (poolSize : ℕ) (offset width height stride : ℤ) (format : ℕ) :
    Option ℕ :=
  if offset < 0 ∨ width ≤ 0 ∨ height ≤ 0 ∨ stride ≤ 0 then none
  else if format = wlShmFormatNv12 ∧ (width % 2 ≠ 0 ∨ height % 2 ≠ 0) then none
  else
    let offset := offset.toNat
    let stride := stride.toNat
    let height := height.toNat
    let bytes :=
      if format = wlShmFormatNv12 then stride * height + stride * (height / 2)
      else stride * height
    if poolSize < offset + bytes ∨ 2 ^ 31 - 1 < bytes then none else some bytes

namespace BufferRequest

/-- The request passes the checks of format, stride and layout. -/
def Accepted (r : BufferRequest) (poolSize : ℕ) : Prop :=
  validShmStride r.format r.width r.stride = true ∧
    (validBufferLayout poolSize r.offset r.width r.height r.stride r.format).isSome = true

instance (r : BufferRequest) (poolSize : ℕ) : Decidable (r.Accepted poolSize) :=
  inferInstanceAs (Decidable (_ ∧ _))

/-- The image in a host allocation with rows of `stride0` bytes. -/
def copyLayout (r : BufferRequest) (poolSize destSize stride0 plane1Offset plane1Stride : ℕ) :
    ShmCopyLayout where
  poolSize
  destSize
  format := r.format
  offset := r.offset.toNat
  width := r.width.toNat
  srcStride := r.stride.toNat
  dstStride := stride0
  dstPlane1Offset := plane1Offset
  dstPlane1Stride := plane1Stride
  height := r.height.toNat

end BufferRequest

/-- The strides and offsets a host allocator returned, checked for the image; the result is
the offset of plane 1 from plane 0. -/
def validateDmabufLayout (format width height : ℕ) (strides offsets : ℕ × ℕ) : Option ℕ :=
  if width = 0 ∨ height = 0 ∨ strides.1 = 0 then none
  else
    match formatBytesPerPixel format with
    | none => none
    | some bytesPerPixel =>
      if strides.1 < width * bytesPerPixel then none
      else if format = wlShmFormatNv12 then
        if width % 2 ≠ 0 ∨ height % 2 ≠ 0 then none
        else if strides.2 < width ∨ strides.2 % 2 ≠ 0 ∨
            offsets.2 < offsets.1 + strides.1 * height then none
        else some (offsets.2 - offsets.1)
      else some 0

/-- What the allocators of the host storage return. Every failure of an allocation, of its
mapping or of the capability it needs is reported as a protocol error. New storage has
arbitrary contents. -/
inductive HostStorage
  | failed
  | sharedMemory (contents : Memory)
  | dmabuf (contents : Memory) (strides offsets : ℕ × ℕ) (destSize : ℕ) (sync : Bool)

theorem BufferRequest.Accepted.known {r : BufferRequest} {poolSize : ℕ} (h : r.Accepted poolSize) :
    0 < r.width ∧ 0 < r.height ∧
      (r.format = wlShmFormatNv12 → r.width.toNat % 2 = 0 ∧ r.height.toNat % 2 = 0) ∧
      ∃ bpp, formatBytesPerPixel r.format = some bpp ∧ r.width.toNat * bpp ≤ r.stride.toNat := by
  obtain ⟨hstride, hlayout⟩ := h
  unfold validShmStride at hstride
  have hpos : ¬ (r.offset < 0 ∨ r.width ≤ 0 ∨ r.height ≤ 0 ∨ r.stride ≤ 0) := by
    intro hneg
    simp [validBufferLayout, hneg] at hlayout
  have heven : ¬ (r.format = wlShmFormatNv12 ∧ (r.width % 2 ≠ 0 ∨ r.height % 2 ≠ 0)) := by
    intro hodd
    rw [validBufferLayout, if_neg hpos, if_pos hodd] at hlayout
    exact Bool.false_ne_true hlayout
  split_ifs at hstride
  cases hbpp : formatBytesPerPixel r.format with
  | none => simp [hbpp] at hstride
  | some bpp =>
    simp only [hbpp, Bool.and_eq_true, decide_eq_true_eq] at hstride
    refine ⟨by omega, by omega, fun hf => ?_, bpp, rfl, hstride.1⟩
    simp only [hf, true_and, not_or, not_not] at heven
    omega

/-- VirtWL shared memory keeps the rows of the guest image. -/
theorem BufferRequest.Accepted.shared_valid {r : BufferRequest} {poolSize : ℕ}
    (h : r.Accepted poolSize) (destSize : ℕ) :
    (r.copyLayout poolSize destSize r.stride.toNat (r.height.toNat * r.stride.toNat)
      r.stride.toNat).Valid := by
  obtain ⟨hw, hh, heven, bpp, hbpp, hfit⟩ := h.known
  refine ⟨?_, ?_, ?_, ?_, fun hf => ?_, fun _ => Nat.le_refl _, heven⟩
  · simp only [copyLayout]
    omega
  · simp only [copyLayout]
    omega
  · simp [copyLayout, hbpp]
  · simpa [copyLayout, ShmCopyLayout.planeBpp, ShmCopyLayout.isChroma, hbpp] using hfit
  · have hone : bpp = 1 := by
      simp only [copyLayout] at hf
      simpa [hf, formatBytesPerPixel] using hbpp.symm
    subst hone
    simpa [copyLayout] using hfit

theorem BufferRequest.Accepted.dmabuf_valid {r : BufferRequest} {poolSize : ℕ}
    (h : r.Accepted poolSize) {strides offsets : ℕ × ℕ} {plane1Offset : ℕ}
    (hd : validateDmabufLayout r.format r.width.toNat r.height.toNat strides offsets =
      some plane1Offset) (destSize : ℕ) :
    (r.copyLayout poolSize destSize strides.1 plane1Offset strides.2).Valid := by
  obtain ⟨hw, hh, heven, bpp, hbpp, -⟩ := h.known
  unfold validateDmabufLayout at hd
  simp only [hbpp] at hd
  split_ifs at hd with hpos hrow hf hodd hplane
  · refine ⟨?_, ?_, ?_, ?_, fun _ => ?_, fun _ => ?_, heven⟩
    · simp only [copyLayout]
      omega
    · simp only [copyLayout]
      omega
    · simp [copyLayout, hbpp]
    · simp only [copyLayout, ShmCopyLayout.planeBpp, ShmCopyLayout.isChroma, hbpp]
      simpa using hrow
    · simp only [copyLayout]
      omega
    · obtain rfl := Option.some.inj hd
      simp only [copyLayout]
      rw [Nat.mul_comm]
      omega
  · refine ⟨?_, ?_, ?_, ?_, fun hf' => absurd hf' hf, fun hf' => absurd hf' hf, heven⟩
    · simp only [copyLayout]
      omega
    · simp only [copyLayout]
      omega
    · simp [copyLayout, hbpp]
    · simp only [copyLayout, ShmCopyLayout.planeBpp, ShmCopyLayout.isChroma, hbpp]
      simpa using hrow

/-! ## References from surfaces -/

/-- The buffers that surfaces show, and those attached to them for the next commit. -/
structure SurfaceBufferReferences where
  current : ℕ → Bool
  pending : ℕ → Bool

namespace SurfaceBufferReferences

def collect (c : Context) : SurfaceBufferReferences where
  current guestId := c.surfaces.any fun _ surface => surface.currentBufferId == some guestId
  pending guestId :=
    c.surfaces.any fun _ surface => surface.pendingAttachment.bufferId == some guestId

def contains (r : SurfaceBufferReferences) (guestId : ℕ) : Bool :=
  r.current guestId || r.pending guestId

end SurfaceBufferReferences

def clearSurfaceBufferReferences (c : Context) (guestId : ℕ) : Context :=
  { c with
    surfaces := c.surfaces.mapValues fun surface =>
      let surface := surface.clearCurrentBufferReference guestId
      if surface.pendingAttachment = .attach guestId then
        { surface with pendingAttachment := .detach }
      else surface }

/-! ## Destruction -/

/-- Queue `wl_buffer.destroy`. The request has a fixed size, so it always encodes. -/
def queueHostBufferDestroy (c : Context) (hostId : ℕ) : Context :=
  c.queue (.destroyBuffer hostId
    ((c.renderBuffers.useState hostId).any RenderBufferUse.isAwaitingRelease)
    ((c.shadowTable.getGuestId hostId).any (SurfaceBufferReferences.collect c).pending))

def recordHostBufferRelease (c : Context) (guestId : ℕ) : Context :=
  match c.renderBufferHostId guestId with
  | none => c
  | some _ => (c.markBufferReleased guestId).2

def retireDestroyedBufferMapping (c : Context) (guestId hostId : ℕ) : Context :=
  let (completed, c) := c.completeQueuedBufferDestroy guestId hostId
  if completed then c else { c with fatalProtocolError := true }

def canRetireDeferredBuffer (c : Context) (references : SurfaceBufferReferences)
    (guestId : ℕ) : Bool :=
  (!references.contains guestId ||
    (c.bufferIsReleased guestId && !references.pending guestId)) &&
    !c.bufferIsSubmitted guestId

/-- The guest-destroyed buffers nothing needs any more, by guest and host ID. -/
def retirementCandidates (c : Context) : List (ℕ × ℕ) :=
  let references := SurfaceBufferReferences.collect c
  c.renderBuffers.entries.filterMap fun ⟨hostId, lifecycle⟩ =>
    if !lifecycle.isGuestDestroyed then none
    else
      match c.shadowTable.getGuestId hostId with
      | none => none
      | some guestId =>
        if canRetireDeferredBuffer c references guestId then some (guestId, hostId) else none

/-- Queue the destructor of a deferred buffer and settle its IDs. -/
def retireBuffer (c : Context) (guestId hostId : ℕ) : Context :=
  retireDestroyedBufferMapping (queueHostBufferDestroy c hostId) guestId hostId

/-- Destroy every deferred buffer that is no longer in use. -/
def retireEligibleBuffers (c : Context) : Context :=
  (retirementCandidates c).foldl (fun c ids => retireBuffer c ids.1 ids.2) c

/-- The host drops its uses of the buffer of a destroyed surface without releasing them. -/
def clearBufferUsesAfterSurfaceDestroy (c : Context) (destroyedSurfaceBuffer : Option ℕ) :
    Context :=
  match destroyedSurfaceBuffer with
  | none => c
  | some guestId =>
    if (c.hostBufferUse guestId).isSome then
      let (finished, c) := c.finishSurfaceDestroyUse guestId
        ((SurfaceBufferReferences.collect c).current guestId)
      if finished then c else { c with fatalProtocolError := true }
    else c

/-- `wl_buffer.destroy` from the guest. -/
def bufferOnDestroy (c : Context) (guestId : ℕ) : Action × Context :=
  let references := SurfaceBufferReferences.collect c
  let stillReferenced := c.bufferIsSubmitted guestId || references.contains guestId
  if (c.renderBufferHostId guestId).isSome && stillReferenced &&
      (!c.bufferIsReleased guestId || references.pending guestId) then
    let (marked, c) := c.markBufferGuestDestroyed guestId
    let c := if marked then c else { c with fatalProtocolError := true }
    (.drop, { c with shadowTable := c.shadowTable.retireGuestObject guestId })
  else
    let c := match c.shadowTable.getHostId guestId with
      | some hostId => retireBuffer c guestId hostId
      | none => c
    (.drop, clearSurfaceBufferReferences c guestId)

/-- `wl_buffer.release` from the host. -/
def bufferOnRelease (c : Context) (hostId : ℕ) : Action × Context :=
  match c.shadowTable.getGuestId hostId with
  | none => (.drop, c)
  | some guestId =>
    let pendingAttach := (SurfaceBufferReferences.collect c).pending guestId
    if c.hostBufferIsGuestDestroyed hostId then
      if pendingAttach then (.drop, recordHostBufferRelease c guestId)
      else
        (.drop, clearSurfaceBufferReferences
          (retireBuffer (recordHostBufferRelease c guestId) guestId hostId) guestId)
    else (.forward, recordHostBufferRelease c guestId)

/-! ## Creation -/

/-- Take back a buffer that could not be registered. -/
def rollbackRegisteredBuffer (c : Context) (guestId hostId : ℕ) : Context :=
  if c.shadowTable.getHostId guestId ≠ some hostId then c
  else
    let c := queueHostBufferDestroy c hostId
    let (marked, shadowTable) :=
      (c.shadowTable.removeGuestMapping guestId).markPendingDestroyHost hostId
    { c with shadowTable, fatalProtocolError := c.fatalProtocolError || !marked }

/-- Create the host buffer through a temporary host object, a pool or dma-buf parameters,
which is destroyed again right behind it. `none` is the panic of an exhausted ID space. -/
def createHostBuffer (c : Context) (guestId : ℕ) (temporary : Interface) (version : ℕ)
    (buffer : BufferState) : Option Context := do
  let (temporaryId, shadowTable) ← c.shadowTable.allocateHostId
  let shadowTable := shadowTable.trackHostInterfaceWithVersion temporaryId temporary version
  let (hostId, shadowTable) ← shadowTable.allocateHostId
  let c := ((c.queue (.create temporaryId)).queue (.create hostId)).queue (.destroy temporaryId)
  let shadowTable := (shadowTable.markPendingDestroyHost temporaryId).2
  let c := { c with shadowTable := shadowTable.registerObject guestId hostId .wlBuffer 1 1 }
  let (registered, renderBuffers) := c.renderBuffers.registerLocal hostId buffer
  if registered then some { c with renderBuffers }
  else some (rollbackRegisteredBuffer c guestId hostId).queueProtocolError

/-- `wl_shm_pool.create_buffer`, with the outcome of the host allocation. -/
def onCreateBuffer (c : Context) (poolId guestId : ℕ) (r : BufferRequest)
    (storage : HostStorage) : Option (Action × Context) :=
  if poolId ∈ c.staleShmPools then some (.drop, c)
  else
    match c.pools.get poolId with
    | none => some (.drop, c.queueProtocolError)
    | some pool =>
      let poolSize := (c.mappings pool).size
      if hr : r.Accepted poolSize then
        match storage with
        | .failed => some (.drop, c.queueProtocolError)
        | .sharedMemory contents =>
          let destSize :=
            (validBufferLayout poolSize r.offset r.width r.height r.stride r.format).getD 0
          (createHostBuffer c guestId .wlShmPool 1
            { pool, layout := _, valid := hr.shared_valid destSize, dest := contents,
              dmabufSync := false, needsFullCopy := true }).map (.drop, ·)
        | .dmabuf contents strides offsets destSize sync =>
          match hd : validateDmabufLayout r.format r.width.toNat r.height.toNat strides
            offsets with
          | none => some (.drop, c.queueProtocolError)
          | some _ =>
            (createHostBuffer c guestId .zwpLinuxBufferParamsV1 2
              { pool, layout := _, valid := hr.dmabuf_valid hd destSize, dest := contents,
                dmabufSync := sync, needsFullCopy := true }).map (.drop, ·)
      else some (.drop, c.queueProtocolError)

/-- `wl_shm.create_pool`; `bytes` are the contents of the mapping, if it could be mapped. -/
def onCreatePool (c : Context) (shmId poolId : ℕ) (size : ℤ) (bytes : Option Memory) :
    Action × Context :=
  if shmId ∈ c.staleShmGuestObjects then (.drop, c)
  else if !validPoolSize size then (.drop, c.queueProtocolError)
  else
    match bytes with
    | none => (.drop, c.queueProtocolError)
    | some bytes =>
      (.drop, { c with
        pools := c.pools.set poolId c.nextMapping
        mappings := Function.update c.mappings c.nextMapping { bytes, size := size.toNat }
        nextMapping := c.nextMapping + 1
        shadowTable := c.shadowTable.trackInterfaceWithVersion poolId .wlShmPool 1 })

/-- The buffers of a destroyed pool keep its mapping. -/
def poolOnDestroy (c : Context) (poolId : ℕ) : Action × Context :=
  (.drop, { c with
    pools := c.pools.erase poolId
    staleShmPools := c.staleShmPools.erase poolId })

def shmOnRelease (c : Context) (shmId : ℕ) : Action × Context :=
  (.forward, { c with staleShmGuestObjects := c.staleShmGuestObjects.erase shmId })

end Sommelier
