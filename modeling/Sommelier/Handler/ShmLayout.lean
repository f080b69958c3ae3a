import Mathlib.Algebra.Group.Int.Defs
import Sommelier.Handler.Shm
import Sommelier.Handler.ShmCopyExact

/-!
# Layouts of new buffers

The layout that `create_buffer` records for host storage it maps itself, with the arithmetic
of the allocator's metadata. A layout it accepts fits in both mappings, also when the guest
lets the pool grow later, and an image that fits is copied for whatever damage is declared.

## Main definitions

* `DmabufLayout`, `DmabufLayout.validateDmabufLayout`, `mapDmabuf`: the allocator's metadata.
* `BufferRequest.mappedLayout`: the layout of a new buffer in storage that is mapped directly.
* `ShmCopyLayout.FitsMappings`: the image lies in both mappings.

## Main results

* `ShmCopyLayout.FitsMappings.copies`: an image that fits is copied for every damage.
* `accepted_buffer_copyable`: accepted buffers fit, before and after the pool grows.
-/
namespace Sommelier

/-! ## Images that fit -/

namespace ShmCopyLayout

/-- Every plane of the image lies in both mappings, row by row. -/
structure FitsMappings (l : ShmCopyLayout) : Prop where
  width_pos : 0 < l.width
  height_pos : 0 < l.height
  size_fits : l.SizeFits
  format_known : (formatBytesPerPixel l.format).isSome
  even_size : l.format = wlShmFormatNv12 → l.width % 2 = 0 ∧ l.height % 2 = 0
  src_row : ∀ plane < l.planeCount, l.width * l.planeBpp plane ≤ l.srcStride
  dst_row : ∀ plane < l.planeCount, l.width * l.planeBpp plane ≤ l.planeDstStride plane
  src_end : ∀ plane < l.planeCount,
    l.planeSrcOffset plane + l.planeRows plane * l.srcStride ≤ l.poolSize
  dst_end : ∀ plane < l.planeCount,
    l.planeDstOffset plane + l.planeRows plane * l.planeDstStride plane ≤ l.destSize
  src_lt : ∀ plane < l.planeCount,
    l.planeSrcOffset plane + l.planeRows plane * l.srcStride < 2 ^ 64
  dst_lt : ∀ plane < l.planeCount,
    l.planeDstOffset plane + l.planeRows plane * l.planeDstStride plane < 2 ^ 64

end ShmCopyLayout

/-- The pixel rectangle of a plane is not empty. -/
theorem planeArea_pos {l : ShmCopyLayout}
    (heven : l.format = wlShmFormatNv12 → l.width % 2 = 0 ∧ l.height % 2 = 0)
    {plane x0 y0 x1 y1 : ℕ} {rect : DamageRect} {clip : ℕ × ℕ × ℕ × ℕ}
    (hclip : clippedDamage rect l.width l.height = some clip)
    (harea : planeArea l plane clip = (x0, y0, x1, y1)) : x0 < x1 ∧ y0 < y1 := by
  obtain ⟨cx0, cy0, cx1, cy1⟩ := clip
  obtain ⟨hx, hy, hxw, hyh⟩ := clippedDamage_eq_some hclip
  unfold planeArea at harea
  split_ifs at harea with hc
  · have hsize := heven hc.1
    simp only [Prod.mk.injEq] at harea
    obtain ⟨rfl, rfl, rfl, rfl⟩ := harea
    constructor
    · split_ifs <;> omega
    · omega
  · simp only [Prod.mk.injEq] at harea
    omega

/-- The bytes of a rectangle in a plane end before the plane does. -/
theorem rect_end_le (offset : ℕ) {stride rows bpp width x0 x1 y0 y1 : ℕ}
    (hx : x0 < x1) (hy : y0 < y1) (hxw : x1 ≤ width) (hyr : y1 ≤ rows)
    (hrow : width * bpp ≤ stride) :
    offset + y0 * stride + x0 * bpp + (y1 - y0 - 1) * stride + (x1 - x0) * bpp ≤
      offset + rows * stride := by
  have hwidth : x1 * bpp ≤ width * bpp := Nat.mul_le_mul_right _ hxw
  have hbytes : x0 * bpp + (x1 - x0) * bpp = x1 * bpp := by
    rw [← Nat.add_mul, Nat.add_sub_cancel' hx.le]
  have hrows : y0 * stride + (y1 - y0 - 1) * stride + stride = y1 * stride := by
    rw [← Nat.add_mul, ← Nat.add_one_mul]
    congr 1
    omega
  have hlast : y1 * stride ≤ rows * stride := Nat.mul_le_mul_right _ hyr
  omega

/-- A traversal that never fails has a result. -/
theorem exists_mapM {α β : Type} {f : α → Option β} {l : List α}
    (h : ∀ a ∈ l, ∃ b, f a = some b) : ∃ l', l.mapM f = some l' := by
  induction l with
  | nil => exact ⟨[], rfl⟩
  | cons a l ih =>
    obtain ⟨⟨b, hb⟩, hl⟩ := List.forall_mem_cons.mp h
    obtain ⟨l', hl'⟩ := ih hl
    exact ⟨b :: l', by simp [List.mapM_cons, hb, hl']⟩

namespace ShmCopyLayout
variable {l : ShmCopyLayout}

theorem FitsMappings.checkedPlaneSrcOffset_eq (hf : l.FitsMappings) {plane : ℕ}
    (hp : plane < l.planeCount) :
    checkedPlaneSrcOffset l plane = some (l.planeSrcOffset plane) := by
  have hlt := hf.src_lt plane hp
  unfold checkedPlaneSrcOffset
  unfold planeSrcOffset at hlt ⊢
  split_ifs at hlt ⊢
  · rw [checkedMul_of_lt (by omega), Option.bind_some, checkedAdd_of_lt (by omega)]
  · rfl

theorem FitsMappings.checkedPlaneDstOffset_eq (hf : l.FitsMappings) {plane : ℕ}
    (hp : plane < l.planeCount) :
    checkedPlaneDstOffset l plane = some (l.planeDstOffset plane) := by
  have hlt := hf.dst_lt plane hp
  unfold checkedPlaneDstOffset
  split_ifs with hc
  · simp only [planeDstOffset, hc.1, hc.2, if_true] at hlt ⊢
    exact checkedMul_of_lt (by omega)
  · rfl

/-- A clipped rectangle of an image that fits passes all checks in every plane. -/
theorem FitsMappings.planeCopy_isSome (hf : l.FitsMappings) {plane : ℕ} {rect : DamageRect}
    {clip : ℕ × ℕ × ℕ × ℕ} (hp : plane < l.planeCount)
    (hclip : clippedDamage rect l.width l.height = some clip) :
    ∃ copy, planeCopy l plane clip = some copy ∧
      validPlaneCopy l.poolSize l.destSize copy = true := by
  rcases harea : planeArea l plane clip with ⟨x0, y0, x1, y1⟩
  obtain ⟨hxw, hyr⟩ := planeArea_le hf.even_size hclip harea
  obtain ⟨hx, hy⟩ := planeArea_pos hf.even_size hclip harea
  have hrows : (x1 - x0) * l.planeBpp plane ≤ l.width * l.planeBpp plane :=
    Nat.mul_le_mul_right _ (by omega)
  have hbytes : 0 < (x1 - x0) * l.planeBpp plane :=
    Nat.mul_pos (by omega) (planeBpp_pos hf.format_known plane)
  have hsrcRow := hf.src_row plane hp
  have hdstRow := hf.dst_row plane hp
  have hsrc := rect_end_le (l.planeSrcOffset plane) hx hy hxw hyr hsrcRow
  have hdst := rect_end_le (l.planeDstOffset plane) hx hy hxw hyr hdstRow
  have hsrcEnd := hf.src_end plane hp
  have hdstEnd := hf.dst_end plane hp
  have hsrcLt := hf.src_lt plane hp
  have hdstLt := hf.dst_lt plane hp
  refine ⟨{ srcOffset := l.planeSrcOffset plane + y0 * l.srcStride + x0 * l.planeBpp plane
            dstOffset := l.planeDstOffset plane + y0 * l.planeDstStride plane +
              x0 * l.planeBpp plane
            srcStride := l.srcStride
            dstStride := l.planeDstStride plane
            rows := y1 - y0
            rowBytes := (x1 - x0) * l.planeBpp plane }, ?_, ?_⟩
  · simp only [planeCopy, harea, hf.checkedPlaneSrcOffset_eq hp, hf.checkedPlaneDstOffset_eq hp,
      checkedRowBytes, if_neg hx.not_gt, Option.bind_eq_bind, Option.bind_some, Option.pure_def]
    rw [checkedMul_of_lt (by omega), checkedMul_of_lt (by omega), checkedMul_of_lt (by omega),
      checkedMul_of_lt (by omega)]
    simp only [Option.bind_some]
    rw [checkedAdd_of_lt (by omega), Option.bind_some, checkedAdd_of_lt (by omega),
      Option.bind_some, checkedAdd_of_lt (by omega), Option.bind_some,
      checkedAdd_of_lt (by omega), Option.bind_some]
  · unfold validPlaneCopy
    simp only
    rw [if_neg (by omega), checkedMul_of_lt (by omega), checkedMul_of_lt (by omega)]
    simp only [Option.bind_eq_bind, Option.bind_some]
    rw [checkedAdd_of_lt (by omega), checkedAdd_of_lt (by omega)]
    simp only [Option.bind_some]
    rw [checkedAdd_of_lt (by omega), checkedAdd_of_lt (by omega)]
    simp only [Bool.and_eq_true, decide_eq_true_eq]
    omega

theorem FitsMappings.rectCopies_isSome (hf : l.FitsMappings) (rect : DamageRect) :
    ∃ copies, rectCopies l rect = some copies := by
  unfold rectCopies
  rcases hclip : clippedDamage rect l.width l.height with _ | clip
  · exact ⟨[], rfl⟩
  · refine exists_mapM fun plane hplane => ?_
    obtain ⟨copy, hcopy, hvalid⟩ := hf.planeCopy_isSome (List.mem_range.mp hplane) hclip
    exact ⟨copy, by simp [hcopy, hvalid]⟩

end ShmCopyLayout

/-- A byte rectangle reads from the guest mapping and writes to the host storage only. -/
def PlaneCopy.InRange (plane : PlaneCopy) (poolSize destSize : ℕ) : Prop :=
  ∀ row < plane.rows, ∀ col < plane.rowBytes,
    plane.srcOffset + row * plane.srcStride + col < poolSize ∧
      plane.dstOffset + row * plane.dstStride + col < destSize

theorem PlaneCopy.inRange_of_valid {plane : PlaneCopy} {poolSize destSize : ℕ}
    (h : validPlaneCopy poolSize destSize plane = true) : plane.InRange poolSize destSize := by
  obtain ⟨-, -, -, -, hsrc, hdst⟩ := validPlaneCopy_bounds h
  intro row hrow col hcol
  have hsrcRow : row * plane.srcStride ≤ (plane.rows - 1) * plane.srcStride :=
    Nat.mul_le_mul_right _ (by omega)
  have hdstRow : row * plane.dstStride ≤ (plane.rows - 1) * plane.dstStride :=
    Nat.mul_le_mul_right _ (by omega)
  omega

namespace ShmCopyLayout
variable {l : ShmCopyLayout}

/-- The copy succeeds, and no byte rectangle leaves the mappings. -/
def Copies (l : ShmCopyLayout) (src dst : Memory) (damage : List DamageRect) : Prop :=
  ∃ spans, (coalesceDamageRects damage).mapM l.rectSpans = some spans ∧
    (∀ plane ∈ spans.flatten, plane.InRange l.poolSize l.destSize) ∧
    (l.copyShmDamage src dst damage).1 = true

/-- An image that fits is copied for every damage. -/
theorem FitsMappings.copies (hf : l.FitsMappings) (src dst : Memory) (damage : List DamageRect) :
    l.Copies src dst damage := by
  obtain ⟨spans, hspans⟩ : ∃ spans, (coalesceDamageRects damage).mapM l.rectSpans = some spans := by
    refine exists_mapM fun rect _ => ?_
    rw [rectSpans_of_sizeFits hf.size_fits]
    exact hf.rectCopies_isSome rect
  have hvalid : ∀ plane ∈ spans.flatten, validPlaneCopy l.poolSize l.destSize plane = true := by
    intro plane hplane
    obtain ⟨copies, hcopies, hmem⟩ := List.mem_flatten.mp hplane
    obtain ⟨rect, -, hrect⟩ := exists_of_mem_mapM hspans hcopies
    rw [rectSpans_of_sizeFits hf.size_fits] at hrect
    obtain ⟨-, -, -, -, -, hvalid⟩ := mem_rectCopies hrect hmem
    exact hvalid
  refine ⟨spans, hspans, fun plane hplane => PlaneCopy.inRange_of_valid (hvalid plane hplane), ?_⟩
  have hgood : ¬ (l.width = 0 ∨ l.height = 0 ∨ (formatBytesPerPixel l.format).isNone) := by
    have hwidth := hf.width_pos
    have hheight := hf.height_pos
    have hknown := hf.format_known
    simp [Nat.ne_of_gt hwidth, Nat.ne_of_gt hheight, Option.isSome_iff_ne_none.mp hknown]
  simp only [copyShmDamage, if_neg hgood, hspans,
    writePlanes_of_valid l.poolSize l.destSize hvalid]

end ShmCopyLayout

/-! ## Host storage -/

/-- What an allocator says about the planes of a dma-buf. -/
structure DmabufLayout where
  stride0 : ℕ
  stride1 : ℕ
  offset0 : ℕ
  offset1 : ℕ
  span : ℕ
  deriving DecidableEq, Repr

/-- `wl_shm` numbers its two mandatory formats; the others share the FourCC of DRM. -/
def wlShmFormatToDrmFormat (format : ℕ) : ℕ :=
  if format = 0 then drmFormatArgb8888
  else if format = 1 then drmFormatXrgb8888
  else format

/-- Bytes per pixel of plane 0 of a DRM format. -/
def drmPlane0Bpp (format : ℕ) : Option ℕ :=
  if format = wlShmFormatNv12 then some 1
  else if format = wlShmFormatRgb565 then some 2
  else if format = drmFormatXrgb8888 ∨ format = drmFormatArgb8888 ∨
      format = drmFormatXbgr8888 ∨ format = drmFormatAbgr8888 then some 4
  else none

namespace DmabufLayout

/-- Check the metadata of an allocation and compute the bytes of it that are mapped. -/
def validateDmabufLayout (format : ℕ) (width height : ℤ) (strides offsets : UInt32 × UInt32) :
    Option DmabufLayout :=
  if width < 0 ∨ height < 0 then none
  else
    let width := width.toNat
    let height := height.toNat
    let stride0 := strides.1.toNat
    let offset0 := offsets.1.toNat
    if width = 0 ∨ height = 0 ∨ stride0 = 0 then none
    else if format = wlShmFormatNv12 ∧ (width % 2 ≠ 0 ∨ height % 2 ≠ 0) then none
    else do
      let minimum0 ← checkedMul width (← drmPlane0Bpp format)
      if stride0 < minimum0 then none
      else
        let plane0End ← checkedAdd offset0 (← checkedMul stride0 height)
        if format = wlShmFormatNv12 then
          let stride1 := strides.2.toNat
          let offset1 := offsets.2.toNat
          if stride1 < width ∨ stride1 % 2 ≠ 0 ∨ offset1 < plane0End then none
          else
            let plane1End ← checkedAdd offset1 (← checkedMul stride1 (height / 2))
            some { stride0, stride1, offset0, offset1, span := max plane0End plane1End }
        else some { stride0, stride1 := 0, offset0, offset1 := 0, span := plane0End }

end DmabufLayout

/-- What the system says when a dma-buf is mapped: the page size, the size of the file if it
has a meaningful one, and whether the mapping succeeds. -/
structure MapEnvironment where
  pageSize : ℕ
  fileSize : Option ℕ
  mapped : Bool
  deriving DecidableEq, Repr

/-- Map a dma-buf from plane 0 on; the result is the size of the mapping. -/
def mapDmabuf (env : MapEnvironment) (layout : DmabufLayout) : Option ℕ :=
  if layout.span ≤ layout.offset0 ∨ 2 ^ 63 ≤ layout.span then none
  else if env.pageSize = 0 ∨ layout.offset0 % env.pageSize ≠ 0 then none
  else if env.fileSize.any fun size => decide (size < layout.span) then none
  else if env.mapped then some (layout.span - layout.offset0) else none

/-- Host storage that the proxy maps itself: VirtWL shared memory of the requested size, or a
dma-buf with the metadata of its allocator. -/
inductive MappedStorage
  | sharedMemory
  | dmabuf (strides offsets : UInt32 × UInt32) (env : MapEnvironment)

namespace BufferRequest

/-- The layout of a new buffer in VirtWL shared memory. -/
def sharedLayout (r : BufferRequest) (poolSize : ℕ) : Option ShmCopyLayout := do
  let bufferSize ← validBufferLayout poolSize r.offset r.width r.height r.stride r.format
  if bufferSize = 0 ∨ 2 ^ 31 ≤ bufferSize then none
  else if r.format = wlShmFormatNv12 then
    some (r.copyLayout poolSize bufferSize r.stride.toNat (r.height.toNat * r.stride.toNat)
      r.stride.toNat)
  else some (r.copyLayout poolSize bufferSize r.stride.toNat 0 0)

/-- The layout of a new buffer in a dma-buf. The offset of plane 1 is kept relative to plane
0, where the mapping starts. -/
def dmabufLayout (r : BufferRequest) (poolSize : ℕ) (strides offsets : UInt32 × UInt32)
    (env : MapEnvironment) : Option ShmCopyLayout := do
  let drmFormat := wlShmFormatToDrmFormat r.format
  let layout ← DmabufLayout.validateDmabufLayout drmFormat r.width r.height strides offsets
  let plane1Offset := if drmFormat = wlShmFormatNv12 then layout.offset1 - layout.offset0 else 0
  let plane1Stride := if drmFormat = wlShmFormatNv12 then layout.stride1 else 0
  let hostPlane1Offset ← checkedAdd layout.offset0 plane1Offset
  if 2 ^ 32 ≤ hostPlane1Offset ∨ 2 ^ 32 ≤ plane1Stride then none
  else if r.format = wlShmFormatNv12 ∧ (plane1Stride = 0 ∨ hostPlane1Offset < layout.offset0) then
    none
  else
    let destSize ← mapDmabuf env
      { layout with stride1 := plane1Stride, offset1 := hostPlane1Offset }
    some (r.copyLayout poolSize destSize layout.stride0 plane1Offset plane1Stride)

/-- The layout `create_buffer` records when it maps the host storage directly. -/
def mappedLayout (r : BufferRequest) (poolSize : ℕ) : MappedStorage → Option ShmCopyLayout
  | .sharedMemory => r.sharedLayout poolSize
  | .dmabuf strides offsets env => r.dmabufLayout poolSize strides offsets env

end BufferRequest

/-! ## Pools that grow -/

def validPoolResize (currentSize : ℕ) (newSize : ℤ) : Option ℕ :=
  if validPoolSize newSize && decide (currentSize < newSize.toNat) then some newSize.toNat
  else none

/-- `wl_shm_pool.resize`; a request that would not let the pool grow is refused. -/
def resizePool (currentSize : ℕ) (newSize : ℤ) : ℕ :=
  (validPoolResize currentSize newSize).getD currentSize

theorem le_resizePool (currentSize : ℕ) (newSize : ℤ) :
    currentSize ≤ resizePool currentSize newSize := by
  unfold resizePool validPoolResize
  split_ifs with hgrows
  · simp only [Bool.and_eq_true, decide_eq_true_eq] at hgrows
    exact hgrows.2.le
  · exact Nat.le_refl _

theorem le_foldl_resizePool (resizes : List ℤ) (poolSize : ℕ) :
    poolSize ≤ resizes.foldl resizePool poolSize := by
  induction resizes generalizing poolSize with
  | nil => exact Nat.le_refl _
  | cons size resizes ih => exact (le_resizePool poolSize size).trans (ih _)

/-! ## Accepted layouts fit -/

namespace ShmCopyLayout
variable {l : ShmCopyLayout}

theorem forall_plane {P : ℕ → Prop} (h0 : P 0) (h1 : l.format = wlShmFormatNv12 → P 1) :
    ∀ plane < l.planeCount, P plane := by
  intro plane hp
  unfold planeCount at hp
  split_ifs at hp with hf
  · obtain rfl | rfl : plane = 0 ∨ plane = 1 := by omega
    · exact h0
    · exact h1 hf
  · obtain rfl : plane = 0 := by omega
    exact h0

theorem not_isChroma_zero : ¬ l.isChroma 0 := by simp [isChroma]

theorem isChroma_one (hf : l.format = wlShmFormatNv12) : l.isChroma 1 := ⟨hf, rfl⟩

/-- An image fits when each of its planes does. -/
theorem fitsMappings_of_planes {bpp : ℕ} (hbpp : formatBytesPerPixel l.format = some bpp)
    (hwidth : 0 < l.width) (hheight : 0 < l.height) (hsize : l.SizeFits)
    (heven : l.format = wlShmFormatNv12 → l.width % 2 = 0 ∧ l.height % 2 = 0)
    (hsrcRow : l.width * bpp ≤ l.srcStride) (hdstRow : l.width * bpp ≤ l.dstStride)
    (hsrcEnd : l.offset + l.height * l.srcStride ≤ l.poolSize)
    (hsrcLt : l.offset + l.height * l.srcStride < 2 ^ 64)
    (hdstEnd : l.height * l.dstStride ≤ l.destSize) (hdstLt : l.height * l.dstStride < 2 ^ 64)
    (hchroma : l.format = wlShmFormatNv12 → l.width ≤ l.dstPlane1Stride ∧
      l.offset + l.height * l.srcStride + l.height / 2 * l.srcStride ≤ l.poolSize ∧
      l.offset + l.height * l.srcStride + l.height / 2 * l.srcStride < 2 ^ 64 ∧
      l.dstPlane1Offset + l.height / 2 * l.dstPlane1Stride ≤ l.destSize ∧
      l.dstPlane1Offset + l.height / 2 * l.dstPlane1Stride < 2 ^ 64) : l.FitsMappings := by
  have hone : l.format = wlShmFormatNv12 → bpp = 1 := by
    intro hf
    simpa [hf, formatBytesPerPixel] using hbpp.symm
  have hstride : l.format = wlShmFormatNv12 → l.dstPlane1Stride ≠ 0 := by
    intro hf
    have hrow := (hchroma hf).1
    omega
  refine ⟨hwidth, hheight, hsize, by simp [hbpp], heven, forall_plane ?_ fun hf => ?_,
    forall_plane ?_ fun hf => ?_, forall_plane ?_ fun hf => ?_, forall_plane ?_ fun hf => ?_,
    forall_plane ?_ fun hf => ?_, forall_plane ?_ fun hf => ?_⟩
  · simpa [planeBpp, not_isChroma_zero, hbpp] using hsrcRow
  · simpa [planeBpp, isChroma_one hf, hone hf] using hsrcRow
  · simpa [planeBpp, planeDstStride, not_isChroma_zero, hbpp] using hdstRow
  · simpa [planeBpp, planeDstStride, isChroma_one hf, hstride hf] using (hchroma hf).1
  · simpa [planeSrcOffset, planeRows, not_isChroma_zero] using hsrcEnd
  · simpa [planeSrcOffset, planeRows, isChroma_one hf] using (hchroma hf).2.1
  · simpa [planeDstOffset, planeDstStride, planeRows, not_isChroma_zero] using hdstEnd
  · simpa [planeDstOffset, planeDstStride, planeRows, isChroma_one hf, hstride hf]
      using (hchroma hf).2.2.2.1
  · simpa [planeSrcOffset, planeRows, not_isChroma_zero] using hsrcLt
  · simpa [planeSrcOffset, planeRows, isChroma_one hf] using (hchroma hf).2.2.1
  · simpa [planeDstOffset, planeDstStride, planeRows, not_isChroma_zero] using hdstLt
  · simpa [planeDstOffset, planeDstStride, planeRows, isChroma_one hf, hstride hf]
      using (hchroma hf).2.2.2.2

end ShmCopyLayout

theorem formatBytesPerPixel_pos {format bpp : ℕ} (h : formatBytesPerPixel format = some bpp) :
    0 < bpp := by
  unfold formatBytesPerPixel at h
  split_ifs at h <;> simp only [Option.some.injEq] at h <;> omega

/-- The bytes of an accepted image lie in its pool. -/
theorem BufferRequest.Accepted.layout_eq {r : BufferRequest} {poolSize : ℕ}
    (h : r.Accepted poolSize) : ∃ bytes,
    validBufferLayout poolSize r.offset r.width r.height r.stride r.format = some bytes ∧
      bytes = (if r.format = wlShmFormatNv12 then
          r.stride.toNat * r.height.toNat + r.stride.toNat * (r.height.toNat / 2)
        else r.stride.toNat * r.height.toNat) ∧
      r.offset.toNat + bytes ≤ poolSize ∧ bytes < 2 ^ 31 := by
  obtain ⟨bytes, hbytes⟩ := Option.isSome_iff_exists.mp h.2
  have hlayout := hbytes
  unfold validBufferLayout at hlayout
  split_ifs at hlayout with hneg hodd hnv12
  all_goals
    simp only at hlayout
    split_ifs at hlayout with hend
    have hbytesEq := Option.some.inj hlayout
    refine ⟨bytes, hbytes, ?_, by omega, by omega⟩
    simp [hnv12, hbytesEq]

namespace BufferRequest

/-- The guest half of `fitsMappings_of_planes`, and what the host half has to provide. -/
theorem Accepted.fitsMappings {r : BufferRequest} {poolSize poolSize' : ℕ}
    (h : r.Accepted poolSize) (hoffset : r.offset < 2 ^ 31) (hgrown : poolSize ≤ poolSize')
    {destSize stride0 plane1Offset plane1Stride bpp : ℕ}
    (hbpp : formatBytesPerPixel r.format = some bpp) (hdstRow : r.width.toNat * bpp ≤ stride0)
    (hdstEnd : r.height.toNat * stride0 ≤ destSize) (hdstLt : destSize < 2 ^ 64)
    (hchroma : r.format = wlShmFormatNv12 → r.width.toNat ≤ plane1Stride ∧
      plane1Offset + r.height.toNat / 2 * plane1Stride ≤ destSize) :
    (r.copyLayout poolSize' destSize stride0 plane1Offset plane1Stride).FitsMappings := by
  obtain ⟨hwidth, hheight, heven, bpp', hbpp', hfit⟩ := h.known
  obtain rfl : bpp' = bpp := Option.some.inj (hbpp'.symm.trans hbpp)
  obtain ⟨bytes, -, hbytes, hend, hlt⟩ := h.layout_eq
  have hrow : r.stride.toNat * r.height.toNat ≤ bytes := by
    rw [hbytes]
    split_ifs <;> omega
  have hrow' : r.height.toNat * r.stride.toNat ≤ bytes := by rwa [Nat.mul_comm]
  have hstride : r.stride.toNat ≤ bytes :=
    (Nat.le_mul_of_pos_left _ (by omega)).trans hrow'
  have hwidthLe : r.width.toNat ≤ r.stride.toNat :=
    (Nat.le_mul_of_pos_right _ (formatBytesPerPixel_pos hbpp)).trans hfit
  have hheightLe : r.height.toNat ≤ bytes :=
    (Nat.le_mul_of_pos_right _ (by omega)).trans hrow'
  refine ShmCopyLayout.fitsMappings_of_planes hbpp ?_ ?_ ⟨?_, ?_⟩ heven hfit hdstRow ?_ ?_
    hdstEnd (hdstEnd.trans_lt hdstLt) fun hf => ?_
  · simp only [copyLayout]
    omega
  · simp only [copyLayout]
    omega
  · simp only [copyLayout]
    omega
  · simp only [copyLayout]
    omega
  · simp only [copyLayout]
    omega
  · simp only [copyLayout]
    omega
  · obtain ⟨hchromaRow, hchromaEnd⟩ := hchroma hf
    simp only [copyLayout] at hf ⊢
    rw [if_pos hf, Nat.mul_comm, Nat.mul_comm r.stride.toNat] at hbytes
    refine ⟨hchromaRow, by omega, by omega, hchromaEnd, hchromaEnd.trans_lt hdstLt⟩

/-- VirtWL shared memory has the size of the image. -/
theorem Accepted.sharedLayout_fits {r : BufferRequest} {poolSize poolSize' : ℕ}
    (h : r.Accepted poolSize) (hoffset : r.offset < 2 ^ 31) (hgrown : poolSize ≤ poolSize')
    {layout : ShmCopyLayout} (hlayout : r.sharedLayout poolSize = some layout) :
    ({ layout with poolSize := poolSize' } : ShmCopyLayout).FitsMappings := by
  obtain ⟨-, -, -, bpp, hbpp, hfit⟩ := h.known
  obtain ⟨bytes, hsize, hbytes, -, hlt⟩ := h.layout_eq
  simp only [sharedLayout, hsize, Option.bind_eq_bind, Option.bind_some] at hlayout
  have hrows : r.height.toNat * r.stride.toNat ≤ bytes := by
    rw [hbytes, Nat.mul_comm]
    split_ifs <;> omega
  have hlt64 : bytes < 2 ^ 64 := by omega
  split_ifs at hlayout with hbad hnv12
  · obtain rfl := Option.some.inj hlayout
    have hchromaRow : r.width.toNat ≤ r.stride.toNat := by
      have hone : bpp = 1 := by simpa [hnv12, formatBytesPerPixel] using hbpp.symm
      rwa [hone, Nat.mul_one] at hfit
    have hchromaEnd : r.height.toNat * r.stride.toNat + r.height.toNat / 2 * r.stride.toNat ≤
        bytes := by
      rw [hbytes, if_pos hnv12, Nat.mul_comm, Nat.mul_comm r.stride.toNat (_ / 2)]
    exact h.fitsMappings hoffset hgrown hbpp hfit hrows hlt64 fun _ => ⟨hchromaRow, hchromaEnd⟩
  · obtain rfl := Option.some.inj hlayout
    exact h.fitsMappings hoffset hgrown hbpp hfit hrows hlt64 fun hf => absurd hf hnv12

end BufferRequest

/-- The DRM format of a supported format has the same pixels. -/
theorem drmPlane0Bpp_of_format {format bpp : ℕ} (h : formatBytesPerPixel format = some bpp) :
    drmPlane0Bpp (wlShmFormatToDrmFormat format) = some bpp := by
  unfold formatBytesPerPixel at h
  split_ifs at h with hnv12 hrgb hfour
  · subst hnv12
    exact h
  · subst hrgb
    exact h
  · rcases hfour with rfl | rfl | rfl | rfl <;> exact h

theorem wlShmFormatToDrmFormat_nv12 {format : ℕ} :
    wlShmFormatToDrmFormat format = wlShmFormatNv12 ↔ format = wlShmFormatNv12 := by
  unfold wlShmFormatToDrmFormat
  split_ifs with hargb hxrgb
  · simp [hargb, drmFormatArgb8888, wlShmFormatNv12]
  · simp [hxrgb, drmFormatXrgb8888, wlShmFormatNv12]
  · rfl

/-- What the checks of the allocator's metadata establish. -/
theorem DmabufLayout.validateDmabufLayout_eq_some {format : ℕ} {width height : ℤ}
    {strides offsets : UInt32 × UInt32} {layout : DmabufLayout}
    (h : validateDmabufLayout format width height strides offsets = some layout) :
    (∀ bpp, drmPlane0Bpp format = some bpp → width.toNat * bpp ≤ layout.stride0) ∧
      layout.offset0 + layout.stride0 * height.toNat ≤ layout.span ∧
      (format = wlShmFormatNv12 → width.toNat ≤ layout.stride1 ∧
        layout.offset0 ≤ layout.offset1 ∧
        layout.offset1 + layout.stride1 * (height.toNat / 2) ≤ layout.span) := by
  simp only [validateDmabufLayout, Option.ite_none_left_eq_some, Option.bind_eq_bind,
    Option.bind_eq_some_iff, checkedMul_eq_some_iff, checkedAdd_eq_some_iff] at h
  obtain ⟨-, -, -, bpp, hbpp, -, ⟨-, rfl⟩, hrow, -, ⟨-, rfl⟩, -, ⟨-, rfl⟩, h⟩ := h
  have hstride : ∀ bpp', drmPlane0Bpp format = some bpp' →
      width.toNat * bpp' ≤ strides.1.toNat := by
    intro bpp' hbpp'
    obtain rfl : bpp = bpp' := Option.some.inj (hbpp.symm.trans hbpp')
    omega
  split_ifs at h with hnv12 hplane
  · simp only [Option.bind_eq_some_iff, checkedMul_eq_some_iff, checkedAdd_eq_some_iff,
      Option.some.injEq] at h
    obtain ⟨-, ⟨-, rfl⟩, -, ⟨-, rfl⟩, rfl⟩ := h
    have hbehind : offsets.1.toNat ≤ offsets.2.toNat := by omega
    have hrow1 : width.toNat ≤ strides.2.toNat := by omega
    exact ⟨hstride, le_max_left _ _, fun _ => ⟨hrow1, hbehind, le_max_right _ _⟩⟩
  · obtain rfl := Option.some.inj h
    exact ⟨hstride, Nat.le_refl _, fun hf => absurd hf hnv12⟩

/-- For sizes that fit an `i32` no check of the metadata overflows: it accepts what the
checks of `onCreateBuffer` accept. -/
theorem DmabufLayout.validateDmabufLayout_map {format bpp : ℕ}
    (hbpp : formatBytesPerPixel format = some bpp) {width height : ℤ} (hwidth : width < 2 ^ 31)
    (hheight : height < 2 ^ 31) (strides offsets : UInt32 × UInt32) :
    (validateDmabufLayout (wlShmFormatToDrmFormat format) width height strides offsets).map
        (fun layout => layout.offset1 - layout.offset0) =
      Sommelier.validateDmabufLayout format width.toNat height.toNat
        (strides.1.toNat, strides.2.toNat) (offsets.1.toNat, offsets.2.toNat) := by
  have hrow : width.toNat * bpp < 2 ^ 64 := by
    have hle : bpp ≤ 4 := by
      unfold formatBytesPerPixel at hbpp
      split_ifs at hbpp <;> simp only [Option.some.injEq] at hbpp <;> omega
    calc width.toNat * bpp ≤ 2 ^ 31 * 4 := Nat.mul_le_mul (by omega) hle
      _ < 2 ^ 64 := by omega
  have hrows : ∀ stride : UInt32, ∀ rows ≤ height.toNat, stride.toNat * rows ≤ 2 ^ 63 := by
    intro stride rows hle
    calc stride.toNat * rows ≤ 2 ^ 32 * 2 ^ 31 :=
          Nat.mul_le_mul stride.toNat_lt.le (by omega)
      _ = 2 ^ 63 := by omega
  have hplane0 := hrows strides.1 height.toNat le_rfl
  have hplane1 := hrows strides.2 (height.toNat / 2) (Nat.div_le_self _ _)
  have hoffset0 := offsets.1.toNat_lt
  have hoffset1 := offsets.2.toNat_lt
  simp only [validateDmabufLayout, Sommelier.validateDmabufLayout, drmPlane0Bpp_of_format hbpp,
    hbpp, wlShmFormatToDrmFormat_nv12, Option.bind_eq_bind, Option.bind_some,
    checkedMul_of_lt hrow, checkedMul_of_lt (show strides.1.toNat * height.toNat < _ by omega),
    checkedMul_of_lt (show strides.2.toNat * (height.toNat / 2) < _ by omega),
    checkedAdd_of_lt (show offsets.1.toNat + strides.1.toNat * height.toNat < _ by omega),
    checkedAdd_of_lt
      (show offsets.2.toNat + strides.2.toNat * (height.toNat / 2) < _ by omega)]
  split_ifs <;> first | rfl | omega | simp

theorem mapDmabuf_eq_some {env : MapEnvironment} {layout : DmabufLayout} {size : ℕ}
    (h : mapDmabuf env layout = some size) :
    size = layout.span - layout.offset0 ∧ layout.offset0 < layout.span ∧ layout.span < 2 ^ 63 := by
  unfold mapDmabuf at h
  split_ifs at h with hspan
  have hsize := Option.some.inj h
  omega

namespace BufferRequest

/-- A dma-buf is mapped from plane 0 to the end of its last plane. -/
theorem Accepted.dmabufLayout_fits {r : BufferRequest} {poolSize poolSize' : ℕ}
    (h : r.Accepted poolSize) (hoffset : r.offset < 2 ^ 31) (hgrown : poolSize ≤ poolSize')
    {strides offsets : UInt32 × UInt32} {env : MapEnvironment} {layout : ShmCopyLayout}
    (hlayout : r.dmabufLayout poolSize strides offsets env = some layout) :
    ({ layout with poolSize := poolSize' } : ShmCopyLayout).FitsMappings := by
  obtain ⟨-, -, -, bpp, hbpp, -⟩ := h.known
  simp only [dmabufLayout, Option.bind_eq_bind, Option.bind_eq_some_iff] at hlayout
  obtain ⟨planes, hplanes, plane1, -, hlayout⟩ := hlayout
  obtain ⟨hrow, hend, hchroma⟩ := DmabufLayout.validateDmabufLayout_eq_some hplanes
  simp only [Option.ite_none_left_eq_some, Option.bind_eq_some_iff, Option.some.injEq] at hlayout
  obtain ⟨-, -, destSize, hmap, rfl⟩ := hlayout
  obtain ⟨hsize, hstart, hspan⟩ := mapDmabuf_eq_some hmap
  simp only at hsize hstart hspan
  have hdstEnd : r.height.toNat * planes.stride0 ≤ destSize := by
    rw [Nat.mul_comm]
    omega
  have hdstLt : destSize < 2 ^ 64 := by omega
  refine h.fitsMappings hoffset hgrown hbpp (hrow bpp (drmPlane0Bpp_of_format hbpp)) hdstEnd
    hdstLt fun hf => ?_
  have hdrm := wlShmFormatToDrmFormat_nv12.mpr hf
  obtain ⟨hchromaRow, hbehind, hchromaEnd⟩ := hchroma hdrm
  have hplane1End : planes.offset1 - planes.offset0 + r.height.toNat / 2 * planes.stride1 ≤
      destSize := by
    rw [Nat.mul_comm]
    omega
  rw [if_pos hdrm, if_pos hdrm]
  exact ⟨hchromaRow, hplane1End⟩

end BufferRequest

/-- Every damage of an accepted buffer is copied, however the guest lets its pool grow. -/
theorem accepted_buffer_copyable (r : BufferRequest) (hoffset : r.offset < 2 ^ 31)
    (poolSize : ℕ) (haccepted : r.Accepted poolSize) (storage : MappedStorage)
    (layout : ShmCopyLayout) (hlayout : r.mappedLayout poolSize storage = some layout)
    (resizes : List ℤ) (src dst : Memory) (damage : List DamageRect) :
    ({ layout with poolSize := resizes.foldl resizePool poolSize } : ShmCopyLayout).Copies
      src dst damage := by
  have hgrown := le_foldl_resizePool resizes poolSize
  refine ShmCopyLayout.FitsMappings.copies ?_ src dst damage
  cases storage with
  | sharedMemory => exact haccepted.sharedLayout_fits hoffset hgrown hlayout
  | dmabuf strides offsets env => exact haccepted.dmabufLayout_fits hoffset hgrown hlayout

/-- A buffer of one chroma sample in a dma-buf with padded rows, after its pool grew. -/
theorem accepted_buffer_copyable_nv12 :
    ({ poolSize := 4096, destSize := 4160, format := wlShmFormatNv12, offset := 2, width := 2,
       srcStride := 2, dstStride := 64, dstPlane1Offset := 4096, dstPlane1Stride := 64,
       height := 2 } : ShmCopyLayout).Copies (fun _ => 1) (fun _ => 0)
      [⟨-2147483648, -2147483648, 2147483647, 2147483647⟩, ⟨1, -1, 2147483647, 2147483647⟩] :=
  accepted_buffer_copyable ⟨2, 2, 2, 2, wlShmFormatNv12⟩ (by decide) 8 (by decide)
    (.dmabuf (64, 64) (0, 4096) ⟨4096, none, true⟩) _ rfl [7, 4096, 16] _ _ _

end Sommelier
