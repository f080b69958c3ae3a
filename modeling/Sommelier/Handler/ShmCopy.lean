import Mathlib.Tactic.Common
import Sommelier.State.Render
import Sommelier.Usize

/-!
# Copying damaged pixels

A guest SHM image is copied into its host storage rectangle by rectangle: damage is
coalesced, clipped to the image, turned into one byte rectangle per plane, checked
against both mappings, and only then copied.

## Main definitions

* `coalesceDamageRects`: the rectangles that stand for a damage list.
* `ShmCopyLayout`: the layout of one image in both mappings, and `ImageByte` its bytes.
* `copyShmDamage`: the copy, on memories as functions.
-/
namespace Sommelier

/-! ## Coalescing -/

/-- Half-open edges of a damage rectangle. -/
structure DamageEdges where
  x0 : ℤ
  y0 : ℤ
  x1 : ℤ
  y1 : ℤ
  deriving DecidableEq, Repr

namespace DamageEdges

def ofRect (rect : DamageRect) : Option DamageEdges :=
  if rect.width ≤ 0 ∨ rect.height ≤ 0 then none
  else some { x0 := rect.x, y0 := rect.y, x1 := rect.x + rect.width, y1 := rect.y + rect.height }

def i32Min : ℤ := -2147483648
def i32Max : ℤ := 2147483647

/-- The number is a value of `i32`. -/
def InI32 (n : ℤ) : Prop := i32Min ≤ n ∧ n ≤ i32Max

def fitI32 (e : DamageEdges) : Bool :=
  decide (i32Min ≤ e.x0) && decide (i32Min ≤ e.y0) && decide (e.x0 ≤ i32Max) &&
    decide (e.y0 ≤ i32Max) && decide (e.x1 ≤ i32Max) && decide (e.y1 ≤ i32Max) &&
    decide (e.x1 - e.x0 ≤ i32Max) && decide (e.y1 - e.y0 ≤ i32Max)

def toRect (e : DamageEdges) : DamageRect :=
  { x := e.x0, y := e.y0, width := e.x1 - e.x0, height := e.y1 - e.y0 }

def touchOrOverlap (a b : DamageEdges) : Bool :=
  decide (a.x0 ≤ b.x1) && decide (b.x0 ≤ a.x1) && decide (a.y0 ≤ b.y1) && decide (b.y0 ≤ a.y1)

def area (e : DamageEdges) : ℤ := (e.x1 - e.x0) * (e.y1 - e.y0)

/-- The smallest rectangle around both. -/
def expand (a b : DamageEdges) : DamageEdges :=
  { x0 := min a.x0 b.x0, y0 := min a.y0 b.y0, x1 := max a.x1 b.x1, y1 := max a.y1 b.y1 }

def unionIsCompact (a b expanded : DamageEdges) : Bool :=
  decide (expanded.area * 2 ≤ (a.area + b.area) * 3)

/-- Whether a candidate is merged with a rectangle already collected. -/
def canMerge (candidate : DamageEdges) (existing : DamageRect) : Bool :=
  (ofRect existing).any fun e =>
    candidate.touchOrOverlap e && (candidate.expand e).fitI32 &&
      candidate.unionIsCompact e (candidate.expand e)

end DamageEdges

/-- `Vec::swap_remove`: the last element takes the place of the removed one. -/
def swapRemove {α : Type} (l : List α) (index : ℕ) : List α :=
  match l.getLast? with
  | none => l
  | some last => (l.set index last).dropLast

/-- Merge the candidate until it meets no collected rectangle; each turn removes one. -/
def mergeCandidate : ℕ → List DamageRect → DamageEdges → List DamageRect × DamageEdges
  | 0, merged, candidate => (merged, candidate)
  | fuel + 1, merged, candidate =>
    match merged.findIdx? candidate.canMerge with
    | none => (merged, candidate)
    | some index =>
      match merged[index]?.bind DamageEdges.ofRect with
      | none => (merged, candidate)
      | some existing =>
        mergeCandidate fuel (swapRemove merged index) (candidate.expand existing)

def coalesceRect (merged : List DamageRect) (rect : DamageRect) : List DamageRect :=
  match DamageEdges.ofRect rect with
  | none => merged
  | some candidate =>
    let (merged, candidate) := mergeCandidate merged.length merged candidate
    if candidate.fitI32 then merged ++ [candidate.toRect] else merged ++ [rect]

def coalesceDamageRects (damage : List DamageRect) : List DamageRect :=
  damage.foldl coalesceRect []

/-! ## Layout -/

/-- FourCC of semi-planar NV12 in `wl_shm`. -/
def wlShmFormatNv12 : ℕ := 0x3231564e

def formatBytesPerPixel (format : ℕ) : Option ℕ :=
  if format = wlShmFormatNv12 then some 1
  else if format = 0x36314752 then some 2
  else if format = 0 ∨ format = 1 ∨ format = 0x34324241 ∨ format = 0x34324258 then some 4
  else none

/-- Layout of one image in the guest pool and in the mapped host storage. -/
structure ShmCopyLayout where
  poolSize : ℕ
  destSize : ℕ
  format : ℕ
  offset : ℕ
  width : ℕ
  srcStride : ℕ
  dstStride : ℕ
  dstPlane1Offset : ℕ
  dstPlane1Stride : ℕ
  height : ℕ
  deriving DecidableEq, Repr

/-- One byte of an image: a plane, and a row and byte column in it. -/
structure ImageByte where
  plane : ℕ
  row : ℕ
  col : ℕ
  deriving DecidableEq, Repr

namespace ShmCopyLayout
variable (l : ShmCopyLayout)

def planeCount : ℕ := if l.format = wlShmFormatNv12 then 2 else 1

def isChroma (plane : ℕ) : Prop := l.format = wlShmFormatNv12 ∧ plane = 1

instance (plane : ℕ) : Decidable (l.isChroma plane) := inferInstanceAs (Decidable (_ ∧ _))

def planeBpp (plane : ℕ) : ℕ :=
  if l.isChroma plane then 1 else (formatBytesPerPixel l.format).getD 0

def planeSrcOffset (plane : ℕ) : ℕ :=
  if l.isChroma plane then l.offset + l.height * l.srcStride else l.offset

def planeDstOffset (plane : ℕ) : ℕ :=
  if l.isChroma plane then
    if l.dstPlane1Stride = 0 then l.height * l.dstStride else l.dstPlane1Offset
  else 0

def planeDstStride (plane : ℕ) : ℕ :=
  if l.isChroma plane then
    if l.dstPlane1Stride = 0 then l.dstStride else l.dstPlane1Stride
  else l.dstStride

def planeRows (plane : ℕ) : ℕ := if l.isChroma plane then l.height / 2 else l.height

def srcIndex (b : ImageByte) : ℕ := l.planeSrcOffset b.plane + b.row * l.srcStride + b.col

def dstIndex (b : ImageByte) : ℕ :=
  l.planeDstOffset b.plane + b.row * l.planeDstStride b.plane + b.col

/-- The bytes of the image. -/
def HasByte (b : ImageByte) : Prop :=
  b.plane < l.planeCount ∧ b.row < l.planeRows b.plane ∧ b.col < l.width * l.planeBpp b.plane

instance (b : ImageByte) : Decidable (l.HasByte b) := inferInstanceAs (Decidable (_ ∧ _ ∧ _))

/-- What the creation of a buffer checks: a known format, destination rows that hold the
image rows, and an NV12 image of even size with its chroma plane behind its luma plane. -/
structure Valid : Prop where
  width_pos : 0 < l.width
  height_pos : 0 < l.height
  format_known : (formatBytesPerPixel l.format).isSome
  row_fits : l.width * l.planeBpp 0 ≤ l.dstStride
  chroma_fits : l.format = wlShmFormatNv12 → l.width ≤ l.dstPlane1Stride
  chroma_behind : l.format = wlShmFormatNv12 → l.height * l.dstStride ≤ l.dstPlane1Offset
  even_size : l.format = wlShmFormatNv12 → l.width % 2 = 0 ∧ l.height % 2 = 0

end ShmCopyLayout

/-! ## Copying -/

/-- The bytes of a mapping. -/
abbrev Memory := ℕ → UInt8

def copyNonoverlapping (src dst : Memory) (srcOffset dstOffset bytes : ℕ) : Memory := fun i =>
  if dstOffset ≤ i ∧ i < dstOffset + bytes then src (srcOffset + (i - dstOffset)) else dst i

/-- A byte rectangle of one plane in both mappings. -/
structure PlaneCopy where
  srcOffset : ℕ
  dstOffset : ℕ
  srcStride : ℕ
  dstStride : ℕ
  rows : ℕ
  rowBytes : ℕ
  deriving DecidableEq, Repr

/-- The part of a damage rectangle inside the image. -/
def clippedDamage (rect : DamageRect) (width height : ℕ) : Option (ℕ × ℕ × ℕ × ℕ) :=
  if rect.width ≤ 0 ∨ rect.height ≤ 0 then none
  else
    let x0 := max rect.x 0
    let y0 := max rect.y 0
    let x1 := min (rect.x + rect.width) width
    let y1 := min (rect.y + rect.height) height
    if x1 ≤ x0 ∨ y1 ≤ y0 then none
    else some (x0.toNat, y0.toNat, x1.toNat, y1.toNat)

def validPlaneCopy (poolSize destSize : ℕ) (plane : PlaneCopy) : Bool :=
  if plane.srcStride = 0 ∨ plane.dstStride = 0 ∨ plane.rows = 0 ∨ plane.rowBytes = 0 ∨
      plane.srcStride < plane.rowBytes ∨ plane.dstStride < plane.rowBytes then false
  else
    let lastRow := plane.rows - 1
    let srcEnd := do
      let start ← checkedAdd plane.srcOffset (← checkedMul lastRow plane.srcStride)
      checkedAdd start plane.rowBytes
    let dstEnd := do
      let start ← checkedAdd plane.dstOffset (← checkedMul lastRow plane.dstStride)
      checkedAdd start plane.rowBytes
    match srcEnd, dstEnd with
    | some srcEnd, some dstEnd => decide (srcEnd ≤ poolSize) && decide (dstEnd ≤ destSize)
    | _, _ => false

/-- The pixel rectangle of a plane for a clipped damage rectangle: chroma samples cover
two by two pixels, so the rectangle grows to whole samples. -/
def planeArea (l : ShmCopyLayout) (plane : ℕ) (clip : ℕ × ℕ × ℕ × ℕ) : ℕ × ℕ × ℕ × ℕ :=
  let (x0, y0, x1, y1) := clip
  if l.isChroma plane then
    let x0 := x0 / 2 * 2
    let x1 := min (x1 + 1) l.width / 2 * 2
    let x1 := if x1 ≤ x0 then min (x0 + 2) l.width else x1
    (x0, y0 / 2, x1, (y1 + 1) / 2)
  else (x0, y0, x1, y1)

def checkedPlaneSrcOffset (l : ShmCopyLayout) (plane : ℕ) : Option ℕ :=
  if l.isChroma plane then (checkedMul l.height l.srcStride).bind (checkedAdd l.offset)
  else some l.offset

def checkedPlaneDstOffset (l : ShmCopyLayout) (plane : ℕ) : Option ℕ :=
  if l.isChroma plane ∧ l.dstPlane1Stride = 0 then checkedMul l.height l.dstStride
  else some (l.planeDstOffset plane)

def checkedRowBytes (x0 x1 bpp : ℕ) : Option ℕ :=
  if x1 < x0 then none else checkedMul (x1 - x0) bpp

/-- The byte rectangle of a plane, with the overflow checks of its offsets. -/
def planeCopy (l : ShmCopyLayout) (plane : ℕ) (clip : ℕ × ℕ × ℕ × ℕ) : Option PlaneCopy :=
  match planeArea l plane clip with
  | (x0, y0, x1, y1) => do
    let planeSrcOffset ← checkedPlaneSrcOffset l plane
    let planeDstOffset ← checkedPlaneDstOffset l plane
    let rowBytes ← checkedRowBytes x0 x1 (l.planeBpp plane)
    let xOffset ← checkedMul x0 (l.planeBpp plane)
    let srcRow ← checkedAdd planeSrcOffset (← checkedMul y0 l.srcStride)
    let srcOffset ← checkedAdd srcRow xOffset
    let dstRow ← checkedAdd planeDstOffset (← checkedMul y0 (l.planeDstStride plane))
    let dstOffset ← checkedAdd dstRow xOffset
    return { srcOffset, dstOffset, srcStride := l.srcStride,
             dstStride := l.planeDstStride plane, rows := y1 - y0, rowBytes }

/-- The checked byte rectangles of one damage rectangle; `none` refuses the copy. -/
def rectCopies (l : ShmCopyLayout) (rect : DamageRect) : Option (List PlaneCopy) :=
  match clippedDamage rect l.width l.height with
  | none => some []
  | some clip => (List.range l.planeCount).mapM fun plane => do
      let copy ← planeCopy l plane clip
      if validPlaneCopy l.poolSize l.destSize copy then some copy else none

/-- Copy one byte rectangle: in one piece when it is contiguous in both mappings, else row
by row. The checks above rule out every overflow here. -/
def applyPlane (src dst : Memory) (plane : PlaneCopy) : Memory :=
  if plane.rowBytes = plane.srcStride ∧ plane.rowBytes = plane.dstStride then
    copyNonoverlapping src dst plane.srcOffset plane.dstOffset (plane.rowBytes * plane.rows)
  else
    (List.range plane.rows).foldl (fun dst row =>
      copyNonoverlapping src dst (plane.srcOffset + row * plane.srcStride)
        (plane.dstOffset + row * plane.dstStride) plane.rowBytes) dst

/-- Copy the damaged rectangles; `none` when a check fails, before any byte is written. -/
def copyShmDamage (src dst : Memory) (l : ShmCopyLayout) (damage : List DamageRect) :
    Option Memory := do
  if l.width = 0 ∨ l.height = 0 ∨ (formatBytesPerPixel l.format).isNone then none
  else
    let spans ← (coalesceDamageRects damage).mapM (rectCopies l)
    return spans.flatten.foldl (applyPlane src) dst

/-! ## Which bytes a copy writes -/

/-- The byte lies in the rectangle its plane copies for a clipped damage rectangle. -/
def inArea (l : ShmCopyLayout) (b : ImageByte) (clip : ℕ × ℕ × ℕ × ℕ) : Bool :=
  let (x0, y0, x1, y1) := planeArea l b.plane clip
  decide (y0 ≤ b.row) && decide (b.row < y1) &&
    decide (x0 * l.planeBpp b.plane ≤ b.col) && decide (b.col < x1 * l.planeBpp b.plane)

/-- The byte is copied for this damage. -/
def copiesByte (l : ShmCopyLayout) (damage : List DamageRect) (b : ImageByte) : Bool :=
  (coalesceDamageRects damage).any fun rect =>
    (clippedDamage rect l.width l.height).any (inArea l b)

/-- The address belongs to the destination rectangle of the plane. -/
def PlaneCopy.Writes (p : PlaneCopy) (i : ℕ) : Prop :=
  ∃ row < p.rows, ∃ col < p.rowBytes, i = p.dstOffset + row * p.dstStride + col

theorem copyNonoverlapping_at (src dst : Memory) {srcOffset dstOffset bytes k : ℕ}
    (hk : k < bytes) :
    copyNonoverlapping src dst srcOffset dstOffset bytes (dstOffset + k) =
      src (srcOffset + k) := by
  simp [copyNonoverlapping, hk]

theorem copyNonoverlapping_other (src dst : Memory) {srcOffset dstOffset bytes i : ℕ}
    (hi : ∀ k < bytes, i ≠ dstOffset + k) :
    copyNonoverlapping src dst srcOffset dstOffset bytes i = dst i := by
  rw [copyNonoverlapping, if_neg]
  rintro ⟨hle, hlt⟩
  exact hi (i - dstOffset) (by omega) (by omega)

/-- The rows of a plane are copied one by one, and no later row overwrites an earlier one. -/
theorem foldl_rows_at (src dst : Memory) (p : PlaneCopy) (hfit : p.rowBytes ≤ p.dstStride)
    {n row col : ℕ} (hrow : row < n) (hcol : col < p.rowBytes) :
    (List.range n).foldl (fun dst row =>
      copyNonoverlapping src dst (p.srcOffset + row * p.srcStride)
        (p.dstOffset + row * p.dstStride) p.rowBytes) dst
      (p.dstOffset + row * p.dstStride + col) = src (p.srcOffset + row * p.srcStride + col) := by
  induction n with
  | zero => omega
  | succ n ih =>
    rw [List.range_succ, List.foldl_append, List.foldl_cons, List.foldl_nil]
    rcases Nat.lt_succ_iff_lt_or_eq.mp hrow with hlt | rfl
    · rw [copyNonoverlapping_other, ih hlt]
      intro k hk
      have hstep : (row + 1) * p.dstStride ≤ n * p.dstStride := Nat.mul_le_mul_right _ hlt
      rw [Nat.add_one_mul] at hstep
      omega
    · exact copyNonoverlapping_at src _ hcol

theorem foldl_rows_other (src dst : Memory) (p : PlaneCopy) {n i : ℕ}
    (hi : ∀ row < n, ∀ col < p.rowBytes, i ≠ p.dstOffset + row * p.dstStride + col) :
    (List.range n).foldl (fun dst row =>
      copyNonoverlapping src dst (p.srcOffset + row * p.srcStride)
        (p.dstOffset + row * p.dstStride) p.rowBytes) dst i = dst i := by
  induction n with
  | zero => rfl
  | succ n ih =>
    rw [List.range_succ, List.foldl_append, List.foldl_cons, List.foldl_nil,
      copyNonoverlapping_other _ _ (hi n n.lt_succ_self),
      ih fun row hrow => hi row (Nat.lt_succ_of_lt hrow)]

theorem applyPlane_at (src dst : Memory) {p : PlaneCopy} (hfit : p.rowBytes ≤ p.dstStride)
    {row col : ℕ} (hrow : row < p.rows) (hcol : col < p.rowBytes) :
    applyPlane src dst p (p.dstOffset + row * p.dstStride + col) =
      src (p.srcOffset + row * p.srcStride + col) := by
  unfold applyPlane
  split_ifs with hc
  · obtain ⟨hsrc, hdst⟩ := hc
    have hk : row * p.rowBytes + col < p.rowBytes * p.rows := by
      calc row * p.rowBytes + col < row * p.rowBytes + p.rowBytes := by omega
        _ = (row + 1) * p.rowBytes := (Nat.add_one_mul _ _).symm
        _ ≤ p.rows * p.rowBytes := Nat.mul_le_mul_right _ hrow
        _ = p.rowBytes * p.rows := Nat.mul_comm _ _
    rw [← hsrc, ← hdst, Nat.add_assoc, Nat.add_assoc]
    exact copyNonoverlapping_at src dst hk
  · exact foldl_rows_at src dst p hfit hrow hcol

theorem applyPlane_other (src dst : Memory) {p : PlaneCopy} {i : ℕ} (hi : ¬ p.Writes i) :
    applyPlane src dst p i = dst i := by
  unfold applyPlane
  split_ifs with hc
  · obtain ⟨-, hdst⟩ := hc
    refine copyNonoverlapping_other src dst fun k hk hik => hi ?_
    have hpos : 0 < p.rowBytes := Nat.pos_of_mul_pos_right (Nat.zero_lt_of_lt hk)
    refine ⟨k / p.rowBytes, Nat.div_lt_of_lt_mul hk, k % p.rowBytes, Nat.mod_lt _ hpos, ?_⟩
    rw [← hdst, Nat.add_assoc, Nat.div_add_mod']
    exact hik
  · exact foldl_rows_other src dst p fun row hrow col hcol hik => hi ⟨row, hrow, col, hcol, hik⟩

/-! ## Image bytes -/

/-- Offsets in rows shorter than the stride determine row and column. -/
theorem rowMajor_inj {stride r c r' c' : ℕ} (hc : c < stride) (hc' : c' < stride)
    (h : r * stride + c = r' * stride + c') : r = r' ∧ c = c' := by
  have hpos : 0 < stride := Nat.zero_lt_of_lt hc
  have hr : r = r' := by
    have hdiv := congrArg (· / stride) h
    simpa [Nat.add_comm, Nat.add_mul_div_right, Nat.div_eq_of_lt, hc, hc', hpos] using hdiv
  subst hr
  exact ⟨rfl, by omega⟩

namespace ShmCopyLayout
variable {l : ShmCopyLayout}

theorem isChroma_iff_of_lt {plane : ℕ} (h : plane < l.planeCount) :
    l.isChroma plane ↔ plane = 1 := by
  unfold planeCount at h
  unfold isChroma
  split_ifs at h with hf
  · simp [hf]
  · simp only [hf, false_and, false_iff]
    omega

theorem planeBpp_pos (hknown : (formatBytesPerPixel l.format).isSome) (plane : ℕ) :
    0 < l.planeBpp plane := by
  unfold planeBpp
  split_ifs with hc
  · exact Nat.one_pos
  · unfold formatBytesPerPixel at hknown ⊢
    split_ifs at hknown ⊢ <;> simp_all

/-- A row of the image fits in a row of its destination plane. -/
theorem Valid.row_fits_plane (hv : l.Valid) {plane : ℕ} (hp : plane < l.planeCount) :
    l.width * l.planeBpp plane ≤ l.planeDstStride plane := by
  by_cases hc : l.isChroma plane
  · have hwidth := hv.chroma_fits hc.1
    have hne : l.dstPlane1Stride ≠ 0 := by
      have hpos := hv.width_pos
      omega
    simpa [planeBpp, planeDstStride, hc, hne] using hwidth
  · have hzero : plane = 0 := by
      rw [isChroma_iff_of_lt hp] at hc
      unfold planeCount at hp
      split_ifs at hp <;> omega
    subst hzero
    have hc0 : ¬ l.isChroma 0 := by simp [isChroma]
    simpa [planeDstStride, hc0] using hv.row_fits

/-- Different image bytes have different places in the destination. -/
theorem Valid.dstIndex_inj (hv : l.Valid) {b b' : ImageByte} (hb : l.HasByte b)
    (hb' : l.HasByte b') (h : l.dstIndex b = l.dstIndex b') : b = b' := by
  obtain ⟨hp, hr, hc⟩ := hb
  obtain ⟨hp', hr', hc'⟩ := hb'
  have hfit := hv.row_fits_plane hp
  have hfit' := hv.row_fits_plane hp'
  -- A luma byte lies below the chroma plane.
  have below : ∀ {x y : ImageByte}, l.HasByte x → x.plane = 0 → y.plane = 1 →
      y.plane < l.planeCount → l.dstIndex x < l.dstIndex y := by
    rintro x y ⟨hxp, hxr, hxc⟩ hx hy hyp
    have hchroma : l.isChroma y.plane := (isChroma_iff_of_lt hyp).mpr hy
    have hluma : ¬ l.isChroma 0 := by simp [isChroma]
    have hrow := hv.row_fits_plane hxp
    have hne : l.dstPlane1Stride ≠ 0 := by
      have hwidth := hv.chroma_fits hchroma.1
      have hpos := hv.width_pos
      omega
    have hbehind := hv.chroma_behind hchroma.1
    rw [hx] at hxr hxc hrow
    simp only [planeRows, hluma, if_false] at hxr
    have hrows : (x.row + 1) * l.dstStride ≤ l.height * l.dstStride :=
      Nat.mul_le_mul_right _ hxr
    simp only [planeDstStride, hluma, if_false] at hrow
    simp only [dstIndex, hx, planeDstOffset, planeDstStride, hluma, hchroma, hne, if_false,
      if_true]
    rw [Nat.add_one_mul] at hrows
    omega
  have hplane : b.plane = b'.plane := by
    have hle : l.planeCount ≤ 2 := by unfold planeCount; split_ifs <;> omega
    by_contra hne
    have hcases : (b.plane = 0 ∧ b'.plane = 1) ∨ (b.plane = 1 ∧ b'.plane = 0) := by omega
    rcases hcases with ⟨h0, h1⟩ | ⟨h1, h0⟩
    · have hlt := below ⟨hp, hr, hc⟩ h0 h1 hp'
      omega
    · have hlt := below ⟨hp', hr', hc'⟩ h0 h1 hp
      omega
  obtain ⟨plane, row, col⟩ := b
  obtain ⟨plane', row', col'⟩ := b'
  obtain rfl : plane = plane' := hplane
  simp only [dstIndex, Nat.add_assoc, Nat.add_left_cancel_iff] at h
  obtain ⟨rfl, rfl⟩ := rowMajor_inj (Nat.lt_of_lt_of_le hc hfit)
    (Nat.lt_of_lt_of_le hc' hfit') h
  rfl

/-- No byte of the destination belongs to two bytes of the image: neither its planes nor
their rows overlap there. An NV12 image has an even size. -/
structure DistinctBytes (l : ShmCopyLayout) : Prop where
  even_size : l.format = wlShmFormatNv12 → l.width % 2 = 0 ∧ l.height % 2 = 0
  dstIndex_inj : ∀ b b', l.HasByte b → l.HasByte b' → l.dstIndex b = l.dstIndex b' → b = b'

theorem Valid.distinctBytes (hv : l.Valid) : l.DistinctBytes :=
  ⟨hv.even_size, fun _ _ hb hb' h => hv.dstIndex_inj hb hb' h⟩

end ShmCopyLayout

/-! ## The copy writes exactly the copied bytes -/

theorem checkedPlaneSrcOffset_eq_some {l : ShmCopyLayout} {plane n : ℕ}
    (h : checkedPlaneSrcOffset l plane = some n) : n = l.planeSrcOffset plane := by
  unfold checkedPlaneSrcOffset at h
  unfold ShmCopyLayout.planeSrcOffset
  split_ifs at h ⊢ with hc
  · obtain ⟨m, hm, hn⟩ := Option.bind_eq_some_iff.mp h
    rw [checkedAdd_eq_some hn, checkedMul_eq_some hm]
  · exact (Option.some.inj h).symm

theorem checkedPlaneDstOffset_eq_some {l : ShmCopyLayout} {plane n : ℕ}
    (h : checkedPlaneDstOffset l plane = some n) : n = l.planeDstOffset plane := by
  unfold checkedPlaneDstOffset at h
  split_ifs at h with hc
  · rw [checkedMul_eq_some h, ShmCopyLayout.planeDstOffset, if_pos hc.1, if_pos hc.2]
  · exact (Option.some.inj h).symm

theorem checkedRowBytes_eq_some {x0 x1 bpp n : ℕ} (h : checkedRowBytes x0 x1 bpp = some n) :
    n = (x1 - x0) * bpp := by
  unfold checkedRowBytes at h
  split_ifs at h
  exact checkedMul_eq_some h

/-- A byte rectangle that passed its overflow checks has the offsets of its pixel rectangle. -/
theorem planeCopy_eq_some {l : ShmCopyLayout} {plane x0 y0 x1 y1 : ℕ}
    {clip : ℕ × ℕ × ℕ × ℕ} {copy : PlaneCopy} (harea : planeArea l plane clip = (x0, y0, x1, y1))
    (h : planeCopy l plane clip = some copy) :
    copy = { srcOffset := l.planeSrcOffset plane + y0 * l.srcStride + x0 * l.planeBpp plane
             dstOffset := l.planeDstOffset plane + y0 * l.planeDstStride plane +
               x0 * l.planeBpp plane
             srcStride := l.srcStride
             dstStride := l.planeDstStride plane
             rows := y1 - y0
             rowBytes := (x1 - x0) * l.planeBpp plane } := by
  simp only [planeCopy, harea, Option.bind_eq_bind, Option.bind_eq_some_iff, Option.pure_def,
    Option.some.injEq] at h
  obtain ⟨ps, hps, pd, hpd, rb, hrb, xo, hxo, ys, hys, sr, hsr, so, hso, yd, hyd, dr, hdr,
    d, hd, rfl⟩ := h
  rw [checkedAdd_eq_some hso, checkedAdd_eq_some hsr, checkedMul_eq_some hys,
    checkedAdd_eq_some hd, checkedAdd_eq_some hdr, checkedMul_eq_some hyd,
    checkedMul_eq_some hxo, checkedRowBytes_eq_some hrb, checkedPlaneSrcOffset_eq_some hps,
    checkedPlaneDstOffset_eq_some hpd]

/-- A clipped rectangle lies in the image. -/
theorem clippedDamage_eq_some {rect : DamageRect} {width height x0 y0 x1 y1 : ℕ}
    (h : clippedDamage rect width height = some (x0, y0, x1, y1)) :
    x0 < x1 ∧ y0 < y1 ∧ x1 ≤ width ∧ y1 ≤ height := by
  unfold clippedDamage at h
  split_ifs at h with hpos
  simp only at h
  split_ifs at h with hempty
  simp only [Option.some.injEq, Prod.mk.injEq] at h
  omega

/-- The pixel rectangle of a plane lies in the plane. -/
theorem planeArea_le {l : ShmCopyLayout}
    (heven : l.format = wlShmFormatNv12 → l.width % 2 = 0 ∧ l.height % 2 = 0)
    {plane x0 y0 x1 y1 : ℕ} {rect : DamageRect} {clip : ℕ × ℕ × ℕ × ℕ}
    (hclip : clippedDamage rect l.width l.height = some clip)
    (harea : planeArea l plane clip = (x0, y0, x1, y1)) :
    x1 ≤ l.width ∧ y1 ≤ l.planeRows plane := by
  obtain ⟨cx0, cy0, cx1, cy1⟩ := clip
  obtain ⟨hx, hy, hxw, hyh⟩ := clippedDamage_eq_some hclip
  unfold planeArea at harea
  unfold ShmCopyLayout.planeRows
  split_ifs at harea ⊢ with hc
  · have hsize := heven hc.1
    simp only [Prod.mk.injEq] at harea
    obtain ⟨rfl, rfl, rfl, rfl⟩ := harea
    constructor
    · split_ifs <;> omega
    · omega
  · simp only [Prod.mk.injEq] at harea
    omega

/-- The bytes one plane of one damage rectangle covers. -/
def planeCovers (l : ShmCopyLayout) (plane : ℕ) (clip : ℕ × ℕ × ℕ × ℕ) (b : ImageByte) : Bool :=
  plane == b.plane && inArea l b clip

/-- A checked byte rectangle has rows that fit in its destination rows. -/
theorem validPlaneCopy_fits {poolSize destSize : ℕ} {copy : PlaneCopy}
    (h : validPlaneCopy poolSize destSize copy = true) : copy.rowBytes ≤ copy.dstStride := by
  unfold validPlaneCopy at h
  split_ifs at h with hbad
  omega

/-- The addresses a byte rectangle writes are those of the image bytes it covers. -/
theorem planeCopy_writes {l : ShmCopyLayout}
    (heven : l.format = wlShmFormatNv12 → l.width % 2 = 0 ∧ l.height % 2 = 0)
    {plane : ℕ} {rect : DamageRect} {clip : ℕ × ℕ × ℕ × ℕ} {copy : PlaneCopy}
    (hp : plane < l.planeCount) (hclip : clippedDamage rect l.width l.height = some clip)
    (hcopy : planeCopy l plane clip = some copy) {i : ℕ} (hi : copy.Writes i) :
    ∃ b, l.HasByte b ∧ planeCovers l plane clip b = true ∧ l.dstIndex b = i := by
  rcases harea : planeArea l plane clip with ⟨x0, y0, x1, y1⟩
  obtain ⟨hxw, hyr⟩ := planeArea_le heven hclip harea
  have hwidth : x1 * l.planeBpp plane ≤ l.width * l.planeBpp plane := Nat.mul_le_mul_right _ hxw
  have hbytes : (x1 - x0) * l.planeBpp plane = x1 * l.planeBpp plane - x0 * l.planeBpp plane :=
    Nat.sub_mul _ _ _
  rw [planeCopy_eq_some harea hcopy] at hi
  obtain ⟨r, hr, c, hc, hidx⟩ := hi
  simp only at hr hc hidx
  refine ⟨⟨plane, y0 + r, x0 * l.planeBpp plane + c⟩, ⟨hp, ?_, ?_⟩, ?_, ?_⟩
  · simp only
    omega
  · simp only
    omega
  · simp only [planeCovers, inArea, beq_self_eq_true, harea, Bool.true_and, Bool.and_eq_true,
      decide_eq_true_eq]
    omega
  · simp only [ShmCopyLayout.dstIndex, hidx, Nat.add_mul]
    omega

/-- Copying one byte rectangle writes the image bytes it covers and no others. -/
theorem applyPlane_planeCopy {l : ShmCopyLayout} (hd : l.DistinctBytes) (src dst : Memory)
    {plane : ℕ} {rect : DamageRect} {clip : ℕ × ℕ × ℕ × ℕ} {copy : PlaneCopy}
    (hp : plane < l.planeCount) (hclip : clippedDamage rect l.width l.height = some clip)
    (hcopy : planeCopy l plane clip = some copy) (hfit : copy.rowBytes ≤ copy.dstStride)
    {b : ImageByte} (hb : l.HasByte b) :
    applyPlane src dst copy (l.dstIndex b) =
      if planeCovers l plane clip b then src (l.srcIndex b) else dst (l.dstIndex b) := by
  by_cases hcov : planeCovers l plane clip b = true
  · rw [if_pos hcov]
    rcases harea : planeArea l plane clip with ⟨x0, y0, x1, y1⟩
    have hbytes : (x1 - x0) * l.planeBpp plane = x1 * l.planeBpp plane - x0 * l.planeBpp plane :=
      Nat.sub_mul _ _ _
    rw [planeCopy_eq_some harea hcopy] at hfit ⊢
    simp only [planeCovers, inArea, Bool.and_eq_true, beq_iff_eq] at hcov
    obtain ⟨rfl, hin⟩ := hcov
    simp only [harea, decide_eq_true_eq] at hin
    obtain ⟨⟨⟨hy0, hy1⟩, hx0⟩, hx1⟩ := hin
    obtain ⟨r, hr⟩ := Nat.exists_eq_add_of_le hy0
    obtain ⟨c, hc⟩ := Nat.exists_eq_add_of_le hx0
    have hdst : l.dstIndex b = l.planeDstOffset b.plane + y0 * l.planeDstStride b.plane +
        x0 * l.planeBpp b.plane + r * l.planeDstStride b.plane + c := by
      rw [ShmCopyLayout.dstIndex, hr, hc, Nat.add_mul]
      omega
    have hsrc : l.srcIndex b = l.planeSrcOffset b.plane + y0 * l.srcStride +
        x0 * l.planeBpp b.plane + r * l.srcStride + c := by
      rw [ShmCopyLayout.srcIndex, hr, hc, Nat.add_mul]
      omega
    rw [hdst, hsrc]
    exact applyPlane_at src dst hfit (by simp only; omega) (by simp only; omega)
  · rw [if_neg hcov]
    refine applyPlane_other src dst fun hwrites => hcov ?_
    obtain ⟨b', hb', hcov', hsame⟩ := planeCopy_writes hd.even_size hp hclip hcopy hwrites
    obtain rfl := hd.dstIndex_inj _ _ hb' hb hsame
    exact hcov'

/-- Successful traversals in `Option` are elementwise. -/
theorem mapM_eq_some_iff {α β : Type} {f : α → Option β} {l : List α} {l' : List β} :
    l.mapM f = some l' ↔ List.Forall₂ (fun a b => f a = some b) l l' := by
  induction l generalizing l' with
  | nil => simp [eq_comm]
  | cons a l ih =>
    simp only [List.mapM_cons, Option.bind_eq_bind, Option.bind_eq_some_iff, Option.pure_def,
      Option.some.injEq, List.forall₂_cons_left_iff]
    constructor
    · rintro ⟨b, hb, l'', hl, rfl⟩
      exact ⟨b, l'', hb, ih.mp hl, rfl⟩
    · rintro ⟨b, l'', hb, hl, rfl⟩
      exact ⟨b, hb, l'', ih.mpr hl, rfl⟩

/-- What a clipped rectangle copies is copied plane by plane. -/
theorem foldl_rectCopies {l : ShmCopyLayout} (hd : l.DistinctBytes) (src dst : Memory)
    {rect : DamageRect} {copies : List PlaneCopy} (h : rectCopies l rect = some copies)
    {b : ImageByte} (hb : l.HasByte b) :
    copies.foldl (applyPlane src) dst (l.dstIndex b) =
      if (clippedDamage rect l.width l.height).any (inArea l b) then src (l.srcIndex b)
      else dst (l.dstIndex b) := by
  unfold rectCopies at h
  rcases hclip : clippedDamage rect l.width l.height with _ | clip
  · simp only [hclip, Option.some.injEq] at h
    simp [← h]
  · simp only [hclip, mapM_eq_some_iff] at h
    -- Induction along the planes: the byte is written by the copy of its own plane.
    have key : ∀ (planes : List ℕ) (copies : List PlaneCopy) (m : Memory),
        (∀ plane ∈ planes, plane < l.planeCount) →
        List.Forall₂ (fun plane copy => (do
          let copy ← planeCopy l plane clip
          if validPlaneCopy l.poolSize l.destSize copy then some copy else none) = some copy)
          planes copies →
        copies.foldl (applyPlane src) m (l.dstIndex b) =
          if planes.any (fun plane => planeCovers l plane clip b) then src (l.srcIndex b)
          else m (l.dstIndex b) := by
      intro planes copies m hplanes hall
      induction hall generalizing m with
      | nil => simp
      | @cons plane copy planes copies hcopy _ ih =>
        obtain ⟨hp, hplanes⟩ := List.forall_mem_cons.mp hplanes
        obtain ⟨c, hc, hvalid⟩ := Option.bind_eq_some_iff.mp hcopy
        split_ifs at hvalid with hcheck
        obtain rfl : c = copy := Option.some.inj hvalid
        rw [List.foldl_cons, ih _ hplanes,
          applyPlane_planeCopy hd src m hp hclip hc (validPlaneCopy_fits hcheck) hb,
          List.any_cons]
        cases planeCovers l plane clip b <;> simp
    rw [key _ _ _ (fun plane hp => List.mem_range.mp hp) h]
    have hany : (List.range l.planeCount).any (fun plane => planeCovers l plane clip b) =
        inArea l b clip := by
      rw [Bool.eq_iff_iff, List.any_eq_true]
      simp only [List.mem_range, planeCovers, Bool.and_eq_true, beq_iff_eq]
      constructor
      · rintro ⟨_, _, _, hin⟩
        exact hin
      · exact fun hin => ⟨b.plane, hb.1, rfl, hin⟩
    simp [hany]

/-- A copy takes the copied bytes of the image from the guest and leaves the others. -/
theorem copyShmDamage_spec {l : ShmCopyLayout} (hd : l.DistinctBytes) {src dst dst' : Memory}
    {damage : List DamageRect} (h : copyShmDamage src dst l damage = some dst')
    {b : ImageByte} (hb : l.HasByte b) :
    dst' (l.dstIndex b) =
      if copiesByte l damage b then src (l.srcIndex b) else dst (l.dstIndex b) := by
  unfold copyShmDamage at h
  split_ifs at h
  obtain ⟨spans, hspans, hdst⟩ := Option.bind_eq_some_iff.mp h
  obtain rfl := Option.some.inj hdst
  rw [mapM_eq_some_iff] at hspans
  unfold copiesByte
  generalize coalesceDamageRects damage = rects at hspans
  clear h hdst
  induction hspans generalizing dst with
  | nil => simp
  | @cons rect copies rects spans hrect _ ih =>
    rw [List.flatten_cons, List.foldl_append, ih, foldl_rectCopies hd src dst hrect hb,
      List.any_cons]
    cases (clippedDamage rect l.width l.height).any (inArea l b) <;> simp

/-! ## Coalescing covers the declared damage -/

/-- The pixel lies in the rectangle. -/
def DamageRect.HasPixel (rect : DamageRect) (x y : ℤ) : Prop :=
  rect.x ≤ x ∧ x < rect.x + rect.width ∧ rect.y ≤ y ∧ y < rect.y + rect.height

instance (rect : DamageRect) (x y : ℤ) : Decidable (rect.HasPixel x y) :=
  inferInstanceAs (Decidable (_ ∧ _ ∧ _ ∧ _))

/-- The pixel lies in the edges. -/
def DamageEdges.HasPixel (e : DamageEdges) (x y : ℤ) : Prop :=
  e.x0 ≤ x ∧ x < e.x1 ∧ e.y0 ≤ y ∧ y < e.y1

theorem DamageEdges.toRect_hasPixel {e : DamageEdges} {x y : ℤ} :
    e.toRect.HasPixel x y ↔ e.HasPixel x y := by
  simp only [DamageRect.HasPixel, HasPixel, toRect]
  omega

theorem DamageEdges.ofRect_hasPixel {rect : DamageRect} {e : DamageEdges}
    (he : ofRect rect = some e) {x y : ℤ} : e.HasPixel x y ↔ rect.HasPixel x y := by
  unfold ofRect at he
  split_ifs at he
  obtain rfl := Option.some.inj he
  exact Iff.rfl

theorem DamageEdges.expand_hasPixel {a b : DamageEdges} {x y : ℤ}
    (h : a.HasPixel x y ∨ b.HasPixel x y) : (a.expand b).HasPixel x y := by
  simp only [HasPixel, expand] at h ⊢
  omega

theorem mem_set_or_eq {α : Type} {l : List α} {index : ℕ} {a v : α} (ha : a ∈ l) :
    a ∈ l.set index v ∨ l[index]? = some a := by
  obtain ⟨j, hj, rfl⟩ := List.mem_iff_getElem.mp ha
  by_cases hij : index = j
  · subst hij
    exact .inr (List.getElem?_eq_getElem hj)
  · left
    rw [← List.getElem_set_ne hij (a := v) (by simpa using hj)]
    exact List.getElem_mem _

/-- Only the element at the index is lost. -/
theorem swapRemove_mem {α : Type} {l : List α} {index : ℕ} {a : α} (ha : a ∈ l)
    (hindex : index < l.length) : a ∈ swapRemove l index ∨ l[index]? = some a := by
  obtain ⟨init, last, rfl⟩ : ∃ init last, l = init ++ [last] := by
    rcases List.eq_nil_or_concat l with rfl | ⟨init, last, rfl⟩
    · simp at ha
    · exact ⟨init, last, by simp⟩
  simp only [swapRemove, List.getLast?_concat]
  rw [List.length_append, List.length_singleton] at hindex
  by_cases hlt : index < init.length
  · rw [List.set_append_left _ _ hlt, List.dropLast_concat, List.getElem?_append_left hlt]
    rcases List.mem_append.mp ha with hinit | hlast
    · exact mem_set_or_eq hinit
    · obtain rfl := List.mem_singleton.mp hlast
      exact .inl (List.mem_set hlt a)
  · obtain rfl : index = init.length := by omega
    rcases List.mem_append.mp ha with hinit | hlast
    · left
      simpa using hinit
    · right
      simpa using (List.mem_singleton.mp hlast).symm

/-- Some rectangle of the list has the pixel. -/
def damageHasPixel (rects : List DamageRect) (x y : ℤ) : Prop :=
  ∃ rect ∈ rects, rect.HasPixel x y

instance (rects : List DamageRect) (x y : ℤ) : Decidable (damageHasPixel rects x y) :=
  inferInstanceAs (Decidable (∃ rect ∈ rects, rect.HasPixel x y))

/-- Merging loses no pixel, and a candidate it changed still fits. -/
theorem mergeCandidate_covers {fuel : ℕ} {merged : List DamageRect} {candidate : DamageEdges}
    {merged' : List DamageRect} {candidate' : DamageEdges}
    (h : mergeCandidate fuel merged candidate = (merged', candidate')) :
    (∀ x y, damageHasPixel merged x y ∨ candidate.HasPixel x y →
      damageHasPixel merged' x y ∨ candidate'.HasPixel x y) ∧
      (candidate' = candidate ∨ candidate'.fitI32 = true) := by
  induction fuel generalizing merged candidate with
  | zero =>
    simp only [mergeCandidate, Prod.mk.injEq] at h
    obtain ⟨rfl, rfl⟩ := h
    exact ⟨fun _ _ hxy => hxy, .inl rfl⟩
  | succ fuel ih =>
    unfold mergeCandidate at h
    split at h
    · simp only [Prod.mk.injEq] at h
      obtain ⟨rfl, rfl⟩ := h
      exact ⟨fun _ _ hxy => hxy, .inl rfl⟩
    · rename_i index hindex
      split at h
      · simp only [Prod.mk.injEq] at h
        obtain ⟨rfl, rfl⟩ := h
        exact ⟨fun _ _ hxy => hxy, .inl rfl⟩
      · rename_i existing hexisting
        obtain ⟨rect, hrect, hedges⟩ := Option.bind_eq_some_iff.mp hexisting
        obtain ⟨hlt, hmerge, -⟩ := List.findIdx?_eq_some_iff_getElem.mp hindex
        obtain ⟨hcover, hfit⟩ := ih h
        refine ⟨fun x y hxy => hcover x y ?_, .inr ?_⟩
        · rcases hxy with ⟨r, hr, hpix⟩ | hpix
          · rcases swapRemove_mem hr hlt with hr' | hr'
            · exact .inl ⟨r, hr', hpix⟩
            · obtain rfl : rect = r := Option.some.inj (hrect.symm.trans hr')
              exact .inr (DamageEdges.expand_hasPixel
                (.inr ((DamageEdges.ofRect_hasPixel hedges).mpr hpix)))
          · exact .inr (DamageEdges.expand_hasPixel (.inl hpix))
        · rcases hfit with rfl | hfit
          · have hget : merged[index] = rect := by
              rw [List.getElem?_eq_getElem hlt, Option.some.injEq] at hrect
              exact hrect
            simp only [hget, DamageEdges.canMerge, hedges, Option.any_some,
              Bool.and_eq_true] at hmerge
            exact hmerge.1.2
          · exact hfit

/-- Adding a rectangle keeps the pixels collected before and adds its own. -/
theorem coalesceRect_covers {merged : List DamageRect} {rect : DamageRect} {x y : ℤ}
    (h : damageHasPixel merged x y ∨ rect.HasPixel x y) :
    damageHasPixel (coalesceRect merged rect) x y := by
  unfold coalesceRect
  rcases hedges : DamageEdges.ofRect rect with _ | candidate
  · refine h.resolve_right fun hpix => ?_
    unfold DamageEdges.ofRect at hedges
    split_ifs at hedges with hempty
    simp only [DamageRect.HasPixel] at hpix
    omega
  · rcases hmerge : mergeCandidate merged.length merged candidate with ⟨merged', candidate'⟩
    obtain ⟨hcover, hfit⟩ := mergeCandidate_covers hmerge
    have hpix := hcover x y (h.imp_right (DamageEdges.ofRect_hasPixel hedges).mpr)
    simp only [hmerge]
    split_ifs with hfits
    · rcases hpix with ⟨r, hr, hr'⟩ | hcand
      · exact ⟨r, List.mem_append_left _ hr, hr'⟩
      · exact ⟨_, List.mem_append_right _ (List.mem_singleton_self _),
          DamageEdges.toRect_hasPixel.mpr hcand⟩
    · obtain rfl := hfit.resolve_right hfits
      rcases hpix with ⟨r, hr, hr'⟩ | hcand
      · exact ⟨r, List.mem_append_left _ hr, hr'⟩
      · exact ⟨_, List.mem_append_right _ (List.mem_singleton_self _),
          (DamageEdges.ofRect_hasPixel hedges).mp hcand⟩

/-- Coalescing covers every declared pixel. -/
theorem coalesceDamageRects_covers {damage : List DamageRect} {x y : ℤ}
    (h : damageHasPixel damage x y) : damageHasPixel (coalesceDamageRects damage) x y := by
  have key : ∀ (rects merged : List DamageRect),
      damageHasPixel merged x y ∨ damageHasPixel rects x y →
      damageHasPixel (rects.foldl coalesceRect merged) x y := by
    intro rects
    induction rects with
    | nil =>
      rintro merged (hm | ⟨r, hr, -⟩)
      · exact hm
      · simp at hr
    | cons rect rects ih =>
      intro merged hpix
      refine ih _ ?_
      rcases hpix with hm | ⟨r, hr, hr'⟩
      · exact .inl (coalesceRect_covers (.inl hm))
      · rcases List.mem_cons.mp hr with rfl | hr
        · exact .inl (coalesceRect_covers (.inr hr'))
        · exact .inr ⟨r, hr, hr'⟩
  exact key damage [] (.inr h)

/-- The byte stores part of the pixel: itself, or for chroma its sample of two by two. -/
def ShmCopyLayout.BytePixel (l : ShmCopyLayout) (b : ImageByte) (x y : ℕ) : Prop :=
  x < l.width ∧ y < l.height ∧
    if l.isChroma b.plane then b.row = y / 2 ∧ b.col / 2 = x / 2
    else b.row = y ∧ b.col / l.planeBpp b.plane = x

/-- A declared pixel of the image has all its bytes copied. -/
theorem copiesByte_of_pixel {l : ShmCopyLayout}
    (hknown : (formatBytesPerPixel l.format).isSome)
    (heven : l.format = wlShmFormatNv12 → l.width % 2 = 0 ∧ l.height % 2 = 0)
    {damage : List DamageRect} {b : ImageByte} {x y : ℕ} (hpix : l.BytePixel b x y)
    (hdamage : damageHasPixel damage x y) : copiesByte l damage b = true := by
  obtain ⟨rect, hrect, hx0, hx1, hy0, hy1⟩ := coalesceDamageRects_covers hdamage
  obtain ⟨hxw, hyh, hbyte⟩ := hpix
  have hbpp := ShmCopyLayout.planeBpp_pos hknown b.plane
  refine List.any_eq_true.mpr ⟨rect, hrect, ?_⟩
  rcases hclip : clippedDamage rect l.width l.height with _ | ⟨cx0, cy0, cx1, cy1⟩
  · exfalso
    unfold clippedDamage at hclip
    split_ifs at hclip with hpos
    · omega
    · simp only at hclip
      split_ifs at hclip
      omega
  · have hbox : cx0 ≤ x ∧ x < cx1 ∧ cy0 ≤ y ∧ y < cy1 ∧ cx1 ≤ l.width := by
      unfold clippedDamage at hclip
      split_ifs at hclip
      simp only at hclip
      split_ifs at hclip
      simp only [Option.some.injEq, Prod.mk.injEq] at hclip
      omega
    obtain ⟨h1, h2, h3, h4, h5⟩ := hbox
    rw [Option.any_some]
    unfold inArea planeArea
    split_ifs at hbyte ⊢ with hc
    · have hsize := heven hc.1
      simp only [ShmCopyLayout.planeBpp, if_pos hc, Bool.and_eq_true, decide_eq_true_eq]
      split_ifs <;> omega
    · obtain ⟨hrow, hcol⟩ := hbyte
      have hlow : cx0 * l.planeBpp b.plane ≤ b.col :=
        (Nat.le_div_iff_mul_le hbpp).mp (hcol ▸ h1)
      have hhigh : b.col < cx1 * l.planeBpp b.plane :=
        (Nat.div_lt_iff_lt_mul hbpp).mp (hcol ▸ h2)
      simp only [Bool.and_eq_true, decide_eq_true_eq]
      omega

end Sommelier
