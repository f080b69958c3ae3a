import Sommelier.Handler.ShmCopy

/-!
# Exactness of the damage copy

The copy with the overflow checks of its loops, which cannot fail behind the checks of the
byte rectangles: a refused copy has written nothing, and a copy that succeeds writes image
bytes only, among them every byte of the declared damage.

## Main definitions

* `writePlane`, `writePlanes`: the loops of the copy.
* `ShmCopyLayout.copyShmDamage`: the outcome of a copy and the destination it leaves.

## Main results

* `ShmCopyLayout.copyShmDamage_eq`: the loops succeed once every rectangle was checked.
* `ShmCopyLayout.copyShmDamage_exact`: what a copy does to each byte of the destination.
-/
namespace Sommelier

/-! ## The loops -/

/-- Where a row of a byte rectangle starts in both mappings. -/
def rowStarts (plane : PlaneCopy) (row : ℕ) : Option (ℕ × ℕ) := do
  let rowSrcOffset ← checkedMul row plane.srcStride
  let rowDstOffset ← checkedMul row plane.dstStride
  let srcRow ← checkedAdd plane.srcOffset rowSrcOffset
  let dstRow ← checkedAdd plane.dstOffset rowDstOffset
  return (srcRow, dstRow)

/-- Copy rows one by one, until one of them overflows. -/
def writeRows (src : Memory) (plane : PlaneCopy) : List ℕ → Memory → Bool × Memory
  | [], dst => (true, dst)
  | row :: rows, dst =>
    match rowStarts plane row with
    | none => (false, dst)
    | some (srcRow, dstRow) =>
      writeRows src plane rows (copyNonoverlapping src dst srcRow dstRow plane.rowBytes)

def writePlane (src dst : Memory) (plane : PlaneCopy) : Bool × Memory :=
  if plane.rowBytes = plane.srcStride ∧ plane.rowBytes = plane.dstStride then
    match checkedMul plane.rowBytes plane.rows with
    | none => (false, dst)
    | some bytes => (true, copyNonoverlapping src dst plane.srcOffset plane.dstOffset bytes)
  else writeRows src plane (List.range plane.rows) dst

def writePlanes (src : Memory) : List PlaneCopy → Memory → Bool × Memory
  | [], dst => (true, dst)
  | plane :: planes, dst =>
    match writePlane src dst plane with
    | (false, dst) => (false, dst)
    | (true, dst) => writePlanes src planes dst

namespace ShmCopyLayout
variable (l : ShmCopyLayout)

/-- The byte rectangles of one damage rectangle. Damage is clipped in `i64`, so that an image
beyond it has no damage at all. -/
def rectSpans (rect : DamageRect) : Option (List PlaneCopy) :=
  if l.width < 2 ^ 63 ∧ l.height < 2 ^ 63 then rectCopies l rect else some []

/-- `copy_shm_damage`: whether the copy succeeded, and the destination it leaves. -/
def copyShmDamage (src dst : Memory) (damage : List DamageRect) : Bool × Memory :=
  if l.width = 0 ∨ l.height = 0 ∨ (formatBytesPerPixel l.format).isNone then (false, dst)
  else
    match (coalesceDamageRects damage).mapM l.rectSpans with
    | none => (false, dst)
    | some spans => writePlanes src spans.flatten dst

end ShmCopyLayout

/-! ## Checked rectangles are written without overflow -/

/-- What the check of a byte rectangle establishes: its last rows end in both mappings. -/
theorem validPlaneCopy_bounds {poolSize destSize : ℕ} {plane : PlaneCopy}
    (h : validPlaneCopy poolSize destSize plane = true) :
    0 < plane.rows ∧ 0 < plane.rowBytes ∧
      plane.srcOffset + (plane.rows - 1) * plane.srcStride + plane.rowBytes < 2 ^ 64 ∧
      plane.dstOffset + (plane.rows - 1) * plane.dstStride + plane.rowBytes < 2 ^ 64 ∧
      plane.srcOffset + (plane.rows - 1) * plane.srcStride + plane.rowBytes ≤ poolSize ∧
      plane.dstOffset + (plane.rows - 1) * plane.dstStride + plane.rowBytes ≤ destSize := by
  unfold validPlaneCopy at h
  split_ifs at h with hbad
  simp only [checkedMul, checkedAdd, Option.bind_eq_bind] at h
  split at h
  · rename_i srcEnd dstEnd hsrc hdst
    simp only [Option.bind_eq_some_iff, Option.ite_none_right_eq_some,
      Option.some.injEq] at hsrc hdst
    obtain ⟨-, ⟨-, rfl⟩, -, ⟨-, rfl⟩, hsrc, rfl⟩ := hsrc
    obtain ⟨-, ⟨-, rfl⟩, -, ⟨-, rfl⟩, hdst, rfl⟩ := hdst
    simp only [Bool.and_eq_true, decide_eq_true_eq] at h
    exact ⟨by omega, by omega, hsrc, hdst, h.1, h.2⟩
  · contradiction

theorem rowStarts_of_valid {poolSize destSize : ℕ} {plane : PlaneCopy}
    (h : validPlaneCopy poolSize destSize plane = true) {row : ℕ} (hrow : row < plane.rows) :
    rowStarts plane row =
      some (plane.srcOffset + row * plane.srcStride, plane.dstOffset + row * plane.dstStride) := by
  obtain ⟨-, -, hsrc, hdst, -, -⟩ := validPlaneCopy_bounds h
  have hsrcRow : row * plane.srcStride ≤ (plane.rows - 1) * plane.srcStride :=
    Nat.mul_le_mul_right _ (by omega)
  have hdstRow : row * plane.dstStride ≤ (plane.rows - 1) * plane.dstStride :=
    Nat.mul_le_mul_right _ (by omega)
  simp only [rowStarts, Option.bind_eq_bind, Option.pure_def]
  rw [checkedMul_of_lt (by omega), checkedMul_of_lt (by omega), Option.bind_some,
    Option.bind_some, checkedAdd_of_lt (by omega), checkedAdd_of_lt (by omega),
    Option.bind_some, Option.bind_some]

theorem writeRows_of_starts {src : Memory} {plane : PlaneCopy} {rows : List ℕ}
    (h : ∀ row ∈ rows, rowStarts plane row =
      some (plane.srcOffset + row * plane.srcStride, plane.dstOffset + row * plane.dstStride))
    (dst : Memory) :
    writeRows src plane rows dst = (true, rows.foldl (fun dst row =>
      copyNonoverlapping src dst (plane.srcOffset + row * plane.srcStride)
        (plane.dstOffset + row * plane.dstStride) plane.rowBytes) dst) := by
  induction rows generalizing dst with
  | nil => rfl
  | cons row rows ih =>
    obtain ⟨hrow, hrows⟩ := List.forall_mem_cons.mp h
    simp only [writeRows, hrow, List.foldl_cons]
    exact ih hrows _

/-- A byte rectangle that passed its check is copied to its end. -/
theorem writePlane_of_valid {poolSize destSize : ℕ} {plane : PlaneCopy}
    (h : validPlaneCopy poolSize destSize plane = true) (src dst : Memory) :
    writePlane src dst plane = (true, applyPlane src dst plane) := by
  obtain ⟨hrows, -, hsrc, -⟩ := validPlaneCopy_bounds h
  unfold writePlane applyPlane
  split_ifs with hcontiguous
  · have hbytes : plane.rowBytes * plane.rows < 2 ^ 64 := by
      calc plane.rowBytes * plane.rows
          = (plane.rows - 1 + 1) * plane.rowBytes := by
            rw [Nat.sub_add_cancel hrows, Nat.mul_comm]
        _ = (plane.rows - 1) * plane.srcStride + plane.rowBytes := by
            rw [Nat.add_one_mul, hcontiguous.1]
        _ < 2 ^ 64 := by omega
    simp only [checkedMul_of_lt hbytes]
  · exact writeRows_of_starts (fun row hrow => rowStarts_of_valid h (List.mem_range.mp hrow)) dst

theorem writePlanes_of_valid (poolSize destSize : ℕ) {src : Memory} {planes : List PlaneCopy}
    (h : ∀ plane ∈ planes, validPlaneCopy poolSize destSize plane = true) (dst : Memory) :
    writePlanes src planes dst = (true, planes.foldl (applyPlane src) dst) := by
  induction planes generalizing dst with
  | nil => rfl
  | cons plane planes ih =>
    obtain ⟨hplane, hplanes⟩ := List.forall_mem_cons.mp h
    simp only [writePlanes, writePlane_of_valid hplane, List.foldl_cons]
    exact ih hplanes _

/-- The results of a successful traversal come from its elements. -/
theorem exists_of_mem_mapM {α β : Type} {f : α → Option β} {l : List α} {l' : List β}
    (h : l.mapM f = some l') {b : β} (hb : b ∈ l') : ∃ a ∈ l, f a = some b := by
  rw [mapM_eq_some_iff] at h
  induction h with
  | nil => simp at hb
  | @cons a b' l l' hab _ ih =>
    rcases List.mem_cons.mp hb with rfl | hb
    · exact ⟨a, List.mem_cons_self, hab⟩
    · obtain ⟨a', ha', hf⟩ := ih hb
      exact ⟨a', List.mem_cons_of_mem _ ha', hf⟩

/-- A byte rectangle of a damage rectangle is that of some plane, and was checked. -/
theorem mem_rectCopies {l : ShmCopyLayout} {rect : DamageRect} {copies : List PlaneCopy}
    (h : rectCopies l rect = some copies) {copy : PlaneCopy} (hcopy : copy ∈ copies) :
    ∃ clip plane, clippedDamage rect l.width l.height = some clip ∧ plane < l.planeCount ∧
      planeCopy l plane clip = some copy ∧
      validPlaneCopy l.poolSize l.destSize copy = true := by
  unfold rectCopies at h
  rcases hclip : clippedDamage rect l.width l.height with _ | clip
  · simp only [hclip, Option.some.injEq] at h
    simp [← h] at hcopy
  · rw [hclip] at h
    obtain ⟨plane, hplane, hcheck⟩ := exists_of_mem_mapM h hcopy
    obtain ⟨c, hc, hvalid⟩ := Option.bind_eq_some_iff.mp hcheck
    split_ifs at hvalid with hok
    obtain rfl : c = copy := Option.some.inj hvalid
    exact ⟨clip, plane, rfl, List.mem_range.mp hplane, hc, hok⟩

namespace ShmCopyLayout
variable {l : ShmCopyLayout}

/-- The size of an image is an `i32` in every buffer, far below the `i64` of the clipping. -/
def SizeFits (l : ShmCopyLayout) : Prop := l.width < 2 ^ 63 ∧ l.height < 2 ^ 63

instance (l : ShmCopyLayout) : Decidable l.SizeFits := inferInstanceAs (Decidable (_ ∧ _))

theorem rectSpans_of_sizeFits (hsize : l.SizeFits) : l.rectSpans = rectCopies l := by
  funext rect
  exact if_pos hsize

/-- The loops of a copy do what the checked rectangles say. -/
theorem copyShmDamage_eq (hsize : l.SizeFits) (src dst : Memory) (damage : List DamageRect) :
    l.copyShmDamage src dst damage =
      match Sommelier.copyShmDamage src dst l damage with
      | none => (false, dst)
      | some dst' => (true, dst') := by
  unfold copyShmDamage Sommelier.copyShmDamage
  rw [rectSpans_of_sizeFits hsize]
  split_ifs
  · rfl
  · cases hspans : (coalesceDamageRects damage).mapM (rectCopies l) with
    | none => rfl
    | some spans =>
      refine writePlanes_of_valid l.poolSize l.destSize (fun plane hplane => ?_) dst
      obtain ⟨copies, hcopies, hmem⟩ := List.mem_flatten.mp hplane
      obtain ⟨rect, -, hrect⟩ := exists_of_mem_mapM hspans hcopies
      obtain ⟨-, -, -, -, -, hvalid⟩ := mem_rectCopies hrect hmem
      exact hvalid

end ShmCopyLayout

/-! ## Bytes outside the image -/

/-- Copies keep an address that none of them writes. -/
theorem foldl_applyPlane_other {src : Memory} {planes : List PlaneCopy} {i : ℕ}
    (h : ∀ plane ∈ planes, ¬ plane.Writes i) (dst : Memory) :
    planes.foldl (applyPlane src) dst i = dst i := by
  induction planes generalizing dst with
  | nil => rfl
  | cons plane planes ih =>
    obtain ⟨hplane, hplanes⟩ := List.forall_mem_cons.mp h
    rw [List.foldl_cons, ih hplanes, applyPlane_other src dst hplane]

/-- A copy leaves row padding and everything else outside the image as it is. -/
theorem copyShmDamage_other {l : ShmCopyLayout}
    (heven : l.format = wlShmFormatNv12 → l.width % 2 = 0 ∧ l.height % 2 = 0)
    {src dst dst' : Memory} {damage : List DamageRect}
    (h : copyShmDamage src dst l damage = some dst') {i : ℕ}
    (hi : ∀ b, l.HasByte b → l.dstIndex b ≠ i) : dst' i = dst i := by
  unfold copyShmDamage at h
  split_ifs at h
  obtain ⟨spans, hspans, hdst⟩ := Option.bind_eq_some_iff.mp h
  obtain rfl := Option.some.inj hdst
  refine foldl_applyPlane_other (fun plane hplane hwrites => ?_) dst
  obtain ⟨copies, hcopies, hmem⟩ := List.mem_flatten.mp hplane
  obtain ⟨rect, -, hrect⟩ := exists_of_mem_mapM hspans hcopies
  obtain ⟨clip, p, hclip, hp, hcopy, -⟩ := mem_rectCopies hrect hmem
  obtain ⟨b, hb, -, hidx⟩ := planeCopy_writes heven hp hclip hcopy hwrites
  exact hi b hb hidx

namespace ShmCopyLayout
variable {l : ShmCopyLayout}

/-- A refused copy has written nothing. A copy that succeeds has taken every byte of a damaged
pixel from the guest, each other byte of the image is as it was or taken from the guest, and
nothing outside the image has changed. -/
theorem copyShmDamage_exact (l : ShmCopyLayout) (hsize : l.SizeFits) (hdistinct : l.DistinctBytes)
    (src dst : Memory) (damage : List DamageRect) :
    l.copyShmDamage src dst damage = (false, dst) ∨
      ∃ dst', l.copyShmDamage src dst damage = (true, dst') ∧
        (∀ b x y, l.HasByte b → l.BytePixel b x y → damageHasPixel damage x y →
          dst' (l.dstIndex b) = src (l.srcIndex b)) ∧
        (∀ b, l.HasByte b → dst' (l.dstIndex b) = dst (l.dstIndex b) ∨
          dst' (l.dstIndex b) = src (l.srcIndex b)) ∧
        ∀ i, (∀ b, l.HasByte b → l.dstIndex b ≠ i) → dst' i = dst i := by
  rw [copyShmDamage_eq hsize]
  cases hcopy : Sommelier.copyShmDamage src dst l damage with
  | none => exact .inl rfl
  | some dst' =>
    have hknown : (formatBytesPerPixel l.format).isSome := by
      unfold Sommelier.copyShmDamage at hcopy
      split_ifs at hcopy with hbad
      simp only [not_or] at hbad
      simpa [Option.isSome_iff_ne_none] using hbad.2.2
    refine .inr ⟨dst', rfl, fun b x y hb hpixel hdamage => ?_, fun b hb => ?_, fun i hi => ?_⟩
    · rw [copyShmDamage_spec hdistinct hcopy hb,
        copiesByte_of_pixel hknown hdistinct.even_size hpixel hdamage, if_pos rfl]
    · rw [copyShmDamage_spec hdistinct hcopy hb]
      split_ifs
      · exact .inr rfl
      · exact .inl rfl
    · exact copyShmDamage_other hdistinct.even_size hcopy hi

/-- An NV12 image of one chroma sample, as VirtWL shared memory holds it. -/
def sampleNv12 : ShmCopyLayout where
  poolSize := 6
  destSize := 6
  format := wlShmFormatNv12
  offset := 0
  width := 2
  srcStride := 2
  dstStride := 2
  dstPlane1Offset := 4
  dstPlane1Stride := 2
  height := 2

theorem sampleNv12_valid : sampleNv12.Valid := by
  constructor <;> decide

/-- Damage of one corner pixel copies its luma byte and the whole chroma sample. -/
theorem copyShmDamage_exact_nv12 : ∃ dst',
    sampleNv12.copyShmDamage UInt8.ofNat (fun _ => 255) [⟨1, 1, 1, 1⟩] = (true, dst') ∧
      dst' 3 = 3 ∧ dst' 4 = 4 ∧ dst' 5 = 5 ∧ dst' 6 = 255 := by
  obtain ⟨dst', hcopy, hpixel, -, hother⟩ :=
    (copyShmDamage_exact sampleNv12 (by decide) sampleNv12_valid.distinctBytes UInt8.ofNat
      (fun _ => 255) [⟨1, 1, 1, 1⟩]).resolve_left fun hfailed =>
        absurd (congrArg Prod.fst hfailed) (by decide)
  refine ⟨dst', hcopy, ?_, ?_, ?_, ?_⟩
  · exact hpixel ⟨0, 1, 1⟩ 1 1 (by decide) ⟨by decide, by decide, by decide⟩ (by decide)
  · exact hpixel ⟨1, 0, 0⟩ 1 1 (by decide) ⟨by decide, by decide, by decide⟩ (by decide)
  · exact hpixel ⟨1, 0, 1⟩ 1 1 (by decide) ⟨by decide, by decide, by decide⟩ (by decide)
  · refine hother 6 ?_
    rintro ⟨plane, row, col⟩ ⟨hp, hr, hc⟩ hidx
    have hlt : plane = 0 ∨ plane = 1 := by
      simp only [planeCount, sampleNv12, if_true] at hp
      omega
    rcases hlt with rfl | rfl <;>
      simp only [dstIndex, planeDstOffset, planeDstStride, planeRows, planeBpp, isChroma,
        sampleNv12, formatBytesPerPixel] at hr hc hidx <;> simp at hr hc hidx <;> omega

/-- Rows of two pixels whose places in the destination overlap by one pixel. -/
def narrowRows : ShmCopyLayout where
  poolSize := 16
  destSize := 12
  format := 0
  offset := 0
  width := 2
  srcStride := 8
  dstStride := 4
  dstPlane1Offset := 0
  dstPlane1Stride := 0
  height := 2

/-- Only the damaged part of a row has to fit in the destination stride, so a destination
whose rows overlap is not refused: here the second rectangle overwrites a byte of the first. -/
theorem overlapping_rows_overwritten :
    narrowRows.planeCount = 1 ∧
      narrowRows.HasByte ⟨0, 0, 4⟩ ∧ narrowRows.BytePixel ⟨0, 0, 4⟩ 1 0 ∧
      damageHasPixel [⟨1, 0, 1, 1⟩, ⟨0, 1, 1, 1⟩] 1 0 ∧
      (narrowRows.copyShmDamage UInt8.ofNat (fun _ => 0)
        [⟨1, 0, 1, 1⟩, ⟨0, 1, 1, 1⟩]).1 = true ∧
      (narrowRows.copyShmDamage UInt8.ofNat (fun _ => 0)
        [⟨1, 0, 1, 1⟩, ⟨0, 1, 1, 1⟩]).2 (narrowRows.dstIndex ⟨0, 0, 4⟩) ≠
          UInt8.ofNat (narrowRows.srcIndex ⟨0, 0, 4⟩) :=
  ⟨by decide, by decide, ⟨by decide, by decide, by decide⟩, by decide, by decide, by decide⟩

end ShmCopyLayout
end Sommelier
