import Mathlib.Algebra.Order.Archimedean.Basic
import Sommelier.Handler.DamageCoverage

/-!
# The conversion of damage in floating point

The numbers that go into a conversion are values of `i32`, and none of its results comes near the
ends of the exponents of `f64`. A rounding that is only right in the normal range therefore
converts damage as `roundF64` does. Whole numbers are exact; a far edge is a rounded quotient.

## Main definitions

* `DamageAxis.FitsI32`, `SurfaceState.FitsI32`: the numbers a conversion reads are `i32` values.
* `IsF64`: a rounding that is right in the normal range.

## Main results

* `mapBufferDamage_eq_f64`, `fullSurfaceDamage_eq_f64`: the conversions depend on no more of it.
* `DamageAxis.mapDamage_f64`: the conversion on one axis.
* `roundF64_lt_i32Max_iff`: which quotients are rounded to less than `i32::MAX`.
-/
namespace Sommelier

/-! ## The numbers of a conversion -/

theorem DamageEdges.InI32.inBinades {n : ℤ} (hn : DamageEdges.InI32 n) :
    InBinades 31 (n : ℚ) := by
  refine InBinades.intCast (abs_le.mpr ?_)
  simp only [DamageEdges.InI32, DamageEdges.i32Min, DamageEdges.i32Max] at hn
  omega

theorem DamageEdges.InI32.max_one {n : ℤ} (hn : DamageEdges.InI32 n) :
    DamageEdges.InI32 (max n 1) := by
  simp only [DamageEdges.InI32, DamageEdges.i32Min, DamageEdges.i32Max] at hn ⊢
  omega

/-- The numbers of the axis are values of `i32`. -/
structure DamageAxis.FitsI32 (a : DamageAxis) : Prop where
  scale : DamageEdges.InI32 a.scale
  contents : DamageEdges.InI32 a.contents
  source : ∀ origin length, a.source = some (origin, length) →
    DamageEdges.InI32 origin ∧ DamageEdges.InI32 length
  destination : ∀ destination, a.destination = some destination → DamageEdges.InI32 destination

/-- The scale, the size of the buffer and the viewport are values of `i32`. -/
structure SurfaceState.FitsI32 (s : SurfaceState) (bufferWidth bufferHeight : ℤ) : Prop where
  x : (s.xAxis bufferWidth).FitsI32
  y : (s.yAxis bufferHeight).FitsI32

/-! ## Roundings -/

/-- The rounding is that of `f64` for every number in its normal range. -/
def IsF64 (fl : ℚ → ℚ) : Prop := ∀ x, InBinades 1022 x → fl x = roundF64 x

theorem roundF64_pos (x : ℚ) (hx : 0 < x) : 0 < roundF64 x := roundTo_pos (by norm_num) hx

theorem roundF64_mono {x y : ℚ} (h : x ≤ y) : roundF64 x ≤ roundF64 y :=
  roundTo_mono (by norm_num) h

theorem roundF64_intCast {n : ℤ} (h : |n| < 2 ^ 53) : roundF64 n = n := roundTo_intCast h

/-- Differences of edges are exact where it matters. -/
theorem max_roundF64 {n : ℤ} (h : n ≤ damageMax - damageMin) :
    max (roundF64 n) 1 = (max n 1 : ℤ) := by
  rcases le_or_gt 0 n with hpos | hneg
  · rw [roundF64_intCast]
    · push_cast
      rfl
    · rw [abs_of_nonneg hpos]
      simp only [damageMin, damageMax] at h
      omega
  · have hle := roundF64_mono (Int.cast_le (R := ℚ).mpr hneg.le)
    rw [Int.cast_zero, roundF64, roundF64, roundTo_zero] at hle
    rw [max_eq_right (by omega : n ≤ 1), Int.cast_one, max_eq_right]
    exact hle.trans zero_le_one

/-- Below `i32::MAX` the numbers of `f64` are `2 ^ -22` apart. -/
theorem roundF64_lt_i32Max_iff (x : ℚ) :
    roundF64 x < DamageEdges.i32Max ↔ x < DamageEdges.i32Max - 1 / 2 ^ 23 := by
  have hround := roundTo_lt_iff (K := ℚ) (p := 52) (m := 2147483647 * 2 ^ 22) (e := -22) (x := x)
    ⟨2147483647 * 2 ^ 21, by norm_num⟩ (by norm_num) (by norm_num)
  have hmax : (((2147483647 * 2 ^ 22 : ℤ) : ℚ)) * 2 ^ (-22 : ℤ) = DamageEdges.i32Max := by
    norm_num [DamageEdges.i32Max]
  have hhalf : (((2147483647 * 2 ^ 22 : ℤ) : ℚ) - 1 / 2) * 2 ^ (-22 : ℤ) =
      DamageEdges.i32Max - 1 / 2 ^ 23 := by
    norm_num [DamageEdges.i32Max]
  rw [hmax, hhalf] at hround
  exact hround

section Normal
variable {fl : ℚ → ℚ} {x : ℚ} {k : ℕ}

/-- A result within the normal range is rounded as in `f64`, and stays within its binades. -/
theorem IsF64.rounded (hfl : IsF64 fl) (hx : InBinades k x) (hk : k ≤ 1022) :
    fl x = roundF64 x ∧ InBinades k (roundF64 x) :=
  ⟨hfl x (hx.mono hk), hx.rounded (by norm_num)⟩

theorem abs_truncate_le (x : ℚ) : |(truncate x : ℚ)| ≤ |x| := by
  unfold truncate
  split_ifs with hneg
  · have hceil : ⌈x⌉ ≤ 0 := Int.ceil_le.mpr (by simpa using hneg.le)
    rw [abs_of_nonpos (by exact_mod_cast hceil), abs_of_neg hneg]
    exact neg_le_neg (Int.le_ceil x)
  · rw [not_lt] at hneg
    have hfloor : 0 ≤ ⌊x⌋ := Int.floor_nonneg.mpr hneg
    rw [abs_of_nonneg (by exact_mod_cast hfloor), abs_of_nonneg hneg]
    exact Int.floor_le x

namespace DamageAxis
variable {a : DamageAxis}

theorem FitsI32.bufferScale (ha : a.FitsI32) (hfl : IsF64 fl) :
    a.bufferScale fl = a.bufferScale roundF64 ∧ InBinades 163 (a.bufferScale roundF64) := by
  have hscale := ha.scale.max_one.inBinades
  have hcontents := ha.contents.max_one.inBinades
  unfold DamageAxis.bufferScale
  cases hdest : a.destination with
  | none => exact ⟨rfl, hscale.mono (by norm_num)⟩
  | some destination =>
    obtain ⟨hratioEq, hratio⟩ :=
      hfl.rounded (hcontents.div (ha.destination _ hdest).inBinades) (by norm_num)
    obtain ⟨hscaledEq, hscaled⟩ := hfl.rounded (hscale.mul hratio) (by norm_num)
    dsimp only
    rw [hratioEq, hscaledEq]
    cases hsource : a.source with
    | none => exact ⟨rfl, hscaled.mono (by norm_num)⟩
    | some source =>
      obtain ⟨origin, length⟩ := source
      have hunit : InBinades 8 (256 : ℚ) := by
        exact_mod_cast InBinades.intCast (K := ℚ) (n := 256) (k := 8) (by norm_num)
      obtain ⟨hlengthEq, hlength⟩ :=
        hfl.rounded ((ha.source _ _ hsource).2.inBinades.div hunit) (by norm_num)
      obtain ⟨hcropEq, hcrop⟩ := hfl.rounded (hlength.div hcontents) (by norm_num)
      obtain ⟨hresultEq, hresult⟩ := hfl.rounded (hscaled.mul hcrop) (by norm_num)
      dsimp only
      rw [hlengthEq, hcropEq, hresultEq]
      exact ⟨rfl, hresult⟩

/-- The whole number an edge is divided from is exact. -/
theorem FitsI32.abs_edge_le (ha : a.FitsI32) (value : ℤ) :
    |clampDamageEdge value - a.bufferOffset| ≤ 2 ^ 31 := by
  have hoffset : |a.bufferOffset| ≤ 2 ^ 23 := by
    unfold bufferOffset
    cases hsource : a.source with
    | none => norm_num
    | some source =>
      obtain ⟨origin, length⟩ := source
      have hin := (ha.source _ _ hsource).1
      simp only [DamageEdges.InI32, DamageEdges.i32Min, DamageEdges.i32Max] at hin
      dsimp only
      rw [abs_le, Int.tdiv_eq_ediv, Int.sign_eq_one_of_pos (by norm_num)]
      split_ifs <;> omega
  rw [abs_le] at hoffset ⊢
  simp only [clampDamageEdge, damageMin, damageMax]
  omega

theorem FitsI32.edge (ha : a.FitsI32) (hfl : IsF64 fl) (value : ℤ) :
    a.edge fl value = a.edge roundF64 value ∧ InBinades 194 (a.edge roundF64 value) := by
  obtain ⟨hscaleEq, hscale⟩ := ha.bufferScale hfl
  obtain ⟨hwholeEq, hwhole⟩ :=
    hfl.rounded (InBinades.intCast (K := ℚ) (ha.abs_edge_le value)) (by norm_num)
  obtain ⟨hedgeEq, hedge⟩ := hfl.rounded (hwhole.div hscale) (by norm_num)
  unfold DamageAxis.edge
  rw [hscaleEq, hwholeEq, hedgeEq]
  exact ⟨rfl, hedge⟩

theorem FitsI32.mapDamage (ha : a.FitsI32) (hfl : IsF64 fl) (start size : ℤ) :
    a.mapDamage fl start size = a.mapDamage roundF64 start size := by
  obtain ⟨heq0, hx0⟩ := ha.edge hfl (start - 1)
  obtain ⟨heq1, hx1⟩ := ha.edge hfl (start + size + 1)
  unfold DamageAxis.mapDamage
  dsimp only
  rw [heq0, heq1]
  set x0 := a.edge roundF64 (start - 1)
  set x1 := a.edge roundF64 (start + size + 1)
  -- The difference of the cut off edges is no larger than the edges.
  have hmin : |min x0 x1| ≤ 2 ^ 194 := by
    rcases min_choice x0 x1 with h | h <;> rw [h]
    · exact hx0.abs_le
    · exact hx1.abs_le
  have hmax : -2 ^ 194 ≤ max x0 x1 := (abs_le.mp hx0.abs_le).1.trans (le_max_left x0 x1)
  have hleft : truncate (min x0 x1) ≤ 2 ^ 194 := by
    have hle := (le_abs_self _).trans ((abs_truncate_le _).trans hmin)
    exact_mod_cast hle
  have hright : -2 ^ 194 ≤ ⌈max x0 x1⌉ := by
    have hle := hmax.trans (Int.le_ceil _)
    exact_mod_cast hle
  have hdiff : |min ⌈max x0 x1⌉ damageMax - max (truncate (min x0 x1)) damageMin| ≤ 2 ^ 195 := by
    rw [abs_le]
    simp only [damageMin, damageMax]
    omega
  rw [(hfl.rounded (InBinades.intCast (K := ℚ) hdiff) (by norm_num)).1]

end DamageAxis

namespace SurfaceState
variable {s : SurfaceState} {bufferWidth bufferHeight : ℤ}

/-- A size in units of the surface. -/
theorem FitsI32.fl_div (hs : s.FitsI32 bufferWidth bufferHeight) (hfl : IsF64 fl) {n : ℤ}
    (hn : DamageEdges.InI32 n) : fl ((max n 1 : ℤ) / (max s.currentBufferScale 1 : ℤ)) =
      roundF64 ((max n 1 : ℤ) / (max s.currentBufferScale 1 : ℤ)) := by
  have hscale : DamageEdges.InI32 s.currentBufferScale := hs.x.scale
  exact (hfl.rounded (hn.max_one.inBinades.div hscale.max_one.inBinades) (by norm_num)).1

theorem FitsI32.logicalTransformedExtent (hs : s.FitsI32 bufferWidth bufferHeight)
    (hfl : IsF64 fl) (transform : ℤ) :
    logicalTransformedExtent fl transform (max bufferWidth 1) (max bufferHeight 1)
        s.currentBufferScale =
      logicalTransformedExtent roundF64 transform (max bufferWidth 1) (max bufferHeight 1)
        s.currentBufferScale := by
  have hwidth := hs.fl_div hfl (n := bufferWidth) hs.x.contents
  have hheight := hs.fl_div hfl (n := bufferHeight) hs.y.contents
  unfold Sommelier.logicalTransformedExtent transformedExtent
  split_ifs <;> simp only [hwidth, hheight]

/-- Buffer damage is converted as in `f64` by every rounding that is right in the normal range. -/
theorem mapBufferDamage_eq_f64 (hs : s.FitsI32 bufferWidth bufferHeight) (hfl : IsF64 fl)
    (rect : DamageRect) : mapBufferDamage fl rect s bufferWidth bufferHeight =
      mapBufferDamage roundF64 rect s bufferWidth bufferHeight := by
  unfold mapBufferDamage
  dsimp only
  rw [hs.logicalTransformedExtent hfl, hs.x.mapDamage hfl, hs.y.mapDamage hfl]

theorem fullSurfaceDamage_eq_f64 (hs : s.FitsI32 bufferWidth bufferHeight) (hfl : IsF64 fl) :
    fullSurfaceDamage fl s bufferWidth bufferHeight =
      fullSurfaceDamage roundF64 s bufferWidth bufferHeight := by
  unfold fullSurfaceDamage
  dsimp only
  rw [hs.logicalTransformedExtent hfl, hs.fl_div hfl (n := bufferWidth) hs.x.contents,
    hs.fl_div hfl (n := bufferHeight) hs.y.contents]

end SurfaceState
end Normal

/-! ## The conversion of the proxy -/

namespace DamageAxis
variable {a : DamageAxis}

/-- An edge is one rounded quotient. -/
theorem FitsI32.edge_f64 (ha : a.FitsI32) (value : ℤ) : a.edge roundF64 value =
    roundF64 ((clampDamageEdge value - a.bufferOffset : ℤ) / a.bufferScale roundF64) := by
  rw [DamageAxis.edge, roundF64_intCast ((ha.abs_edge_le value).trans_lt (by norm_num))]

theorem mapDamage_f64 (a : DamageAxis) (start size : ℤ) : a.mapDamage roundF64 start size =
    let x0 := a.edge roundF64 (start - 1)
    let x1 := a.edge roundF64 (start + size + 1)
    let left := max (truncate (min x0 x1)) damageMin
    let right := min ⌈max x0 x1⌉ damageMax
    (max DamageEdges.i32Min (min left DamageEdges.i32Max),
      max DamageEdges.i32Min (min (max (right - left) 1) DamageEdges.i32Max)) :=
  mapDamage_eq (fun _ => max_roundF64) start size

end DamageAxis

end Sommelier
