import Sommelier.Handler.DamageRounding

/-!
# Damage told to the host

A commit maps its damage to the surface, coalesces it and sends what is left as rectangles.
They cover the declared damage, or the whole surface once a region overflowed. They are
rectangles a host can add up, unless a conversion leaves the damage range.

## Main definitions

* `DamageRegion.Holds`: a rectangle is accounted for in a bounded region.
* `DamageRect.FitsI32`: position, size and far edges are representable.
* `SurfaceState.DamageFits`: the condition on declared buffer damage.
* `hostDamage`, `hostDamage_covers`, `hostDamage_fits_iff`: the rectangles of a commit.
-/
namespace Sommelier

/-! ## Bounded regions -/

/-- The region lists the rectangle, or it is full. -/
def DamageRegion.Holds (region : DamageRegion) (rect : DamageRect) : Prop :=
  region.isFull = true ∨ rect ∈ region.toRects

namespace DamageRegion
variable {region : DamageRegion} {rect : DamageRect}

theorem holds_push (hw : 0 < rect.width) (hh : 0 < rect.height) :
    (region.push rect).Holds rect := by
  have hpos : ¬ (rect.width ≤ 0 ∨ rect.height ≤ 0) := by omega
  cases region with
  | empty => simp [push, hpos, Holds, toRects]
  | full => simp [push, Holds, isFull]
  | rects pending =>
    simp only [push, reduceCtorEq, false_or, if_neg hpos]
    split_ifs
    · simp [Holds, isFull]
    · simp [Holds, toRects]

theorem Holds.push {other : DamageRect} (h : region.Holds other) :
    (region.push rect).Holds other := by
  unfold DamageRegion.push
  split_ifs
  · exact h
  · cases region with
    | empty => simp [Holds, toRects, isFull] at h
    | full => simp [Holds, isFull]
    | rects pending =>
      dsimp only
      split_ifs
      · simp [Holds, isFull]
      · simp only [Holds, isFull, toRects, Bool.false_eq_true, false_or] at h ⊢
        exact List.mem_append_left _ h

end DamageRegion

/-! ## Rectangles of the host -/

/-- The rectangle has a positive size, and its position and far edges are values of `i32`. -/
structure DamageRect.FitsI32 (rect : DamageRect) : Prop where
  width_pos : 0 < rect.width
  height_pos : 0 < rect.height
  left : DamageEdges.i32Min ≤ rect.x
  top : DamageEdges.i32Min ≤ rect.y
  right : rect.x + rect.width ≤ DamageEdges.i32Max
  bottom : rect.y + rect.height ≤ DamageEdges.i32Max

theorem DamageRect.hasPoint_iff {rect : DamageRect} {px py : ℚ} :
    rect.HasPoint px py ↔ rect.HasPixel ⌊px⌋ ⌊py⌋ := by
  simp only [HasPoint, HasPixel, Int.le_floor, Int.floor_lt]
  push_cast
  exact Iff.rfl

theorem DamageRect.HasPixel.pos {rect : DamageRect} {x y : ℤ} (h : rect.HasPixel x y) :
    0 < rect.width ∧ 0 < rect.height := by
  simp only [HasPixel] at h
  omega

theorem mem_of_mem_swapRemove {α : Type} {l : List α} {index : ℕ} {a : α}
    (h : a ∈ swapRemove l index) : a ∈ l := by
  unfold swapRemove at h
  split at h
  · exact h
  · rename_i last hlast
    rcases List.mem_or_eq_of_mem_set (List.mem_of_mem_dropLast h) with h | rfl
    · exact h
    · exact List.mem_of_getLast? hlast

theorem mem_of_mem_mergeCandidate {fuel : ℕ} {merged : List DamageRect} {candidate : DamageEdges}
    {rect : DamageRect} (h : rect ∈ (mergeCandidate fuel merged candidate).1) : rect ∈ merged := by
  induction fuel generalizing merged candidate with
  | zero => exact h
  | succ fuel ih =>
    unfold mergeCandidate at h
    split at h
    · exact h
    · split at h
      · exact h
      · exact mem_of_mem_swapRemove (ih h)

/-- A rectangle after coalescing was declared, or its edges were checked. -/
theorem mem_coalesceDamageRects {damage : List DamageRect} {rect : DamageRect}
    (h : rect ∈ coalesceDamageRects damage) :
    rect ∈ damage ∨ ∃ e : DamageEdges, e.fitI32 = true ∧ rect = e.toRect := by
  have hstep : ∀ {merged : List DamageRect} {declared : DamageRect},
      rect ∈ coalesceRect merged declared →
        rect ∈ merged ∨ rect = declared ∨ ∃ e : DamageEdges, e.fitI32 = true ∧ rect = e.toRect := by
    intro merged declared hmem
    unfold coalesceRect at hmem
    split at hmem
    · exact .inl hmem
    · rename_i candidate _
      dsimp only at hmem
      split_ifs at hmem with hfit
      · rcases List.mem_append.mp hmem with hold | hnew
        · exact .inl (mem_of_mem_mergeCandidate hold)
        · exact .inr (.inr ⟨_, hfit, List.mem_singleton.mp hnew⟩)
      · rcases List.mem_append.mp hmem with hold | hnew
        · exact .inl (mem_of_mem_mergeCandidate hold)
        · exact .inr (.inl (List.mem_singleton.mp hnew))
  have hfold : ∀ (rects merged : List DamageRect), rect ∈ rects.foldl coalesceRect merged →
      rect ∈ merged ∨ rect ∈ rects ∨ ∃ e : DamageEdges, e.fitI32 = true ∧ rect = e.toRect := by
    intro rects
    induction rects with
    | nil => exact fun merged hmem => .inl hmem
    | cons declared rects ih =>
      intro merged hmem
      rcases ih _ hmem with hmerged | hrects | hchecked
      · rcases hstep hmerged with hold | rfl | hchecked
        · exact .inl hold
        · exact .inr (.inl List.mem_cons_self)
        · exact .inr (.inr hchecked)
      · exact .inr (.inl (List.mem_cons_of_mem _ hrects))
      · exact .inr (.inr hchecked)
  simpa using hfold damage [] h

theorem fitsI32_toRect {e : DamageEdges} (hfit : e.fitI32 = true) (hw : 0 < e.toRect.width)
    (hh : 0 < e.toRect.height) : e.toRect.FitsI32 := by
  simp only [DamageEdges.fitI32, Bool.and_eq_true, decide_eq_true_eq] at hfit
  simp only [DamageEdges.toRect] at hw hh ⊢
  constructor <;> dsimp only <;> omega

/-- The rectangles a commit tells the host, from the rectangles on the surface. -/
def visibleDamage (mapped : List DamageRect) : List DamageRect :=
  (coalesceDamageRects mapped).filter fun rect =>
    decide (0 < rect.width) && decide (0 < rect.height)

theorem visibleDamage_covers {mapped : List DamageRect} {rect : DamageRect} {px py : ℚ}
    (hrect : rect ∈ mapped) (hpoint : rect.HasPoint px py) :
    ∃ told ∈ visibleDamage mapped, told.HasPoint px py := by
  obtain ⟨told, htold, hpixel⟩ :=
    coalesceDamageRects_covers ⟨rect, hrect, DamageRect.hasPoint_iff.mp hpoint⟩
  refine ⟨told, List.mem_filter.mpr ⟨htold, ?_⟩, DamageRect.hasPoint_iff.mpr hpixel⟩
  simpa using hpixel.pos

/-- Only rectangles on the surface that do not fit can lead to ones that do not. -/
theorem visibleDamage_fits {mapped : List DamageRect}
    (hmapped : ∀ rect ∈ mapped, 0 < rect.width → 0 < rect.height → rect.FitsI32) :
    ∀ told ∈ visibleDamage mapped, told.FitsI32 := by
  intro told htold
  obtain ⟨htold, hpos⟩ := List.mem_filter.mp htold
  simp only [Bool.and_eq_true, decide_eq_true_eq] at hpos
  rcases mem_coalesceDamageRects htold with hdeclared | ⟨e, hfit, rfl⟩
  · exact hmapped told hdeclared hpos.1 hpos.2
  · exact fitsI32_toRect hfit hpos.1 hpos.2

/-! ## Rectangles on the surface -/

theorem mapSurfaceDamage_covers {rect : DamageRect} {px py : ℚ} (hpoint : rect.HasPoint px py)
    (hx : damageMin ≤ px ∧ px < damageMax) (hy : damageMin ≤ py ∧ py < damageMax) :
    (mapSurfaceDamage rect).HasPoint px py := by
  rw [DamageRect.hasPoint_iff] at hpoint ⊢
  obtain ⟨hx0, hx1⟩ := hx
  obtain ⟨hy0, hy1⟩ := hy
  rw [← Int.le_floor] at hx0 hy0
  rw [← Int.floor_lt] at hx1 hy1
  have hpos := hpoint.pos
  unfold mapSurfaceDamage
  rw [if_neg (by omega)]
  simp only [DamageRect.HasPixel, clampDamageEdge] at hpoint ⊢
  omega

theorem mapSurfaceDamage_fits (rect : DamageRect) (hw : 0 < (mapSurfaceDamage rect).width) :
    (mapSurfaceDamage rect).FitsI32 := by
  unfold mapSurfaceDamage at hw ⊢
  split_ifs at hw ⊢
  · simp at hw
  · constructor <;>
      simp only [clampDamageEdge, damageMin, damageMax, DamageEdges.i32Min, DamageEdges.i32Max] <;>
      omega

namespace DamageAxis
variable {a : DamageAxis}

/-- The start of the damage stays below the largest value of `i32` on the surface, by more than
half the distance of the numbers of `f64` there. -/
def StartFits (a : DamageAxis) (start : ℤ) : Prop :=
  ((clampDamageEdge (start - 1) - a.bufferOffset : ℤ) : ℚ) <
    (DamageEdges.i32Max - 1 / 2 ^ 23) * a.bufferScale roundF64

instance (a : DamageAxis) (start : ℤ) : Decidable (a.StartFits start) :=
  inferInstanceAs (Decidable (_ < _))

theorem truncate_lt_iff {value : ℚ} {n : ℤ} (hn : 0 < n) : truncate value < n ↔ value < n := by
  unfold truncate
  split_ifs with hneg
  · have hceil : ⌈value⌉ ≤ 0 := Int.ceil_le.mpr (by simpa using hneg.le)
    have hpos : (0 : ℚ) < n := by exact_mod_cast hn
    exact ⟨fun _ => hneg.trans hpos, fun _ => by omega⟩
  · exact Int.floor_lt

theorem startFits_iff (ha : a.FitsI32) (hm : a.isMalformed = false) (start : ℤ) :
    a.StartFits start ↔ truncate (a.edge roundF64 (start - 1)) < DamageEdges.i32Max := by
  rw [truncate_lt_iff (by decide), ha.edge_f64, roundF64_lt_i32Max_iff,
    div_lt_iff₀ (bufferScale_pos roundF64_pos hm), StartFits]

theorem edge_mono (ha : a.FitsI32) (hm : a.isMalformed = false) {left right : ℤ}
    (h : left ≤ right) : a.edge roundF64 left ≤ a.edge roundF64 right := by
  have hk := bufferScale_pos roundF64_pos hm
  have hclamp : clampDamageEdge left ≤ clampDamageEdge right := by
    simp only [clampDamageEdge]
    omega
  rw [ha.edge_f64, ha.edge_f64]
  refine roundF64_mono ?_
  gcongr

/-- Damage on one axis starts and ends within `i32`, or it is the last pixel of `i32`. -/
theorem mapDamage_fits (ha : a.FitsI32) (hm : a.isMalformed = false) (start : ℤ) {size : ℤ}
    (hsize : 0 < size) :
    0 < (a.mapDamage roundF64 start size).2 ∧
      DamageEdges.i32Min ≤ (a.mapDamage roundF64 start size).1 ∧
      (a.StartFits start → (a.mapDamage roundF64 start size).1 +
        (a.mapDamage roundF64 start size).2 ≤ DamageEdges.i32Max) ∧
      (¬ a.StartFits start → (a.mapDamage roundF64 start size).1 = DamageEdges.i32Max) := by
  have hordered : a.edge roundF64 (start - 1) ≤ a.edge roundF64 (start + size + 1) :=
    edge_mono ha hm (by omega)
  simp only [mapDamage_f64, min_eq_left hordered, max_eq_right hordered]
  rw [startFits_iff ha hm]
  generalize truncate _ = left
  generalize Int.ceil (_ : ℚ) = right
  simp only [damageMin, damageMax, DamageEdges.i32Min, DamageEdges.i32Max]
  omega

end DamageAxis

namespace SurfaceState
variable {s : SurfaceState} {bufferWidth bufferHeight : ℤ}

/-- The size a viewport gives to a surface is one of `i32`. -/
theorem FitsI32.viewportExtent_le (hs : s.FitsI32 bufferWidth bufferHeight) {w h : ℤ}
    (hextent : s.viewportExtent = some (w, h)) :
    w ≤ DamageEdges.i32Max ∧ h ≤ DamageEdges.i32Max := by
  unfold viewportExtent at hextent
  cases hview : s.croppingViewport with
  | none => simp [hview] at hextent
  | some viewport =>
    obtain ⟨source, destination⟩ := viewport
    cases destination with
    | some destination =>
      obtain ⟨w', h'⟩ := destination
      obtain ⟨rfl, rfl⟩ : w' = w ∧ h' = h := by simpa [hview] using hextent
      exact ⟨(hs.x.destination w' (by simp [xAxis, hview])).2,
        (hs.y.destination h' (by simp [yAxis, hview])).2⟩
    | none =>
      cases source with
      | none => simp [hview] at hextent
      | some source =>
        obtain ⟨x, y, l, m⟩ := source
        obtain ⟨rfl, rfl⟩ : max (l.tdiv 256) 1 = w ∧ max (m.tdiv 256) 1 = h := by
          simpa [hview] using hextent
        have hunits : ∀ {n : ℤ}, DamageEdges.InI32 n → max (n.tdiv 256) 1 ≤ DamageEdges.i32Max := by
          intro n hn
          rw [Int.tdiv_eq_ediv, Int.sign_eq_one_of_pos (by norm_num)]
          simp only [DamageEdges.InI32, DamageEdges.i32Min, DamageEdges.i32Max] at hn ⊢
          split_ifs <;> omega
        exact ⟨hunits (hs.x.source x l (by simp [xAxis, hview])).2,
          hunits (hs.y.source y m (by simp [yAxis, hview])).2⟩

/-- The damage is empty, or replaced by a whole surface or buffer, or starts within `i32`. -/
def DamageFits (s : SurfaceState) (bufferWidth bufferHeight : ℤ) (rect : DamageRect) : Prop :=
  (rect.width ≤ 0 ∨ rect.height ≤ 0) ∨ s.currentBufferTransform ≠ 0 ∨
    ((s.xAxis bufferWidth).isMalformed || (s.yAxis bufferHeight).isMalformed) = true ∨
    (s.xAxis bufferWidth).StartFits rect.x ∧ (s.yAxis bufferHeight).StartFits rect.y

instance (s : SurfaceState) (bufferWidth bufferHeight : ℤ) (rect : DamageRect) :
    Decidable (s.DamageFits bufferWidth bufferHeight rect) :=
  inferInstanceAs (Decidable (_ ∨ _ ∨ _ ∨ _ ∧ _))

theorem fitsI32_of_size {w h : ℤ} (hw : 0 < w) (hh : 0 < h) (hwmax : w ≤ DamageEdges.i32Max)
    (hhmax : h ≤ DamageEdges.i32Max) :
    DamageRect.FitsI32 { x := 0, y := 0, width := w, height := h } := by
  constructor <;> simp only [DamageEdges.i32Min, zero_add] <;> omega

theorem saturatingI32_le (n : ℤ) : saturatingI32 n ≤ DamageEdges.i32Max := by
  rw [saturatingI32_intCast]
  exact max_le (by decide) (min_le_right _ _)

theorem fullSurfaceDamage_fits (hs : s.FitsI32 bufferWidth bufferHeight)
    (hw : 0 < (fullSurfaceDamage roundF64 s bufferWidth bufferHeight).width)
    (hh : 0 < (fullSurfaceDamage roundF64 s bufferWidth bufferHeight).height) :
    (fullSurfaceDamage roundF64 s bufferWidth bufferHeight).FitsI32 := by
  unfold fullSurfaceDamage at hw hh ⊢
  cases hextent : s.viewportExtent with
  | some extent =>
    obtain ⟨w, h⟩ := extent
    simp only [hextent, Option.getD_some] at hw hh ⊢
    exact fitsI32_of_size hw hh (hs.viewportExtent_le hextent).1
        (hs.viewportExtent_le hextent).2
  | none =>
    simp only [hextent, Option.getD_none] at hw hh ⊢
    split_ifs at hw hh ⊢ <;>
      exact fitsI32_of_size hw hh (saturatingI32_le _) (saturatingI32_le _)

/-- Damage of the buffer fits on the surface exactly when it meets the condition. -/
theorem mapBufferDamage_fits_iff (hs : s.FitsI32 bufferWidth bufferHeight) (rect : DamageRect) :
    ((0 < (mapBufferDamage roundF64 rect s bufferWidth bufferHeight).width →
      0 < (mapBufferDamage roundF64 rect s bufferWidth bufferHeight).height →
        (mapBufferDamage roundF64 rect s bufferWidth bufferHeight).FitsI32) ↔
      s.DamageFits bufferWidth bufferHeight rect) := by
  unfold DamageFits mapBufferDamage
  by_cases hempty : rect.width ≤ 0 ∨ rect.height ≤ 0
  · simp [hempty]
  by_cases htransform : s.currentBufferTransform ≠ 0
  · rw [if_neg hempty, if_pos htransform]
    refine iff_of_true (fun hw hh => ?_) (.inr (.inl htransform))
    cases hextent : s.viewportExtent with
    | some extent =>
      obtain ⟨w, h⟩ := extent
      simp only [hextent, Option.getD_some] at hw hh ⊢
      exact fitsI32_of_size hw hh (hs.viewportExtent_le hextent).1
        (hs.viewportExtent_le hextent).2
    | none =>
      simp only [hextent, Option.getD_none] at hw hh ⊢
      exact fitsI32_of_size hw hh (saturatingI32_le _) (saturatingI32_le _)
  by_cases hmalformed :
    ((s.xAxis bufferWidth).isMalformed || (s.yAxis bufferHeight).isMalformed) = true
  · rw [if_neg hempty, if_neg htransform, if_pos hmalformed]
    exact iff_of_true (fun hw hh => fitsI32_of_size hw hh (max_le hs.x.contents.2 (by decide))
      (max_le hs.y.contents.2 (by decide))) (.inr (.inr (.inl hmalformed)))
  · rw [if_neg hempty, if_neg htransform, if_neg hmalformed, or_iff_right hempty,
      or_iff_right htransform, or_iff_right hmalformed]
    rw [Bool.not_eq_true, Bool.or_eq_false_iff] at hmalformed
    obtain ⟨hwpos, hxmin, hxfits, hxlast⟩ :=
      DamageAxis.mapDamage_fits hs.x hmalformed.1 rect.x (not_le.mp (not_or.mp hempty).1)
    obtain ⟨hhpos, hymin, hyfits, hylast⟩ :=
      DamageAxis.mapDamage_fits hs.y hmalformed.2 rect.y (not_le.mp (not_or.mp hempty).2)
    constructor
    · intro hfits
      have hright := (hfits hwpos hhpos).right
      have hbottom := (hfits hwpos hhpos).bottom
      dsimp only at hright hbottom
      constructor
      · by_contra hx
        rw [hxlast hx] at hright
        omega
      · by_contra hy
        rw [hylast hy] at hbottom
        omega
    · rintro ⟨hx, hy⟩ - -
      exact ⟨hwpos, hhpos, hxmin, hymin, hxfits hx, hyfits hy⟩

/-- The point lies on the surface and in the damage range. -/
def InExtent (s : SurfaceState) (bufferWidth bufferHeight : ℤ) (px py : ℚ) : Prop :=
  let (width, height) :=
    transformedExtent s.currentBufferTransform (max bufferWidth 1) (max bufferHeight 1)
  (0 ≤ px ∧ px < (s.xAxis width).extent ∧ px < damageMax) ∧
    0 ≤ py ∧ py < (s.yAxis height).extent ∧ py < damageMax

theorem lt_saturatingI32 {p : ℚ} {n : ℤ} (hp : p < n) (hmax : p < damageMax) :
    p < saturatingI32 n := by
  rw [← Int.floor_lt] at hp hmax ⊢
  rw [saturatingI32_intCast]
  simp only [DamageEdges.i32Min, DamageEdges.i32Max, damageMax] at *
  omega

/-- Without a viewport, a point of the surface lies before its rounded size. -/
theorem lt_ceil_of_extent {a : DamageAxis} (hsource : a.source = none)
    (hdest : a.destination = none) {p : ℚ} (hp : 0 ≤ p) (hlt : p < a.extent)
    (hpos : 0 < a.contents) (hmax : a.contents ≤ DamageEdges.i32Max) :
    p < ⌈roundF64 (a.contents / (max a.scale 1 : ℤ))⌉ := by
  have heq : a.extent = a.contents / a.scale := by
    simp [DamageAxis.extent, DamageAxis.length, hsource, hdest]
  have hscale : 0 < a.scale := by
    by_contra hneg
    have hcontents : (0 : ℚ) ≤ a.contents := by exact_mod_cast hpos.le
    have hscale : (a.scale : ℚ) ≤ 0 := by exact_mod_cast not_lt.mp hneg
    have hdiv := div_nonpos_of_nonneg_of_nonpos hcontents hscale
    rw [heq] at hlt
    linarith
  rw [max_eq_left (by omega)]
  rw [heq] at hlt
  refine hlt.trans_le (div_le_ceil_roundTo hpos.le ?_ hscale)
  simp only [DamageEdges.i32Max] at hmax
  omega

/-- The damage of a whole surface reaches to its end. -/
theorem fullSurfaceDamage_covers {px py : ℚ} (hs : s.FitsI32 bufferWidth bufferHeight)
    (hwhole : ∀ width height, (s.xAxis width).IsWhole ∧ (s.yAxis height).IsWhole)
    (hin : s.InExtent bufferWidth bufferHeight px py) :
    (fullSurfaceDamage roundF64 s bufferWidth bufferHeight).HasPoint px py := by
  unfold InExtent at hin
  unfold fullSurfaceDamage
  rcases htransformed : transformedExtent s.currentBufferTransform (max bufferWidth 1)
    (max bufferHeight 1) with ⟨width, height⟩
  obtain ⟨⟨hw, hwmax⟩, hh, hhmax⟩ : (0 < width ∧ width ≤ DamageEdges.i32Max) ∧
      0 < height ∧ height ≤ DamageEdges.i32Max := by
    have hwidth : bufferWidth ≤ DamageEdges.i32Max := hs.x.contents.2
    have hheight : bufferHeight ≤ DamageEdges.i32Max := hs.y.contents.2
    unfold transformedExtent at htransformed
    simp only [DamageEdges.i32Max] at hwidth hheight ⊢
    split_ifs at htransformed <;>
    · obtain ⟨rfl, rfl⟩ := Prod.mk.inj htransformed
      omega
  simp only [htransformed] at hin
  obtain ⟨⟨hx0, hx1, hxmax⟩, hy0, hy1, hymax⟩ := hin
  cases hextent : s.viewportExtent with
  | some extent =>
    obtain ⟨w, h⟩ := extent
    obtain ⟨hwle, hhle⟩ := extent_le_of_viewportExtent (hwhole width height).1
      (hwhole width height).2 hextent
    simp only [Option.getD_some]
    exact ⟨by simpa using hx0, by simpa using hx1.trans_le hwle, by simpa using hy0,
      by simpa using hy1.trans_le hhle⟩
  | none =>
    obtain ⟨⟨hxs, hxd⟩, hys, hyd⟩ := @axes_of_viewportExtent s width height hextent
    have hxceil : px < ⌈roundF64 (width / (max s.currentBufferScale 1 : ℤ))⌉ :=
      lt_ceil_of_extent hxs hxd hx0 hx1 hw hwmax
    have hyceil : py < ⌈roundF64 (height / (max s.currentBufferScale 1 : ℤ))⌉ :=
      lt_ceil_of_extent hys hyd hy0 hy1 hh hhmax
    have hmax : ∀ {p : ℚ} {n : ℤ}, p < n → p < (max n 1 : ℤ) := by
      intro p n hp
      exact hp.trans_le (by exact_mod_cast le_max_left n 1)
    simp only [Option.getD_none]
    split_ifs with htransform
    · rw [logicalTransformedExtent, htransformed]
      exact ⟨by simpa using hx0, by simpa using lt_saturatingI32 (hmax hxceil) hxmax,
        by simpa using hy0, by simpa using lt_saturatingI32 (hmax hyceil) hymax⟩
    · rw [not_not] at htransform
      rw [htransform] at htransformed
      obtain ⟨rfl, rfl⟩ : max bufferWidth 1 = width ∧ max bufferHeight 1 = height :=
        Prod.mk.inj (by simpa [transformedExtent] using htransformed)
      exact ⟨by simpa using hx0, by simpa using lt_saturatingI32 hxceil hxmax,
        by simpa using hy0, by simpa using lt_saturatingI32 hyceil hymax⟩

end SurfaceState

/-! ## The rectangles of a commit -/

/-- The rectangles a commit tells the host. -/
def hostDamage (surface : SurfaceState) (bufferWidth bufferHeight : ℤ)
    (surfaceDamage bufferDamage : List DamageRect) (forceFullDamage : Bool) : List DamageRect :=
  visibleDamage (
    (if forceFullDamage then [fullSurfaceDamage roundF64 surface bufferWidth bufferHeight]
      else []) ++ surfaceDamage.map mapSurfaceDamage ++
      bufferDamage.map fun rect => mapBufferDamage roundF64 rect surface bufferWidth bufferHeight)

/-- The size a commit converts damage with. -/
def Context.contentSize (c : Context) (surface : SurfaceState) : ℤ × ℤ :=
  ((surface.currentBufferId.bind c.bufferDimensions).or surface.currentBufferDimensions).getD (1, 1)

theorem buildSurfaceCommitMessages_eq_some {c : Context} {s : ℕ}
    {surfaceDamage bufferDamage : List DamageRect} {state : SurfaceState} {full : Bool}
    {messages : List HostTraffic} :
    buildSurfaceCommitMessages .f64 c s surfaceDamage bufferDamage state full = some messages ↔
      ∃ host, c.shadowTable.getHostId s = some host ∧
        messages = (hostDamage state (c.contentSize state).1 (c.contentSize state).2 surfaceDamage
          bufferDamage full).map (.damage host) ++ [.commit host] := by
  unfold buildSurfaceCommitMessages
  cases c.shadowTable.getHostId s with
  | none => simp
  | some host =>
    simp only [Option.some.injEq, exists_eq_left', eq_comm (a := messages)]
    exact Iff.rfl

section HostDamage
variable {surface : SurfaceState} {bufferWidth bufferHeight : ℤ}
  {surfaceDamage bufferDamage : List DamageRect} {full : Bool}

theorem hostDamage_covers_surface {rect : DamageRect} {px py : ℚ} (hrect : rect ∈ surfaceDamage)
    (hpoint : rect.HasPoint px py) (hx : damageMin ≤ px ∧ px < damageMax)
    (hy : damageMin ≤ py ∧ py < damageMax) :
    ∃ told ∈ hostDamage surface bufferWidth bufferHeight surfaceDamage bufferDamage full,
      told.HasPoint px py := by
  refine visibleDamage_covers ?_ (mapSurfaceDamage_covers hpoint hx hy)
  exact List.mem_append_left _ (List.mem_append_right _ (List.mem_map_of_mem hrect))

theorem hostDamage_covers_buffer {rect : DamageRect} {px py : ℚ} (hrect : rect ∈ bufferDamage)
    (hpoint : (mapBufferDamage roundF64 rect surface bufferWidth bufferHeight).HasPoint px py) :
    ∃ told ∈ hostDamage surface bufferWidth bufferHeight surfaceDamage bufferDamage full,
      told.HasPoint px py := by
  refine visibleDamage_covers ?_ hpoint
  exact List.mem_append_right _ (List.mem_map_of_mem hrect)

theorem hostDamage_covers_full {px py : ℚ} (hs : surface.FitsI32 bufferWidth bufferHeight)
    (hfull : full = true)
    (hwhole : ∀ width height, (surface.xAxis width).IsWhole ∧ (surface.yAxis height).IsWhole)
    (hin : surface.InExtent bufferWidth bufferHeight px py) :
    ∃ told ∈ hostDamage surface bufferWidth bufferHeight surfaceDamage bufferDamage full,
      told.HasPoint px py := by
  refine visibleDamage_covers ?_ (SurfaceState.fullSurfaceDamage_covers hs hwhole hin)
  simp [hfull]

/-- All rectangles fit exactly when all buffer damage does: damage that does not fit is sent
as it is. -/
theorem hostDamage_fits_iff (hs : surface.FitsI32 bufferWidth bufferHeight) :
    (∀ told ∈ hostDamage surface bufferWidth bufferHeight surfaceDamage bufferDamage full,
      told.FitsI32) ↔
      ∀ rect ∈ bufferDamage, surface.DamageFits bufferWidth bufferHeight rect := by
  constructor
  · intro hfits rect hrect
    rw [← SurfaceState.mapBufferDamage_fits_iff hs]
    intro hw hh
    generalize hmapped :
      mapBufferDamage roundF64 rect surface bufferWidth bufferHeight = mapped at hw hh ⊢
    -- Every corner pixel of the damage is told, and the rectangles told are within bounds.
    have hpixel : ∀ x y, mapped.HasPixel x y →
        (DamageEdges.i32Min ≤ x ∧ DamageEdges.i32Min ≤ y) ∧
          x < DamageEdges.i32Max ∧ y < DamageEdges.i32Max := by
      intro x y hxy
      have hpoint : mapped.HasPoint x y := DamageRect.hasPoint_iff.mpr (by simpa using hxy)
      rw [← hmapped] at hpoint
      obtain ⟨told, htold, hpoint⟩ := hostDamage_covers_buffer hrect hpoint
      obtain ⟨-, -, hleft, htop, hright, hbottom⟩ := hfits told htold
      simp only [DamageRect.hasPoint_iff, Int.floor_intCast, DamageRect.HasPixel] at hpoint
      omega
    have hfirst := hpixel mapped.x mapped.y (by simp only [DamageRect.HasPixel]; omega)
    have hlast := hpixel (mapped.x + mapped.width - 1) (mapped.y + mapped.height - 1)
      (by simp only [DamageRect.HasPixel]; omega)
    exact ⟨hw, hh, hfirst.1.1, hfirst.1.2, by omega, by omega⟩
  · intro hfits
    refine visibleDamage_fits fun rect hrect hw hh => ?_
    simp only [List.mem_append, List.mem_map] at hrect
    rcases hrect with (hfull | ⟨rect, -, rfl⟩) | ⟨rect, hmem, rfl⟩
    · split_ifs at hfull
      · obtain rfl := List.mem_singleton.mp hfull
        exact SurfaceState.fullSurfaceDamage_fits hs hw hh
      · simp at hfull
    · exact mapSurfaceDamage_fits rect hw
    · exact (SurfaceState.mapBufferDamage_fits_iff hs rect).mpr (hfits rect hmem) hw hh

end HostDamage

end Sommelier
