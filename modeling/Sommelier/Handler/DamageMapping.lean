import Mathlib.Data.Rat.Floor
import Mathlib.Tactic.FieldSimp
import Mathlib.Tactic.Linarith
import Mathlib.Tactic.Positivity
import Sommelier.Handler.Compositor
import Sommelier.Lib.Rounding

/-!
# Damage in surface coordinates

The conversion of buffer damage and of full damage to the surface. Each result of its
floating-point arithmetic passes through a rounding `fl`: that of `f64` for what the proxy
computes, and `id` to read the arithmetic as exact rationals. Beside it stands what a surface
shows by the rules of `wl_surface` and `wp_viewport`: the transformed buffer is divided by the
buffer scale, cropped to the source rectangle and scaled to the destination.

## Main definitions

* `roundF64`: the rounding of `f64`.
* `DamageAxis`, `DamageAxis.mapDamage`: the conversion on one axis.
* `mapBufferDamage`, `fullSurfaceDamage`: the conversions of the commit.
* `SurfaceState.Shows`: the buffer pixel shown at a point of the surface.
* `ViewKind.MapsDamage`: which surfaces have their buffer damage converted soundly.
-/
namespace Sommelier

/-! ## Numbers -/

/-- The rounding of `f64`, whose numbers have 53 digits. No value of the conversions leaves the
normal range of its exponents. -/
def roundF64 (value : ℚ) : ℚ := roundTo 53 value

/-- `f64::trunc`. -/
def truncate (value : ℚ) : ℤ := if value < 0 then ⌈value⌉ else ⌊value⌋

/-- `saturating_i32`, and the cast `as i32`. -/
def saturatingI32 (value : ℚ) : ℤ :=
  if value ≤ DamageEdges.i32Min then DamageEdges.i32Min
  else if DamageEdges.i32Max ≤ value then DamageEdges.i32Max
  else truncate value

@[simp] theorem truncate_intCast (n : ℤ) : truncate n = n := by
  unfold truncate
  split_ifs <;> simp

theorem saturatingI32_intCast (n : ℤ) :
    saturatingI32 n = max DamageEdges.i32Min (min n DamageEdges.i32Max) := by
  unfold saturatingI32
  simp only [truncate_intCast, Int.cast_le, DamageEdges.i32Min, DamageEdges.i32Max]
  split_ifs <;> omega

/-! ## One axis -/

/-- What converts a coordinate on one axis: the buffer scale and size, origin and length of
the viewport source in 1/256, and the viewport destination. -/
structure DamageAxis where
  scale : ℤ
  contents : ℤ
  source : Option (ℤ × ℤ)
  destination : Option ℤ
  deriving DecidableEq, Repr

namespace DamageAxis

/-- Buffer pixels per unit of the surface, as the conversion computes them. -/
def bufferScale (fl : ℚ → ℚ) (a : DamageAxis) : ℚ :=
  let scale : ℚ := (max a.scale 1 : ℤ)
  let contents : ℚ := (max a.contents 1 : ℤ)
  match a.destination with
  | none => scale
  | some destination =>
    let scale := fl (scale * fl (contents / destination))
    match a.source with
    | none => scale
    | some (_, length) => fl (scale * fl (fl (length / 256) / contents))

/-- The crop origin the conversion subtracts, in whole surface units. -/
def bufferOffset (a : DamageAxis) : ℤ :=
  match a.source with
  | none => 0
  | some (origin, _) => origin.tdiv 256

/-- Where an edge of buffer damage comes to lie on the surface. -/
def edge (fl : ℚ → ℚ) (a : DamageAxis) (value : ℤ) : ℚ :=
  fl (fl (clampDamageEdge value - a.bufferOffset : ℤ) / a.bufferScale fl)

/-- Start and length of damage on the surface. One buffer pixel is added on each side. -/
def mapDamage (fl : ℚ → ℚ) (a : DamageAxis) (start size : ℤ) : ℤ × ℤ :=
  let x0 := a.edge fl (start - 1)
  let x1 := a.edge fl (start + size + 1)
  let left := max (truncate (min x0 x1)) damageMin
  let right := min ⌈max x0 x1⌉ damageMax
  (saturatingI32 left, saturatingI32 (max (fl (right - left : ℤ)) 1))

/-- The values the conversion gives up on. -/
def isMalformed (a : DamageAxis) : Bool :=
  a.destination.any fun destination =>
    decide (destination ≤ 0) || a.source.any fun source => decide (source.2 ≤ 0)

end DamageAxis

/-! ## Surfaces -/

def transformedExtent (transform width height : ℤ) : ℤ × ℤ :=
  if transform = 1 ∨ transform = 3 ∨ transform = 5 ∨ transform = 7 then (height, width)
  else (width, height)

def logicalTransformedExtent (fl : ℚ → ℚ) (transform width height bufferScale : ℤ) : ℤ × ℤ :=
  let (width, height) := transformedExtent transform width height
  let scale : ℚ := (max bufferScale 1 : ℤ)
  (saturatingI32 (max ⌈fl (width / scale)⌉ 1 : ℤ), saturatingI32 (max ⌈fl (height / scale)⌉ 1 : ℤ))

namespace SurfaceState

/-- The viewport, when it crops or scales. -/
def croppingViewport (s : SurfaceState) : Option ViewportState :=
  s.viewport.filter fun viewport => !viewport.isIdentity

/-- The size a viewport gives to the surface. -/
def viewportExtent (s : SurfaceState) : Option (ℤ × ℤ) :=
  match s.croppingViewport with
  | some { destination := some destination, .. } => some destination
  | some { source := some (_, _, width, height), .. } =>
    some (max (width.tdiv 256) 1, max (height.tdiv 256) 1)
  | _ => none

def xAxis (s : SurfaceState) (width : ℤ) : DamageAxis where
  scale := s.currentBufferScale
  contents := width
  source := (s.croppingViewport.bind (·.source)).map fun source => (source.1, source.2.2.1)
  destination := (s.croppingViewport.bind (·.destination)).map (·.1)

def yAxis (s : SurfaceState) (height : ℤ) : DamageAxis where
  scale := s.currentBufferScale
  contents := height
  source := (s.croppingViewport.bind (·.source)).map fun source => (source.2.1, source.2.2.2)
  destination := (s.croppingViewport.bind (·.destination)).map (·.2)

end SurfaceState

/-- `map_buffer_damage`. A transformed buffer damages the whole surface. -/
def mapBufferDamage (fl : ℚ → ℚ) (rect : DamageRect) (surface : SurfaceState)
    (bufferWidth bufferHeight : ℤ) : DamageRect :=
  if rect.width ≤ 0 ∨ rect.height ≤ 0 then { x := 0, y := 0, width := 0, height := 0 }
  else if surface.currentBufferTransform ≠ 0 then
    let (width, height) := surface.viewportExtent.getD
      (logicalTransformedExtent fl surface.currentBufferTransform (max bufferWidth 1)
        (max bufferHeight 1) surface.currentBufferScale)
    { x := 0, y := 0, width, height }
  else
    let xAxis := surface.xAxis bufferWidth
    let yAxis := surface.yAxis bufferHeight
    if xAxis.isMalformed || yAxis.isMalformed then
      { x := 0, y := 0, width := max bufferWidth 1, height := max bufferHeight 1 }
    else
      let (x, width) := xAxis.mapDamage fl rect.x rect.width
      let (y, height) := yAxis.mapDamage fl rect.y rect.height
      { x, y, width, height }

/-- `full_surface_damage`. -/
def fullSurfaceDamage (fl : ℚ → ℚ) (surface : SurfaceState) (bufferWidth bufferHeight : ℤ) :
    DamageRect :=
  let width := max bufferWidth 1
  let height := max bufferHeight 1
  let scale : ℚ := (max surface.currentBufferScale 1 : ℤ)
  let (width, height) := surface.viewportExtent.getD
    (if surface.currentBufferTransform ≠ 0 then
      logicalTransformedExtent fl surface.currentBufferTransform width height
        surface.currentBufferScale
    else (saturatingI32 ⌈fl (width / scale)⌉, saturatingI32 ⌈fl (height / scale)⌉))
  { x := 0, y := 0, width, height }

/-- The conversions of the proxy. -/
def DamageMapping.f64 : DamageMapping where
  mapBufferDamage := Sommelier.mapBufferDamage roundF64
  fullSurfaceDamage := Sommelier.fullSurfaceDamage roundF64

/-! ## What a surface shows -/

namespace DamageAxis

/-- Origin of the shown part of the contents, in surface units before the destination. -/
def origin (a : DamageAxis) : ℚ :=
  match a.source with
  | none => 0
  | some (origin, _) => origin / 256

/-- Length of the shown part of the contents. -/
def length (a : DamageAxis) : ℚ :=
  match a.source with
  | none => a.contents / a.scale
  | some (_, length) => length / 256

/-- Length of the surface. -/
def extent (a : DamageAxis) : ℚ :=
  match a.destination with
  | none => a.length
  | some destination => destination

/-- The place in the buffer shown at a point of the surface. -/
def contentAt (a : DamageAxis) (p : ℚ) : ℚ := a.scale * (a.origin + p * (a.length / a.extent))

/-- The point lies on the surface and shows a part of the pixel. -/
def ShowsPixel (a : DamageAxis) (p : ℚ) (i : ℤ) : Prop :=
  0 ≤ p ∧ p < a.extent ∧ i ≤ a.contentAt p ∧ a.contentAt p < i + 1

instance (a : DamageAxis) (p : ℚ) (i : ℤ) : Decidable (a.ShowsPixel p i) :=
  inferInstanceAs (Decidable (_ ∧ _ ∧ _ ∧ _))

/-- A source that sets the size of the surface has a whole length. -/
def IsWhole (a : DamageAxis) : Prop :=
  ∀ origin length, a.source = some (origin, length) → a.destination = none → 256 ∣ length

/-- A buffer whose size is a multiple of the scale, a source inside the scaled buffer, whole
where it sets the surface size, and a destination in the damage range. -/
structure Valid (a : DamageAxis) : Prop where
  contents_pos : 0 < a.contents
  contents_le : a.contents ≤ damageMax
  scale_pos : 0 < a.scale
  scale_dvd : a.scale ∣ a.contents
  source_inside : ∀ origin length, a.source = some (origin, length) →
    0 ≤ origin ∧ 0 < length ∧ a.scale * (origin + length) ≤ 256 * a.contents
  source_whole : a.IsWhole
  destination_pos : ∀ destination, a.destination = some destination →
    0 < destination ∧ destination ≤ damageMax

/-- The crop origin in buffer pixels exceeds its whole surface units by at most one pixel. -/
def CropWithinPixel (scale origin : ℤ) : Prop := scale * origin ≤ 256 * (origin / 256 + 1)

instance (scale origin : ℤ) : Decidable (CropWithinPixel scale origin) :=
  inferInstanceAs (Decidable (_ ≤ _))

end DamageAxis

/-- Where a pixel of the buffer lands in the transformed contents, which have the given size. -/
def transformPixel (transform width height i j : ℤ) : ℤ × ℤ :=
  if transform = 1 then (width - 1 - j, i)
  else if transform = 2 then (width - 1 - i, height - 1 - j)
  else if transform = 3 then (j, height - 1 - i)
  else if transform = 4 then (width - 1 - i, j)
  else if transform = 5 then (j, i)
  else if transform = 6 then (i, height - 1 - j)
  else if transform = 7 then (width - 1 - j, height - 1 - i)
  else (i, j)

/-- The point lies in the rectangle. -/
def DamageRect.HasPoint (rect : DamageRect) (px py : ℚ) : Prop :=
  rect.x ≤ px ∧ px < rect.x + rect.width ∧ rect.y ≤ py ∧ py < rect.y + rect.height

instance (rect : DamageRect) (px py : ℚ) : Decidable (rect.HasPoint px py) :=
  inferInstanceAs (Decidable (_ ∧ _ ∧ _ ∧ _))

namespace SurfaceState

/-- The transform is one of the eight, and both axes are valid for the transformed buffer. -/
structure ViewValid (s : SurfaceState) (bufferWidth bufferHeight : ℤ) : Prop where
  transform : 0 ≤ s.currentBufferTransform ∧ s.currentBufferTransform ≤ 7
  x_valid :
    (s.xAxis (transformedExtent s.currentBufferTransform bufferWidth bufferHeight).1).Valid
  y_valid :
    (s.yAxis (transformedExtent s.currentBufferTransform bufferWidth bufferHeight).2).Valid

/-- The point lies on the surface and shows a part of the buffer pixel. -/
def Shows (s : SurfaceState) (bufferWidth bufferHeight : ℤ) (px py : ℚ) (i j : ℤ) : Prop :=
  let (width, height) := transformedExtent s.currentBufferTransform bufferWidth bufferHeight
  let (u, v) := transformPixel s.currentBufferTransform width height i j
  (s.xAxis width).ShowsPixel px u ∧ (s.yAxis height).ShowsPixel py v

/-- Every point that shows a damaged pixel lies in the damage told to the host, with the
arithmetic of the conversion read as exact. -/
def CoversDamage (s : SurfaceState) (bufferWidth bufferHeight : ℤ) (rect : DamageRect) : Prop :=
  ∀ px py i j, 0 ≤ i → i < bufferWidth → 0 ≤ j → j < bufferHeight → rect.HasPixel i j →
    s.Shows bufferWidth bufferHeight px py i j →
    (mapBufferDamage id rect s bufferWidth bufferHeight).HasPoint px py

end SurfaceState

/-- What decides how the damage of a surface is converted: its scale and transform, the crop
origin if it has one, and whether it is scaled to a destination. -/
structure ViewKind where
  scale : ℤ
  transform : ℤ
  origin : Option (ℤ × ℤ)
  hasDestination : Bool
  deriving DecidableEq, Repr

def SurfaceState.viewKind (s : SurfaceState) : ViewKind where
  scale := s.currentBufferScale
  transform := s.currentBufferTransform
  origin := (s.croppingViewport.bind (·.source)).map fun source => (source.1, source.2.1)
  hasDestination := (s.croppingViewport.bind (·.destination)).isSome

/-- The conversion ignores the buffer scale of a crop origin, which one pixel of slack makes
up for, and applies it twice when a viewport scales the uncropped buffer. -/
def ViewKind.MapsDamage (k : ViewKind) : Prop :=
  k.transform ≠ 0 ∨
    match k.origin with
    | none => k.hasDestination = false ∨ k.scale = 1
    | some (x, y) => DamageAxis.CropWithinPixel k.scale x ∧ DamageAxis.CropWithinPixel k.scale y

end Sommelier
