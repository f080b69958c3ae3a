import Sommelier.Handler.DamageMapping

/-!
# Damage covers what changed

The conversion of buffer damage loses no changed pixel exactly on the surfaces of
`ViewKind.MapsDamage`: at buffer scale 1, without a viewport, under a transform, and where the
crop origin leaves the conversion within its pixel of slack.

## Main results

* `DamageAxis.mapDamage_covers`: the conversion on one axis, when it is sound.
* `coversDamage_iff`: the surfaces whose buffer damage is covered.
-/
namespace Sommelier

/-! ## Rounding -/

theorem truncate_le {value p : ℚ} (hp : 0 ≤ p) (h : value ≤ p) : (truncate value : ℚ) ≤ p := by
  unfold truncate
  split_ifs with hneg
  · have hceil : ⌈value⌉ ≤ 0 := Int.ceil_le.mpr (by simpa using hneg.le)
    exact (Int.cast_le.mpr hceil).trans (by simpa using hp)
  · exact (Int.floor_le value).trans h

theorem le_truncate {value : ℚ} {n : ℤ} (hn : 0 ≤ n) (h : n ≤ value) : n ≤ truncate value := by
  unfold truncate
  split_ifs with hneg
  · have hpos : (0 : ℚ) ≤ n := by exact_mod_cast hn
    linarith
  · exact Int.le_floor.mpr h

namespace DamageAxis
variable {a : DamageAxis} {fl : ℚ → ℚ}

/-! ## The conversion -/

theorem bufferScale_pos (hfl : ∀ x, 0 < x → 0 < fl x) (hm : a.isMalformed = false) :
    0 < a.bufferScale fl := by
  have hscale : (0 : ℚ) < (max a.scale 1 : ℤ) := by
    exact_mod_cast lt_of_lt_of_le one_pos (le_max_right a.scale 1)
  have hcontents : (0 : ℚ) < (max a.contents 1 : ℤ) := by
    exact_mod_cast lt_of_lt_of_le one_pos (le_max_right a.contents 1)
  unfold bufferScale
  cases hdest : a.destination with
  | none => exact hscale
  | some destination =>
    simp only [isMalformed, hdest, Option.any_some, Bool.or_eq_false_iff,
      decide_eq_false_iff_not, not_le] at hm
    have hd : (0 : ℚ) < destination := by exact_mod_cast hm.1
    have hscaled := hfl _ (mul_pos hscale (hfl _ (div_pos hcontents hd)))
    cases hsource : a.source with
    | none => exact hscaled
    | some source =>
      obtain ⟨origin, length⟩ := source
      have hl : (0 : ℚ) < length := by
        have hlength := hm.2
        simp only [hsource, Option.any_some, decide_eq_false_iff_not, not_le] at hlength
        exact_mod_cast hlength
      have hunits := hfl _ (div_pos hl (by norm_num : (0 : ℚ) < 256))
      exact hfl _ (mul_pos hscaled (hfl _ (div_pos hunits hcontents)))

/-- The conversion in whole numbers. Its only rounding that matters is that of the edges. -/
theorem mapDamage_eq (hfl : ∀ n : ℤ, n ≤ damageMax - damageMin → max (fl n) 1 = (max n 1 : ℤ))
    (start size : ℤ) : a.mapDamage fl start size =
      let x0 := a.edge fl (start - 1)
      let x1 := a.edge fl (start + size + 1)
      let left := max (truncate (min x0 x1)) damageMin
      let right := min ⌈max x0 x1⌉ damageMax
      (max DamageEdges.i32Min (min left DamageEdges.i32Max),
        max DamageEdges.i32Min (min (max (right - left) 1) DamageEdges.i32Max)) := by
  unfold mapDamage
  dsimp only
  rw [hfl _ (by omega), saturatingI32_intCast, saturatingI32_intCast]

/-- The conversion in exact arithmetic. -/
theorem mapDamage_id (a : DamageAxis) (start size : ℤ) : a.mapDamage id start size =
    let x0 : ℚ := (clampDamageEdge (start - 1) - a.bufferOffset : ℤ) / a.bufferScale id
    let x1 : ℚ := (clampDamageEdge (start + size + 1) - a.bufferOffset : ℤ) / a.bufferScale id
    let left := max (truncate (min x0 x1)) damageMin
    let right := min ⌈max x0 x1⌉ damageMax
    (max DamageEdges.i32Min (min left DamageEdges.i32Max),
      max DamageEdges.i32Min (min (max (right - left) 1) DamageEdges.i32Max)) :=
  mapDamage_eq (fun n _ => by rw [id, Int.cast_max, Int.cast_one]) start size

/-! ## What an axis shows -/

/-- The crop origin in buffer pixels. -/
def cropStart (a : DamageAxis) : ℚ := a.scale * a.origin

theorem Valid.scale_cast_pos (hv : a.Valid) : (0 : ℚ) < a.scale := by exact_mod_cast hv.scale_pos

theorem Valid.contents_cast_pos (hv : a.Valid) : (0 : ℚ) < a.contents := by
  exact_mod_cast hv.contents_pos

theorem Valid.origin_nonneg (hv : a.Valid) : 0 ≤ a.origin := by
  unfold origin
  split
  · exact le_refl _
  · rename_i o l hsource
    have ho : (0 : ℚ) ≤ o := by exact_mod_cast (hv.source_inside o l hsource).1
    positivity

theorem Valid.length_pos (hv : a.Valid) : 0 < a.length := by
  have hcontents := hv.contents_cast_pos
  have hscale := hv.scale_cast_pos
  unfold length
  split
  · positivity
  · rename_i o l hsource
    have hl : (0 : ℚ) < l := by exact_mod_cast (hv.source_inside o l hsource).2.1
    positivity

/-- The shown part ends within the buffer. -/
theorem Valid.crop_end_le (hv : a.Valid) : a.cropStart + a.scale * a.length ≤ a.contents := by
  have hscale := hv.scale_cast_pos
  unfold cropStart origin length
  cases hsource : a.source with
  | none =>
    simp only [mul_zero, zero_add]
    exact (mul_div_cancel₀ _ hscale.ne').le
  | some source =>
    obtain ⟨o, l⟩ := source
    have hinside : (a.scale * (o + l) : ℚ) ≤ 256 * a.contents := by
      exact_mod_cast (hv.source_inside o l hsource).2.2
    simp only
    linarith

theorem Valid.extent_pos (hv : a.Valid) : 0 < a.extent := by
  unfold extent
  split
  · exact hv.length_pos
  · rename_i d hd
    exact_mod_cast (hv.destination_pos d hd).1

theorem Valid.extent_le (hv : a.Valid) : a.extent ≤ damageMax := by
  unfold extent
  split
  · have hend := hv.crop_end_le
    have hstart : 0 ≤ a.cropStart := mul_nonneg hv.scale_cast_pos.le hv.origin_nonneg
    have hscale : (1 : ℚ) ≤ a.scale := by exact_mod_cast hv.scale_pos
    have hlength : a.length ≤ a.scale * a.length := le_mul_of_one_le_left hv.length_pos.le hscale
    have hcontents : (a.contents : ℚ) ≤ damageMax := by exact_mod_cast hv.contents_le
    linarith
  · rename_i d hd
    exact_mod_cast (hv.destination_pos d hd).2

/-- The axes on which the conversion uses the scale of the surface. -/
def MapsDamage (a : DamageAxis) : Prop :=
  match a.source with
  | none => a.destination = none ∨ a.scale = 1
  | some (origin, _) => CropWithinPixel a.scale origin

/-- Buffer pixels per unit of the surface. -/
theorem Valid.contentAt_eq (hv : a.Valid)
    (hscale : a.source = none → a.destination = none ∨ a.scale = 1) (p : ℚ) :
    a.contentAt p = a.cropStart + p * a.bufferScale id := by
  have hpos := hv.scale_cast_pos
  have hcontents := hv.contents_cast_pos
  have hmaxScale : max a.scale 1 = a.scale := max_eq_left hv.scale_pos
  have hmaxContents : max a.contents 1 = a.contents := max_eq_left hv.contents_pos
  have hlength := hv.length_pos
  unfold contentAt cropStart bufferScale extent
  simp only [id_eq]
  cases hd : a.destination with
  | none =>
    simp only [hmaxScale, div_self hlength.ne']
    ring
  | some d =>
    have hdpos : (0 : ℚ) < d := by exact_mod_cast (hv.destination_pos d hd).1
    cases hsource : a.source with
    | none =>
      have hone : a.scale = 1 := (hscale hsource).resolve_left (by simp [hd])
      simp only [length, hsource, hmaxContents, hone]
      norm_num
    | some source =>
      simp only [length, hsource, hmaxScale, hmaxContents]
      field_simp

theorem Valid.not_isMalformed (hv : a.Valid) : a.isMalformed = false := by
  unfold isMalformed
  cases hd : a.destination with
  | none => rfl
  | some d =>
    have hdpos := (hv.destination_pos d hd).1
    cases hsource : a.source with
    | none => simp [hdpos]
    | some source =>
      have hl := (hv.source_inside source.1 source.2 hsource).2.1
      simp [hdpos, hl]

theorem Valid.bufferScale_pos (hv : a.Valid) : 0 < a.bufferScale id :=
  DamageAxis.bufferScale_pos (fun _ => id) hv.not_isMalformed

/-! ## The sound conversions -/

/-- The origin that is subtracted lies below the crop origin, by at most a pixel. -/
theorem Valid.bufferOffset_le (hv : a.Valid) :
    0 ≤ a.bufferOffset ∧ (a.bufferOffset : ℚ) ≤ a.cropStart := by
  unfold bufferOffset cropStart origin
  cases hsource : a.source with
  | none => simp
  | some source =>
    obtain ⟨o, l⟩ := source
    have ho := (hv.source_inside o l hsource).1
    have hscale : (1 : ℚ) ≤ a.scale := by exact_mod_cast hv.scale_pos
    have hdiv : o.tdiv 256 = o / 256 := Int.tdiv_eq_ediv_of_nonneg ho
    have hfloor : ((o / 256 : ℤ) : ℚ) ≤ o / 256 := by
      have hmul : 256 * (o / 256) ≤ o := by omega
      have hcast : (256 * (o / 256 : ℤ) : ℚ) ≤ o := by exact_mod_cast hmul
      linarith
    have hnonneg : (0 : ℚ) ≤ o / 256 := by
      have : (0 : ℚ) ≤ o := by exact_mod_cast ho
      positivity
    simp only [hdiv]
    refine ⟨by omega, hfloor.trans (le_mul_of_one_le_left hnonneg hscale)⟩

theorem MapsDamage.cropStart_le (hm : a.MapsDamage) (hv : a.Valid) :
    a.cropStart ≤ a.bufferOffset + 1 := by
  unfold MapsDamage at hm
  unfold bufferOffset cropStart origin
  cases hsource : a.source with
  | none => simp
  | some source =>
    obtain ⟨o, l⟩ := source
    have ho := (hv.source_inside o l hsource).1
    have hdiv : o.tdiv 256 = o / 256 := Int.tdiv_eq_ediv_of_nonneg ho
    simp only [hsource] at hm
    have hcrop : (a.scale * o : ℚ) ≤ 256 * ((o / 256 : ℤ) + 1) := by exact_mod_cast hm
    simp only [hdiv]
    linarith

/-- A point that shows a damaged pixel lies in the converted damage. -/
theorem mapDamage_covers (hv : a.Valid) (hm : a.MapsDamage) {start size i : ℤ} {p : ℚ}
    (hshows : a.ShowsPixel p i) (hpos : 0 ≤ i) (hcontents : i < a.contents) (hstart : start ≤ i)
    (hend : i < start + size) :
    (a.mapDamage id start size).1 ≤ p ∧
      p < (a.mapDamage id start size).1 + (a.mapDamage id start size).2 := by
  obtain ⟨hp, hextent, hlow, hhigh⟩ := hshows
  have hk := hv.bufferScale_pos
  have hscale : a.source = none → a.destination = none ∨ a.scale = 1 := by
    intro hsource
    simpa [MapsDamage, hsource] using hm
  rw [hv.contentAt_eq hscale] at hlow hhigh
  obtain ⟨hoffset, hoffsetLe⟩ := hv.bufferOffset_le
  have hcrop := hm.cropStart_le hv
  have hpmax : p < damageMax := hextent.trans_le hv.extent_le
  have hbound := hv.contents_le
  rw [mapDamage_id]
  set x0 : ℚ := (clampDamageEdge (start - 1) - a.bufferOffset : ℤ) / a.bufferScale id with hx0
  set x1 : ℚ := (clampDamageEdge (start + size + 1) - a.bufferOffset : ℤ) / a.bufferScale id
    with hx1
  -- The left edge, from the pixel of slack.
  have hleft : (truncate (min x0 x1) : ℚ) ≤ p := by
    refine truncate_le hp ((min_le_left _ _).trans ?_)
    rw [hx0, div_le_iff₀ hk]
    have hclamp : clampDamageEdge (start - 1) ≤ i - 1 ∨ clampDamageEdge (start - 1) ≤ 0 := by
      simp only [clampDamageEdge, damageMin, damageMax]
      omega
    rcases hclamp with hclamp | hclamp
    · have hcast : ((clampDamageEdge (start - 1) : ℤ) : ℚ) ≤ i - 1 := by exact_mod_cast hclamp
      push_cast
      linarith
    · have hcast : ((clampDamageEdge (start - 1) : ℤ) : ℚ) ≤ 0 := by exact_mod_cast hclamp
      have hoff : (0 : ℚ) ≤ a.bufferOffset := by exact_mod_cast hoffset
      have hpk : 0 ≤ p * a.bufferScale id := by positivity
      push_cast
      linarith
  -- The right edge.
  have hright : p < (⌈max x0 x1⌉ : ℚ) := by
    refine lt_of_lt_of_le ?_ ((le_max_right x0 x1).trans (Int.le_ceil _))
    rw [hx1, lt_div_iff₀ hk]
    have hclamp : i + 1 ≤ clampDamageEdge (start + size + 1) := by
      simp only [clampDamageEdge, damageMin, damageMax] at hbound ⊢
      omega
    have hcast : (i + 1 : ℚ) ≤ (clampDamageEdge (start + size + 1) : ℤ) := by exact_mod_cast hclamp
    push_cast
    linarith
  set left : ℤ := max (truncate (min x0 x1)) damageMin with hleftDef
  set right : ℤ := min ⌈max x0 x1⌉ damageMax with hrightDef
  have hleftLe : (left : ℚ) ≤ p := by
    have hmin : (damageMin : ℚ) ≤ p := le_trans (by norm_num [damageMin]) hp
    rw [hleftDef, Int.cast_max]
    exact max_le hleft hmin
  have hltRight : p < right := by
    rw [hrightDef, Int.cast_min]
    exact lt_min hright hpmax
  have hlt : left < right := by exact_mod_cast hleftLe.trans_lt hltRight
  have hleftMin : damageMin ≤ left := le_max_right _ _
  have hrightMax : right ≤ damageMax := min_le_right _ _
  have hexact : max DamageEdges.i32Min (min left DamageEdges.i32Max) = left ∧
      max DamageEdges.i32Min (min (max (right - left) 1) DamageEdges.i32Max) = right - left := by
    simp only [DamageEdges.i32Min, DamageEdges.i32Max, damageMin, damageMax] at *
    omega
  change ((max DamageEdges.i32Min (min left DamageEdges.i32Max) : ℤ) : ℚ) ≤ p ∧
    p < (max DamageEdges.i32Min (min left DamageEdges.i32Max) : ℤ) +
      (max DamageEdges.i32Min (min (max (right - left) 1) DamageEdges.i32Max) : ℤ)
  rw [hexact.1, hexact.2]
  refine ⟨hleftLe, ?_⟩
  push_cast
  linarith

/-! ## The unsound conversions -/

theorem clampDamageEdge_of_range {value : ℤ} (hmin : damageMin ≤ value) (hmax : value ≤ damageMax) :
    clampDamageEdge value = value := by
  simp only [clampDamageEdge]
  omega

/-- Converted damage starts behind every point its grown start is behind of. -/
theorem le_mapDamage_start (hk : 0 < a.bufferScale id) {start size n : ℤ} (hn : 0 ≤ n)
    (hnmax : n ≤ damageMax) (hstart : 1 ≤ start) (hmax : start ≤ damageMax) (hsize : 0 ≤ size)
    (hle : n * a.bufferScale id ≤ start - 1 - a.bufferOffset) :
    n ≤ (a.mapDamage id start size).1 := by
  rw [mapDamage_id]
  set x0 : ℚ := (clampDamageEdge (start - 1) - a.bufferOffset : ℤ) / a.bufferScale id with hx0
  set x1 : ℚ := (clampDamageEdge (start + size + 1) - a.bufferOffset : ℤ) / a.bufferScale id
    with hx1
  have hclamp0 : clampDamageEdge (start - 1) = start - 1 :=
    clampDamageEdge_of_range (by simp only [damageMin]; omega) (by omega)
  have hclamp1 : start - 1 ≤ clampDamageEdge (start + size + 1) := by
    simp only [clampDamageEdge, damageMin, damageMax] at hmax ⊢
    omega
  have hle0 : (n : ℚ) ≤ x0 := by
    rw [hx0, le_div_iff₀ hk, hclamp0]
    push_cast
    linarith
  have hle1 : (n : ℚ) ≤ x1 := by
    rw [hx1, le_div_iff₀ hk]
    have hcast : (start - 1 : ℚ) ≤ (clampDamageEdge (start + size + 1) : ℤ) := by
      exact_mod_cast hclamp1
    push_cast
    linarith
  have htruncate := le_truncate hn (le_min hle0 hle1)
  simp only [DamageEdges.i32Min, DamageEdges.i32Max, damageMin, damageMax] at *
  omega

/-- The crop on the surface, in buffer pixels. -/
theorem Valid.extent_mul (hv : a.Valid)
    (hscale : a.source = none → a.destination = none ∨ a.scale = 1) :
    a.extent * a.bufferScale id = a.scale * a.length := by
  have heq := hv.contentAt_eq hscale a.extent
  have hextent : a.extent * (a.length / a.extent) = a.length := mul_div_cancel₀ _ hv.extent_pos.ne'
  unfold contentAt cropStart at heq
  rw [hextent, mul_add] at heq
  linarith

/-- Damage that starts at a visible pixel is converted too far to the right when a whole
surface unit lies between its true start and the start without the crop. -/
theorem Valid.exists_uncovered (hv : a.Valid)
    (hscale : a.source = none → a.destination = none ∨ a.scale = 1) (start n : ℤ)
    (hstart : 1 ≤ start) (hvisible : start < a.cropStart + a.scale * a.length) (hn : 0 ≤ n)
    (hnmax : n ≤ damageMax) (hle : n * a.bufferScale id ≤ start - 1 - a.bufferOffset)
    (hlt : start - a.cropStart < n * a.bufferScale id) (hn0 : 0 < n) :
    ∃ p i, a.ShowsPixel p i ∧ 0 ≤ i ∧ i < a.contents ∧ start ≤ i ∧
      p < (a.mapDamage id start (a.contents - start)).1 := by
  have hk := hv.bufferScale_pos
  have hend := hv.crop_end_le
  have hlength : 0 < a.scale * a.length := mul_pos hv.scale_cast_pos hv.length_pos
  have hextent := hv.extent_mul hscale
  have hcontents := hv.contents_le
  have hstartLt : start < a.contents := by exact_mod_cast hvisible.trans_le hend
  -- The first point that shows the damage.
  set p : ℚ := max 0 ((start - a.cropStart) / a.bufferScale id) with hp
  have hcontent : a.cropStart + p * a.bufferScale id = max a.cropStart start := by
    rw [hp, max_mul_of_nonneg _ _ hk.le, zero_mul, div_mul_cancel₀ _ hk.ne', ← max_add_add_left]
    simp
  have hmax : max a.cropStart start < a.contents := max_lt (by linarith) (by linarith)
  refine ⟨p, ⌊max a.cropStart start⌋, ⟨le_max_left _ _, ?_, ?_, ?_⟩, ?_, ?_, ?_, ?_⟩
  · refine lt_of_mul_lt_mul_right ?_ hk.le
    rw [hextent]
    have hbelow : max a.cropStart start < a.cropStart + a.scale * a.length :=
      max_lt (by linarith) hvisible
    linarith
  · rw [hv.contentAt_eq hscale, hcontent]
    exact Int.floor_le _
  · rw [hv.contentAt_eq hscale, hcontent]
    exact Int.lt_floor_add_one _
  · exact Int.floor_nonneg.mpr (le_max_of_le_right (by exact_mod_cast (by omega : 0 ≤ start)))
  · exact Int.floor_lt.mpr hmax
  · exact Int.le_floor.mpr (le_max_right _ _)
  · have hge := le_mapDamage_start hk hn hnmax hstart (by omega)
      (by omega : 0 ≤ a.contents - start) hle
    have hcast : (n : ℚ) ≤ (a.mapDamage id start (a.contents - start)).1 := by exact_mod_cast hge
    refine lt_of_lt_of_le ?_ hcast
    rw [hp]
    exact max_lt (by exact_mod_cast hn0) ((div_lt_iff₀ hk).mpr hlt)

/-- Some pixel is shown at the left edge of the surface. -/
theorem Valid.exists_shown (hv : a.Valid) : ∃ i, a.ShowsPixel 0 i ∧ 0 ≤ i ∧ i < a.contents := by
  have hstart : a.contentAt 0 = a.cropStart := by
    simp [contentAt, cropStart]
  have hend := hv.crop_end_le
  have hlength : 0 < a.scale * a.length := mul_pos hv.scale_cast_pos hv.length_pos
  have hnonneg : 0 ≤ a.cropStart := mul_nonneg hv.scale_cast_pos.le hv.origin_nonneg
  refine ⟨⌊a.cropStart⌋, ⟨le_refl _, hv.extent_pos, ?_, ?_⟩, Int.floor_nonneg.mpr hnonneg,
    Int.floor_lt.mpr (by linarith)⟩
  · rw [hstart]
    exact Int.floor_le _
  · rw [hstart]
    exact Int.lt_floor_add_one _

/-- Axes that agree in what decides the conversion. -/
structure SameKind (a b : DamageAxis) : Prop where
  scale : b.scale = a.scale
  source : b.source.map (·.1) = a.source.map (·.1)
  destination : b.destination.isSome = a.destination.isSome

/-- Some damage of the axis is not covered. -/
def Uncovered (a : DamageAxis) : Prop :=
  ∃ start size p i, 0 < size ∧ a.ShowsPixel p i ∧ 0 ≤ i ∧ i < a.contents ∧ start ≤ i ∧
    i < start + size ∧
    ¬ ((a.mapDamage id start size).1 ≤ p ∧
      p < (a.mapDamage id start size).1 + (a.mapDamage id start size).2)

theorem uncovered_of_start {start : ℤ} {p : ℚ} {i : ℤ} (hshows : a.ShowsPixel p i) (hpos : 0 ≤ i)
    (hcontents : i < a.contents) (hstart : start ≤ i)
    (hp : p < (a.mapDamage id start (a.contents - start)).1) : a.Uncovered :=
  ⟨start, a.contents - start, p, i, by omega, hshows, hpos, hcontents, hstart, by omega,
    fun hcovered => absurd hcovered.1 (not_le.mpr hp)⟩

/-- With a source, the whole units of its origin are what the conversion subtracts. -/
theorem Valid.bufferOffset_eq (hv : a.Valid) {o l : ℤ} (hsource : a.source = some (o, l)) :
    a.bufferOffset = o / 256 := by
  simp only [bufferOffset, hsource]
  exact Int.tdiv_eq_ediv_of_nonneg (hv.source_inside o l hsource).1

theorem cropStart_eq {o l : ℤ} (hsource : a.source = some (o, l)) :
    a.cropStart = a.scale * o / 256 := by
  simp only [cropStart, origin, hsource]
  ring

theorem cropStart_gt {o l : ℤ} (hsource : a.source = some (o, l))
    (hcrop : ¬ CropWithinPixel a.scale o) : ((o / 256 : ℤ) : ℚ) + 1 < a.cropStart := by
  have hlt : 256 * (o / 256 + 1) < a.scale * o := not_le.mp hcrop
  have hcast : (256 * ((o / 256 : ℤ) + 1) : ℚ) < a.scale * o := by exact_mod_cast hlt
  rw [cropStart_eq hsource]
  linarith

/-- Without a destination the surface has the size of the crop, and its second column shows
damage that is converted to start there. -/
theorem Valid.crop_uncovered_unscaled (hv : a.Valid) {o l : ℤ} (hsource : a.source = some (o, l))
    (hcrop : ¬ CropWithinPixel a.scale o) (hdest : a.destination = none) : a.Uncovered := by
  have hgt := cropStart_gt hsource hcrop
  have hoffset := hv.bufferOffset_eq hsource
  have hpos := hv.scale_pos
  have hm : 0 ≤ o / 256 := Int.ediv_nonneg (hv.source_inside o l hsource).1 (by norm_num)
  have hk : a.bufferScale id = a.scale := by
    simp only [bufferScale, hdest, max_eq_left (by omega : 1 ≤ a.scale)]
  have hlength : (1 : ℚ) ≤ a.length := by
    obtain ⟨units, rfl⟩ := hv.source_whole o l hsource hdest
    have hunits : 0 < 256 * units := (hv.source_inside o _ hsource).2.1
    have hone : (1 : ℚ) ≤ units := by exact_mod_cast (by omega : 1 ≤ units)
    simp only [length, hsource]
    push_cast
    linarith
  have hscale : (a.scale : ℚ) ≤ a.scale * a.length :=
    le_mul_of_one_le_right hv.scale_cast_pos.le hlength
  obtain ⟨p, i, hshows, hi, hlt, hstart, hp⟩ := hv.exists_uncovered (by simp [hsource])
    (a.scale + 1 + o / 256) 1 (by omega) (by push_cast; linarith) (by omega)
    (by norm_num [damageMax]) (by rw [hk, hoffset]; push_cast; linarith)
    (by rw [hk]; push_cast; linarith) (by omega)
  exact uncovered_of_start hshows hi hlt hstart hp

/-- A destination as long as the buffer enlarges the crop: the pixel behind the slack is shown
in the first column already. -/
theorem Valid.crop_uncovered_far (hv : a.Valid) {o l : ℤ} (hsource : a.source = some (o, l))
    (hdest : a.destination.isSome) (hfar : ((o / 256 : ℤ) : ℚ) + 2 ≤ a.cropStart) :
    ∃ b : DamageAxis, b.Valid ∧ a.SameKind b ∧ b.Uncovered := by
  have hm : 0 ≤ o / 256 := Int.ediv_nonneg (hv.source_inside o l hsource).1 (by norm_num)
  have hend := hv.crop_end_le
  have hlength := mul_pos hv.scale_cast_pos hv.length_pos
  set b : DamageAxis := { a with destination := some a.contents } with hb
  have hbv : b.Valid :=
    { hv with
      source_whole := fun _ _ _ hnone => by simp [hb] at hnone
      destination_pos := by
        rintro d hd
        obtain rfl : a.contents = d := Option.some.inj hd
        exact ⟨hv.contents_pos, hv.contents_le⟩ }
  have hbsource : b.source = some (o, l) := hsource
  have hstart : b.cropStart = a.cropStart := rfl
  have hoffset := hbv.bufferOffset_eq hbsource
  have hk : b.bufferScale id ≤ 1 := by
    have hextent := hbv.extent_mul (by simp [hbsource])
    have hcontents : (b.extent : ℚ) = a.contents := rfl
    have hsame : b.scale * b.length = a.scale * a.length := rfl
    have hnonneg : 0 ≤ a.cropStart := mul_nonneg hv.scale_cast_pos.le hv.origin_nonneg
    rw [hcontents, hsame] at hextent
    refine le_of_mul_le_mul_left ?_ hv.contents_cast_pos
    linarith
  have hkpos := hbv.bufferScale_pos
  obtain ⟨p, i, hshows, hi, hlt, hge, hp⟩ := hbv.exists_uncovered (by simp [hbsource])
    (o / 256 + 2) 1 (by omega)
    (by push_cast; rw [hstart, show b.scale * b.length = a.scale * a.length from rfl]; linarith)
    (by omega) (by norm_num [damageMax]) (by rw [hoffset]; push_cast; linarith)
    (by rw [hstart]; push_cast; linarith) (by omega)
  exact ⟨b, hbv, ⟨rfl, rfl, by simp [hb, hdest]⟩, uncovered_of_start hshows hi hlt hge hp⟩

/-- A crop origin that exceeds the slack by less than a pixel shows up once the buffer is
enlarged to columns of 1/256 pixel. -/
theorem Valid.crop_uncovered_near (hv : a.Valid) {o l : ℤ} (hsource : a.source = some (o, l))
    (hcrop : ¬ CropWithinPixel a.scale o) (hdest : a.destination.isSome)
    (hnear : a.cropStart < ((o / 256 : ℤ) : ℚ) + 2) :
    ∃ b : DamageAxis, b.Valid ∧ a.SameKind b ∧ b.Uncovered := by
  have ho := (hv.source_inside o l hsource).1
  have hpos := hv.scale_pos
  have hgt : 256 * (o / 256 + 1) < a.scale * o := not_le.mp hcrop
  have hlt : a.scale * o < 256 * (o / 256 + 2) := by
    rw [cropStart_eq hsource, div_lt_iff₀ (by norm_num)] at hnear
    have hcast : (a.scale * o : ℚ) < 256 * ((o / 256 : ℤ) + 2) := by linarith
    exact_mod_cast hcast
  -- The crop starts in the first two units of a buffer of scale at least two.
  have htwo : 2 ≤ a.scale := by
    by_contra hlow
    have hone : a.scale = 1 := by omega
    rw [hone] at hgt
    omega
  have hdouble : 2 * o ≤ a.scale * o := Int.mul_le_mul_of_nonneg_right htwo ho
  have horigin : o < 512 := by omega
  have hopos : 1 ≤ o := by
    by_contra hzero
    obtain rfl : o = 0 := by omega
    simp at hgt
  have hsmall : a.scale < 768 := by
    have hle : a.scale * 1 ≤ a.scale * o := Int.mul_le_mul_of_nonneg_left hopos hpos.le
    omega
  have hdestPos : 0 < a.scale * (512 - o) := Int.mul_pos hpos (by omega)
  have hdestLe : a.scale * (512 - o) ≤ 768 * 512 :=
    Int.mul_le_mul hsmall.le (by omega) (by omega) (by norm_num)
  set b : DamageAxis :=
    { scale := a.scale
      contents := 2 * a.scale
      source := some (o, 512 - o)
      destination := some (a.scale * (512 - o)) } with hb
  have hbsource : b.source = some (o, 512 - o) := rfl
  have hbv : b.Valid :=
    { contents_pos := by simp only [hb]; omega
      contents_le := by simp only [hb, damageMax]; omega
      scale_pos := hpos
      scale_dvd := ⟨2, by simp only [hb]; ring⟩
      source_inside := by
        rintro o' l' hs
        obtain ⟨rfl, rfl⟩ : o = o' ∧ 512 - o = l' := by simpa [hb] using hs
        refine ⟨ho, by omega, ?_⟩
        simp only [hb]
        rw [add_sub_cancel]
        omega
      source_whole := fun _ _ _ hnone => by simp [hb] at hnone
      destination_pos := by
        rintro d hd
        obtain rfl : a.scale * (512 - o) = d := Option.some.inj hd
        exact ⟨hdestPos, hdestLe.trans (by norm_num [damageMax])⟩ }
  have hlengthMul : b.scale * b.length = a.scale * (512 - o) / 256 := by
    simp only [hb, length]
    push_cast
    ring
  have hk : b.bufferScale id * 256 = 1 := by
    have hextent := hbv.extent_mul (by simp [hbsource])
    have hdestCast : (0 : ℚ) < a.scale * (512 - o) := by exact_mod_cast hdestPos
    have hextentEq : b.extent = a.scale * (512 - o) := by simp [hb, extent]
    rw [hlengthMul, hextentEq] at hextent
    refine mul_left_cancel₀ hdestCast.ne' ?_
    linarith
  have hstart : b.cropStart = a.scale * o / 256 := cropStart_eq hbsource
  have hoffset := hbv.bufferOffset_eq hbsource
  have hgtCast := cropStart_gt hsource hcrop
  rw [cropStart_eq hsource] at hgtCast
  have htwoCast : (2 : ℚ) ≤ a.scale := by exact_mod_cast htwo
  have hfloor : ((o / 256 : ℤ) : ℚ) ≤ 1 := by exact_mod_cast (by omega : o / 256 ≤ 1)
  obtain ⟨p, i, hshows, hi, hlt', hge, hp⟩ := hbv.exists_uncovered (by simp [hbsource])
    (o / 256 + 2) 256 (by omega)
    (by rw [hstart, hlengthMul]; push_cast; linarith)
    (by omega) (by norm_num [damageMax]) (by rw [hoffset]; push_cast; linarith)
    (by rw [hstart]; push_cast; linarith) (by omega)
  exact ⟨b, hbv, ⟨rfl, by simp [hb, hsource], by simp [hb, hdest]⟩,
    uncovered_of_start hshows hi hlt' hge hp⟩

/-- A crop origin beyond the slack leaves damage of some buffer uncovered. -/
theorem Valid.crop_uncovered (hv : a.Valid) {o l : ℤ} (hsource : a.source = some (o, l))
    (hcrop : ¬ CropWithinPixel a.scale o) :
    ∃ b : DamageAxis, b.Valid ∧ a.SameKind b ∧ b.Uncovered := by
  cases hdest : a.destination with
  | none => exact ⟨a, hv, ⟨rfl, rfl, rfl⟩, hv.crop_uncovered_unscaled hsource hcrop hdest⟩
  | some d =>
    have hsome : a.destination.isSome := by simp [hdest]
    rcases le_or_gt (((o / 256 : ℤ) : ℚ) + 2) a.cropStart with hfar | hnear
    · exact hv.crop_uncovered_far hsource hsome hfar
    · exact hv.crop_uncovered_near hsource hcrop hsome hnear

/-- An uncropped buffer of a larger scale, scaled to four columns: the conversion divides by
the buffer scale once more, and the last column is missing from the damage of the buffer. -/
theorem Valid.scaled_uncovered (hv : a.Valid) (hsource : a.source = none)
    (hdest : a.destination.isSome) (hscale : 2 ≤ a.scale) :
    ∃ b : DamageAxis, b.Valid ∧ a.SameKind b ∧ b.Uncovered := by
  have htwo : 2 ≤ a.contents := by
    obtain ⟨units, hunits⟩ := hv.scale_dvd
    have hpos : 0 < units := by
      by_contra hle
      have hneg := Int.mul_nonpos_of_nonneg_of_nonpos hv.scale_pos.le (not_lt.mp hle)
      have hcontents := hv.contents_pos
      omega
    calc (2 : ℤ) ≤ a.scale * 1 := by omega
      _ ≤ a.scale * units := Int.mul_le_mul_of_nonneg_left hpos hv.scale_pos.le
      _ = a.contents := hunits.symm
  have hcontents := hv.contents_le
  have hscaleCast : (2 : ℚ) ≤ a.scale := by exact_mod_cast hscale
  have htwoCast : (2 : ℚ) ≤ a.contents := by exact_mod_cast htwo
  set b : DamageAxis := { a with destination := some 4 } with hb
  have hbv : b.Valid :=
    { hv with
      source_whole := fun _ _ _ hnone => by simp [hb] at hnone
      destination_pos := by
        rintro d hd
        obtain rfl : 4 = d := Option.some.inj hd
        norm_num [damageMax] }
  have hk : b.bufferScale id = a.scale * (a.contents / 4) := by
    simp only [hb, bufferScale, hsource, max_eq_left (by omega : 1 ≤ a.scale),
      max_eq_left (by omega : 1 ≤ a.contents)]
    norm_num
  have hkpos := hbv.bufferScale_pos
  have hoffset : b.bufferOffset = 0 := by simp [hb, bufferOffset, hsource]
  have hcontent : b.contentAt 3 = 3 * a.contents / 4 := by
    have hne : (a.scale : ℚ) ≠ 0 := by linarith
    simp only [hb, contentAt, origin, length, extent, hsource]
    field_simp
    norm_num
  have hshows : b.ShowsPixel 3 ⌊(3 * a.contents / 4 : ℚ)⌋ := by
    refine ⟨by norm_num, by norm_num [hb, extent], ?_, ?_⟩
    · rw [hcontent]
      exact Int.floor_le _
    · rw [hcontent]
      exact Int.lt_floor_add_one _
  have hfloor : 0 ≤ ⌊(3 * a.contents / 4 : ℚ)⌋ := Int.floor_nonneg.mpr (by linarith)
  have hfloorLt : ⌊(3 * a.contents / 4 : ℚ)⌋ < a.contents := Int.floor_lt.mpr (by linarith)
  refine ⟨b, hbv, ⟨rfl, rfl, by simp [hb, hdest]⟩, 0, a.contents, 3, _, by omega, hshows, hfloor,
    hfloorLt, hfloor, by omega, fun hcovered => ?_⟩
  have hright := hcovered.2
  have hstart : clampDamageEdge (0 - 1) = -1 := by decide
  have hendLe : clampDamageEdge (0 + a.contents + 1) ≤ a.contents + 1 := by
    simp only [clampDamageEdge, damageMin]
    omega
  have hx0 : ((-1 - 0 : ℤ) : ℚ) / b.bufferScale id ≤ 0 :=
    div_nonpos_of_nonpos_of_nonneg (by norm_num) hkpos.le
  have hx1 : ((clampDamageEdge (0 + a.contents + 1) - 0 : ℤ) : ℚ) / b.bufferScale id ≤ 3 := by
    have hcast : ((clampDamageEdge (0 + a.contents + 1) : ℤ) : ℚ) ≤ a.contents + 1 := by
      exact_mod_cast hendLe
    rw [div_le_iff₀ hkpos, hk]
    push_cast
    nlinarith
  simp only [mapDamage_id, hoffset, hstart] at hright
  set x0 : ℚ := ((-1 - 0 : ℤ) : ℚ) / b.bufferScale id
  set x1 : ℚ := ((clampDamageEdge (0 + a.contents + 1) - 0 : ℤ) : ℚ) / b.bufferScale id
  have hleft : truncate (min x0 x1) ≤ 0 := by
    have hcast := truncate_le le_rfl ((min_le_left x0 x1).trans hx0)
    exact_mod_cast hcast
  have hrightLe : ⌈max x0 x1⌉ ≤ 3 := Int.ceil_le.mpr (by push_cast; exact max_le (by linarith) hx1)
  have hint : (3 : ℤ) <
      max DamageEdges.i32Min (min (max (truncate (min x0 x1)) damageMin) DamageEdges.i32Max) +
        max DamageEdges.i32Min
          (min (max (min ⌈max x0 x1⌉ damageMax - max (truncate (min x0 x1)) damageMin) 1)
            DamageEdges.i32Max) := by
    exact_mod_cast hright
  simp only [DamageEdges.i32Min, DamageEdges.i32Max, damageMin, damageMax] at hint
  omega

/-- A conversion that does not use the scale of its surface leaves damage uncovered. -/
theorem Valid.exists_uncovered_sameKind (hv : a.Valid) (hm : ¬ a.MapsDamage) :
    ∃ b : DamageAxis, b.Valid ∧ a.SameKind b ∧ b.Uncovered := by
  unfold MapsDamage at hm
  cases hsource : a.source with
  | none =>
    simp only [hsource, not_or] at hm
    have hpos := hv.scale_pos
    exact hv.scaled_uncovered hsource (Option.isSome_iff_ne_none.mpr hm.1) (by omega)
  | some source =>
    simp only [hsource] at hm
    exact hv.crop_uncovered hsource hm

end DamageAxis

/-! ## Both axes -/

namespace SurfaceState
variable {s : SurfaceState} {bufferWidth bufferHeight : ℤ}

theorem viewKind_eq (s : SurfaceState) (width height : ℤ) : s.viewKind =
    { scale := (s.xAxis width).scale
      transform := s.currentBufferTransform
      origin := ((s.xAxis width).source.map (·.1)).bind fun x =>
        ((s.yAxis height).source.map (·.1)).map fun y => (x, y)
      hasDestination := (s.xAxis width).destination.isSome } := by
  cases hview : s.croppingViewport with
  | none => simp [viewKind, xAxis, yAxis, hview]
  | some viewport =>
    obtain ⟨source, destination⟩ := viewport
    cases source <;> simp [viewKind, xAxis, yAxis, hview]

/-- The axes of a surface are cropped and scaled together. -/
theorem axes_isSome (s : SurfaceState) (width height : ℤ) :
    (s.yAxis height).source.isSome = (s.xAxis width).source.isSome ∧
      (s.yAxis height).destination.isSome = (s.xAxis width).destination.isSome := by
  cases hview : s.croppingViewport <;> simp [xAxis, yAxis, hview]

theorem viewValid_untransformed (htransform : s.currentBufferTransform = 0) :
    s.ViewValid bufferWidth bufferHeight ↔
      (s.xAxis bufferWidth).Valid ∧ (s.yAxis bufferHeight).Valid := by
  have hextent : transformedExtent s.currentBufferTransform bufferWidth bufferHeight =
      (bufferWidth, bufferHeight) := by simp [transformedExtent, htransform]
  constructor
  · rintro ⟨-, hx, hy⟩
    rw [hextent] at hx hy
    exact ⟨hx, hy⟩
  · rintro ⟨hx, hy⟩
    exact ⟨by omega, by rwa [hextent], by rwa [hextent]⟩

theorem mapsDamage_iff (s : SurfaceState) (width height : ℤ)
    (htransform : s.currentBufferTransform = 0) :
    s.viewKind.MapsDamage ↔ (s.xAxis width).MapsDamage ∧ (s.yAxis height).MapsDamage := by
  cases hview : s.croppingViewport with
  | none => simp [ViewKind.MapsDamage, viewKind, DamageAxis.MapsDamage, xAxis, yAxis, hview]
  | some viewport =>
    obtain ⟨source, destination⟩ := viewport
    cases source <;> cases destination <;>
      simp [ViewKind.MapsDamage, viewKind, DamageAxis.MapsDamage, xAxis, yAxis, hview, htransform]

/-- Without a transform the conversion works on each axis alone. -/
theorem mapBufferDamage_untransformed {rect : DamageRect}
    (hv : s.ViewValid bufferWidth bufferHeight) (htransform : s.currentBufferTransform = 0)
    (hwidth : 0 < rect.width) (hheight : 0 < rect.height) :
    mapBufferDamage id rect s bufferWidth bufferHeight =
      { x := ((s.xAxis bufferWidth).mapDamage id rect.x rect.width).1
        y := ((s.yAxis bufferHeight).mapDamage id rect.y rect.height).1
        width := ((s.xAxis bufferWidth).mapDamage id rect.x rect.width).2
        height := ((s.yAxis bufferHeight).mapDamage id rect.y rect.height).2 } := by
  obtain ⟨hx, hy⟩ := (viewValid_untransformed htransform).mp hv
  simp only [mapBufferDamage, htransform, hx.not_isMalformed, hy.not_isMalformed]
  rw [if_neg (by omega)]
  simp

theorem shows_untransformed (htransform : s.currentBufferTransform = 0) (px py : ℚ) (i j : ℤ) :
    s.Shows bufferWidth bufferHeight px py i j ↔
      (s.xAxis bufferWidth).ShowsPixel px i ∧ (s.yAxis bufferHeight).ShowsPixel py j := by
  simp [Shows, htransform, transformedExtent, transformPixel]

theorem coversDamage_untransformed (hv : s.ViewValid bufferWidth bufferHeight)
    (htransform : s.currentBufferTransform = 0) (hm : s.viewKind.MapsDamage) (rect : DamageRect) :
    s.CoversDamage bufferWidth bufferHeight rect := by
  intro px py i j hi hiw hj hjh hpixel hshows
  obtain ⟨hx0, hx1, hy0, hy1⟩ := hpixel
  obtain ⟨hmx, hmy⟩ := (s.mapsDamage_iff bufferWidth bufferHeight htransform).mp hm
  obtain ⟨hshowsX, hshowsY⟩ := (shows_untransformed htransform px py i j).mp hshows
  obtain ⟨hx, hy⟩ := (viewValid_untransformed htransform).mp hv
  rw [mapBufferDamage_untransformed hv htransform (by omega) (by omega)]
  obtain ⟨hleft, hright⟩ := DamageAxis.mapDamage_covers hx hmx hshowsX hi hiw hx0 hx1
  obtain ⟨htop, hbottom⟩ := DamageAxis.mapDamage_covers hy hmy hshowsY hj hjh hy0 hy1
  exact ⟨hleft, hright, htop, hbottom⟩

/-- The size a viewport gives to a surface reaches to its end. -/
theorem extent_le_of_viewportExtent {width height : ℤ} (hx : (s.xAxis width).IsWhole)
    (hy : (s.yAxis height).IsWhole) {w h : ℤ} (hextent : s.viewportExtent = some (w, h)) :
    (s.xAxis width).extent ≤ w ∧ (s.yAxis height).extent ≤ h := by
  unfold viewportExtent at hextent
  cases hview : s.croppingViewport with
  | none => simp [hview] at hextent
  | some viewport =>
    obtain ⟨source, destination⟩ := viewport
    cases destination with
    | some destination =>
      obtain ⟨w', h'⟩ := destination
      obtain ⟨rfl, rfl⟩ : w' = w ∧ h' = h := by simpa [hview] using hextent
      simp [DamageAxis.extent, xAxis, yAxis, hview]
    | none =>
      cases source with
      | none => simp [hview] at hextent
      | some source =>
        obtain ⟨x, y, l, m⟩ := source
        obtain ⟨rfl, rfl⟩ : max (l.tdiv 256) 1 = w ∧ max (m.tdiv 256) 1 = h := by
          simpa [hview] using hextent
        have hwhole : ∀ {n : ℤ}, 256 ∣ n → (n / 256 : ℚ) ≤ (max (n.tdiv 256) 1 : ℤ) := by
          rintro n ⟨units, rfl⟩
          rw [Int.mul_tdiv_cancel_left _ (by norm_num)]
          push_cast
          rw [mul_div_cancel_left₀ _ (by norm_num)]
          exact le_max_left _ _
        have hxl := hwhole (hx x l (by simp [xAxis, hview]) (by simp [xAxis, hview]))
        have hym := hwhole (hy y m (by simp [yAxis, hview]) (by simp [yAxis, hview]))
        simp only [DamageAxis.extent, DamageAxis.length, xAxis, yAxis, hview, Option.bind_some,
          Option.map_none, Option.map_some]
        exact ⟨hxl, hym⟩

theorem axes_of_viewportExtent {width height : ℤ} (hextent : s.viewportExtent = none) :
    ((s.xAxis width).source = none ∧ (s.xAxis width).destination = none) ∧
      (s.yAxis height).source = none ∧ (s.yAxis height).destination = none := by
  unfold viewportExtent at hextent
  cases hview : s.croppingViewport with
  | none => simp [xAxis, yAxis, hview]
  | some viewport =>
    obtain ⟨source, destination⟩ := viewport
    cases destination <;> cases source <;> simp [xAxis, yAxis, hview] at hextent ⊢

theorem extent_le_of_logical {a : DamageAxis} (hv : a.Valid) (hsource : a.source = none)
    (hdest : a.destination = none) :
    a.extent ≤ saturatingI32 (max ⌈(a.contents : ℚ) / (max a.scale 1 : ℤ)⌉ 1 : ℤ) := by
  have hmax : max a.scale 1 = a.scale := max_eq_left hv.scale_pos
  have hle := hv.extent_le
  have heq : a.extent = a.contents / a.scale := by
    simp [DamageAxis.extent, DamageAxis.length, hsource, hdest]
  rw [hmax, ← heq]
  have hceil : ⌈a.extent⌉ ≤ damageMax := Int.ceil_le.mpr hle
  have hsat : ⌈a.extent⌉ ≤ saturatingI32 (max ⌈a.extent⌉ 1 : ℤ) := by
    simp only [saturatingI32_intCast, DamageEdges.i32Min, DamageEdges.i32Max, damageMax] at hceil ⊢
    omega
  exact (Int.le_ceil _).trans (by exact_mod_cast hsat)

/-- The size told to the host for a whole surface reaches to its end. -/
theorem extent_le_logical (hv : s.ViewValid bufferWidth bufferHeight) {w h : ℤ}
    (hwh : s.viewportExtent.getD (logicalTransformedExtent id s.currentBufferTransform bufferWidth
      bufferHeight s.currentBufferScale) = (w, h)) :
    (s.xAxis (transformedExtent s.currentBufferTransform bufferWidth bufferHeight).1).extent ≤ w ∧
      (s.yAxis (transformedExtent s.currentBufferTransform bufferWidth bufferHeight).2).extent ≤
        h := by
  cases hextent : s.viewportExtent with
  | some extent =>
    obtain rfl : extent = (w, h) := by simpa [hextent] using hwh
    exact extent_le_of_viewportExtent hv.x_valid.source_whole hv.y_valid.source_whole hextent
  | none =>
    obtain ⟨⟨hxs, hxd⟩, hys, hyd⟩ := s.axes_of_viewportExtent hextent
    rw [hextent, Option.getD_none] at hwh
    obtain ⟨rfl, rfl⟩ := Prod.mk.inj hwh
    exact ⟨extent_le_of_logical hv.x_valid hxs hxd, extent_le_of_logical hv.y_valid hys hyd⟩

/-- A transformed buffer damages its whole surface. -/
theorem coversDamage_transformed (hv : s.ViewValid bufferWidth bufferHeight)
    (htransform : s.currentBufferTransform ≠ 0) (rect : DamageRect) :
    s.CoversDamage bufferWidth bufferHeight rect := by
  intro px py i j hi hiw hj hjh hpixel hshows
  obtain ⟨hx0, hx1, hy0, hy1⟩ := hpixel
  obtain ⟨⟨hpx0, hpx1, -, -⟩, hpy0, hpy1, -, -⟩ := hshows
  have hmaxWidth : max bufferWidth 1 = bufferWidth := max_eq_left (by omega)
  have hmaxHeight : max bufferHeight 1 = bufferHeight := max_eq_left (by omega)
  unfold mapBufferDamage
  rw [if_neg (by omega), if_pos htransform, hmaxWidth, hmaxHeight]
  rcases hwh : s.viewportExtent.getD (logicalTransformedExtent id s.currentBufferTransform
    bufferWidth bufferHeight s.currentBufferScale) with ⟨w, h⟩
  obtain ⟨hw, hh⟩ := extent_le_logical hv hwh
  refine ⟨by simpa using hpx0, ?_, by simpa using hpy0, ?_⟩
  · simpa using hpx1.trans_le hw
  · simpa using hpy1.trans_le hh

/-- The conversions of sound kinds cover all damage. -/
theorem coversDamage_of_mapsDamage (hv : s.ViewValid bufferWidth bufferHeight)
    (hm : s.viewKind.MapsDamage) (rect : DamageRect) :
    s.CoversDamage bufferWidth bufferHeight rect := by
  by_cases htransform : s.currentBufferTransform = 0
  · exact coversDamage_untransformed hv htransform hm rect
  · exact coversDamage_transformed hv htransform rect

/-! ## Surfaces of a kind -/

/-- The surface with the given axes, which are cropped and scaled together. -/
def withAxes (s : SurfaceState) (x y : DamageAxis) : SurfaceState :=
  { s with
    currentBufferScale := x.scale
    viewport := some
      { source := x.source.bind fun a => y.source.map fun b => (a.1, b.1, a.2, b.2)
        destination := x.destination.bind fun a => y.destination.map fun b => (a, b) } }

/-- Two axes of one surface. -/
structure Paired (x y : DamageAxis) : Prop where
  scale : y.scale = x.scale
  source : y.source.isSome = x.source.isSome
  destination : y.destination.isSome = x.destination.isSome

theorem axes_withAxes {x y : DamageAxis} (hxy : Paired x y) :
    (s.withAxes x y).xAxis x.contents = x ∧ (s.withAxes x y).yAxis y.contents = y := by
  obtain ⟨xscale, xcontents, xsource, xdest⟩ := x
  obtain ⟨yscale, ycontents, ysource, ydest⟩ := y
  obtain ⟨hscale, hsource, hdest⟩ := hxy
  simp only at hscale hsource hdest
  subst hscale
  cases xsource <;> cases ysource <;> cases xdest <;> cases ydest <;>
    simp_all [withAxes, xAxis, yAxis, croppingViewport, ViewportState.isIdentity,
      Option.filter_some]

theorem paired_axes (s : SurfaceState) (width height : ℤ) :
    Paired (s.xAxis width) (s.yAxis height) :=
  ⟨rfl, (s.axes_isSome width height).1, (s.axes_isSome width height).2⟩

/-- Damage that one of the axes leaves uncovered is uncovered on the surface. -/
theorem not_coversDamage (hv : s.ViewValid bufferWidth bufferHeight)
    (htransform : s.currentBufferTransform = 0)
    (huncovered : (s.xAxis bufferWidth).Uncovered ∨ (s.yAxis bufferHeight).Uncovered) :
    ∃ rect, ¬ s.CoversDamage bufferWidth bufferHeight rect := by
  obtain ⟨hx, hy⟩ := (viewValid_untransformed htransform).mp hv
  rcases huncovered with huncovered | huncovered
  · obtain ⟨start, size, p, i, hsize, hshows, hi, hlt, hstart, hend, hnot⟩ := huncovered
    obtain ⟨j, hshowsY, hj, hjlt⟩ := hy.exists_shown
    have hheight : j < bufferHeight := hjlt
    refine ⟨⟨start, 0, size, bufferHeight⟩, fun hcovers => hnot ?_⟩
    have hpoint := hcovers p 0 i j hi hlt hj hjlt
      ⟨by simpa using hstart, hend, by simpa using hj, by simpa using hheight⟩
      ((shows_untransformed htransform p 0 i j).mpr ⟨hshows, hshowsY⟩)
    rw [mapBufferDamage_untransformed hv htransform hsize (by simp only; omega)] at hpoint
    exact ⟨hpoint.1, hpoint.2.1⟩
  · obtain ⟨start, size, p, j, hsize, hshows, hj, hlt, hstart, hend, hnot⟩ := huncovered
    obtain ⟨i, hshowsX, hi, hilt⟩ := hx.exists_shown
    have hwidth : i < bufferWidth := hilt
    refine ⟨⟨0, start, bufferWidth, size⟩, fun hcovers => hnot ?_⟩
    have hpoint := hcovers 0 p i j hi hilt hj hlt
      ⟨by simpa using hi, by simpa using hwidth, by simpa using hstart, hend⟩
      ((shows_untransformed htransform 0 p i j).mpr ⟨hshowsX, hshows⟩)
    rw [mapBufferDamage_untransformed hv htransform (by simp only; omega) hsize] at hpoint
    exact ⟨hpoint.2.2.1, hpoint.2.2.2⟩

/-- A surface of the kind of `s` with other axes. -/
theorem withAxes_spec {x y : DamageAxis} (htransform : s.currentBufferTransform = 0)
    (hx : x.Valid) (hy : y.Valid) (hsx : (s.xAxis bufferWidth).SameKind x)
    (hsy : (s.yAxis bufferHeight).SameKind y) (huncovered : x.Uncovered ∨ y.Uncovered) :
    ∃ s' bufferWidth' bufferHeight', SurfaceState.ViewValid s' bufferWidth' bufferHeight' ∧
      s'.viewKind = s.viewKind ∧ ∃ rect, ¬ s'.CoversDamage bufferWidth' bufferHeight' rect := by
  have hpaired := s.paired_axes bufferWidth bufferHeight
  have hsource : ∀ {a b : DamageAxis}, a.SameKind b → b.source.isSome = a.source.isSome := by
    intro a b hab
    simpa using congrArg Option.isSome hab.source
  have hxy : Paired x y :=
    ⟨hsy.scale.trans (hpaired.scale.trans hsx.scale.symm),
      (hsource hsy).trans (hpaired.source.trans (hsource hsx).symm),
      hsy.destination.trans (hpaired.destination.trans hsx.destination.symm)⟩
  obtain ⟨hxAxis, hyAxis⟩ := axes_withAxes (s := s) hxy
  have htransform' : (s.withAxes x y).currentBufferTransform = 0 := htransform
  have hvalid : (s.withAxes x y).ViewValid x.contents y.contents :=
    (viewValid_untransformed htransform').mpr ⟨by rwa [hxAxis], by rwa [hyAxis]⟩
  refine ⟨s.withAxes x y, x.contents, y.contents, hvalid, ?_,
    not_coversDamage hvalid htransform' (by rwa [hxAxis, hyAxis])⟩
  rw [(s.withAxes x y).viewKind_eq x.contents y.contents, s.viewKind_eq bufferWidth bufferHeight,
    hxAxis, hyAxis, hsx.scale, hsx.source, hsx.destination, hsy.source]
  rfl

end SurfaceState

/-- On a surface state of the kind, every damage of every buffer that the surface can show is
covered exactly when the conversion uses the scale of its surface. -/
theorem coversDamage_iff (k : ViewKind)
    (hk : ∃ s w h, SurfaceState.ViewValid s w h ∧ s.viewKind = k) :
    (∀ s w h rect, SurfaceState.ViewValid s w h → s.viewKind = k → s.CoversDamage w h rect) ↔
      k.MapsDamage := by
  constructor
  · obtain ⟨s, w, h, hv, rfl⟩ := hk
    intro hcovers
    by_contra hm
    have htransform : s.currentBufferTransform = 0 := by
      by_contra hne
      exact hm (.inl hne)
    obtain ⟨hx, hy⟩ := (SurfaceState.viewValid_untransformed htransform).mp hv
    have hrefl : ∀ a : DamageAxis, a.SameKind a := fun _ => ⟨rfl, rfl, rfl⟩
    rw [s.mapsDamage_iff w h htransform, not_and_or] at hm
    obtain ⟨s', w', h', hv', hkind, rect, hnot⟩ : ∃ s' w' h',
        SurfaceState.ViewValid s' w' h' ∧ s'.viewKind = s.viewKind ∧
          ∃ rect, ¬ s'.CoversDamage w' h' rect := by
      rcases hm with hmx | hmy
      · obtain ⟨b, hb, hkind, huncovered⟩ := hx.exists_uncovered_sameKind hmx
        exact SurfaceState.withAxes_spec htransform hb hy hkind (hrefl _) (.inl huncovered)
      · obtain ⟨b, hb, hkind, huncovered⟩ := hy.exists_uncovered_sameKind hmy
        exact SurfaceState.withAxes_spec htransform hx hb (hrefl _) hkind (.inr huncovered)
    exact hnot (hcovers s' w' h' rect hv' hkind)
  · intro hm s w h rect hv hkind
    exact SurfaceState.coversDamage_of_mapsDamage hv (hkind ▸ hm) rect

/-- A surface of buffer scale 2 that shows two by two units from the given origin on. -/
def croppedSurface (origin : ℤ) : SurfaceState :=
  { SurfaceState.new with
    currentBufferScale := 2
    viewport := some { source := some (origin, origin, 512, 512), destination := none } }

theorem croppedSurface_valid {origin : ℤ} (hpos : 0 ≤ origin) (hmax : origin ≤ 512) :
    (croppedSurface origin).ViewValid 8 8 := by
  have haxis : (DamageAxis.mk 2 8 (some (origin, 512)) none).Valid :=
    { contents_pos := by norm_num
      contents_le := by norm_num [damageMax]
      scale_pos := by norm_num
      scale_dvd := ⟨4, by norm_num⟩
      source_inside := by
        rintro o l hs
        obtain ⟨rfl, rfl⟩ : origin = o ∧ 512 = l := by simpa using hs
        exact ⟨hpos, by norm_num, by simp only; omega⟩
      source_whole := by
        rintro o l hs -
        obtain ⟨rfl, rfl⟩ : origin = o ∧ 512 = l := by simpa using hs
        exact ⟨2, by norm_num⟩
      destination_pos := by simp }
  exact (SurfaceState.viewValid_untransformed rfl).mpr ⟨haxis, haxis⟩

/-- Scale 2 cropped at one surface unit is within the pixel of slack. -/
theorem coversDamage_iff_cropped : (croppedSurface 256).CoversDamage 8 8 ⟨5, 0, 3, 8⟩ :=
  have hvalid : (croppedSurface 256).ViewValid 8 8 :=
    croppedSurface_valid (by norm_num) (by norm_num)
  (coversDamage_iff _ ⟨croppedSurface 256, 8, 8, hvalid, rfl⟩).mpr (.inr ⟨by decide, by decide⟩)
    _ 8 8 _ hvalid rfl

/-- Scale 2 cropped at two surface units: the fifth pixel column is shown half a unit from the
left, but its damage is told to the host from the first unit on. -/
theorem cropped_damage_uncovered : (croppedSurface 512).ViewValid 8 8 ∧
    mapBufferDamage id ⟨5, 0, 3, 8⟩ (croppedSurface 512) 8 8 = ⟨1, -1, 3, 5⟩ ∧
    ¬ (croppedSurface 512).CoversDamage 8 8 ⟨5, 0, 3, 8⟩ := by
  refine ⟨croppedSurface_valid (by norm_num) (by norm_num), by decide +kernel, fun hcovers => ?_⟩
  have hpoint := hcovers (1 / 2) 0 5 4 (by norm_num) (by norm_num) (by norm_num) (by norm_num)
    (by decide) (by rw [SurfaceState.shows_untransformed rfl]; decide +kernel)
  exact absurd hpoint (by decide +kernel)

end Sommelier
