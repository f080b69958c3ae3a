import Sommelier.Handler.HostDamage

/-!
# Coalesced damage

The rectangles that stand for a damage list. The merge loop ends by its own condition, since
each turn takes one rectangle out of the list; the result covers the declared rectangles and
stays in their bounding box, also where an edge is beyond the bounds of `i32`.

## Main definitions

* `MergeLoop`, `CoalesceRun`: the two loops, without a bound on their turns.
* `boundingBox`: the smallest rectangle around the declared ones.
* `damage_coalescing`: what coalescing does to every list.
-/
namespace Sommelier

variable {merged rects damage out : List DamageRect} {candidate existing box : DamageEdges}
  {rect : DamageRect}

/-! ## The loops -/

/-- The loop that merges a candidate, from its state to the one in which it ends. -/
inductive MergeLoop : List DamageRect → DamageEdges → List DamageRect → DamageEdges → Prop
  | done {merged : List DamageRect} {candidate : DamageEdges}
      (h : merged.findIdx? candidate.canMerge = none) :
      MergeLoop merged candidate merged candidate
  | turn {merged merged' : List DamageRect} {candidate candidate' existing : DamageEdges}
      {index : ℕ} (h : merged.findIdx? candidate.canMerge = some index)
      (hexisting : merged[index]?.bind DamageEdges.ofRect = some existing)
      (hloop : MergeLoop (swapRemove merged index) (candidate.expand existing) merged'
        candidate') :
      MergeLoop merged candidate merged' candidate'

/-- The loop over the damage, from the rectangles collected so far to the result. -/
inductive CoalesceRun : List DamageRect → List DamageRect → List DamageRect → Prop
  | done {merged : List DamageRect} : CoalesceRun merged [] merged
  | skip {merged rects out : List DamageRect} {rect : DamageRect}
      (h : DamageEdges.ofRect rect = none) (hrest : CoalesceRun merged rects out) :
      CoalesceRun merged (rect :: rects) out
  | collect {merged merged' rects out : List DamageRect} {rect : DamageRect}
      {candidate candidate' : DamageEdges} (h : DamageEdges.ofRect rect = some candidate)
      (hloop : MergeLoop merged candidate merged' candidate')
      (hrest : CoalesceRun
        (merged' ++ [if candidate'.fitI32 then candidate'.toRect else rect]) rects out) :
      CoalesceRun merged (rect :: rects) out

theorem length_swapRemove {α : Type} {l : List α} (hl : l ≠ []) (index : ℕ) :
    (swapRemove l index).length = l.length - 1 := by
  unfold swapRemove
  rw [List.getLast?_eq_some_getLast hl]
  simp

/-- A rectangle that is merged has edges. -/
theorem existing_of_findIdx {index : ℕ} (h : merged.findIdx? candidate.canMerge = some index) :
    ∃ existing, merged[index]?.bind DamageEdges.ofRect = some existing := by
  obtain ⟨hlt, hmerge, -⟩ := List.findIdx?_eq_some_iff_getElem.mp h
  rw [List.getElem?_eq_getElem hlt, Option.bind_some]
  cases hedges : DamageEdges.ofRect merged[index] with
  | none => simp [DamageEdges.canMerge, hedges] at hmerge
  | some existing => exact ⟨existing, rfl⟩

/-- As many turns as there are rectangles suffice: each turn takes one out. -/
theorem mergeLoop_mergeCandidate {fuel : ℕ} (hfuel : merged.length ≤ fuel) :
    MergeLoop merged candidate (mergeCandidate fuel merged candidate).1
      (mergeCandidate fuel merged candidate).2 := by
  induction fuel generalizing merged candidate with
  | zero =>
    obtain rfl := List.length_eq_zero_iff.mp (Nat.le_zero.mp hfuel)
    exact .done rfl
  | succ fuel ih =>
    unfold mergeCandidate
    cases hfind : merged.findIdx? candidate.canMerge with
    | none => exact .done hfind
    | some index =>
      obtain ⟨existing, hexisting⟩ := existing_of_findIdx hfind
      have hne : merged ≠ [] := by
        rintro rfl
        simp at hfind
      simp only [hexisting]
      refine .turn hfind hexisting (ih ?_)
      rw [length_swapRemove hne]
      omega

theorem MergeLoop.unique {merged₁ merged₂ : List DamageRect} {candidate₁ candidate₂ : DamageEdges}
    (h₁ : MergeLoop merged candidate merged₁ candidate₁)
    (h₂ : MergeLoop merged candidate merged₂ candidate₂) :
    merged₁ = merged₂ ∧ candidate₁ = candidate₂ := by
  induction h₁ with
  | done hnone =>
    cases h₂ with
    | done => exact ⟨rfl, rfl⟩
    | turn hsome => simp [hnone] at hsome
  | turn hsome hexisting _ ih =>
    cases h₂ with
    | done hnone => simp [hsome] at hnone
    | turn hsome' hexisting' hloop' =>
      obtain rfl := Option.some.inj (hsome.symm.trans hsome')
      obtain rfl := Option.some.inj (hexisting.symm.trans hexisting')
      exact ih hloop'

theorem CoalesceRun.unique {out' : List DamageRect} (h : CoalesceRun merged rects out)
    (h' : CoalesceRun merged rects out') : out = out' := by
  induction h with
  | done =>
    cases h'
    rfl
  | skip hedges _ ih =>
    cases h' with
    | skip _ hrest => exact ih hrest
    | collect hedges' => simp [hedges] at hedges'
  | collect hedges hloop _ ih =>
    cases h' with
    | skip hedges' => simp [hedges] at hedges'
    | collect hedges' hloop' hrest =>
      obtain rfl := Option.some.inj (hedges.symm.trans hedges')
      obtain ⟨rfl, rfl⟩ := hloop.unique hloop'
      exact ih hrest

theorem coalesceRun_foldl : CoalesceRun merged rects (rects.foldl coalesceRect merged) := by
  induction rects generalizing merged with
  | nil => exact .done
  | cons rect rects ih =>
    rw [List.foldl_cons]
    cases hedges : DamageEdges.ofRect rect with
    | none =>
      have hskip : coalesceRect merged rect = merged := by simp [coalesceRect, hedges]
      rw [hskip]
      exact .skip hedges ih
    | some candidate =>
      refine .collect hedges (mergeLoop_mergeCandidate le_rfl) ?_
      have hcollect : coalesceRect merged rect =
          (mergeCandidate merged.length merged candidate).1 ++
            [if (mergeCandidate merged.length merged candidate).2.fitI32 then
              (mergeCandidate merged.length merged candidate).2.toRect else rect] := by
        simp only [coalesceRect, hedges]
        split_ifs <;> rfl
      rw [hcollect]
      exact ih

/-! ## Boxes -/

namespace DamageEdges

/-- The edges enclose an area. -/
def Positive (e : DamageEdges) : Prop := e.x0 < e.x1 ∧ e.y0 < e.y1

/-- No edge lies outside the box. -/
def Within (e box : DamageEdges) : Prop :=
  box.x0 ≤ e.x0 ∧ box.y0 ≤ e.y0 ∧ e.x1 ≤ box.x1 ∧ e.y1 ≤ box.y1

theorem within_self (e : DamageEdges) : e.Within e := ⟨le_rfl, le_rfl, le_rfl, le_rfl⟩

theorem expand_within {a b c : DamageEdges} :
    (a.expand b).Within c ↔ a.Within c ∧ b.Within c := by
  simp only [Within, expand]
  omega

theorem Positive.expand {a b : DamageEdges} (ha : a.Positive) : (a.expand b).Positive := by
  simp only [Positive, DamageEdges.expand] at ha ⊢
  omega

theorem ofRect_eq_some {rect : DamageRect} {e : DamageEdges} :
    ofRect rect = some e ↔ e.Positive ∧ e.toRect = rect := by
  unfold ofRect
  split_ifs with hempty
  · simp only [false_iff, not_and, Positive]
    rintro hpos rfl
    simp only [toRect] at hempty
    omega
  · rw [Option.some.injEq]
    constructor
    · rintro rfl
      refine ⟨?_, ?_⟩
      · simp only [Positive]
        omega
      · simp [toRect]
    · rintro ⟨-, rfl⟩
      simp [toRect]

end DamageEdges

/-- A rectangle with an area that lies in the box. -/
def DamageRect.Within (rect : DamageRect) (box : DamageEdges) : Prop :=
  ∃ e, DamageEdges.ofRect rect = some e ∧ e.Within box

/-- The smallest box around the rectangles that have an area. -/
def boundingBox : List DamageRect → Option DamageEdges
  | [] => none
  | rect :: rects =>
    match DamageEdges.ofRect rect, boundingBox rects with
    | some e, some box => some (e.expand box)
    | some e, none => some e
    | none, box => box

/-- A box holds the bounding box if and only if it holds every rectangle with an area. -/
theorem boundingBox_within : (∀ e ∈ boundingBox damage, e.Within box) ↔
    ∀ rect ∈ damage, ∀ e ∈ DamageEdges.ofRect rect, e.Within box := by
  induction damage with
  | nil => simp [boundingBox]
  | cons rect rects ih =>
    rw [List.forall_mem_cons, ← ih, boundingBox]
    cases DamageEdges.ofRect rect <;> cases boundingBox rects <;>
      simp [DamageEdges.expand_within]

theorem boundingBox_isSome (hmem : rect ∈ damage) {e : DamageEdges}
    (hedges : DamageEdges.ofRect rect = some e) : (boundingBox damage).isSome = true := by
  induction damage with
  | nil => simp at hmem
  | cons head rects ih =>
    rw [boundingBox]
    rcases List.mem_cons.mp hmem with rfl | hmem
    · rw [hedges]
      cases boundingBox rects <;> rfl
    · obtain ⟨b, hb⟩ := Option.isSome_iff_exists.mp (ih hmem)
      rw [hb]
      cases DamageEdges.ofRect head <;> rfl

/-! ## Every result -/

/-- A candidate and the collected rectangles stay in every box. -/
theorem MergeLoop.within {merged' : List DamageRect} {candidate' : DamageEdges}
    (h : MergeLoop merged candidate merged' candidate')
    (hmerged : ∀ rect ∈ merged, rect.Within box) (hcandidate : candidate.Within box) :
    (∀ rect ∈ merged', rect.Within box) ∧ candidate'.Within box := by
  induction h with
  | done => exact ⟨hmerged, hcandidate⟩
  | turn _ hexisting _ ih =>
    obtain ⟨rect, hget, hedges⟩ := Option.bind_eq_some_iff.mp hexisting
    obtain ⟨e, he, hwithin⟩ := hmerged rect (List.mem_of_getElem? hget)
    obtain rfl := Option.some.inj (he.symm.trans hedges)
    exact ih (fun other hother => hmerged other (mem_of_mem_swapRemove hother))
      (DamageEdges.expand_within.mpr ⟨hcandidate, hwithin⟩)

theorem MergeLoop.positive {merged' : List DamageRect} {candidate' : DamageEdges}
    (h : MergeLoop merged candidate merged' candidate') (hpos : candidate.Positive) :
    candidate'.Positive := by
  induction h with
  | done => exact hpos
  | turn _ _ _ ih => exact ih hpos.expand

/-- What is collected stays in every box around the declared rectangles. -/
theorem CoalesceRun.within (h : CoalesceRun merged rects out)
    (hmerged : ∀ rect ∈ merged, rect.Within box)
    (hrects : ∀ rect ∈ rects, ∀ e ∈ DamageEdges.ofRect rect, e.Within box) :
    ∀ rect ∈ out, rect.Within box := by
  induction h with
  | done => exact hmerged
  | skip _ _ ih => exact ih hmerged fun rect hrect => hrects rect (List.mem_cons_of_mem _ hrect)
  | @collect merged merged' rects out rect candidate candidate' hedges hloop _ ih =>
    obtain ⟨hmerged', hcandidate'⟩ :=
      hloop.within hmerged (hrects rect List.mem_cons_self candidate hedges)
    have hpos := hloop.positive (DamageEdges.ofRect_eq_some.mp hedges).1
    refine ih (fun other hother => ?_) fun r hr => hrects r (List.mem_cons_of_mem _ hr)
    rcases List.mem_append.mp hother with hold | hnew
    · exact hmerged' other hold
    · rw [List.mem_singleton.mp hnew]
      split_ifs
      · exact ⟨candidate', DamageEdges.ofRect_eq_some.mpr ⟨hpos, rfl⟩, hcandidate'⟩
      · exact ⟨candidate, hedges, hrects rect List.mem_cons_self candidate hedges⟩

/-- A rectangle of the result lies in the bounding box of the declared ones. -/
theorem coalesceDamageRects_within (h : rect ∈ coalesceDamageRects damage) :
    ∃ box, boundingBox damage = some box ∧ rect.Within box := by
  have hrun : CoalesceRun [] damage (coalesceDamageRects damage) := coalesceRun_foldl
  cases hbox : boundingBox damage with
  | some box =>
    refine ⟨box, rfl, hrun.within (by simp) (boundingBox_within.mp fun e he => ?_) rect h⟩
    obtain rfl := Option.some.inj (hbox.symm.trans he)
    exact DamageEdges.within_self _
  | none =>
    -- No rectangle has an area, so nothing is collected: any box will do.
    have hnone : ∀ declared ∈ damage, DamageEdges.ofRect declared = none := by
      intro declared hmem
      cases hedges : DamageEdges.ofRect declared with
      | none => rfl
      | some e => simpa [hbox] using boundingBox_isSome hmem hedges
    have hbelow : ∀ r ∈ coalesceDamageRects damage, r.Within ⟨0, 0, 0, 0⟩ :=
      hrun.within (by simp) fun declared hmem e he => by
        rw [hnone declared hmem] at he
        cases he
    obtain ⟨e, he, hwithin⟩ := hbelow rect h
    have hpos := (DamageEdges.ofRect_eq_some.mp he).1
    simp only [DamageEdges.Within, DamageEdges.Positive] at hwithin hpos
    omega

/-- The far edges of a rectangle of the result are values of `i32`, unless it was declared. -/
theorem coalesceDamageRects_far (h : rect ∈ coalesceDamageRects damage) :
    rect ∈ damage ∨
      DamageEdges.InI32 (rect.x + rect.width) ∧ DamageEdges.InI32 (rect.y + rect.height) := by
  refine (mem_coalesceDamageRects h).imp_right fun ⟨e, hfit, heq⟩ => ?_
  obtain ⟨-, -, e', he', -⟩ := coalesceDamageRects_within h
  obtain ⟨hpos, rfl⟩ := DamageEdges.ofRect_eq_some.mp he'
  obtain ⟨hw, hh⟩ : 0 < e'.toRect.width ∧ 0 < e'.toRect.height := by
    simp only [DamageEdges.Positive, DamageEdges.toRect] at hpos ⊢
    omega
  rw [heq] at hw hh ⊢
  obtain ⟨-, -, hleft, htop, hright, hbottom⟩ := fitsI32_toRect hfit hw hh
  simp only [DamageEdges.InI32]
  omega

/-- The four values of the rectangle are values of `i32`. -/
def DamageRect.IsI32 (rect : DamageRect) : Prop :=
  DamageEdges.InI32 rect.x ∧ DamageEdges.InI32 rect.y ∧ DamageEdges.InI32 rect.width ∧
    DamageEdges.InI32 rect.height

/-- The conversions of edges back to `i32` lose nothing. -/
theorem coalesceDamageRects_isI32 (hdamage : ∀ declared ∈ damage, declared.IsI32)
    (h : rect ∈ coalesceDamageRects damage) : rect.IsI32 := by
  rcases mem_coalesceDamageRects h with hmem | ⟨e, hfit, rfl⟩
  · exact hdamage rect hmem
  · obtain ⟨-, -, e', he', -⟩ := coalesceDamageRects_within h
    obtain ⟨hpos, heq⟩ := DamageEdges.ofRect_eq_some.mp he'
    simp only [DamageEdges.toRect, DamageRect.mk.injEq] at heq
    simp only [DamageEdges.fitI32, Bool.and_eq_true, decide_eq_true_eq] at hfit
    simp only [DamageEdges.Positive] at hpos
    simp only [DamageRect.IsI32, DamageEdges.InI32, DamageEdges.toRect]
    unfold DamageEdges.i32Min DamageEdges.i32Max at *
    omega

/-- Coalescing ends with one result. It has every pixel of the declared rectangles and stays in
their bounding box; a rectangle of it was declared, or its far edges are values of `i32`. -/
theorem damage_coalescing (damage : List DamageRect) :
    (∀ out, CoalesceRun [] damage out ↔ out = coalesceDamageRects damage) ∧
    (∀ rect ∈ damage, ∀ x y, rect.HasPixel x y →
      damageHasPixel (coalesceDamageRects damage) x y) ∧
    (∀ rect ∈ coalesceDamageRects damage, ∃ box, boundingBox damage = some box ∧
      rect.Within box) ∧
    ∀ rect ∈ coalesceDamageRects damage, rect ∈ damage ∨
      DamageEdges.InI32 (rect.x + rect.width) ∧ DamageEdges.InI32 (rect.y + rect.height) := by
  have hrun : CoalesceRun [] damage (coalesceDamageRects damage) := coalesceRun_foldl
  refine ⟨fun out => ⟨fun hout => hout.unique hrun, fun heq => heq ▸ hrun⟩, ?_, ?_, ?_⟩
  · exact fun rect hrect x y hpixel => coalesceDamageRects_covers ⟨rect, hrect, hpixel⟩
  · exact fun rect hrect => coalesceDamageRects_within hrect
  · exact fun rect hrect => coalesceDamageRects_far hrect

/-- Two rectangles that touch are merged, and one whose far edge is out of range is left alone. -/
example : coalesceDamageRects [⟨0, 0, 4, 2⟩, ⟨2147483647, 0, 2, 2⟩, ⟨4, 0, 4, 2⟩] =
    [⟨2147483647, 0, 2, 2⟩, ⟨0, 0, 8, 2⟩] := by decide

end Sommelier
