import Sommelier.Handler.HostDamage
import Sommelier.Objects.SurfaceFrame

/-!
# Damage of a commit

The damage of all requests since a surface was last committed reaches the host right before
the next commit that is forwarded, whatever the requests in between. The rectangles are
representable unless a viewport enlarges damage beyond `i32`.

## Main definitions

* `keepsDamage`: messages between two commits of a surface.
* `Message.addDamage`: the damage a message declares for a surface.
* `committed_damage`: what a commit tells the host.
-/
namespace Sommelier

variable {c c' : Context} {m : Message} {s : ℕ}

/-- The message neither ends the surface nor has its pending damage sent. -/
def keepsDamage (s : ℕ) (c : Context) : Message → Bool
  | .commit t env => t != s || (onCommit .f64 c t env).1 != .forwarded
  | .destroySurface t => t != s
  | _ => true

/-- The damage pending for the next commit, in surface and buffer coordinates. -/
def SurfaceState.pendingDamage (x : SurfaceState) : DamageRegion × DamageRegion :=
  (x.pendingSurfaceDamage, x.pendingBufferDamage)

def Context.pendingDamage (c : Context) (s : ℕ) : DamageRegion × DamageRegion :=
  (c.surfaceOrDefault s).pendingDamage

/-- The pending damage of the surface after the message. -/
def Message.addDamage (s : ℕ) (pending : DamageRegion × DamageRegion) :
    Message → DamageRegion × DamageRegion
  | .damage t rect => if s = t then (pending.1.push rect, pending.2) else pending
  | .damageBuffer t rect => if s = t then (pending.1, pending.2.push rect) else pending
  | _ => pending

theorem pendingDamage_eq (c : Context) (s : ℕ) :
    c.pendingDamage s = (c.doubleBuffered s).pendingDamage :=
  rfl

theorem DropsReferences.pendingDamage (hd : DropsReferences c c') (s : ℕ) :
    c'.pendingDamage s = c.pendingDamage s := by
  rcases hd with hsame | ⟨g, hsame⟩
  · rw [Context.pendingDamage, hsame.surfaceOrDefault, Context.pendingDamage]
  · rw [Context.pendingDamage, hsame.surfaceOrDefault]
    simp only [Context.pendingDamage, Context.surfaceOrDefault, clearSurfaceBufferReferences,
      Table.get_mapValues]
    cases c.surfaces.get s with
    | none => rfl
    | some x =>
      have hx := congrArg SurfaceState.pendingDamage
        (clearCurrentBufferReference_doubleBuffered x g)
      simp only [Option.map_some, Option.getD_some]
      split_ifs
      · exact hx
      · exact hx

/-- An update that declares no damage for the surface. -/
theorem updated_pendingDamage {update : Option (ℕ × (SurfaceState → SurfaceState))}
    (hf : ∀ f, update = some (s, f) → ∀ x, (f x).pendingDamage = x.pendingDamage) :
    (c.updated update s).pendingDamage = c.pendingDamage s := by
  cases update with
  | none => rfl
  | some update =>
    obtain ⟨t, f⟩ := update
    simp only [Context.updated]
    split_ifs with heq
    · subst heq
      exact hf f rfl _
    · rfl

/-- One message adds the damage it declares. -/
theorem step_pendingDamage (hkeeps : keepsDamage s c m = true) (h' : step .f64 c m = some c') :
    c'.pendingDamage s = m.addDamage s (c.pendingDamage s) := by
  by_cases hend : ∀ g, m ≠ .destroyBuffer g ∧ m ≠ .release g
  · rw [pendingDamage_eq, step_updated hend h']
    by_cases hdamage : ∃ t rect, m = .damage t rect ∨ m = .damageBuffer t rect
    · obtain ⟨t, rect, rfl | rfl⟩ := hdamage <;>
      · simp only [Message.surfaceUpdate, Context.updated, Message.addDamage]
        split_ifs with heq
        · subst heq
          rfl
        · rfl
    push Not at hdamage
    have hsame : m.addDamage s (c.pendingDamage s) = c.pendingDamage s := by
      cases m <;> first | rfl | simp at hdamage
    rw [hsame]
    refine updated_pendingDamage fun f hupdate x => ?_
    cases m <;> simp only [Message.surfaceUpdate, Option.map_eq_some_iff, Option.some.injEq,
      Prod.mk.injEq, reduceCtorEq] at hupdate
    case commit t env =>
      split_ifs at hupdate with hexit
      · obtain ⟨rfl, -⟩ := Prod.mk.inj (Option.some.inj hupdate)
        simp [keepsDamage, hexit] at hkeeps
    case destroySurface t =>
      obtain ⟨rfl, -⟩ := hupdate
      simp [keepsDamage] at hkeeps
    case setSource | setDestination | destroyViewport =>
      obtain ⟨-, -, -, rfl⟩ := hupdate
      rfl
    case damage | damageBuffer => simp at hdamage
    all_goals
      obtain ⟨-, rfl⟩ := hupdate
      rfl
  · push Not at hend
    obtain ⟨g, hend⟩ := hend
    replace h' := (step_eq_some.mp h').2
    by_cases hdestroy : m = .destroyBuffer g
    · subst hdestroy
      rcases h' with h' | ⟨-, h'⟩
      · obtain ⟨-, rfl⟩ := settle_eq_some.mp (guarded_eq_some.mp h').2
        exact (bufferOnDestroy_dropsReferences c g).pendingDamage s
      · simp [eventStep] at h'
    · obtain rfl := hend hdestroy
      rcases h' with h' | ⟨-, h'⟩
      · simp [requestStep] at h'
      · rw [eventStep] at h'
        obtain rfl | ⟨-, -, h'⟩ := deliver_eq_some h'
        · rfl
        · obtain ⟨-, rfl⟩ := settle_eq_some.mp h'
          exact (bufferOnRelease_dropsReferences c g).pendingDamage s

/-- A run without a commit of the surface collects all damage declared for it. -/
theorem run_pendingDamage {ms : List Message}
    (hrun : ((objectSystem .f64).restrict (keepsDamage s)).run c ms = some c') :
    c'.pendingDamage s = ms.foldl (Message.addDamage s) (c.pendingDamage s) := by
  induction ms generalizing c with
  | nil =>
    obtain rfl := Option.some.inj hrun
    rfl
  | cons m ms ih =>
    rw [TransitionSystem.run_cons, Option.bind_eq_some_iff] at hrun
    obtain ⟨c₁, hstep, hrun⟩ := hrun
    change (if keepsDamage s c m then step .f64 c m else none) = some c₁ at hstep
    split_ifs at hstep with hkeeps
    rw [List.foldl_cons, ← step_pendingDamage hkeeps hstep]
    exact ih hrun

/-- All damage declared in a run is accounted for. -/
theorem holds_foldl_addDamage {ms : List Message} {rect : DamageRect} (hw : 0 < rect.width)
    (hh : 0 < rect.height) (pending : DamageRegion × DamageRegion) :
    (.damage s rect ∈ ms ∨ pending.1.Holds rect →
      (ms.foldl (Message.addDamage s) pending).1.Holds rect) ∧
    (.damageBuffer s rect ∈ ms ∨ pending.2.Holds rect →
      (ms.foldl (Message.addDamage s) pending).2.Holds rect) := by
  induction ms generalizing pending with
  | nil => simp
  | cons m ms ih =>
    obtain ⟨hsurface, hbuffer⟩ := ih (m.addDamage s pending)
    have hpush : (pending.1.Holds rect → (m.addDamage s pending).1.Holds rect) ∧
        (pending.2.Holds rect → (m.addDamage s pending).2.Holds rect) := by
      unfold Message.addDamage
      constructor <;> intro hold <;> split <;> try split_ifs
      all_goals first | exact hold | exact hold.push
    constructor
    · rintro (hmem | hold)
      · rcases List.mem_cons.mp hmem with rfl | hmem
        · refine hsurface (.inr ?_)
          simpa [Message.addDamage] using DamageRegion.holds_push hw hh
        · exact hsurface (.inl hmem)
      · exact hsurface (.inr (hpush.1 hold))
    · rintro (hmem | hold)
      · rcases List.mem_cons.mp hmem with rfl | hmem
        · refine hbuffer (.inr ?_)
          simpa [Message.addDamage] using DamageRegion.holds_push hw hh
        · exact hbuffer (.inl hmem)
      · exact hbuffer (.inr (hpush.2 hold))

/-! ## The commit -/

/-- The surface as a commit leaves it, and the size its damage is converted with. -/
def Context.nextState (c : Context) (s : ℕ) : SurfaceState :=
  (c.surfaceOrDefault s).prepareCommit.state

def Context.nextSize (c : Context) (s : ℕ) : ℤ × ℤ := c.contentSize (c.nextState s)

theorem isWhole_of_valid {commit : SurfaceCommit}
    (hvalid : commit.hasInvalidFractionalViewport = false) (width height : ℤ) :
    (commit.state.xAxis width).IsWhole ∧ (commit.state.yAxis height).IsWhole := by
  unfold SurfaceCommit.hasInvalidFractionalViewport at hvalid
  unfold DamageAxis.IsWhole SurfaceState.xAxis SurfaceState.yAxis SurfaceState.croppingViewport
  cases hview : commit.state.viewport with
  | none => simp
  | some viewport =>
    obtain ⟨source, destination⟩ := viewport
    cases destination with
    | some extent => cases source <;> simp [ViewportState.isIdentity, Option.filter_some]
    | none =>
      cases source with
      | none => simp [ViewportState.isIdentity, Option.filter_some]
      | some source =>
        obtain ⟨x, y, sourceWidth, sourceHeight⟩ := source
        simp only [hview, Bool.or_eq_false_iff, decide_eq_false_iff_not, not_not] at hvalid
        have hwidth := Int.dvd_of_emod_eq_zero hvalid.1
        have hheight := Int.dvd_of_emod_eq_zero hvalid.2
        simp [ViewportState.isIdentity, Option.filter_some, hwidth, hheight]

/-- What a commit that is forwarded queues: damage, the commit, and ends of buffers. -/
theorem onCommit_traffic {env : CommitEnvironment}
    (hcommit : (onCommit .f64 c s env).1 = .forwarded) : ∃ host full tail,
    c.shadowTable.getHostId s = some host ∧
    (c.surfaceOrDefault s).prepareCommit.hasInvalidFractionalViewport = false ∧
    ((c.surfaceOrDefault s).prepareCommit.hasFullDamage = true → full = true) ∧
    (onCommit .f64 c s env).2.traffic = tail ++ .commit host ::
      ((hostDamage (c.nextState s) (c.nextSize s).1 (c.nextSize s).2 (c.pendingDamage s).1.toRects
        (c.pendingDamage s).2.toRects full).map (.damage host)).reverse ++ c.traffic ∧
    ∀ m ∈ tail, ∃ h awaiting pending, m = .destroyBuffer h awaiting pending := by
  rcases onCommit_cases .f64 c s env with ⟨hexit, -⟩ |
    ⟨-, hvalid, messages, c₁, c₂, c₃, hbuild, hcopy, hwait, hfinal, heq⟩
  · exact absurd hcommit hexit
  obtain ⟨full, hforce⟩ : ∃ full, full = forceFullDamage
      (c.setSurface s (c.surfaceOrDefault s).prepareCommit.state)
      (c.surfaceOrDefault s).prepareCommit := ⟨_, rfl⟩
  rw [← hforce] at hbuild
  obtain ⟨host, hhost, rfl⟩ := buildSurfaceCommitMessages_eq_some.mp hbuild
  obtain ⟨surfaces, r, rfl, -⟩ := forwarded_eq hcopy hwait hfinal
  rw [heq]
  obtain ⟨tail, htail, hdestroys⟩ := retireEligibleBuffers_traffic _
  refine ⟨host, full, tail, hhost, hvalid, fun hfull => ?_, htail.trans ?_, hdestroys⟩
  · simp [hforce, forceFullDamage, hfull]
  · rw [queue_messages_eq, List.reverse_append, List.append_assoc, List.append_assoc]
    rfl

/-- Since the surface was last committed, all its declared damage in the damage range, and the
whole surface once a region overflowed, is told to the host right before the one commit; and
the rectangles told are representable exactly when the declared buffer damage fits. -/
theorem committed_damage {ms : List Message} {env : CommitEnvironment}
    (hrun : ((objectSystem .f64).restrict (keepsDamage s)).run c ms = some c')
    (hcommit : (onCommit .f64 c' s env).1 = .forwarded)
    (hsize : (c'.nextState s).FitsI32 (c'.nextSize s).1 (c'.nextSize s).2) :
    ∃ (host : ℕ) (told : List DamageRect) (tail : List HostTraffic),
    c'.shadowTable.getHostId s = some host ∧
    (onCommit .f64 c' s env).2.traffic =
      tail ++ .commit host :: (told.map (.damage host)).reverse ++ c'.traffic ∧
    (∀ m ∈ tail, ∃ h awaiting pending, m = .destroyBuffer h awaiting pending) ∧
    (∀ px py, (c'.nextState s).InExtent (c'.nextSize s).1 (c'.nextSize s).2 px py →
      (∃ rect, .damage s rect ∈ ms ∧ rect.HasPoint px py ∨
        .damageBuffer s rect ∈ ms ∧ (mapBufferDamage roundF64 rect (c'.nextState s)
          (c'.nextSize s).1 (c'.nextSize s).2).HasPoint px py) →
      ∃ rect ∈ told, rect.HasPoint px py) ∧
    ((∀ rect ∈ told, rect.FitsI32) ↔ ∀ rect ∈ (c'.pendingDamage s).2.toRects,
      (c'.nextState s).DamageFits (c'.nextSize s).1 (c'.nextSize s).2 rect) := by
  obtain ⟨host, full, tail, hhost, hvalid, hfull, htraffic, hdestroys⟩ := onCommit_traffic hcommit
  refine ⟨host, _, tail, hhost, htraffic, hdestroys, fun px py hin hdeclared => ?_,
    hostDamage_fits_iff hsize⟩
  have hpending := run_pendingDamage hrun
  have hwhole := isWhole_of_valid hvalid
  obtain ⟨⟨hx0, -, hxmax⟩, hy0, -, hymax⟩ := id hin
  have hmin : (damageMin : ℚ) ≤ 0 := by norm_num [damageMin]
  obtain ⟨rect, ⟨hmem, hpoint⟩ | ⟨hmem, hpoint⟩⟩ := hdeclared
  · obtain ⟨hw, hh⟩ := (DamageRect.hasPoint_iff.mp hpoint).pos
    have hholds := (holds_foldl_addDamage hw hh (c.pendingDamage s)).1 (.inl hmem)
    rw [← hpending] at hholds
    rcases hholds with hisFull | hlisted
    · refine hostDamage_covers_full hsize (hfull ?_) hwhole hin
      simp only [SurfaceCommit.hasFullDamage, Bool.or_eq_true]
      exact .inl hisFull
    · exact hostDamage_covers_surface hlisted hpoint ⟨hmin.trans hx0, hxmax⟩ ⟨hmin.trans hy0, hymax⟩
  · obtain ⟨hw, hh⟩ : 0 < rect.width ∧ 0 < rect.height := by
      by_contra hempty
      have hpos := (DamageRect.hasPoint_iff.mp hpoint).pos
      unfold mapBufferDamage at hpos
      rw [if_pos (by omega)] at hpos
      simp at hpos
    have hholds := (holds_foldl_addDamage hw hh (c.pendingDamage s)).2 (.inl hmem)
    rw [← hpending] at hholds
    rcases hholds with hisFull | hlisted
    · refine hostDamage_covers_full hsize (hfull ?_) hwhole hin
      simp only [SurfaceCommit.hasFullDamage, Bool.or_eq_true]
      exact .inr hisFull
    · exact hostDamage_covers_buffer hlisted hpoint

/-- A buffer of four by four pixels, attached to a surface that a viewport enlarges. -/
def enlargedRun : List Message :=
  [.newObject 1 2 .wlRegistry, .newObject 2 3 .zwpLinuxDmabufV1,
    .createParams 3 4, .addPlane 4 ⟨0, 0, 16, 0⟩ true, .createImmed 4 5 4 4 0x34325258 true,
    .newObject 2 6 .wlCompositor, .newObject 6 7 .wlSurface, .newObject 2 8 .wpViewporter,
    .getViewport 8 9 7, .setDestination 9 64 64, .attach 7 5 0 0]

/-- Damage inside the buffer fits. -/
theorem committed_damage_enlarged : ∃ (c : Context) (told : List DamageRect),
    (objectSystem .f64).run .new (enlargedRun ++ [.damageBuffer 7 ⟨1, 1, 2, 2⟩]) = some c ∧
    (onCommit .f64 c 7 ⟨true, true, true, true, .synchronized⟩).1 = .forwarded ∧
    (∀ rect ∈ told, rect.FitsI32) ∧ ∃ rect ∈ told, rect.HasPoint 20 20 := by
  have hrun : (((objectSystem .f64).restrict (keepsDamage 7)).run .new
      (enlargedRun ++ [.damageBuffer 7 ⟨1, 1, 2, 2⟩])).map (fun c =>
        ((onCommit .f64 c 7 ⟨true, true, true, true, .synchronized⟩).1, c.nextSize 7,
          c.nextState 7, (c.pendingDamage 7).2.toRects)) =
      some (.forwarded, (4, 4), { SurfaceState.new with
        currentContent := some { bufferId := some 5, dimensions := none }
        viewport := some { source := none, destination := some (64, 64) } },
        [⟨1, 1, 2, 2⟩]) := by decide +kernel
  obtain ⟨c, hc, heq⟩ := Option.map_eq_some_iff.mp hrun
  simp only [Prod.mk.injEq] at heq
  obtain ⟨hexit, hsize, hstate, hpending⟩ := heq
  have hfits : (c.nextState 7).FitsI32 (c.nextSize 7).1 (c.nextSize 7).2 := by
    rw [hsize, hstate]
    have haxis : DamageAxis.FitsI32 ⟨1, 4, none, some 64⟩ :=
      { scale := ⟨by decide, by decide⟩
        contents := ⟨by decide, by decide⟩
        source := fun _ _ hsource => by simp at hsource
        destination := fun _ hdest => Option.some.inj hdest ▸ ⟨by decide, by decide⟩ }
    exact ⟨haxis, haxis⟩
  obtain ⟨host, told, tail, -, -, -, hcovers, hrects⟩ := committed_damage hc hexit hfits
  refine ⟨c, told, TransitionSystem.run_of_restrict hc, hexit, hrects.mpr ?_, hcovers 20 20 ?_ ?_⟩
  · rw [hpending, hstate, hsize]
    decide +kernel
  · rw [hstate, hsize]
    unfold SurfaceState.InExtent
    decide +kernel
  · refine ⟨⟨1, 1, 2, 2⟩, .inr ⟨by simp, ?_⟩⟩
    rw [hstate, hsize]
    decide +kernel

/-- Damage far beyond the buffer, enlarged sixteen times, is told as a rectangle whose far
edge is no value of `i32`. -/
theorem damage_beyond_i32 : ¬ ∀ c, (objectSystem .f64).Reachable c → ∀ s env,
    (onCommit .f64 c s env).1 = .forwarded → ∀ host rect,
      .damage host rect ∈ (onCommit .f64 c s env).2.traffic → rect.FitsI32 := by
  have hrun : ((objectSystem .f64).run .new
      (enlargedRun ++ [.damageBuffer 7 ⟨134217729, 0, 1, 1⟩])).map (fun c =>
        ((onCommit .f64 c 7 ⟨true, true, true, true, .synchronized⟩).1,
          (onCommit .f64 c 7 ⟨true, true, true, true, .synchronized⟩).2.traffic.take 2)) =
      some (.forwarded, [.commit 7, .damage 7 ⟨2147483647, -16, 1, 48⟩]) := by decide +kernel
  obtain ⟨c, hc, heq⟩ := Option.map_eq_some_iff.mp hrun
  obtain ⟨hexit, htraffic⟩ := Prod.mk.inj heq
  intro hfits
  have hmem := List.mem_of_mem_take (htraffic ▸ List.mem_cons_of_mem _ List.mem_cons_self)
  exact absurd (hfits c (.run (.init rfl) hc) 7 _ hexit _ _ hmem).right (by decide)

end Sommelier
