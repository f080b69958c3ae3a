import Sommelier.Handler.DamageMapping
import Sommelier.Objects.ShownBuffers
import Sommelier.Objects.SurfaceFrame

/-!
# Commits that fail

A commit that is not forwarded leaves no trace but marks: the surfaces, the uses of buffers
and the requests for the host are those from before. The pass for deferred destructors that
follows a failure has nothing to do, since every message leaves none behind that is due.

## Main definitions

* `Settled`: no deferred destructor is due.
* `failed_commit`: what a failed commit leaves as it was.
-/
namespace Sommelier

variable {maps : DamageMapping} {lost : Set ℕ} {c c' : Context} {g h s : ℕ}

/-! ## Deferred destructors that are due -/

/-- When the destructor of a deferred buffer is due. -/
theorem retirable_iff : Retirable c g h ↔ c.shadowTable.guestToHost.get g = some h ∧
    c.renderBuffers.phase h = some .guestDestroyed ∧ ¬ c.Pends g ∧
    (¬ c.Shows g ∨ c.renderBuffers.useState h = some .released) ∧
    (c.renderBuffers.useState h).any RenderBufferUse.isAwaitingRelease = false := by
  unfold Retirable
  refine and_congr_right fun hg => and_congr_right fun hphase => ?_
  have hne : c.renderBuffers.phase h ≠ none := by simp [hphase]
  have hreleased : c.bufferIsReleased g = true ↔ c.renderBuffers.useState h = some .released := by
    simp [Context.bufferIsReleased, Context.hostBufferUse, renderBufferHostId_eq hg hne]
  rw [canRetireDeferredBuffer_iff, bufferIsSubmitted_eq hg hne, hreleased]
  tauto

/-- No deferred destructor is due. -/
def Settled (c : Context) : Prop := ∀ g h, ¬ Retirable c g h

namespace Settled

/-- Buffers that stay in their use and references stay undue. -/
theorem congr (hs : Settled c) (hold : ∀ g h, c'.shadowTable.guestToHost.get g = some h →
    c'.renderBuffers.phase h = some .guestDestroyed → ¬ c'.Pends g →
    (¬ c'.Shows g ∨ c'.renderBuffers.useState h = some .released) →
    (c'.renderBuffers.useState h).any RenderBufferUse.isAwaitingRelease = false →
    c.shadowTable.guestToHost.get g = some h ∧
      (c'.renderBuffers.phase h = c.renderBuffers.phase h ∧
        c'.renderBuffers.useState h = c.renderBuffers.useState h) ∧
      (c.Pends g → c'.Pends g) ∧ (c.Shows g → c'.Shows g)) : Settled c' := by
  intro g h hr
  obtain ⟨hg, hphase, hpends, hshows, hidle⟩ := retirable_iff.mp hr
  obtain ⟨hg', ⟨hphase', huse⟩, hpends', hshows'⟩ := hold g h hg hphase hpends hshows hidle
  rw [hphase'] at hphase
  rw [huse] at hshows hidle
  exact hs g h (retirable_iff.mpr ⟨hg', hphase, mt hpends' hpends,
    hshows.imp_left (mt hshows'), hidle⟩)

theorem sameUse_of_get {r r' : RenderBufferRegistry BufferState} (hentry : r'.get h = r.get h) :
    r'.phase h = r.phase h ∧ r'.useState h = r.useState h := by
  simp only [RenderBufferRegistry.phase, RenderBufferRegistry.useState,
    RenderBufferRegistry.activeBuffer, hentry, and_self]

/-- The pass for deferred destructors leaves none behind. -/
theorem retire (hc : Consistent lost c) : Settled (retireEligibleBuffers c) := by
  have hf := (retireEligibleBuffers_spec hc).2
  intro g h hr
  obtain ⟨hg, hphase, hpends, hshows, hidle⟩ := retirable_iff.mp hr
  have hg' := hf.mapped g h hg
  by_cases hgone : Retirable c g h
  · rcases hf.destroyed g h hg' hgone with hnone | hqueued
    · simp [hnone] at hphase
    · simp [hqueued] at hphase
  · have hentry := (hf.kept g h hg' hgone).2
    rw [hf.useState hg' hgone] at hshows hidle
    rw [hf.shows] at hshows
    rw [hf.pends] at hpends
    rw [RenderBufferRegistry.phase, hentry] at hphase
    exact hgone (retirable_iff.mpr ⟨hg', hphase, hpends, hshows, hidle⟩)

/-- Nothing is left to do for the pass. -/
theorem retire_eq (hs : Settled c) (hc : Consistent lost c) : retireEligibleBuffers c = c := by
  have hnone : retirementCandidates c = [] :=
    List.eq_nil_iff_forall_not_mem.mpr fun ids hmem =>
      hs ids.1 ids.2 ((mem_retirementCandidates hc).mp hmem)
  rw [retireEligibleBuffers, hnone, List.foldl_nil]

theorem of_frame (hs : Settled c) (hc : Consistent lost c) (hc' : Consistent lost c')
    (hf : BufferFrame c c') : Settled c' := by
  refine hs.congr fun g h hg hphase _ _ _ => ?_
  have hentry : c'.renderBuffers.get h = c.renderBuffers.get h := by
    refine (hf.entries h).resolve_right fun hfresh => ?_
    obtain ⟨e, he, hdestroyed⟩ := Option.map_eq_some_iff.mp hphase
    obtain ⟨buffer, rfl, -⟩ := hfresh.2 e he
    simp [RenderBuffer.phase] at hdestroyed
  have hphase' : c.renderBuffers.phase h = some .guestDestroyed := by
    rwa [RenderBufferRegistry.phase, ← hentry]
  obtain ⟨g', hmap⟩ := Option.ne_none_iff_exists'.mp (hc.entry_mapped h (by simp [hphase']))
  have hkept := hf.mapped g' h ((hc.paired g' h).mpr hmap)
    (RenderBufferRegistry.activeBuffer_isSome_iff.mpr (.inr hphase'))
  obtain rfl := hc'.paired.guest_inj hg hkept
  exact ⟨(hc.paired g h).mpr hmap, sameUse_of_get hentry, hf.pends.mpr, hf.shows.mpr⟩

/-- Changes of other tables. -/
theorem of_eq (hs : Settled c) (htable : c'.shadowTable.guestToHost = c.shadowTable.guestToHost)
    (hentries : c'.renderBuffers = c.renderBuffers) (hsurfaces : c'.surfaces = c.surfaces) :
    Settled c' := by
  refine hs.congr fun g h hg _ _ _ _ => ?_
  simp only [Context.Pends, Context.Shows, hsurfaces]
  exact ⟨htable ▸ hg, by rw [hentries]; exact ⟨rfl, rfl⟩, id, id⟩

theorem undone (hs : Settled c) (hu : Undone c c') : Settled c' := by
  obtain ⟨surfaces, r, fatal, hsame, huses, rfl⟩ := hu
  refine hs.congr fun g h hg _ _ _ _ => ⟨hg, huses h, ?_, ?_⟩
  · rintro ⟨t, x, hget, hpend⟩
    exact ⟨t, x, (hsame t).trans hget, hpend⟩
  · rintro ⟨t, x, hget, hshown⟩
    exact ⟨t, x, (hsame t).trans hget, hshown⟩

/-- A buffer that is destroyed at once leaves the others alone. -/
theorem retireBuffer (hs : Settled c) {r : RenderBufferRegistry BufferState}
    (hc : Consistent lost { c with renderBuffers := r })
    (hg : c.shadowTable.guestToHost.get g = some h)
    (hphase : r.phase h = some .guestAlive ∨ r.phase h = some .guestDestroyed)
    (hother : ∀ h', h' ≠ h → r.get h' = c.renderBuffers.get h') :
    Settled (clearSurfaceBufferReferences
      (Sommelier.retireBuffer { c with renderBuffers := r } g h) g) := by
  have hf := retireBuffer_frame hc hg hphase
  have hbuffers : ∀ t, (Sommelier.retireBuffer { c with renderBuffers := r } g h).buffersOf t =
      c.buffersOf t := by
    simp only [Context.buffersOf, Context.surfaceOrDefault, hf.surfaces, implies_true]
  refine hs.congr fun g' h' hg' hdestroyed _ _ _ => ?_
  have hmap : c.shadowTable.guestToHost.get g' = some h' := hf.mapped g' h' hg'
  have hne : ¬ (g', h') = (g, h) := by
    intro heq
    rcases hf.destroyed g' h' hmap heq with hnone | hqueued
    · exact absurd (hnone.symm.trans hdestroyed) (by simp)
    · exact absurd (hqueued.symm.trans hdestroyed) (by simp)
  have hgne : g' ≠ g := by
    rintro rfl
    exact hne (by rw [Option.some.inj (hmap.symm.trans hg)])
  have hhne : h' ≠ h := by
    rintro rfl
    exact hgne (hc.paired.guest_inj hmap hg)
  refine ⟨hmap, sameUse_of_get ((hf.kept g' h' hmap hne).2.trans (hother h' hhne)),
    fun hpends => ?_, fun hshows => ?_⟩
  · obtain ⟨t, ht⟩ := pends_iff_buffersOf.mp hpends
    refine pends_iff_buffersOf.mpr ⟨t, ?_⟩
    rw [Presented.buffersOf_clearReferences, hbuffers, ht]
    exact if_neg fun heq => hgne (SurfaceAttachment.attach.inj heq)
  · obtain ⟨t, ht⟩ := shows_iff_buffersOf.mp hshows
    refine shows_iff_buffersOf.mpr ⟨t, ?_⟩
    rw [Presented.buffersOf_clearReferences, hbuffers, ht]
    exact if_neg fun heq => hgne (Option.some.inj heq)

theorem onCommit (hs : Settled c) (hc : Consistent lost c) (maps : DamageMapping) (s : ℕ)
    (env : CommitEnvironment) : Settled (onCommit maps c s env).2 := by
  rcases onCommit_cases maps c s env with ⟨-, -, c₀, hundone, heq | heq⟩ |
    ⟨-, -, messages, c₁, c₂, c₃, hbuild, hcopy, hwait, hfinal, heq⟩ <;> rw [heq]
  · exact hs.undone hundone
  · exact .retire (hundone.consistent hc)
  · obtain ⟨surfaces, r, rfl, hphase, hbuffers⟩ := forwarded_eq hcopy hwait hfinal
    exact .retire ((hc.forwarded hphase hbuffers).queue_messages
      (buildSurfaceCommitMessages_quiet hbuild))

theorem bufferOnDestroy (hs : Settled c) (hc : Consistent lost c)
    (hallowed : c.senderAllowed g .wlBuffer = true) : Settled (bufferOnDestroy c g).2 := by
  obtain ⟨h, buffer, hg, he, ⟨hheld, hused, heq⟩ | ⟨-, -, heq⟩⟩ :=
    bufferOnDestroy_cases hc hallowed <;> rw [heq]
  · obtain ⟨hi, hlive, -⟩ := senderAllowed_iff.mp hallowed
    obtain ⟨versions, hretire⟩ :=
      ShadowTable.retireGuestObject_mapped hg hi (hc.unlisted g h hg hlive)
    rw [hretire]
    have hne : c.renderBuffers.phase h ≠ none := by simp [RenderBufferRegistry.phase, he]
    have huses : ∀ h', RenderBufferRegistry.useState
        (c.renderBuffers.set h (.guestDestroyed buffer)) h' = c.renderBuffers.useState h' := by
      intro h'
      by_cases heq : h' = h
      · simp [RenderBufferRegistry.useState, RenderBufferRegistry.activeBuffer, heq, he,
          RenderBuffer.active]
      · simp [RenderBufferRegistry.useState, RenderBufferRegistry.activeBuffer, heq]
    refine hs.congr fun g' h' hg' _ hpends hshows hidle => ⟨hg', ?_, id, id⟩
    -- The deferred buffer itself is not due: it was not released, and something uses it.
    have hother : h' ≠ h := by
      rintro rfl
      obtain rfl := hc.paired.guest_inj hg' hg
      simp only [huses] at hshows hidle
      have hreleased : c.renderBuffers.useState h' = some .released → c.Pends g' := by
        intro huse
        refine hheld ?_
        simp [Context.bufferIsReleased, Context.hostBufferUse, renderBufferHostId_eq hg hne, huse]
      rw [bufferIsSubmitted_eq hg hne, hidle] at hused
      have hshown : c.Shows g' :=
        (hused.resolve_left (by simp)).resolve_right hpends
      exact hpends (hreleased (hshows.resolve_left (not_not.mpr hshown)))
    exact ⟨(RenderBufferRegistry.phase_set _).trans (if_neg hother), huses h'⟩
  · exact hs.retireBuffer (r := c.renderBuffers) hc hg (.inl (by
      simp [RenderBufferRegistry.phase, he, RenderBuffer.phase])) fun _ _ => rfl

theorem bufferOnRelease (hs : Settled c) (hc : Consistent lost c) :
    Settled (bufferOnRelease c h).2 := by
  have hphase : ∀ h', (c.renderBuffers.release h).2.phase h' = c.renderBuffers.phase h' :=
    fun _ => RenderBufferRegistry.phase_release
  obtain heq | ⟨g, hg, ⟨hheld, heq⟩ | ⟨hdestroyed, hpends, heq⟩⟩ := bufferOnRelease_cases hc h <;>
    rw [heq]
  · exact hs
  · refine hs.congr fun g' h' hg' hdestroyed hpends _ _ => ⟨hg', ⟨hphase h', ?_⟩, id, id⟩
    have hother : h' ≠ h := by
      rintro rfl
      obtain rfl := hc.paired.guest_inj hg' hg
      exact hpends (hheld ((hphase h').symm.trans hdestroyed))
    exact (sameUse_of_get (RenderBufferRegistry.get_release_other hother)).2
  · have hnext : Consistent lost { c with renderBuffers := (c.renderBuffers.release h).2 } :=
      hc.withRenderBuffers hphase
    exact hs.retireBuffer hnext hg (.inr ((hphase h).trans hdestroyed)) fun h' hne =>
      RenderBufferRegistry.get_release_other hne

end Settled

theorem settled_new : Settled .new := by
  intro g h hr
  have hphase := hr.2.1
  simp [Context.new, RenderBufferRegistry.phase] at hphase

theorem step_settled (hs : Settled c) (hc : Consistent lost c) (hc' : Consistent lost c')
    {m : Message} (h' : step maps c m = some c') : Settled c' := by
  by_cases habout : m.isAboutBuffers = false
  · exact hs.of_frame hc hc' (step_bufferFrame hc habout h')
  obtain ⟨-, hrequest | ⟨-, hevent⟩⟩ := step_eq_some.mp h'
  · cases m
    case attach surface buffer x y =>
      obtain ⟨-, hbuffer, offset, rfl⟩ := attach_eq_some hrequest
      exact .retire (hc.withAttachment hbuffer offset)
    case commit surface env =>
      obtain ⟨-, rfl⟩ := settle_eq_some.mp (guarded_eq_some.mp hrequest).2
      exact hs.onCommit hc maps surface env
    case destroySurface surface =>
      obtain ⟨hallowed, hrequest⟩ := guarded_eq_some.mp hrequest
      obtain ⟨-, rfl⟩ := settle_eq_some.mp hrequest
      obtain ⟨_, _, _, c₁, -, -, -, -, -, hmarked, heq⟩ :=
        surfaceOnDestroy_eq hc (senderAllowed_of_requestAllowed hallowed)
      rw [heq]
      exact (Settled.retire hmarked).of_eq rfl rfl rfl
    case destroyBuffer guestId =>
      obtain ⟨hallowed, hrequest⟩ := guarded_eq_some.mp hrequest
      obtain ⟨-, rfl⟩ := settle_eq_some.mp hrequest
      exact hs.bufferOnDestroy hc (senderAllowed_of_requestAllowed hallowed)
    case release => simp [requestStep] at hrequest
    all_goals exact absurd rfl habout
  · cases m
    case release buffer =>
      rw [eventStep] at hevent
      obtain rfl | ⟨-, -, hevent⟩ := deliver_eq_some hevent
      · exact hs
      · obtain ⟨-, rfl⟩ := settle_eq_some.mp hevent
        exact hs.bufferOnRelease hc
    case attach | commit | destroySurface | destroyBuffer => simp [eventStep] at hevent
    all_goals exact absurd rfl habout

theorem settled_of_reachable (hr : (objectSystem maps).Reachable c) : Settled c := by
  refine hr.invariant (fun s hinit => ?_) fun s m t hreach hs _ ht => ?_
  · rw [show s = .new from hinit]
    exact settled_new
  · exact step_settled hs (consistent_of_reachable hreach)
      (consistent_of_reachable (.step hreach trivial ht)) ht

/-! ## The failure -/

theorem localCopy_setLocalCopy {r : RenderBufferRegistry BufferState} {b b' : BufferState}
    (hlocal : r.localCopy h = some b) : (r.setLocalCopy h b').localCopy h = some b' := by
  unfold RenderBufferRegistry.localCopy at hlocal
  split at hlocal
  · rename_i hactive
    obtain ⟨e, he, hbuffer⟩ := Option.bind_eq_some_iff.mp hactive
    cases e <;> simp only [RenderBuffer.active, Option.some.injEq, reduceCtorEq] at hbuffer <;>
      simp [RenderBufferRegistry.localCopy, RenderBufferRegistry.activeBuffer,
        RenderBufferRegistry.setLocalCopy, he, hbuffer, RenderBuffer.mapActive,
        RenderBuffer.active]
  · simp at hlocal

theorem copyFrom_failed {b : BufferState} {pool : PoolInner} {env : CommitEnvironment}
    {commit : SurfaceCommit} (hfailed : (b.copyFrom pool env commit).1 = false) :
    (b.copyFrom pool env commit).2.needsFullCopy = true := by
  unfold BufferState.copyFrom at hfailed ⊢
  cases hcopy : copyShmDamage pool.bytes b.dest (b.mappedLayout pool) (b.commitDamage commit) with
  | none =>
    dsimp only
    split_ifs <;> rfl
  | some dest =>
    simp only [hcopy] at hfailed ⊢
    split_ifs at hfailed ⊢ <;> rfl

/-- A copy that fails leaves the mark for a copy of the whole image. -/
theorem copyAttachedBuffer_failed {env : CommitEnvironment} {commit : SurfaceCommit}
    (hfailed : copyAttachedBuffer c env commit = (false, c')) : ∃ g h b,
    commit.attachedBufferId = some g ∧ c.renderBufferHostId g = some h ∧
    c'.renderBuffers.localCopy h = some b ∧ b.needsFullCopy = true := by
  unfold copyAttachedBuffer at hfailed
  split at hfailed
  · simp at hfailed
  · rename_i g hg
    unfold copySurfaceBuffer at hfailed
    split at hfailed
    · simp at hfailed
    · rename_i h hh
      split at hfailed
      · simp at hfailed
      · rename_i b hlocal
        obtain ⟨hcopied, rfl⟩ := Prod.mk.inj hfailed
        exact ⟨g, h, _, hg, hh, localCopy_setLocalCopy hlocal, copyFrom_failed hcopied⟩

/-- The exit of a commit whose copy fails. -/
theorem onCommit_copyFailed {env : CommitEnvironment}
    (hexit : (onCommit maps c s env).1 = .copyFailed) : ∃ c₁,
    copyAttachedBuffer (c.setSurface s (c.surfaceOrDefault s).prepareCommit.state) env
      (c.surfaceOrDefault s).prepareCommit = (false, c₁) ∧
    (onCommit maps c s env).2 = abandonCommit c₁ s (c.surfaceOrDefault s).prepareCommit false := by
  generalize hres : onCommit maps c s env = result at hexit
  unfold onCommit at hres
  dsimp only at hres
  split at hres
  · subst hres
    simp at hexit
  · split at hres
    · subst hres
      simp at hexit
    · rcases hcopy : copyAttachedBuffer
        (c.setSurface s (c.surfaceOrDefault s).prepareCommit.state) env
        (c.surfaceOrDefault s).prepareCommit with ⟨copied, c₁⟩
      simp only [hcopy] at hres
      cases copied with
      | false => exact ⟨c₁, rfl, hres ▸ rfl⟩
      | true =>
        simp only [Bool.not_true, Bool.false_eq_true, if_false] at hres
        split at hres
        · subst hres
          simp at hexit
        · split at hres <;> subst hres <;> simp at hexit

/-- A commit that fails changes no surface and sends the host neither damage nor a commit. In
a session it sends nothing at all and every buffer keeps its phase and use; and a buffer whose
copy failed is marked for a copy of the whole image. -/
theorem failed_commit (maps : DamageMapping) (c : Context) (s : ℕ) (env : CommitEnvironment)
    (hfailed : (onCommit maps c s env).1 ≠ .forwarded) :
    (∀ t, (onCommit maps c s env).2.surfaces.get t = c.surfaces.get t) ∧
    (∃ tail, (onCommit maps c s env).2.traffic = tail ++ c.traffic ∧
      ∀ m ∈ tail, ∃ h awaiting pending, m = .destroyBuffer h awaiting pending) ∧
    ((objectSystem maps).Reachable c →
      (onCommit maps c s env).2.traffic = c.traffic ∧
      (∀ h, (onCommit maps c s env).2.renderBuffers.phase h = c.renderBuffers.phase h ∧
        (onCommit maps c s env).2.renderBuffers.useState h = c.renderBuffers.useState h) ∧
      ((onCommit maps c s env).1 = .copyFailed → ∃ g h b,
        (c.surfaceOrDefault s).pendingAttachment = .attach g ∧ c.renderBufferHostId g = some h ∧
        (onCommit maps c s env).2.renderBuffers.localCopy h = some b ∧
        b.needsFullCopy = true)) := by
  obtain ⟨-, -, c₀, hundone, heq⟩ | ⟨hforwarded, -⟩ := onCommit_cases maps c s env
  swap
  · exact absurd hforwarded hfailed
  have hframe := id hundone
  obtain ⟨surfaces, r, fatal, hsame, huses, hc₀⟩ := hframe
  refine ⟨fun t => ?_, ?_, fun hr => ?_⟩
  · rw [← hsame t]
    rcases heq with heq | heq <;> rw [heq, hc₀]
    exact congrArg (Table.get · t) (retireEligibleBuffers_sameSurfaces _).surfaces
  · rcases heq with heq | heq <;> rw [heq, hc₀]
    · exact ⟨[], rfl, by simp⟩
    · exact retireEligibleBuffers_traffic _
  · have hc := consistent_of_reachable hr
    have hretire : retireEligibleBuffers c₀ = c₀ :=
      ((settled_of_reachable hr).undone hundone).retire_eq (hundone.consistent hc)
    have hresult : (onCommit maps c s env).2 = c₀ := by
      rcases heq with heq | heq <;> rw [heq]
      exact hretire
    refine ⟨?_, ?_, fun hcopied => ?_⟩
    · rw [hresult, hc₀]
    · rw [hresult, hc₀]
      exact huses
    · obtain ⟨c₁, hcopy, habandon⟩ := onCommit_copyFailed hcopied
      have hcopied : UnderWay c s c₁ := by
        have hprepared := (underWay_setSurface (c := c) s
          (c.surfaceOrDefault s).prepareCommit.state).copy env (c.surfaceOrDefault s).prepareCommit
        rwa [hcopy] at hprepared
      have hbuffers : (onCommit maps c s env).2 = c₁.setSurface s (c.surfaceOrDefault s) := by
        rw [habandon, abandonCommit, Bool.or_false]
        exact ((settled_of_reachable hr).undone hcopied.undo).retire_eq (hcopied.undo.consistent hc)
      obtain ⟨g, h, b, hg, hh, hlocal, hfull⟩ := copyAttachedBuffer_failed hcopy
      refine ⟨g, h, b, ?_, hh, by rw [hbuffers]; exact hlocal, hfull⟩
      cases hattach : (c.surfaceOrDefault s).pendingAttachment <;>
        simp_all [SurfaceCommit.attachedBufferId, SurfaceState.prepareCommit,
          SurfaceAttachment.bufferId]

/-- A buffer whose pool the guest no longer backs with memory. -/
theorem failed_commit_unmapped : ∃ c, (objectSystem .f64).Reachable c ∧
    (onCommit .f64 c 7 ⟨false, true, true, true, .synchronized⟩).1 = .copyFailed ∧
    (onCommit .f64 c 7 ⟨false, true, true, true, .synchronized⟩).2.traffic = c.traffic := by
  have hrun : ((objectSystem .f64).run .new [.newObject 1 2 .wlRegistry,
      .newLocalObject 3 .wlShm 1, .createPool 3 4 64 (some fun _ => 0),
      .createBuffer 4 5 ⟨0, 4, 4, 16, 0⟩ (.sharedMemory fun _ => 0),
      .newObject 2 6 .wlCompositor, .newObject 6 7 .wlSurface, .attach 7 5 0 0]).map (fun c =>
        (onCommit .f64 c 7 ⟨false, true, true, true, .synchronized⟩).1) =
      some .copyFailed := by decide +kernel
  obtain ⟨c, hc, hexit⟩ := Option.map_eq_some_iff.mp hrun
  have hr : (objectSystem .f64).Reachable c := .run (.init rfl) hc
  have hfailed := failed_commit .f64 c 7 ⟨false, true, true, true, .synchronized⟩ (by simp [hexit])
  exact ⟨c, hr, hexit, (hfailed.2.2 hr).1⟩

end Sommelier
