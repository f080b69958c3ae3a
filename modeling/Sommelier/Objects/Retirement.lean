import Sommelier.Objects.Consistent

/-!
# Retirement of buffers

Queueing the destructor of a buffer keeps the invariant, and so does the pass that destroys
every deferred buffer nothing needs any more. The pass leaves all other buffers alone.

## Main definitions

* `Retirable`: a deferred buffer that the pass destroys.
* `RetireFrame`: what the destruction of some buffers leaves unchanged.
-/
namespace Sommelier

variable {lost : Set ℕ} {c c' : Context} {g h : ℕ}

/-- The buffer is mapped to the host ID and the pass destroys it. -/
def Retirable (c : Context) (g h : ℕ) : Prop :=
  c.shadowTable.guestToHost.get g = some h ∧
    c.renderBuffers.phase h = some .guestDestroyed ∧
    canRetireDeferredBuffer c (SurfaceBufferReferences.collect c) g = true

theorem renderBufferHostId_eq (hg : c.shadowTable.guestToHost.get g = some h)
    (hphase : c.renderBuffers.phase h ≠ none) : c.renderBufferHostId g = some h := by
  simp [Context.renderBufferHostId, ShadowTable.getHostId, hg, Option.filter,
    RenderBufferRegistry.contains_iff.mpr hphase]

theorem bufferIsSubmitted_eq (hg : c.shadowTable.guestToHost.get g = some h)
    (hphase : c.renderBuffers.phase h ≠ none) :
    c.bufferIsSubmitted g =
      (c.renderBuffers.useState h).any RenderBufferUse.isAwaitingRelease := by
  simp [Context.bufferIsSubmitted, Context.hostBufferUse, renderBufferHostId_eq hg hphase]

/-- What queueing the destructor of a usable buffer does. -/
theorem retireBuffer_eq (hg : c.shadowTable.guestToHost.get g = some h)
    (hphase : c.renderBuffers.phase h = some .guestAlive ∨
      c.renderBuffers.phase h = some .guestDestroyed) :
    retireBuffer c g h =
      if ShadowTable.isGuestServerId g then
        { queueHostBufferDestroy c h with
          renderBuffers := c.renderBuffers.erase h
          shadowTable := c.shadowTable.removeId g }
      else
        { queueHostBufferDestroy c h with
          renderBuffers := c.renderBuffers.set h .hostDestroyQueued
          shadowTable := c.shadowTable.markPendingDestroy g } := by
  have hget : ∃ e, c.renderBuffers.get h = some e ∧ e.phase ≠ .hostDestroyQueued := by
    unfold RenderBufferRegistry.phase at hphase
    rcases hget : c.renderBuffers.get h with _ | e
    · simp [hget] at hphase
    · refine ⟨e, rfl, fun hq => ?_⟩
      simp [hget, hq] at hphase
  obtain ⟨e, hget, he⟩ := hget
  have hmark : c.renderBuffers.markHostDestroyQueued h =
      (true, c.renderBuffers.set h .hostDestroyQueued) := by
    unfold RenderBufferRegistry.markHostDestroyQueued
    cases e <;> simp_all [RenderBuffer.phase]
  unfold retireBuffer retireDestroyedBufferMapping Context.completeQueuedBufferDestroy
  by_cases hs : ShadowTable.isGuestServerId g = true <;>
    simp [queueHostBufferDestroy, Context.queue, ShadowTable.getHostId, hg, hs, hget, hmark,
      RenderBufferRegistry.remove]

/-- A usable buffer that is neither attached nor awaiting its release may be destroyed. -/
theorem Consistent.retireBuffer (hc : Consistent lost c)
    (hg : c.shadowTable.guestToHost.get g = some h)
    (hphase : c.renderBuffers.phase h = some .guestAlive ∨
      c.renderBuffers.phase h = some .guestDestroyed)
    (hpends : ¬ c.Pends g) (hidle : c.bufferIsSubmitted g = false) :
    Consistent lost (retireBuffer c g h) := by
  have hmap := (hc.paired g h).mp hg
  have hne : c.renderBuffers.phase h ≠ none := by
    rcases hphase with hp | hp <;> simp [hp]
  rw [bufferIsSubmitted_eq hg hne] at hidle
  have hpending : (c.shadowTable.getGuestId h).any (SurfaceBufferReferences.collect c).pending =
      false := by
    simpa [ShadowTable.getGuestId, hmap, ← collect_pending] using hpends
  have hlive : c.hostLifetime h = some (livePhase g) := by
    rcases hphase with hp | hp
    · exact hc.live g h hg (.inl (hc.alive g h hg hp).2)
    · exact hc.live g h hg (.inr hp)
  have hcreates : ∀ h' p, c.pendingNativeCreates.get h' = some p → p.guestParamsId ≠ g := by
    rintro h' p hp rfl
    have hparams := (hc.creating h' p hp).2.1
    rcases hphase with hp | hp
    · simp [(hc.alive _ h hg hp).1] at hparams
    · simp [(hc.deferred _ h hg hp).2.1] at hparams
  have horphan : c.orphanedDmabufParams.get h = none := by
    cases horph : c.orphanedDmabufParams.get h with
    | none => rfl
    | some g' =>
      rcases hc.orphaned h g' horph with ⟨hmap', -, hparams⟩ | ⟨hunmapped, -⟩
      · obtain rfl : g = g' := Option.some.inj (hmap.symm.trans hmap')
        rcases hphase with hp | hp
        · simp [(hc.alive _ h hg hp).1] at hparams
        · simp [(hc.deferred _ h hg hp).2.1] at hparams
      · simp [hmap] at hunmapped
  have hquiet : ∀ h' a p, HostTraffic.destroyBuffer h' a p ∈
      (queueHostBufferDestroy c h).traffic →
      .destroyBuffer h' a p ∈ c.traffic ∨ a = false ∧ p = false := by
    intro h' a p hmem
    rcases List.mem_cons.mp hmem with heq | hold
    · obtain ⟨-, rfl, rfl⟩ := HostTraffic.destroyBuffer.inj heq
      exact .inr ⟨hidle, hpending⟩
    · exact .inl hold
  have hlife : ∀ h', (queueHostBufferDestroy c h).hostLifetime h' =
      if h' = h then (livePhase g |> (LifetimeEvent.destroy h).next) else c.hostLifetime h' := by
    intro h'
    rw [queueHostBufferDestroy, hostLifetime_queue]
    simp only [HostTraffic.lifetimeEvent, LifetimeEvent.id, eq_comm (a := h)]
    split_ifs with heq
    · rw [heq, hlive]
      rfl
    · rfl
  have hlast : ∀ h', h' ≠ h → (queueHostBufferDestroy c h).lastAbout h' = c.lastAbout h' :=
    fun h' hother => lastAbout_queue_other fun e he => Option.some.inj he ▸ hother.symm
  rw [retireBuffer_eq hg hphase]
  split_ifs with hs
  · rw [ShadowTable.removeId_mapped hg]
    refine hc.removeObject hg hpends horphan rfl rfl rfl rfl rfl rfl rfl
      (fun _ => RenderBufferRegistry.phase_erase) (fun h' => (hlife h').trans ?_) hlast hquiet
      fun h' p hp => ⟨hp, hcreates h' p hp⟩
    simp [livePhase, hs, LifetimeEvent.next]
  · rw [ShadowTable.markPendingDestroy_mapped hg]
    refine hc.destroyClient hg (Bool.eq_false_iff.mpr hs) hpends rfl rfl rfl rfl rfl rfl rfl
      (fun h' => ?_) (fun h' => (hlife h').trans ?_) hlast (fun hnone => absurd hnone hne) hquiet
      (fun h' p hp => ⟨hp, hcreates h' p hp, (hc.creating h' p hp).2.2.2⟩)
      (fun h' g' horph => .inl horph) fun _ => id
    · rw [RenderBufferRegistry.phase_set]
      simp [hne, RenderBuffer.phase]
    · simp [livePhase, hs, LifetimeEvent.next]

/-! ## Frames -/

/-- The step destroyed some buffers and changed nothing else. -/
structure RetireFrame (c c' : Context) (gone : ℕ → ℕ → Prop) : Prop where
  surfaces : c'.surfaces = c.surfaces
  fatal : c'.fatalProtocolError = c.fatalProtocolError
  mappings : c'.mappings = c.mappings
  creates : c'.pendingNativeCreates = c.pendingNativeCreates
  orphans : c'.orphanedDmabufParams = c.orphanedDmabufParams
  kept : ∀ g h, c.shadowTable.guestToHost.get g = some h → ¬ gone g h →
    c'.shadowTable.guestToHost.get g = some h ∧
      c'.renderBuffers.get h = c.renderBuffers.get h
  destroyed : ∀ g h, c.shadowTable.guestToHost.get g = some h → gone g h →
    c'.renderBuffers.phase h = none ∨ c'.renderBuffers.phase h = some .hostDestroyQueued
  entries : ∀ h, c'.renderBuffers.get h = c.renderBuffers.get h ∨
    c'.renderBuffers.phase h = none ∨ c'.renderBuffers.phase h = some .hostDestroyQueued
  mapped : ∀ g h, c'.shadowTable.guestToHost.get g = some h →
    c.shadowTable.guestToHost.get g = some h

theorem RetireFrame.refl (c : Context) : RetireFrame c c fun _ _ => False where
  surfaces := rfl
  fatal := rfl
  mappings := rfl
  creates := rfl
  orphans := rfl
  kept := fun _ _ hg _ => ⟨hg, rfl⟩
  destroyed := fun _ _ _ hfalse => hfalse.elim
  entries := fun _ => .inl rfl
  mapped := fun _ _ hg => hg

theorem retireBuffer_frame (hc : Consistent lost c)
    (hg : c.shadowTable.guestToHost.get g = some h)
    (hphase : c.renderBuffers.phase h = some .guestAlive ∨
      c.renderBuffers.phase h = some .guestDestroyed) :
    RetireFrame c (retireBuffer c g h) fun g' h' => (g', h') = (g, h) := by
  have hne : ∀ g' h', c.shadowTable.guestToHost.get g' = some h' → ¬ (g', h') = (g, h) →
      g' ≠ g ∧ h' ≠ h := by
    intro g' h' hg' hother
    refine ⟨fun heq => hother ?_, fun heq => hother ?_⟩
    · subst heq
      rw [Option.some.inj (hg'.symm.trans hg)]
    · subst heq
      rw [hc.paired.guest_inj hg' hg]
  rw [retireBuffer_eq hg hphase]
  split_ifs with hs
  · rw [ShadowTable.removeId_mapped hg]
    refine ⟨rfl, rfl, rfl, rfl, rfl, fun g' h' hg' hother => ?_, fun g' h' _ heq => ?_,
      fun h' => ?_, fun g' h' hg' => ?_⟩
    · obtain ⟨hgne, hhne⟩ := hne g' h' hg' hother
      simp [hgne, hhne, hg']
    · obtain ⟨rfl, rfl⟩ := Prod.mk.inj heq
      simp [RenderBufferRegistry.phase_erase]
    · by_cases heq : h' = h
      · simp [heq, RenderBufferRegistry.phase_erase]
      · simp [heq]
    · rw [Table.get_erase] at hg'
      split_ifs at hg'
      exact hg'
  · rw [ShadowTable.markPendingDestroy_mapped hg]
    refine ⟨rfl, rfl, rfl, rfl, rfl, fun g' h' hg' hother => ?_, fun g' h' _ heq => ?_,
      fun h' => ?_, fun g' h' hg' => hg'⟩
    · simp [(hne g' h' hg' hother).2, hg']
    · obtain ⟨rfl, rfl⟩ := Prod.mk.inj heq
      simp [RenderBufferRegistry.phase_set, RenderBuffer.phase]
    · by_cases heq : h' = h
      · simp [heq, RenderBufferRegistry.phase_set, RenderBuffer.phase]
      · simp [heq]

theorem RetireFrame.pends {gone : ℕ → ℕ → Prop} (hf : RetireFrame c c' gone) :
    c'.Pends g ↔ c.Pends g := by
  simp only [Context.Pends, hf.surfaces]

theorem RetireFrame.shows {gone : ℕ → ℕ → Prop} (hf : RetireFrame c c' gone) :
    c'.Shows g ↔ c.Shows g := by
  simp only [Context.Shows, hf.surfaces]

/-- A buffer that survives is in the same use as before. -/
theorem RetireFrame.useState {gone : ℕ → ℕ → Prop} (hf : RetireFrame c c' gone)
    (hg : c.shadowTable.guestToHost.get g = some h) (hkept : ¬ gone g h) :
    c'.renderBuffers.useState h = c.renderBuffers.useState h := by
  simp only [RenderBufferRegistry.useState, RenderBufferRegistry.activeBuffer,
    (hf.kept g h hg hkept).2]

theorem RetireFrame.trans {c₁ c₂ c₃ : Context} {gone gone' : ℕ → ℕ → Prop}
    (h₁ : RetireFrame c₁ c₂ gone) (h₂ : RetireFrame c₂ c₃ gone') :
    RetireFrame c₁ c₃ fun g h => gone g h ∨ gone' g h where
  surfaces := h₂.surfaces.trans h₁.surfaces
  fatal := h₂.fatal.trans h₁.fatal
  mappings := h₂.mappings.trans h₁.mappings
  creates := h₂.creates.trans h₁.creates
  orphans := h₂.orphans.trans h₁.orphans
  kept g h hg hother := by
    obtain ⟨hg₂, hr₂⟩ := h₁.kept g h hg (fun hgone => hother (.inl hgone))
    obtain ⟨hg₃, hr₃⟩ := h₂.kept g h hg₂ (fun hgone => hother (.inr hgone))
    exact ⟨hg₃, hr₃.trans hr₂⟩
  destroyed g h hg hgone := by
    by_cases hfirst : gone g h
    · rcases h₂.entries h with heq | hend
      · rw [RenderBufferRegistry.phase, heq]
        exact h₁.destroyed g h hg hfirst
      · exact hend
    · exact h₂.destroyed g h (h₁.kept g h hg hfirst).1 (hgone.resolve_left hfirst)
  entries h := by
    rcases h₂.entries h with heq | hend
    · rw [RenderBufferRegistry.phase, heq]
      exact h₁.entries h
    · exact .inr hend
  mapped g h hg := h₁.mapped g h (h₂.mapped g h hg)

/-! ## The retirement pass -/

theorem canRetireDeferredBuffer_iff :
    canRetireDeferredBuffer c (SurfaceBufferReferences.collect c) g = true ↔
      ((¬ c.Shows g ∧ ¬ c.Pends g) ∨ (c.bufferIsReleased g = true ∧ ¬ c.Pends g)) ∧
        c.bufferIsSubmitted g = false := by
  simp [canRetireDeferredBuffer, SurfaceBufferReferences.contains, ← collect_pending,
    ← collect_current]

theorem Retirable.not_pends (hr : Retirable c g h) : ¬ c.Pends g :=
  (canRetireDeferredBuffer_iff.mp hr.2.2).1.elim And.right And.right

theorem Retirable.not_submitted (hr : Retirable c g h) : c.bufferIsSubmitted g = false :=
  (canRetireDeferredBuffer_iff.mp hr.2.2).2

theorem mem_retirementCandidates (hc : Consistent lost c) :
    (g, h) ∈ retirementCandidates c ↔ Retirable c g h := by
  simp only [retirementCandidates, List.mem_filterMap, Retirable]
  constructor
  · rintro ⟨⟨h', e⟩, he, hsome⟩
    rw [Table.mem_entries] at he
    split_ifs at hsome with hd
    rcases hmap : c.shadowTable.getGuestId h' with _ | g'
    · simp [hmap] at hsome
    · simp only [hmap] at hsome
      split_ifs at hsome with hcan
      obtain ⟨rfl, rfl⟩ := Prod.mk.inj (Option.some.inj hsome)
      refine ⟨(hc.paired _ _).mpr hmap, ?_, hcan⟩
      cases e <;> simp_all [RenderBuffer.isGuestDestroyed, RenderBufferRegistry.phase,
        RenderBuffer.phase]
  · rintro ⟨hg, hphase, hcan⟩
    obtain ⟨e, he, hphase⟩ := Option.map_eq_some_iff.mp hphase
    refine ⟨⟨h, e⟩, (Table.mem_entries _ _ _).mpr he, ?_⟩
    have hd : e.isGuestDestroyed = true := by
      cases e <;> simp_all [RenderBuffer.isGuestDestroyed, RenderBuffer.phase]
    simp [hd, ShadowTable.getGuestId, (hc.paired g h).mp hg, hcan]

theorem retirementCandidates_nodup (c : Context) :
    ((retirementCandidates c).map Prod.snd).Nodup := by
  have hkeys : ((retirementCandidates c).map Prod.snd).Sublist c.renderBuffers.entries.keys := by
    unfold retirementCandidates List.keys
    induction c.renderBuffers.entries with
    | nil => simp
    | cons entry entries ih =>
      obtain ⟨hostId, lifecycle⟩ := entry
      rw [List.filterMap_cons, List.map_cons]
      split
      · exact ih.cons _
      · rename_i ids hids
        have hid : ids.2 = hostId := by
          simp only at hids
          split_ifs at hids
          split at hids
          · simp at hids
          · split_ifs at hids
            rw [← Option.some.inj hids]
        rw [List.map_cons, hid]
        exact ih.cons_cons _
  exact hkeys.nodup c.renderBuffers.nodupKeys

/-- Deferred buffers that are idle and not attached can be destroyed one after the other. -/
theorem retire_foldl {l : List (ℕ × ℕ)} (hnodup : (l.map Prod.snd).Nodup) (hc : Consistent lost c)
    (hl : ∀ ids ∈ l, c.shadowTable.guestToHost.get ids.1 = some ids.2 ∧
      c.renderBuffers.phase ids.2 = some .guestDestroyed ∧ ¬ c.Pends ids.1 ∧
      c.bufferIsSubmitted ids.1 = false) :
    Consistent lost (l.foldl (fun c ids => retireBuffer c ids.1 ids.2) c) ∧
      RetireFrame c (l.foldl (fun c ids => retireBuffer c ids.1 ids.2) c)
        fun g h => (g, h) ∈ l := by
  induction l generalizing c with
  | nil => exact ⟨hc, by simpa using RetireFrame.refl c⟩
  | cons ids l ih =>
    obtain ⟨g, h⟩ := ids
    obtain ⟨⟨hg, hphase, hpends, hidle⟩, hl⟩ := List.forall_mem_cons.mp hl
    rw [List.map_cons, List.nodup_cons] at hnodup
    have hframe := retireBuffer_frame hc hg (.inr hphase)
    have hnext := hc.retireBuffer hg (.inr hphase) hpends hidle
    obtain ⟨hcons, hrest⟩ := ih hnodup.2 hnext (by
      rintro ⟨g', h'⟩ hmem
      obtain ⟨hg', hphase', hpends', hidle'⟩ := hl _ hmem
      have hother : ¬ (g', h') = (g, h) := by
        rintro heq
        exact hnodup.1 (List.mem_map.mpr ⟨_, hmem, (Prod.mk.inj heq).2⟩)
      obtain ⟨hkept, hsame⟩ := hframe.kept g' h' hg' hother
      have hphase₂ : (retireBuffer c g h).renderBuffers.phase h' = some .guestDestroyed := by
        rw [RenderBufferRegistry.phase, hsame]
        exact hphase'
      refine ⟨hkept, hphase₂, hframe.pends.not.mpr hpends', ?_⟩
      rw [bufferIsSubmitted_eq hg' (by simp [hphase'])] at hidle'
      rw [bufferIsSubmitted_eq hkept (by simp [hphase₂]), hframe.useState hg' hother]
      exact hidle')
    refine ⟨hcons, ?_⟩
    simpa only [List.foldl_cons, List.mem_cons] using hframe.trans hrest

/-- The pass keeps the invariant and destroys exactly the retirable buffers. -/
theorem retireEligibleBuffers_spec (hc : Consistent lost c) :
    Consistent lost (retireEligibleBuffers c) ∧
      RetireFrame c (retireEligibleBuffers c) (Retirable c) := by
  obtain ⟨hcons, hframe⟩ := retire_foldl (retirementCandidates_nodup c) hc (by
    rintro ⟨g, h⟩ hmem
    have hr := (mem_retirementCandidates hc).mp hmem
    exact ⟨hr.1, hr.2.1, hr.not_pends, hr.not_submitted⟩)
  simp only [mem_retirementCandidates hc] at hframe
  exact ⟨hcons, hframe⟩

end Sommelier
