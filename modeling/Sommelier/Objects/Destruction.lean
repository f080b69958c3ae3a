import Sommelier.Objects.Creation

/-!
# Destruction of objects

Destructors keep the session consistent: those that are forwarded, those of buffers, which
may wait for a release, the end of surfaces, and the acknowledgements of the host.
-/
namespace Sommelier

variable {lost : Set ℕ} {c c' : Context} {g h : ℕ}

/-! ## Destructors that are forwarded -/

/-- Only buffers the guest destroyed, or may still name, are attached. -/
theorem Consistent.not_pends (hc : Consistent lost c) {i : Interface}
    (hi : c.shadowTable.interfaces.get g = some i) (hbuffer : i ≠ .wlBuffer) : ¬ c.Pends g := by
  intro hpends
  obtain ⟨h, hmap, halive | hdeferred⟩ := hc.attached g hpends
  · have heq := (hc.alive g h hmap halive).1
    rw [hi] at heq
    exact hbuffer (Option.some.inj heq)
  · have heq := (hc.deferred g h hmap hdeferred).2.1
    rw [hi] at heq
    exact absurd heq (by simp)

/-- Objects that are no buffers are not in the registry. -/
theorem Consistent.no_entry (hc : Consistent lost c) {i : Interface}
    (hg : c.shadowTable.guestToHost.get g = some h)
    (hi : c.shadowTable.interfaces.get g = some i) (hbuffer : i ≠ .wlBuffer)
    (hlive : g ∉ c.shadowTable.pendingDestroyGuestIds) : c.renderBuffers.phase h = none := by
  rcases hphase : c.renderBuffers.phase h with _ | (_ | _ | _)
  · rfl
  · have heq := (hc.alive g h hg hphase).1
    rw [hi] at heq
    exact absurd (Option.some.inj heq) hbuffer
  · exact absurd (hc.deferred g h hg hphase).1 hlive
  · exact absurd (hc.queued g h hg hphase).1 hlive

/-- The phase of a live object's number once its destructor was sent. -/
theorem Consistent.hostLifetime_destroy (hc : Consistent lost c)
    (hg : c.shadowTable.guestToHost.get g = some h)
    (hlive : g ∉ c.shadowTable.pendingDestroyGuestIds) (h' : ℕ) :
    (c.queue (.destroy h)).hostLifetime h' =
      if h' = h then some (if ShadowTable.isGuestServerId g then .free else .destroyed)
      else c.hostLifetime h' := by
  have hlife := hc.live g h hg (.inl hlive)
  simp only [hostLifetime_queue, HostTraffic.lifetimeEvent, LifetimeEvent.id,
    eq_comm (a := h)]
  split_ifs with heq <;> simp_all [livePhase, LifetimeEvent.next]

theorem lastAbout_destroy (c : Context) (h : ℕ) :
    (∀ h', h' ≠ h → (c.queue (.destroy h)).lastAbout h' = c.lastAbout h') ∧
      ∀ a p, (c.queue (.destroy h)).lastAbout h ≠ some (.destroyBuffer h a p) :=
  ⟨fun _ hother => lastAbout_queue_other fun _ he => Option.some.inj he ▸ hother.symm,
    by simp [HostTraffic.lifetimeEvent, LifetimeEvent.id]⟩

/-- The destructor of a live object that is neither a buffer nor dma-buf parameters. -/
theorem Consistent.forwardDestructor (hc : Consistent lost c) {i : Interface}
    (hg : c.shadowTable.guestToHost.get g = some h)
    (hi : c.shadowTable.interfaces.get g = some i) (hbuffer : i ≠ .wlBuffer)
    (hparams : i ≠ .zwpLinuxBufferParamsV1)
    (hlive : g ∉ c.shadowTable.pendingDestroyGuestIds) :
    Consistent lost (forwardDestructor c g h) := by
  have hmap := (hc.paired g h).mp hg
  have hpends := hc.not_pends hi hbuffer
  have hentry := hc.no_entry hg hi hbuffer hlive
  have hcreates : ∀ h' p, c.pendingNativeCreates.get h' = some p → p.guestParamsId ≠ g := by
    rintro h' p hp rfl
    have heq := (hc.creating h' p hp).2.1
    rw [hi] at heq
    exact hparams (Option.some.inj heq)
  have horphan : c.orphanedDmabufParams.get h = none := by
    cases horph : c.orphanedDmabufParams.get h with
    | none => rfl
    | some g' =>
      rcases hc.orphaned h g' horph with ⟨hmap', hpend, -⟩ | ⟨hunmapped, -⟩
      · obtain rfl : g = g' := Option.some.inj (hmap.symm.trans hmap')
        exact absurd hpend hlive
      · simp [hmap] at hunmapped
  have hlife := hc.hostLifetime_destroy hg hlive
  have hquiet : ∀ h' a p, HostTraffic.destroyBuffer h' a p ∈ .destroy h :: c.traffic →
      .destroyBuffer h' a p ∈ c.traffic ∨ a = false ∧ p = false :=
    fun h' a p hmem => .inl (by simpa using hmem)
  unfold Sommelier.forwardDestructor
  dsimp only
  split_ifs with hs
  · rw [show (c.queue (.destroy h)).shadowTable = c.shadowTable from rfl,
      ShadowTable.removeId_mapped hg]
    refine hc.removeObject hg hpends horphan rfl rfl rfl rfl rfl rfl rfl
      (fun h' => ?_) (fun h' => (hlife h').trans (by simp [hs])) (lastAbout_destroy c h).1 hquiet
      fun h' p hp => ⟨hp, hcreates h' p hp⟩
    split_ifs with heq
    · rw [heq]
      exact hentry
    · rfl
  · rw [show (c.queue (.destroy h)).shadowTable = c.shadowTable from rfl,
      ShadowTable.markPendingDestroy_mapped hg]
    refine hc.destroyClient hg (Bool.eq_false_iff.mpr hs) hpends rfl rfl rfl rfl rfl rfl rfl
      (fun h' => ?_) (fun h' => (hlife h').trans (by simp [hs])) (lastAbout_destroy c h).1
      (fun _ => (lastAbout_destroy c h).2) hquiet
      (fun h' p hp => ⟨hp, hcreates h' p hp, (hc.creating h' p hp).2.2.2⟩)
      (fun h' g' horph => .inl horph) fun _ => id
    split_ifs with heq
    · exact absurd hentry heq.2
    · rfl

/-- An object without counterpart leaves the tables of the proxy. -/
theorem Consistent.queueLocalDeleteId (hc : Consistent lost c) :
    Consistent lost (queueLocalDeleteId c g) := by
  unfold Sommelier.queueLocalDeleteId
  split_ifs with hlocal
  · simp only [ShadowTable.getHostId, Bool.and_eq_true, Option.isNone_iff_eq_none] at hlocal
    rw [ShadowTable.removeId_unmapped hlocal.2]
    refine hc.relabel (g := g) hlocal.2 rfl rfl (fun g' hne => ?_) (by simp) rfl (fun g' => ?_)
      rfl rfl
    · simp [hne]
    · rw [Finset.mem_erase]
      exact and_iff_right_of_imp fun hmem heq => hc.pending_mapped g' hmem (heq ▸ hlocal.2)
  · exact hc

theorem Consistent.destroyPlain (hc : Consistent lost c) {i : Interface}
    (hallowed : c.senderAllowed g i = true) (hbuffer : i ≠ .wlBuffer)
    (hparams : i ≠ .zwpLinuxBufferParamsV1) : Consistent lost (destroyPlain c g) := by
  obtain ⟨hi, hlive, -⟩ := senderAllowed_iff.mp hallowed
  unfold Sommelier.destroyPlain
  split
  · rename_i hostId hhost
    exact hc.forwardDestructor hhost hi hbuffer hparams hlive
  · exact hc.queueLocalDeleteId

/-- Destroyed parameters become an orphan when the host still owes them an answer. -/
theorem Consistent.destroyParams (hc : Consistent lost c)
    (hallowed : c.senderAllowed g .zwpLinuxBufferParamsV1 = true) :
    Consistent lost (Sommelier.destroyPlain (paramsOnDestroy c g).2 g) := by
  obtain ⟨hi, hlive, hmap⟩ := senderAllowed_iff.mp hallowed
  obtain ⟨h, hg⟩ := hmap.resolve_right (by simp [Interface.isLocalOnly])
  have hs : ShadowTable.isGuestServerId g = false := by
    rw [Bool.eq_false_iff]
    exact fun hserver => by simpa using hc.announced g _ hi hserver
  have hentry := hc.no_entry hg hi (by simp) hlive
  have hlife := hc.hostLifetime_destroy hg hlive
  -- The books of the parameters, with the orphan when an answer is still due.
  obtain ⟨used, pending, creates, orphans, heq, hcreates, horphans, hkept⟩ :
      ∃ used pending creates orphans, (paramsOnDestroy c g).2 = { c with
        usedDmabufParams := used, pendingParams := pending, pendingNativeCreates := creates,
        orphanedDmabufParams := orphans } ∧
      (∀ h' p, creates.get h' = some p → c.pendingNativeCreates.get h' = some p ∧
        p.guestParamsId ≠ g ∧ orphans.get h' = none) ∧
      (∀ h' g', orphans.get h' = some g' → c.orphanedDmabufParams.get h' = some g' ∨
        h' = h ∧ g' = g ∧ c.shadowTable.interfaces.get g = some .zwpLinuxBufferParamsV1) ∧
      ∀ h', orphans.get h' = none → c.orphanedDmabufParams.get h' = none := by
    have hother : ∀ h' p, h' ≠ h → c.pendingNativeCreates.get h' = some p →
        p.guestParamsId ≠ g := by
      rintro h' p hne hp rfl
      exact hne (Option.some.inj (((hc.paired _ _).mpr (hc.creating h' p hp).1).symm.trans hg))
    rcases hp : c.pendingNativeCreates.get h with _ | p
    · refine ⟨c.usedDmabufParams.erase g, c.pendingParams.erase g, c.pendingNativeCreates,
        c.orphanedDmabufParams,
        by simp only [paramsOnDestroy, ShadowTable.getHostId, hg, hp], fun h' p' hp' => ?_,
        fun _ _ => .inl, fun _ => id⟩
      have hne : h' ≠ h := by
        rintro rfl
        simp [hp] at hp'
      exact ⟨hp', hother h' p' hne hp', (hc.creating h' p' hp').2.2.2⟩
    · refine ⟨c.usedDmabufParams.erase g, c.pendingParams.erase g,
        c.pendingNativeCreates.erase h, c.orphanedDmabufParams.set h g,
        by simp only [paramsOnDestroy, ShadowTable.getHostId, hg, hp], fun h' p' hp' => ?_,
        fun h' g' horph => ?_, fun h' horph => ?_⟩
      · rw [Table.get_erase] at hp'
        split_ifs at hp' with hne
        exact ⟨hp', hother h' p' hne hp', by simp [hne, (hc.creating h' p' hp').2.2.2]⟩
      · rw [Table.get_set] at horph
        split_ifs at horph with heq
        · exact .inr ⟨heq, (Option.some.inj horph).symm, hi⟩
        · exact .inl horph
      · rw [Table.get_set] at horph
        split_ifs at horph
        exact horph
  have hmark := ShadowTable.markPendingDestroy_mapped hg
  have hdestroyed : Consistent lost { c with
      shadowTable := c.shadowTable.markPendingDestroy g, traffic := .destroy h :: c.traffic,
      pendingNativeCreates := creates, orphanedDmabufParams := orphans } := by
    rw [hmark]
    exact hc.destroyClient hg hs (hc.not_pends hi (by simp)) rfl rfl rfl rfl rfl rfl rfl
      (fun h' => by simp [hentry]) (fun h' => (hlife h').trans (by simp [hs]))
      (lastAbout_destroy c h).1 (fun _ => (lastAbout_destroy c h).2)
      (fun h' a p hmem => .inl (by simpa using hmem)) hcreates horphans hkept
  rw [heq]
  unfold Sommelier.destroyPlain Sommelier.forwardDestructor
  simp only [ShadowTable.getHostId, hg, hs]
  exact hdestroyed.frame ⟨rfl, rfl, rfl, rfl, fun _ => rfl⟩ fun _ => .inl

/-! ## Buffers -/

theorem clearCurrentBufferReference_pending (s : SurfaceState) (buffer : ℕ) :
    (s.clearCurrentBufferReference buffer).pendingAttachment = s.pendingAttachment := by
  unfold SurfaceState.clearCurrentBufferReference
  split
  · split_ifs <;> rfl
  · rfl

theorem pends_clearSurfaceBufferReferences {buffer : ℕ} :
    (clearSurfaceBufferReferences c buffer).Pends g → c.Pends g := by
  rintro ⟨surfaceId, surface, hget, hpend⟩
  rw [clearSurfaceBufferReferences, Table.get_mapValues, Option.map_eq_some_iff] at hget
  obtain ⟨old, hold, rfl⟩ := hget
  refine ⟨surfaceId, old, hold, ?_⟩
  dsimp only at hpend
  split_ifs at hpend
  · simp [SurfaceAttachment.bufferId] at hpend
  · rwa [clearCurrentBufferReference_pending] at hpend

theorem Consistent.clearReferences (hc : Consistent lost c) (buffer : ℕ) :
    Consistent lost (clearSurfaceBufferReferences c buffer) :=
  hc.frame ⟨rfl, rfl, rfl, rfl, fun _ => rfl⟩ fun _ hg =>
    .inl (pends_clearSurfaceBufferReferences hg)

/-- The destructor of a buffer in use is deferred; an idle one is destroyed at once, and
surfaces forget it. -/
theorem bufferOnDestroy_cases (hc : Consistent lost c)
    (hallowed : c.senderAllowed g .wlBuffer = true) :
    ∃ h buffer, c.shadowTable.guestToHost.get g = some h ∧
      c.renderBuffers.get h = some (.guestAlive buffer) ∧
      ((c.bufferIsReleased g = true → c.Pends g) ∧
        (c.bufferIsSubmitted g = true ∨ c.Shows g ∨ c.Pends g) ∧ (bufferOnDestroy c g).2 = { c with
          renderBuffers := c.renderBuffers.set h (.guestDestroyed buffer)
          shadowTable := c.shadowTable.retireGuestObject g } ∨
        c.bufferIsSubmitted g = false ∧ ¬ c.Pends g ∧
          (bufferOnDestroy c g).2 = clearSurfaceBufferReferences (retireBuffer c g h) g) := by
  obtain ⟨hi, hlive, -⟩ := senderAllowed_iff.mp hallowed
  obtain ⟨h, hg, hphase⟩ := hc.tracked g hi hlive
  obtain ⟨e, he, hephase⟩ := Option.map_eq_some_iff.mp hphase
  obtain ⟨buffer, rfl⟩ : ∃ buffer, e = .guestAlive buffer := by
    cases e <;> simp_all [RenderBuffer.phase]
  have hhost := renderBufferHostId_eq hg (by simp [hphase])
  refine ⟨h, buffer, hg, he, ?_⟩
  unfold bufferOnDestroy
  dsimp only
  split <;> rename_i hdefer
  · have hmark : c.markBufferGuestDestroyed g = (true, { c with
        renderBuffers := c.renderBuffers.set h (.guestDestroyed buffer) }) := by
      simp [Context.markBufferGuestDestroyed, Context.onRenderBuffer, hhost,
        RenderBufferRegistry.markGuestDestroyed, he]
    refine .inl ⟨fun hreleased => ?_, ?_, by simp only [hmark, if_true]⟩
    · simp only [hreleased, Bool.not_true, Bool.false_or, Bool.and_eq_true] at hdefer
      exact collect_pending.mp hdefer.2
    · simp only [Bool.and_eq_true, Bool.or_eq_true, SurfaceBufferReferences.contains,
        collect_pending, collect_current] at hdefer
      exact hdefer.1.2
  · simp only [hhost, Option.isSome_some, Bool.true_and, Bool.and_eq_true, Bool.or_eq_true,
      Bool.not_eq_true', not_and, not_or, Bool.not_eq_false,
      SurfaceBufferReferences.contains, collect_pending] at hdefer
    have hpends : ¬ c.Pends g := fun hpends => (hdefer (.inr (.inr hpends))).2 hpends
    have hidle : c.bufferIsSubmitted g = false := by
      by_contra hsub
      have hreleased := (hdefer (.inl (by simpa using hsub))).1
      rw [bufferIsSubmitted_eq hg (by simp [hphase])] at hsub
      simp only [Context.bufferIsReleased, Context.hostBufferUse, hhost, Option.bind_some,
        beq_iff_eq] at hreleased
      simp [hreleased, RenderBufferUse.isAwaitingRelease] at hsub
    exact .inr ⟨hidle, hpends, by simp only [ShadowTable.getHostId, hg]⟩

theorem Consistent.bufferOnDestroy (hc : Consistent lost c)
    (hallowed : c.senderAllowed g .wlBuffer = true) : Consistent lost (bufferOnDestroy c g).2 := by
  obtain ⟨hi, hlive, -⟩ := senderAllowed_iff.mp hallowed
  obtain ⟨h, buffer, hg, he, ⟨-, -, heq⟩ | ⟨hidle, hpends, heq⟩⟩ :=
    bufferOnDestroy_cases hc hallowed
  all_goals
    have hphase : c.renderBuffers.phase h = some .guestAlive := by
      simp [RenderBufferRegistry.phase, he, RenderBuffer.phase]
    rw [heq]
  · obtain ⟨versions, hretire⟩ :=
      ShadowTable.retireGuestObject_mapped hg hi (hc.unlisted g h hg hlive)
    rw [hretire]
    refine hc.deferBuffer hg hphase rfl rfl rfl rfl rfl rfl rfl fun h' => ?_
    exact RenderBufferRegistry.phase_set _
  · exact (hc.retireBuffer hg (.inl hphase) hpends hidle).clearReferences g

/-- The release of a buffer whose destructor waits for it sends the destructor. -/
theorem bufferOnRelease_cases (hc : Consistent lost c) (h : ℕ) :
    (bufferOnRelease c h).2 = c ∨
    ∃ g, c.shadowTable.guestToHost.get g = some h ∧
      ((c.renderBuffers.phase h = some .guestDestroyed → c.Pends g) ∧
          (bufferOnRelease c h).2 =
            { c with renderBuffers := (c.renderBuffers.release h).2 } ∨
        c.renderBuffers.phase h = some .guestDestroyed ∧ ¬ c.Pends g ∧
          (bufferOnRelease c h).2 = clearSurfaceBufferReferences (retireBuffer
            { c with renderBuffers := (c.renderBuffers.release h).2 } g h) g) := by
  unfold bufferOnRelease
  split
  · exact .inl rfl
  · rename_i g hguest
    have hg := (hc.paired g h).mpr hguest
    have hrecord : recordHostBufferRelease c g =
        { c with renderBuffers := (c.renderBuffers.release h).2 } := by
      by_cases hentry : c.renderBuffers.phase h = none
      · have hcontains : c.renderBuffers.contains h = false := by
          rw [Bool.eq_false_iff]
          exact fun htrue => RenderBufferRegistry.contains_iff.mp htrue hentry
        have hunused : c.renderBuffers.useState h = none := by
          rw [RenderBufferRegistry.contains, Option.isSome_eq_false_iff,
            Option.isNone_iff_eq_none] at hcontains
          simp [RenderBufferRegistry.useState, RenderBufferRegistry.activeBuffer, hcontains]
        simp [recordHostBufferRelease, Context.renderBufferHostId, ShadowTable.getHostId, hg,
          hcontains, Option.filter, RenderBufferRegistry.release, hunused]
      · simp [recordHostBufferRelease, Context.markBufferReleased, Context.onRenderBuffer,
          renderBufferHostId_eq hg hentry]
    refine .inr ⟨g, hg, ?_⟩
    dsimp only
    rw [hrecord]
    split_ifs with hdeferred hpends
    · exact .inl ⟨fun _ => collect_pending.mp hpends, rfl⟩
    · exact .inr ⟨RenderBufferRegistry.isGuestDestroyed_iff.mp hdeferred,
        fun hpend => hpends (collect_pending.mpr hpend), rfl⟩
    · exact .inl ⟨fun hphase => absurd (RenderBufferRegistry.isGuestDestroyed_iff.mpr hphase)
        hdeferred, rfl⟩

theorem Consistent.bufferOnRelease (hc : Consistent lost c) :
    Consistent lost (bufferOnRelease c h).2 := by
  have hnext : Consistent lost { c with renderBuffers := (c.renderBuffers.release h).2 } :=
    hc.withRenderBuffers fun _ => RenderBufferRegistry.phase_release
  obtain heq | ⟨g, hg, ⟨-, heq⟩ | ⟨hphase, hpends, heq⟩⟩ := bufferOnRelease_cases hc h <;>
    rw [heq]
  · exact hc
  · exact hnext
  · refine Consistent.clearReferences ?_ g
    refine hnext.retireBuffer hg (.inr (RenderBufferRegistry.phase_release.trans hphase))
      hpends ?_
    rw [bufferIsSubmitted_eq (by exact hg) (by simp [hphase])]
    rcases RenderBufferRegistry.useState_release c.renderBuffers h h with
      ⟨hsame, hidle⟩ | ⟨-, hreleased⟩
    · rw [hsame]
      exact hidle rfl
    · simp [hreleased, RenderBufferUse.isAwaitingRelease]

/-! ## Surfaces

The handler sends the destructor of the surface first and marks its ID last. The
retirement between the two does not depend on the mark. -/

/-- A guest ID waits for the acknowledgement of its destructor. -/
def Context.awaitDeleteId (c : Context) (guestId : ℕ) : Context :=
  { c with
    shadowTable := { c.shadowTable with
      pendingDestroyGuestIds := insert guestId c.shadowTable.pendingDestroyGuestIds } }

theorem completeQueuedBufferDestroy_awaitDeleteId {s : ℕ} (hne : g ≠ s) :
    (c.awaitDeleteId s).completeQueuedBufferDestroy g h =
      ((c.completeQueuedBufferDestroy g h).1,
        (c.completeQueuedBufferDestroy g h).2.awaitDeleteId s) := by
  unfold Context.completeQueuedBufferDestroy
  by_cases hg : c.shadowTable.getHostId g = some h
  · have hg' : (c.awaitDeleteId s).shadowTable.getHostId g = some h := hg
    have hremove : (c.awaitDeleteId s).shadowTable.removeId g =
        { c.shadowTable.removeId g with
          pendingDestroyGuestIds :=
            insert s (c.shadowTable.removeId g).pendingDestroyGuestIds } := by
      rw [ShadowTable.removeId_mapped hg', ShadowTable.removeId_mapped hg]
      simp [Context.awaitDeleteId, Finset.erase_insert_of_ne hne.symm]
    have hmark : (c.awaitDeleteId s).shadowTable.markPendingDestroy g =
        { c.shadowTable.markPendingDestroy g with
          pendingDestroyGuestIds :=
            insert s (c.shadowTable.markPendingDestroy g).pendingDestroyGuestIds } := by
      rw [ShadowTable.markPendingDestroy_mapped hg', ShadowTable.markPendingDestroy_mapped hg]
      simp [Context.awaitDeleteId, Finset.insert_comm]
    have hbuffers : (c.awaitDeleteId s).renderBuffers = c.renderBuffers := rfl
    simp only [hg, hg', hremove, hmark, hbuffers, ne_eq, not_true_eq_false, if_false]
    split_ifs <;> rfl
  · have hg' : (c.awaitDeleteId s).shadowTable.getHostId g ≠ some h := hg
    simp only [ne_eq, hg, hg', not_false_eq_true, if_true]

theorem retireBuffer_awaitDeleteId {s : ℕ} (hne : g ≠ s) :
    retireBuffer (c.awaitDeleteId s) g h = (retireBuffer c g h).awaitDeleteId s := by
  have hqueue : queueHostBufferDestroy (c.awaitDeleteId s) h =
      (queueHostBufferDestroy c h).awaitDeleteId s := rfl
  unfold retireBuffer retireDestroyedBufferMapping
  rw [hqueue, completeQueuedBufferDestroy_awaitDeleteId hne]
  dsimp only
  split_ifs <;> rfl

theorem retireEligibleBuffers_awaitDeleteId {s : ℕ}
    (hs : ∀ ids ∈ retirementCandidates c, ids.1 ≠ s) :
    retireEligibleBuffers (c.awaitDeleteId s) = (retireEligibleBuffers c).awaitDeleteId s := by
  have hfold : ∀ (l : List (ℕ × ℕ)) (c : Context), (∀ ids ∈ l, ids.1 ≠ s) →
      l.foldl (fun c ids => retireBuffer c ids.1 ids.2) (c.awaitDeleteId s) =
        (l.foldl (fun c ids => retireBuffer c ids.1 ids.2) c).awaitDeleteId s := by
    intro l
    induction l with
    | nil => intro c _; rfl
    | cons ids l ih =>
      intro c hl
      rw [List.foldl_cons, List.foldl_cons,
        retireBuffer_awaitDeleteId (hl ids List.mem_cons_self)]
      exact ih _ fun ids hmem => hl ids (List.mem_cons_of_mem _ hmem)
  exact hfold (retirementCandidates c) c hs

/-- The end of a surface only settles the use of the buffer it showed, when no other surface
shows it. -/
theorem clearBufferUsesAfterSurfaceDestroy_eq (c : Context) (buffer : Option ℕ) :
    ∃ r fatal, clearBufferUsesAfterSurfaceDestroy c buffer = { c with
      renderBuffers := r, fatalProtocolError := fatal } ∧
      (∀ h, r.phase h = c.renderBuffers.phase h) ∧
      ∀ h, r.useState h = c.renderBuffers.useState h ∨
        ∃ g, c.shadowTable.guestToHost.get g = some h ∧ ¬ c.Shows g := by
  unfold clearBufferUsesAfterSurfaceDestroy
  cases buffer with
  | none => exact ⟨_, _, rfl, fun _ => rfl, fun _ => .inl rfl⟩
  | some g =>
    dsimp only
    split
    · unfold Context.finishSurfaceDestroyUse Context.onRenderBuffer
      cases hhost : c.renderBufferHostId g with
      | none => exact ⟨_, true, rfl, fun _ => rfl, fun _ => .inl rfl⟩
      | some h =>
        have huses : ∀ h', (c.renderBuffers.endLastSurfaceUse h
            ((SurfaceBufferReferences.collect c).current g)).2.useState h' =
              c.renderBuffers.useState h' ∨
            ∃ g, c.shadowTable.guestToHost.get g = some h' ∧ ¬ c.Shows g := by
          intro h'
          have hg : c.shadowTable.guestToHost.get g = some h := by
            rw [Context.renderBufferHostId, Option.filter_eq_some_iff] at hhost
            exact hhost.1
          refine (RenderBufferRegistry.useState_endLastSurfaceUse _ _ _ h').imp_right ?_
          rintro ⟨rfl, hunshown⟩
          exact ⟨g, hg, fun hshows => by simp [collect_current.mpr hshows] at hunshown⟩
        dsimp only
        split
        · exact ⟨_, _, rfl, fun _ => RenderBufferRegistry.phase_endLastSurfaceUse _, huses⟩
        · exact ⟨_, _, rfl, fun _ => RenderBufferRegistry.phase_endLastSurfaceUse _, huses⟩
    · exact ⟨_, _, rfl, fun _ => rfl, fun _ => .inl rfl⟩

/-- The destruction of a surface, with its ID marked before the retirement. -/
theorem surfaceOnDestroy_eq (hc : Consistent lost c)
    (hallowed : c.senderAllowed g .wlSurface = true) :
    ∃ h r fatal c₁, c.shadowTable.guestToHost.get g = some h ∧
      (∀ h, r.phase h = c.renderBuffers.phase h) ∧
      (∀ h, r.useState h = c.renderBuffers.useState h ∨
        ∃ g, c.shadowTable.guestToHost.get g = some h ∧ ¬ c₁.Shows g) ∧
      c₁ = { c.queue (.destroy h) with
        surfaces := c.surfaces.erase g, renderBuffers := r, fatalProtocolError := fatal } ∧
      clearBufferUsesAfterSurfaceDestroy
        { c.queue (.destroy h) with surfaces := c.surfaces.erase g }
        ((c.surfaces.get g).bind SurfaceState.currentBufferId) = c₁ ∧
      Consistent lost (c₁.awaitDeleteId g) ∧
      surfaceOnDestroy c g = (.drop, { retireEligibleBuffers (c₁.awaitDeleteId g) with
        viewportToWlSurface := (retireEligibleBuffers c₁).viewportToWlSurface.retain
          fun _ owner => owner != g }) := by
  obtain ⟨hi, hlive, hmap⟩ := senderAllowed_iff.mp hallowed
  obtain ⟨h, hg⟩ := hmap.resolve_right (by simp [Interface.isLocalOnly])
  have hs : ShadowTable.isGuestServerId g = false := by
    rw [Bool.eq_false_iff]
    exact fun hserver => by simpa using hc.announced g _ hi hserver
  obtain ⟨r, fatal, hclear, hphase, huses⟩ := clearBufferUsesAfterSurfaceDestroy_eq
    { c.queue (.destroy h) with surfaces := c.surfaces.erase g }
    ((c.surfaces.get g).bind SurfaceState.currentBufferId)
  obtain ⟨c₁, hc₁⟩ : ∃ c₁, c₁ = { c.queue (.destroy h) with
    surfaces := c.surfaces.erase g, renderBuffers := r, fatalProtocolError := fatal } := ⟨_, rfl⟩
  have hsurfaces : c₁.surfaces = c.surfaces.erase g := by rw [hc₁]
  have htable : c₁.shadowTable = c.shadowTable := by rw [hc₁]; rfl
  have hclear : clearBufferUsesAfterSurfaceDestroy
      { c.queue (.destroy h) with surfaces := c.surfaces.erase g }
      ((c.surfaces.get g).bind SurfaceState.currentBufferId) = c₁ := by rw [hclear, hc₁]
  have hmarked : Consistent lost (c₁.awaitDeleteId g) := by
    have hforwarded := hc.forwardDestructor hg hi (by simp) (by simp) hlive
    have heq : forwardDestructor c g h = (c.queue (.destroy h)).awaitDeleteId g := by
      unfold forwardDestructor
      simp only [hs]
      rw [show (c.queue (.destroy h)).shadowTable = c.shadowTable from rfl,
        ShadowTable.markPendingDestroy_mapped hg]
      rfl
    rw [heq] at hforwarded
    refine hforwarded.frame (by rw [hc₁]; exact ⟨rfl, rfl, rfl, rfl, hphase⟩) fun g' hg' => .inl ?_
    obtain ⟨s, surface, hget, hpend⟩ := hg'
    rw [show (c₁.awaitDeleteId g).surfaces = c₁.surfaces from rfl, hsurfaces,
      Table.get_erase] at hget
    split_ifs at hget
    exact ⟨s, surface, hget, hpend⟩
  have hshown : ∀ h, r.useState h = c.renderBuffers.useState h ∨
      ∃ g, c.shadowTable.guestToHost.get g = some h ∧ ¬ c₁.Shows g := by
    subst hc₁
    exact huses
  refine ⟨h, r, fatal, c₁, hg, hphase, hshown, hc₁, hclear, hmarked, ?_⟩
  have hother : ∀ g' h', Retirable (c₁.awaitDeleteId g) g' h' → g' ≠ g := by
    rintro g' h' hr rfl
    have hnone := (hmarked.deferred g' h' hr.1 hr.2.1).2.1
    simp [Context.awaitDeleteId, htable, hi] at hnone
  have hretire := retireEligibleBuffers_awaitDeleteId (c := c₁) (s := g)
    fun ids hmem => hother ids.1 ids.2 ((mem_retirementCandidates hmarked).mp hmem)
  have hkept : (retireEligibleBuffers c₁).shadowTable.guestToHost.get g = some h := by
    have hkept := ((retireEligibleBuffers_spec hmarked).2.kept g h (by rw [← hg, ← htable]; rfl)
      fun hr => hother g h hr rfl).1
    rw [hretire] at hkept
    exact hkept
  have hunfold : surfaceOnDestroy c g = (
      let c₂ := retireEligibleBuffers (clearBufferUsesAfterSurfaceDestroy
        { c.queue (.destroy h) with surfaces := c.surfaces.erase g }
        ((c.surfaces.get g).bind SurfaceState.currentBufferId))
      (.drop, { c₂ with
        viewportToWlSurface := c₂.viewportToWlSurface.retain fun _ owner => owner != g
        shadowTable := c₂.shadowTable.markPendingDestroy g })) := by
    unfold surfaceOnDestroy
    rw [show c.shadowTable.getHostId g = some h from hg]
    rfl
  rw [hunfold, hclear, hretire]
  dsimp only
  rw [ShadowTable.markPendingDestroy_mapped hkept]
  rfl

theorem Consistent.surfaceOnDestroy (hc : Consistent lost c)
    (hallowed : c.senderAllowed g .wlSurface = true) :
    Consistent lost (surfaceOnDestroy c g).2 := by
  obtain ⟨h, r, fatal, c₁, -, -, -, -, -, hmarked, heq⟩ := surfaceOnDestroy_eq hc hallowed
  rw [heq]
  exact (retireEligibleBuffers_spec hmarked).1.frame ⟨rfl, rfl, rfl, rfl, fun _ => rfl⟩
    fun _ => .inl

/-! ## Acknowledgements -/

theorem Consistent.hostLifetime_deleteId (hconf : c.hostLifetime h = some .destroyed) (h' : ℕ) :
    (c.queue (.deleteId h)).hostLifetime h' =
      if h' = h then some .free else c.hostLifetime h' := by
  simp only [hostLifetime_queue, HostTraffic.lifetimeEvent, LifetimeEvent.id, eq_comm (a := h)]
  split_ifs with heq <;> simp_all [LifetimeEvent.next]

/-- `wl_display.delete_id` of a destroyed object frees its number. -/
theorem Consistent.onDeleteId (hc : Consistent lost c)
    (hconf : c.hostLifetime h = some .destroyed) :
    Consistent lost (onDeleteId (c.queue (.deleteId h)) h) := by
  have hlife := hostLifetime_deleteId hconf
  have hquiet : ∀ h' a p, HostTraffic.destroyBuffer h' a p ∈ .deleteId h :: c.traffic →
      .destroyBuffer h' a p ∈ c.traffic := fun h' a p hmem => by simpa using hmem
  have hlast : ∀ h', h' ≠ h → (c.queue (.deleteId h)).lastAbout h' = c.lastAbout h' :=
    fun _ hother => lastAbout_queue_other fun _ he => Option.some.inj he ▸ hother.symm
  have hlastDelete : ∀ h', (c.queue (.deleteId h)).lastAbout h' =
      if h' = h then some (.deleteId h) else c.lastAbout h' := by
    intro h'
    simp [HostTraffic.lifetimeEvent, LifetimeEvent.id, eq_comm (a := h)]
  have hentry : c.shadowTable.hostToGuest.get h = none → c.renderBuffers.phase h = none := by
    intro hunmapped
    by_contra hne
    exact hc.entry_mapped h hne hunmapped
  -- An unmapped number that was destroyed is the one of a host-only object.
  have hwaiting : h ∉ lost → c.shadowTable.hostToGuest.get h = none →
      c.orphanedDmabufParams.get h = none → c.shadowTable.hostInterfaces.get h = none ∧
        h ∉ c.shadowTable.retiredHostIds ∧ h ∈ c.shadowTable.pendingDestroyHostIds := by
    intro hkept hunmapped horph
    rcases hc.settled h hkept hunmapped horph with hfree | ⟨hwaits, hnone, hretired, -⟩
    · simp [hc.free h hfree] at hconf
    · exact ⟨hnone, hretired, hwaits⟩
  unfold Sommelier.onDeleteId ShadowTable.consumeHostDeleteId
  by_cases hwaits : h ∈ c.shadowTable.pendingDestroyHostIds
  -- A host-only object: only its number was left.
  · have hunmapped : c.shadowTable.hostToGuest.get h = none := by
      by_contra hmapped
      exact (hc.unreserved h hmapped).2 hwaits
    have horphan : c.orphanedDmabufParams.get h = none := by
      cases horph : c.orphanedDmabufParams.get h with
      | none => rfl
      | some g =>
        rcases hc.orphaned h g horph with hmapped | hfree
        · simp [hunmapped] at hmapped
        · simp [hconf] at hfree
    have hreleased := hc.releaseHostId (t := { c.shadowTable with
      pendingDestroyHostIds := c.shadowTable.pendingDestroyHostIds.erase h })
      hunmapped horphan rfl rfl rfl (fun _ _ => rfl) rfl rfl (fun _ _ => Iff.rfl)
      (fun hkept => (hwaiting hkept hunmapped horphan).imp_right And.left) hlife hlast hquiet
    simp only [Context.queue, hwaits, decide_true, if_true]
    refine hreleased.withRenderBuffers fun h' => ?_
    rw [RenderBufferRegistry.remove, RenderBufferRegistry.phase_erase]
    split_ifs with heq
    · rw [heq]
      exact (hentry hunmapped).symm
    · rfl
  · simp only [Context.queue, hwaits, decide_false, Finset.erase_eq_of_notMem hwaits,
      Bool.false_eq_true, if_false, ShadowTable.getGuestId, ShadowTable.getInterface]
    cases horph : c.orphanedDmabufParams.get h with
    | some g =>
      rcases hc.orphaned h g horph with ⟨hmap, hpend, hi⟩ | hfree
      -- Parameters that still wait for their answer: the guest may reuse its number.
      · have hg := (hc.paired g h).mpr hmap
        simp only [hmap, hi, decide_true, Option.isSome_some, Bool.and_true, if_true]
        rw [ShadowTable.removeGuestMapping_mapped hg hmap hi]
        refine hc.releaseGuestId hg horph rfl rfl rfl (fun h' => ?_) (fun h' i hi' => ?_) rfl rfl
          rfl hlife hlastDelete hquiet
        · simp only [ShadowTable.clearPendingDestroyGuest]
          split_ifs <;> grind [Table.get_set]
        · simp only [ShadowTable.clearPendingDestroyGuest]
          split_ifs <;> grind [Table.get_set]
      · simp [hconf] at hfree
    | none =>
      rcases Option.eq_none_or_eq_some (c.shadowTable.hostToGuest.get h) with hmap | ⟨g, hmap⟩
      · simp only [hmap]
        exact hc.releaseHostId hmap horph rfl rfl rfl (fun _ _ => rfl) rfl
          (Finset.erase_eq_of_notMem hwaits).symm (fun _ _ => Iff.rfl)
          (fun hkept => absurd (hwaiting hkept hmap horph).2.2 hwaits) hlife hlast hquiet
      · have hg := (hc.paired g h).mpr hmap
        have hpends : ¬ c.Pends g := by
          intro hpends
          obtain ⟨h', hg', hphase⟩ := hc.attached g hpends
          obtain rfl := Option.some.inj (hg.symm.trans hg')
          have halive := hphase.elim (fun hp => hc.live g h hg (.inl (hc.alive g h hg hp).2))
            fun hp => hc.live g h hg (.inr hp)
          rw [hconf, livePhase] at halive
          split_ifs at halive <;> simp at halive
        simp only [hmap]
        rw [ShadowTable.removeId_mapped hg]
        refine hc.removeObject hg hpends horph rfl rfl rfl rfl rfl rfl rfl
          (fun _ => RenderBufferRegistry.phase_erase) hlife hlast
          (fun h' a p hmem => .inl (hquiet h' a p hmem)) fun h' p hp => ?_
        rw [Table.get_erase] at hp
        split_ifs at hp with hne
        refine ⟨hp, ?_⟩
        rintro rfl
        exact hne (hc.paired.host_inj (hc.creating h' p hp).1 hmap)

end Sommelier
