import Sommelier.Ids.InputActs

/-!
# Buffer and surface handlers as acts

What the handlers of pools, buffers, dma-buf parameters and surfaces do, as acts.
-/
namespace Sommelier.IdContext

variable {p : Promises} {c c' : IdContext} {g h n : ℕ}

/-! ## Buffers -/

/-- A buffer that is registered after the temporary object is destroyed is registered as before
it: they are different objects. -/
theorem destroyInternal_register {s : IdState} {x : ℕ} {i : Interface}
    (hg : s.shadowTable.guestToHost.get g = none) (hx : s.shadowTable.hostToGuest.get x = none)
    (hi : s.shadowTable.hostInterfaces.get x = some i) (hf : s.Fresh h n) :
    ∃ guestVersions hostVersions,
      ((((s.take h n).queueNewId h).destroyInternal x).onTable fun t =>
        registerBuffer g h (t.mapId g h)) =
      ((s.pair g h n .wlBuffer guestVersions hostVersions).queueNewId h).destroyInternal x := by
  have hh := hf.mem
  have hne : x ≠ h := by
    rintro rfl
    simp [hi] at hh
  let hostVersions := (s.shadowTable.hostVersions.erase x).set h 1
  have hversions : hostVersions.erase x = hostVersions :=
    Table.erase_of_get_none (by simp [hostVersions, hne])
  refine ⟨s.shadowTable.guestVersions.set g 1, hostVersions, ?_⟩
  have hpair : ((s.pair g h n .wlBuffer (s.shadowTable.guestVersions.set g 1)
      hostVersions).queueNewId h).shadowTable.hostToGuest.get x = none := by
    simpa [IdState.pair, IdState.take, IdState.onTable, IdState.queueNewId, IdState.logHost, hne]
      using hx
  rw [IdState.destroyInternal_eq (s := (s.take h n).queueNewId h) hx hi,
    IdState.destroyInternal_eq hpair hi]
  simp only [IdState.onTable, registerBuffer, IdState.pair, IdState.take, IdState.queueNewId,
    IdState.logHost, ShadowTable.mapId_fresh, hg, hh.1, hversions]
  rfl

/-- The temporary object a buffer is created from, the buffer and the destructor of the
temporary object are one act. -/
theorem onCreateBuffer_acts {backing : BufferBacking} (hg : c.toIdState.Open g)
    (hc : c.onCreateBuffer g backing = some c') : Acts p c c' := by
  unfold onCreateBuffer at hc
  split at hc
  · cases hc
  · obtain ⟨⟨x, c₁⟩, hbind, hc⟩ := Option.bind_eq_some_iff.mp hc
    obtain ⟨⟨h, s⟩, halloc, hc⟩ := Option.bind_eq_some_iff.mp hc
    obtain ⟨n, hf, rfl⟩ := bindInternal_eq_some hbind
    obtain ⟨n', hf', rfl⟩ := IdState.allocateHostId_eq_some halloc
    obtain rfl := Option.some.inj hc
    obtain ⟨guestVersions, hostVersions, heq⟩ := destroyInternal_register
      (s := c.toIdState.bound x n backing.interface backing.version) hg.unmapped hf.mem.1
      (IdState.bound_hostInterfaces_self ..) hf'
    exact .single (.move (.bridgeBuffer hg hf hf') ⟨heq, rfl, rfl⟩)

/-- A destructor is sent for a buffer that is known by either of its IDs. -/
theorem queueBufferDestroy_acts (hg : c.shadowTable.guestToHost.get g = some h ∨
    c.shadowTable.hostToGuest.get h = some g) : Acts p c (c.queueBufferDestroy g h) :=
  .single (.move (.forwardDestructor hg) ⟨rfl, rfl, rfl⟩)

/-- A buffer the host still uses is destroyed on the guest's side only. -/
theorem bufferOnDestroy_acts (hg : c.toIdState.Known g h .wlBuffer) (inUse : Bool) :
    Acts p c (c.bufferOnDestroy g inUse) := by
  have hmapped : c.shadowTable.getHostId g = some h := hg.mapped
  simp only [bufferOnDestroy, hmapped]
  split_ifs
  · exact .single (.move (.retireBuffer hg) ⟨rfl, rfl, rfl⟩)
  · exact queueBufferDestroy_acts (.inl hg.mapped)

/-- The release that a destructor waited for lets it go out, any other is forwarded. -/
theorem bufferOnRelease_acts (c : IdContext) (h : ℕ) (pending : Bool) :
    Acts p c (c.bufferOnRelease h pending) := by
  unfold bufferOnRelease
  split
  · exact .refl
  next g hg =>
    split_ifs
    · exact .refl
    · exact queueBufferDestroy_acts (.inr hg)
    · exact forwardEvent_acts c h []

/-- The buffers whose last use ended; those the guest has destroyed are destroyed on the host.
-/
theorem retireEligibleBuffers_acts (c : IdContext) (eligible : List ℕ) :
    Acts p c (c.retireEligibleBuffers eligible) := by
  refine .foldl (fun c h => ?_) eligible c
  unfold retireBuffer
  split_ifs
  · split
    · exact .refl
    next g hg => exact queueBufferDestroy_acts (.inr hg)
  · exact .refl

/-! ## dma-buf parameters -/

/-- A creation is only recorded; its buffer is announced by the host. -/
theorem onCreate_acts {params : ℕ} (hc : c.onCreate params = some c') : Acts p c c' := by
  unfold onCreate at hc
  split_ifs at hc
  split at hc
  · cases hc
  · split_ifs at hc
    exact Option.some.inj hc ▸ .note ⟨rfl, rfl, rfl⟩

/-- The buffer of an immediate creation is the guest's new object. -/
theorem onCreateImmed_acts {params : ℕ} (hg : c.toIdState.Open g)
    (hc : c.onCreateImmed params g = some c') : Acts p c c' := by
  unfold onCreateImmed at hc
  split_ifs at hc
  split at hc
  · cases hc
  · obtain ⟨s, hpair, rfl⟩ := Option.map_eq_some_iff.mp hc
    have hc₁ : Acts p c { c with toIdState := s } :=
      pairQueued_acts hg (registers_versions g .wlBuffer _ _)
        (Option.map_eq_some_iff.mpr ⟨s, hpair, rfl⟩)
    exact hc₁.trans (.note ⟨rfl, rfl, rfl⟩)

/-- The parameters are destroyed; an unanswered creation is remembered. -/
theorem destroyParams_acts (hg : c.toIdState.Known g h .zwpLinuxBufferParamsV1) :
    Acts p c ((c.paramsOnDestroy g).forwardDestructor g) := by
  have hmapped : c.shadowTable.getHostId g = some h := hg.mapped
  simp only [paramsOnDestroy, hmapped]
  split_ifs
  · simp only [forwardDestructor, onIds_toIdState, IdState.orphanParams, hmapped]
    exact .single (.move (.destroyParams hg) ⟨rfl, rfl, rfl⟩)
  · simp only [forwardDestructor, hmapped]
    exact .single (.move (.forwardDestructor (.inl hg.mapped)) ⟨rfl, rfl, rfl⟩)

/-- The host answers parameters that are gone. -/
theorem answerOrphan_acts (hh : (c.orphanedDmabufParams.get h).isSome = true) :
    Acts p c (c.answerOrphan h) :=
  .single (.move (.answerOrphan h hh) ⟨rfl, rfl, rfl⟩)

/-- A buffer announced for nobody is destroyed at once. -/
theorem destroyOrphanedBuffer_acts {buffer : ℕ} (params : ℕ)
    (hbuffer : c.shadowTable.isHostIdAvailable buffer = true) :
    Acts p c (c.destroyOrphanedBuffer params buffer) :=
  .single (.move (.orphanBuffer buffer _ hbuffer) ⟨rfl, rfl, rfl⟩)

theorem isHostIdAvailable_iff {t : ShadowTable} : t.isHostIdAvailable h = true ↔
    1 < h ∧ t.hostToGuest.get h = none ∧ t.hostInterfaces.get h = none ∧
      h ∉ t.retiredHostIds ∧ h ∉ t.pendingDestroyHostIds := by
  rw [ShadowTable.isHostIdAvailable, Bool.and_eq_true, decide_eq_true_eq,
    ShadowTable.hostIdFree_iff]

/-- An announced buffer gets an ID of the server range on the guest's side. -/
theorem forwardCreated_acts {params buffer : ℕ}
    (hbuffer : c.shadowTable.isHostIdAvailable buffer = true)
    (hlawful : p.lawful → ¬ Outstanding c.hostTraffic buffer)
    (hc : c.forwardCreated params buffer = some c') : Acts p c c' := by
  unfold forwardCreated at hc
  split at hc
  · exact Option.some.inj hc ▸ .refl
  next guestParams _ =>
    obtain ⟨⟨g, s⟩, hpair, rfl⟩ := Option.map_eq_some_iff.mp hc
    obtain ⟨hg, next, rfl⟩ :=
      IdState.pairAnnounced_eq_some (isHostIdAvailable_iff.mp hbuffer).2.1 hpair
    have hpaired : Acts p c (c.onIds (·.pairAnnouncedAs g buffer .wlBuffer
        ((c.shadowTable.hostObjectVersion params).getD unknownObjectVersion) next)) :=
      .single (.move (.pairAnnounced hg hbuffer hlawful (.inl rfl)) ⟨rfl, rfl, rfl⟩)
    exact hpaired.trans (emit_acts _ guestParams [g])

/-- An announcement is forwarded, or its buffer destroyed when its parameters are gone. -/
theorem onCreated_acts {params buffer : ℕ}
    (hbuffer : c.shadowTable.isHostIdAvailable buffer = true)
    (hlawful : p.lawful → ¬ Outstanding c.hostTraffic buffer)
    (hc : c.onCreated params buffer = some c') : Acts p c c' := by
  have horphan := @destroyOrphanedBuffer_acts p _ _ params hbuffer
  unfold onCreated at hc
  split_ifs at hc with hparams
  · exact Option.some.inj hc ▸ horphan.trans (answerOrphan_acts hparams)
  split at hc
  · exact Option.some.inj hc ▸ .refl
  split_ifs at hc
  · exact Option.some.inj hc ▸ horphan.trans (.note ⟨rfl, rfl, rfl⟩)
  split at hc
  · exact forwardCreated_acts hbuffer hlawful hc
  · split_ifs at hc
    refine .trans ?_ (forwardCreated_acts (by exact hbuffer) (by exact hlawful) hc)
    exact .note ⟨rfl, rfl, rfl⟩

/-- A failed creation is forwarded unless its parameters are gone. -/
theorem onFailed_acts {params : ℕ} (hc : c.onFailed params = some c') : Acts p c c' := by
  unfold onFailed at hc
  split_ifs at hc with hparams
  · exact Option.some.inj hc ▸ answerOrphan_acts hparams
  split at hc
  · exact Option.some.inj hc ▸ .refl
  split_ifs at hc
  · exact Option.some.inj hc ▸ .note ⟨rfl, rfl, rfl⟩
  split at hc
  · exact Option.some.inj hc ▸ forwardEvent_acts c params []
  · split_ifs at hc
    refine Option.some.inj hc ▸ .trans ?_ (forwardEvent_acts _ params [])
    exact .note ⟨rfl, rfl, rfl⟩

/-! ## Surfaces -/

/-- A surface has at most one Aura object, which is bound when it is first needed. -/
theorem ensureHostZauraSurface_acts {surface : ℕ}
    (hc : c.ensureHostZauraSurface surface = some c') : Acts p c c' := by
  unfold ensureHostZauraSurface at hc
  split at hc
  next hostSurface _ _ _ =>
    split_ifs at hc
    · exact Option.some.inj hc ▸ .refl
    · obtain ⟨⟨x, c₁⟩, hbind, rfl⟩ := Option.map_eq_some_iff.mp hc
      obtain ⟨n, hf, rfl⟩ := bindInternal_eq_some hbind
      refine .single (.bind (k := .zauraSurface hostSurface) hf ⟨rfl, slot_eq_update ?_ ?_, rfl⟩)
      · simp [slot]
      · intro k hk
        cases k <;> simp_all [slot]
  · exact Option.some.inj hc ▸ .refl

theorem releaseZauraSurface_acts (c : IdContext) (hostSurface : ℕ) :
    Acts p c (c.releaseZauraSurface hostSurface) := by
  unfold releaseZauraSurface
  cases hx : c.wlSurfaceToZauraSurface.get hostSurface with
  | none => exact .refl
  | some x =>
    refine .single (.drop (k := .zauraSurface hostSurface) hx ?_ ⟨rfl, slot_eq_update ?_ ?_, rfl⟩)
    · dsimp only [onIds]
      split_ifs
      · exact .inl rfl
      · exact .inr rfl
    · simp [slot, onIds]
    · intro k hk
      cases k <;> simp_all [slot, onIds]

/-- A destroyed surface takes its Aura object, its buffers and its focus with it before it
waits for its acknowledgement. -/
theorem surfaceOnDestroy_acts {surface : ℕ} {eligible : List ℕ}
    (hc : c.surfaceOnDestroy surface eligible = some c') : Acts p c c' := by
  unfold surfaceOnDestroy at hc
  split at hc
  · cases hc
  next hostSurface _ =>
    obtain ⟨c₁, hfocus, hc⟩ := Option.bind_eq_some_iff.mp hc
    obtain ⟨c₂, hrepair, hc⟩ := Option.bind_eq_some_iff.mp hc
    refine Option.some.inj hc ▸ .trans ?_ (.onIds (.markPendingDestroy surface))
    refine .trans ?_ (repairDestroyedSurfaceFocus_acts hrepair)
    refine .trans ?_ (applyKeyboardFocusChanges_acts hfocus)
    have hrelease : Acts p c ((c.releaseZauraSurface hostSurface).onIds
        (·.logHost (.destroy hostSurface))) :=
      (releaseZauraSurface_acts c hostSurface).trans (.onIds (.logDestroy hostSurface))
    exact (hrelease.trans (retireEligibleBuffers_acts _ eligible)).trans (.note ⟨rfl, rfl, rfl⟩)

end Sommelier.IdContext
