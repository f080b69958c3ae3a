import Sommelier.Objects.Preservation

/-!
# Messages that are not about buffers

Most messages leave the surfaces' buffers and the usable render buffers alone; at most a
new buffer appears, which was never submitted and whose image was never copied.

## Main definitions

* `Context.buffersOf`: the buffer a surface shows and its pending attachment.
* `BufferFrame`: surfaces and usable buffers are untouched.
* `step_bufferFrame`: the messages for which this holds.
-/
namespace Sommelier

variable {maps : DamageMapping} {lost : Set ℕ} {c c' c'' : Context} {g h s : ℕ}

/-- The buffer a surface shows, and its pending attachment. -/
def Context.buffersOf (c : Context) (surfaceId : ℕ) : Option ℕ × SurfaceAttachment :=
  (c.surfaceOrDefault surfaceId).buffers

theorem pends_iff_buffersOf : c.Pends g ↔ ∃ s, (c.buffersOf s).2 = .attach g := by
  rw [pends_iff]
  refine exists_congr fun s => ?_
  unfold Context.buffersOf Context.surfaceOrDefault
  cases c.surfaces.get s <;>
    simp [SurfaceState.buffers, SurfaceState.new, Prod.ext_iff]

theorem shows_iff_buffersOf : c.Shows g ↔ ∃ s, (c.buffersOf s).1 = some g := by
  rw [shows_iff]
  refine exists_congr fun s => ?_
  unfold Context.buffersOf Context.surfaceOrDefault
  cases c.surfaces.get s <;>
    simp [SurfaceState.buffers, SurfaceState.new, Prod.ext_iff, SurfaceState.currentBufferId]

/-- A buffer that was just registered. -/
def RenderBuffer.IsFresh (e : RenderBuffer BufferState) : Prop :=
  ∃ buffer, e = .guestAlive buffer ∧ buffer.useState = .neverSubmitted ∧
    ∀ b, buffer.backing = .localCopy b → b.needsFullCopy = true

/-- The step touched no surface's buffers and no usable render buffer. -/
structure BufferFrame (c c' : Context) : Prop where
  buffers : ∀ s, c'.buffersOf s = c.buffersOf s
  mapped : ∀ g h, c.shadowTable.guestToHost.get g = some h →
    (c.renderBuffers.activeBuffer h).isSome = true → c'.shadowTable.guestToHost.get g = some h
  entries : ∀ h, c'.renderBuffers.get h = c.renderBuffers.get h ∨
    c.renderBuffers.activeBuffer h = none ∧
      ∀ e, c'.renderBuffers.get h = some e → e.IsFresh

theorem BufferFrame.refl (c : Context) : BufferFrame c c :=
  ⟨fun _ => rfl, fun _ _ hg _ => hg, fun _ => .inl rfl⟩

namespace BufferFrame

theorem pends (hf : BufferFrame c c') : c'.Pends g ↔ c.Pends g := by
  simp only [pends_iff_buffersOf, hf.buffers]

theorem shows (hf : BufferFrame c c') : c'.Shows g ↔ c.Shows g := by
  simp only [shows_iff_buffersOf, hf.buffers]

/-- A usable buffer is as before. -/
theorem get_usable (hf : BufferFrame c c')
    (hactive : (c.renderBuffers.activeBuffer h).isSome = true) :
    c'.renderBuffers.get h = c.renderBuffers.get h := by
  refine (hf.entries h).resolve_right fun hother => ?_
  simp [hother.1] at hactive

/-- Steps that change neither surfaces nor render buffers, and unmap no buffer. -/
theorem of_tables (hbuffers : ∀ s, c'.buffersOf s = c.buffersOf s)
    (hentries : c'.renderBuffers = c.renderBuffers)
    (hmapped : ∀ g h, c.shadowTable.guestToHost.get g = some h →
      (c.renderBuffers.activeBuffer h).isSome = true →
      c'.shadowTable.guestToHost.get g = some h) : BufferFrame c c' :=
  ⟨hbuffers, hmapped, fun h => .inl (by rw [hentries])⟩

/-- A new object, possibly a new buffer, under unused IDs. -/
theorem of_bound {r : RenderBufferRegistry BufferState}
    (hg : c.shadowTable.guestToHost.get g = none)
    (hnone : c.renderBuffers.get h = none) (hbuffers : ∀ s, c'.buffersOf s = c.buffersOf s)
    (hmapped : ∀ g', g' ≠ g →
      c'.shadowTable.guestToHost.get g' = c.shadowTable.guestToHost.get g')
    (hr : c'.renderBuffers = r)
    (hentries : ∀ h', h' ≠ h → r.get h' = c.renderBuffers.get h')
    (hfresh : ∀ e, r.get h = some e → e.IsFresh) : BufferFrame c c' := by
  refine ⟨hbuffers, fun g' h' hg' _ => ?_, fun h' => ?_⟩
  · rw [hmapped g' (by rintro rfl; simp [hg] at hg'), hg']
  · rw [hr]
    by_cases heq : h' = h
    · subst heq
      exact .inr ⟨by simp [RenderBufferRegistry.activeBuffer, hnone], hfresh⟩
    · exact .inl (hentries h' heq)

end BufferFrame

/-! ## Messages of other objects -/

/-- A usable buffer is named by the guest, or its destructor is deferred; either way its
host object is alive. -/
theorem Consistent.usable (hc : Consistent lost c)
    (hg : c.shadowTable.guestToHost.get g = some h)
    (hactive : (c.renderBuffers.activeBuffer h).isSome = true) :
    c.hostLifetime h = some (livePhase g) ∧
      (c.shadowTable.interfaces.get g = some .wlBuffer ∨
        g ∈ c.shadowTable.pendingDestroyGuestIds) := by
  rcases RenderBufferRegistry.activeBuffer_isSome_iff.mp hactive with hphase | hphase
  · have halive := hc.alive g h hg hphase
    exact ⟨hc.live g h hg (.inl halive.2), .inl halive.1⟩
  · exact ⟨hc.live g h hg (.inr hphase), .inr (hc.deferred g h hg hphase).1⟩

theorem updateSurface_frame (s : ℕ) {f : SurfaceState → SurfaceState}
    (hf : ∀ x, (f x).buffers = x.buffers) : BufferFrame c (c.updateSurface s f) := by
  refine .of_tables (fun t => ?_) rfl fun _ _ hg _ => hg
  unfold Context.buffersOf Context.surfaceOrDefault Context.updateSurface
  rw [Table.get_set]
  split_ifs with heq
  · subst heq
    exact hf _
  · rfl

theorem mapNewId_frame {sender : ℕ} {i : Interface}
    (havail : c.shadowTable.isGuestIdAvailable g = true)
    (h' : mapNewId c sender g i = some c') : BufferFrame c c' := by
  obtain ⟨-, -, hg, -⟩ := ShadowTable.isGuestIdAvailable_iff.mp havail
  obtain ⟨⟨hostId, t⟩, halloc, heq⟩ := Option.bind_eq_some_iff.mp h'
  obtain ⟨hfree, -, n, rfl⟩ := ShadowTable.allocateHostId_eq_some halloc
  obtain rfl := Option.some.inj heq
  refine .of_tables (fun _ => rfl) rfl fun g' h' hg' _ => ?_
  have hne : g' ≠ g := by
    rintro rfl
    simp [hg] at hg'
  dsimp only [Context.queue]
  rw [ShadowTable.registerObject_fresh (by exact hg)
    (by exact (ShadowTable.hostIdFree_iff.mp hfree).1)]
  simp [hne, hg']

theorem mapAnnouncedId_frame {sender : ℕ} {i : Interface}
    (hfree : c.shadowTable.hostIdFree h = true)
    (h' : mapAnnouncedId c sender h i = some c') : BufferFrame c c' := by
  obtain ⟨⟨guestId, t⟩, halloc, heq⟩ := Option.bind_eq_some_iff.mp h'
  obtain ⟨-, hg, -, n, rfl⟩ := ShadowTable.allocateGuestServerId_eq_some halloc
  obtain rfl := Option.some.inj heq
  refine .of_tables (fun _ => rfl) rfl fun g' h' hg' _ => ?_
  have hne : g' ≠ guestId := by
    rintro rfl
    simp [hg] at hg'
  dsimp only [Context.queue]
  rw [ShadowTable.registerObject_fresh (by exact hg)
    (by exact (ShadowTable.hostIdFree_iff.mp hfree).1)]
  simp [hne, hg']

/-- The destructor of an object that is no buffer, after its books were closed. -/
theorem destroyPlain_frame (hc : Consistent lost c) {i : Interface}
    (htable : c'.shadowTable = c.shadowTable) (hbuffers : c'.renderBuffers = c.renderBuffers)
    (hallowed : c.senderAllowed g i = true) (hbuffer : i ≠ .wlBuffer) :
    BufferFrame c' (destroyPlain c' g) := by
  obtain ⟨hi, hlive, -⟩ := senderAllowed_iff.mp hallowed
  have hother : ∀ g' h', c'.shadowTable.guestToHost.get g' = some h' →
      (c'.renderBuffers.activeBuffer h').isSome = true → g' ≠ g := by
    rw [htable, hbuffers]
    rintro g' h' hg' hactive rfl
    rcases (hc.usable hg' hactive).2 with hi' | hpending
    · exact hbuffer (Option.some.inj (hi.symm.trans hi'))
    · exact hlive hpending
  unfold destroyPlain
  split
  · unfold forwardDestructor
    dsimp only
    split_ifs
    · refine .of_tables (fun _ => rfl) rfl fun g' h' hg' hactive => ?_
      refine (ShadowTable.removeId_guestToHost c'.shadowTable g g').trans ?_
      rw [if_neg (hother g' h' hg' hactive), hg']
    · refine .of_tables (fun _ => rfl) rfl fun g' h' hg' hactive => ?_
      exact (congrArg (fun t => Table.get t g')
        (ShadowTable.markPendingDestroy_guestToHost c'.shadowTable g)).trans hg'
  · unfold queueLocalDeleteId
    split_ifs
    · refine .of_tables (fun _ => rfl) rfl fun g' h' hg' hactive => ?_
      refine (ShadowTable.removeId_guestToHost c'.shadowTable g g').trans ?_
      rw [if_neg (hother g' h' hg' hactive), hg']
    · exact .refl c'

/-- An acknowledgement is for no usable buffer. -/
theorem onDeleteId_frame (hc : Consistent lost c)
    (hconf : c.hostLifetime h = some .destroyed) :
    BufferFrame c (onDeleteId (c.queue (.deleteId h)) h) := by
  have hother : ∀ g' h', c.shadowTable.guestToHost.get g' = some h' →
      (c.renderBuffers.activeBuffer h').isSome = true → h' ≠ h := by
    rintro g' h' hg' hactive rfl
    rw [(hc.usable hg' hactive).1, livePhase] at hconf
    split_ifs at hconf <;> simp at hconf
  have hunusable : c.renderBuffers.activeBuffer h = none := by
    cases hactive : c.renderBuffers.activeBuffer h with
    | none => rfl
    | some b =>
      have hsome : (c.renderBuffers.activeBuffer h).isSome = true := by simp [hactive]
      obtain ⟨g', hmap⟩ := Option.ne_none_iff_exists'.mp (hc.entry_mapped h (by
        rcases RenderBufferRegistry.activeBuffer_isSome_iff.mp hsome with hp | hp <;> simp [hp]))
      exact absurd rfl (hother g' h ((hc.paired g' h).mpr hmap) hsome)
  have herase : ∀ h', (c.renderBuffers.remove h).2.get h' = c.renderBuffers.get h' ∨
      c.renderBuffers.activeBuffer h' = none ∧
        ∀ e, (c.renderBuffers.remove h).2.get h' = some e → e.IsFresh := by
    intro h'
    rw [RenderBufferRegistry.remove, Table.get_erase]
    split_ifs with heq
    · exact .inr ⟨heq ▸ hunusable, by simp⟩
    · exact .inl rfl
  have hguest : ∀ g, c.shadowTable.hostToGuest.get h = some g → ∀ g' h',
      c.shadowTable.guestToHost.get g' = some h' →
      (c.renderBuffers.activeBuffer h').isSome = true → g' ≠ g := by
    rintro g hmap g' h' hg' hactive rfl
    exact hother g' h' hg' hactive
      (Option.some.inj (hg'.symm.trans ((hc.paired g' h).mpr hmap)))
  unfold onDeleteId ShadowTable.consumeHostDeleteId
  dsimp only [Context.queue]
  split_ifs with hwaits
  · exact ⟨fun _ => rfl, fun _ _ hg _ => hg, herase⟩
  · cases horph : c.orphanedDmabufParams.get h with
    | some g =>
      dsimp only
      split_ifs with hown
      · refine .of_tables (fun _ => rfl) rfl fun g' h' hg' hactive => ?_
        have hmap : c.shadowTable.hostToGuest.get h = some g := by
          rw [Bool.and_eq_true] at hown
          exact of_decide_eq_true hown.1
        refine (ShadowTable.removeGuestMapping_guestToHost _ g g').trans ?_
        rw [if_neg (hguest g hmap g' h' hg' hactive)]
        exact hg'
      · exact .of_tables (fun _ => rfl) rfl fun _ _ hg _ => hg
    | none =>
      dsimp only [ShadowTable.getGuestId]
      cases hmap : c.shadowTable.hostToGuest.get h with
      | none => exact .of_tables (fun _ => rfl) rfl fun _ _ hg _ => hg
      | some g =>
        refine ⟨fun _ => rfl, fun g' h' hg' hactive => ?_, herase⟩
        refine (ShadowTable.removeId_guestToHost _ g g').trans ?_
        rw [if_neg (hguest g hmap g' h' hg' hactive)]
        exact hg'

/-! ## New buffers -/

theorem isFresh_native (size : ℤ × ℤ) : RenderBuffer.IsFresh (.guestAlive
    { backing := .native size, useState := .neverSubmitted, implicitSyncFallback := false }) :=
  ⟨_, rfl, rfl, by simp⟩

/-- A new SHM buffer: its storage is filled by the first commit that attaches it. -/
theorem createHostBuffer_frame (hc : Consistent lost c) {temporary : Interface}
    {version : ℕ} {buffer : BufferState} (hg : c.shadowTable.guestToHost.get g = none)
    (hfull : buffer.needsFullCopy = true)
    (h' : createHostBuffer c g temporary version buffer = some c') : BufferFrame c c' := by
  obtain ⟨temporaryId, hostId, n, -, hfree, -, -, rfl⟩ := createHostBuffer_eq_some hc hg h'
  refine .of_bound (g := g) (h := hostId) hg (hc.unregistered hfree) (fun _ => rfl)
    (fun g' hne => ?_) rfl (fun h' hne => ?_) fun e he => ?_
  · simp [hne]
  · simp [hne]
  · simp only [Table.get_set, if_true, Option.some.injEq] at he
    exact ⟨_, he.symm, rfl, by rintro b ⟨⟩; exact hfull⟩

theorem onCreateBuffer_frame (hc : Consistent lost c) {pool : ℕ}
    {request : BufferRequest} {storage : HostStorage} {action : Action} {c₁ : Context}
    (havail : c.shadowTable.isGuestIdAvailable g = true)
    (h₁ : onCreateBuffer c pool g request storage = some (action, c₁)) : BufferFrame c c₁ := by
  obtain ⟨-, -, hg, -⟩ := ShadowTable.isGuestIdAvailable_iff.mp havail
  have hcreate : ∀ {temporary version buffer}, buffer.needsFullCopy = true →
      (createHostBuffer c g temporary version buffer).map (Action.drop, ·) =
        some (action, c₁) → BufferFrame c c₁ := by
    intro temporary version buffer hfull hmap
    obtain ⟨c₂, h₂, heq⟩ := Option.map_eq_some_iff.mp hmap
    obtain ⟨-, rfl⟩ := Prod.mk.inj heq
    exact createHostBuffer_frame hc hg hfull h₂
  have herror : some (Action.drop, c.queueProtocolError) = some (action, c₁) →
      BufferFrame c c₁ := by
    intro heq
    obtain ⟨-, rfl⟩ := Prod.mk.inj (Option.some.inj heq)
    exact .of_tables (fun _ => rfl) rfl fun _ _ hg _ => hg
  unfold onCreateBuffer at h₁
  split_ifs at h₁
  · obtain ⟨-, rfl⟩ := Prod.mk.inj (Option.some.inj h₁)
    exact .refl c
  · split at h₁
    · exact herror h₁
    · dsimp only at h₁
      split_ifs at h₁
      · split at h₁
        · exact herror h₁
        · exact hcreate rfl h₁
        · split at h₁
          · exact herror h₁
          · exact hcreate rfl h₁
      · exact herror h₁

theorem onCreateImmed_frame (hc : Consistent lost c) {params : ℕ} {width height : ℤ}
    {format : ℕ} {duplicated : Bool} {action : Action} {c₁ : Context}
    (havail : c.shadowTable.isGuestIdAvailable g = true)
    (h₁ : onCreateImmed c params g width height format duplicated = some (action, c₁))
    (hsafe : c₁.fatalProtocolError = false) : BufferFrame c c₁ := by
  obtain ⟨-, -, hg, -⟩ := ShadowTable.isGuestIdAvailable_iff.mp havail
  obtain ⟨heq, -⟩ | ⟨hostId, version, n, pending, used, hfree, -, rfl⟩ :=
    onCreateImmed_eq_some hc h₁ hsafe
  · obtain ⟨-, rfl⟩ := Prod.mk.inj heq
    exact .refl c₁
  · rw [ShadowTable.registerObject_fresh (by exact hg)
      (by exact (ShadowTable.hostIdFree_iff.mp hfree).1)]
    refine .of_bound (g := g) (h := hostId) hg (hc.unregistered hfree) (fun _ => rfl)
      (fun g' hne => ?_) rfl (fun h' hne => ?_) fun e he => ?_
    · simp [hne]
    · simp [hne]
    · simp only [Table.get_set, if_true, Option.some.injEq] at he
      exact he ▸ isFresh_native _

/-- The answer to parameters that await a buffer. -/
theorem announceBuffer_frame (hc : Consistent lost c) {buffer : ℕ}
    {p : PendingNativeCreate} (hfree : c.shadowTable.hostIdFree buffer = true)
    (h' : mapAnnouncedId { c with
      pendingNativeCreates := c.pendingNativeCreates.erase h
      renderBuffers := c.renderBuffers.set buffer (.guestAlive
        { backing := .native p.dimensions, useState := .neverSubmitted
          implicitSyncFallback := false }) } h buffer .wlBuffer = some c') :
    BufferFrame c c' := by
  obtain ⟨⟨guestId, t⟩, halloc, heq⟩ := Option.bind_eq_some_iff.mp h'
  obtain ⟨-, hg, -, n, rfl⟩ := ShadowTable.allocateGuestServerId_eq_some halloc
  obtain rfl := Option.some.inj heq
  dsimp only [Context.queue]
  rw [ShadowTable.registerObject_fresh (by exact hg)
    (by exact (ShadowTable.hostIdFree_iff.mp hfree).1)]
  refine .of_bound (g := guestId) (h := buffer) hg (hc.unregistered hfree) (fun _ => rfl)
    (fun g' hne => ?_) rfl (fun h' hne => ?_) fun e he => ?_
  · simp [hne]
  · simp [hne]
  · simp only [Table.get_set, if_true, Option.some.injEq] at he
    exact he ▸ isFresh_native _

/-! ## The step -/

/-- Messages that attach, commit, release or destroy buffers. -/
def Message.isAboutBuffers : Message → Bool
  | .attach .. | .commit .. | .destroySurface _ | .destroyBuffer _ | .release _ => true
  | _ => false

theorem updateViewport_frame (viewport : ℕ) (valid : Bool) (f : ViewportState → ViewportState) :
    BufferFrame c (updateViewport c viewport valid f).2 := by
  unfold updateViewport
  split
  · exact .of_tables (fun _ => rfl) rfl fun _ _ hg _ => hg
  · dsimp only
    split
    · exact .of_tables (fun _ => rfl) rfl fun _ _ hg _ => hg
    · dsimp only
      exact updateSurface_frame _ fun _ => rfl

/-- The books of destroyed parameters. -/
theorem paramsOnDestroy_eq (c : Context) (params : ℕ) : ∃ used pending creates orphans,
    (paramsOnDestroy c params).2 = { c with
      usedDmabufParams := used, pendingParams := pending, pendingNativeCreates := creates,
      orphanedDmabufParams := orphans } := by
  unfold paramsOnDestroy
  dsimp only
  split
  · exact ⟨_, _, _, _, rfl⟩
  · split <;> exact ⟨_, _, _, _, rfl⟩

theorem viewportOnDestroy_renderBuffers (c : Context) (viewport : ℕ) :
    (viewportOnDestroy c viewport).2.renderBuffers = c.renderBuffers := by
  unfold viewportOnDestroy
  split <;> rfl

theorem viewportOnDestroy_frame (viewport : ℕ) :
    BufferFrame c (viewportOnDestroy c viewport).2 := by
  unfold viewportOnDestroy
  split
  · exact .refl c
  · refine .of_tables (fun t => ?_) rfl fun _ _ hg _ => hg
    unfold Context.buffersOf Context.surfaceOrDefault
    rw [Table.get_modify]
    split_ifs
    · cases c.surfaces.get t <;> rfl
    · rfl

theorem BufferFrame.trans (h₁ : BufferFrame c c') (h₂ : BufferFrame c' c'') :
    BufferFrame c c'' := by
  refine ⟨fun s => (h₂.buffers s).trans (h₁.buffers s), fun g h hg hactive => ?_, fun h => ?_⟩
  · refine h₂.mapped g h (h₁.mapped g h hg hactive) ?_
    simpa [RenderBufferRegistry.activeBuffer, h₁.get_usable hactive] using hactive
  · cases hactive : c.renderBuffers.activeBuffer h with
    | some b =>
      have hsame := h₁.get_usable (h := h) (by simp [hactive])
      refine .inl ((h₂.get_usable ?_).trans hsame)
      simpa [RenderBufferRegistry.activeBuffer, hsame] using congrArg Option.isSome hactive
    | none =>
      rcases h₂.entries h with hsame | hfresh
      · rw [hsame]
        exact (h₁.entries h).imp id fun hother => ⟨rfl, hother.2⟩
      · exact .inr ⟨rfl, hfresh.2⟩

theorem BufferFrame.releaseOrphanedParams (hf : BufferFrame c c') (h : ℕ) :
    BufferFrame c (releaseOrphanedParams c' h) := by
  unfold Sommelier.releaseOrphanedParams
  split_ifs
  · exact hf.trans (.of_tables (fun _ => rfl) rfl fun _ _ hg _ => hg)
  · exact hf

theorem requestStep_bufferFrame (hc : Consistent lost c) {m : Message}
    (hm : m.isAboutBuffers = false) (h' : requestStep maps c m = some c') : BufferFrame c c' := by
  cases m
  case newObject sender guestId i =>
    obtain ⟨hallowed, h'⟩ := guarded_eq_some.mp h'
    simp only [Bool.and_eq_true] at hallowed
    exact mapNewId_frame hallowed.2 h'
  case newLocalObject guestId i version =>
    obtain rfl := Option.some.inj (guarded_eq_some.mp h').2
    exact .of_tables (fun _ => rfl) rfl fun _ _ hg _ => hg
  case destroyObject guestId i =>
    obtain ⟨hallowed, h'⟩ := guarded_eq_some.mp h'
    simp only [Bool.and_eq_true] at hallowed
    obtain ⟨-, rfl⟩ := settle_eq_some.mp h'
    have hsender := senderAllowed_of_requestAllowed hallowed.2
    have hbuffer : i ≠ .wlBuffer := by
      rintro rfl
      simp [Interface.isPlain, Interface.isLocalOnly] at hallowed
    split_ifs
    · have hframe : BufferFrame c (poolOnDestroy c guestId).2 :=
        .of_tables (fun _ => rfl) rfl fun _ _ hg _ => hg
      exact hframe.trans (destroyPlain_frame hc rfl rfl hsender hbuffer)
    · have hframe : BufferFrame c (shmOnRelease c guestId).2 :=
        .of_tables (fun _ => rfl) rfl fun _ _ hg _ => hg
      exact hframe.trans (destroyPlain_frame hc rfl rfl hsender hbuffer)
    · exact destroyPlain_frame hc rfl rfl hsender hbuffer
  case createPool shm pool size bytes =>
    obtain ⟨-, rfl⟩ := settle_eq_some.mp (guarded_eq_some.mp h').2
    unfold onCreatePool
    split_ifs
    · exact .refl c
    · exact .of_tables (fun _ => rfl) rfl fun _ _ hg _ => hg
    · split <;> exact .of_tables (fun _ => rfl) rfl fun _ _ hg _ => hg
  case createBuffer pool guestId request storage =>
    obtain ⟨hallowed, h'⟩ := guarded_eq_some.mp h'
    simp only [Bool.and_eq_true] at hallowed
    obtain ⟨⟨action, c₁⟩, h₁, hsettle⟩ := Option.bind_eq_some_iff.mp h'
    obtain ⟨-, rfl⟩ := settle_eq_some.mp hsettle
    exact onCreateBuffer_frame hc hallowed.2 h₁
  case createParams factory params =>
    obtain ⟨hallowed, h'⟩ := guarded_eq_some.mp h'
    simp only [Bool.and_eq_true] at hallowed
    have hbooks : BufferFrame c (onCreateParams c params).2 :=
      .of_tables (fun _ => rfl) rfl fun _ _ hg _ => hg
    exact hbooks.trans (mapNewId_frame hallowed.2 h')
  case addPlane params plane duplicated =>
    obtain ⟨-, rfl⟩ := settle_eq_some.mp (guarded_eq_some.mp h').2
    unfold onAdd
    split_ifs <;> exact .of_tables (fun _ => rfl) rfl fun _ _ hg _ => hg
  case create params width height format duplicated =>
    obtain ⟨-, rfl⟩ := settle_eq_some.mp (guarded_eq_some.mp h').2
    unfold onCreate
    split_ifs
    · exact .of_tables (fun _ => rfl) rfl fun _ _ hg _ => hg
    · exact .of_tables (fun _ => rfl) rfl fun _ _ hg _ => hg
    · split
      · rename_i hres
        obtain ⟨⟨pending, used, fatal, rfl⟩, -⟩ := processParams_eq hres
        exact .of_tables (fun _ => rfl) rfl fun _ _ hg _ => hg
      · rename_i hres
        obtain ⟨⟨pending, used, fatal, rfl⟩, -⟩ := processParams_eq hres
        dsimp only
        split <;> exact .of_tables (fun _ => rfl) rfl fun _ _ hg _ => hg
  case createImmed params buffer width height format duplicated =>
    obtain ⟨hallowed, h'⟩ := guarded_eq_some.mp h'
    simp only [Bool.and_eq_true] at hallowed
    obtain ⟨⟨action, c₁⟩, h₁, hsettle⟩ := Option.bind_eq_some_iff.mp h'
    obtain ⟨hsafe, rfl⟩ := settle_eq_some.mp hsettle
    exact onCreateImmed_frame hc hallowed.2 h₁ hsafe
  case destroyParams params =>
    obtain ⟨hallowed, h'⟩ := guarded_eq_some.mp h'
    obtain ⟨-, rfl⟩ := settle_eq_some.mp h'
    obtain ⟨used, pending, creates, orphans, heq⟩ := paramsOnDestroy_eq c params
    rw [heq]
    refine BufferFrame.trans ?_ (destroyPlain_frame hc rfl rfl
      (senderAllowed_of_requestAllowed hallowed) (by simp))
    exact .of_tables (fun _ => rfl) rfl fun _ _ hg _ => hg
  case getViewport viewporter viewport surface =>
    obtain ⟨hallowed, h'⟩ := guarded_eq_some.mp h'
    simp only [Bool.and_eq_true] at hallowed
    obtain ⟨c₁, h₁, h'⟩ := Option.bind_eq_some_iff.mp h'
    obtain ⟨-, rfl⟩ := settle_eq_some.mp h₁
    have htable := (hc.onGetViewport viewport surface).2
    refine BufferFrame.trans ?_ (mapNewId_frame (by rw [htable]; exact hallowed.1.2) h')
    unfold onGetViewport
    split
    · exact .of_tables (fun _ => rfl) rfl fun _ _ hg _ => hg
    · have hframe : BufferFrame c { c with
          viewportToWlSurface := c.viewportToWlSurface.set viewport surface } :=
        .of_tables (fun _ => rfl) rfl fun _ _ hg _ => hg
      refine hframe.trans ?_
      dsimp only
      exact updateSurface_frame _ fun _ => rfl
  case destroyViewport viewport =>
    obtain ⟨hallowed, h'⟩ := guarded_eq_some.mp h'
    obtain ⟨-, rfl⟩ := settle_eq_some.mp h'
    have htable := (hc.viewportOnDestroy viewport).2
    refine (viewportOnDestroy_frame viewport).trans (destroyPlain_frame hc htable
      (viewportOnDestroy_renderBuffers c viewport) (senderAllowed_of_requestAllowed hallowed)
      (by simp))
  case writePool =>
    obtain rfl := Option.some.inj h'
    exact .of_tables (fun _ => rfl) rfl fun _ _ hg _ => hg
  case damage | damageBuffer | offset =>
    obtain ⟨-, rfl⟩ := settle_eq_some.mp (guarded_eq_some.mp h').2
    dsimp only [onDamage, onDamageBuffer, onOffset]
    exact updateSurface_frame _ fun _ => rfl
  case setBufferScale | setBufferTransform =>
    obtain ⟨-, rfl⟩ := settle_eq_some.mp (guarded_eq_some.mp h').2
    first | unfold onSetBufferScale | unfold onSetBufferTransform
    split
    · exact .of_tables (fun _ => rfl) rfl fun _ _ hg _ => hg
    · dsimp only
      exact updateSurface_frame _ fun _ => rfl
  case setSource | setDestination =>
    obtain ⟨-, rfl⟩ := settle_eq_some.mp (guarded_eq_some.mp h').2
    exact updateViewport_frame ..
  case deleteId | created | failed | dataOffer | shmGlobalRemoved =>
    simp [requestStep] at h'
  all_goals simp [Message.isAboutBuffers] at hm

theorem eventStep_bufferFrame (hc : Consistent lost c) {m : Message}
    (hconf : hostConforms c m = true) (hm : m.isAboutBuffers = false)
    (h' : eventStep c m = some c') : BufferFrame c c' := by
  cases m
  case deleteId hostId =>
    obtain ⟨-, rfl⟩ := settle_eq_some.mp h'
    exact onDeleteId_frame hc (by simpa [hostConforms] using hconf)
  case created params buffer =>
    rw [eventStep] at h'
    obtain rfl | ⟨-, -, h'⟩ := deliver_eq_some h'
    · exact .refl c'
    · obtain ⟨havail, h'⟩ := guarded_eq_some.mp h'
      simp only [hostConforms, Bool.and_eq_true, Bool.or_eq_true] at hconf
      have hfree : c.shadowTable.hostIdFree buffer = true := (Bool.and_eq_true_iff.mp havail).2
      obtain ⟨p, hp, -⟩ | ⟨g, horph⟩ := hc.answer_cases hconf.2
      · rw [onCreated_awaited hc hfree hp] at h'
        obtain ⟨c₁, h₁, h'⟩ := Option.bind_eq_some_iff.mp h'
        obtain ⟨-, rfl⟩ := settle_eq_some.mp h₁
        exact announceBuffer_frame hc hfree h'
      · rw [onCreated_orphan havail horph] at h'
        obtain ⟨c₁, h₁, h'⟩ := Option.bind_eq_some_iff.mp h'
        obtain ⟨-, rfl⟩ := settle_eq_some.mp h₁
        obtain rfl := Option.some.inj h'
        obtain ⟨version, heq⟩ := destroyOrphanedBuffer_eq hc params hfree
        rw [heq]
        refine BufferFrame.releaseOrphanedParams ?_ params
        exact .of_tables (fun _ => rfl) rfl fun _ _ hg _ => hg
  case failed params =>
    rw [eventStep] at h'
    obtain rfl | ⟨-, -, h'⟩ := deliver_eq_some h'
    · exact .refl c'
    · obtain ⟨-, rfl⟩ := settle_eq_some.mp h'
      unfold onFailed
      split_ifs
      · refine BufferFrame.releaseOrphanedParams ?_ params
        exact .of_tables (fun _ => rfl) rfl fun _ _ hg _ => hg
      · split
        · exact .refl c
        · split_ifs
          · exact .of_tables (fun _ => rfl) rfl fun _ _ hg _ => hg
          · split
            · exact .refl c
            · dsimp only
              split_ifs <;> exact .of_tables (fun _ => rfl) rfl fun _ _ hg _ => hg
  case dataOffer device offer =>
    rw [eventStep] at h'
    obtain rfl | ⟨-, -, h'⟩ := deliver_eq_some h'
    · exact .refl c'
    · obtain ⟨havail, h'⟩ := guarded_eq_some.mp h'
      exact mapAnnouncedId_frame (Bool.and_eq_true_iff.mp havail).2 h'
  case shmGlobalRemoved =>
    obtain rfl := Option.some.inj h'
    exact .of_tables (fun _ => rfl) rfl fun _ _ hg _ => hg
  case release => simp [Message.isAboutBuffers] at hm
  all_goals simp [eventStep] at h'

/-- Only messages about buffers touch the buffers of surfaces and usable render buffers. -/
theorem step_bufferFrame (hc : Consistent lost c) {m : Message}
    (hm : m.isAboutBuffers = false) (h' : step maps c m = some c') : BufferFrame c c' := by
  obtain ⟨hconf, hrequest | ⟨-, hevent⟩⟩ := step_eq_some.mp h'
  · exact requestStep_bufferFrame hc hm hrequest
  · exact eventStep_bufferFrame hc hconf hm hevent

end Sommelier
