import Sommelier.Objects.BufferFrame

/-!
# Messages that are not about surfaces

Most messages leave the surfaces and their viewports alone. The end of a buffer only drops
references to it.

## Main definitions

* `SameSurfaces`: no surface and no viewport changed.
* `Message.isAboutSurfaces`: the messages for which this need not hold.
* `step_sameSurfaces`: it holds for all others.
* `SurfaceState.doubleBuffered`: a surface without the contents it shows.
* `onCommit_doubleBuffered`: what a commit does to the rest of a surface.
-/
namespace Sommelier

variable {maps : DamageMapping} {c c' c'' : Context} {g h s : ℕ}

/-- The step changed no surface and no viewport. -/
structure SameSurfaces (c c' : Context) : Prop where
  surfaces : c'.surfaces = c.surfaces
  viewports : c'.viewportToWlSurface = c.viewportToWlSurface

namespace SameSurfaces

theorem refl (c : Context) : SameSurfaces c c := ⟨rfl, rfl⟩

theorem trans (h₁ : SameSurfaces c c') (h₂ : SameSurfaces c' c'') : SameSurfaces c c'' :=
  ⟨h₂.surfaces.trans h₁.surfaces, h₂.viewports.trans h₁.viewports⟩

theorem surfaceOrDefault (hs : SameSurfaces c c') (s : ℕ) :
    c'.surfaceOrDefault s = c.surfaceOrDefault s := by
  simp [Context.surfaceOrDefault, hs.surfaces]

end SameSurfaces

/-! ## Buffers -/

theorem completeQueuedBufferDestroy_sameSurfaces (c : Context) (g h : ℕ) :
    SameSurfaces c (c.completeQueuedBufferDestroy g h).2 := by
  unfold Context.completeQueuedBufferDestroy
  split_ifs
  · exact .refl c
  · dsimp only
    split_ifs <;> exact ⟨rfl, rfl⟩
  · dsimp only
    split_ifs <;> exact ⟨rfl, rfl⟩

theorem retireBuffer_sameSurfaces (c : Context) (g h : ℕ) :
    SameSurfaces c (retireBuffer c g h) := by
  have hqueue : SameSurfaces c (queueHostBufferDestroy c h) := ⟨rfl, rfl⟩
  refine hqueue.trans ?_
  have hdone := completeQueuedBufferDestroy_sameSurfaces (queueHostBufferDestroy c h) g h
  unfold retireBuffer retireDestroyedBufferMapping
  dsimp only
  split_ifs
  · exact hdone
  · exact ⟨hdone.surfaces, hdone.viewports⟩

theorem retireEligibleBuffers_sameSurfaces (c : Context) :
    SameSurfaces c (retireEligibleBuffers c) := by
  unfold retireEligibleBuffers
  generalize retirementCandidates c = candidates
  induction candidates generalizing c with
  | nil => exact .refl c
  | cons ids candidates ih => exact (retireBuffer_sameSurfaces c ids.1 ids.2).trans (ih _)

theorem onRenderBuffer_sameSurfaces (c : Context) (g : ℕ)
    (f : RenderBufferRegistry BufferState → ℕ → Bool × RenderBufferRegistry BufferState) :
    SameSurfaces c (c.onRenderBuffer g f).2 := by
  unfold Context.onRenderBuffer
  split <;> exact ⟨rfl, rfl⟩

theorem recordHostBufferRelease_sameSurfaces (c : Context) (g : ℕ) :
    SameSurfaces c (recordHostBufferRelease c g) := by
  unfold recordHostBufferRelease
  split
  · exact .refl c
  · exact onRenderBuffer_sameSurfaces ..

/-- The step changed no surface, or dropped the references to one buffer. -/
def DropsReferences (c c' : Context) : Prop :=
  SameSurfaces c c' ∨ ∃ g, SameSurfaces (clearSurfaceBufferReferences c g) c'

theorem bufferOnDestroy_dropsReferences (c : Context) (g : ℕ) :
    DropsReferences c (bufferOnDestroy c g).2 := by
  unfold bufferOnDestroy
  dsimp only
  split_ifs
  · have hmark := onRenderBuffer_sameSurfaces c g RenderBufferRegistry.markGuestDestroyed
    exact .inl ⟨hmark.surfaces, hmark.viewports⟩
  · have hmark := onRenderBuffer_sameSurfaces c g RenderBufferRegistry.markGuestDestroyed
    exact .inl ⟨hmark.surfaces, hmark.viewports⟩
  · refine .inr ⟨g, ?_⟩
    split
    · rename_i h _
      have hretire := retireBuffer_sameSurfaces c g h
      exact ⟨by simp [clearSurfaceBufferReferences, hretire.surfaces], hretire.viewports⟩
    · exact .refl _

theorem bufferOnRelease_dropsReferences (c : Context) (h : ℕ) :
    DropsReferences c (bufferOnRelease c h).2 := by
  unfold bufferOnRelease
  split
  · exact .inl (.refl c)
  · rename_i g _
    have hrelease := recordHostBufferRelease_sameSurfaces c g
    dsimp only
    split_ifs
    · exact .inl hrelease
    · have hretire := hrelease.trans (retireBuffer_sameSurfaces (recordHostBufferRelease c g) g h)
      exact .inr ⟨g, by simp [clearSurfaceBufferReferences, hretire.surfaces], hretire.viewports⟩
    · exact .inl hrelease

/-- The pass queues destructors of buffers and nothing else. -/
theorem retireEligibleBuffers_traffic (c : Context) : ∃ tail,
    (retireEligibleBuffers c).traffic = tail ++ c.traffic ∧
      ∀ m ∈ tail, ∃ h awaiting pending, m = .destroyBuffer h awaiting pending := by
  have hretire : ∀ (c : Context) (g h : ℕ),
      (retireBuffer c g h).traffic = (queueHostBufferDestroy c h).traffic := by
    intro c g h
    unfold retireBuffer retireDestroyedBufferMapping Context.completeQueuedBufferDestroy
    dsimp only
    split_ifs <;> rfl
  unfold retireEligibleBuffers
  generalize retirementCandidates c = candidates
  induction candidates generalizing c with
  | nil => exact ⟨[], rfl, by simp⟩
  | cons ids candidates ih =>
    obtain ⟨tail, htail, hdestroys⟩ := ih (retireBuffer c ids.1 ids.2)
    obtain ⟨m, hm, hqueue⟩ : ∃ m, (∃ h awaiting pending, m = .destroyBuffer h awaiting pending) ∧
        (queueHostBufferDestroy c ids.2).traffic = m :: c.traffic :=
      ⟨_, ⟨_, _, _, rfl⟩, rfl⟩
    refine ⟨tail ++ [m], ?_, List.forall_mem_append.mpr ⟨hdestroys, by simpa using hm⟩⟩
    rw [List.foldl_cons, htail, hretire, hqueue, List.append_assoc, List.singleton_append]

/-! ## Objects -/

theorem mapNewId_sameSurfaces {sender : ℕ} {i : Interface} (h' : mapNewId c sender g i = some c') :
    SameSurfaces c c' := by
  obtain ⟨_, -, heq⟩ := Option.bind_eq_some_iff.mp h'
  exact Option.some.inj heq ▸ ⟨rfl, rfl⟩

theorem mapAnnouncedId_sameSurfaces {sender : ℕ} {i : Interface}
    (h' : mapAnnouncedId c sender h i = some c') : SameSurfaces c c' := by
  obtain ⟨_, -, heq⟩ := Option.bind_eq_some_iff.mp h'
  exact Option.some.inj heq ▸ ⟨rfl, rfl⟩

theorem destroyPlain_sameSurfaces (c : Context) (g : ℕ) : SameSurfaces c (destroyPlain c g) := by
  unfold destroyPlain
  split
  · unfold forwardDestructor
    dsimp only
    split_ifs <;> exact ⟨rfl, rfl⟩
  · unfold queueLocalDeleteId
    split_ifs <;> exact ⟨rfl, rfl⟩

theorem createHostBuffer_sameSurfaces {temporary : Interface} {version : ℕ} {buffer : BufferState}
    (h' : createHostBuffer c g temporary version buffer = some c') : SameSurfaces c c' := by
  obtain ⟨⟨_, t⟩, -, h'⟩ := Option.bind_eq_some_iff.mp h'
  obtain ⟨⟨hostId, t'⟩, -, h'⟩ := Option.bind_eq_some_iff.mp h'
  dsimp only at h'
  split_ifs at h'
  · exact Option.some.inj h' ▸ ⟨rfl, rfl⟩
  · obtain rfl := Option.some.inj h'
    unfold rollbackRegisteredBuffer
    split_ifs <;> exact ⟨rfl, rfl⟩

theorem onCreateBuffer_sameSurfaces {pool : ℕ} {request : BufferRequest} {storage : HostStorage}
    {result : Action × Context} (h₁ : onCreateBuffer c pool g request storage = some result) :
    SameSurfaces c result.2 := by
  have hcreate : ∀ {temporary version buffer},
      (createHostBuffer c g temporary version buffer).map (Action.drop, ·) = some result →
        SameSurfaces c result.2 := by
    intro temporary version buffer hmap
    obtain ⟨c₂, h₂, rfl⟩ := Option.map_eq_some_iff.mp hmap
    exact createHostBuffer_sameSurfaces h₂
  have herror : some (Action.drop, c.queueProtocolError) = some result →
      SameSurfaces c result.2 := by
    intro heq
    exact Option.some.inj heq ▸ ⟨rfl, rfl⟩
  unfold onCreateBuffer at h₁
  split_ifs at h₁
  · exact Option.some.inj h₁ ▸ .refl c
  · split at h₁
    · exact herror h₁
    · dsimp only at h₁
      split_ifs at h₁
      · split at h₁
        · exact herror h₁
        · exact hcreate h₁
        · split at h₁
          · exact herror h₁
          · exact hcreate h₁
      · exact herror h₁

theorem processParams_sameSurfaces (c : Context) (params : ℕ) (duplicated : Bool) :
    SameSurfaces c (processParams c params duplicated).2 := by
  rcases hres : processParams c params duplicated with ⟨sent, c₁⟩
  obtain ⟨⟨pending, used, fatal, rfl⟩, -⟩ := processParams_eq hres
  exact ⟨rfl, rfl⟩

theorem onCreate_sameSurfaces (c : Context) (params : ℕ) (width height : ℤ) (format : ℕ)
    (duplicated : Bool) : SameSurfaces c (onCreate c params width height format duplicated).2 := by
  have hsent := processParams_sameSurfaces c params duplicated
  unfold onCreate
  split_ifs
  · exact ⟨rfl, rfl⟩
  · exact ⟨rfl, rfl⟩
  · split
    · rename_i hres
      rwa [hres] at hsent
    · rename_i hres
      rw [hres] at hsent
      split <;> exact ⟨hsent.surfaces, hsent.viewports⟩

theorem onCreateImmed_sameSurfaces {params buffer : ℕ} {width height : ℤ} {format : ℕ}
    {duplicated : Bool} {result : Action × Context}
    (h₁ : onCreateImmed c params buffer width height format duplicated = some result) :
    SameSurfaces c result.2 := by
  unfold onCreateImmed at h₁
  split_ifs at h₁
  · exact Option.some.inj h₁ ▸ ⟨rfl, rfl⟩
  · exact Option.some.inj h₁ ▸ .refl c
  · exact Option.some.inj h₁ ▸ processParams_sameSurfaces c params duplicated
  · exact Option.some.inj h₁ ▸ ⟨rfl, rfl⟩
  · obtain ⟨⟨hostId, t⟩, -, h₁⟩ := Option.bind_eq_some_iff.mp h₁
    dsimp only at h₁
    split at h₁ <;>
    · rename_i hres
      obtain ⟨⟨pending, used, fatal, rfl⟩, -⟩ := processParams_eq hres
      exact Option.some.inj h₁ ▸ ⟨rfl, rfl⟩

theorem releaseOrphanedParams_sameSurfaces (c : Context) (params : ℕ) :
    SameSurfaces c (releaseOrphanedParams c params) := by
  unfold releaseOrphanedParams
  split_ifs <;> exact ⟨rfl, rfl⟩

theorem onCreated_sameSurfaces (c : Context) (params buffer : ℕ) :
    SameSurfaces c (onCreated c params buffer).2 := by
  have hdone : SameSurfaces c (forgetParams (destroyOrphanedBuffer c params buffer) params) :=
    ⟨rfl, rfl⟩
  unfold onCreated
  split
  · split
    · exact ⟨rfl, rfl⟩
    · exact hdone.trans (releaseOrphanedParams_sameSurfaces _ params)
  · split
    · exact .refl c
    · split
      · split
        · exact ⟨rfl, rfl⟩
        · exact hdone
      · split
        · exact .refl c
        · dsimp only
          split_ifs <;> exact ⟨rfl, rfl⟩

theorem onFailed_sameSurfaces (c : Context) (params : ℕ) :
    SameSurfaces c (onFailed c params).2 := by
  have hdone : SameSurfaces c (forgetParams c params) := ⟨rfl, rfl⟩
  unfold onFailed
  split_ifs
  · exact hdone.trans (releaseOrphanedParams_sameSurfaces _ params)
  · split
    · exact .refl c
    · split_ifs
      · exact hdone
      · split
        · exact .refl c
        · dsimp only
          split_ifs <;> exact ⟨rfl, rfl⟩

theorem onDeleteId_sameSurfaces (c : Context) (hostId : ℕ) :
    SameSurfaces c (onDeleteId c hostId) := by
  unfold onDeleteId
  dsimp only
  split_ifs
  · exact ⟨rfl, rfl⟩
  · split
    · split_ifs <;> exact ⟨rfl, rfl⟩
    · split <;> exact ⟨rfl, rfl⟩

/-! ## The step -/

/-- Requests on surfaces and viewports, and the ends of buffers. -/
def Message.isAboutSurfaces : Message → Bool
  | .attach .. | .damage .. | .damageBuffer .. | .setBufferScale .. | .setBufferTransform ..
  | .offset .. | .commit .. | .destroySurface _ | .getViewport .. | .setSource ..
  | .setDestination .. | .destroyViewport _ | .destroyBuffer _ | .release _ => true
  | _ => false

theorem requestStep_sameSurfaces {m : Message} (hm : m.isAboutSurfaces = false)
    (h' : requestStep maps c m = some c') : SameSurfaces c c' := by
  cases m
  case newObject sender guestId i => exact mapNewId_sameSurfaces (guarded_eq_some.mp h').2
  case newLocalObject guestId i version =>
    exact Option.some.inj (guarded_eq_some.mp h').2 ▸ ⟨rfl, rfl⟩
  case destroyObject guestId i =>
    obtain ⟨-, rfl⟩ := settle_eq_some.mp (guarded_eq_some.mp h').2
    split_ifs
    · have hbooks : SameSurfaces c (poolOnDestroy c guestId).2 := ⟨rfl, rfl⟩
      exact hbooks.trans (destroyPlain_sameSurfaces ..)
    · have hbooks : SameSurfaces c (shmOnRelease c guestId).2 := ⟨rfl, rfl⟩
      exact hbooks.trans (destroyPlain_sameSurfaces ..)
    · exact destroyPlain_sameSurfaces ..
  case createPool shm pool size bytes =>
    obtain ⟨-, rfl⟩ := settle_eq_some.mp (guarded_eq_some.mp h').2
    unfold onCreatePool
    split_ifs
    · exact .refl c
    · exact ⟨rfl, rfl⟩
    · split <;> exact ⟨rfl, rfl⟩
  case createBuffer pool guestId request storage =>
    obtain ⟨result, h₁, hsettle⟩ := Option.bind_eq_some_iff.mp (guarded_eq_some.mp h').2
    obtain ⟨-, rfl⟩ := settle_eq_some.mp hsettle
    exact onCreateBuffer_sameSurfaces h₁
  case createParams factory params =>
    have hbooks : SameSurfaces c (onCreateParams c params).2 := ⟨rfl, rfl⟩
    exact hbooks.trans (mapNewId_sameSurfaces (guarded_eq_some.mp h').2)
  case addPlane params plane duplicated =>
    obtain ⟨-, rfl⟩ := settle_eq_some.mp (guarded_eq_some.mp h').2
    unfold onAdd
    split_ifs <;> exact ⟨rfl, rfl⟩
  case create params width height format duplicated =>
    obtain ⟨-, rfl⟩ := settle_eq_some.mp (guarded_eq_some.mp h').2
    exact onCreate_sameSurfaces ..
  case createImmed params buffer width height format duplicated =>
    obtain ⟨result, h₁, hsettle⟩ := Option.bind_eq_some_iff.mp (guarded_eq_some.mp h').2
    obtain ⟨-, rfl⟩ := settle_eq_some.mp hsettle
    exact onCreateImmed_sameSurfaces h₁
  case destroyParams params =>
    obtain ⟨-, rfl⟩ := settle_eq_some.mp (guarded_eq_some.mp h').2
    obtain ⟨used, pending, creates, orphans, heq⟩ := paramsOnDestroy_eq c params
    rw [heq]
    exact ⟨(destroyPlain_sameSurfaces ..).surfaces, (destroyPlain_sameSurfaces ..).viewports⟩
  case writePool =>
    obtain rfl := Option.some.inj h'
    exact ⟨rfl, rfl⟩
  case deleteId | created | failed | dataOffer | shmGlobalRemoved => simp [requestStep] at h'
  all_goals simp [Message.isAboutSurfaces] at hm

theorem eventStep_sameSurfaces {m : Message} (hm : m.isAboutSurfaces = false)
    (h' : eventStep c m = some c') : SameSurfaces c c' := by
  cases m
  case deleteId hostId =>
    obtain ⟨-, rfl⟩ := settle_eq_some.mp h'
    have hqueue : SameSurfaces c (c.queue (.deleteId hostId)) := ⟨rfl, rfl⟩
    exact hqueue.trans (onDeleteId_sameSurfaces ..)
  case created params buffer =>
    rw [eventStep] at h'
    obtain rfl | ⟨-, -, h'⟩ := deliver_eq_some h'
    · exact .refl c'
    · have hcreated := onCreated_sameSurfaces c params buffer
      generalize onCreated c params buffer = result at hcreated h'
      obtain ⟨c₁, h₁, h'⟩ := Option.bind_eq_some_iff.mp (guarded_eq_some.mp h').2
      obtain ⟨-, rfl⟩ := settle_eq_some.mp h₁
      split_ifs at h'
      · exact hcreated.trans (mapAnnouncedId_sameSurfaces h')
      · exact Option.some.inj h' ▸ hcreated
  case failed params =>
    rw [eventStep] at h'
    obtain rfl | ⟨-, -, h'⟩ := deliver_eq_some h'
    · exact .refl c'
    · obtain ⟨-, rfl⟩ := settle_eq_some.mp h'
      exact onFailed_sameSurfaces ..
  case dataOffer device offer =>
    rw [eventStep] at h'
    obtain rfl | ⟨-, -, h'⟩ := deliver_eq_some h'
    · exact .refl c'
    · exact mapAnnouncedId_sameSurfaces (guarded_eq_some.mp h').2
  case shmGlobalRemoved =>
    obtain rfl := Option.some.inj h'
    exact ⟨rfl, rfl⟩
  all_goals simp [eventStep, Message.isAboutSurfaces] at h' hm

/-- A message about something else changes no surface. -/
theorem step_sameSurfaces {m : Message} (hm : m.isAboutSurfaces = false)
    (h' : step maps c m = some c') : SameSurfaces c c' := by
  obtain ⟨-, hrequest | ⟨-, hevent⟩⟩ := step_eq_some.mp h'
  · exact requestStep_sameSurfaces hm hrequest
  · exact eventStep_sameSurfaces hm hevent

/-! ## Commits and ends of surfaces -/

/-- The surface without the contents it shows and the offsets of its next contents. -/
def SurfaceState.doubleBuffered (x : SurfaceState) : SurfaceState :=
  { x with currentContent := none, pendingOffset := none, pendingAttachOffset := none }

/-- The double-buffered state of a surface, which starts with its first request. -/
def Context.doubleBuffered (c : Context) (surfaceId : ℕ) : SurfaceState :=
  (c.surfaceOrDefault surfaceId).doubleBuffered

theorem SameSurfaces.doubleBuffered (hs : SameSurfaces c c') (t : ℕ) :
    c'.doubleBuffered t = c.doubleBuffered t :=
  congrArg SurfaceState.doubleBuffered (hs.surfaceOrDefault t)

theorem doubleBuffered_of_map {surfaces surfaces' : Table ℕ SurfaceState} {t : ℕ}
    (h' : (surfaces'.get t).map SurfaceState.doubleBuffered =
      (surfaces.get t).map SurfaceState.doubleBuffered) :
    ((surfaces'.get t).getD .new).doubleBuffered = ((surfaces.get t).getD .new).doubleBuffered := by
  cases hx : surfaces.get t <;> cases hy : surfaces'.get t <;> simp_all

theorem doubleBuffered_updateSurface (c : Context) (s t : ℕ) (f : SurfaceState → SurfaceState) :
    (c.updateSurface s f).doubleBuffered t =
      if t = s then (f (c.surfaceOrDefault s)).doubleBuffered else c.doubleBuffered t := by
  simp only [Context.doubleBuffered, Context.surfaceOrDefault, Context.updateSurface,
    Table.get_set]
  split_ifs <;> simp

theorem updateSnapshot_doubleBuffered (c : Context) (s : ℕ) (next : Option ℕ) (t : ℕ) :
    ((updateSnapshot c s next).2.surfaces.get t).map SurfaceState.doubleBuffered =
      (c.surfaces.get t).map SurfaceState.doubleBuffered := by
  unfold updateSnapshot
  cases next with
  | none => rfl
  | some buffer =>
    dsimp only
    split
    · rfl
    · rename_i surface hsurface
      obtain ⟨old, hold, hset⟩ := Option.bind_eq_some_iff.mp hsurface
      refine (congrArg _ (get_setSurface s t surface)).trans ?_
      split_ifs with heq
      · subst heq
        unfold SurfaceState.setCurrentBufferDimensions at hset
        split at hset
        · split_ifs at hset
          obtain rfl := Option.some.inj hset
          simp [hold, SurfaceState.doubleBuffered]
        · simp at hset
      · rfl

theorem finalizeCommit_doubleBuffered (c : Context) (s : ℕ) (commit : SurfaceCommit) (t : ℕ) :
    ((finalizeCommit c s commit).2.surfaces.get t).map SurfaceState.doubleBuffered =
      (c.surfaces.get t).map SurfaceState.doubleBuffered := by
  unfold finalizeCommit
  split
  · rfl
  · rename_i previous next _
    have hsnapshot := updateSnapshot_doubleBuffered c s next t
    dsimp only
    split
    · obtain ⟨r, heq, -⟩ :=
        finalizeSurfaceAttachment_eq (c := (updateSnapshot c s next).2) previous next
      rw [heq]
      exact hsnapshot
    · exact hsnapshot

theorem queue_messages_sameSurfaces (c : Context) (messages : List HostTraffic) :
    SameSurfaces c (messages.foldl Context.queue c) := by
  rw [queue_messages_eq]
  exact ⟨rfl, rfl⟩

theorem Undone.doubleBuffered (hu : Undone c c') (t : ℕ) :
    c'.doubleBuffered t = c.doubleBuffered t := by
  obtain ⟨surfaces, r, fatal, hsame, -, rfl⟩ := hu
  simp [Context.doubleBuffered, Context.surfaceOrDefault, hsame]

/-- A commit that is forwarded applies the pending state of its surface; any other leaves all
surfaces as they were. -/
theorem onCommit_doubleBuffered (maps : DamageMapping) (c : Context) (s : ℕ)
    (env : CommitEnvironment) (t : ℕ) : (onCommit maps c s env).2.doubleBuffered t =
      if (onCommit maps c s env).1 = .forwarded ∧ t = s then
        (c.surfaceOrDefault s).prepareCommit.state.doubleBuffered
      else c.doubleBuffered t := by
  rcases onCommit_cases maps c s env with ⟨hexit, -, c₀, hundone, heq | heq⟩ |
    ⟨hexit, -, messages, c₁, c₂, c₃, -, hcopy, hwait, hfinal, heq⟩ <;> rw [heq]
  · rw [if_neg (by simp [hexit]), hundone.doubleBuffered]
  · rw [if_neg (by simp [hexit]), (retireEligibleBuffers_sameSurfaces c₀).doubleBuffered,
      hundone.doubleBuffered]
  · obtain ⟨r, rfl, -⟩ := copied_eq hcopy hwait
    have hqueued := queue_messages_sameSurfaces c₃ messages
    have hstate := finalizeCommit_doubleBuffered
      { c.setSurface s (c.surfaceOrDefault s).prepareCommit.state with renderBuffers := r } s
      (c.surfaceOrDefault s).prepareCommit t
    rw [hfinal] at hstate
    rw [(retireEligibleBuffers_sameSurfaces _).doubleBuffered, hqueued.doubleBuffered]
    refine (doubleBuffered_of_map hstate).trans ?_
    dsimp only
    rw [get_setSurface]
    split_ifs with h₁ h₂ h₃
    · cases hx : c.surfaces.get t
      · simp [← h₁, Context.surfaceOrDefault, hx]
        rfl
      · simp
    · exact absurd ⟨hexit, h₁⟩ h₂
    · exact absurd h₃.2 h₁
    · rfl

/-- A destroyed surface has no state, and the others keep theirs. -/
theorem surfaceOnDestroy_surfaces (h' : (surfaceOnDestroy c s).2.fatalProtocolError = false) :
    (surfaceOnDestroy c s).2.surfaces = c.surfaces.erase s ∧
      (surfaceOnDestroy c s).2.viewportToWlSurface =
        c.viewportToWlSurface.retain fun _ owner => owner != s := by
  unfold surfaceOnDestroy at h' ⊢
  cases hhost : c.shadowTable.getHostId s with
  | none => simp [hhost] at h'
  | some hostId =>
    dsimp only
    have hcleared : SameSurfaces { c.queue (.destroy hostId) with surfaces := c.surfaces.erase s }
        (clearBufferUsesAfterSurfaceDestroy
          { c.queue (.destroy hostId) with surfaces := c.surfaces.erase s }
          ((c.surfaces.get s).bind SurfaceState.currentBufferId)) := by
      obtain ⟨r, fatal, heq, -⟩ := clearBufferUsesAfterSurfaceDestroy_eq
        { c.queue (.destroy hostId) with surfaces := c.surfaces.erase s }
        ((c.surfaces.get s).bind SurfaceState.currentBufferId)
      rw [heq]
      exact ⟨rfl, rfl⟩
    have hretired := hcleared.trans (retireEligibleBuffers_sameSurfaces _)
    exact ⟨hretired.surfaces, congrArg (Table.retain · _) hretired.viewports⟩

/-! ## Requests on surfaces -/

/-- Change the crop and scale pending for the next commit. -/
def SurfaceState.updateViewport (f : ViewportState → ViewportState) (x : SurfaceState) :
    SurfaceState :=
  let viewport := ((x.pendingViewport.bind id).or x.viewport).getD .new
  { x with pendingViewport := some (some (f viewport)) }

/-- The surface a message is about, and what it does to the double-buffered state. -/
def Message.surfaceUpdate (maps : DamageMapping) (c : Context) :
    Message → Option (ℕ × (SurfaceState → SurfaceState))
  | .attach surface buffer _ _ => some (surface, fun x =>
      { x with pendingAttachment := if buffer = 0 then .detach else .attach buffer })
  | .damage surface rect => some (surface, fun x =>
      { x with pendingSurfaceDamage := x.pendingSurfaceDamage.push rect })
  | .damageBuffer surface rect => some (surface, fun x =>
      { x with pendingBufferDamage := x.pendingBufferDamage.push rect })
  | .setBufferScale surface scale => some (surface, fun x =>
      { x with pendingBufferScale := some scale })
  | .setBufferTransform surface transform => some (surface, fun x =>
      { x with pendingBufferTransform := some transform })
  | .commit surface env =>
    if (onCommit maps c surface env).1 = .forwarded then
      some (surface, fun x => x.prepareCommit.state)
    else none
  | .destroySurface surface => some (surface, fun _ => .new)
  | .getViewport _ _ surface => some (surface, fun x =>
      { x with pendingViewport := some (some .new) })
  | .setSource viewport x y width height =>
    (c.viewportToWlSurface.get viewport).map fun surface =>
      (surface, SurfaceState.updateViewport fun state =>
        { state with
          source := if (x, y, width, height) = (-256, -256, -256, -256) then none
            else some (x, y, width, height) })
  | .setDestination viewport width height =>
    (c.viewportToWlSurface.get viewport).map fun surface =>
      (surface, SurfaceState.updateViewport fun state =>
        { state with
          destination := if width = -1 ∧ height = -1 then none else some (width, height) })
  | .destroyViewport viewport =>
    ((c.viewportToWlSurface.get viewport).filter fun surface =>
      (c.surfaces.get surface).isSome).map fun surface => (surface, fun x =>
        { x with pendingViewport := some none })
  | _ => none

/-- The state of a surface after an update of another or of this one. -/
def Context.updated (c : Context) (update : Option (ℕ × (SurfaceState → SurfaceState)))
    (t : ℕ) : SurfaceState :=
  match update with
  | some (s, f) => if t = s then (f (c.surfaceOrDefault s)).doubleBuffered else c.doubleBuffered t
  | none => c.doubleBuffered t

theorem clearCurrentBufferReference_doubleBuffered (x : SurfaceState) (buffer : ℕ) :
    (x.clearCurrentBufferReference buffer).doubleBuffered = x.doubleBuffered := by
  unfold SurfaceState.clearCurrentBufferReference
  split
  · split_ifs <;> rfl
  · rfl

theorem withAttachment_sameSurfaces (c : Context) (s buffer : ℕ) (offset : Option (ℤ × ℤ)) :
    SameSurfaces (c.updateSurface s (.attach buffer offset))
      (c.withAttachment s buffer offset) := by
  rcases c.withAttachment_cases s buffer offset with heq | ⟨h, b, heq⟩ <;> rw [heq] <;>
    exact ⟨rfl, rfl⟩

theorem updateViewport_doubleBuffered {viewport : ℕ} {valid : Bool}
    {f : ViewportState → ViewportState}
    (h' : (updateViewport c viewport valid f).2.fatalProtocolError = false) (t : ℕ) :
    (updateViewport c viewport valid f).2.doubleBuffered t =
      c.updated ((c.viewportToWlSurface.get viewport).map (·, SurfaceState.updateViewport f))
        t := by
  unfold updateViewport at h' ⊢
  cases howner : c.viewportToWlSurface.get viewport with
  | none => simp [howner, Context.queueProtocolError] at h'
  | some surface =>
    simp only [howner] at h' ⊢
    split_ifs at h' ⊢
    · simp [Context.queueProtocolError] at h'
    · exact doubleBuffered_updateSurface ..

/-- What one message does to the double-buffered state of all surfaces, unless it ends a
buffer. -/
theorem step_updated {m : Message} (hm : ∀ g, m ≠ .destroyBuffer g ∧ m ≠ .release g)
    (h' : step maps c m = some c') (t : ℕ) :
    c'.doubleBuffered t = c.updated (m.surfaceUpdate maps c) t := by
  by_cases habout : m.isAboutSurfaces = false
  · rw [(step_sameSurfaces habout h').doubleBuffered]
    cases m <;> simp_all [Message.isAboutSurfaces, Message.surfaceUpdate, Context.updated]
  replace h' := (step_eq_some.mp h').2
  rcases h' with h' | ⟨-, h'⟩
  swap
  · cases m <;> simp_all [eventStep, Message.isAboutSurfaces]
  cases m
  case attach surface buffer x y =>
    obtain ⟨-, -, offset, rfl⟩ := attach_eq_some h'
    rw [(retireEligibleBuffers_sameSurfaces _).doubleBuffered,
      (withAttachment_sameSurfaces ..).doubleBuffered, doubleBuffered_updateSurface]
    rfl
  case damage | damageBuffer =>
    obtain ⟨-, rfl⟩ := settle_eq_some.mp (guarded_eq_some.mp h').2
    exact doubleBuffered_updateSurface ..
  case setBufferScale surface scale =>
    have h' := (guarded_eq_some.mp h').2
    unfold onSetBufferScale at h'
    split_ifs at h'
    · simp at h'
    · obtain ⟨-, rfl⟩ := settle_eq_some.mp h'
      exact doubleBuffered_updateSurface ..
  case setBufferTransform surface transform =>
    have h' := (guarded_eq_some.mp h').2
    unfold onSetBufferTransform at h'
    split_ifs at h'
    · simp at h'
    · obtain ⟨-, rfl⟩ := settle_eq_some.mp h'
      exact doubleBuffered_updateSurface ..
  case offset surface x y =>
    obtain ⟨-, rfl⟩ := settle_eq_some.mp (guarded_eq_some.mp h').2
    refine (doubleBuffered_updateSurface ..).trans ?_
    split_ifs with heq
    · rw [heq]
      rfl
    · rfl
  case commit surface env =>
    obtain ⟨-, rfl⟩ := settle_eq_some.mp (guarded_eq_some.mp h').2
    rw [onCommit_doubleBuffered, Message.surfaceUpdate]
    by_cases hexit : (onCommit maps c surface env).1 = .forwarded <;>
      simp [hexit, Context.updated]
  case destroySurface surface =>
    obtain ⟨hsafe, rfl⟩ := settle_eq_some.mp (guarded_eq_some.mp h').2
    simp only [Context.doubleBuffered, Context.surfaceOrDefault,
      (surfaceOnDestroy_surfaces hsafe).1, Table.get_erase, Message.surfaceUpdate, Context.updated]
    split_ifs <;> rfl
  case getViewport viewporter viewport surface =>
    obtain ⟨c₁, h₁, h'⟩ := Option.bind_eq_some_iff.mp (guarded_eq_some.mp h').2
    rw [(mapNewId_sameSurfaces h').doubleBuffered]
    unfold onGetViewport at h₁
    split_ifs at h₁
    · simp at h₁
    · obtain ⟨-, rfl⟩ := settle_eq_some.mp h₁
      exact doubleBuffered_updateSurface ..
  case setSource viewport x y width height =>
    obtain ⟨hsafe, rfl⟩ := settle_eq_some.mp (guarded_eq_some.mp h').2
    simpa [Message.surfaceUpdate, onSetSource] using updateViewport_doubleBuffered hsafe t
  case setDestination viewport width height =>
    obtain ⟨hsafe, rfl⟩ := settle_eq_some.mp (guarded_eq_some.mp h').2
    simpa [Message.surfaceUpdate, onSetDestination] using updateViewport_doubleBuffered hsafe t
  case destroyViewport viewport =>
    obtain ⟨-, rfl⟩ := settle_eq_some.mp (guarded_eq_some.mp h').2
    rw [(destroyPlain_sameSurfaces _ viewport).doubleBuffered]
    unfold viewportOnDestroy
    cases howner : c.viewportToWlSurface.get viewport with
    | none => simp [Message.surfaceUpdate, howner, Context.updated]
    | some surface =>
      simp only [Context.doubleBuffered, Context.surfaceOrDefault, Table.get_modify,
        Message.surfaceUpdate, howner, Context.updated]
      cases hstate : c.surfaces.get surface with
      | none =>
        have hnone : (some surface).filter (fun s => (c.surfaces.get s).isSome) = none := by
          simp [Option.filter, hstate]
        rw [hnone, Option.map_none]
        split_ifs with heq
        · rw [heq, hstate]
          rfl
        · rfl
      | some x =>
        have hsome : (some surface).filter (fun s => (c.surfaces.get s).isSome) =
            some surface := by
          simp [Option.filter, hstate]
        rw [hsome, Option.map_some]
        dsimp only
        split_ifs with heq
        · rw [heq, hstate]
          rfl
        · rfl
  all_goals simp_all [Message.isAboutSurfaces]

end Sommelier
