import Sommelier.Objects.LiveObjects

/-!
# Live parameters

Messages that are not about dma-buf parameters neither create nor end a parameters object, and
they leave alone what the proxy collected for it.

## Main definitions

* `Message.isAboutParams`: the messages about parameters.
* `SparesParams`: the step left the parameters alone.
* `step_sparesParams`: the messages for which this holds.
-/
namespace Sommelier

variable {maps : DamageMapping} {lost : Set ℕ} {c c' c'' : Context} {g h : ℕ} {i : Interface}

/-- The host ID of parameters that the guest may name. -/
abbrev Context.liveParams (c : Context) (params : ℕ) : Option ℕ :=
  c.shadowTable.liveHost .zwpLinuxBufferParamsV1 params

/-- The step left the live parameters alone and the planes collected for them; it waits for no
other creations than before. -/
structure SparesParams (c c' : Context) : Prop where
  live : ∀ g, c'.liveParams g = c.liveParams g
  pending : c'.pendingParams = c.pendingParams
  used : c'.usedDmabufParams = c.usedDmabufParams
  creates : ∀ h, c'.pendingNativeCreates.get h ≠ none → c.pendingNativeCreates.get h ≠ none

namespace SparesParams

theorem refl (c : Context) : SparesParams c c := ⟨fun _ => rfl, rfl, rfl, fun _ => id⟩

theorem trans (h₁ : SparesParams c c') (h₂ : SparesParams c' c'') : SparesParams c c'' :=
  ⟨fun g => (h₂.live g).trans (h₁.live g), h₂.pending.trans h₁.pending, h₂.used.trans h₁.used,
    fun h hh => h₁.creates h (h₂.creates h hh)⟩

/-- Steps that change one guest object, which is no live parameters object. -/
theorem of_sameBut (hsame : ShadowTable.SameBut g c.shadowTable c'.shadowTable)
    (hold : c.liveParams g = none) (hnew : c'.liveParams g = none)
    (hpending : c'.pendingParams = c.pendingParams)
    (hused : c'.usedDmabufParams = c.usedDmabufParams)
    (hcreates : ∀ h, c'.pendingNativeCreates.get h ≠ none → c.pendingNativeCreates.get h ≠ none) :
    SparesParams c c' := by
  refine ⟨fun g' => ?_, hpending, hused, hcreates⟩
  by_cases heq : g' = g
  · rw [heq, hold, hnew]
  · exact hsame.liveHost heq

/-- Steps that change no guest object. -/
theorem of_eq (hinterfaces : c'.shadowTable.interfaces = c.shadowTable.interfaces)
    (hmarks : c'.shadowTable.pendingDestroyGuestIds = c.shadowTable.pendingDestroyGuestIds)
    (hmapped : c'.shadowTable.guestToHost = c.shadowTable.guestToHost)
    (hpending : c'.pendingParams = c.pendingParams)
    (hused : c'.usedDmabufParams = c.usedDmabufParams)
    (hcreates : ∀ h, c'.pendingNativeCreates.get h ≠ none → c.pendingNativeCreates.get h ≠ none) :
    SparesParams c c' := by
  refine ⟨fun g => ?_, hpending, hused, hcreates⟩
  simp only [Context.liveParams, ShadowTable.liveHost, hinterfaces, hmarks, hmapped]

end SparesParams

theorem liveParams_other (hi : c.shadowTable.interfaces.get g = some i)
    (hother : i ≠ .zwpLinuxBufferParamsV1) : c.liveParams g = none := by
  rw [Context.liveParams, ShadowTable.liveHost, if_neg]
  rintro ⟨hparams, -⟩
  exact hother (Option.some.inj (hi.symm.trans hparams))

/-! ## New objects -/

theorem mapNewId_sparesParams (hc : Consistent lost c) {sender : ℕ}
    (hi : i ≠ .zwpLinuxBufferParamsV1) (havail : c.shadowTable.isGuestIdAvailable g = true)
    (h' : mapNewId c sender g i = some c') : SparesParams c c' := by
  obtain ⟨-, -, hg, -⟩ := ShadowTable.isGuestIdAvailable_iff.mp havail
  obtain ⟨hostId, -, -, -, hsame, hlive⟩ := mapNewId_live hc havail h'
  obtain ⟨⟨_, t⟩, -, heq⟩ := Option.bind_eq_some_iff.mp h'
  obtain rfl := Option.some.inj heq
  exact .of_sameBut hsame (liveHost_unmapped hg) ((hlive _).trans (if_neg hi.symm)) rfl rfl
    fun _ => id

theorem mapAnnouncedId_sparesParams {sender : ℕ} (hi : i ≠ .zwpLinuxBufferParamsV1)
    (havail : c.shadowTable.isHostIdAvailable h = true)
    (h' : mapAnnouncedId c sender h i = some c') : SparesParams c c' := by
  obtain ⟨⟨guestId, t⟩, halloc, heq⟩ := Option.bind_eq_some_iff.mp h'
  obtain ⟨-, hg, -, n, rfl⟩ := ShadowTable.allocateGuestServerId_eq_some halloc
  obtain rfl := Option.some.inj heq
  have hh := (ShadowTable.hostIdFree_iff.mp (Bool.and_eq_true_iff.mp havail).2).1
  refine .of_sameBut (g := guestId) (ShadowTable.registerObject_sameBut hg hh)
    (liveHost_unmapped hg) (liveParams_other (i := i) ?_ hi) rfl rfl fun _ => id
  dsimp only [Context.queue]
  rw [ShadowTable.registerObject_fresh (by exact hg) (by exact hh)]
  simp

theorem createHostBuffer_sparesParams (hc : Consistent lost c) {temporary : Interface}
    {version : ℕ} {buffer : BufferState} (hg : c.shadowTable.guestToHost.get g = none)
    (h' : createHostBuffer c g temporary version buffer = some c') : SparesParams c c' := by
  obtain ⟨temporaryId, hostId, n, -, -, -, -, rfl⟩ := createHostBuffer_eq_some hc hg h'
  exact .of_sameBut (g := g) (fun g' hne => by simp [hne]) (liveHost_unmapped hg)
    (liveParams_other (i := .wlBuffer) (by simp) (by simp)) rfl rfl fun _ => id

theorem onCreateBuffer_sparesParams (hc : Consistent lost c) {pool : ℕ} {request : BufferRequest}
    {storage : HostStorage} {result : Action × Context}
    (havail : c.shadowTable.isGuestIdAvailable g = true)
    (h₁ : onCreateBuffer c pool g request storage = some result) : SparesParams c result.2 := by
  obtain ⟨-, -, hg, -⟩ := ShadowTable.isGuestIdAvailable_iff.mp havail
  have hcreate : ∀ {temporary version buffer},
      (createHostBuffer c g temporary version buffer).map (Action.drop, ·) = some result →
        SparesParams c result.2 := by
    intro temporary version buffer hmap
    obtain ⟨c₂, h₂, rfl⟩ := Option.map_eq_some_iff.mp hmap
    exact createHostBuffer_sparesParams hc hg h₂
  have herror : some (Action.drop, c.queueProtocolError) = some result →
      SparesParams c result.2 := by
    intro heq
    exact Option.some.inj heq ▸ .of_eq rfl rfl rfl rfl rfl fun _ => id
  unfold onCreateBuffer at h₁
  split_ifs at h₁
  · exact Option.some.inj h₁ ▸ .refl c
  · split at h₁
    · exact herror h₁
    · dsimp only at h₁
      split_ifs at h₁
      · split at h₁
        · exact herror h₁
        · exact hcreate h₁
        · split at h₁
          · exact herror h₁
          · exact hcreate h₁
      · exact herror h₁

/-! ## Destructors -/

theorem destroyPlain_eq (c : Context) (g : ℕ) :
    ∃ t traffic, destroyPlain c g = { c with shadowTable := t, traffic } := by
  unfold destroyPlain
  split
  · unfold forwardDestructor
    dsimp only
    split_ifs <;> exact ⟨_, _, rfl⟩
  · unfold queueLocalDeleteId
    split_ifs <;> exact ⟨_, _, rfl⟩

theorem destroyPlain_sparesParams (hi : c.shadowTable.interfaces.get g = some i)
    (hother : i ≠ .zwpLinuxBufferParamsV1) : SparesParams c (destroyPlain c g) := by
  obtain ⟨hsame, hnone, -, -⟩ := destroyPlain_live c g
  obtain ⟨t, traffic, heq⟩ := destroyPlain_eq c g
  have hnone := hnone .zwpLinuxBufferParamsV1
  rw [heq] at hsame hnone ⊢
  exact .of_sameBut hsame (liveParams_other hi hother) hnone rfl rfl fun _ => id

/-- An acknowledgement concerns no live object. -/
theorem onDeleteId_sparesParams (hc : Consistent lost c)
    (hconf : c.hostLifetime h = some .destroyed) :
    SparesParams c (onDeleteId (c.queue (.deleteId h)) h) := by
  have hended : ∀ g, c.shadowTable.hostToGuest.get h = some g → c.liveParams g = none := by
    intro g hmap
    rw [Context.liveParams, ShadowTable.liveHost, if_neg]
    rintro ⟨-, hlive⟩
    have hlife := hc.live g h ((hc.paired g h).mpr hmap) (.inl hlive)
    rw [hconf, livePhase] at hlife
    split_ifs at hlife <;> simp at hlife
  unfold onDeleteId ShadowTable.consumeHostDeleteId
  dsimp only [Context.queue]
  split_ifs
  · exact .of_eq rfl rfl rfl rfl rfl fun _ => id
  · cases horph : c.orphanedDmabufParams.get h with
    | some g =>
      dsimp only
      split_ifs with hown
      · have hmap : c.shadowTable.hostToGuest.get h = some g := by
          rw [Bool.and_eq_true] at hown
          exact of_decide_eq_true hown.1
        refine .of_sameBut (g := g) (ShadowTable.removeGuestMapping_sameBut _ g) (hended g hmap)
          (liveHost_unmapped ?_) rfl rfl fun _ => id
        exact (ShadowTable.removeGuestMapping_guestToHost _ g g).trans (if_pos rfl)
      · exact .of_eq rfl rfl rfl rfl rfl fun _ => id
    | none =>
      dsimp only [ShadowTable.getGuestId]
      cases hmap : c.shadowTable.hostToGuest.get h with
      | none => exact .of_eq rfl rfl rfl rfl rfl fun _ => id
      | some g =>
        refine .of_sameBut (g := g) (ShadowTable.removeId_sameBut _ g) (hended g hmap)
          (ShadowTable.removeId_liveHost _ g) rfl rfl fun h' => ?_
        dsimp only
        rw [Table.get_erase]
        split_ifs <;> simp

/-! ## Buffers -/

theorem retireBuffer_sparesParams (hi : c.shadowTable.interfaces.get g ≠
    some .zwpLinuxBufferParamsV1) (h : ℕ) : SparesParams c (retireBuffer c g h) := by
  obtain ⟨hsame, hself, -⟩ := retireBuffer_live c g h
  have hself : (retireBuffer c g h).liveParams g = none := by
    rw [Context.liveParams, ShadowTable.liveHost, if_neg]
    rintro ⟨hparams, -⟩
    rcases hself with hsame | hnone
    · exact hi (hsame ▸ hparams)
    · simp [hnone] at hparams
  have hold : c.liveParams g = none := by
    rw [Context.liveParams, ShadowTable.liveHost, if_neg fun hg => hi hg.1]
  have hbooks : (retireBuffer c g h).pendingParams = c.pendingParams ∧
      (retireBuffer c g h).usedDmabufParams = c.usedDmabufParams ∧
      (retireBuffer c g h).pendingNativeCreates = c.pendingNativeCreates := by
    unfold retireBuffer retireDestroyedBufferMapping Context.completeQueuedBufferDestroy
    dsimp only
    split_ifs <;> exact ⟨rfl, rfl, rfl⟩
  obtain ⟨hpending, hused, hcreates⟩ := hbooks
  exact .of_sameBut hsame hold hself hpending hused fun h' hh => hcreates ▸ hh

theorem retireBuffers_sparesParams {ids : List (ℕ × ℕ)}
    (hids : ∀ p ∈ ids, c.shadowTable.interfaces.get p.1 ≠ some .zwpLinuxBufferParamsV1) :
    SparesParams c (ids.foldl (fun c p => retireBuffer c p.1 p.2) c) := by
  induction ids generalizing c with
  | nil => exact .refl c
  | cons p ids ih =>
    obtain ⟨hp, hids⟩ := List.forall_mem_cons.mp hids
    refine (retireBuffer_sparesParams hp p.2).trans (ih fun q hq hparams => ?_)
    obtain ⟨hsame, hself, -⟩ := retireBuffer_live c p.1 p.2
    by_cases heq : q.1 = p.1
    · rw [heq] at hparams
      rcases hself with hself | hself
      · exact hp (hself ▸ hparams)
      · simp [hself] at hparams
    · exact hids q hq ((hsame q.1 heq).1 ▸ hparams)

theorem retireEligibleBuffers_sparesParams (hc : Consistent lost c) :
    SparesParams c (retireEligibleBuffers c) := by
  refine retireBuffers_sparesParams ?_
  rintro ⟨g, h⟩ hmem
  obtain ⟨hg, hphase, -⟩ := (mem_retirementCandidates hc).mp hmem
  simp [(hc.deferred g h hg hphase).2.1]

theorem bufferOnDestroy_sparesParams (hc : Consistent lost c)
    (hallowed : c.senderAllowed g .wlBuffer = true) :
    SparesParams c (bufferOnDestroy c g).2 := by
  have hi := (senderAllowed_iff.mp hallowed).1
  obtain ⟨h, buffer, hg, he, ⟨-, -, heq⟩ | ⟨-, -, heq⟩⟩ := bufferOnDestroy_cases hc hallowed <;>
    rw [heq]
  · have hsame := ShadowTable.retireGuestObject_sameBut c.shadowTable g
    refine .of_sameBut hsame (liveParams_other hi (by simp)) ?_ rfl rfl fun _ => id
    rw [Context.liveParams, ShadowTable.liveHost, if_neg]
    rintro ⟨hparams, -⟩
    obtain ⟨hostInterfaces, hostVersions, -, hretire⟩ := ShadowTable.retireGuestObject_get hg hi
    simp [hretire] at hparams
  · have hretire : SparesParams c (retireBuffer c g h) := retireBuffer_sparesParams (by simp [hi]) h
    exact hretire.trans (.of_eq rfl rfl rfl rfl rfl fun _ => id)

theorem bufferOnRelease_sparesParams (hc : Consistent lost c) (h : ℕ) :
    SparesParams c (bufferOnRelease c h).2 := by
  obtain heq | ⟨g, hg, ⟨-, heq⟩ | ⟨hdestroyed, -, heq⟩⟩ := bufferOnRelease_cases hc h <;> rw [heq]
  · exact .refl c
  · exact .of_eq rfl rfl rfl rfl rfl fun _ => id
  · have hrelease : SparesParams c { c with
        renderBuffers := (c.renderBuffers.release h).2 } :=
      .of_eq rfl rfl rfl rfl rfl fun _ => id
    refine (hrelease.trans (retireBuffer_sparesParams ?_ h)).trans
      (.of_eq rfl rfl rfl rfl rfl fun _ => id)
    simp [(hc.deferred g h hg hdestroyed).2.1]

/-! ## Surfaces -/

theorem onCommit_sparesParams (hc : Consistent lost c) (maps : DamageMapping) (surface : ℕ)
    (env : CommitEnvironment) : SparesParams c (onCommit maps c surface env).2 := by
  rcases onCommit_cases maps c surface env with ⟨-, -, c₀, hundone, heq | heq⟩ |
    ⟨-, -, messages, c₁, c₂, c₃, hbuild, hcopy, hwait, hfinal, heq⟩ <;> rw [heq]
  · obtain ⟨surfaces, r, fatal, -, -, rfl⟩ := hundone
    exact .of_eq rfl rfl rfl rfl rfl fun _ => id
  · have hundo := hundone.consistent hc
    obtain ⟨surfaces, r, fatal, -, -, rfl⟩ := hundone
    have hbooks : SparesParams c { c with
        surfaces, renderBuffers := r, fatalProtocolError := fatal } :=
      .of_eq rfl rfl rfl rfl rfl fun _ => id
    exact hbooks.trans (retireEligibleBuffers_sparesParams hundo)
  · obtain ⟨surfaces, r, rfl, hphase, hbuffers⟩ := forwarded_eq hcopy hwait hfinal
    have hquiet := buildSurfaceCommitMessages_quiet hbuild
    refine .trans ?_ (retireEligibleBuffers_sparesParams
      ((hc.forwarded hphase hbuffers).queue_messages hquiet))
    rw [queue_messages_eq]
    exact .of_eq rfl rfl rfl rfl rfl fun _ => id

theorem surfaceOnDestroy_sparesParams (hc : Consistent lost c)
    (hallowed : c.senderAllowed g .wlSurface = true) :
    SparesParams c (surfaceOnDestroy c g).2 := by
  have hi := (senderAllowed_iff.mp hallowed).1
  obtain ⟨h, r, fatal, c₁, -, -, -, hc₁, -, hmarked, heq⟩ := surfaceOnDestroy_eq hc hallowed
  rw [heq]
  have hmark : SparesParams c (c₁.awaitDeleteId g) := by
    subst hc₁
    refine .of_sameBut (g := g) (fun g' hne => ?_) (liveParams_other hi (by simp)) ?_ rfl rfl
      fun _ => id
    · simp [Context.awaitDeleteId, Context.queue, hne]
    · simp [Context.liveParams, ShadowTable.liveHost, Context.awaitDeleteId]
  exact (hmark.trans (retireEligibleBuffers_sparesParams hmarked)).trans
    (.of_eq rfl rfl rfl rfl rfl fun _ => id)

theorem attach_sparesParams (hc : Consistent lost c) {surface buffer : ℕ} {x y : ℤ}
    (h' : requestStep maps c (.attach surface buffer x y) = some c') : SparesParams c c' := by
  obtain ⟨-, hbuffer, offset, rfl⟩ := attach_eq_some h'
  refine SparesParams.trans ?_
    (retireEligibleBuffers_sparesParams (hc.withAttachment hbuffer offset))
  rcases c.withAttachment_cases surface buffer offset with heq | ⟨h, b, heq⟩ <;> rw [heq] <;>
    exact .of_eq rfl rfl rfl rfl rfl fun _ => id

/-! ## The step -/

/-- Requests and answers about dma-buf parameters. -/
def Message.isAboutParams : Message → Bool
  | .createParams .. | .addPlane .. | .create .. | .createImmed .. | .destroyParams _ | .created ..
  | .failed _ => true
  | _ => false

theorem requestStep_sparesParams (hc : Consistent lost c) {m : Message}
    (hm : m.isAboutParams = false) (h' : requestStep maps c m = some c') : SparesParams c c' := by
  cases m
  case newObject sender guestId i =>
    obtain ⟨hallowed, h'⟩ := guarded_eq_some.mp h'
    simp only [Bool.and_eq_true] at hallowed
    refine mapNewId_sparesParams hc ?_ hallowed.2 h'
    rintro rfl
    simp [Interface.isPlain] at hallowed
  case newLocalObject guestId i version =>
    obtain ⟨hallowed, h'⟩ := guarded_eq_some.mp h'
    simp only [Bool.and_eq_true] at hallowed
    obtain rfl := Option.some.inj h'
    obtain ⟨-, -, hg, -⟩ := ShadowTable.isGuestIdAvailable_iff.mp hallowed.2
    exact .of_sameBut (g := guestId)
      (fun g' hne => by simp [ShadowTable.trackInterfaceWithVersion, hne])
      (liveHost_unmapped hg) (liveHost_unmapped hg) rfl rfl fun _ => id
  case destroyObject guestId i =>
    obtain ⟨hallowed, h'⟩ := guarded_eq_some.mp h'
    simp only [Bool.and_eq_true] at hallowed
    obtain ⟨-, rfl⟩ := settle_eq_some.mp h'
    have hi := (senderAllowed_iff.mp (senderAllowed_of_requestAllowed hallowed.2)).1
    have hother : i ≠ .zwpLinuxBufferParamsV1 := by
      rintro rfl
      simp [Interface.isPlain, Interface.isLocalOnly] at hallowed
    split_ifs
    · have hbooks : SparesParams c (poolOnDestroy c guestId).2 :=
        .of_eq rfl rfl rfl rfl rfl fun _ => id
      exact hbooks.trans (destroyPlain_sparesParams hi hother)
    · have hbooks : SparesParams c (shmOnRelease c guestId).2 :=
        .of_eq rfl rfl rfl rfl rfl fun _ => id
      exact hbooks.trans (destroyPlain_sparesParams hi hother)
    · exact destroyPlain_sparesParams hi hother
  case createPool shm pool size bytes =>
    obtain ⟨hallowed, h'⟩ := guarded_eq_some.mp h'
    simp only [Bool.and_eq_true] at hallowed
    obtain ⟨-, rfl⟩ := settle_eq_some.mp h'
    obtain ⟨-, -, hg, -⟩ := ShadowTable.isGuestIdAvailable_iff.mp hallowed.2
    unfold onCreatePool
    split_ifs
    · exact .refl c
    · exact .of_eq rfl rfl rfl rfl rfl fun _ => id
    · split
      · exact .of_eq rfl rfl rfl rfl rfl fun _ => id
      · exact .of_sameBut (g := pool)
          (fun g' hne => by simp [ShadowTable.trackInterfaceWithVersion, hne])
          (liveHost_unmapped hg) (liveHost_unmapped hg) rfl rfl fun _ => id
  case createBuffer pool guestId request storage =>
    obtain ⟨hallowed, h'⟩ := guarded_eq_some.mp h'
    simp only [Bool.and_eq_true] at hallowed
    obtain ⟨result, h₁, hsettle⟩ := Option.bind_eq_some_iff.mp h'
    obtain ⟨-, rfl⟩ := settle_eq_some.mp hsettle
    exact onCreateBuffer_sparesParams hc hallowed.2 h₁
  case destroyBuffer guestId =>
    obtain ⟨hallowed, h'⟩ := guarded_eq_some.mp h'
    obtain ⟨-, rfl⟩ := settle_eq_some.mp h'
    exact bufferOnDestroy_sparesParams hc (senderAllowed_of_requestAllowed hallowed)
  case attach surface buffer x y => exact attach_sparesParams hc h'
  case damage | damageBuffer | offset =>
    obtain ⟨-, rfl⟩ := settle_eq_some.mp (guarded_eq_some.mp h').2
    exact .of_eq rfl rfl rfl rfl rfl fun _ => id
  case setBufferScale | setBufferTransform =>
    obtain ⟨-, rfl⟩ := settle_eq_some.mp (guarded_eq_some.mp h').2
    first | unfold onSetBufferScale | unfold onSetBufferTransform
    split <;> exact .of_eq rfl rfl rfl rfl rfl fun _ => id
  case commit surface env =>
    obtain ⟨-, rfl⟩ := settle_eq_some.mp (guarded_eq_some.mp h').2
    exact onCommit_sparesParams hc maps surface env
  case destroySurface surface =>
    obtain ⟨hallowed, h'⟩ := guarded_eq_some.mp h'
    obtain ⟨-, rfl⟩ := settle_eq_some.mp h'
    exact surfaceOnDestroy_sparesParams hc (senderAllowed_of_requestAllowed hallowed)
  case getViewport viewporter viewport surface =>
    obtain ⟨hallowed, h'⟩ := guarded_eq_some.mp h'
    simp only [Bool.and_eq_true] at hallowed
    obtain ⟨c₁, h₁, h'⟩ := Option.bind_eq_some_iff.mp h'
    obtain ⟨-, rfl⟩ := settle_eq_some.mp h₁
    obtain ⟨hbooks, htable⟩ := hc.onGetViewport viewport surface
    have hnew := mapNewId_sparesParams hbooks (by simp) (by rw [htable]; exact hallowed.1.2) h'
    refine .trans ?_ hnew
    unfold onGetViewport
    split <;> exact .of_eq rfl rfl rfl rfl rfl fun _ => id
  case setSource | setDestination =>
    obtain ⟨-, rfl⟩ := settle_eq_some.mp (guarded_eq_some.mp h').2
    first | unfold onSetSource | unfold onSetDestination
    dsimp only [updateViewport]
    split
    · exact .of_eq rfl rfl rfl rfl rfl fun _ => id
    · split <;> exact .of_eq rfl rfl rfl rfl rfl fun _ => id
  case destroyViewport viewport =>
    obtain ⟨hallowed, h'⟩ := guarded_eq_some.mp h'
    obtain ⟨-, rfl⟩ := settle_eq_some.mp h'
    have hi := (senderAllowed_iff.mp (senderAllowed_of_requestAllowed hallowed)).1
    have htable := (hc.viewportOnDestroy viewport).2
    have hbooks : SparesParams c (viewportOnDestroy c viewport).2 := by
      unfold viewportOnDestroy
      split <;> exact .of_eq rfl rfl rfl rfl rfl fun _ => id
    exact hbooks.trans (destroyPlain_sparesParams (by rw [htable]; exact hi) (by simp))
  case writePool =>
    obtain rfl := Option.some.inj h'
    exact .of_eq rfl rfl rfl rfl rfl fun _ => id
  case deleteId | release | dataOffer | shmGlobalRemoved => simp [requestStep] at h'
  all_goals simp [Message.isAboutParams] at hm

theorem eventStep_sparesParams (hc : Consistent lost c) {m : Message}
    (hconf : hostConforms c m = true) (hm : m.isAboutParams = false)
    (h' : eventStep c m = some c') : SparesParams c c' := by
  cases m
  case release buffer =>
    rw [eventStep] at h'
    obtain rfl | ⟨-, -, h'⟩ := deliver_eq_some h'
    · exact .refl c'
    · obtain ⟨-, rfl⟩ := settle_eq_some.mp h'
      exact bufferOnRelease_sparesParams hc buffer
  case deleteId hostId =>
    obtain ⟨-, rfl⟩ := settle_eq_some.mp h'
    exact onDeleteId_sparesParams hc (by simpa [hostConforms] using hconf)
  case dataOffer device offer =>
    rw [eventStep] at h'
    obtain rfl | ⟨-, -, h'⟩ := deliver_eq_some h'
    · exact .refl c'
    · obtain ⟨havail, h'⟩ := guarded_eq_some.mp h'
      exact mapAnnouncedId_sparesParams (by simp) havail h'
  case shmGlobalRemoved =>
    obtain rfl := Option.some.inj h'
    exact .of_eq rfl rfl rfl rfl rfl fun _ => id
  case created | failed => simp [Message.isAboutParams] at hm
  all_goals simp [eventStep] at h'

/-- Messages that are not about parameters leave the live parameters alone. -/
theorem step_sparesParams (hc : Consistent lost c) {m : Message} (hm : m.isAboutParams = false)
    (h' : step maps c m = some c') : SparesParams c c' := by
  obtain ⟨hconf, hrequest | ⟨-, hevent⟩⟩ := step_eq_some.mp h'
  · exact requestStep_sparesParams hc hm hrequest
  · exact eventStep_sparesParams hc hconf hm hevent

end Sommelier
