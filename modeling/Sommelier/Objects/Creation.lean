import Sommelier.Objects.Retirement

/-!
# Creation of objects

New objects keep the session consistent: those of a request, those the host announces, and
the host buffers behind guest SHM buffers and dma-buf parameters.

## Main definitions

* `SameObjects`: two states with the same objects, in the same phases.
-/
namespace Sommelier

variable {lost : Set ℕ} {c c' : Context} {g h : ℕ}

/-! ## New objects -/

theorem guestServerId_of_lt (hlt : g < guestServerIdStart) :
    ShadowTable.isGuestServerId g = false := by
  simp [ShadowTable.isGuestServerId, hlt]

/-- The state behind a pair of a fresh number and the table after the search for it. -/
theorem bindObject_allocated (hc : Consistent lost c) {i : Interface} {t : ShadowTable}
    {r : RenderBufferRegistry BufferState} {m : HostTraffic} {version hostVersion n : ℕ}
    {n' : ServerId}
    (hg : c.shadowTable.guestToHost.get g = none) (hh : c.shadowTable.hostIdFree h = true)
    (ht : t = { c.shadowTable with nextHostId := n, nextGuestServerId := n' })
    (hm : m = if ShadowTable.isGuestServerId g then .announce h else .create h)
    (hphase : ∀ h', r.phase h' =
      if h' = h ∧ i = .wlBuffer then some .guestAlive else c.renderBuffers.phase h')
    (hrange : ShadowTable.isGuestServerId g = true →
      (i = .wlBuffer ∨ i = .wlDataOffer) ∧ isServerId h = true) :
    Consistent lost { c with
      shadowTable := t.registerObject g h i version hostVersion
      renderBuffers := r
      traffic := m :: c.traffic } := by
  have hg' : t.guestToHost.get g = none := by rw [ht]; exact hg
  have hh' : t.hostToGuest.get h = none := by rw [ht]; exact (ShadowTable.hostIdFree_iff.mp hh).1
  rw [ShadowTable.registerObject_fresh hg' hh']
  subst ht
  refine hc.bindObject hg hh rfl rfl rfl rfl rfl rfl rfl hphase (fun h' => ?_)
    (fun h' hother => ?_) (fun h' a p hmem => ?_) hrange
  · have hq := hostLifetime_queue c m h'
    refine Eq.trans hq ?_
    subst hm
    unfold livePhase
    split_ifs <;> grind [HostTraffic.lifetimeEvent, LifetimeEvent.id, LifetimeEvent.next,
      hc.free h hh]
  · refine lastAbout_queue_other (c := c) fun e he => ?_
    subst hm
    split_ifs at he <;> exact Option.some.inj he ▸ hother.symm
  · subst hm
    split_ifs at hmem <;> simpa using hmem

/-- The states have the same objects in the same phases of their lives. -/
structure SameObjects (c c' : Context) : Prop where
  table : c'.shadowTable = c.shadowTable
  traffic : c'.traffic = c.traffic
  creates : c'.pendingNativeCreates = c.pendingNativeCreates
  orphans : c'.orphanedDmabufParams = c.orphanedDmabufParams
  phase : ∀ h, c'.renderBuffers.phase h = c.renderBuffers.phase h

/-- What the invariant does not speak about may change, and living buffers may be attached. -/
theorem Consistent.frame (hc : Consistent lost c) (hs : SameObjects c c')
    (hpends : ∀ g, c'.Pends g → c.Pends g ∨ ∃ h, c.shadowTable.guestToHost.get g = some h ∧
      c.renderBuffers.phase h = some .guestAlive) : Consistent lost c' := by
  have hlife : ∀ h, c'.hostLifetime h = c.hostLifetime h := by
    simp [Context.hostLifetime, hs.traffic]
  have hlast : ∀ h, c'.lastAbout h = c.lastAbout h := by
    simp [Context.lastAbout, hs.traffic]
  constructor <;>
    simp only [hs.table, hs.traffic, hs.creates, hs.orphans, hs.phase, hlife, hlast]
  case attached =>
    intro g hg
    rcases hpends g hg with hold | ⟨h, hmap, halive⟩
    · exact hc.attached g hold
    · exact ⟨h, hmap, .inl halive⟩
  exacts [hc.paired, hc.pending_mapped, hc.unreserved, hc.lawful, hc.free, hc.live, hc.dying,
    hc.entry_mapped, hc.unlisted, hc.alive, hc.deferred, hc.queued, hc.doomed, hc.tracked,
    hc.announced, hc.server_mapped, hc.server_range, hc.creating, hc.orphaned, hc.settled,
    hc.quiet]

theorem Consistent.mapNewId (hc : Consistent lost c) {sender : ℕ} {i : Interface}
    (havail : c.shadowTable.isGuestIdAvailable g = true) (hi : i ≠ .wlBuffer)
    (h' : mapNewId c sender g i = some c') : Consistent lost c' := by
  obtain ⟨-, hlt, hg, -⟩ := ShadowTable.isGuestIdAvailable_iff.mp havail
  obtain ⟨⟨hostId, t⟩, halloc, heq⟩ := Option.bind_eq_some_iff.mp h'
  obtain ⟨hfree, -, n, ht⟩ := ShadowTable.allocateHostId_eq_some halloc
  obtain rfl := Option.some.inj heq
  exact bindObject_allocated hc hg hfree ht (by simp [guestServerId_of_lt hlt])
    (fun h' => by simp [hi]) (by simp [guestServerId_of_lt hlt])

theorem Consistent.dataOffer (hc : Consistent lost c) {sender : ℕ}
    (havail : c.shadowTable.isHostIdAvailable h = true) (hserverId : isServerId h = true)
    (h' : mapAnnouncedId c sender h .wlDataOffer = some c') : Consistent lost c' := by
  obtain ⟨⟨guestId, t⟩, halloc, heq⟩ := Option.bind_eq_some_iff.mp h'
  obtain ⟨hserver, hg, -, n, ht⟩ := ShadowTable.allocateGuestServerId_eq_some halloc
  obtain rfl := Option.some.inj heq
  simp only [ShadowTable.isHostIdAvailable, Bool.and_eq_true] at havail
  exact bindObject_allocated hc hg havail.2 ht
    (by simp [ShadowTable.isGuestServerId, hserver]) (fun h' => by simp) (by simp [hserverId])

/-! ## Host buffers -/

theorem Consistent.unregistered (hc : Consistent lost c) (hh : c.shadowTable.hostIdFree h = true) :
    c.renderBuffers.get h = none := by
  by_contra hne
  refine hc.entry_mapped h ?_ (ShadowTable.hostIdFree_iff.mp hh).1
  simpa [RenderBufferRegistry.phase] using hne

/-- A host buffer is created behind a temporary object, whose number then waits. -/
theorem createHostBuffer_eq_some (hc : Consistent lost c) {temporary : Interface} {version : ℕ}
    {buffer : BufferState} (hg : c.shadowTable.guestToHost.get g = none)
    (h' : createHostBuffer c g temporary version buffer = some c') :
    ∃ temporaryId hostId n, c.shadowTable.hostIdFree temporaryId = true ∧
      c.shadowTable.hostIdFree hostId = true ∧ 2 ≤ hostId ∧ hostId ≠ temporaryId ∧
      c' = { c with
        shadowTable := { c.shadowTable with
          guestToHost := c.shadowTable.guestToHost.set g hostId
          hostToGuest := c.shadowTable.hostToGuest.set hostId g
          interfaces := c.shadowTable.interfaces.set g .wlBuffer
          hostInterfaces := (c.shadowTable.hostInterfaces.set temporaryId temporary).erase
            temporaryId
          guestVersions := c.shadowTable.guestVersions.set g 1
          hostVersions := ((c.shadowTable.hostVersions.set temporaryId version).erase
            temporaryId).set hostId 1
          retiredHostIds := c.shadowTable.retiredHostIds.erase temporaryId
          pendingDestroyHostIds := insert temporaryId c.shadowTable.pendingDestroyHostIds
          nextHostId := n }
        renderBuffers := c.renderBuffers.set hostId (.guestAlive
          { backing := .localCopy buffer, useState := .neverSubmitted
            implicitSyncFallback := false })
        traffic := .destroy temporaryId :: .create hostId :: .create temporaryId ::
          c.traffic } := by
  obtain ⟨⟨temporaryId, t₁⟩, halloc₁, h'⟩ := Option.bind_eq_some_iff.mp h'
  obtain ⟨hfree₁, -, n₁, rfl⟩ := ShadowTable.allocateHostId_eq_some halloc₁
  obtain ⟨⟨hostId, t₂⟩, halloc₂, h'⟩ := Option.bind_eq_some_iff.mp h'
  obtain ⟨hfree₂, hle, n₂, rfl⟩ := ShadowTable.allocateHostId_eq_some halloc₂
  have hne : hostId ≠ temporaryId := by
    rintro rfl
    simp [ShadowTable.hostIdFree, ShadowTable.trackHostInterfaceWithVersion] at hfree₂
  have hfree : c.shadowTable.hostIdFree hostId = true := by
    simpa [ShadowTable.hostIdFree_iff, ShadowTable.trackHostInterfaceWithVersion, hne]
      using hfree₂
  have hunmapped := (ShadowTable.hostIdFree_iff.mp hfree₁).1
  have hunmapped' := (ShadowTable.hostIdFree_iff.mp hfree).1
  refine ⟨temporaryId, hostId, n₂, hfree₁, hfree, hle, hne, ?_⟩
  simpa [Context.queue, ShadowTable.trackHostInterfaceWithVersion,
    ShadowTable.markPendingDestroyHost, ShadowTable.registerObject, ShadowTable.mapId,
    ShadowTable.setHostVersion, ShadowTable.trackInterfaceWithVersion, hunmapped, hunmapped', hg,
    RenderBufferRegistry.registerLocal, RenderBufferRegistry.registerBacking,
    hc.unregistered hfree] using h'.symm

theorem Consistent.createHostBuffer (hc : Consistent lost c) {temporary : Interface} {version : ℕ}
    {buffer : BufferState} (hlt : g < guestServerIdStart)
    (hg : c.shadowTable.guestToHost.get g = none)
    (h' : createHostBuffer c g temporary version buffer = some c') : Consistent lost c' := by
  obtain ⟨temporaryId, hostId, n, hfree₁, hfree₂, -, hne, rfl⟩ :=
    createHostBuffer_eq_some hc hg h'
  -- First the temporary object, from its creation to its destructor.
  have hreserved : Consistent lost { c with
      shadowTable := { c.shadowTable with
        hostInterfaces := (c.shadowTable.hostInterfaces.set temporaryId temporary).erase
          temporaryId
        hostVersions := (c.shadowTable.hostVersions.set temporaryId version).erase temporaryId
        retiredHostIds := c.shadowTable.retiredHostIds.erase temporaryId
        pendingDestroyHostIds := insert temporaryId c.shadowTable.pendingDestroyHostIds }
      traffic := .destroy temporaryId :: .create temporaryId :: c.traffic } := by
    have hnone := ShadowTable.hostIdFree_iff.mp hfree₁
    refine hc.reserveHostId .destroyed hfree₁ rfl rfl rfl (fun h' => ?_) rfl rfl
      (Finset.erase_eq_of_notMem hnone.2.2.1) (fun h' => ?_) (fun h' hother => ?_)
      (fun _ a p hlast => ?_) (fun _ => ?_) fun h' a p hmem => ?_
    · by_cases heq : h' = temporaryId <;> simp [heq, hnone]
    · refine Eq.trans (hostLifetime_queue (c.queue _) _ h') ?_
      simp only [hostLifetime_queue, HostTraffic.lifetimeEvent, LifetimeEvent.id]
      split_ifs <;> grind [LifetimeEvent.next, hc.free temporaryId hfree₁]
    · simp [Context.lastAbout, HostTraffic.lifetimeEvent, LifetimeEvent.id, hother.symm]
    · simp [Context.lastAbout, HostTraffic.lifetimeEvent, LifetimeEvent.id] at hlast
    · rfl
    · exact .inl (by simpa using hmem)
  refine hreserved.bindObject (i := .wlBuffer) hg ?_ rfl rfl rfl rfl rfl rfl rfl
    (fun h' => ?_) (fun h' => ?_) (fun h' hother => ?_) (fun h' a p hmem => ?_)
    (by simp [guestServerId_of_lt hlt])
  · simpa [ShadowTable.hostIdFree, hne] using hfree₂
  · simp [RenderBufferRegistry.phase_set, RenderBuffer.phase]
  · have hlife₂ := hc.free hostId hfree₂
    simp only [Context.hostLifetime] at hlife₂
    simp only [Context.hostLifetime, List.filterMap_cons, HostTraffic.lifetimeEvent,
      lifetime_cons, LifetimeEvent.id, livePhase, guestServerId_of_lt hlt]
    grind [LifetimeEvent.next]
  · by_cases heq : temporaryId = h' <;>
      simp [Context.lastAbout, HostTraffic.lifetimeEvent, LifetimeEvent.id, hother.symm, heq]
  · simpa using hmem

theorem settle_eq_some : settle c = some c' ↔ c.fatalProtocolError = false ∧ c = c' := by
  simp [settle]

theorem guarded_eq_some {allowed : Bool} {next : Option Context} :
    guarded allowed next = some c' ↔ allowed = true ∧ next = some c' := by
  simp [guarded]

@[simp] theorem settle_queueProtocolError : settle c.queueProtocolError = none := rfl

theorem Consistent.onCreateBuffer (hc : Consistent lost c) {pool : ℕ} {request : BufferRequest}
    {storage : HostStorage} {action : Action} {c₁ : Context}
    (havail : c.shadowTable.isGuestIdAvailable g = true)
    (h₁ : onCreateBuffer c pool g request storage = some (action, c₁))
    (hsettle : settle c₁ = some c') : Consistent lost c' := by
  obtain ⟨-, hlt, hg, -⟩ := ShadowTable.isGuestIdAvailable_iff.mp havail
  have hcreate : ∀ {temporary version buffer}, (Sommelier.createHostBuffer c g temporary
      version buffer).map (Action.drop, ·) = some (action, c₁) → Consistent lost c' := by
    intro temporary version buffer hmap
    obtain ⟨c₂, h₂, heq⟩ := Option.map_eq_some_iff.mp hmap
    obtain ⟨-, rfl⟩ := Prod.mk.inj heq
    obtain ⟨-, rfl⟩ := settle_eq_some.mp hsettle
    exact hc.createHostBuffer hlt hg h₂
  have herror : some (Action.drop, c.queueProtocolError) ≠ some (action, c₁) := by
    intro heq
    obtain ⟨-, rfl⟩ := Prod.mk.inj (Option.some.inj heq)
    simp at hsettle
  unfold Sommelier.onCreateBuffer at h₁
  split_ifs at h₁
  · obtain ⟨-, rfl⟩ := Prod.mk.inj (Option.some.inj h₁)
    obtain ⟨-, rfl⟩ := settle_eq_some.mp hsettle
    exact hc
  · split at h₁
    · exact absurd h₁ herror
    · dsimp only at h₁
      split_ifs at h₁
      · split at h₁
        · exact absurd h₁ herror
        · exact hcreate h₁
        · split at h₁
          · exact absurd h₁ herror
          · exact hcreate h₁
      · exact absurd h₁ herror

theorem Consistent.onCreatePool (hc : Consistent lost c) {shm pool : ℕ} {size : ℤ}
    {bytes : Option Memory} (havail : c.shadowTable.isGuestIdAvailable pool = true) :
    Consistent lost (onCreatePool c shm pool size bytes).2 := by
  obtain ⟨-, hlt, hg, -⟩ := ShadowTable.isGuestIdAvailable_iff.mp havail
  have herror : Consistent lost c.queueProtocolError := hc.frame ⟨rfl, rfl, rfl, rfl, fun _ => rfl⟩
    fun _ => .inl
  unfold Sommelier.onCreatePool
  split_ifs
  · exact hc
  · exact herror
  · cases bytes with
    | none => exact herror
    | some bytes =>
      have htable := hc.relabel
        (t := c.shadowTable.trackInterfaceWithVersion pool .wlShmPool 1) hg rfl rfl
        (fun g' hne => by simp [ShadowTable.trackInterfaceWithVersion, hne])
        (by simp [ShadowTable.trackInterfaceWithVersion, guestServerId_of_lt hlt])
        rfl (fun _ => Iff.rfl) rfl rfl
      exact htable.frame ⟨rfl, rfl, rfl, rfl, fun _ => rfl⟩ fun _ => .inl

/-! ## dma-buf parameters -/

/-- What follows from a request that passed its checks. -/
theorem senderAllowed_iff {i : Interface} : c.senderAllowed g i = true ↔
    c.shadowTable.interfaces.get g = some i ∧ g ∉ c.shadowTable.pendingDestroyGuestIds ∧
      ((∃ h, c.shadowTable.guestToHost.get g = some h) ∨ i.isLocalOnly = true) := by
  simp only [Context.senderAllowed, ShadowTable.guestObjectMatches,
    ShadowTable.isPendingDestroyGuest, ShadowTable.getHostId, ShadowTable.isLocalOnlyGuestObject,
    Bool.and_eq_true, Bool.or_eq_true, beq_iff_eq, Bool.not_eq_true', decide_eq_false_iff_not,
    and_assoc, Option.isSome_iff_exists]
  constructor
  · rintro ⟨hi, hlive, hmap⟩
    exact ⟨hi, hlive, by simpa [hi] using hmap⟩
  · rintro ⟨hi, hlive, hmap⟩
    exact ⟨hi, hlive, by simpa [hi] using hmap⟩

theorem senderAllowed_of_requestAllowed {i : Interface} {since : ℕ}
    (h : c.requestAllowed g i since = true) : c.senderAllowed g i = true :=
  (Bool.and_eq_true_iff.mp h).1

/-- Sending the planes touches the books of the parameters only, and needs mapped
parameters; a failure to send collected planes ends the session. -/
theorem processParams_eq {params : ℕ} {duplicated : Bool} {sent : Option ℕ}
    (h' : processParams c params duplicated = (sent, c')) :
    (∃ pending used fatal, c' = { c with
      pendingParams := pending, usedDmabufParams := used, fatalProtocolError := fatal }) ∧
    (∀ hostId, sent = some hostId → c.shadowTable.guestToHost.get params = some hostId) ∧
    (sent = none → c'.fatalProtocolError = true ∨ c.pendingParams.get params = none) := by
  unfold processParams discardPendingParams at h'
  cases hp : c.pendingParams.get params with
  | none =>
    simp only [hp] at h'
    obtain ⟨rfl, rfl⟩ := Prod.mk.inj h'
    exact ⟨⟨_, _, _, rfl⟩, by simp, fun _ => .inr rfl⟩
  | some planes =>
    simp only [hp] at h'
    cases hh : c.shadowTable.getHostId params with
    | none =>
      simp only [hh] at h'
      obtain ⟨rfl, rfl⟩ := Prod.mk.inj h'
      exact ⟨⟨_, _, _, rfl⟩, by simp, fun _ => .inl rfl⟩
    | some hostId =>
      simp only [hh] at h'
      split_ifs at h' <;> obtain ⟨rfl, rfl⟩ := Prod.mk.inj h'
      · exact ⟨⟨_, _, _, rfl⟩, by simp, fun _ => .inl rfl⟩
      · exact ⟨⟨_, _, _, rfl⟩, fun _ heq => Option.some.inj heq ▸ hh, by simp⟩

theorem Consistent.onCreate (hc : Consistent lost c) {params : ℕ} {width height : ℤ} {format : ℕ}
    {duplicated : Bool} (hallowed : c.senderAllowed params .zwpLinuxBufferParamsV1 = true) :
    Consistent lost (onCreate c params width height format duplicated).2 := by
  obtain ⟨hi, hlive, -⟩ := senderAllowed_iff.mp hallowed
  unfold Sommelier.onCreate
  split_ifs
  · exact hc.frame ⟨rfl, rfl, rfl, rfl, fun _ => rfl⟩ fun _ => .inl
  · exact hc.frame ⟨rfl, rfl, rfl, rfl, fun _ => rfl⟩ fun _ => .inl
  · split
    · rename_i c₁ hres
      obtain ⟨⟨pending, used, fatal, rfl⟩, -⟩ := processParams_eq hres
      exact hc.frame ⟨rfl, rfl, rfl, rfl, fun _ => rfl⟩ fun _ => .inl
    · rename_i hostId c₁ hres
      obtain ⟨⟨pending, used, fatal, rfl⟩, hmap, -⟩ := processParams_eq hres
      have hprocessed : Consistent lost { c with
          pendingParams := pending, usedDmabufParams := used, fatalProtocolError := fatal } :=
        hc.frame ⟨rfl, rfl, rfl, rfl, fun _ => rfl⟩ fun _ => .inl
      dsimp only
      split
      · exact hprocessed.frame ⟨rfl, rfl, rfl, rfl, fun _ => rfl⟩ fun _ => .inl
      · exact hprocessed.expectAnswer (hmap _ rfl) hi hlive

/-- A buffer created at once is registered before its request is sent. -/
theorem onCreateImmed_eq_some (hc : Consistent lost c) {params : ℕ} {width height : ℤ}
    {format : ℕ} {duplicated : Bool} {action : Action} {c₁ : Context}
    (h₁ : onCreateImmed c params g width height format duplicated = some (action, c₁))
    (hsafe : c₁.fatalProtocolError = false) :
    (action, c₁) = (.drop, c) ∧ params ∉ c.usedDmabufParams ∧
      c.pendingParams.get params = none ∨
    ∃ hostId version n pending used, c.shadowTable.hostIdFree hostId = true ∧ 2 ≤ hostId ∧
      c₁ = { c with
        shadowTable := ShadowTable.registerObject { c.shadowTable with nextHostId := n } g hostId
          .wlBuffer version version
        renderBuffers := c.renderBuffers.set hostId (.guestAlive
          { backing := .native (width, height), useState := .neverSubmitted
            implicitSyncFallback := false })
        traffic := .create hostId :: c.traffic
        pendingParams := pending
        usedDmabufParams := used
        fatalProtocolError := false } := by
  unfold Sommelier.onCreateImmed at h₁
  split_ifs at h₁ with hused hnone hhost hvalid
  · obtain ⟨-, rfl⟩ := Prod.mk.inj (Option.some.inj h₁)
    simp [Context.queueProtocolError] at hsafe
  · exact .inl ⟨(Option.some.inj h₁).symm, hused, by simpa using hnone⟩
  · obtain ⟨-, rfl⟩ := Prod.mk.inj (Option.some.inj h₁)
    rcases hres : processParams c params duplicated with ⟨sent, c₂⟩
    rw [hres] at hsafe
    obtain ⟨-, hmap, hfatal⟩ := processParams_eq hres
    have hsent : sent = none := by
      rw [Option.eq_none_iff_forall_ne_some]
      intro hostId heq
      simp [ShadowTable.getHostId, hmap hostId heq] at hhost
    rcases hfatal hsent with hfatal | hpending
    · simp [hfatal] at hsafe
    · simp [hpending] at hnone
  · obtain ⟨-, rfl⟩ := Prod.mk.inj (Option.some.inj h₁)
    simp [Context.queueProtocolError, discardPendingParams] at hsafe
  · obtain ⟨⟨hostId, t⟩, halloc, h₁⟩ := Option.bind_eq_some_iff.mp h₁
    obtain ⟨hfree, hle, n, rfl⟩ := ShadowTable.allocateHostId_eq_some halloc
    dsimp only at h₁
    split at h₁ <;> rename_i c₂ hres
    · obtain ⟨-, rfl⟩ := Prod.mk.inj (Option.some.inj h₁)
      rcases (processParams_eq hres).2.2 rfl with hfatal | hpending
      · simp [hfatal] at hsafe
      · simp [hpending] at hnone
    · obtain ⟨⟨pending, used, fatal, rfl⟩, -⟩ := processParams_eq hres
      obtain ⟨-, rfl⟩ := Prod.mk.inj (Option.some.inj h₁)
      have hreg : c.renderBuffers.registerNative hostId (width, height) =
          (true, c.renderBuffers.set hostId (.guestAlive
            { backing := .native (width, height), useState := .neverSubmitted
              implicitSyncFallback := false })) := by
        simp [RenderBufferRegistry.registerNative, RenderBufferRegistry.registerBacking,
          hc.unregistered hfree]
      refine .inr ⟨hostId, (c.shadowTable.guestObjectVersion params).getD unknownObjectVersion,
        n, pending, used, hfree, hle, ?_⟩
      dsimp only [Context.queue] at hsafe ⊢
      rw [hreg] at hsafe ⊢
      rw [hsafe]
      rfl

theorem Consistent.onCreateImmed (hc : Consistent lost c) {params : ℕ} {width height : ℤ}
    {format : ℕ} {duplicated : Bool} {action : Action} {c₁ : Context}
    (havail : c.shadowTable.isGuestIdAvailable g = true)
    (h₁ : onCreateImmed c params g width height format duplicated = some (action, c₁))
    (hsafe : c₁.fatalProtocolError = false) : Consistent lost c₁ := by
  obtain ⟨-, hlt, hg, -⟩ := ShadowTable.isGuestIdAvailable_iff.mp havail
  obtain ⟨heq, -⟩ | ⟨hostId, version, n, pending, used, hfree, -, rfl⟩ :=
    onCreateImmed_eq_some hc h₁ hsafe
  · obtain ⟨-, rfl⟩ := Prod.mk.inj heq
    exact hc
  · have hbooks : Consistent lost { c with
        pendingParams := pending, usedDmabufParams := used, fatalProtocolError := false } :=
      hc.frame ⟨rfl, rfl, rfl, rfl, fun _ => rfl⟩ fun _ => .inl
    refine bindObject_allocated hbooks (i := .wlBuffer) hg hfree rfl
      (by simp [guestServerId_of_lt hlt]) (fun h' => ?_) (by simp [guestServerId_of_lt hlt])
    simp [RenderBufferRegistry.phase_set, RenderBuffer.phase]

/-! ## Answers for parameters -/

/-- Parameters the host may answer. -/
theorem Consistent.answer_cases (hc : Consistent lost c)
    (hconf : (c.pendingNativeCreates.get h).isSome = true ∨
      (c.orphanedDmabufParams.get h).isSome = true) :
    (∃ p, c.pendingNativeCreates.get h = some p ∧ c.orphanedDmabufParams.get h = none ∧
      c.shadowTable.hostToGuest.get h = some p.guestParamsId ∧
      p.guestParamsId ∉ c.shadowTable.pendingDestroyGuestIds) ∨
    ∃ g, c.orphanedDmabufParams.get h = some g := by
  by_cases horph : (c.orphanedDmabufParams.get h).isSome = true
  · exact .inr (Option.isSome_iff_exists.mp horph)
  · obtain ⟨p, hp⟩ := Option.isSome_iff_exists.mp (hconf.resolve_right horph)
    have hold := hc.creating h p hp
    exact .inl ⟨p, hp, hold.2.2.2, hold.1, hold.2.2.1⟩

theorem Consistent.forgetParams (hc : Consistent lost c) (hostParams : ℕ) :
    Consistent (insert hostParams lost) (forgetParams c hostParams) :=
  (hc.mono (Set.subset_insert hostParams lost)).forget (fun h p hp => by simp_all)
    (fun h g hg => by simp_all) fun h hkept horph => by
      have hne : h ≠ hostParams := fun heq => hkept (.inl heq)
      simpa [hne] using horph

/-- Orphans whose destructor was acknowledged are gone with their answer. -/
theorem Consistent.releaseOrphanedParams (hc : Consistent (insert h lost) c)
    (hlife : c.shadowTable.hostToGuest.get h = none → c.hostLifetime h = some .free)
    (horph : c.orphanedDmabufParams.get h = none) :
    Consistent lost (releaseOrphanedParams c h) := by
  unfold Sommelier.releaseOrphanedParams
  split_ifs with hnone
  · have hunmapped : c.shadowTable.hostToGuest.get h = none := by
      simpa [ShadowTable.getGuestId] using hnone
    have hreleased := hc.releaseHostId (t := c.shadowTable.removeHostInterface h) hunmapped horph
      rfl rfl rfl (fun h' hne => by simp [ShadowTable.removeHostInterface, hne]) rfl rfl
      (fun h' hne => by simp [ShadowTable.removeHostInterface, hne])
      (fun _ => by simp [ShadowTable.removeHostInterface]) (fun h' => ?_) (fun _ _ => rfl)
      fun _ _ _ => id
    · exact hreleased.found fun _ => ShadowTable.hostIdFree_iff.mpr (by
        simp [ShadowTable.removeHostInterface, hunmapped])
    · change c.hostLifetime h' = _
      split_ifs with heq
      · rw [heq, hlife hunmapped]
      · rfl
  · refine hc.found fun hunmapped => absurd hunmapped ?_
    simpa [ShadowTable.getGuestId] using hnone

/-- A buffer nobody asked for any more is destroyed as it arrives. -/
theorem destroyOrphanedBuffer_eq (hc : Consistent lost c) (params : ℕ) {buffer : ℕ}
    (hfree : c.shadowTable.hostIdFree buffer = true) : ∃ version,
    destroyOrphanedBuffer c params buffer = { c with
      shadowTable := { c.shadowTable with
        hostInterfaces := (c.shadowTable.hostInterfaces.set buffer .wlBuffer).erase buffer
        hostVersions := (c.shadowTable.hostVersions.set buffer version).erase buffer
        retiredHostIds := c.shadowTable.retiredHostIds.erase buffer
        pendingDestroyHostIds := insert buffer c.shadowTable.pendingDestroyHostIds }
      traffic := .destroyBuffer buffer false false :: .announce buffer :: c.traffic } := by
  have hunmapped := (ShadowTable.hostIdFree_iff.mp hfree).1
  refine ⟨(c.shadowTable.hostObjectVersion params).getD unknownObjectVersion, ?_⟩
  simp [destroyOrphanedBuffer, queueHostBufferDestroy, Context.queue,
    ShadowTable.trackHostInterfaceWithVersion, ShadowTable.markPendingDestroyHost, hunmapped,
    ShadowTable.getGuestId, RenderBufferRegistry.useState, RenderBufferRegistry.activeBuffer,
    hc.unregistered hfree]

theorem Consistent.destroyOrphanedBuffer (hc : Consistent lost c) (params : ℕ) {buffer : ℕ}
    (hfree : c.shadowTable.hostIdFree buffer = true) (hlost : buffer ∈ lost) :
    Consistent lost (destroyOrphanedBuffer c params buffer) := by
  obtain ⟨hunmapped, hnone, hretired, -⟩ := ShadowTable.hostIdFree_iff.mp hfree
  obtain ⟨version, heq⟩ := destroyOrphanedBuffer_eq hc params hfree
  rw [heq]
  refine hc.reserveHostId .free hfree rfl rfl rfl (fun h' => ?_) rfl rfl
    (Finset.erase_eq_of_notMem hretired) (fun h' => ?_) (fun h' hother => ?_) (by simp)
    (fun hkept => absurd hlost hkept) fun h' a p hmem => ?_
  · by_cases heq : h' = buffer <;> simp [heq, hnone]
  · refine Eq.trans (hostLifetime_queue (c.queue _) _ h') ?_
    simp only [hostLifetime_queue, HostTraffic.lifetimeEvent, LifetimeEvent.id]
    split_ifs <;> grind [LifetimeEvent.next, hc.free buffer hfree]
  · simp [Context.lastAbout, HostTraffic.lifetimeEvent, LifetimeEvent.id, hother.symm]
  · rcases List.mem_cons.mp hmem with heq | hmem
    · exact .inr (HostTraffic.destroyBuffer.inj heq).2
    · exact .inl (by simpa using hmem)

/-- The buffer the guest waits for is registered and announced to it. -/
theorem onCreated_awaited (hc : Consistent lost c) {buffer : ℕ} {p : PendingNativeCreate}
    (hfree : c.shadowTable.hostIdFree buffer = true)
    (hp : c.pendingNativeCreates.get h = some p) :
    onCreated c h buffer = (.forward, { c with
      pendingNativeCreates := c.pendingNativeCreates.erase h
      renderBuffers := c.renderBuffers.set buffer (.guestAlive
        { backing := .native p.dimensions, useState := .neverSubmitted
          implicitSyncFallback := false }) }) := by
  obtain ⟨hmap, -, hlive, horph⟩ := hc.creating h p hp
  simp [onCreated, horph, ShadowTable.getGuestId, hmap, ShadowTable.isPendingDestroyGuest, hlive,
    hp, RenderBufferRegistry.registerNative, RenderBufferRegistry.registerBacking,
    hc.unregistered hfree]

/-- The buffer of destroyed parameters is destroyed, and the parameters are forgotten. -/
theorem onCreated_orphan {buffer : ℕ} (havail : c.shadowTable.isHostIdAvailable buffer = true)
    (horph : c.orphanedDmabufParams.get h = some g) :
    onCreated c h buffer = (.drop, releaseOrphanedParams
      (forgetParams (destroyOrphanedBuffer c h buffer) h) h) := by
  simp [onCreated, horph, havail]

/-- The guest learns of an awaited buffer. -/
theorem Consistent.announceBuffer (hc : Consistent lost c) {buffer : ℕ} {p : PendingNativeCreate}
    (hfree : c.shadowTable.hostIdFree buffer = true) (hserverId : isServerId buffer = true)
    (h' : mapAnnouncedId { c with
      pendingNativeCreates := c.pendingNativeCreates.erase h
      renderBuffers := c.renderBuffers.set buffer (.guestAlive
        { backing := .native p.dimensions, useState := .neverSubmitted
          implicitSyncFallback := false }) } h buffer .wlBuffer = some c') :
    Consistent lost c' := by
  obtain ⟨⟨guestId, t⟩, halloc, heq⟩ := Option.bind_eq_some_iff.mp h'
  obtain ⟨hserver, hg, -, n, ht⟩ := ShadowTable.allocateGuestServerId_eq_some halloc
  obtain rfl := Option.some.inj heq
  have hforget : Consistent lost { c with
      pendingNativeCreates := c.pendingNativeCreates.erase h } :=
    hc.forget (fun h p hp => by simp_all) (fun _ _ => id) fun _ _ => id
  refine bindObject_allocated hforget (i := .wlBuffer) hg hfree ht
    (by simp [ShadowTable.isGuestServerId, hserver]) (fun h' => ?_) (by simp [hserverId])
  simp [RenderBufferRegistry.phase_set, RenderBuffer.phase]

/-- A buffer for destroyed parameters leaves nothing but its reserved number. -/
theorem Consistent.answerOrphan (hc : Consistent lost c) {buffer : ℕ}
    (hfree : c.shadowTable.hostIdFree buffer = true) (hlost : buffer ∈ lost)
    (horph : c.orphanedDmabufParams.get h = some g) :
    Consistent lost (Sommelier.releaseOrphanedParams
      (Sommelier.forgetParams (Sommelier.destroyOrphanedBuffer c h buffer) h) h) := by
  refine ((hc.destroyOrphanedBuffer h hfree hlost).forgetParams h).releaseOrphanedParams
    (fun hnone => ?_) (by simp [Sommelier.forgetParams])
  obtain ⟨version, heq⟩ := destroyOrphanedBuffer_eq hc h hfree
  have hlife := (hc.destroyOrphanedBuffer h hfree hlost).orphaned h g
  rw [heq] at hlife hnone ⊢
  rcases hlife horph with hmapped | hunmapped
  · simp [Sommelier.forgetParams] at hnone
    simp [hnone] at hmapped
  · exact hunmapped.2.1

theorem Consistent.onFailed (hc : Consistent lost c)
    (hconf : (c.pendingNativeCreates.get h).isSome = true ∨
      (c.orphanedDmabufParams.get h).isSome = true) :
    Consistent lost (onFailed c h).2 := by
  obtain ⟨p, hp, horph, hmap, hlive⟩ | ⟨g, horph⟩ := hc.answer_cases hconf
  · have heq : Sommelier.onFailed c h = (.forward, { c with
        pendingNativeCreates := c.pendingNativeCreates.erase h }) := by
      simp [Sommelier.onFailed, horph, ShadowTable.getGuestId, hmap,
        ShadowTable.isPendingDestroyGuest, hlive, hp]
    rw [heq]
    exact hc.forget (fun h p hp => by simp_all) (fun _ _ => id) fun _ _ => id
  · have heq : Sommelier.onFailed c h =
        (.drop, Sommelier.releaseOrphanedParams (Sommelier.forgetParams c h) h) := by
      simp [Sommelier.onFailed, horph]
    rw [heq]
    refine (hc.forgetParams h).releaseOrphanedParams (fun hnone => ?_)
      (by simp [Sommelier.forgetParams])
    rcases hc.orphaned h g horph with hmapped | hunmapped
    · simp [Sommelier.forgetParams] at hnone
      simp [hnone] at hmapped
    · exact hunmapped.2.1

end Sommelier
