import Sommelier.Objects.Commit

/-!
# Every message keeps the session consistent

Surface requests and commits keep the invariant; with the lemmas on creation and destruction
every message does, and so it holds along every run.

## Main definitions

* `step_consistent`: what one message preserves.
* `consistent_of_reachable`: the invariant along every run.
-/
namespace Sommelier

variable {lost : Set ℕ} {maps : DamageMapping} {c c' : Context} {g h s : ℕ}

/-! ## Surfaces -/

theorem pends_iff : c.Pends g ↔
    ∃ t b, (c.surfaces.get t).map SurfaceState.buffers = some (b, .attach g) := by
  have hattach : ∀ a : SurfaceAttachment, a.bufferId = some g ↔ a = .attach g := by
    intro a
    cases a <;> simp [SurfaceAttachment.bufferId]
  simp [Context.Pends, SurfaceState.buffers, hattach]

theorem shows_iff : c.Shows g ↔
    ∃ t a, (c.surfaces.get t).map SurfaceState.buffers = some (some g, a) := by
  simp [Context.Shows, SurfaceState.buffers]

/-- Requests that collect other pending state attach nothing. -/
theorem pends_updateSurface {f : SurfaceState → SurfaceState}
    (hf : ∀ x, (f x).pendingAttachment = x.pendingAttachment) :
    (c.updateSurface s f).Pends g → c.Pends g := by
  rintro ⟨t, surface, hget, hpend⟩
  rw [Context.updateSurface, Table.get_set] at hget
  split_ifs at hget
  · obtain rfl := Option.some.inj hget
    rw [hf, Context.surfaceOrDefault] at hpend
    cases hold : c.surfaces.get s with
    | none => simp [hold, SurfaceState.new, SurfaceAttachment.bufferId] at hpend
    | some surface =>
      rw [hold] at hpend
      exact ⟨s, surface, hold, hpend⟩
  · exact ⟨t, surface, hget, hpend⟩

theorem Consistent.updateSurface (hc : Consistent lost c) (s : ℕ) {f : SurfaceState → SurfaceState}
    (hf : ∀ x, (f x).pendingAttachment = x.pendingAttachment) :
    Consistent lost (c.updateSurface s f) :=
  hc.frame ⟨rfl, rfl, rfl, rfl, fun _ => rfl⟩ fun _ hg => .inl (pends_updateSurface hf hg)

theorem Consistent.queueProtocolError (hc : Consistent lost c) :
    Consistent lost c.queueProtocolError :=
  hc.frame ⟨rfl, rfl, rfl, rfl, fun _ => rfl⟩ fun _ => .inl

/-! ## Attachments -/

/-- The surface with another buffer attached. -/
def SurfaceState.attach (buffer : ℕ) (offset : Option (ℤ × ℤ)) (x : SurfaceState) : SurfaceState :=
  { x with
    pendingAttachment := if buffer = 0 then .detach else .attach buffer
    pendingAttachOffset := offset }

/-- An attachment that is no protocol error replaces the pending one, and the pass for
superseded buffers follows. -/
theorem onAttach_eq (c : Context) (s buffer : ℕ) (x y : ℤ) :
    onAttach c s buffer x y = (.drop, c.queueProtocolError) ∨ ∃ offset,
      onAttach c s buffer x y =
        (.forward, retireEligibleBuffers (c.updateSurface s (.attach buffer offset))) := by
  unfold onAttach
  dsimp only
  split
  · exact .inl rfl
  · exact .inr ⟨_, rfl⟩

/-- Retiring a buffer does not depend on what was sent before. -/
theorem retireBuffer_after (c : Context) (sent : List HostTraffic) (g h : ℕ) :
    retireBuffer (c.after sent) g h = (retireBuffer c g h).after sent := by
  have hcomplete : ∀ c : Context, (c.after sent).completeQueuedBufferDestroy g h =
      ((c.completeQueuedBufferDestroy g h).1,
        (c.completeQueuedBufferDestroy g h).2.after sent) := by
    intro c
    unfold Context.completeQueuedBufferDestroy
    by_cases hmapped : c.shadowTable.getHostId g = some h
    · by_cases hserver : ShadowTable.isGuestServerId g = true
      · by_cases hremoved : (c.renderBuffers.remove h).1 = true
        · simp [hmapped, hserver, hremoved]
          rfl
        · simp [hmapped, hserver, hremoved]
      · by_cases hmarked :
            (c.renderBuffers.contains h && !(c.renderBuffers.markHostDestroyQueued h).1) = true
        · simp [hmapped, hserver, hmarked]
        · simp [hmapped, hserver, hmarked]
          rfl
    · simp [hmapped]
  rw [retireBuffer, retireBuffer, show queueHostBufferDestroy (c.after sent) h =
    (queueHostBufferDestroy c h).after sent from rfl]
  unfold retireDestroyedBufferMapping
  rw [hcomplete]
  dsimp only
  split_ifs <;> rfl

theorem retireEligibleBuffers_after (c : Context) (sent : List HostTraffic) :
    retireEligibleBuffers (c.after sent) = (retireEligibleBuffers c).after sent := by
  unfold retireEligibleBuffers
  rw [show retirementCandidates (c.after sent) = retirementCandidates c from rfl]
  generalize retirementCandidates c = candidates
  induction candidates generalizing c with
  | nil => rfl
  | cons ids candidates ih => rw [List.foldl_cons, List.foldl_cons, retireBuffer_after, ih]

/-- The attachment is pending, and the host was told. -/
def Context.withAttachment (c : Context) (s buffer : ℕ) (offset : Option (ℤ × ℤ)) : Context :=
  let c := c.updateSurface s (.attach buffer offset)
  { c with
    traffic := (attachRequest (retireEligibleBuffers c).shadowTable s buffer).toList ++ c.traffic }

theorem Context.withAttachment_cases (c : Context) (s buffer : ℕ) (offset : Option (ℤ × ℤ)) :
    c.withAttachment s buffer offset = c.updateSurface s (.attach buffer offset) ∨
      ∃ h b, c.withAttachment s buffer offset =
        (c.updateSurface s (.attach buffer offset)).queue (.attach h b) := by
  unfold withAttachment attachRequest
  dsimp only
  split
  · exact .inr ⟨_, _, rfl⟩
  · exact .inl rfl

/-- An attachment that goes through is sent before the destructors it gives rise to. -/
theorem attach_eq_some {buffer : ℕ} {x y : ℤ}
    (h' : requestStep maps c (.attach s buffer x y) = some c') :
    c.senderAllowed s .wlSurface = true ∧
      (buffer = 0 ∨ c.objectAllowed buffer .wlBuffer = true) ∧ ∃ offset,
      c' = retireEligibleBuffers (c.withAttachment s buffer offset) := by
  obtain ⟨hallowed, h'⟩ := guarded_eq_some.mp h'
  simp only [Bool.and_eq_true, Bool.or_eq_true, beq_iff_eq] at hallowed
  refine ⟨senderAllowed_of_requestAllowed hallowed.1, hallowed.2, ?_⟩
  rcases onAttach_eq { c with traffic := [] } s buffer x y with heq | ⟨offset, heq⟩
  · rw [heq] at h'
    cases (settle_eq_some.mp h').1
  · simp only [heq, if_true] at h'
    obtain ⟨-, rfl⟩ := settle_eq_some.mp h'
    have hafter := retireEligibleBuffers_after
      (({ c with traffic := [] } : Context).updateSurface s (.attach buffer offset))
    have htable : (retireEligibleBuffers
        (c.updateSurface s (.attach buffer offset))).shadowTable = _ :=
      congrArg Context.shadowTable (hafter c.traffic)
    refine ⟨offset, ?_⟩
    rw [← hafter, Context.withAttachment, htable]
    rfl

/-- Attaching a living buffer supersedes the attachment before it. -/
theorem Consistent.attachTo (hc : Consistent lost c) {buffer : ℕ}
    (hbuffer : buffer = 0 ∨ c.objectAllowed buffer .wlBuffer = true)
    {f : SurfaceState → SurfaceState} (hf : ∀ z, (f z).buffers =
      (z.currentBufferId, if buffer = 0 then .detach else .attach buffer)) :
    Consistent lost (c.updateSurface s f) := by
  refine hc.frame ⟨rfl, rfl, rfl, rfl, fun _ => rfl⟩ fun g hg => ?_
  obtain ⟨t, b, hpend⟩ := pends_iff.mp hg
  rw [Context.updateSurface, Table.get_set] at hpend
  by_cases ht : t = s
  · rw [if_pos ht, Option.map_some, hf] at hpend
    obtain ⟨-, hattach⟩ := Prod.mk.inj (Option.some.inj hpend)
    split_ifs at hattach with hzero
    obtain rfl := SurfaceAttachment.attach.inj hattach
    obtain ⟨hi, hlive, -⟩ := senderAllowed_iff.mp (hbuffer.resolve_left hzero)
    exact .inr (hc.tracked buffer hi hlive)
  · rw [if_neg ht] at hpend
    exact .inl (pends_iff.mpr ⟨t, b, hpend⟩)

theorem Consistent.withAttachment (hc : Consistent lost c) {buffer : ℕ}
    (hbuffer : buffer = 0 ∨ c.objectAllowed buffer .wlBuffer = true)
    (offset : Option (ℤ × ℤ)) : Consistent lost (c.withAttachment s buffer offset) := by
  have hattached := hc.attachTo (s := s) hbuffer (f := .attach buffer offset) fun _ => rfl
  rcases c.withAttachment_cases s buffer offset with heq | ⟨h, b, heq⟩ <;> rw [heq]
  · exact hattached
  · exact hattached.queue rfl

theorem Consistent.updateViewport (hc : Consistent lost c) (viewport : ℕ) (valid : Bool)
    (f : ViewportState → ViewportState) :
    Consistent lost (updateViewport c viewport valid f).2 := by
  unfold Sommelier.updateViewport
  split
  · exact hc.queueProtocolError
  · dsimp only
    split
    · exact hc.queueProtocolError
    · dsimp only
      exact hc.updateSurface _ fun _ => rfl

theorem Consistent.onGetViewport (hc : Consistent lost c) (viewport surface : ℕ) :
    Consistent lost (onGetViewport c viewport surface).2 ∧
      (onGetViewport c viewport surface).2.shadowTable = c.shadowTable := by
  unfold Sommelier.onGetViewport
  split
  · exact ⟨hc.queueProtocolError, rfl⟩
  · have hviewport : Consistent lost { c with
        viewportToWlSurface := c.viewportToWlSurface.set viewport surface } :=
      hc.frame ⟨rfl, rfl, rfl, rfl, fun _ => rfl⟩ fun _ => .inl
    refine ⟨?_, rfl⟩
    dsimp only
    exact hviewport.updateSurface _ fun _ => rfl

theorem Consistent.viewportOnDestroy (hc : Consistent lost c) (viewport : ℕ) :
    Consistent lost (viewportOnDestroy c viewport).2 ∧
      (viewportOnDestroy c viewport).2.shadowTable = c.shadowTable := by
  unfold Sommelier.viewportOnDestroy
  split
  · exact ⟨hc, rfl⟩
  · refine ⟨hc.frame ⟨rfl, rfl, rfl, rfl, fun _ => rfl⟩ fun g hg => .inl ?_, rfl⟩
    obtain ⟨t, surface, hget, hpend⟩ := hg
    rw [Table.get_modify] at hget
    split_ifs at hget
    · obtain ⟨old, hold, rfl⟩ := Option.map_eq_some_iff.mp hget
      exact ⟨t, old, hold, hpend⟩
    · exact ⟨t, surface, hget, hpend⟩

/-! ## Commits -/

theorem Undone.consistent (hu : Undone c c') (hc : Consistent lost c) : Consistent lost c' := by
  obtain ⟨surfaces, r, fatal, hget, huses, rfl⟩ := hu
  refine hc.frame ⟨rfl, rfl, rfl, rfl, fun h => (huses h).1⟩ fun g hg => .inl ?_
  obtain ⟨t, surface, hold, hpend⟩ := hg
  exact ⟨t, surface, (hget t).symm.trans hold, hpend⟩

/-- The surface of a commit has nothing attached any more. -/
theorem buffers_prepared (c : Context) (s t : ℕ) :
    ((c.setSurface s (c.surfaceOrDefault s).prepareCommit.state).surfaces.get t).map
      SurfaceState.buffers =
    if t = s then (c.surfaces.get t).map fun x =>
      (match x.pendingAttachment with
        | .unchanged => x.currentBufferId
        | .detach => none
        | .attach g => some g, .unchanged)
    else (c.surfaces.get t).map SurfaceState.buffers := by
  rw [get_setSurface]
  split_ifs with heq
  · subst heq
    unfold Context.surfaceOrDefault
    cases c.surfaces.get t with
    | none => rfl
    | some x =>
      simp only [Option.map_some, Option.getD_some, SurfaceState.buffers,
        SurfaceState.prepareCommit]
      cases hx : x.pendingAttachment <;> simp [SurfaceState.currentBufferId]
  · rfl

/-- What is left of the surfaces, buffers and objects when a commit is forwarded. -/
theorem forwarded_eq {env : CommitEnvironment} {c₁ c₂ c₃ : Context}
    (hcopy : copyAttachedBuffer (c.setSurface s (c.surfaceOrDefault s).prepareCommit.state) env
      (c.surfaceOrDefault s).prepareCommit = (true, c₁))
    (hwait : waitForAttachedBuffer c₁ env (c.surfaceOrDefault s).prepareCommit = some c₂)
    (hfinal : finalizeCommit c₂ s (c.surfaceOrDefault s).prepareCommit = (true, c₃)) :
    ∃ surfaces r, c₃ = { c with surfaces, renderBuffers := r } ∧
      (∀ h, r.phase h = c.renderBuffers.phase h) ∧
      ∀ t, (surfaces.get t).map SurfaceState.buffers =
        ((c.setSurface s (c.surfaceOrDefault s).prepareCommit.state).surfaces.get t).map
          SurfaceState.buffers := by
  obtain ⟨r₁, heq₁, huses₁⟩ := copyAttachedBuffer_eq
    (c := c.setSurface s (c.surfaceOrDefault s).prepareCommit.state) env
    (c.surfaceOrDefault s).prepareCommit
  rw [hcopy] at heq₁
  obtain ⟨r₂, heq₂, huses₂⟩ := waitForAttachedBuffer_eq hwait
  obtain ⟨surfaces, r₃, heq₃, -, hbuffers, hphase, -⟩ := finalizeCommit_eq (c := c₂) s
    (c.surfaceOrDefault s).prepareCommit
  rw [hfinal] at heq₃
  dsimp only at heq₁ heq₃
  subst heq₁ heq₂ heq₃
  exact ⟨surfaces, r₃, rfl, fun h => (hphase h).trans ((huses₂ h).1.trans (huses₁ h).1), hbuffers⟩

theorem queue_messages_eq (c : Context) (messages : List HostTraffic) :
    messages.foldl Context.queue c = { c with traffic := messages.reverse ++ c.traffic } := by
  induction messages generalizing c with
  | nil => rfl
  | cons m messages ih =>
    rw [List.foldl_cons, ih]
    simp [Context.queue]

theorem Consistent.queue_messages (hc : Consistent lost c) {messages : List HostTraffic}
    (hquiet : ∀ m ∈ messages, m.lifetimeEvent = none) :
    Consistent lost (messages.foldl Context.queue c) := by
  induction messages generalizing c with
  | nil => exact hc
  | cons m messages ih =>
    obtain ⟨hm, hquiet⟩ := List.forall_mem_cons.mp hquiet
    exact ih (hc.queue hm) hquiet

/-- A commit that is forwarded attaches nothing new. -/
theorem Consistent.forwarded (hc : Consistent lost c) {surfaces : Table ℕ SurfaceState}
    {r : RenderBufferRegistry BufferState} (hphase : ∀ h, r.phase h = c.renderBuffers.phase h)
    (hbuffers : ∀ t, (surfaces.get t).map SurfaceState.buffers =
      ((c.setSurface s (c.surfaceOrDefault s).prepareCommit.state).surfaces.get t).map
        SurfaceState.buffers) :
    Consistent lost { c with surfaces, renderBuffers := r } := by
  refine hc.frame ⟨rfl, rfl, rfl, rfl, hphase⟩ fun g hg => .inl ?_
  obtain ⟨t, b, hpend⟩ := pends_iff.mp hg
  rw [hbuffers, buffers_prepared] at hpend
  split_ifs at hpend
  · simp at hpend
  · exact pends_iff.mpr ⟨t, b, hpend⟩

theorem Consistent.onCommit (hc : Consistent lost c) (maps : DamageMapping) (s : ℕ)
    (env : CommitEnvironment) : Consistent lost (onCommit maps c s env).2 := by
  rcases onCommit_cases maps c s env with ⟨-, -, c₀, hundone, heq | heq⟩ |
    ⟨-, -, messages, c₁, c₂, c₃, hbuild, hcopy, hwait, hfinal, heq⟩ <;> rw [heq]
  · exact hundone.consistent hc
  · exact (retireEligibleBuffers_spec (hundone.consistent hc)).1
  · obtain ⟨surfaces, r, rfl, hphase, hbuffers⟩ := forwarded_eq hcopy hwait hfinal
    exact (retireEligibleBuffers_spec ((hc.forwarded hphase hbuffers).queue_messages
      (buildSurfaceCommitMessages_quiet hbuild))).1

/-! ## The system -/

/-- The number of a buffer that a message announces for parameters nobody has any more. -/
def Context.Orphans (c : Context) (m : Message) : Set ℕ :=
  { buffer | ∃ params, m = .created params buffer ∧
    (c.orphanedDmabufParams.get params).isSome = true }

theorem consistent_new : Consistent lost .new := by
  have hlife : ∀ h, Context.hostLifetime .new h = if h = 1 then some .created else some .free := by
    intro h
    by_cases heq : h = 1
    · subst heq
      rfl
    · rw [if_neg heq]
      exact lifetime_cons_other (by simpa [LifetimeEvent.id, eq_comm] using heq) _
  have hguest : ∀ g, Context.new.shadowTable.guestToHost.get g = if g = 1 then some 1 else none :=
    fun g => by simp [Context.new, ShadowTable.new, ShadowTable.mapId, ShadowTable.trackInterface]
  have hhost : ∀ h, Context.new.shadowTable.hostToGuest.get h = if h = 1 then some 1 else none :=
    fun h => by simp [Context.new, ShadowTable.new, ShadowTable.mapId, ShadowTable.trackInterface]
  have hinterfaces : ∀ g, Context.new.shadowTable.interfaces.get g =
      if g = 1 then some .wlDisplay else none :=
    fun g => by simp [Context.new, ShadowTable.new, ShadowTable.mapId, ShadowTable.trackInterface]
  have hlisted : ∀ h, Context.new.shadowTable.hostInterfaces.get h = none := fun _ => rfl
  have hpending : Context.new.shadowTable.pendingDestroyGuestIds = ∅ := rfl
  have hwaits : Context.new.shadowTable.pendingDestroyHostIds = ∅ := rfl
  have hretired : Context.new.shadowTable.retiredHostIds = ∅ := rfl
  have hphase : ∀ h, Context.new.renderBuffers.phase h = none := fun _ => rfl
  constructor
  case attached => simp [Context.Pends, Context.new]
  case creating => simp [Context.new]
  case orphaned => simp [Context.new]
  case quiet => simp [Context.new]
  case live => grind [livePhase, guestServerId_of_lt, guestServerIdStart]
  all_goals
    simp only [hlife, hguest, hhost, hinterfaces, hlisted, hpending, hwaits, hretired, hphase,
      ShadowTable.Paired, ShadowTable.hostIdFree_iff]
    grind [ShadowTable.isGuestServerId, guestServerIdStart]

theorem step_eq_some {m : Message} : step maps c m = some c' ↔ hostConforms c m = true ∧
    (requestStep maps c m = some c' ∨ requestStep maps c m = none ∧ eventStep c m = some c') := by
  unfold step
  split_ifs with hconf
  · simp [hconf, Option.or_eq_some_iff]
  · simp [hconf]

theorem requestStep_consistent (hc : Consistent lost c) {m : Message}
    (h' : requestStep maps c m = some c') : Consistent lost c' := by
  cases m
  case newObject sender guestId i =>
    obtain ⟨hallowed, h'⟩ := guarded_eq_some.mp h'
    simp only [Bool.and_eq_true] at hallowed
    exact hc.mapNewId hallowed.2 (by rintro rfl; simp [Interface.isPlain] at hallowed) h'
  case newLocalObject guestId i version =>
    obtain ⟨hallowed, h'⟩ := guarded_eq_some.mp h'
    simp only [Bool.and_eq_true] at hallowed
    obtain ⟨-, hlt, hg, -⟩ := ShadowTable.isGuestIdAvailable_iff.mp hallowed.2
    obtain rfl := Option.some.inj h'
    refine hc.relabel (g := guestId) hg rfl rfl (fun g' hne => ?_) (fun i' hi => ?_) rfl
      (fun _ => Iff.rfl) rfl rfl
    · simp [ShadowTable.trackInterfaceWithVersion, hne]
    · simp only [ShadowTable.trackInterfaceWithVersion, Table.get_set, if_true] at hi
      obtain rfl := Option.some.inj hi
      refine ⟨?_, ?_, guestServerId_of_lt hlt⟩ <;> rintro rfl <;>
        simp [Interface.isLocalOnly] at hallowed
  case destroyObject guestId i =>
    obtain ⟨hallowed, h'⟩ := guarded_eq_some.mp h'
    simp only [Bool.and_eq_true] at hallowed
    obtain ⟨-, rfl⟩ := settle_eq_some.mp h'
    have hsender := senderAllowed_of_requestAllowed hallowed.2
    have hi : i ≠ .wlBuffer ∧ i ≠ .zwpLinuxBufferParamsV1 := by
      constructor <;> rintro rfl <;> simp [Interface.isPlain, Interface.isLocalOnly] at hallowed
    split_ifs
    · have hbooks : Consistent lost (poolOnDestroy c guestId).2 :=
        hc.frame ⟨rfl, rfl, rfl, rfl, fun _ => rfl⟩ fun _ => .inl
      exact hbooks.destroyPlain hsender hi.1 hi.2
    · have hbooks : Consistent lost (shmOnRelease c guestId).2 :=
        hc.frame ⟨rfl, rfl, rfl, rfl, fun _ => rfl⟩ fun _ => .inl
      exact hbooks.destroyPlain hsender hi.1 hi.2
    · exact hc.destroyPlain hsender hi.1 hi.2
  case createPool shm pool size bytes =>
    obtain ⟨hallowed, h'⟩ := guarded_eq_some.mp h'
    simp only [Bool.and_eq_true] at hallowed
    obtain ⟨-, rfl⟩ := settle_eq_some.mp h'
    exact hc.onCreatePool hallowed.2
  case createBuffer pool guestId request storage =>
    obtain ⟨hallowed, h'⟩ := guarded_eq_some.mp h'
    simp only [Bool.and_eq_true] at hallowed
    obtain ⟨⟨action, c₁⟩, h₁, hsettle⟩ := Option.bind_eq_some_iff.mp h'
    exact hc.onCreateBuffer hallowed.2 h₁ hsettle
  case destroyBuffer guestId =>
    obtain ⟨hallowed, h'⟩ := guarded_eq_some.mp h'
    obtain ⟨-, rfl⟩ := settle_eq_some.mp h'
    exact hc.bufferOnDestroy (senderAllowed_of_requestAllowed hallowed)
  case createParams factory params =>
    obtain ⟨hallowed, h'⟩ := guarded_eq_some.mp h'
    simp only [Bool.and_eq_true] at hallowed
    have hbooks : Consistent lost (onCreateParams c params).2 :=
      hc.frame ⟨rfl, rfl, rfl, rfl, fun _ => rfl⟩ fun _ => .inl
    exact hbooks.mapNewId hallowed.2 (by simp) h'
  case addPlane params plane duplicated =>
    obtain ⟨hallowed, h'⟩ := guarded_eq_some.mp h'
    obtain ⟨-, rfl⟩ := settle_eq_some.mp h'
    unfold onAdd
    split_ifs <;> first
      | exact hc
      | exact hc.frame ⟨rfl, rfl, rfl, rfl, fun _ => rfl⟩ fun _ => .inl
  case create params width height format duplicated =>
    obtain ⟨hallowed, h'⟩ := guarded_eq_some.mp h'
    obtain ⟨-, rfl⟩ := settle_eq_some.mp h'
    exact hc.onCreate (senderAllowed_of_requestAllowed hallowed)
  case createImmed params buffer width height format duplicated =>
    obtain ⟨hallowed, h'⟩ := guarded_eq_some.mp h'
    simp only [Bool.and_eq_true] at hallowed
    obtain ⟨⟨action, c₁⟩, h₁, hsettle⟩ := Option.bind_eq_some_iff.mp h'
    obtain ⟨hsafe, rfl⟩ := settle_eq_some.mp hsettle
    exact hc.onCreateImmed hallowed.2 h₁ hsafe
  case destroyParams params =>
    obtain ⟨hallowed, h'⟩ := guarded_eq_some.mp h'
    obtain ⟨-, rfl⟩ := settle_eq_some.mp h'
    exact hc.destroyParams (senderAllowed_of_requestAllowed hallowed)
  case attach surface buffer x y =>
    obtain ⟨-, hbuffer, offset, rfl⟩ := attach_eq_some h'
    exact (retireEligibleBuffers_spec (hc.withAttachment hbuffer offset)).1
  case damage surface rect =>
    obtain ⟨hallowed, h'⟩ := guarded_eq_some.mp h'
    obtain ⟨-, rfl⟩ := settle_eq_some.mp h'
    dsimp only [onDamage, onDamageBuffer, onOffset]
    exact hc.updateSurface surface fun _ => rfl
  case damageBuffer surface rect =>
    obtain ⟨hallowed, h'⟩ := guarded_eq_some.mp h'
    obtain ⟨-, rfl⟩ := settle_eq_some.mp h'
    dsimp only [onDamage, onDamageBuffer, onOffset]
    exact hc.updateSurface surface fun _ => rfl
  case setBufferScale surface scale =>
    obtain ⟨hallowed, h'⟩ := guarded_eq_some.mp h'
    obtain ⟨-, rfl⟩ := settle_eq_some.mp h'
    unfold onSetBufferScale
    split_ifs
    · exact hc.queueProtocolError
    · dsimp only
      exact hc.updateSurface surface fun _ => rfl
  case setBufferTransform surface transform =>
    obtain ⟨hallowed, h'⟩ := guarded_eq_some.mp h'
    obtain ⟨-, rfl⟩ := settle_eq_some.mp h'
    unfold onSetBufferTransform
    split_ifs
    · exact hc.queueProtocolError
    · dsimp only
      exact hc.updateSurface surface fun _ => rfl
  case offset surface x y =>
    obtain ⟨hallowed, h'⟩ := guarded_eq_some.mp h'
    obtain ⟨-, rfl⟩ := settle_eq_some.mp h'
    dsimp only [onDamage, onDamageBuffer, onOffset]
    exact hc.updateSurface surface fun _ => rfl
  case commit surface env =>
    obtain ⟨hallowed, h'⟩ := guarded_eq_some.mp h'
    obtain ⟨-, rfl⟩ := settle_eq_some.mp h'
    exact hc.onCommit maps surface env
  case destroySurface surface =>
    obtain ⟨hallowed, h'⟩ := guarded_eq_some.mp h'
    obtain ⟨-, rfl⟩ := settle_eq_some.mp h'
    exact hc.surfaceOnDestroy (senderAllowed_of_requestAllowed hallowed)
  case getViewport viewporter viewport surface =>
    obtain ⟨hallowed, h'⟩ := guarded_eq_some.mp h'
    simp only [Bool.and_eq_true] at hallowed
    obtain ⟨c₁, h₁, h'⟩ := Option.bind_eq_some_iff.mp h'
    obtain ⟨-, rfl⟩ := settle_eq_some.mp h₁
    obtain ⟨hnext, htable⟩ := hc.onGetViewport viewport surface
    exact hnext.mapNewId (by rw [htable]; exact hallowed.1.2) (by simp) h'
  case setSource viewport x y width height =>
    obtain ⟨hallowed, h'⟩ := guarded_eq_some.mp h'
    obtain ⟨-, rfl⟩ := settle_eq_some.mp h'
    exact hc.updateViewport ..
  case setDestination viewport width height =>
    obtain ⟨hallowed, h'⟩ := guarded_eq_some.mp h'
    obtain ⟨-, rfl⟩ := settle_eq_some.mp h'
    exact hc.updateViewport ..
  case destroyViewport viewport =>
    obtain ⟨hallowed, h'⟩ := guarded_eq_some.mp h'
    obtain ⟨-, rfl⟩ := settle_eq_some.mp h'
    obtain ⟨hnext, htable⟩ := hc.viewportOnDestroy viewport
    refine hnext.destroyPlain (i := .wpViewport) ?_ (by simp) (by simp)
    have hsender := senderAllowed_of_requestAllowed hallowed
    rw [senderAllowed_iff] at hsender ⊢
    rw [htable]
    exact hsender
  case writePool mapping bytes growth =>
    obtain rfl := Option.some.inj h'
    exact hc.frame ⟨rfl, rfl, rfl, rfl, fun _ => rfl⟩ fun _ => .inl
  all_goals simp [requestStep] at h'

theorem deliver_eq_some {sender opcode : ℕ} {i : Interface} {handle : Context → Option Context}
    (h' : deliver c sender opcode i handle = some c') : c' = c ∨
      c.eventInterface sender = some i ∧ pendingHostEventIsStale c sender opcode = false ∧
        handle c = some c' := by
  unfold deliver at h'
  split at h'
  · exact .inl (Option.some.inj h').symm
  · rename_i name hname
    split_ifs at h' with hi hstale
    · exact .inl (Option.some.inj h').symm
    · rw [ne_eq, not_not] at hi
      exact .inr ⟨hi ▸ hname, by simpa using hstale, h'⟩

theorem eventStep_consistent (hc : Consistent lost c) {m : Message}
    (hconf : hostConforms c m = true) (hlost : c.Orphans m ⊆ lost)
    (h' : eventStep c m = some c') : Consistent lost c' := by
  cases m
  case release buffer =>
    rw [eventStep] at h'
    obtain rfl | ⟨-, -, h'⟩ := deliver_eq_some h'
    · exact hc
    · obtain ⟨-, rfl⟩ := settle_eq_some.mp h'
      exact hc.bufferOnRelease
  case deleteId hostId =>
    obtain ⟨-, rfl⟩ := settle_eq_some.mp h'
    exact hc.onDeleteId (by simpa [hostConforms] using hconf)
  case created params buffer =>
    rw [eventStep] at h'
    obtain rfl | ⟨-, -, h'⟩ := deliver_eq_some h'
    · exact hc
    · obtain ⟨havail, h'⟩ := guarded_eq_some.mp h'
      simp only [hostConforms, Bool.and_eq_true, Bool.or_eq_true] at hconf
      have hfree : c.shadowTable.hostIdFree buffer = true := by
        simp only [ShadowTable.isHostIdAvailable, Bool.and_eq_true] at havail
        exact havail.2
      obtain ⟨p, hp, -⟩ | ⟨g, horph⟩ := hc.answer_cases hconf.2
      · rw [onCreated_awaited hc hfree hp] at h'
        obtain ⟨c₁, h₁, h'⟩ := Option.bind_eq_some_iff.mp h'
        obtain ⟨-, rfl⟩ := settle_eq_some.mp h₁
        exact hc.announceBuffer hfree hconf.1.1 h'
      · rw [onCreated_orphan havail horph] at h'
        obtain ⟨c₁, h₁, h'⟩ := Option.bind_eq_some_iff.mp h'
        obtain ⟨-, rfl⟩ := settle_eq_some.mp h₁
        obtain rfl := Option.some.inj h'
        exact hc.answerOrphan hfree (hlost ⟨params, rfl, by simp [horph]⟩) horph
  case failed params =>
    rw [eventStep] at h'
    obtain rfl | ⟨-, -, h'⟩ := deliver_eq_some h'
    · exact hc
    · obtain ⟨-, rfl⟩ := settle_eq_some.mp h'
      simp only [hostConforms, Bool.or_eq_true] at hconf
      exact hc.onFailed hconf
  case dataOffer device offer =>
    rw [eventStep] at h'
    obtain rfl | ⟨-, -, h'⟩ := deliver_eq_some h'
    · exact hc
    · obtain ⟨havail, h'⟩ := guarded_eq_some.mp h'
      simp only [hostConforms, Bool.and_eq_true] at hconf
      exact hc.dataOffer havail hconf.1 h'
  case shmGlobalRemoved =>
    obtain rfl := Option.some.inj h'
    exact hc.frame ⟨rfl, rfl, rfl, rfl, fun _ => rfl⟩ fun _ => .inl
  all_goals simp [eventStep] at h'

/-- Every message keeps the invariant. -/
theorem step_consistent (hc : Consistent lost c) {m : Message} (hlost : c.Orphans m ⊆ lost)
    (h' : step maps c m = some c') : Consistent lost c' := by
  obtain ⟨hconf, hrequest | ⟨-, hevent⟩⟩ := step_eq_some.mp h'
  · exact requestStep_consistent hc hrequest
  · exact eventStep_consistent hc hconf hlost hevent

theorem mapNewId_fatal {sender : ℕ} {i : Interface} (h' : mapNewId c sender g i = some c') :
    c'.fatalProtocolError = c.fatalProtocolError := by
  obtain ⟨_, -, heq⟩ := Option.bind_eq_some_iff.mp h'
  exact Option.some.inj heq ▸ rfl

theorem mapAnnouncedId_fatal {sender : ℕ} {i : Interface}
    (h' : mapAnnouncedId c sender h i = some c') :
    c'.fatalProtocolError = c.fatalProtocolError := by
  obtain ⟨_, -, heq⟩ := Option.bind_eq_some_iff.mp h'
  exact Option.some.inj heq ▸ rfl

theorem settle_safe (h' : settle c = some c') : c'.fatalProtocolError = false := by
  obtain ⟨hsafe, rfl⟩ := settle_eq_some.mp h'
  exact hsafe

theorem requestStep_safe (hsafe : c.fatalProtocolError = false) {m : Message}
    (h' : requestStep maps c m = some c') : c'.fatalProtocolError = false := by
  cases m
  case newObject sender guestId i =>
    exact (mapNewId_fatal (guarded_eq_some.mp h').2).trans hsafe
  case newLocalObject guestId i version =>
    exact Option.some.inj (guarded_eq_some.mp h').2 ▸ hsafe
  case createBuffer | createImmed =>
    obtain ⟨result, -, h'⟩ := Option.bind_eq_some_iff.mp (guarded_eq_some.mp h').2
    exact settle_safe h'
  case createParams factory params =>
    exact (mapNewId_fatal (guarded_eq_some.mp h').2).trans hsafe
  case getViewport viewporter viewport surface =>
    obtain ⟨c₁, h₁, h'⟩ := Option.bind_eq_some_iff.mp (guarded_eq_some.mp h').2
    exact (mapNewId_fatal h').trans (settle_safe h₁)
  case writePool => exact Option.some.inj h' ▸ hsafe
  all_goals first
    | exact settle_safe (guarded_eq_some.mp h').2
    | simp [requestStep] at h'

theorem eventStep_safe (hsafe : c.fatalProtocolError = false) {m : Message}
    (h' : eventStep c m = some c') : c'.fatalProtocolError = false := by
  cases m
  case release | failed =>
    rw [eventStep] at h'
    obtain rfl | ⟨-, -, h'⟩ := deliver_eq_some h'
    · exact hsafe
    · exact settle_safe h'
  case deleteId => exact settle_safe h'
  case created params buffer =>
    rw [eventStep] at h'
    obtain rfl | ⟨-, -, h'⟩ := deliver_eq_some h'
    · exact hsafe
    · replace h' := (guarded_eq_some.mp h').2
      rcases hres : onCreated c params buffer with ⟨action, c₀⟩
      rw [hres] at h'
      obtain ⟨c₁, h₁, h'⟩ := Option.bind_eq_some_iff.mp h'
      split_ifs at h'
      · exact (mapAnnouncedId_fatal h').trans (settle_safe h₁)
      · exact Option.some.inj h' ▸ settle_safe h₁
  case dataOffer device offer =>
    rw [eventStep] at h'
    obtain rfl | ⟨-, -, h'⟩ := deliver_eq_some h'
    · exact hsafe
    · exact (mapAnnouncedId_fatal (guarded_eq_some.mp h').2).trans hsafe
  case shmGlobalRemoved => exact Option.some.inj h' ▸ hsafe
  all_goals simp [eventStep] at h'

/-- A session that goes on had no fatal error. -/
theorem safe_of_reachable (hr : (objectSystem maps).Reachable c) :
    c.fatalProtocolError = false := by
  refine hr.invariant (I := fun c => c.fatalProtocolError = false) (fun s hinit => ?_)
    fun s m t _ hs _ ht => ?_
  · rw [show s = .new from hinit]
    rfl
  · obtain ⟨-, hrequest | ⟨-, hevent⟩⟩ := step_eq_some.mp ht
    · exact requestStep_safe hs hrequest
    · exact eventStep_safe hs hevent

/-- Sessions stay consistent, and lose only the numbers of orphaned buffers. -/
theorem consistent_of_reachableWhile
    (hr : (objectSystem maps).ReachableWhile (fun c m => c.Orphans m ⊆ lost) c) :
    Consistent lost c := by
  refine hr.invariant (fun s hinit => ?_) fun s m t _ hs hlost ht => ?_
  · rw [show s = .new from hinit]
    exact consistent_new
  · exact step_consistent hs hlost ht

/-- Every reachable session is consistent. -/
theorem consistent_of_reachable (hr : (objectSystem maps).Reachable c) :
    Consistent Set.univ c :=
  consistent_of_reachableWhile (hr.mono fun _ _ _ => Set.subset_univ _)

end Sommelier
