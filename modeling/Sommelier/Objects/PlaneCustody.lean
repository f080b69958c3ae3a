import Sommelier.Objects.DmabufSystem

/-!
# Custody of descriptors

Every descriptor the proxy duplicates for a plane is in one place until it is closed or sent:
with the planes that are collected, in the queue, with a creation the host has not answered, or
with the native buffer that came of it.

## Main definitions

* `DmabufSession.everywhere`: the descriptors of all places.
* `DmabufSession.Kept`: nothing is lost or in two places, and what holds descriptors exists.
* `DmabufSession.LeftBy`: the sessions a last message may leave.

## Main results

* `descriptors_kept`: the descriptors of every run.
* `disconnect_closes`: the end of a connection closes every descriptor that was not sent, once.
-/
namespace Sommelier

/-- Numbers in order are a range after a range. -/
theorem range_add_range' (k n : ℕ) :
    Multiset.range (k + n) = Multiset.range k + (List.range' k n : Multiset ℕ) := by
  have split := @List.range'_append_1 0 k n
  rw [Nat.zero_add] at split
  rw [Multiset.range, Multiset.range, Multiset.coe_add, List.range_eq_range', List.range_eq_range',
    split]

/-- The descriptor that goes with a request. -/
def ParamsRequest.fd? : ParamsRequest → Option ℕ
  | add _ _ fd => some fd
  | _ => none

namespace DmabufSession

/-- The descriptors that go with the requests, in the order of the requests. -/
def carried (s : DmabufSession) : List ℕ := s.requests.reverse.filterMap ParamsRequest.fd?

/-- The descriptors of all places. -/
def everywhere (s : DmabufSession) : Multiset ℕ :=
  s.paramFds.held + s.createFds.held + s.bufferFds.held + s.queued + s.sent + s.closed

/-- Every descriptor is in one place, or it is one of the `loose` ones a handler has in its hands;
and every place that holds descriptors belongs to something that exists. -/
structure Kept (s : DmabufSession) (loose : List ℕ) : Prop where
  total : s.everywhere + loose = Multiset.range s.nextFd
  carried : s.carried = s.sent ++ s.queued
  planes : ∀ p, (s.paramFds.get p).map List.length = (s.context.pendingParams.get p).map List.length
  creates : ∀ h, (s.createFds.get h).isSome = (s.context.pendingNativeCreates.get h).isSome
  buffers : ∀ h, (s.bufferFds.get h).isSome = true → s.context.isNative h = true

/-- Nothing is sent about parameters that are not on the host. -/
theorem processParams_unmapped (s : DmabufSession) {p : ℕ} (dups : ℕ) (create : ℕ → ParamsRequest)
    (hhost : s.context.shadowTable.getHostId p = none) :
    (s.processParams p dups create).1 = none := by
  unfold processParams
  cases s.context.pendingParams.get p with
  | none => rfl
  | some params => simp [takeParams, hhost]

/-- What leaves the session is closed. -/
theorem follow_everywhere (s : DmabufSession) (context : Context) :
    (s.follow context).everywhere = s.everywhere := by
  simp only [everywhere, DmabufSession.follow, DmabufSession.close, ← Multiset.coe_add,
    Table.coe_flatten]
  rw [s.createFds.held_retain fun h _ => (context.pendingNativeCreates.get h).isSome,
    s.bufferFds.held_retain fun h _ => context.isNative h]
  abel

theorem flush_everywhere (s : DmabufSession) : s.flush.everywhere = s.everywhere := by
  simp only [everywhere, DmabufSession.flush, ← Multiset.coe_add, Multiset.coe_nil]
  abel

namespace Kept
variable {s : DmabufSession} {fds loose : List ℕ} {context : Context} {p h n : ℕ}

/-- Nothing is in the hands of a handler. -/
theorem everywhere_eq (hk : s.Kept []) : s.everywhere = Multiset.range s.nextFd := by
  have htotal := hk.total
  rwa [Multiset.coe_nil, add_zero] at htotal

/-! ## Operations -/

/-- What the rest of the session does. -/
theorem withContext (hk : s.Kept loose) (hpending : context.pendingParams = s.context.pendingParams)
    (hcreates : context.pendingNativeCreates = s.context.pendingNativeCreates)
    (hbuffers : ∀ h, s.context.isNative h = true → context.isNative h = true) :
    ({ s with context } : DmabufSession).Kept loose :=
  ⟨hk.total, hk.carried, fun p => hpending ▸ hk.planes p, fun h => hcreates ▸ hk.creates h,
    fun h hh => hbuffers h (hk.buffers h hh)⟩

/-- The order of the loose ones does not matter. -/
theorem perm {loose' : List ℕ} (hk : s.Kept loose) (hperm : loose.Perm loose') :
    s.Kept loose' :=
  ⟨Multiset.coe_eq_coe.mpr hperm ▸ hk.total, hk.carried, hk.planes, hk.creates, hk.buffers⟩

theorem request (hk : s.Kept loose) {r : ParamsRequest} (hr : r.fd? = none) :
    (s.request r).Kept loose := by
  refine ⟨hk.total, ?_, hk.planes, hk.creates, hk.buffers⟩
  have hcarried := hk.carried
  simpa [DmabufSession.carried, DmabufSession.request, hr] using hcarried

theorem fatal (hk : s.Kept loose) : s.fatal.Kept loose :=
  ⟨hk.total, hk.carried, hk.planes, hk.creates, hk.buffers⟩

theorem queueProtocolError (hk : s.Kept loose) (objectId code : ℕ) :
    (s.queueProtocolError objectId code).Kept loose :=
  ⟨hk.total, hk.carried, hk.planes, hk.creates, hk.buffers⟩

theorem close (hk : s.Kept (fds ++ loose)) : (s.close fds).Kept loose := by
  refine ⟨?_, hk.carried, hk.planes, hk.creates, hk.buffers⟩
  have htotal := hk.total
  simp only [everywhere, DmabufSession.close, ← Multiset.coe_add] at htotal ⊢
  rw [← htotal]
  abel

theorem duplicate (hk : s.Kept loose) (n : ℕ) :
    (s.duplicate n).2.Kept ((s.duplicate n).1 ++ loose) := by
  refine ⟨?_, hk.carried, hk.planes, hk.creates, hk.buffers⟩
  have htotal := hk.total
  simp only [everywhere, DmabufSession.duplicate, ← Multiset.coe_add] at htotal ⊢
  rw [range_add_range', ← htotal]
  abel

theorem takeParams (hk : s.Kept loose) (p : ℕ) :
    (s.takeParams p).2.Kept ((s.takeParams p).1 ++ loose) := by
  refine ⟨?_, hk.carried, fun p' => ?_, hk.creates, hk.buffers⟩
  · have htotal := hk.total
    simp only [everywhere, DmabufSession.takeParams, ← Multiset.coe_add] at htotal ⊢
    rw [← htotal, s.paramFds.held_erase p]
    abel
  · have hplanes := hk.planes p'
    simp only [DmabufSession.takeParams, Table.get_erase]
    split_ifs
    · rfl
    · exact hplanes

theorem discardPendingParams (hk : s.Kept loose) (p : ℕ) : (s.discardPendingParams p).Kept loose :=
  (hk.takeParams p).close

theorem takeCreate (hk : s.Kept loose) (h : ℕ) :
    (s.takeCreate h).2.Kept ((s.takeCreate h).1 ++ loose) := by
  refine ⟨?_, hk.carried, hk.planes, fun h' => ?_, hk.buffers⟩
  · have htotal := hk.total
    simp only [everywhere, DmabufSession.takeCreate, ← Multiset.coe_add] at htotal ⊢
    rw [← htotal, s.createFds.held_erase h]
    abel
  · have hcreates := hk.creates h'
    simp only [DmabufSession.takeCreate, Table.get_erase]
    split_ifs
    · rfl
    · exact hcreates

theorem dropCreate (hk : s.Kept loose) (h : ℕ) : (s.dropCreate h).Kept loose :=
  (hk.takeCreate h).close

theorem forgetParams (hk : s.Kept loose) (h : ℕ) : (s.forgetParams h).Kept loose := by
  have hforget : ({ s with context.orphanedDmabufParams :=
      s.context.orphanedDmabufParams.erase h } : DmabufSession).Kept loose :=
    ⟨hk.total, hk.carried, hk.planes, hk.creates, hk.buffers⟩
  exact hforget.dropCreate h

/-- A buffer that is not registered has no descriptors, so that none are lost. -/
theorem bufferFds_none (hk : s.Kept loose) (hnone : s.context.renderBuffers.get h = none) :
    s.bufferFds.get h = none := by
  cases hfds : s.bufferFds.get h with
  | none => rfl
  | some fds =>
    have hnative := hk.buffers h (by simp [hfds])
    simp [Context.isNative, RenderBufferRegistry.activeBuffer, hnone] at hnative

theorem registerNativeBuffer (hk : s.Kept (fds ++ loose)) (h : ℕ) (size : ℤ × ℤ) :
    (s.registerNativeBuffer h size fds).2.Kept loose := by
  unfold DmabufSession.registerNativeBuffer RenderBufferRegistry.registerNative
    RenderBufferRegistry.registerBacking
  cases hget : s.context.renderBuffers.get h with
  | some buffer => exact hk.close
  | none =>
    have hnone := hk.bufferFds_none hget
    refine ⟨?_, hk.carried, hk.planes, hk.creates, fun h' hh' => ?_⟩
    · have htotal := hk.total
      simp only [if_true, everywhere, ← Multiset.coe_add] at htotal ⊢
      rw [← htotal, Table.held_set_of_none hnone]
      abel
    · by_cases heq : h' = h
      · subst heq
        simp [Context.isNative, RenderBufferRegistry.activeBuffer, RenderBuffer.active]
      · have hnative := hk.buffers h' (by simpa [heq] using hh')
        simpa [Context.isNative, RenderBufferRegistry.activeBuffer, heq] using hnative

/-- The queued planes take their descriptors along. -/
theorem queuePlanes (hk : s.Kept (fds ++ loose)) (hostId : ℕ) {params : List PendingParam}
    (hlength : fds.length = params.length) :
    ((params.zip fds).foldl (queueAdd hostId) s).Kept loose := by
  have hfds : (params.zip fds).map Prod.snd = fds := List.map_snd_zip hlength.le
  rw [foldl_queueAdd]
  refine ⟨?_, ?_, hk.planes, hk.creates, hk.buffers⟩
  · have htotal := hk.total
    simp only [everywhere, hfds, ← Multiset.coe_add] at htotal ⊢
    rw [← htotal]
    abel
  · have hcarried := hk.carried
    simp only [DmabufSession.carried, List.reverse_append, List.reverse_reverse,
      List.filterMap_append, List.filterMap_map] at hcarried ⊢
    rw [hcarried, List.append_assoc]
    congr 2
    rw [← List.filterMap_eq_map]
    rfl

/-- A creation that is sent leaves the further duplicates with the handler. -/
theorem processParams (hk : s.Kept loose) (p dups : ℕ) (create : ℕ → ParamsRequest)
    (hcreate : ∀ hostId, (create hostId).fd? = none) :
    (s.processParams p dups create).2.Kept
      (((s.processParams p dups create).1.map Prod.snd).getD [] ++ loose) := by
  unfold DmabufSession.processParams
  cases hparams : s.context.pendingParams.get p with
  | none => exact hk
  | some params =>
    have htake := hk.takeParams p
    have hlength : (s.takeParams p).1.length = params.length := by
      have hplanes := hk.planes p
      rw [hparams] at hplanes
      obtain ⟨fds, hfds, hlength⟩ := Option.map_eq_some_iff.mp hplanes
      simpa [DmabufSession.takeParams, hfds] using hlength
    cases hhost : (s.takeParams p).2.context.shadowTable.getHostId p with
    | none =>
      simp only [hhost]
      exact htake.close.fatal
    | some hostId =>
      have hdup := htake.duplicate (min dups params.length)
      simp only [hhost]
      split_ifs
      · refine Kept.fatal (Kept.close ?_)
        rw [List.append_assoc]
        exact hdup
      · have hcomm : (List.range' s.nextFd (min dups params.length) ++
            ((s.takeParams p).1 ++ loose)).Perm
            ((s.takeParams p).1 ++ (List.range' s.nextFd (min dups params.length) ++ loose)) := by
          rw [← List.append_assoc, ← List.append_assoc]
          exact List.perm_append_comm.append_right _
        have hqueue := (hdup.perm hcomm).queuePlanes hostId hlength
        have hrequest := hqueue.request (hcreate hostId)
        exact ⟨hrequest.total, hrequest.carried, hrequest.planes, hrequest.creates,
          hrequest.buffers⟩

/-! ## Requests -/

theorem onCreateParams (hk : s.Kept loose) (p : ℕ) : (s.onCreateParams p).2.Kept loose := by
  refine Kept.close ⟨?_, hk.carried, fun p' => ?_, hk.creates, hk.buffers⟩
  · have htotal := hk.total
    simp only [everywhere, ← Multiset.coe_add] at htotal ⊢
    rw [← htotal, s.paramFds.held_erase p, Table.held_set]
    simp only [Multiset.coe_nil]
    abel
  · have hplanes := hk.planes p'
    simp only [Table.get_set]
    split_ifs
    · rfl
    · exact hplanes

theorem onAdd (hk : s.Kept loose) (p : ℕ) (fd : ℤ) (param : PendingParam) (duplicated : Bool)
    (allocator : Option Plane0Device) :
    (s.onAdd p fd param duplicated allocator).2.Kept loose := by
  unfold DmabufSession.onAdd
  split_ifs
  · exact hk
  · exact hk.queueProtocolError ..
  · exact hk.queueProtocolError ..
  · exact hk.queueProtocolError ..
  · exact hk
  · have hdup := hk.duplicate 1
    cases hparams : s.context.pendingParams.get p with
    | none =>
      simp only [DmabufSession.duplicate, hparams]
      exact hdup.close
    | some params =>
      have hplanes := hk.planes p
      rw [hparams] at hplanes
      obtain ⟨fds, hfds, hlength⟩ := Option.map_eq_some_iff.mp hplanes
      simp only [DmabufSession.duplicate, hparams, hfds, Option.getD_some]
      refine ⟨?_, hdup.carried, fun p' => ?_, hdup.creates, hdup.buffers⟩
      · have htotal := hdup.total
        simp only [everywhere, DmabufSession.duplicate, ← Multiset.coe_add] at htotal ⊢
        rw [← htotal, Table.held_append hfds]
        abel
      · have hplanes' := hk.planes p'
        simp only [Table.get_set]
        split_ifs
        · simp [hlength]
        · exact hplanes'

theorem onCreate (hk : s.Kept loose) (p : ℕ) (width height : ℤ) (format flags dups : ℕ) :
    (s.onCreate p width height format flags dups).2.Kept loose := by
  unfold DmabufSession.onCreate
  split_ifs
  · exact hk.queueProtocolError ..
  · exact (hk.queueProtocolError ..).discardPendingParams p
  · have hprocess := hk.processParams p dups (.create · width height format flags)
      fun _ => rfl
    rcases hs : s.processParams p dups (.create · width height format flags) with
      ⟨_ | ⟨hostParamsId, syncFds⟩, s'⟩
    · rw [hs] at hprocess
      exact hprocess
    · rw [hs] at hprocess
      cases hpending : s'.context.pendingNativeCreates.get hostParamsId with
      | some pending =>
        simp only [hpending]
        exact hprocess.close.fatal
      | none =>
        simp only [hpending]
        refine ⟨?_, hprocess.carried, hprocess.planes, fun h' => ?_, hprocess.buffers⟩
        · have htotal := hprocess.total
          have hnone : s'.createFds.get hostParamsId = none := by
            have hcreates := hprocess.creates hostParamsId
            simpa [hpending] using hcreates
          simp only [everywhere, Option.map_some, Option.getD_some, ← Multiset.coe_add]
            at htotal ⊢
          rw [← htotal, Table.held_set_of_none hnone]
          abel
        · have hcreates := hprocess.creates h'
          simp only [Table.get_set]
          split_ifs
          · rfl
          · exact hcreates

theorem onCreateImmed (hk : s.Kept loose) {p buffer : ℕ} {width height : ℤ}
    {format flags dups : ℕ} {result : Action × DmabufSession}
    (h' : s.onCreateImmed p buffer width height format flags dups = some result) :
    result.2.Kept loose := by
  unfold DmabufSession.onCreateImmed at h'
  split_ifs at h' with hused hnone hhost hvalid
  · exact Option.some.inj h' ▸ hk.queueProtocolError ..
  · exact Option.some.inj h' ▸ hk
  · have hprocess := hk.processParams p dups (.create · width height format flags)
      fun _ => rfl
    rcases hs : s.processParams p dups (.create · width height format flags) with
      ⟨_ | ⟨hostParamsId, syncFds⟩, s'⟩
    · rw [hs] at hprocess h'
      exact Option.some.inj h' ▸ hprocess
    · have hnothing := s.processParams_unmapped dups (.create · width height format flags)
        (Option.isNone_iff_eq_none.mp hhost)
      rw [hs] at hnothing
      simp at hnothing
  · exact Option.some.inj h' ▸ (hk.queueProtocolError ..).discardPendingParams p
  · obtain ⟨⟨hostBufferId, t⟩, -, hprocess⟩ := Option.bind_eq_some_iff.mp h'
    dsimp only at hprocess
    have hmapped : ({ s with
        context.shadowTable := t.registerObject buffer hostBufferId .wlBuffer
          ((t.guestObjectVersion p).getD unknownObjectVersion)
          ((t.guestObjectVersion p).getD unknownObjectVersion) } : DmabufSession).Kept loose :=
      hk.withContext rfl rfl fun _ => id
    have hregister := hmapped.processParams p dups
      (.createImmed · hostBufferId width height format flags) fun _ => rfl
    rcases hs : DmabufSession.processParams _ p dups
        (.createImmed · hostBufferId width height format flags) with
      ⟨_ | ⟨hostParamsId, syncFds⟩, s'⟩
    · rw [hs] at hprocess hregister
      exact Option.some.inj hprocess ▸ hregister.withContext rfl rfl fun _ => id
    · rw [hs] at hprocess hregister
      obtain rfl := Option.some.inj hprocess
      have hqueue : ({ s' with context := s'.context.queue (.create hostBufferId) } :
          DmabufSession).Kept (syncFds ++ loose) := hregister.withContext rfl rfl fun _ => id
      have hbuffer := hqueue.registerNativeBuffer hostBufferId (width, height)
      dsimp only
      split_ifs
      · exact hbuffer
      · exact hbuffer.fatal

theorem onDestroy (hk : s.Kept loose) (p : ℕ) : (s.onDestroy p).2.Kept loose := by
  unfold DmabufSession.onDestroy
  refine Kept.discardPendingParams ?_ p
  dsimp only
  cases s.context.shadowTable.getHostId p with
  | none => exact hk.withContext rfl rfl fun _ => id
  | some hostId =>
    dsimp only
    cases s.context.pendingNativeCreates.get hostId with
    | none => exact hk.withContext rfl rfl fun _ => id
    | some pending =>
      have hdrop := hk.dropCreate hostId
      exact hdrop.withContext rfl rfl fun _ => id

/-! ## Answers of the host -/

theorem releaseOrphanedParams (hk : s.Kept loose) (h : ℕ) :
    ({ s with context := Sommelier.releaseOrphanedParams s.context h } :
      DmabufSession).Kept loose := by
  unfold Sommelier.releaseOrphanedParams
  split_ifs
  · exact hk.withContext rfl rfl fun _ => id
  · exact hk

theorem onCreated (hk : s.Kept loose) (h buffer : ℕ) : (s.onCreated h buffer).2.Kept loose := by
  unfold DmabufSession.onCreated
  have horphan : ({ s with context := destroyOrphanedBuffer s.context h buffer } :
      DmabufSession).Kept loose := hk.withContext rfl rfl fun _ => id
  by_cases horphaned : (s.context.orphanedDmabufParams.get h).isSome = true
  · rw [if_pos horphaned]
    split_ifs
    · exact hk.fatal
    · exact (horphan.forgetParams h).releaseOrphanedParams h
  · rw [if_neg horphaned]
    cases s.context.shadowTable.getGuestId h with
    | none => exact hk
    | some guestParamsId =>
      dsimp only
      split
      · split_ifs
        · exact hk.fatal
        · exact horphan.forgetParams h
      · cases s.context.pendingNativeCreates.get h with
        | none => exact hk
        | some pending =>
          dsimp only
          have htake := hk.takeCreate h
          split_ifs
          · exact htake.close.fatal
          · exact htake.registerNativeBuffer ..
          · exact (htake.registerNativeBuffer ..).fatal

theorem onFailed (hk : s.Kept loose) (h : ℕ) : (s.onFailed h).2.Kept loose := by
  unfold DmabufSession.onFailed
  split_ifs
  · exact (hk.forgetParams h).releaseOrphanedParams h
  · cases s.context.shadowTable.getGuestId h with
    | none => exact hk
    | some guestParamsId =>
      dsimp only
      split_ifs
      · exact hk.forgetParams h
      · cases s.context.pendingNativeCreates.get h with
        | none => exact hk
        | some pending =>
          dsimp only
          split_ifs
          · exact (hk.dropCreate h).fatal
          · exact hk.dropCreate h

/-! ## Messages -/

theorem forwardCreateParams {s' : DmabufSession} (hk : s.Kept loose) {factory : ℕ}
    (h' : s.forwardCreateParams factory p = some s') : s'.Kept loose := by
  obtain ⟨context, hmap, rfl⟩ := Option.map_eq_some_iff.mp h'
  obtain ⟨⟨_, t⟩, -, heq⟩ := Option.bind_eq_some_iff.mp hmap
  obtain rfl := Option.some.inj heq
  refine Kept.request ?_ rfl
  exact hk.withContext rfl rfl fun _ => id

theorem forwardDestroy (hk : s.Kept loose) (p : ℕ) : (s.forwardDestroy p).Kept loose := by
  obtain ⟨t, traffic, heq⟩ := destroyPlain_eq s.context p
  have hdestroy : ({ s with context := destroyPlain s.context p } : DmabufSession).Kept loose := by
    rw [heq]
    exact hk.withContext rfl rfl fun _ => id
  unfold DmabufSession.forwardDestroy
  dsimp only
  split
  · exact hdestroy
  · exact hdestroy.request rfl

/-- The rest of a message keeps the planes, and what it drops has no descriptors left. -/
theorem follow (hk : s.Kept []) (hspares : SparesParams s.context context) :
    (s.follow context).Kept [] := by
  refine ⟨?_, hk.carried, fun p => ?_, fun h => ?_, fun h hh => ?_⟩
  · rw [Multiset.coe_nil, add_zero]
    exact (s.follow_everywhere context).trans hk.everywhere_eq
  · have hplanes := hk.planes p
    rw [← hspares.pending] at hplanes
    exact hplanes
  · have hcreates := hk.creates h
    have hsubset := hspares.creates h
    simp only [DmabufSession.follow, DmabufSession.close, Table.get_retain]
    cases hnew : context.pendingNativeCreates.get h with
    | none => simp
    | some pending =>
      have hold := hsubset (by simp [hnew])
      rw [← Option.isSome_iff_ne_none, ← hcreates] at hold
      obtain ⟨fds, hfds⟩ := Option.isSome_iff_exists.mp hold
      simp [hfds]
  · simp only [DmabufSession.follow, DmabufSession.close, Table.get_retain] at hh
    cases hfds : s.bufferFds.get h with
    | none => simp [hfds] at hh
    | some fds => simpa [hfds, Option.filter] using hh

theorem flush (hk : s.Kept loose) : s.flush.Kept loose := by
  refine ⟨?_, ?_, hk.planes, hk.creates, hk.buffers⟩
  · rw [flush_everywhere]
    exact hk.total
  · have hcarried := hk.carried
    simpa [DmabufSession.carried, DmabufSession.flush] using hcarried

theorem settle {s' : DmabufSession} (hk : s.Kept loose) (h' : s.settle = some s') :
    s'.Kept loose := by
  obtain ⟨-, rfl⟩ := settle_eq_some.mp h'
  exact hk

/-- One message moves descriptors from place to place. -/
theorem step {maps : DamageMapping} {m : DmabufMessage} {s' : DmabufSession} (hk : s.Kept [])
    (hc : Consistent Set.univ s.context) (h' : s.step maps m = some s') : s'.Kept [] := by
  cases m with
  | createParams factory params =>
    exact (hk.onCreateParams params).forwardCreateParams (DmabufSession.guarded_eq_some.mp h').2
  | add params fd param duplicated allocator =>
    exact (hk.onAdd params fd param duplicated allocator).settle
      (DmabufSession.guarded_eq_some.mp h').2
  | create params width height format flags dups =>
    exact (hk.onCreate params width height format flags dups).settle
      (DmabufSession.guarded_eq_some.mp h').2
  | createImmed params buffer width height format flags dups =>
    obtain ⟨result, hresult, hsettle⟩ :=
      Option.bind_eq_some_iff.mp (DmabufSession.guarded_eq_some.mp h').2
    exact (hk.onCreateImmed hresult).settle hsettle
  | destroyParams params =>
    exact ((hk.onDestroy params).forwardDestroy params).settle
      (DmabufSession.guarded_eq_some.mp h').2
  | created params buffer =>
    rcases deliver_eq_some (DmabufSession.guarded_eq_some.mp h').2 with rfl | hhandled
    · exact hk
    · have hcreated := hk.onCreated params buffer
      rcases announced_eq_some (DmabufSession.guarded_eq_some.mp hhandled).2 with
        rfl | ⟨-, context, hannounce, rfl⟩
      · exact hcreated
      · obtain ⟨⟨_, t⟩, -, heq⟩ := Option.bind_eq_some_iff.mp hannounce
        obtain rfl := Option.some.inj heq
        exact hcreated.withContext rfl rfl fun _ => id
  | failed params =>
    rcases deliver_eq_some (DmabufSession.guarded_eq_some.mp h').2 with rfl | hhandled
    · exact hk
    · exact (hk.onFailed params).settle hhandled
  | other m =>
    obtain ⟨hm, hstep⟩ := DmabufSession.guarded_eq_some.mp h'
    obtain ⟨c, hcontext, rfl⟩ := Option.map_eq_some_iff.mp hstep
    exact hk.follow (step_sparesParams hc (by simpa using hm) hcontext)
  | flush => exact Option.some.inj h' ▸ hk.flush

end Kept

/-- The connection ends: whatever is still owned is closed, once. -/
theorem disconnect_total {s : DmabufSession} (htotal : s.everywhere = Multiset.range s.nextFd) :
    (s.disconnect.closed : Multiset ℕ) + s.sent = Multiset.range s.nextFd := by
  have hnodup : (s.queued ++ s.paramFds.flatten).Nodup := by
    rw [← Multiset.coe_nodup, ← Multiset.coe_add, Table.coe_flatten]
    refine Multiset.nodup_of_le ?_ (Multiset.nodup_range s.nextFd)
    rw [← htotal, everywhere, Multiset.le_iff_exists_add]
    exact ⟨s.createFds.held + s.bufferFds.held + s.sent + s.closed, by abel⟩
  simp only [everywhere] at htotal
  simp only [DmabufSession.disconnect, DmabufSession.close, hnodup.dedup, ← Multiset.coe_add,
    Table.coe_flatten]
  rw [← htotal]
  abel

/-- What a message can leave when the session ends with it: the session as it was where the
message is refused, and what its handler did otherwise. A handler of other messages may leave any
objects. The error of the handler may still be sent, and what is queued with it. -/
inductive LeftBy (s : DmabufSession) : DmabufMessage → DmabufSession → Prop
  | refused (m : DmabufMessage) : LeftBy s m s
  | createParams (factory params : ℕ) :
    LeftBy s (.createParams factory params) (s.onCreateParams params).2
  | add (params : ℕ) (fd : ℤ) (param : PendingParam) (duplicated : Bool)
      (allocator : Option Plane0Device) :
    LeftBy s (.add params fd param duplicated allocator)
      (s.onAdd params fd param duplicated allocator).2
  | create (params : ℕ) (width height : ℤ) (format flags dups : ℕ) :
    LeftBy s (.create params width height format flags dups)
      (s.onCreate params width height format flags dups).2
  | createImmed {params buffer : ℕ} {width height : ℤ} {format flags dups : ℕ}
      {result : Action × DmabufSession}
      (h : s.onCreateImmed params buffer width height format flags dups = some result) :
    LeftBy s (.createImmed params buffer width height format flags dups) result.2
  | destroyParams (params : ℕ) :
    LeftBy s (.destroyParams params) ((s.onDestroy params).2.forwardDestroy params)
  | created (params buffer : ℕ) :
    LeftBy s (.created params buffer) (s.onCreated params buffer).2
  | failed (params : ℕ) : LeftBy s (.failed params) (s.onFailed params).2
  | other (m : Message) (context : Context) : LeftBy s (.other m) (s.follow context)
  | flush {m : DmabufMessage} {s' : DmabufSession} (h : LeftBy s m s') : LeftBy s m s'.flush

/-- Whatever a handler does, every descriptor stays in one place. -/
theorem LeftBy.total {s s' : DmabufSession} {m : DmabufMessage} (hleft : s.LeftBy m s')
    (hk : s.Kept []) : s'.everywhere = Multiset.range s'.nextFd := by
  induction hleft with
  | refused => exact hk.everywhere_eq
  | createParams factory params => exact (hk.onCreateParams params).everywhere_eq
  | add params fd param duplicated allocator => exact (hk.onAdd ..).everywhere_eq
  | create params width height format flags dups => exact (hk.onCreate ..).everywhere_eq
  | createImmed h => exact (hk.onCreateImmed h).everywhere_eq
  | destroyParams params => exact ((hk.onDestroy params).forwardDestroy params).everywhere_eq
  | created params buffer => exact (hk.onCreated params buffer).everywhere_eq
  | failed params => exact (hk.onFailed params).everywhere_eq
  | other m context => exact (s.follow_everywhere context).trans hk.everywhere_eq
  | flush _ ih => exact (flush_everywhere _).trans ih

theorem kept_new : new.Kept [] where
  total := rfl
  carried := rfl
  planes _ := rfl
  creates _ := rfl
  buffers _ h := by simp [new] at h

end DmabufSession

open DmabufSession

variable {maps : DamageMapping} {s : DmabufSession}

theorem kept_of_reachable (hs : (dmabufSystem maps).Reachable s) : s.Kept [] := by
  have hboth : s.Kept [] ∧ (objectSystem maps).Reachable s.context := by
    refine hs.invariant (I := fun s => s.Kept [] ∧ (objectSystem maps).Reachable s.context)
      ?_ ?_
    · rintro s rfl
      exact ⟨kept_new, .init rfl⟩
    · rintro s m s' _ ⟨hk, hreach⟩ - hstep
      exact ⟨hk.step (consistent_of_reachable hreach) hstep, follow_reachable hreach hstep⟩
  exact hboth.1

/-- In every session, whose host follows the rules for object IDs, each descriptor the proxy ever
duplicated is in exactly one place, and each plane the host is told about has a descriptor of its
own, sent in the order of the requests. Planes have one descriptor each, an unanswered creation
has its own, and a native buffer keeps them only while it may still be used. -/
theorem descriptors_kept (hs : (dmabufSystem maps).Reachable s) :
    s.everywhere = Multiset.range s.nextFd ∧
    s.carried = s.sent ++ s.queued ∧ s.carried.Nodup ∧
    (∀ p, (s.paramFds.get p).map List.length =
      (s.context.pendingParams.get p).map List.length) ∧
    (∀ h, (s.createFds.get h).isSome = (s.context.pendingNativeCreates.get h).isSome) ∧
    ∀ h, (s.bufferFds.get h).isSome = true → s.context.isNative h = true := by
  have hk := kept_of_reachable hs
  have htotal := hk.everywhere_eq
  refine ⟨htotal, hk.carried, ?_, hk.planes, hk.creates, hk.buffers⟩
  rw [hk.carried, ← Multiset.coe_nodup, ← Multiset.coe_add]
  refine Multiset.nodup_of_le ?_ (Multiset.nodup_range s.nextFd)
  rw [← htotal, everywhere, Multiset.le_iff_exists_add]
  exact ⟨s.paramFds.held + s.createFds.held + s.bufferFds.held + s.closed, by abel⟩

/-- One buffer the host made of a plane, and a plane of further parameters. -/
def importRun : List DmabufMessage :=
  [.other (.newObject 1 2 .wlRegistry), .other (.newObject 2 3 .zwpLinuxDmabufV1),
    .createParams 3 4, .add 4 20 ⟨0, 0, 4, 0⟩ true none, .create 4 1 1 0x34325258 0 1, .flush,
    .created 4 guestServerIdStart, .createParams 3 5, .add 5 21 ⟨0, 0, 4, 0⟩ true none]

theorem descriptors_kept_import : ∃ s, (dmabufSystem .unscaled).run .new importRun = some s ∧
    s.sent = [0] ∧ s.bufferFds.get guestServerIdStart = some [1] ∧
    s.paramFds.get 5 = some [2] ∧ s.nextFd = 3 ∧ s.everywhere = Multiset.range s.nextFd := by
  have hrun : ((dmabufSystem .unscaled).run .new importRun).map (fun s =>
      (s.sent, s.bufferFds.get guestServerIdStart, s.paramFds.get 5, s.nextFd)) =
      some ([0], some [1], some [2], 3) := by decide +kernel
  obtain ⟨s, hs, heq⟩ := Option.map_eq_some_iff.mp hrun
  simp only [Prod.mk.injEq] at heq
  obtain ⟨hsent, hbuffer, hplanes, hnext⟩ := heq
  exact ⟨s, hs, hsent, hbuffer, hplanes, hnext, (descriptors_kept (.run (.init rfl) hs)).1⟩

/-- A connection that ends with any message, whether it is refused, fails or goes on, closes every
descriptor that was not sent, each once. Until that message the host follows the rules for object
IDs. -/
theorem disconnect_closes {m : DmabufMessage} {s' : DmabufSession}
    (hs : (dmabufSystem maps).Reachable s) (hleft : s.LeftBy m s') :
    (s'.disconnect.closed : Multiset ℕ) + s'.sent = Multiset.range s'.nextFd ∧
    s'.disconnect.closed.Nodup ∧ ∀ fd ∈ s'.disconnect.closed, fd ∉ s'.sent := by
  have htotal := disconnect_total (hleft.total (kept_of_reachable hs))
  have hnodup := Multiset.nodup_range s'.nextFd
  rw [← htotal, Multiset.nodup_add] at hnodup
  exact ⟨htotal, Multiset.coe_nodup.mp hnodup.1, fun fd => Multiset.disjoint_left.mp hnodup.2.2⟩

/-- A creation whose plane cannot be duplicated ends the session. -/
theorem disconnect_closes_import : ∃ s, (dmabufSystem .unscaled).run .new importRun = some s ∧
    s.step .unscaled (.create 5 1 1 0x34325258 0 0) = none ∧
    (s.onCreate 5 1 1 0x34325258 0 0).2.disconnect.closed = [1, 2] ∧
    ∀ fd ∈ (s.onCreate 5 1 1 0x34325258 0 0).2.disconnect.closed,
      fd ∉ (s.onCreate 5 1 1 0x34325258 0 0).2.sent := by
  have hrun : ((dmabufSystem .unscaled).run .new importRun).map (fun s =>
      ((s.step .unscaled (.create 5 1 1 0x34325258 0 0)).isNone,
        (s.onCreate 5 1 1 0x34325258 0 0).2.disconnect.closed)) = some (true, [1, 2]) := by
    decide +kernel
  obtain ⟨s, hs, heq⟩ := Option.map_eq_some_iff.mp hrun
  obtain ⟨hends, hclosed⟩ := Prod.mk.inj heq
  have hcloses := disconnect_closes (.run (.init rfl) hs) (.create 5 1 1 0x34325258 0 0)
  exact ⟨s, hs, Option.isNone_iff_eq_none.mp hends, hclosed, hcloses.2.2⟩

end Sommelier
