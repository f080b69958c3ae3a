import Mathlib.Data.List.Perm.Basic
import Sommelier.Objects.PlaneCustody

/-!
# The protocol of parameters

What the host may be asked about a parameters object: planes are added to a new one, each with an
index of its own, and one creation follows when they are complete. Only a destructor comes after
that, and the number may be used again.

## Main definitions

* `ParamsPhase`: where the host's object stands.
* `phaseAt`: the phase after the requests so far; `none` is a violation.

## Main results

* `params_conform`: the proxy never violates the protocol, whatever the guest sends.
-/
namespace Sommelier

/-- The planes are those of the format, each large enough. -/
def Complete (width height : ℤ) (format : ℕ) (planes : List PendingParam) : Prop :=
  0 < width ∧ 0 < height ∧ isSupportedDrmFormat format = true ∧
    (planes.map (·.planeIdx)).Perm (List.range (expectedPlanes format)) ∧
    ∀ plane ∈ planes, validDmabufPlane plane format width height = true

instance (width height : ℤ) (format : ℕ) (planes : List PendingParam) :
    Decidable (Complete width height format planes) :=
  inferInstanceAs (Decidable (_ ∧ _))

/-- Where a parameters object of the host stands. -/
inductive ParamsPhase
  | absent
  | collecting (planes : List PendingParam)
  | used
  deriving DecidableEq

/-- What a request makes of the object it is about; `none` is a violation. -/
def ParamsPhase.next : ParamsPhase → ParamsRequest → Option ParamsPhase
  | absent, .createParams _ => some (collecting [])
  | collecting planes, .add _ plane _ =>
    if plane.planeIdx < 2 ∧ plane.planeIdx ∉ planes.map (·.planeIdx) then
      some (collecting (planes ++ [plane]))
    else none
  | collecting planes, .create _ width height format _ =>
    if Complete width height format planes then some used else none
  | collecting planes, .createImmed _ _ width height format _ =>
    if Complete width height format planes then some used else none
  | collecting _, .destroy _ => some absent
  | used, .destroy _ => some absent
  | _, _ => none

/-- The object of the host a request is about. -/
def ParamsRequest.hostId : ParamsRequest → ℕ
  | createParams hostId => hostId
  | add hostId .. => hostId
  | create hostId .. => hostId
  | createImmed hostId .. => hostId
  | destroy hostId => hostId

/-- The phase of the object of a number after some requests, the newest of which is first. -/
def phaseAt (h : ℕ) : List ParamsRequest → Option ParamsPhase
  | [] => some .absent
  | r :: requests =>
    (phaseAt h requests).bind fun phase => if r.hostId = h then phase.next r else some phase

variable {h hostId p : ℕ} {r : ParamsRequest} {requests : List ParamsRequest}
  {planes planes' : List PendingParam} {width height : ℤ} {format : ℕ}

@[simp] theorem phaseAt_nil : phaseAt h [] = some .absent := rfl

theorem phaseAt_other (hr : r.hostId ≠ h) : phaseAt h (r :: requests) = phaseAt h requests := by
  simp [phaseAt, hr]

theorem phaseAt_about {phase : ParamsPhase} (hr : r.hostId = h)
    (hphase : phaseAt h requests = some phase) : phaseAt h (r :: requests) = phase.next r := by
  simp [phaseAt, hr, hphase]

/-- Requests about another object. -/
theorem phaseAt_append_other {news : List ParamsRequest} (hnews : ∀ r ∈ news, r.hostId ≠ h) :
    phaseAt h (news ++ requests) = phaseAt h requests := by
  induction news with
  | nil => rfl
  | cons r news ih =>
    rw [List.cons_append, phaseAt_other (hnews r (by simp))]
    exact ih fun r' hr' => hnews r' (List.mem_cons_of_mem _ hr')

/-! ## Complete planes -/

/-- The `add` of a plane. -/
def ParamsRequest.addOf (hostId : ℕ) (plane : PendingParam × ℕ) : ParamsRequest :=
  .add hostId plane.1 plane.2

/-- Planes whose indices differ are added one after the other. -/
theorem phaseAt_adds {added : List (PendingParam × ℕ)}
    (hphase : phaseAt h requests = some (.collecting planes))
    (hnodup : ((planes ++ added.map Prod.fst).map (·.planeIdx)).Nodup)
    (hbound : ∀ plane ∈ added, plane.1.planeIdx < 2) :
    phaseAt h ((added.map (ParamsRequest.addOf h)).reverse ++ requests) =
      some (.collecting (planes ++ added.map Prod.fst)) := by
  induction added generalizing planes requests with
  | nil => simpa using hphase
  | cons plane added ih =>
    have hnew : plane.1.planeIdx ∉ planes.map (·.planeIdx) := by
      intro hmem
      simp only [List.map_cons, List.map_append] at hnodup
      exact (List.nodup_append.mp hnodup).2.2 _ hmem _ (by simp) rfl
    have hone : phaseAt h (ParamsRequest.addOf h plane :: requests) =
        some (.collecting (planes ++ [plane.1])) := by
      have hnext := phaseAt_about (r := ParamsRequest.addOf h plane) rfl hphase
      rwa [ParamsRequest.addOf, ParamsPhase.next, if_pos ⟨hbound plane (by simp), hnew⟩] at hnext
    simp only [List.map_cons, List.reverse_cons, List.append_assoc, List.singleton_append]
    rw [ih hone (by simpa using hnodup) fun plane' hplane' => hbound plane' (by simp [hplane'])]
    simp

/-- What the proxy checks makes the planes complete. -/
theorem complete_of_validParams {c : Context} {params : List PendingParam}
    (hvalid : validParams c p width height format = true)
    (hparams : c.pendingParams.get p = some params) : Complete width height format params := by
  have hdims : ¬ (width ≤ 0 ∨ height ≤ 0 ∨ isSupportedDrmFormat format = false) := by
    intro hbad
    simp [validParams, hbad] at hvalid
  rw [validParams, if_neg hdims, hparams] at hvalid
  change (decide (params.length = expectedPlanes format) &&
    decide (params.map (·.planeIdx)).Nodup && params.all fun param =>
      decide (param.planeIdx < expectedPlanes format) &&
      validDmabufPlane param format width height) = true at hvalid
  simp only [Bool.and_eq_true, decide_eq_true_eq, List.all_eq_true] at hvalid
  obtain ⟨⟨hlength, hnodup⟩, hall⟩ := hvalid
  push Not at hdims
  refine ⟨hdims.1, hdims.2.1, by simpa using hdims.2.2, ?_,
    fun plane hplane => (hall plane hplane).2⟩
  have hsubset : params.map (·.planeIdx) ⊆ List.range (expectedPlanes format) := by
    intro idx hidx
    obtain ⟨plane, hplane, rfl⟩ := List.mem_map.mp hidx
    exact List.mem_range.mpr (hall plane hplane).1
  exact (hnodup.subperm hsubset).perm_of_length_le (by simp [hlength])

/-- Indices of complete planes differ and are those of two planes at most. -/
theorem Complete.indices (hc : Complete width height format planes) :
    (planes.map (·.planeIdx)).Nodup ∧ ∀ plane ∈ planes, plane.planeIdx < 2 := by
  obtain ⟨-, -, -, hperm, -⟩ := hc
  refine ⟨hperm.nodup_iff.mpr List.nodup_range, fun plane hplane => ?_⟩
  have hmem := hperm.subset (List.mem_map_of_mem hplane)
  rw [List.mem_range, expectedPlanes] at hmem
  split_ifs at hmem <;> omega

/-- Complete planes are added and used up by one creation. -/
theorem phaseAt_creation {added : List (PendingParam × ℕ)}
    (hphase : phaseAt h requests = some (.collecting []))
    (hcomplete : Complete width height format (added.map Prod.fst))
    (hr : r.hostId = h) (hcreate : ∀ planes, Complete width height format planes →
      (ParamsPhase.collecting planes).next r = some .used) :
    phaseAt h (r :: ((added.map (ParamsRequest.addOf h)).reverse ++ requests)) = some .used := by
  obtain ⟨hnodup, hbound⟩ := hcomplete.indices
  have hadds := phaseAt_adds hphase (by simpa using hnodup)
    fun plane hplane => hbound _ (List.mem_map_of_mem hplane)
  rw [List.nil_append] at hadds
  rw [phaseAt_about hr hadds, hcreate _ hcomplete]

/-! ## Parameters of the guest -/

namespace DmabufSession
variable {s s' : DmabufSession} {dups : ℕ} {syncFds : List ℕ} {create : ℕ → ParamsRequest}

/-- The phase of each object of the host is that of the parameters it stands for. -/
structure Follows (s : DmabufSession) : Prop where
  live : ∀ p h, s.context.liveParams p = some h → phaseAt h s.requests =
    some (if p ∈ s.context.usedDmabufParams then .used else .collecting [])
  absent : ∀ h, (∀ p, s.context.liveParams p ≠ some h) → phaseAt h s.requests = some .absent

/-- What a creation that is sent has sent. -/
theorem processParams_eq_some
    (hprocess : s.processParams p dups create = (some (h, syncFds), s')) :
    ∃ params, s.context.pendingParams.get p = some params ∧
      s.context.shadowTable.getHostId p = some h ∧
      s'.requests = create h :: (((params.zip ((s.paramFds.get p).getD [])).map
        (ParamsRequest.addOf h)).reverse ++ s.requests) ∧
      s'.context.shadowTable = s.context.shadowTable ∧
      s'.context.usedDmabufParams = insert p s.context.usedDmabufParams := by
  unfold processParams at hprocess
  cases hparams : s.context.pendingParams.get p with
  | none => simp [hparams] at hprocess
  | some params =>
    simp only [hparams, takeParams] at hprocess
    cases hhost : s.context.shadowTable.getHostId p with
    | none => simp [hhost] at hprocess
    | some hostId =>
      simp only [hhost, duplicate] at hprocess
      split_ifs at hprocess
      · simp at hprocess
      · simp only [Prod.mk.injEq, Option.some.injEq] at hprocess
        obtain ⟨⟨rfl, -⟩, rfl⟩ := hprocess
        refine ⟨params, rfl, rfl, ?_, ?_, ?_⟩
        · rw [foldl_queueAdd]
          rfl
        · rw [foldl_queueAdd]
          rfl
        · rw [foldl_queueAdd]
          rfl

/-- A creation of planes that could not be sent ends the session. -/
theorem processParams_eq_none
    (hprocess : s.processParams p dups create = (none, s')) :
    s.context.pendingParams.get p = none ∧ s' = s ∨ s'.context.fatalProtocolError = true := by
  unfold processParams at hprocess
  cases hparams : s.context.pendingParams.get p with
  | none =>
    rw [hparams] at hprocess
    exact .inl ⟨rfl, (Prod.ext_iff.mp hprocess).2.symm⟩
  | some params =>
    right
    simp only [hparams, takeParams] at hprocess
    cases hhost : s.context.shadowTable.getHostId p with
    | none =>
      simp only [hhost] at hprocess
      obtain ⟨-, rfl⟩ := Prod.mk.inj hprocess
      rfl
    | some hostId =>
      simp only [hhost, duplicate] at hprocess
      split_ifs at hprocess
      · obtain ⟨-, rfl⟩ := Prod.mk.inj hprocess
        rfl
      · simp at hprocess

/-- A sender that is allowed and known to the host. -/
theorem liveParams_of_allowed {c : Context}
    (hallowed : c.senderAllowed p .zwpLinuxBufferParamsV1 = true)
    (hhost : c.shadowTable.getHostId p = some h) : c.liveParams p = some h := by
  simp only [Context.senderAllowed, ShadowTable.guestObjectMatches,
    ShadowTable.isPendingDestroyGuest, Bool.and_eq_true, beq_iff_eq, Bool.not_eq_true',
    decide_eq_false_iff_not] at hallowed
  exact ShadowTable.liveHost_eq_some.mpr ⟨hallowed.1.1, hallowed.1.2, hhost⟩

/-- A host ID stands for one guest object. -/
theorem liveParams_inj {c : Context} {p' : ℕ} (hc : Consistent Set.univ c)
    (hp : c.liveParams p = some h) (hp' : c.liveParams p' = some h) : p = p' := by
  have hg := (hc.paired p h).mp (ShadowTable.liveHost_eq_some.mp hp).2.2
  have hg' := (hc.paired p' h).mp (ShadowTable.liveHost_eq_some.mp hp').2.2
  exact Option.some.inj (hg.symm.trans hg')

namespace Follows

theorem new : DmabufSession.new.Follows where
  live p h hlive := by
    obtain ⟨hi, -, -⟩ := ShadowTable.liveHost_eq_some.mp hlive
    have hdisplay : DmabufSession.new.context.shadowTable.interfaces.get p =
        if p = 1 then some .wlDisplay else none := by
      simp [DmabufSession.new, Context.new, ShadowTable.new, ShadowTable.mapId,
        ShadowTable.trackInterface]
    rw [hdisplay] at hi
    split_ifs at hi
    simp at hi
  absent _ _ := rfl

/-- Steps that send nothing about parameters and leave them alone. -/
theorem of_same (hf : s.Follows) (hrequests : s'.requests = s.requests)
    (hlive : ∀ p, s'.context.liveParams p = s.context.liveParams p)
    (hused : ∀ p, s.context.liveParams p ≠ none →
      (p ∈ s'.context.usedDmabufParams ↔ p ∈ s.context.usedDmabufParams)) : s'.Follows := by
  refine ⟨fun p h hp => ?_, fun h hh => ?_⟩
  · rw [hlive] at hp
    rw [hrequests, hf.live p h hp]
    simp [hused p (by simp [hp])]
  · rw [hrequests]
    exact hf.absent h fun p hp => hh p ((hlive p).trans hp)

/-- Steps that move neither the requests nor the parameters. -/
theorem unmoved (hf : s.Follows) (hrequests : s'.requests = s.requests)
    (hlive : s'.context.liveParams = s.context.liveParams)
    (hused : s'.context.usedDmabufParams = s.context.usedDmabufParams) : s'.Follows :=
  hf.of_same hrequests (congrFun hlive) fun p _ => by rw [hused]

/-- Steps that leave the parameters alone. -/
theorem of_spares (hf : s.Follows) (hrequests : s'.requests = s.requests)
    (hspares : SparesParams s.context s'.context) : s'.Follows :=
  hf.unmoved hrequests (funext hspares.live) hspares.used

/-- A creation is sent for live parameters that were not used. -/
theorem creation (hf : s.Follows) {added : List (PendingParam × ℕ)}
    (hp : s.context.liveParams p = some h)
    (honly : ∀ p', s.context.liveParams p' = some h → p' = p)
    (hfresh : p ∉ s.context.usedDmabufParams)
    (hcomplete : Complete width height format (added.map Prod.fst)) (hr : r.hostId = h)
    (hcreate : ∀ planes, Complete width height format planes →
      (ParamsPhase.collecting planes).next r = some .used)
    (hrequests : s'.requests =
      r :: ((added.map (ParamsRequest.addOf h)).reverse ++ s.requests))
    (hlive : ∀ p, s'.context.liveParams p = s.context.liveParams p)
    (hused : s'.context.usedDmabufParams = insert p s.context.usedDmabufParams) :
    s'.Follows := by
  have hother : ∀ h' ≠ h, phaseAt h' s'.requests = phaseAt h' s.requests := by
    intro h' hne
    rw [hrequests, ← List.cons_append]
    refine phaseAt_append_other fun r' hr' => ?_
    rcases List.mem_cons.mp hr' with rfl | hr'
    · rw [hr]
      exact hne.symm
    · obtain ⟨plane, -, rfl⟩ := List.mem_map.mp (List.mem_reverse.mp hr')
      exact hne.symm
  refine ⟨fun p' h' hp' => ?_, fun h' hh' => ?_⟩
  · rw [hlive] at hp'
    by_cases heq : h' = h
    · subst heq
      obtain rfl := honly p' hp'
      have hphase := hf.live _ h' hp
      rw [if_neg hfresh] at hphase
      rw [hrequests, phaseAt_creation hphase hcomplete hr hcreate, hused,
        if_pos (Finset.mem_insert_self ..)]
    · have hne : p' ≠ p := by
        rintro rfl
        exact heq (Option.some.inj (hp'.symm.trans hp))
      rw [hother h' heq, hused, hf.live p' h' hp']
      simp [hne]
  · have hne : h' ≠ h := by
      rintro rfl
      exact hh' p ((hlive p).trans hp)
    rw [hother h' hne]
    exact hf.absent h' fun p' hp' => hh' p' ((hlive p').trans hp')

/-- New parameters. -/
theorem createParams (hf : s.Follows) (hnew : s'.context.liveParams p = some h)
    (hfree : ∀ p, s.context.liveParams p ≠ some h)
    (hother : ∀ p' ≠ p, s'.context.liveParams p' = s.context.liveParams p')
    (hrequests : s'.requests = .createParams h :: s.requests)
    (hold : s.context.liveParams p = none)
    (hused : s'.context.usedDmabufParams = s.context.usedDmabufParams.erase p) :
    s'.Follows := by
  refine ⟨fun p' h' hp' => ?_, fun h' hh' => ?_⟩
  · rw [hrequests, hused]
    by_cases hp : p' = p
    · subst hp
      obtain rfl := Option.some.inj (hnew.symm.trans hp')
      rw [phaseAt_about (h := h) (r := .createParams h) rfl (hf.absent h hfree)]
      simp [ParamsPhase.next]
    · rw [hother p' hp] at hp'
      have hne : h ≠ h' := fun heq => hfree p' (heq ▸ hp')
      rw [phaseAt_other (r := .createParams h) hne, hf.live p' h' hp']
      simp [hp]
  · have hne : h ≠ h' := fun heq => hh' p (heq ▸ hnew)
    rw [hrequests, phaseAt_other (r := .createParams h) hne]
    refine hf.absent h' fun p' hp' => ?_
    by_cases hp : p' = p
    · subst hp
      simp [hold] at hp'
    · exact hh' p' ((hother p' hp).trans hp')

/-- The destructor of live parameters. -/
theorem destroy (hf : s.Follows) (hp : s.context.liveParams p = some h)
    (honly : ∀ p', s.context.liveParams p' = some h → p' = p)
    (hgone : s'.context.liveParams p = none)
    (hother : ∀ p' ≠ p, s'.context.liveParams p' = s.context.liveParams p')
    (hrequests : s'.requests = .destroy h :: s.requests)
    (hused : s'.context.usedDmabufParams = s.context.usedDmabufParams.erase p) :
    s'.Follows := by
  refine ⟨fun p' h' hp' => ?_, fun h' hh' => ?_⟩
  · have hne : p' ≠ p := by
      rintro rfl
      simp [hgone] at hp'
    rw [hother p' hne] at hp'
    have hne' : h ≠ h' := by
      rintro rfl
      exact hne (honly p' hp')
    rw [hrequests, phaseAt_other (r := .destroy h) hne', hused, hf.live p' h' hp']
    simp [hne]
  · rw [hrequests]
    by_cases heq : h = h'
    · subst heq
      rw [phaseAt_about (h := h) (r := .destroy h) rfl (hf.live p h hp)]
      split_ifs <;> rfl
    · rw [phaseAt_other (r := .destroy h) heq]
      refine hf.absent h' fun p' hp' => ?_
      by_cases hpp : p' = p
      · subst hpp
        exact heq (Option.some.inj (hp.symm.trans hp'))
      · exact hh' p' ((hother p' hpp).trans hp')

/-! ## Messages -/

variable {maps : DamageMapping} {m : DmabufMessage}

/-- The planes of parameters have one descriptor each, so that all of them are sent. -/
theorem added_planes (hk : s.Kept []) {params : List PendingParam}
    (hparams : s.context.pendingParams.get p = some params) :
    (params.zip ((s.paramFds.get p).getD [])).map Prod.fst = params := by
  have hplanes := hk.planes p
  rw [hparams] at hplanes
  obtain ⟨fds, hfds, hlength⟩ := Option.map_eq_some_iff.mp hplanes
  rw [hfds, Option.getD_some, List.map_fst_zip hlength.ge]

/-- A creation that passed the checks and was sent. -/
theorem processed (hf : s.Follows) (hk : s.Kept [])
    (hp : ∀ h, s.context.shadowTable.getHostId p = some h → s.context.liveParams p = some h)
    (honly : ∀ h p', s.context.liveParams p = some h → s.context.liveParams p' = some h → p' = p)
    (hfresh : p ∉ s.context.usedDmabufParams)
    (hvalid : validParams s.context p width height format = true)
    (hprocess : s.processParams p dups create = (some (h, syncFds), s'))
    (hr : (create h).hostId = h)
    (hcreate : ∀ planes, Complete width height format planes →
      (ParamsPhase.collecting planes).next (create h) = some .used) : s'.Follows := by
  obtain ⟨params, hparams, hhost, hrequests, htable, hused⟩ := processParams_eq_some hprocess
  have hadded := added_planes hk hparams
  refine hf.creation (hp h hhost) (fun p' => honly h p' (hp h hhost)) hfresh ?_ hr hcreate
    hrequests (fun p => by rw [Context.liveParams, htable]) hused
  rw [hadded]
  exact complete_of_validParams hvalid hparams

theorem onCreate (hf : s.Follows) (hk : s.Kept []) (hc : Consistent Set.univ s.context)
    (hallowed : s.context.senderAllowed p .zwpLinuxBufferParamsV1 = true) {flags : ℕ}
    (h' : (s.onCreate p width height format flags dups).2.settle = some s') : s'.Follows := by
  obtain ⟨hlives, rfl⟩ := settle_eq_some.mp h'
  unfold DmabufSession.onCreate at hlives ⊢
  split_ifs with hfresh hvalid
  · exact hf.unmoved rfl rfl rfl
  · exact hf.unmoved rfl rfl rfl
  · simp only [hfresh, if_false, hvalid, Bool.false_eq_true] at hlives
    rcases hprocess : s.processParams p dups (.create · width height format flags) with
      ⟨_ | ⟨hostParamsId, syncFds⟩, s'⟩
    · rw [hprocess] at hlives
      rcases processParams_eq_none hprocess with ⟨-, rfl⟩ | hfatal
      · exact hf
      · simp [hfatal] at hlives
    · rw [hprocess] at hlives
      have hfollows := hf.processed hk (fun _ => liveParams_of_allowed hallowed)
        (fun _ p' hp hp' => liveParams_inj hc hp' hp) hfresh (by simpa using hvalid) hprocess rfl
        fun planes hcomplete => by rw [ParamsPhase.next, if_pos hcomplete]
      cases hpending : s'.context.pendingNativeCreates.get hostParamsId with
      | some pending => simp [hpending, fatal] at hlives
      | none =>
        simp only [hpending]
        exact hfollows.unmoved rfl rfl rfl

theorem onCreateImmed (hf : s.Follows) (hk : s.Kept []) (hc : Consistent Set.univ s.context)
    (hallowed : s.context.senderAllowed p .zwpLinuxBufferParamsV1 = true) {buffer flags : ℕ}
    (havail : s.context.shadowTable.isGuestIdAvailable buffer = true)
    {result : Action × DmabufSession}
    (hresult : s.onCreateImmed p buffer width height format flags dups = some result)
    (h' : result.2.settle = some s') : s'.Follows := by
  obtain ⟨hlives, rfl⟩ := settle_eq_some.mp h'
  unfold DmabufSession.onCreateImmed at hresult
  split_ifs at hresult with hfresh hnone hhost hvalid
  · exact Option.some.inj hresult ▸ hf.unmoved rfl rfl rfl
  · exact Option.some.inj hresult ▸ hf
  · obtain rfl := Option.some.inj hresult
    rcases hprocess : s.processParams p dups (.create · width height format flags) with
      ⟨_ | ⟨hostParamsId, syncFds⟩, s'⟩
    · rw [hprocess] at hlives
      rcases processParams_eq_none hprocess with ⟨-, rfl⟩ | hfatal
      · exact hf
      · simp [hfatal] at hlives
    · have hnothing := s.processParams_unmapped dups (.create · width height format flags)
        (Option.isNone_iff_eq_none.mp hhost)
      simp [hprocess] at hnothing
  · exact Option.some.inj hresult ▸ hf.unmoved rfl rfl rfl
  · obtain ⟨⟨hostBufferId, t⟩, halloc, hresult⟩ := Option.bind_eq_some_iff.mp hresult
    obtain ⟨hfree, -, n, rfl⟩ := ShadowTable.allocateHostId_eq_some halloc
    obtain ⟨-, -, hg, -⟩ := ShadowTable.isGuestIdAvailable_iff.mp havail
    have hh := (ShadowTable.hostIdFree_iff.mp hfree).1
    dsimp only at hresult
    generalize hversion : (ShadowTable.guestObjectVersion _ p).getD unknownObjectVersion = version
      at hresult
    generalize ht : ShadowTable.registerObject _ buffer hostBufferId .wlBuffer version version = t
      at hresult
    have hsame : ShadowTable.SameBut buffer s.context.shadowTable t :=
      ht ▸ ShadowTable.registerObject_sameBut hg hh
    have hspares : SparesParams s.context { s.context with shadowTable := t } := by
      refine .of_sameBut hsame (liveHost_unmapped hg) (liveParams_other (i := .wlBuffer) ?_
        (by simp)) rfl rfl fun _ => id
      rw [← ht, ShadowTable.registerObject_fresh (by exact hg) (by exact hh)]
      simp
    have hf₁ : ({ s with context.shadowTable := t } : DmabufSession).Follows :=
      hf.of_spares rfl hspares
    have hk₁ : ({ s with context.shadowTable := t } : DmabufSession).Kept [] :=
      hk.withContext rfl rfl fun _ => id
    rcases hprocess : DmabufSession.processParams { s with context.shadowTable := t } p dups
        (.createImmed · hostBufferId width height format flags) with
      ⟨_ | ⟨hostParamsId, syncFds⟩, s'⟩
    · rw [hprocess] at hresult
      obtain rfl := Option.some.inj hresult
      rcases processParams_eq_none hprocess with ⟨hnone', -⟩ | hfatal
      · exact absurd hnone' (Option.isNone_iff_eq_none.not.mp hnone)
      · simp [hfatal] at hlives
    · rw [hprocess] at hresult
      obtain rfl := Option.some.inj hresult
      have hne : p ≠ buffer := by
        rintro rfl
        exact hhost (by simp [ShadowTable.getHostId, hg])
      have hvalid : validParams s.context p width height format = true := by simpa using hvalid
      have hfollows : s'.Follows := by
        refine hf₁.processed hk₁ (fun h hp => ?_) (fun h p' hp hp' => ?_) hfresh hvalid
          hprocess rfl fun planes hcomplete => by rw [ParamsPhase.next, if_pos hcomplete]
        · rw [hspares.live]
          exact liveParams_of_allowed hallowed ((hsame p hne).2.2.symm.trans hp)
        · rw [hspares.live] at hp hp'
          exact liveParams_inj hc hp' hp
      unfold DmabufSession.registerNativeBuffer
      dsimp only
      split_ifs <;> exact hfollows.unmoved rfl rfl rfl

theorem onDestroy (hf : s.Follows) (hc : Consistent Set.univ s.context)
    (hallowed : s.context.senderAllowed p .zwpLinuxBufferParamsV1 = true) :
    ((s.onDestroy p).2.forwardDestroy p).Follows := by
  have hbooks : (s.onDestroy p).2.requests = s.requests ∧
      (s.onDestroy p).2.context.shadowTable = s.context.shadowTable ∧
      (s.onDestroy p).2.context.usedDmabufParams = s.context.usedDmabufParams.erase p := by
    unfold DmabufSession.onDestroy
    dsimp only
    cases s.context.shadowTable.getHostId p with
    | none => exact ⟨rfl, rfl, rfl⟩
    | some hostId =>
      dsimp only
      cases s.context.pendingNativeCreates.get hostId <;> exact ⟨rfl, rfl, rfl⟩
  obtain ⟨hrequests, htable, hused⟩ := hbooks
  obtain ⟨hsame, hgone, -⟩ := destroyPlain_live (s.onDestroy p).2.context p
  rw [htable] at hsame
  have hother : ∀ p' ≠ p, (destroyPlain (s.onDestroy p).2.context p).liveParams p' =
      s.context.liveParams p' := fun p' hne => hsame.liveHost hne
  have hused' : (destroyPlain (s.onDestroy p).2.context p).usedDmabufParams =
      s.context.usedDmabufParams.erase p := by
    obtain ⟨t, traffic, heq⟩ := destroyPlain_eq (s.onDestroy p).2.context p
    rw [heq]
    exact hused
  unfold DmabufSession.forwardDestroy
  dsimp only
  rw [htable]
  cases hhost : s.context.shadowTable.getHostId p with
  | none =>
    have hunknown : s.context.liveParams p = none := liveHost_unmapped hhost
    refine hf.of_same hrequests (fun p' => ?_) fun p' hp' => ?_
    · by_cases heq : p' = p
      · rw [heq, hunknown]
        exact hgone _
      · exact hother p' heq
    · dsimp only
      rw [hused', Finset.mem_erase]
      exact and_iff_right fun heq => hp' (heq ▸ hunknown)
  | some h =>
    refine hf.destroy (h := h) (liveParams_of_allowed hallowed hhost) (fun p' hp' => ?_) ?_ ?_ ?_ ?_
    · exact liveParams_inj hc hp' (liveParams_of_allowed hallowed hhost)
    · exact hgone _
    · exact hother
    · exact congrArg _ hrequests
    · exact hused'

theorem onCreateParams (hf : s.Follows) (hc : Consistent Set.univ s.context) {factory : ℕ}
    (havail : s.context.shadowTable.isGuestIdAvailable p = true)
    (h' : (s.onCreateParams p).2.forwardCreateParams factory p = some s') : s'.Follows := by
  obtain ⟨context, hmap, rfl⟩ := Option.map_eq_some_iff.mp h'
  have hbooks : Consistent Set.univ (s.onCreateParams p).2.context :=
    hc.frame ⟨rfl, rfl, rfl, rfl, fun _ => rfl⟩ fun _ => .inl
  obtain ⟨hostId, hfree, -, -, hsame, hnew⟩ := mapNewId_live hbooks havail hmap
  obtain ⟨-, -, hg, -⟩ := ShadowTable.isGuestIdAvailable_iff.mp havail
  have hlive : context.liveParams p = some hostId := by simp [Context.liveParams, hnew]
  have hhost : context.shadowTable.getHostId p = some hostId :=
    (ShadowTable.liveHost_eq_some.mp hlive).2.2
  refine hf.createParams (h := hostId) hlive (fun p' hp' => ?_) (fun p' hne => hsame.liveHost hne)
    ?_ (liveHost_unmapped hg) ?_
  · have hmapped := (hc.paired p' hostId).mp (ShadowTable.liveHost_eq_some.mp hp').2.2
    have hunmapped := (ShadowTable.hostIdFree_iff.mp hfree).1
    exact absurd (hmapped.symm.trans hunmapped) (by simp)
  · dsimp only [DmabufSession.request]
    rw [hhost]
    rfl
  · obtain ⟨⟨_, t⟩, -, heq⟩ := Option.bind_eq_some_iff.mp hmap
    obtain rfl := Option.some.inj heq
    rfl

theorem onAdd (hf : s.Follows) (p : ℕ) (fd : ℤ) (param : PendingParam) (duplicated : Bool)
    (allocator : Option Plane0Device) :
    (s.onAdd p fd param duplicated allocator).2.Follows := by
  unfold DmabufSession.onAdd
  split_ifs
  · exact hf
  · exact hf.unmoved rfl rfl rfl
  · exact hf.unmoved rfl rfl rfl
  · exact hf.unmoved rfl rfl rfl
  · exact hf
  · dsimp only [duplicate]
    cases s.context.pendingParams.get p <;> exact hf.unmoved rfl rfl rfl

theorem releaseOrphanedParams (hf : s.Follows) (h : ℕ) :
    ({ s with context := Sommelier.releaseOrphanedParams s.context h } :
      DmabufSession).Follows := by
  unfold Sommelier.releaseOrphanedParams
  split_ifs
  · exact hf.unmoved rfl rfl rfl
  · exact hf

theorem destroyOrphanedBuffer_live (c : Context) (h buffer p : ℕ) :
    (destroyOrphanedBuffer c h buffer).liveParams p = c.liveParams p := by
  unfold destroyOrphanedBuffer ShadowTable.markPendingDestroyHost
  dsimp only
  split_ifs <;> rfl

theorem onCreated (hf : s.Follows) (h buffer : ℕ) : (s.onCreated h buffer).2.Follows := by
  unfold DmabufSession.onCreated
  have horphan : ({ s with context := destroyOrphanedBuffer s.context h buffer } :
      DmabufSession).Follows :=
    hf.of_same rfl (destroyOrphanedBuffer_live _ h buffer) fun _ _ => .rfl
  by_cases horphaned : (s.context.orphanedDmabufParams.get h).isSome = true
  · rw [if_pos horphaned]
    split_ifs
    · exact hf.unmoved rfl rfl rfl
    · refine releaseOrphanedParams (s := DmabufSession.forgetParams _ h) ?_ h
      exact horphan.unmoved rfl rfl rfl
  · rw [if_neg horphaned]
    cases s.context.shadowTable.getGuestId h with
    | none => exact hf
    | some guestParamsId =>
      dsimp only
      split
      · split_ifs
        · exact hf.unmoved rfl rfl rfl
        · exact horphan.unmoved rfl rfl rfl
      · cases s.context.pendingNativeCreates.get h with
        | none => exact hf
        | some pending =>
          dsimp only [takeCreate]
          unfold DmabufSession.registerNativeBuffer
          dsimp only
          split_ifs <;> exact hf.unmoved rfl rfl rfl

/-- An event that is forwarded leaves the IDs alone. -/
theorem onCreated_forward {h buffer : ℕ} (hforward : (s.onCreated h buffer).1 = .forward) :
    (s.onCreated h buffer).2.context.shadowTable = s.context.shadowTable := by
  unfold DmabufSession.onCreated at hforward ⊢
  by_cases horphaned : (s.context.orphanedDmabufParams.get h).isSome = true
  · rw [if_pos horphaned] at hforward
    split_ifs at hforward
  · rw [if_neg horphaned] at hforward ⊢
    cases hguest : s.context.shadowTable.getGuestId h with
    | none => rfl
    | some guestParamsId =>
      rw [hguest] at hforward
      dsimp only at hforward ⊢
      by_cases hpending : s.context.shadowTable.isPendingDestroyGuest guestParamsId = true
      · rw [if_pos hpending] at hforward
        split_ifs at hforward
      · rw [if_neg hpending] at hforward ⊢
        cases s.context.pendingNativeCreates.get h with
        | none => rfl
        | some pending =>
          dsimp only [takeCreate]
          unfold DmabufSession.registerNativeBuffer
          dsimp only
          split_ifs <;> rfl

theorem onFailed (hf : s.Follows) (h : ℕ) : (s.onFailed h).2.Follows := by
  unfold DmabufSession.onFailed
  split_ifs
  · refine releaseOrphanedParams (s := DmabufSession.forgetParams _ h) ?_ h
    exact hf.unmoved rfl rfl rfl
  · cases s.context.shadowTable.getGuestId h with
    | none => exact hf
    | some guestParamsId =>
      dsimp only
      split_ifs
      · exact hf.unmoved rfl rfl rfl
      · cases s.context.pendingNativeCreates.get h with
        | none => exact hf
        | some pending =>
          dsimp only
          split_ifs <;> exact hf.unmoved rfl rfl rfl

/-- One message follows the protocol. -/
theorem step (hf : s.Follows) (hk : s.Kept []) (hc : Consistent Set.univ s.context)
    (h' : s.step maps m = some s') : s'.Follows := by
  cases m with
  | createParams factory params =>
    obtain ⟨hallowed, h'⟩ := DmabufSession.guarded_eq_some.mp h'
    exact hf.onCreateParams hc (Bool.and_eq_true_iff.mp hallowed).2 h'
  | add params fd param duplicated allocator =>
    obtain ⟨-, h'⟩ := DmabufSession.guarded_eq_some.mp h'
    obtain ⟨-, rfl⟩ := settle_eq_some.mp h'
    exact hf.onAdd ..
  | create params width height format flags dups =>
    obtain ⟨hallowed, h'⟩ := DmabufSession.guarded_eq_some.mp h'
    exact hf.onCreate hk hc (senderAllowed_of_requestAllowed hallowed) h'
  | createImmed params buffer width height format flags dups =>
    obtain ⟨hallowed, h'⟩ := DmabufSession.guarded_eq_some.mp h'
    obtain ⟨hallowed, havail⟩ := Bool.and_eq_true_iff.mp hallowed
    obtain ⟨result, hresult, hsettle⟩ := Option.bind_eq_some_iff.mp h'
    exact hf.onCreateImmed hk hc (senderAllowed_of_requestAllowed hallowed) havail hresult hsettle
  | destroyParams params =>
    obtain ⟨hallowed, h'⟩ := DmabufSession.guarded_eq_some.mp h'
    obtain ⟨-, rfl⟩ := settle_eq_some.mp h'
    exact hf.onDestroy hc (senderAllowed_of_requestAllowed hallowed)
  | created params buffer =>
    rcases deliver_eq_some (DmabufSession.guarded_eq_some.mp h').2 with rfl | hhandled
    · exact hf
    · obtain ⟨havail, hhandled⟩ := DmabufSession.guarded_eq_some.mp hhandled
      rcases announced_eq_some hhandled with rfl | ⟨hforward, context, hannounce, rfl⟩
      · exact hf.onCreated params buffer
      · refine (hf.onCreated params buffer).of_spares rfl
          (mapAnnouncedId_sparesParams (by simp) ?_ hannounce)
        rw [onCreated_forward hforward]
        exact havail
  | failed params =>
    rcases deliver_eq_some (DmabufSession.guarded_eq_some.mp h').2 with rfl | hhandled
    · exact hf
    · obtain ⟨-, rfl⟩ := settle_eq_some.mp hhandled
      exact hf.onFailed params
  | other m =>
    obtain ⟨hm, hstep⟩ := DmabufSession.guarded_eq_some.mp h'
    obtain ⟨c, hcontext, rfl⟩ := Option.map_eq_some_iff.mp hstep
    exact hf.of_spares rfl (step_sparesParams hc (by simpa using hm) hcontext)
  | flush =>
    obtain rfl := Option.some.inj h'
    exact hf.unmoved rfl rfl rfl

end Follows
end DmabufSession

open DmabufSession

variable {maps : DamageMapping} {s : DmabufSession}

theorem follows_of_reachable (hs : (dmabufSystem maps).Reachable s) : s.Follows := by
  have hall : s.Follows ∧ s.Kept [] ∧ (objectSystem maps).Reachable s.context := by
    refine hs.invariant
      (I := fun s => s.Follows ∧ s.Kept [] ∧ (objectSystem maps).Reachable s.context) ?_ ?_
    · rintro s rfl
      exact ⟨.new, kept_new, .init rfl⟩
    · rintro s m s' _ ⟨hf, hk, hreach⟩ - hstep
      have hc := consistent_of_reachable hreach
      exact ⟨hf.step hk hc hstep, hk.step hc hstep, follow_reachable hreach hstep⟩
  exact hall.1

/-- However the guest mixes its requests, and whatever a host that follows the rules for object
IDs answers, the host is never asked something the protocol of parameters forbids: it has exactly
the parameters the guest can name, with no planes but those of a creation, and at most one
creation each. -/
theorem params_conform (hs : (dmabufSystem maps).Reachable s) (h : ℕ) :
    ∃ phase, phaseAt h s.requests = some phase ∧
      (phase = .absent ↔ ∀ p, s.context.liveParams p ≠ some h) ∧
      ∀ p, s.context.liveParams p = some h →
        phase = if p ∈ s.context.usedDmabufParams then .used else .collecting [] := by
  have hf := follows_of_reachable hs
  by_cases hlive : ∃ p, s.context.liveParams p = some h
  · obtain ⟨p, hp⟩ := hlive
    refine ⟨_, hf.live p h hp, ⟨fun habsent => ?_, fun hnone => absurd hp (hnone p)⟩,
      fun p' hp' => ?_⟩
    · split_ifs at habsent
    · exact Option.some.inj ((hf.live p h hp).symm.trans (hf.live p' h hp'))
  · push Not at hlive
    exact ⟨.absent, hf.absent h hlive, iff_of_true rfl hlive, fun p hp => absurd hp (hlive p)⟩

theorem params_conform_import : ∃ s, (dmabufSystem .unscaled).run .new importRun = some s ∧
    s.requests = [.createParams 5, .create 4 1 1 0x34325258 0, .add 4 ⟨0, 0, 4, 0⟩ 0,
      .createParams 4] ∧ phaseAt 4 s.requests = some .used := by
  have hrun : ((dmabufSystem .unscaled).run .new importRun).map (fun s =>
      (s.requests, s.context.liveParams 4, decide (4 ∈ s.context.usedDmabufParams))) =
      some ([.createParams 5, .create 4 1 1 0x34325258 0, .add 4 ⟨0, 0, 4, 0⟩ 0,
        .createParams 4], some 4, true) := by decide +kernel
  obtain ⟨s, hs, heq⟩ := Option.map_eq_some_iff.mp hrun
  simp only [Prod.mk.injEq, decide_eq_true_eq] at heq
  obtain ⟨hrequests, hlive, hused⟩ := heq
  obtain ⟨phase, hphase, -, hnamed⟩ := params_conform (.run (.init rfl) hs) 4
  have hphase' := hnamed 4 hlive
  rw [if_pos hused] at hphase'
  exact ⟨s, hs, hrequests, hphase' ▸ hphase⟩

end Sommelier
