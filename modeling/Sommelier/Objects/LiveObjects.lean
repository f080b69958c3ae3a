import Sommelier.Objects.HeldBuffers
import Sommelier.Objects.HostSurfaces

/-!
# Live surfaces and viewports

Most messages neither create nor end a surface or a viewport, and send the host nothing about
them.

## Main definitions

* `ShadowTable.liveHost`: the host ID of an object the guest may name.
* `ShadowTable.SameBut`: an update of the table that concerns one guest ID.
* `Aside`: the step left the live surfaces and viewports alone and told the host nothing.
* `Context.NonNull`: no object has the host ID of no object.
* `step_aside`: the messages for which this holds.
-/
namespace Sommelier

variable {maps : DamageMapping} {lost : Set ℕ} {c c' c'' : Context} {g h : ℕ} {i j : Interface}

namespace ShadowTable
variable {t t' : ShadowTable}

/-- The host ID of an object of an interface that the guest may name. -/
def liveHost (t : ShadowTable) (i : Interface) (g : ℕ) : Option ℕ :=
  if t.interfaces.get g = some i ∧ g ∉ t.pendingDestroyGuestIds then t.guestToHost.get g else none

theorem liveHost_eq_some : t.liveHost i g = some h ↔ t.interfaces.get g = some i ∧
    g ∉ t.pendingDestroyGuestIds ∧ t.guestToHost.get g = some h := by
  simp [liveHost, and_assoc]

/-- The tables have the same guest objects, but for one ID. -/
def SameBut (g : ℕ) (t t' : ShadowTable) : Prop :=
  ∀ g' ≠ g, t'.interfaces.get g' = t.interfaces.get g' ∧
    (g' ∈ t'.pendingDestroyGuestIds ↔ g' ∈ t.pendingDestroyGuestIds) ∧
    t'.guestToHost.get g' = t.guestToHost.get g'

theorem SameBut.liveHost {g' : ℕ} (hs : SameBut g t t') (hne : g' ≠ g) :
    t'.liveHost i g' = t.liveHost i g' := by
  simp [ShadowTable.liveHost, hs g' hne]

theorem removeId_sameBut (t : ShadowTable) (g : ℕ) : SameBut g t (t.removeId g) := by
  intro g' hne
  unfold removeId
  dsimp only
  split <;> simp [hne]

theorem removeId_liveHost (t : ShadowTable) (g : ℕ) : (t.removeId g).liveHost i g = none := by
  simp [liveHost, removeId_guestToHost]

theorem markPendingDestroy_sameBut (t : ShadowTable) (g : ℕ) :
    SameBut g t (t.markPendingDestroy g) := by
  intro g' hne
  unfold markPendingDestroy
  split <;> simp [hne]

theorem markPendingDestroy_liveHost (t : ShadowTable) (g : ℕ) :
    (t.markPendingDestroy g).liveHost i g = none := by
  unfold liveHost markPendingDestroy
  cases hg : t.guestToHost.get g <;> simp [hg]

theorem retireGuestObject_sameBut (t : ShadowTable) (g : ℕ) :
    SameBut g t (t.retireGuestObject g) := by
  intro g' hne
  unfold retireGuestObject
  dsimp only
  split <;> simp [hne]

theorem removeGuestMapping_sameBut (t : ShadowTable) (g : ℕ) :
    SameBut g t ((t.removeGuestMapping g).clearPendingDestroyGuest g) := by
  intro g' hne
  refine ⟨?_, ?_, (removeGuestMapping_guestToHost t g g').trans (if_neg hne)⟩ <;>
    unfold removeGuestMapping clearPendingDestroyGuest <;> dsimp only
  · split
    · split <;> split_ifs <;> simp [hne]
    · simp [hne]
  · split
    · split <;> split_ifs <;> simp [hne]
    · simp [hne]

theorem registerObject_sameBut {version hostVersion : ℕ} (hg : t.guestToHost.get g = none)
    (hh : t.hostToGuest.get h = none) :
    SameBut g t (t.registerObject g h i version hostVersion) := by
  intro g' hne
  rw [registerObject_fresh hg hh]
  simp [hne]

end ShadowTable

/-! ## Steps aside -/

/-- Interfaces whose objects have, or change, double-buffered state. -/
def Interface.isDoubleBuffered : Interface → Bool
  | wlSurface | wpViewport => true
  | _ => false

/-- The step left the live surfaces and viewports alone and told the host nothing about them. -/
structure Aside (c c' : Context) : Prop where
  live : ∀ i, i.isDoubleBuffered = true → ∀ g,
    c'.shadowTable.liveHost i g = c.shadowTable.liveHost i g
  quiet : ∃ news, c'.traffic = news ++ c.traffic ∧ news.filterMap HostTraffic.surfaceRequest = []
  null : ∀ g, c'.shadowTable.guestToHost.get g = some 0 → c.shadowTable.guestToHost.get g = some 0

namespace Aside

theorem refl (c : Context) : Aside c c := ⟨fun _ _ _ => rfl, ⟨[], rfl, rfl⟩, fun _ => id⟩

theorem trans (h₁ : Aside c c') (h₂ : Aside c' c'') : Aside c c'' := by
  obtain ⟨news, hnews, hquiet⟩ := h₁.quiet
  obtain ⟨news', hnews', hquiet'⟩ := h₂.quiet
  refine ⟨fun i hi g => (h₂.live i hi g).trans (h₁.live i hi g), ⟨news' ++ news, ?_, ?_⟩,
    fun g hg => h₁.null g (h₂.null g hg)⟩
  · rw [hnews', hnews, List.append_assoc]
  · simp [hquiet, hquiet']

/-- A step that changes one guest object, which is neither surface nor viewport. -/
theorem of_sameBut (news : List HostTraffic)
    (hsame : ShadowTable.SameBut g c.shadowTable c'.shadowTable)
    (hold : ∀ i, i.isDoubleBuffered = true → c.shadowTable.liveHost i g = none)
    (hnew : ∀ i, i.isDoubleBuffered = true → c'.shadowTable.liveHost i g = none)
    (hnull : c'.shadowTable.guestToHost.get g = some 0 → c.shadowTable.guestToHost.get g = some 0)
    (hnews : c'.traffic = news ++ c.traffic)
    (hquiet : news.filterMap HostTraffic.surfaceRequest = []) : Aside c c' := by
  refine ⟨fun i hi g' => ?_, ⟨news, hnews, hquiet⟩, fun g' hg' => ?_⟩
  · by_cases heq : g' = g
    · rw [heq, hold i hi, hnew i hi]
    · exact hsame.liveHost heq
  · by_cases heq : g' = g
    · subst heq
      exact hnull hg'
    · exact (hsame g' heq).2.2 ▸ hg'

/-- Steps that change no guest object. -/
theorem of_eq (news : List HostTraffic)
    (hinterfaces : c'.shadowTable.interfaces = c.shadowTable.interfaces)
    (hpending : c'.shadowTable.pendingDestroyGuestIds = c.shadowTable.pendingDestroyGuestIds)
    (hmapped : c'.shadowTable.guestToHost = c.shadowTable.guestToHost)
    (hnews : c'.traffic = news ++ c.traffic)
    (hquiet : news.filterMap HostTraffic.surfaceRequest = []) : Aside c c' := by
  refine ⟨fun i _ g => ?_, ⟨news, hnews, hquiet⟩, fun g hg => hmapped ▸ hg⟩
  simp only [ShadowTable.liveHost, hinterfaces, hpending, hmapped]

/-- Steps that touch neither the table nor the traffic. -/
theorem of_same (htable : c'.shadowTable = c.shadowTable) (htraffic : c'.traffic = c.traffic) :
    Aside c c' :=
  .of_eq [] (by rw [htable]) (by rw [htable]) (by rw [htable]) htraffic rfl

end Aside

theorem liveHost_other (hi : c.shadowTable.interfaces.get g = some i)
    (hother : i.isDoubleBuffered = false) (hj : j.isDoubleBuffered = true) :
    c.shadowTable.liveHost j g = none := by
  rw [ShadowTable.liveHost, if_neg]
  rintro ⟨hj', -⟩
  obtain rfl := Option.some.inj (hi.symm.trans hj')
  simp [hother] at hj

theorem liveHost_unmapped (hg : c.shadowTable.guestToHost.get g = none) :
    c.shadowTable.liveHost i g = none := by
  simp [ShadowTable.liveHost, hg]

/-- What was sent when the traffic grew by some messages. -/
theorem sentTraffic_eq (news : List HostTraffic) (hnews : c'.traffic = news ++ c.traffic) :
    sentTraffic c c' = news.reverse := by
  simp [sentTraffic, hnews]

theorem Aside.sent (haside : Aside c c') :
    (sentTraffic c c').filterMap HostTraffic.surfaceRequest = [] := by
  obtain ⟨news, hnews, hquiet⟩ := haside.quiet
  rw [sentTraffic_eq _ hnews, List.filterMap_reverse, hquiet]
  rfl

/-! ## New objects -/

theorem mapNewId_live (hc : Consistent lost c) {sender : ℕ}
    (havail : c.shadowTable.isGuestIdAvailable g = true) (h' : mapNewId c sender g i = some c') :
    ∃ hostId, c.shadowTable.hostIdFree hostId = true ∧ 2 ≤ hostId ∧
      c'.traffic = .create hostId :: c.traffic ∧
      ShadowTable.SameBut g c.shadowTable c'.shadowTable ∧
      ∀ j, c'.shadowTable.liveHost j g = if j = i then some hostId else none := by
  obtain ⟨-, -, hg, -⟩ := ShadowTable.isGuestIdAvailable_iff.mp havail
  obtain ⟨⟨hostId, t⟩, halloc, heq⟩ := Option.bind_eq_some_iff.mp h'
  obtain ⟨hfree, hle, n, rfl⟩ := ShadowTable.allocateHostId_eq_some halloc
  obtain rfl := Option.some.inj heq
  have hh := (ShadowTable.hostIdFree_iff.mp hfree).1
  refine ⟨hostId, hfree, hle, rfl, ShadowTable.registerObject_sameBut hg hh, fun j => ?_⟩
  have hpending : g ∉ c.shadowTable.pendingDestroyGuestIds := fun hmem =>
    hc.pending_mapped g hmem hg
  dsimp only [Context.queue]
  rw [ShadowTable.registerObject_fresh (by exact hg) (by exact hh)]
  simp [ShadowTable.liveHost, hpending, eq_comm]

theorem mapNewId_aside (hc : Consistent lost c) {sender : ℕ} (hi : i.isDoubleBuffered = false)
    (havail : c.shadowTable.isGuestIdAvailable g = true) (h' : mapNewId c sender g i = some c') :
    Aside c c' := by
  obtain ⟨-, -, hg, -⟩ := ShadowTable.isGuestIdAvailable_iff.mp havail
  obtain ⟨hostId, -, hle, htraffic, hsame, hlive⟩ := mapNewId_live hc havail h'
  refine .of_sameBut [.create hostId] hsame (fun j _ => liveHost_unmapped hg)
    (fun j hj => ?_) (fun hnull => ?_) htraffic rfl
  · rw [hlive, if_neg]
    rintro rfl
    simp [hi] at hj
  · have hmap := (ShadowTable.liveHost_eq_some.mp ((hlive i).trans (if_pos rfl))).2.2
    rw [hnull, Option.some.injEq] at hmap
    omega

theorem mapAnnouncedId_aside {sender : ℕ} (hi : i.isDoubleBuffered = false)
    (havail : c.shadowTable.isHostIdAvailable h = true)
    (h' : mapAnnouncedId c sender h i = some c') : Aside c c' := by
  obtain ⟨⟨guestId, t⟩, halloc, heq⟩ := Option.bind_eq_some_iff.mp h'
  obtain ⟨-, hg, -, n, rfl⟩ := ShadowTable.allocateGuestServerId_eq_some halloc
  obtain rfl := Option.some.inj heq
  obtain ⟨hone, hfree⟩ := Bool.and_eq_true_iff.mp havail
  have hh := (ShadowTable.hostIdFree_iff.mp hfree).1
  refine .of_sameBut (g := guestId) [.announce h]
    (ShadowTable.registerObject_sameBut hg hh) (fun j _ => liveHost_unmapped hg) (fun j hj => ?_)
    (fun hnull => ?_) rfl rfl
  · refine liveHost_other (i := i) ?_ hi hj
    dsimp only [Context.queue]
    rw [ShadowTable.registerObject_fresh (by exact hg) (by exact hh)]
    simp
  · dsimp only [Context.queue] at hnull
    rw [ShadowTable.registerObject_fresh (by exact hg) (by exact hh)] at hnull
    simp only [Table.get_set, if_true, Option.some.injEq] at hnull
    simp [hnull] at hone

theorem createHostBuffer_aside (hc : Consistent lost c) {temporary : Interface} {version : ℕ}
    {buffer : BufferState} (hg : c.shadowTable.guestToHost.get g = none)
    (h' : createHostBuffer c g temporary version buffer = some c') : Aside c c' := by
  obtain ⟨temporaryId, hostId, n, -, -, hle, -, rfl⟩ := createHostBuffer_eq_some hc hg h'
  refine .of_sameBut (g := g) [.destroy temporaryId, .create hostId, .create temporaryId]
    (fun g' hne => by simp [hne]) (fun j _ => liveHost_unmapped hg)
    (fun j hj => liveHost_other (i := .wlBuffer) (by simp) rfl hj) (fun hnull => ?_) rfl rfl
  simp only [Table.get_set, if_true, Option.some.injEq] at hnull
  omega

theorem onCreateBuffer_aside (hc : Consistent lost c) {pool : ℕ} {request : BufferRequest}
    {storage : HostStorage} {result : Action × Context}
    (havail : c.shadowTable.isGuestIdAvailable g = true)
    (h₁ : onCreateBuffer c pool g request storage = some result) : Aside c result.2 := by
  obtain ⟨-, -, hg, -⟩ := ShadowTable.isGuestIdAvailable_iff.mp havail
  have hcreate : ∀ {temporary version buffer},
      (createHostBuffer c g temporary version buffer).map (Action.drop, ·) = some result →
        Aside c result.2 := by
    intro temporary version buffer hmap
    obtain ⟨c₂, h₂, rfl⟩ := Option.map_eq_some_iff.mp hmap
    exact createHostBuffer_aside hc hg h₂
  have herror : some (Action.drop, c.queueProtocolError) = some result → Aside c result.2 := by
    intro heq
    exact Option.some.inj heq ▸ .of_same rfl rfl
  unfold onCreateBuffer at h₁
  split_ifs at h₁
  · exact Option.some.inj h₁ ▸ .refl c
  · split at h₁
    · exact herror h₁
    · dsimp only at h₁
      split_ifs at h₁
      · split at h₁
        · exact herror h₁
        · exact hcreate h₁
        · split at h₁
          · exact herror h₁
          · exact hcreate h₁
      · exact herror h₁

theorem onCreateImmed_aside (hc : Consistent lost c) {params : ℕ} {width height : ℤ}
    {format : ℕ} {duplicated : Bool} {action : Action} {c₁ : Context}
    (havail : c.shadowTable.isGuestIdAvailable g = true)
    (h₁ : onCreateImmed c params g width height format duplicated = some (action, c₁))
    (hsafe : c₁.fatalProtocolError = false) : Aside c c₁ := by
  obtain ⟨-, -, hg, -⟩ := ShadowTable.isGuestIdAvailable_iff.mp havail
  obtain ⟨heq, -⟩ | ⟨hostId, version, n, pending, used, hfree, hle, rfl⟩ :=
    onCreateImmed_eq_some hc h₁ hsafe
  · obtain ⟨-, rfl⟩ := Prod.mk.inj heq
    exact .refl c₁
  · have hh := (ShadowTable.hostIdFree_iff.mp hfree).1
    refine .of_sameBut (g := g) [.create hostId]
      (ShadowTable.registerObject_sameBut hg hh) (fun j _ => liveHost_unmapped hg) (fun j hj => ?_)
      (fun hnull => ?_) rfl rfl
    · refine liveHost_other (i := .wlBuffer) ?_ rfl hj
      rw [ShadowTable.registerObject_fresh (by exact hg) (by exact hh)]
      simp
    · rw [ShadowTable.registerObject_fresh (by exact hg) (by exact hh)] at hnull
      simp only [Table.get_set, if_true, Option.some.injEq] at hnull
      omega

/-! ## Destructors -/

/-- A destroyed object is not live any more, and all others are as before. -/
theorem destroyPlain_live (c : Context) (g : ℕ) :
    ShadowTable.SameBut g c.shadowTable (destroyPlain c g).shadowTable ∧
      (∀ i, (destroyPlain c g).shadowTable.liveHost i g = none) ∧
      (∀ h, (destroyPlain c g).shadowTable.guestToHost.get g = some h →
        c.shadowTable.guestToHost.get g = some h) ∧
      ∃ news, (destroyPlain c g).traffic = news ++ c.traffic ∧
        news.filterMap HostTraffic.surfaceRequest = [] := by
  unfold destroyPlain
  cases hg : c.shadowTable.getHostId g with
  | some hostId =>
    unfold forwardDestructor
    dsimp only
    split_ifs
    · refine ⟨ShadowTable.removeId_sameBut _ g, fun i => ShadowTable.removeId_liveHost _ g,
        fun h hmap => ?_, [.destroy hostId], rfl, rfl⟩
      simp [ShadowTable.removeId_guestToHost] at hmap
    · refine ⟨ShadowTable.markPendingDestroy_sameBut _ g,
        fun i => ShadowTable.markPendingDestroy_liveHost _ g, fun h hmap => ?_,
        [.destroy hostId], rfl, rfl⟩
      rwa [ShadowTable.markPendingDestroy_guestToHost] at hmap
  | none =>
    unfold queueLocalDeleteId
    dsimp only
    split_ifs
    · refine ⟨ShadowTable.removeId_sameBut _ g, fun i => ShadowTable.removeId_liveHost _ g,
        fun h hmap => ?_, [], rfl, rfl⟩
      simp [ShadowTable.removeId_guestToHost] at hmap
    · exact ⟨fun g' _ => ⟨rfl, .rfl, rfl⟩, fun i => liveHost_unmapped hg, fun _ => id, [], rfl, rfl⟩

theorem destroyPlain_aside (hi : c.shadowTable.interfaces.get g = some i)
    (hother : i.isDoubleBuffered = false) : Aside c (destroyPlain c g) := by
  obtain ⟨hsame, hnone, hmap, news, hnews, hquiet⟩ := destroyPlain_live c g
  exact .of_sameBut news hsame (fun j hj => liveHost_other hi hother hj) (fun j _ => hnone j)
    (hmap 0) hnews hquiet

theorem onDeleteId_aside (hc : Consistent lost c) (hconf : c.hostLifetime h = some .destroyed) :
    Aside c (onDeleteId (c.queue (.deleteId h)) h) := by
  have hended : ∀ g, c.shadowTable.hostToGuest.get h = some g → ∀ i,
      c.shadowTable.liveHost i g = none := by
    intro g hmap i
    rw [ShadowTable.liveHost, if_neg]
    rintro ⟨-, hlive⟩
    have hlife := hc.live g h ((hc.paired g h).mpr hmap) (.inl hlive)
    rw [hconf, livePhase] at hlife
    split_ifs at hlife <;> simp at hlife
  unfold onDeleteId ShadowTable.consumeHostDeleteId
  dsimp only [Context.queue]
  split_ifs
  · exact .of_eq [.deleteId h] rfl rfl rfl rfl rfl
  · cases horph : c.orphanedDmabufParams.get h with
    | some g =>
      dsimp only
      split_ifs with hown
      · have hmap : c.shadowTable.hostToGuest.get h = some g := by
          rw [Bool.and_eq_true] at hown
          exact of_decide_eq_true hown.1
        refine .of_sameBut (g := g) [.deleteId h]
          (ShadowTable.removeGuestMapping_sameBut _ g) (fun i _ => hended g hmap i)
          (fun i _ => liveHost_unmapped ?_) (fun hnull => ?_) rfl rfl
        · exact (ShadowTable.removeGuestMapping_guestToHost _ g g).trans (if_pos rfl)
        · have hremoved := ShadowTable.removeGuestMapping_guestToHost
            { c.shadowTable with
              pendingDestroyHostIds := c.shadowTable.pendingDestroyHostIds.erase h } g g
          rw [if_pos rfl] at hremoved
          exact absurd (hnull.symm.trans hremoved) (by simp)
      · exact .of_eq [.deleteId h] rfl rfl rfl rfl rfl
    | none =>
      dsimp only [ShadowTable.getGuestId]
      cases hmap : c.shadowTable.hostToGuest.get h with
      | none => exact .of_eq [.deleteId h] rfl rfl rfl rfl rfl
      | some g =>
        refine .of_sameBut (g := g) [.deleteId h] (ShadowTable.removeId_sameBut _ g)
          (fun i _ => hended g hmap i) (fun i _ => ShadowTable.removeId_liveHost _ g)
          (fun hnull => ?_) rfl rfl
        simp [ShadowTable.removeId_guestToHost] at hnull

/-! ## Buffers -/

theorem retireBuffer_live (c : Context) (g h : ℕ) :
    ShadowTable.SameBut g c.shadowTable (retireBuffer c g h).shadowTable ∧
      ((retireBuffer c g h).shadowTable.interfaces.get g = c.shadowTable.interfaces.get g ∨
        (retireBuffer c g h).shadowTable.interfaces.get g = none) ∧
      ∃ awaiting pending,
        (retireBuffer c g h).traffic = .destroyBuffer h awaiting pending :: c.traffic := by
  have hcases : ((retireBuffer c g h).shadowTable = c.shadowTable ∨
      (retireBuffer c g h).shadowTable = c.shadowTable.removeId g ∨
      (retireBuffer c g h).shadowTable = c.shadowTable.markPendingDestroy g) ∧
      ∃ awaiting pending,
        (retireBuffer c g h).traffic = .destroyBuffer h awaiting pending :: c.traffic := by
    unfold retireBuffer retireDestroyedBufferMapping Context.completeQueuedBufferDestroy
    dsimp only
    split_ifs <;> simp [queueHostBufferDestroy, Context.queue]
  obtain ⟨heq | heq | heq, htraffic⟩ := hcases <;> rw [heq]
  · exact ⟨fun _ _ => ⟨rfl, .rfl, rfl⟩, .inl rfl, htraffic⟩
  · exact ⟨ShadowTable.removeId_sameBut _ g, .inr (by simp [ShadowTable.removeId]), htraffic⟩
  · refine ⟨ShadowTable.markPendingDestroy_sameBut _ g, .inl ?_, htraffic⟩
    unfold ShadowTable.markPendingDestroy
    split <;> rfl

/-- The destruction of buffers concerns no surface and no viewport. -/
theorem retireBuffers_live {ids : List (ℕ × ℕ)} (hids : ∀ p ∈ ids, ∀ i, i.isDoubleBuffered = true →
    c.shadowTable.interfaces.get p.1 ≠ some i) :
    (∀ i, i.isDoubleBuffered = true → ∀ g,
      (ids.foldl (fun c p => retireBuffer c p.1 p.2) c).shadowTable.liveHost i g =
        c.shadowTable.liveHost i g) ∧
    ∃ news, (ids.foldl (fun c p => retireBuffer c p.1 p.2) c).traffic = news ++ c.traffic ∧
      news.reverse.filterMap HostTraffic.surfaceRequest =
        ids.map fun p => SurfaceRequest.destroyBuffer p.2 := by
  induction ids generalizing c with
  | nil => exact ⟨fun _ _ _ => rfl, [], rfl, rfl⟩
  | cons p ids ih =>
    obtain ⟨hp, hids⟩ := List.forall_mem_cons.mp hids
    obtain ⟨hsame, hself, awaiting, pending, htraffic⟩ := retireBuffer_live c p.1 p.2
    have hnever : ∀ g, (∀ i, i.isDoubleBuffered = true → c.shadowTable.interfaces.get g ≠ some i) →
        ∀ i, i.isDoubleBuffered = true →
          (retireBuffer c p.1 p.2).shadowTable.interfaces.get g ≠ some i := by
      intro g hg i hi
      by_cases heq : g = p.1
      · subst heq
        rcases hself with hself | hself
        · exact hself ▸ hg i hi
        · simp [hself]
      · exact (hsame g heq).1 ▸ hg i hi
    obtain ⟨hlive, news, hnews, hsent⟩ := ih (c := retireBuffer c p.1 p.2)
      fun q hq => hnever q.1 (hids q hq)
    refine ⟨fun i hi g => (hlive i hi g).trans ?_,
      news ++ [.destroyBuffer p.2 awaiting pending], ?_, ?_⟩
    · by_cases heq : g = p.1
      · subst heq
        simp [ShadowTable.liveHost, hp i hi, hnever p.1 hp i hi]
      · exact hsame.liveHost heq
    · rw [List.foldl_cons, hnews, htraffic, List.append_assoc, List.singleton_append]
    · rw [List.reverse_append, List.filterMap_append, hsent]
      rfl

/-- The pass destroys the retirable buffers and tells the host so. -/
theorem retireEligibleBuffers_live (hc : Consistent lost c) :
    (∀ i, i.isDoubleBuffered = true → ∀ g,
      (retireEligibleBuffers c).shadowTable.liveHost i g = c.shadowTable.liveHost i g) ∧
    ∃ news, (retireEligibleBuffers c).traffic = news ++ c.traffic ∧ ∃ buffers : List ℕ,
      news.reverse.filterMap HostTraffic.surfaceRequest =
        buffers.map SurfaceRequest.destroyBuffer ∧
      ∀ h ∈ buffers, ∃ g, Retirable c g h := by
  have hids : ∀ p ∈ retirementCandidates c, ∀ i, i.isDoubleBuffered = true →
      c.shadowTable.interfaces.get p.1 ≠ some i := by
    rintro ⟨g, h⟩ hmem i -
    obtain ⟨hg, hphase, -⟩ := (mem_retirementCandidates hc).mp hmem
    simp [(hc.deferred g h hg hphase).2.1]
  obtain ⟨hlive, news, hnews, hsent⟩ := retireBuffers_live hids
  refine ⟨hlive, news, hnews, (retirementCandidates c).map Prod.snd, ?_, fun h hmem => ?_⟩
  · rw [hsent, List.map_map]
    rfl
  · obtain ⟨⟨g, _⟩, hcandidate, rfl⟩ := List.mem_map.mp hmem
    exact ⟨g, (mem_retirementCandidates hc).mp hcandidate⟩

/-! ## The step -/

theorem processParams_aside (c : Context) (params : ℕ) (duplicated : Bool) :
    Aside c (processParams c params duplicated).2 := by
  rcases hres : processParams c params duplicated with ⟨sent, c₁⟩
  obtain ⟨⟨pending, used, fatal, rfl⟩, -⟩ := processParams_eq hres
  exact .of_same rfl rfl

theorem releaseOrphanedParams_aside (c : Context) (params : ℕ) :
    Aside c (releaseOrphanedParams c params) := by
  unfold releaseOrphanedParams
  split_ifs
  · exact .of_eq [] rfl rfl rfl rfl rfl
  · exact .refl c

/-- Requests that are neither about surfaces nor create one. -/
theorem requestStep_aside (hc : Consistent lost c) {m : Message}
    (hm : m.isAboutSurfaces = false) (hnew : ∀ sender g, m ≠ .newObject sender g .wlSurface)
    (h' : requestStep maps c m = some c') : Aside c c' := by
  cases m
  case newObject sender guestId i =>
    obtain ⟨hallowed, h'⟩ := guarded_eq_some.mp h'
    simp only [Bool.and_eq_true] at hallowed
    refine mapNewId_aside hc ?_ hallowed.2 h'
    cases i <;> simp_all [Interface.isPlain, Interface.isDoubleBuffered]
  case newLocalObject guestId i version =>
    obtain ⟨hallowed, h'⟩ := guarded_eq_some.mp h'
    simp only [Bool.and_eq_true] at hallowed
    obtain rfl := Option.some.inj h'
    obtain ⟨-, -, hg, -⟩ := ShadowTable.isGuestIdAvailable_iff.mp hallowed.2
    exact .of_sameBut (g := guestId) []
      (fun g' hne => by simp [ShadowTable.trackInterfaceWithVersion, hne])
      (fun j _ => liveHost_unmapped hg) (fun j _ => liveHost_unmapped hg) id rfl rfl
  case destroyObject guestId i =>
    obtain ⟨hallowed, h'⟩ := guarded_eq_some.mp h'
    simp only [Bool.and_eq_true] at hallowed
    obtain ⟨-, rfl⟩ := settle_eq_some.mp h'
    have hsender := senderAllowed_iff.mp (senderAllowed_of_requestAllowed hallowed.2)
    have hother : i.isDoubleBuffered = false := by
      cases i <;>
        simp_all [Interface.isPlain, Interface.isLocalOnly, Interface.isDoubleBuffered]
    split_ifs
    · have hbooks : Aside c (poolOnDestroy c guestId).2 := .of_same rfl rfl
      exact hbooks.trans (destroyPlain_aside hsender.1 hother)
    · have hbooks : Aside c (shmOnRelease c guestId).2 := .of_same rfl rfl
      exact hbooks.trans (destroyPlain_aside hsender.1 hother)
    · exact destroyPlain_aside hsender.1 hother
  case createPool shm pool size bytes =>
    obtain ⟨hallowed, h'⟩ := guarded_eq_some.mp h'
    simp only [Bool.and_eq_true] at hallowed
    obtain ⟨-, rfl⟩ := settle_eq_some.mp h'
    obtain ⟨-, -, hg, -⟩ := ShadowTable.isGuestIdAvailable_iff.mp hallowed.2
    unfold onCreatePool
    split_ifs
    · exact .refl c
    · exact .of_same rfl rfl
    · split
      · exact .of_same rfl rfl
      · exact .of_sameBut (g := pool) []
          (fun g' hne => by simp [ShadowTable.trackInterfaceWithVersion, hne])
          (fun j _ => liveHost_unmapped hg) (fun j _ => liveHost_unmapped hg) id rfl rfl
  case createBuffer pool guestId request storage =>
    obtain ⟨hallowed, h'⟩ := guarded_eq_some.mp h'
    simp only [Bool.and_eq_true] at hallowed
    obtain ⟨result, h₁, hsettle⟩ := Option.bind_eq_some_iff.mp h'
    obtain ⟨-, rfl⟩ := settle_eq_some.mp hsettle
    exact onCreateBuffer_aside hc hallowed.2 h₁
  case createParams factory params =>
    obtain ⟨hallowed, h'⟩ := guarded_eq_some.mp h'
    simp only [Bool.and_eq_true] at hallowed
    have hbooks : Consistent lost (onCreateParams c params).2 :=
      hc.frame ⟨rfl, rfl, rfl, rfl, fun _ => rfl⟩ fun _ => .inl
    have haside : Aside c (onCreateParams c params).2 := .of_same rfl rfl
    exact haside.trans (mapNewId_aside hbooks rfl hallowed.2 h')
  case addPlane params plane duplicated =>
    obtain ⟨-, rfl⟩ := settle_eq_some.mp (guarded_eq_some.mp h').2
    unfold onAdd
    split_ifs <;> exact .of_same rfl rfl
  case create params width height format duplicated =>
    obtain ⟨-, rfl⟩ := settle_eq_some.mp (guarded_eq_some.mp h').2
    have hsent := processParams_aside c params duplicated
    unfold onCreate
    split_ifs
    · exact .of_same rfl rfl
    · exact .of_same rfl rfl
    · split
      · rename_i hres
        rwa [hres] at hsent
      · rename_i hres
        rw [hres] at hsent
        split
        · exact hsent.trans (.of_same rfl rfl)
        · exact hsent.trans (.of_same rfl rfl)
  case createImmed params buffer width height format duplicated =>
    obtain ⟨hallowed, h'⟩ := guarded_eq_some.mp h'
    simp only [Bool.and_eq_true] at hallowed
    obtain ⟨⟨action, c₁⟩, h₁, hsettle⟩ := Option.bind_eq_some_iff.mp h'
    obtain ⟨hsafe, rfl⟩ := settle_eq_some.mp hsettle
    exact onCreateImmed_aside hc hallowed.2 h₁ hsafe
  case destroyParams params =>
    obtain ⟨hallowed, h'⟩ := guarded_eq_some.mp h'
    obtain ⟨-, rfl⟩ := settle_eq_some.mp h'
    have hsender := senderAllowed_iff.mp (senderAllowed_of_requestAllowed hallowed)
    obtain ⟨used, pending, creates, orphans, heq⟩ := paramsOnDestroy_eq c params
    have hbooks : Aside c (paramsOnDestroy c params).2 := by
      rw [heq]
      exact .of_same rfl rfl
    exact hbooks.trans (destroyPlain_aside (by rw [heq]; exact hsender.1) rfl)
  case writePool =>
    obtain rfl := Option.some.inj h'
    exact .of_same rfl rfl
  case deleteId | created | failed | dataOffer | shmGlobalRemoved => simp [requestStep] at h'
  all_goals simp [Message.isAboutSurfaces] at hm

/-- Events; the buffer of destroyed parameters is destroyed at once. -/
theorem eventStep_aside (hc : Consistent lost c) {m : Message}
    (hconf : hostConforms c m = true) (hm : m.isAboutSurfaces = false)
    (h' : eventStep c m = some c') : Aside c c' ∨
      (∀ i, i.isDoubleBuffered = true → ∀ g,
        c'.shadowTable.liveHost i g = c.shadowTable.liveHost i g) ∧
      (∀ g, c'.shadowTable.guestToHost.get g = some 0 →
        c.shadowTable.guestToHost.get g = some 0) ∧
      ∃ hostId, c.shadowTable.hostIdFree hostId = true ∧
        (sentTraffic c c').filterMap HostTraffic.surfaceRequest = [.destroyBuffer hostId] := by
  cases m
  case deleteId hostId =>
    obtain ⟨-, rfl⟩ := settle_eq_some.mp h'
    exact .inl (onDeleteId_aside hc (by simpa [hostConforms] using hconf))
  case created params buffer =>
    rw [eventStep] at h'
    obtain rfl | ⟨-, -, h'⟩ := deliver_eq_some h'
    · exact .inl (.refl c')
    · obtain ⟨havail, h'⟩ := guarded_eq_some.mp h'
      simp only [hostConforms, Bool.and_eq_true, Bool.or_eq_true] at hconf
      have hfree : c.shadowTable.hostIdFree buffer = true := (Bool.and_eq_true_iff.mp havail).2
      obtain ⟨p, hp, -⟩ | ⟨g, horph⟩ := hc.answer_cases hconf.2
      · rw [onCreated_awaited hc hfree hp] at h'
        obtain ⟨c₁, h₁, h'⟩ := Option.bind_eq_some_iff.mp h'
        obtain ⟨-, rfl⟩ := settle_eq_some.mp h₁
        have hbooks : Aside c { c with
            pendingNativeCreates := c.pendingNativeCreates.erase params
            renderBuffers := c.renderBuffers.set buffer (.guestAlive
              { backing := .native p.dimensions, useState := .neverSubmitted
                implicitSyncFallback := false }) } := .of_same rfl rfl
        exact .inl (hbooks.trans (mapAnnouncedId_aside rfl havail h'))
      · rw [onCreated_orphan havail horph] at h'
        obtain ⟨c₁, h₁, h'⟩ := Option.bind_eq_some_iff.mp h'
        obtain ⟨-, rfl⟩ := settle_eq_some.mp h₁
        obtain rfl := Option.some.inj h'
        obtain ⟨version, heq⟩ := destroyOrphanedBuffer_eq hc params hfree
        have hrelease := releaseOrphanedParams_aside
          (forgetParams (destroyOrphanedBuffer c params buffer) params) params
        obtain ⟨news, hnews, hquiet⟩ := hrelease.quiet
        refine .inr ⟨fun i hi g => (hrelease.live i hi g).trans (by rw [heq]; rfl),
          fun g hnull => ?_, buffer, hfree, ?_⟩
        · have hold := hrelease.null g hnull
          rwa [heq] at hold
        have hsent : sentTraffic c (releaseOrphanedParams
            (forgetParams (destroyOrphanedBuffer c params buffer) params) params) =
            (news ++ [HostTraffic.destroyBuffer buffer false false, .announce buffer]).reverse :=
          sentTraffic_eq _ (by rw [hnews, heq, List.append_assoc]; rfl)
        rw [hsent, List.filterMap_reverse, List.filterMap_append, hquiet]
        rfl
  case failed params =>
    rw [eventStep] at h'
    obtain rfl | ⟨-, -, h'⟩ := deliver_eq_some h'
    · exact .inl (.refl c')
    · obtain ⟨-, rfl⟩ := settle_eq_some.mp h'
      have hbooks : Aside c (forgetParams c params) := .of_same rfl rfl
      refine .inl ?_
      unfold onFailed
      split_ifs
      · exact hbooks.trans (releaseOrphanedParams_aside _ params)
      · split
        · exact .refl c
        · split_ifs
          · exact hbooks
          · split
            · exact .refl c
            · dsimp only
              split_ifs <;> exact .of_same rfl rfl
  case dataOffer device offer =>
    rw [eventStep] at h'
    obtain rfl | ⟨-, -, h'⟩ := deliver_eq_some h'
    · exact .inl (.refl c')
    · obtain ⟨havail, h'⟩ := guarded_eq_some.mp h'
      exact .inl (mapAnnouncedId_aside rfl havail h')
  case shmGlobalRemoved =>
    obtain rfl := Option.some.inj h'
    exact .inl (.of_same rfl rfl)
  case release => simp [Message.isAboutSurfaces] at hm
  all_goals simp [eventStep] at h'

/-! ## Host IDs are not null -/

namespace Context

/-- No object has the host ID that stands for no object. -/
def NonNull (c : Context) : Prop := ∀ g, c.shadowTable.guestToHost.get g ≠ some 0

theorem NonNull.mapNewId (hn : c.NonNull) (hc : Consistent lost c) {sender : ℕ}
    (havail : c.shadowTable.isGuestIdAvailable g = true) (h' : mapNewId c sender g i = some c') :
    c'.NonNull := by
  obtain ⟨hostId, -, hle, -, hsame, hself⟩ := mapNewId_live hc havail h'
  intro g' hnull
  by_cases heq : g' = g
  · have hmap := (ShadowTable.liveHost_eq_some.mp ((hself i).trans (if_pos rfl))).2.2
    rw [← heq, hnull, Option.some.injEq] at hmap
    omega
  · exact hn g' ((hsame g' heq).2.2 ▸ hnull)

theorem NonNull.retire (hn : c.NonNull) (hc : Consistent lost c) :
    (retireEligibleBuffers c).NonNull := fun g hnull =>
  hn g ((retireEligibleBuffers_spec hc).2.mapped g 0 hnull)

theorem NonNull.onCommit (hn : c.NonNull) (hc : Consistent lost c) (maps : DamageMapping) (s : ℕ)
    (env : CommitEnvironment) : (onCommit maps c s env).2.NonNull := by
  rcases onCommit_cases maps c s env with ⟨-, -, c₀, hundone, heq | heq⟩ |
    ⟨-, -, messages, c₁, c₂, c₃, hbuild, hcopy, hwait, hfinal, heq⟩ <;> rw [heq]
  · obtain ⟨surfaces, r, fatal, -, -, rfl⟩ := hundone
    exact hn
  · have hundo := hundone.consistent hc
    obtain ⟨surfaces, r, fatal, -, -, rfl⟩ := hundone
    exact NonNull.retire hn hundo
  · obtain ⟨surfaces, r, rfl, hphase, hbuffers⟩ := forwarded_eq hcopy hwait hfinal
    refine NonNull.retire ?_ ((hc.forwarded hphase hbuffers).queue_messages
      (buildSurfaceCommitMessages_quiet hbuild))
    rw [queue_messages_eq]
    exact hn

theorem NonNull.bufferOnDestroy (hn : c.NonNull) (hc : Consistent lost c)
    (hallowed : c.senderAllowed g .wlBuffer = true) : (bufferOnDestroy c g).2.NonNull := by
  obtain ⟨h, buffer, hg, he, ⟨-, -, heq⟩ | ⟨-, -, heq⟩⟩ := bufferOnDestroy_cases hc hallowed <;>
    rw [heq]
  · obtain ⟨hi, hlive, -⟩ := senderAllowed_iff.mp hallowed
    obtain ⟨versions, hretire⟩ :=
      ShadowTable.retireGuestObject_mapped hg hi (hc.unlisted g h hg hlive)
    rw [hretire]
    exact hn
  · have hf := retireBuffer_frame hc hg (.inl (by
      simp [RenderBufferRegistry.phase, he, RenderBuffer.phase]))
    exact fun g' hnull => hn g' (hf.mapped g' 0 hnull)

theorem NonNull.bufferOnRelease (hn : c.NonNull) (hc : Consistent lost c) (h : ℕ) :
    (bufferOnRelease c h).2.NonNull := by
  have hphase : ∀ h', (c.renderBuffers.release h).2.phase h' = c.renderBuffers.phase h' :=
    fun _ => RenderBufferRegistry.phase_release
  obtain heq | ⟨g, hg, ⟨-, heq⟩ | ⟨hdestroyed, -, heq⟩⟩ := bufferOnRelease_cases hc h <;> rw [heq]
  · exact hn
  · exact hn
  · have hnext : Consistent lost { c with renderBuffers := (c.renderBuffers.release h).2 } :=
      hc.withRenderBuffers hphase
    have hf := retireBuffer_frame hnext hg (.inr ((hphase h).trans hdestroyed))
    exact fun g' hnull => hn g' (hf.mapped g' 0 hnull)

end Context

theorem step_nonNull (hn : c.NonNull) (hc : Consistent lost c) {m : Message}
    (h' : step maps c m = some c') : c'.NonNull := by
  obtain ⟨hconf, hrequest | ⟨-, hevent⟩⟩ := step_eq_some.mp h'
  · by_cases hother : m.isAboutSurfaces = false ∧ ∀ sender g, m ≠ .newObject sender g .wlSurface
    · exact fun g hnull => hn g ((requestStep_aside hc hother.1 hother.2 hrequest).null g hnull)
    cases m
    case newObject sender guestId i =>
      obtain ⟨hallowed, hrequest⟩ := guarded_eq_some.mp hrequest
      simp only [Bool.and_eq_true] at hallowed
      exact hn.mapNewId hc hallowed.2 hrequest
    case attach surface buffer x y =>
      obtain ⟨-, hbuffer, offset, rfl⟩ := attach_eq_some hrequest
      refine Context.NonNull.retire ?_ (hc.withAttachment hbuffer offset)
      rcases c.withAttachment_cases surface buffer offset with heq | ⟨h, b, heq⟩ <;> rw [heq] <;>
        exact hn
    case damage | damageBuffer | offset =>
      obtain ⟨-, rfl⟩ := settle_eq_some.mp (guarded_eq_some.mp hrequest).2
      exact hn
    case setBufferScale | setBufferTransform =>
      obtain ⟨-, rfl⟩ := settle_eq_some.mp (guarded_eq_some.mp hrequest).2
      first | unfold onSetBufferScale | unfold onSetBufferTransform
      split <;> exact hn
    case commit surface env =>
      obtain ⟨-, rfl⟩ := settle_eq_some.mp (guarded_eq_some.mp hrequest).2
      exact hn.onCommit hc maps surface env
    case destroySurface surface =>
      obtain ⟨hallowed, hrequest⟩ := guarded_eq_some.mp hrequest
      obtain ⟨-, rfl⟩ := settle_eq_some.mp hrequest
      obtain ⟨h, r, fatal, c₁, -, -, -, hc₁, -, hmarked, heq⟩ :=
        surfaceOnDestroy_eq hc (senderAllowed_of_requestAllowed hallowed)
      rw [heq]
      have herased : (c₁.awaitDeleteId surface).NonNull := by
        subst hc₁
        exact hn
      exact herased.retire hmarked
    case getViewport viewporter viewport surface =>
      obtain ⟨hallowed, hrequest⟩ := guarded_eq_some.mp hrequest
      simp only [Bool.and_eq_true] at hallowed
      obtain ⟨c₁, h₁, hrequest⟩ := Option.bind_eq_some_iff.mp hrequest
      obtain ⟨-, rfl⟩ := settle_eq_some.mp h₁
      obtain ⟨hbooks, htable⟩ := hc.onGetViewport viewport surface
      have hnone : (onGetViewport c viewport surface).2.NonNull := by
        intro g
        rw [htable]
        exact hn g
      exact hnone.mapNewId hbooks (by rw [htable]; exact hallowed.1.2) hrequest
    case setSource | setDestination =>
      obtain ⟨-, rfl⟩ := settle_eq_some.mp (guarded_eq_some.mp hrequest).2
      first | unfold onSetSource | unfold onSetDestination
      dsimp only [updateViewport]
      split
      · exact hn
      · split <;> exact hn
    case destroyViewport viewport =>
      obtain ⟨-, rfl⟩ := settle_eq_some.mp (guarded_eq_some.mp hrequest).2
      have htable := (hc.viewportOnDestroy viewport).2
      obtain ⟨hsame, -, hmap, -⟩ := destroyPlain_live (viewportOnDestroy c viewport).2 viewport
      rw [htable] at hsame hmap
      intro g hnull
      by_cases heq : g = viewport
      · subst heq
        exact hn g (hmap 0 hnull)
      · exact hn g ((hsame g heq).2.2 ▸ hnull)
    case destroyBuffer guestId =>
      obtain ⟨hallowed, hrequest⟩ := guarded_eq_some.mp hrequest
      obtain ⟨-, rfl⟩ := settle_eq_some.mp hrequest
      exact hn.bufferOnDestroy hc (senderAllowed_of_requestAllowed hallowed)
    case release => simp [requestStep] at hrequest
    all_goals simp [Message.isAboutSurfaces] at hother
  · by_cases hother : m.isAboutSurfaces = false
    · rcases eventStep_aside hc hconf hother hevent with haside | ⟨-, hnull, -⟩
      · exact fun g hmap => hn g (haside.null g hmap)
      · exact fun g hmap => hn g (hnull g hmap)
    · cases m
      case release buffer =>
        rw [eventStep] at hevent
        obtain rfl | ⟨-, -, hevent⟩ := deliver_eq_some hevent
        · exact hn
        · obtain ⟨-, rfl⟩ := settle_eq_some.mp hevent
          exact hn.bufferOnRelease hc buffer
      all_goals simp_all [eventStep, Message.isAboutSurfaces]

end Sommelier
