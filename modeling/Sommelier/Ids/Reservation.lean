import Sommelier.Ids.Acknowledgements
import Sommelier.Ids.NewIdOrder

/-!
# Reserved host IDs

A host object of the proxy keeps its ID until the host acknowledged its destructor: whatever took
the object out of one host namespace put it into another. The objects that the handlers keep for
themselves stand in different slots, and unanswered parameters keep their ID until the answer.

## Main definitions

* `Retained`: what the namespaces hold of the objects the host was told about.
* `AllocatesUnused`: a new object gets an ID that is not in use.

## Main results

* `hostIds_reserved`: the IDs of every run whose host follows the rules.
* `internalObjects_apart`: the host objects the proxy keeps for itself.
-/
namespace Sommelier

/-- A new object gets an ID whose last object the host acknowledged. -/
def AllocatesUnused (log : List (LifetimeEvent ℕ)) (e : LifetimeEvent ℕ) : Prop :=
  ∀ h, e = .create h → ¬ Outstanding log h

/-- The objects the host was told about have their IDs; the parameters of an unanswered creation
keep theirs, and so do the objects in the slots. -/
structure Retained (t : ShadowTable) (orphans : Table ℕ ℕ) (slot : IdContext.Slot → Option ℕ)
    (traffic : List (LifetimeEvent ℕ)) : Prop where
  occupied : ∀ h, Outstanding traffic h → t.Occupied h
  marked : ∀ g h, orphans.get h ≠ none → t.hostToGuest.get h = some g →
    g ∈ t.pendingDestroyGuestIds ∧ g < guestServerIdStart
  answered : ∀ h, orphans.get h ≠ none → t.hostToGuest.get h = none →
    t.hostInterfaces.get h ≠ none ∧ ¬ Outstanding traffic h
  held : ∀ k x, slot k = some x →
    t.hostInterfaces.get x ≠ none ∧ t.hostToGuest.get x = none ∧ orphans.get x = none
  apart : ∀ k k' x, slot k = some x → slot k' = some x → k = k'
  history : EachAfter AllocatesUnused traffic

namespace Retained
variable {t : ShadowTable} {orphans : Table ℕ ℕ} {slot : IdContext.Slot → Option ℕ}
  {traffic : List (LifetimeEvent ℕ)} {g h n : ℕ} {i : Interface}
  {guestToHost guestVersions hostVersions : Table ℕ ℕ} {interfaces : Table ℕ Interface}
  {next : ServerId}

/-- The guest's side and the versions do not matter. -/
theorem frame (hr : Retained t orphans slot traffic) :
    Retained { t with
      guestToHost
      interfaces
      guestVersions
      hostVersions
      nextHostId := n
      nextGuestServerId := next } orphans slot traffic :=
  ⟨hr.occupied, hr.marked, hr.answered, hr.held, hr.apart, hr.history⟩

/-- What creates nothing on the host reserves nothing. -/
theorem log (hr : Retained t orphans slot traffic) (e : LifetimeEvent ℕ)
    (he : ∀ h, e ≠ .create h) : Retained t orphans slot (e :: traffic) := by
  have hout : ∀ h, Outstanding (e :: traffic) h → Outstanding traffic h := by
    intro h hh
    cases e with
    | create k => exact absurd rfl (he k)
    | announce k => exact hh
    | destroy k => exact hh
    | acknowledge k => exact hh.2
  refine ⟨fun h hh => hr.occupied h (hout h hh), hr.marked, fun h ho hh => ?_, hr.held, hr.apart,
    fun h heq => absurd heq (he h), hr.history⟩
  exact ⟨(hr.answered h ho hh).1, fun hnew => (hr.answered h ho hh).2 (hout h hnew)⟩

/-! ## Free IDs -/

/-- An ID that is free was acknowledged, and stands in no table and in no slot. -/
theorem unused_of_free (hr : Retained t orphans slot traffic) (hfree : t.hostIdFree h = true) :
    ¬ Outstanding traffic h := fun hh => by
  have hused := ShadowTable.occupied_iff.mp (hr.occupied h hh)
  rw [hfree] at hused
  cases hused

theorem orphan_of_free (hr : Retained t orphans slot traffic) (hfree : t.hostIdFree h = true) :
    orphans.get h = none := by
  obtain ⟨hh, hi, -⟩ := ShadowTable.hostIdFree_iff.mp hfree
  by_contra hne
  exact (hr.answered h hne hh).1 hi

theorem slot_of_free (hr : Retained t orphans slot traffic) (hfree : t.hostIdFree h = true)
    (k : IdContext.Slot) : slot k ≠ some h := fun hk =>
  (hr.held k h hk).1 (ShadowTable.hostIdFree_iff.mp hfree).2.1

/-! ## New objects -/

/-- A new pair; the host is told of it, or announced it. -/
theorem pair (hr : Retained t orphans slot traffic) (hfree : t.hostIdFree h = true) (g : ℕ)
    (traffic' : List (LifetimeEvent ℕ))
    (htraffic : ∀ k, Outstanding traffic' k → k = h ∨ Outstanding traffic k)
    (hhistory : EachAfter AllocatesUnused traffic') :
    Retained { t with hostToGuest := t.hostToGuest.set h g } orphans slot traffic' := by
  obtain ⟨hh, hhi, -, -⟩ := ShadowTable.hostIdFree_iff.mp hfree
  have horphan := hr.orphan_of_free hfree
  refine ⟨fun k hk => ?_, ?_, fun k ho hk => ?_, ?_, hr.apart, hhistory⟩
  · rcases htraffic k hk with rfl | hk
    · exact .inl (by simp)
    · have hocc := hr.occupied k hk
      unfold ShadowTable.Occupied at hocc ⊢
      grind [Table.get_set]
  · grind [hr.marked, Table.get_set]
  · have hne : k ≠ h := by
      rintro rfl
      exact ho horphan
    rw [Table.get_set, if_neg hne] at hk
    obtain ⟨hi, hout⟩ := hr.answered k ho hk
    exact ⟨hi, fun hnew => (htraffic k hnew).elim hne hout⟩
  · grind [hr.held, Table.get_set]

/-- A new host object of the proxy. -/
theorem host (hr : Retained t orphans slot traffic) (hfree : t.hostIdFree h = true)
    (hostVersions : Table ℕ ℕ) :
    Retained { t with hostInterfaces := t.hostInterfaces.set h i, hostVersions } orphans slot
      (.create h :: traffic) := by
  have horphan := hr.orphan_of_free hfree
  have hunused := hr.unused_of_free hfree
  obtain ⟨hh, hhi, -, -⟩ := ShadowTable.hostIdFree_iff.mp hfree
  refine ⟨fun k hk => ?_, hr.marked, fun k ho hk => ?_, ?_, hr.apart, ?_, hr.history⟩
  · rcases hk with rfl | hk
    · exact .inr (.inl (by simp))
    · have hocc := hr.occupied k hk
      unfold ShadowTable.Occupied at hocc ⊢
      grind [Table.get_set]
  · obtain ⟨hi, hout⟩ := hr.answered k ho hk
    refine ⟨by grind [Table.get_set], ?_⟩
    rintro (rfl | hnew)
    · exact ho horphan
    · exact hout hnew
  · intro k x hx
    have hheld := hr.held k x hx
    grind [Table.get_set]
  · rintro k heq
    exact LifetimeEvent.create.inj heq ▸ hunused

/-- More host objects have interfaces. -/
theorem name {hostInterfaces : Table ℕ Interface} (hr : Retained t orphans slot traffic)
    (hgrows : ∀ k, t.hostInterfaces.get k ≠ none → hostInterfaces.get k ≠ none) :
    Retained { t with hostInterfaces, hostVersions } orphans slot traffic := by
  refine ⟨fun k hk => ?_, hr.marked, fun k ho hk => ?_, fun k x hx => ?_, hr.apart, hr.history⟩
  · have hocc := hr.occupied k hk
    unfold ShadowTable.Occupied at hocc ⊢
    grind
  · exact ⟨hgrows k (hr.answered k ho hk).1, (hr.answered k ho hk).2⟩
  · exact ⟨hgrows x (hr.held k x hx).1, (hr.held k x hx).2⟩

/-! ## Slots -/

theorem empty (hr : Retained t orphans slot traffic) (k : IdContext.Slot) :
    Retained t orphans (Function.update slot k none) traffic := by
  refine ⟨hr.occupied, hr.marked, hr.answered, fun k' x hx => ?_, fun k₁ k₂ x h₁ h₂ => ?_,
    hr.history⟩
  · grind [hr.held, Function.update_apply]
  · grind [hr.apart, Function.update_apply]

theorem fill (hr : Retained t orphans slot traffic) (k : IdContext.Slot)
    (hi : t.hostInterfaces.get h ≠ none) (hh : t.hostToGuest.get h = none)
    (ho : orphans.get h = none) (hother : ∀ k', slot k' ≠ some h) :
    Retained t orphans (Function.update slot k (some h)) traffic := by
  refine ⟨hr.occupied, hr.marked, hr.answered, fun k' x hx => ?_, fun k₁ k₂ x h₁ h₂ => ?_,
    hr.history⟩
  · grind [hr.held, Function.update_apply]
  · grind [hr.apart, Function.update_apply]

/-- A host object without a guest object is gone, and it is in no slot. -/
theorem eraseHost {retired pending : Finset ℕ} (hr : Retained t orphans slot traffic)
    (ho : orphans.get h = none) (hslot : ∀ k, slot k ≠ some h)
    (hocc : ∀ k, Outstanding traffic k → ({ t with
      hostInterfaces := t.hostInterfaces.erase h
      retiredHostIds := retired
      pendingDestroyHostIds := pending } : ShadowTable).Occupied k) :
    Retained { t with
      hostInterfaces := t.hostInterfaces.erase h
      hostVersions
      retiredHostIds := retired
      pendingDestroyHostIds := pending } orphans slot traffic := by
  refine ⟨hocc, hr.marked, ?_, ?_, hr.apart, hr.history⟩
  · grind [hr.answered, Table.get_erase]
  · grind [hr.held, Table.get_erase]

/-! ## Destroyed objects -/

theorem mark (hr : Retained t orphans slot traffic) (g : ℕ) :
    Retained (t.markPendingDestroy g) orphans slot traffic := by
  unfold ShadowTable.markPendingDestroy
  split
  next h hg =>
    refine ⟨hr.occupied, ?_, hr.answered, hr.held, hr.apart, hr.history⟩
    grind [hr.marked]
  · exact hr

/-- An object that only the proxy knows is gone. -/
theorem untrack (hp : t.Paired) (hr : Retained t orphans slot traffic)
    (hg : t.guestToHost.get g = none) : Retained (t.removeId g) orphans slot traffic := by
  rw [ShadowTable.removeId_unmapped hg]
  refine ⟨hr.occupied, fun g' h ho hh => ?_, hr.answered, hr.held, hr.apart, hr.history⟩
  have hmapped := (hp g' h).mpr hh
  grind [hr.marked]

/-- The guest may not name a buffer any more, and the host still may. -/
theorem retireGuestObject (hr : Retained t orphans slot traffic)
    (hg : t.guestToHost.get g = some h) (hi : t.interfaces.get g = some i) :
    Retained (t.retireGuestObject g) orphans slot traffic := by
  obtain ⟨hostInterfaces, hostVersions, hget, heq⟩ := ShadowTable.retireGuestObject_get hg hi
  have hgrows : ∀ k, t.hostInterfaces.get k ≠ none → hostInterfaces.get k ≠ none := by
    grind
  have hnamed : Retained { t with hostInterfaces, hostVersions } orphans slot traffic :=
    hr.name hgrows
  rw [heq]
  refine ⟨hnamed.occupied, ?_, hnamed.answered, hnamed.held, hnamed.apart, hnamed.history⟩
  grind [hr.marked]

/-- The parameters of an unanswered creation wait for their answer. -/
theorem orphanParams (hp : t.Paired) (hr : Retained t orphans slot traffic)
    (hg : t.guestToHost.get g = some h) (hlt : g < guestServerIdStart) :
    Retained { t with pendingDestroyGuestIds := insert g t.pendingDestroyGuestIds }
      (orphans.set h g) slot traffic := by
  have hh := (hp g h).mp hg
  refine ⟨hr.occupied, ?_, ?_, ?_, hr.apart, hr.history⟩
  · grind [hr.marked, Table.get_set]
  · grind [hr.answered, Table.get_set]
  · grind [hr.held, Table.get_set]

/-- The guest half of a pair is gone with its mark. -/
theorem unpair {hostInterfaces : Table ℕ Interface} {pending marks retired : Finset ℕ}
    (hp : t.Paired) (hr : Retained t orphans slot traffic) (hg : t.guestToHost.get g = some h)
    (hmarks : ∀ g', g' ∈ marks ↔ g' ≠ g ∧ g' ∈ t.pendingDestroyGuestIds)
    (hother : ∀ k, k ≠ h → hostInterfaces.get k = t.hostInterfaces.get k)
    (horphan : orphans.get h = none ∨ hostInterfaces.get h ≠ none ∧ ¬ Outstanding traffic h)
    (hocc : ∀ k, Outstanding traffic k → ({ t with
      hostToGuest := t.hostToGuest.erase h
      hostInterfaces
      retiredHostIds := retired
      pendingDestroyHostIds := pending } : ShadowTable).Occupied k) :
    Retained { t with
      guestToHost
      hostToGuest := t.hostToGuest.erase h
      interfaces
      hostInterfaces
      guestVersions
      hostVersions
      retiredHostIds := retired
      pendingDestroyHostIds := pending
      pendingDestroyGuestIds := marks } orphans slot traffic := by
  have hh := (hp g h).mp hg
  have hinj : ∀ k, t.hostToGuest.get k = some g → k = h := fun k hk => hp.host_inj hk hh
  refine ⟨hocc, ?_, ?_, fun k x hx => ?_, hr.apart, hr.history⟩
  · grind [hr.marked, Table.get_erase]
  · grind [hr.answered, Table.get_erase]
  · have hheld := hr.held k x hx
    grind [Table.get_erase]

/-- The answer for destroyed parameters arrived. -/
theorem answer (hr : Retained t orphans slot traffic) (h : ℕ) :
    Retained t (orphans.erase h) slot traffic := by
  refine ⟨hr.occupied, ?_, ?_, ?_, hr.apart, hr.history⟩
  · grind [hr.marked, Table.get_erase]
  · grind [hr.answered, Table.get_erase]
  · grind [hr.held, Table.get_erase]

/-- The host acknowledged an ID: what occupies it now does not wait for the acknowledgement. -/
theorem acknowledge (hr : Retained t orphans slot traffic) (h : ℕ) :
    Retained { t with pendingDestroyHostIds := t.pendingDestroyHostIds.erase h } orphans slot
      (.acknowledge h :: traffic) := by
  have hlog := hr.log (.acknowledge h) (by simp)
  refine ⟨fun k hk => ?_, hlog.marked, hlog.answered, hlog.held, hlog.apart, hlog.history⟩
  have hne : h ≠ k := hk.1
  have hocc := hr.occupied k hk.2
  unfold ShadowTable.Occupied at hocc ⊢
  grind

end Retained

namespace IdState
variable {s s' : IdState} {slot : IdContext.Slot → Option ℕ} {k : IdContext.Slot} {g h n x : ℕ}
  {i : Interface} {guestVersions hostVersions : Table ℕ ℕ}

/-- The objects the host was told about in this state have their IDs. -/
def Retained (s : IdState) (slot : IdContext.Slot → Option ℕ) : Prop :=
  Sommelier.Retained s.shadowTable s.orphanedDmabufParams slot s.hostTraffic

namespace Retained

theorem take (hr : s.Retained slot) (h n : ℕ) : (s.take h n).Retained slot :=
  Sommelier.Retained.frame hr

theorem bound {version : ℕ} (hr : s.Retained slot) (hf : s.Fresh h n) :
    (s.bound h n i version).Retained slot :=
  Sommelier.Retained.host (hr.take h n) hf.free _

/-- The object of a request; the host is told of it. -/
theorem pair (hr : s.Retained slot) (hf : s.Fresh h n) :
    ((s.pair g h n i guestVersions hostVersions).queueNewId h).Retained slot := by
  have hpair := Sommelier.Retained.pair hr hf.free g (.create h :: s.hostTraffic)
    (fun k hk => hk.imp_left Eq.symm)
    ⟨fun k heq => LifetimeEvent.create.inj heq ▸ hr.unused_of_free hf.free, hr.history⟩
  exact hpair.frame

/-- The destructor of a host object without a guest object. -/
theorem destroyInternal (hr : s.Retained slot) (hh : s.shadowTable.hostToGuest.get x = none)
    (hi : s.shadowTable.hostInterfaces.get x = some i)
    (ho : s.orphanedDmabufParams.get x = none) (hslot : ∀ k, slot k ≠ some x) :
    (s.destroyInternal x).Retained slot := by
  have hocc : ∀ k, Outstanding s.hostTraffic k → (s.destroyInternal x).shadowTable.Occupied k :=
    fun k hk => occupied_destroyInternal.mpr (hr.occupied k hk)
  rw [destroyInternal_eq hh hi] at hocc ⊢
  exact (Sommelier.Retained.log hr (.destroy x) (by simp)).eraseHost ho hslot hocc

/-- A host object that has no destructor. -/
theorem retireInternal (hr : s.Retained slot) (ho : s.orphanedDmabufParams.get x = none)
    (hslot : ∀ k, slot k ≠ some x) : (s.retireInternal x).Retained slot :=
  Sommelier.Retained.eraseHost hr ho hslot fun k hk =>
    occupied_retireInternal.mpr (.inr (hr.occupied k hk))

/-- The object of an event; the host announced it. -/
theorem pairAnnouncedAs {version : ℕ} {next : ServerId} (hr : s.Retained slot)
    (hh : s.shadowTable.hostIdFree h = true) :
    (s.pairAnnouncedAs g h i version next).Retained slot := by
  have hpair := Sommelier.Retained.pair hr hh g (.announce h :: s.hostTraffic)
    (fun k hk => .inr hk) ⟨by simp [AllocatesUnused], hr.history⟩
  exact hpair.frame

/-- The temporary object of a bridged buffer is not the buffer. -/
theorem bridgeBuffer {n' version : ℕ} (hr : s.Retained slot) (hf : s.Fresh x n)
    (hf' : (s.bound x n i version).Fresh h n') :
    ((((s.bound x n i version).pair g h n' .wlBuffer guestVersions hostVersions).queueNewId
      h).destroyInternal x).Retained slot := by
  have hself := bound_hostInterfaces_self s x n i version
  have hne : x ≠ h := by
    rintro rfl
    simp [hf'.mem.2.1] at hself
  have hpair : (((s.bound x n i version).pair g h n' .wlBuffer guestVersions
      hostVersions).queueNewId h).Retained slot := (hr.bound hf).pair hf'
  refine hpair.destroyInternal ?_ hself (Sommelier.Retained.orphan_of_free hr hf.free)
    (Sommelier.Retained.slot_of_free hr hf.free)
  exact ((Table.get_set ..).trans (if_neg hne)).trans hf.mem.1

/-- A destructor the guest sent. The ID of an object of the host is free at once, and a lawful
host waits for no acknowledgement of the proxy there. -/
theorem forwardDestructor (hc : s.Coherent) (ha : s.Answered True) (hr : s.Retained slot)
    (hg : s.shadowTable.guestToHost.get g = some h) : (s.forwardDestructor g h).Retained slot := by
  have hlog := Sommelier.Retained.log hr (.destroy h) (by simp)
  unfold IdState.forwardDestructor ShadowTable.isGuestServerId
  by_cases hge : guestServerIdStart ≤ g
  · have ho : s.orphanedDmabufParams.get h = none := by
      by_contra hne
      have hlt := (hr.marked g h hne ((hc.paired g h).mp hg)).2
      omega
    have hunused := ha.server trivial g h hge hg
    simp only [hge, decide_true, if_true, Retained, onTable, logHost]
    rw [ShadowTable.removeId_mapped hg]
    refine hlog.unpair hc.paired hg (fun g' => Finset.mem_erase) (fun k hk => ?_) (.inl ho) ?_
    · rw [Table.get_erase, if_neg hk]
    · intro k hk
      have hne : k ≠ h := by
        rintro rfl
        exact hunused hk
      have hocc := hr.occupied k hk
      unfold ShadowTable.Occupied at hocc ⊢
      grind [Table.get_erase]
  · simp only [hge, decide_false, Bool.false_eq_true, if_false]
    exact hlog.mark g

/-- Parameters that are destroyed before their answer. -/
theorem destroyParams (hc : s.Coherent) (hr : s.Retained slot)
    (hg : s.Known g h .zwpLinuxBufferParamsV1) :
    ((s.orphanParams g h).forwardDestructor g h).Retained slot := by
  have hlt := hc.lt_start hg.interface (by simp) (by simp)
  have hge : ¬ guestServerIdStart ≤ g := by omega
  have hmark := ShadowTable.markPendingDestroy_mapped hg.mapped
  simp only [Retained, IdState.forwardDestructor, ShadowTable.isGuestServerId, hge, decide_false,
    Bool.false_eq_true, if_false, orphanParams, onTable, logHost, hmark]
  exact (Sommelier.Retained.log hr (.destroy h) (by simp)).orphanParams hc.paired hg.mapped hlt

theorem completeCallback (hc : s.Coherent) (hr : s.Retained slot)
    (hg : s.shadowTable.guestToHost.get g = some h)
    (hmark : g ∉ s.shadowTable.pendingDestroyGuestIds)
    (hi : (s.shadowTable.hostInterfaces.get h).or (s.shadowTable.interfaces.get g) = some i) :
    (s.completeCallback g h).Retained slot := by
  have hocc : ∀ k, Outstanding s.hostTraffic k →
      (s.shadowTable.retireServerDestroyedObject g).2.Occupied k := fun k hk =>
    (hc.paired.occupied_retireServerDestroyedObject hg hi).mpr (hr.occupied k hk)
  have ho : s.orphanedDmabufParams.get h = none := by
    by_contra hne
    exact hmark (hr.marked g h hne ((hc.paired g h).mp hg)).1
  obtain ⟨hostInterfaces, hostVersions, hget, heq⟩ :=
    hc.paired.retireServerDestroyedObject_get hg hi
  rw [heq] at hocc
  simp only [IdState.completeCallback, Retained, emit, logGuest, IdState.logHost, onTable, heq]
  refine (Sommelier.Retained.log hr (.destroy h) (by simp)).unpair hc.paired hg
    (fun g' => ⟨fun hg' => ⟨?_, hg'⟩, And.right⟩) (fun k hk => ?_) (.inl ho) hocc
  · rintro rfl
    exact hmark hg'
  · rw [hget, if_neg hk]

theorem queueLocalDeleteId (hc : s.Coherent) (hr : s.Retained slot) (g : ℕ) :
    (s.queueLocalDeleteId g).Retained slot := by
  unfold IdState.queueLocalDeleteId
  split
  next h =>
    rw [Bool.and_eq_true, Option.isNone_iff_eq_none] at h
    exact Sommelier.Retained.untrack hc.paired hr h.2
  · exact hr

/-- The guest half of an object is gone, and the host half keeps its ID. -/
theorem removeGuestMapping (hc : s.Coherent) (hr : s.Retained slot) (hg : s.Known g h i) :
    (s.onTable (·.removeGuestMapping g)).Retained slot := by
  have hocc : ∀ k, Outstanding s.hostTraffic k →
      (s.shadowTable.removeGuestMapping g).Occupied k := fun k hk =>
    (hc.paired.occupied_removeGuestMapping hg.mapped hg.interface).mpr (hr.occupied k hk)
  have ho : s.orphanedDmabufParams.get h = none := by
    by_contra hne
    exact hg.unmarked (hr.marked g h hne ((hc.paired g h).mp hg.mapped)).1
  obtain ⟨hostInterfaces, hget, heq⟩ := hc.paired.removeGuestMapping_get hg.mapped
  rw [heq] at hocc
  simp only [Retained, IdState.onTable, heq]
  refine Sommelier.Retained.unpair hc.paired hr hg.mapped
    (fun g' => ⟨fun hg' => ⟨?_, hg'⟩, And.right⟩) (fun k hk => ?_) (.inl ho) hocc
  · rintro rfl
    exact hg.unmarked hg'
  · rw [hget, if_neg hk]

/-- The host answered for parameters that are gone. -/
theorem answerOrphan (hr : s.Retained slot) (hh : (s.orphanedDmabufParams.get h).isSome = true) :
    (s.answerOrphan h).Retained slot := by
  have hne := Option.ne_none_iff_isSome.mpr hh
  have hocc : ∀ k, Outstanding s.hostTraffic k → (s.answerOrphan h).shadowTable.Occupied k := by
    intro k hk
    refine occupied_answerOrphan.mpr ⟨?_, hr.occupied k hk⟩
    rintro rfl hnone
    exact (hr.answered k hne hnone).2 hk
  have hanswer := Sommelier.Retained.answer hr h
  unfold IdState.answerOrphan IdState.onTable at hocc ⊢
  dsimp only [Retained] at hocc ⊢
  split_ifs at hocc ⊢
  · exact hanswer.eraseHost (by simp) (fun k hk => hne (hr.held k h hk).2.2) hocc
  · exact hanswer

/-- An acknowledgement ends a pair, or it concerns no pair. -/
theorem onDeleteId (hc : s.Coherent) (hr : s.Retained slot) (h : ℕ) :
    (s.onDeleteId h).Retained slot := by
  have hack : (s.acknowledged h).Retained slot := Sommelier.Retained.acknowledge hr h
  have hcack := hc.acknowledged h
  rcases s.onDeleteId_cases h with heq | ⟨g, i, -, hg, hi, heq⟩ | ⟨g, ho, hg, heq⟩
  · exact heq ▸ hack
  · have hg := (hc.paired g h).mpr hg
    have hocc : ∀ k, Outstanding (s.acknowledged h).hostTraffic k →
        ((s.acknowledged h).shadowTable.removeGuestMapping g).Occupied k := fun k hk =>
      (hcack.paired.occupied_removeGuestMapping hg hi).mpr (hack.occupied k hk)
    obtain ⟨hostInterfaces, hget, hremove⟩ := hcack.paired.removeGuestMapping_get hg
    rw [hremove] at hocc
    rw [heq]
    simp only [Retained, onTable, logGuest, hremove, ShadowTable.clearPendingDestroyGuest]
    refine Sommelier.Retained.unpair hcack.paired hack hg (fun g' => Finset.mem_erase)
      (fun k hk => ?_) (.inr ⟨?_, fun hk => hk.1 rfl⟩) hocc
    · rw [hget, if_neg hk]
    · rw [hget, if_pos rfl]
      change (s.shadowTable.hostInterfaces.get h).or (s.shadowTable.interfaces.get g) ≠ none
      simp [hi]
  · have hg := (hc.paired g h).mpr hg
    rw [heq]
    simp only [Retained, onTable, logGuest]
    rw [ShadowTable.removeId_mapped (t := (s.acknowledged h).shadowTable) hg]
    refine Sommelier.Retained.unpair hcack.paired hack hg (fun g' => Finset.mem_erase)
      (fun k hk => ?_) (.inl ho) ?_
    · rw [Table.get_erase, if_neg hk]
    · intro k hk
      have hne : k ≠ h := fun heq => hk.1 heq.symm
      have hocc := hack.occupied k hk
      unfold ShadowTable.Occupied at hocc ⊢
      grind [Table.get_erase]

theorem move (hc : s.Coherent) (ha : s.Answered True) (hr : s.Retained slot)
    (hm : s.Move True s') : s'.Retained slot := by
  cases hm with
  | emit | emitError | guestCreate | guestDestroy | flush => exact hr
  | track => exact Sommelier.Retained.frame hr
  | pairQueued hg hf | pairSent hg hf => exact hr.pair hf
  | bridgeBuffer hg hf hf' => exact hr.bridgeBuffer hf hf'
  | pairAnnounced hg hh => exact hr.pairAnnouncedAs (Bool.and_eq_true_iff.mp hh).2
  | orphanBuffer h version hh =>
    have hfree := (Bool.and_eq_true_iff.mp hh).2
    have hann := Sommelier.Retained.log hr (.announce h) (by simp)
    refine Retained.destroyInternal (s := (s.logHost (.announce h)).onTable
      (·.trackHostInterfaceWithVersion h .wlBuffer version)) (i := .wlBuffer) ?_
      (ShadowTable.hostIdFree_iff.mp hfree).1
      (by simp [onTable, ShadowTable.trackHostInterfaceWithVersion])
      (Sommelier.Retained.orphan_of_free hr hfree) (Sommelier.Retained.slot_of_free hr hfree)
    refine hann.name fun k hk => ?_
    change (s.shadowTable.hostInterfaces.set h .wlBuffer).get k ≠ none
    grind [Table.get_set]
  | logDestroy h => exact Sommelier.Retained.log hr (.destroy h) (by simp)
  | markPendingDestroy g => exact Sommelier.Retained.mark hr g
  | forwardDestructor hg => exact hr.forwardDestructor hc ha (hc.mapped hg)
  | retireBuffer hg => exact Sommelier.Retained.retireGuestObject hr hg.mapped hg.interface
  | destroyParams hg => exact hr.destroyParams hc hg
  | completeCallback hh hmark hi => exact hr.completeCallback hc (hc.mapped (.inr hh)) hmark hi
  | deleteLocal g => exact hr.queueLocalDeleteId hc g
  | retireTextInput hg =>
    have hremoved := hr.removeGuestMapping hc hg
    exact hremoved
  | answerOrphan h hh => exact hr.answerOrphan hh

/-- The first host object of a text input. -/
theorem pairTextInput (hr : s.Retained slot) (hf : s.Fresh h n) :
    (((s.take h n).queueNewId h).pairTextInput g h none guestVersions hostVersions).Retained
      slot := by
  have hpair : ((s.pair g h n .zwpTextInputV3 guestVersions hostVersions).queueNewId h).Retained
      slot := hr.pair hf
  refine Sommelier.Retained.name hpair fun k hk => ?_
  change (s.shadowTable.hostInterfaces.set h .zwpTextInputV1).get k ≠ none
  have hk : s.shadowTable.hostInterfaces.get k ≠ none := hk
  grind [Table.get_set]

/-- The second one gets another ID, and stands in the slot of the extension. -/
theorem pairExtendedTextInput {h' n' : ℕ} (hr : s.Retained slot) (hf : s.Fresh h n)
    (hf' : ((s.take h n).queueNewId h).Fresh h' n') (hne : h' ≠ h) (k : IdContext.Slot) :
    (((((s.take h n).queueNewId h).take h' n').queueNewId h').pairTextInput g h (some h')
      guestVersions hostVersions).Retained (Function.update slot k (some h')) := by
  have hone : (((s.take h n).queueNewId h).pairTextInput g h none guestVersions
      hostVersions).Retained slot := hr.pairTextInput hf
  have hmem : s.shadowTable.hostToGuest.get h' = none ∧ s.shadowTable.hostInterfaces.get h' = none ∧
    h' ∉ s.shadowTable.retiredHostIds ∧ h' ∉ s.shadowTable.pendingDestroyHostIds := hf'.mem
  have hfree : (((s.take h n).queueNewId h).pairTextInput g h none guestVersions
      hostVersions).shadowTable.hostIdFree h' = true := by
    refine ShadowTable.hostIdFree_iff.mpr ⟨?_, ?_, hmem.2.2⟩
    · exact ((Table.get_set ..).trans (if_neg hne)).trans hmem.1
    · exact ((Table.get_set ..).trans (if_neg hne)).trans hmem.2.1
  have htwo := hone.host (i := .zcrExtendedTextInputV1) hfree hostVersions
  have horphan := Sommelier.Retained.orphan_of_free hone hfree
  have hslot := Sommelier.Retained.slot_of_free hone hfree
  have hfilled := htwo.fill k (h := h') (by simp)
    (((Table.get_set ..).trans (if_neg hne)).trans hmem.1) horphan hslot
  exact hfilled.frame

end Retained

/-- At first the host knows no object of the proxy. -/
theorem retained_new : new.Retained fun _ => none where
  occupied _ hh := hh.elim
  marked g h ho _ := by simp [new] at ho
  answered h ho _ := by simp [new] at ho
  held k x hx := by cases hx
  apart k k' x hx := by cases hx
  history := eachAfter_nil

end IdState

namespace IdContext
variable {c c' : IdContext}

/-- Two searches in a row find two IDs where there is room. -/
theorem Fresh.again {s : IdState} {h n h' n' : ℕ} (hn : s.Numbered) (hf : s.Fresh h n)
    (hf' : ((s.take h n).queueNewId h).Fresh h' n') (hroom : s.shadowTable.RoomForTwo) :
    h' ≠ h := by
  obtain ⟨-, -, hlt, -⟩ := ShadowTable.allocateHostId_walk hn.fits hf.found
  obtain ⟨other, hne, hle, hlt', hfree⟩ := hroom h hf.two_le hlt hf.free
  exact ShadowTable.allocateHostId_again hn.fits hf.found hf'.found hne hle hlt' hfree

/-- What was in a slot is in no other one. -/
theorem not_slot_of_apart {slot : Slot → Option ℕ} {k : Slot} {x : ℕ}
    (hapart : ∀ k k' x, slot k = some x → slot k' = some x → k = k') (hx : slot k = some x)
    (k' : Slot) : Function.update slot k none k' ≠ some x := by
  rw [Function.update_apply]
  split_ifs with heq
  · simp
  · exact fun hk' => heq (hapart k' k x hk' hx)

theorem retained_act (hc : c.toIdState.Coherent) (hn : c.toIdState.Numbered)
    (ha : c.toIdState.Answered True) (hr : c.toIdState.Retained c.slot)
    (hact : Act ⟨True, True⟩ c c') : c'.toIdState.Retained c'.slot := by
  cases hact with
  | note h =>
    rw [h.ids, h.slots]
    exact hr
  | move hm h =>
    rw [h.ids, h.slots]
    exact hr.move hc ha hm
  | @bind _ k x n version hf h =>
    rw [h.ids, h.slots]
    refine Retained.fill (hr.bound hf) k ?_ hf.mem.1 (Retained.orphan_of_free hr hf.free)
      (Retained.slot_of_free hr hf.free)
    simp [IdState.bound_hostInterfaces_self]
  | @drop _ k x s hx hs h =>
    obtain ⟨hi, hh, ho⟩ := hr.held k x hx
    obtain ⟨i, hi⟩ := Option.ne_none_iff_exists'.mp hi
    have hempty : c.toIdState.Retained (Function.update c.slot k none) := Retained.empty hr k
    have hslot := not_slot_of_apart hr.apart hx
    rw [h.ids, h.slots]
    rcases hs with rfl | rfl
    · exact hempty.destroyInternal hh hi ho hslot
    · exact hempty.retireInternal ho hslot
  | createTextInput hg hf h =>
    rw [h.ids, h.slots]
    exact Retained.empty (hr.pairTextInput hf) _
  | createExtendedTextInput hg hf hf' hroom h =>
    rw [h.ids, h.slots]
    exact hr.pairExtendedTextInput hf hf' (Fresh.again hn hf hf' (hroom trivial)) _
  | deleteId =>
    rw [onDeleteId_toIdState, onDeleteId_slot]
    exact hr.onDeleteId hc _

end IdContext

open IdContext

/-- The invariants of a run whose host follows the rules and where a new text input finds two
IDs. -/
theorem retained_of_reachable {c : IdContext}
    (hc : idSystem.ReachableWhile (fun c m => c.HostLawful m ∧ c.Roomy m) c) :
    c.toIdState.Coherent ∧ c.toIdState.Numbered ∧ c.toIdState.Retained c.slot := by
  have hrun : idSystem.ReachableWhile (Keeps ⟨True, True⟩) c :=
    hc.mono fun _ _ h => ⟨fun _ => h.1, fun _ => h.2⟩
  have hslot : IdContext.new.slot = fun _ => none := by
    funext k
    cases k <;> rfl
  have hinv := ids_invariant (I := fun s slot => s.Coherent ∧ s.Numbered ∧ SlotsAllocated s slot ∧
      s.Answered True ∧ s.Retained slot)
    ⟨IdState.coherent_new, IdState.numbered_new, ?_, IdState.answered_new, ?_⟩
    (fun c c' h hact => ⟨coherent_act h.1 hact, numbered_act h.1 h.2.1 h.2.2.1 hact,
      slotsAllocated_act h.2.2.1 hact, answered_act h.1 h.2.2.2.1 hact,
      retained_act h.1 h.2.1 h.2.2.2.1 h.2.2.2.2 hact⟩) hrun
  · exact ⟨hinv.1, hinv.2.1, hinv.2.2.2.2⟩
  · intro k x hx
    rw [hslot] at hx
    cases hx
  · rw [hslot]
    exact IdState.retained_new

/-- In every run whose host follows the rules and where a new text input finds room for both its
host objects, an object of the proxy keeps its ID until the host acknowledged its destructor:
neither a new object of the proxy nor one of the host gets it. -/
theorem hostIds_reserved {c : IdContext}
    (hc : idSystem.ReachableWhile (fun c m => c.HostLawful m ∧ c.Roomy m) c) :
    EachAfter AllocatesUnused c.hostTraffic ∧
    ∀ h, Outstanding c.hostTraffic h → c.shadowTable.isHostIdAvailable h = false ∧
      ∀ s, c.toIdState.allocateHostId ≠ some (h, s) := by
  obtain ⟨-, -, hr⟩ := retained_of_reachable hc
  refine ⟨hr.history, fun h hh => ?_⟩
  have hused := ShadowTable.occupied_iff.mp (hr.occupied h hh)
  refine ⟨by simp [ShadowTable.isHostIdAvailable, hused], fun s halloc => ?_⟩
  obtain ⟨n, hf, -⟩ := IdState.allocateHostId_eq_some halloc
  rw [hf.free] at hused
  cases hused

/-- A destroyed callback whose end the host has not acknowledged keeps its ID. -/
theorem hostIds_reserved_sync : ∃ c : IdContext,
    idSystem.run .new [.request (.sync 2), .endBatch .hostToClient, .event (.done 2 []),
      .endBatch .clientToHost, .request (.sync 2)] = some c ∧
    c.hostTraffic = [.create 3, .destroy 2, .create 2] ∧
    c.shadowTable.isHostIdAvailable 2 = false := by
  obtain ⟨c, hrun⟩ : ∃ c : IdContext, idSystem.run .new [.request (.sync 2),
    .endBatch .hostToClient, .event (.done 2 []), .endBatch .clientToHost,
    .request (.sync 2)] = some c := ⟨_, rfl⟩
  have hc : idSystem.ReachableWhile (fun c m => c.HostLawful m ∧ c.Roomy m) c :=
    TransitionSystem.ReachableWhile.run (.init rfl) (by simp [HostLawful, Roomy]) hrun
  have hlife : (some c).map (·.hostTraffic) = some [.create 3, .destroy 2, .create 2] := by
    rw [← hrun]
    rfl
  have hlife : c.hostTraffic = [.create 3, .destroy 2, .create 2] := Option.some.inj hlife
  refine ⟨c, hrun, hlife, ((hostIds_reserved hc).2 2 ?_).1⟩
  rw [hlife]
  simp [Outstanding]

/-- In every such run the host objects that the proxy keeps for itself stand in different slots,
and none of them is an object of the guest or has an ID that is free. -/
theorem internalObjects_apart {c : IdContext}
    (hc : idSystem.ReachableWhile (fun c m => c.HostLawful m ∧ c.Roomy m) c) :
    (∀ k k' x, c.slot k = some x → c.slot k' = some x → k = k') ∧
    ∀ k x, c.slot k = some x → (∀ g, c.shadowTable.getHostId g ≠ some x) ∧
      c.shadowTable.isHostIdAvailable x = false ∧
      ∀ s, c.toIdState.allocateHostId ≠ some (x, s) := by
  obtain ⟨hcoherent, -, hr⟩ := retained_of_reachable hc
  refine ⟨hr.apart, fun k x hx => ?_⟩
  obtain ⟨hi, hh, -⟩ := hr.held k x hx
  have hused := ShadowTable.occupied_iff.mp (.inr (.inl hi))
  refine ⟨fun g hg => ?_, by simp [ShadowTable.isHostIdAvailable, hused], fun s halloc => ?_⟩
  · have hpair := (hcoherent.paired g x).mp hg
    rw [hh] at hpair
    cases hpair
  · obtain ⟨n, hf, -⟩ := IdState.allocateHostId_eq_some halloc
    rw [hf.free] at hused
    cases hused

/-- The text input manager of the host is bound for the proxy, under the second host ID. -/
theorem internalObjects_apart_bound : ∃ c : IdContext,
    idSystem.run .new [.request (.getRegistry 2), .endBatch .hostToClient,
      .event (.global 2 1 .zwpTextInputManagerV1 1 ⟨true, false, false, true, false, 0⟩)] = some c ∧
    c.slot (.global .textInputManagerV1) = some 3 ∧ (∀ g, c.shadowTable.getHostId g ≠ some 3) ∧
    c.shadowTable.isHostIdAvailable 3 = false := by
  obtain ⟨c, hrun⟩ : ∃ c : IdContext, idSystem.run .new [.request (.getRegistry 2),
    .endBatch .hostToClient, .event (.global 2 1 .zwpTextInputManagerV1 1
      ⟨true, false, false, true, false, 0⟩)] = some c := ⟨_, rfl⟩
  have hc : idSystem.ReachableWhile (fun c m => c.HostLawful m ∧ c.Roomy m) c :=
    TransitionSystem.ReachableWhile.run (.init rfl) (by simp [HostLawful, Roomy]) hrun
  have hslot : (some c).map (·.slot (.global .textInputManagerV1)) = some (some 3) := by
    rw [← hrun]
    rfl
  have hslot := Option.some.inj hslot
  obtain ⟨hother, hused, -⟩ := (internalObjects_apart hc).2 _ 3 hslot
  exact ⟨c, hrun, hslot, hother, hused⟩

end Sommelier
