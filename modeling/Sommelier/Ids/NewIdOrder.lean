import Sommelier.Ids.Occupation
import Sommelier.Lib.NumberStream

/-!
# The order of new host IDs

Every host ID that is allocated is announced in one request, and the requests are sent in the
order of the allocations. Until the allocator wraps, the IDs increase, and none is left out that
was not used before.

## Main definitions

* `IdState.Accounted`: the ID was used before.
* `IdState.Numbered`: the relation of the cursor, the allocated IDs and those of the stream.

## Main results

* `newIds_ordered`: the order of the new IDs in the stream to the host.
-/
namespace Sommelier

namespace IdState
variable {s s' : IdState} {g h n x : ℕ} {i : Interface}

/-- The display's ID, one that was allocated, or one that the host announced. -/
def Accounted (s : IdState) (x : ℕ) : Prop :=
  x = 1 ∨ x ∈ s.allocated ∨ LifetimeEvent.announce x ∈ s.hostTraffic

/-- The allocated IDs are those of the stream and the queue. Before it wraps, the cursor only skips
what the host announced. -/
structure Numbered (s : IdState) : Prop where
  order : s.allocated = s.sentNewIds ++ s.queuedNewIds
  occupied : ∀ x, s.shadowTable.Occupied x → s.Accounted x
  fits : s.shadowTable.CursorFits
  counted : s.wrapped = false → Counted (fun x => LifetimeEvent.announce x ∈ s.hostTraffic) 2
    s.shadowTable.nextHostId s.allocated

namespace Numbered

/-- What allocates nothing keeps the relation, if it occupies no ID that is not accounted for. -/
theorem keep (hn : s.Numbered) (halloc : s'.allocated = s.allocated)
    (horder : s'.sentNewIds ++ s'.queuedNewIds = s.sentNewIds ++ s.queuedNewIds)
    (hwrapped : s'.wrapped = s.wrapped)
    (hnext : s'.shadowTable.nextHostId = s.shadowTable.nextHostId)
    (htraffic : ∀ x, LifetimeEvent.announce x ∈ s.hostTraffic →
      LifetimeEvent.announce x ∈ s'.hostTraffic)
    (hocc : ∀ x, s'.shadowTable.Occupied x → s.shadowTable.Occupied x ∨ s'.Accounted x) :
    s'.Numbered := by
  have hacc : ∀ x, s.Accounted x → s'.Accounted x := fun x =>
    Or.imp_right (Or.imp (halloc ▸ id) (htraffic x))
  refine ⟨?_, fun x hx => ?_, ?_, fun hw => ?_⟩
  · rw [halloc, horder, hn.order]
  · exact (hocc x hx).elim (fun h => hacc x (hn.occupied x h)) id
  · simpa only [ShadowTable.CursorFits, hnext] using hn.fits
  · rw [halloc, hnext]
    exact (hn.counted (hwrapped ▸ hw)).mono htraffic

/-- Only the traffic with the guest, and destructors for the host. -/
theorem table (hn : s.Numbered) {t : ShadowTable} (hnext : t.nextHostId = s.shadowTable.nextHostId)
    (hocc : ∀ x, t.Occupied x → s.shadowTable.Occupied x ∨ s.Accounted x) :
    ({ s with shadowTable := t } : IdState).Numbered :=
  hn.keep rfl rfl rfl hnext (fun _ => id) hocc

theorem logHost (hn : s.Numbered) (e : LifetimeEvent ℕ) : (s.logHost e).Numbered :=
  hn.keep rfl rfl rfl rfl (fun _ => List.mem_cons_of_mem _) fun _ => .inl

/-- An allocation whose request is queued, or sent while the queue is empty. -/
theorem take (hn : s.Numbered) (hf : s.Fresh h n) {sent queued : List ℕ}
    (horder : sent ++ queued = s.sentNewIds ++ s.queuedNewIds ++ [h])
    {traffic : List (LifetimeEvent ℕ)} (htraffic : ∀ e ∈ s.hostTraffic, e ∈ traffic) :
    ({ s.take h n with
      sentNewIds := sent
      queuedNewIds := queued
      hostTraffic := traffic } : IdState).Numbered := by
  have hacc : ∀ x, s.Accounted x → ({ s.take h n with
      sentNewIds := sent
      queuedNewIds := queued
      hostTraffic := traffic } : IdState).Accounted x := fun x =>
    Or.imp_right (Or.imp (List.mem_append_left _) (htraffic _))
  have hnowrap : (s.take h n).wrapped = false →
      s.wrapped = false ∧ s.shadowTable.nextHostId ≤ h ∧ n = h + 1 ∧
        ∀ k, s.shadowTable.nextHostId ≤ k → k < h → s.shadowTable.hostIdFree k = false := by
    intro hw
    simp only [IdState.take, Bool.or_eq_false_iff, decide_eq_false_iff_not, Nat.not_le] at hw
    exact ⟨hw.1, ShadowTable.allocateHostId_passed hn.fits hf.found hw.2⟩
  refine ⟨?_, fun x hx => hacc x (hn.occupied x hx), ShadowTable.allocateHostId_fits hf.found,
    fun hw => ?_⟩
  · change s.allocated ++ [h] = sent ++ queued
    rw [horder, hn.order]
  · obtain ⟨hw, hle, hn', hpassed⟩ := hnowrap hw
    have hcounted := hn.counted hw
    have hstart : 2 ≤ s.shadowTable.nextHostId := hn.fits.1
    change Counted _ 2 n (s.allocated ++ [h])
    rw [hn']
    refine (hcounted.mono fun _ => htraffic _).append (by omega) hle fun x hx hlt => ?_
    -- what the cursor passes is occupied, and no allocation got that far
    rcases hn.occupied x (ShadowTable.occupied_iff.mpr (hpassed x hx hlt)) with hx1 | hx' | hx'
    · omega
    · exact absurd (hcounted.lt_next x hx') (Nat.not_lt.mpr hx)
    · exact htraffic _ hx'

theorem queueNewId (hn : s.Numbered) (hf : s.Fresh h n) :
    ((s.take h n).queueNewId h).Numbered :=
  hn.take hf (by simp [IdState.take, IdState.logHost]) fun _ => List.mem_cons_of_mem _

theorem mem_take (s : IdState) (h n : ℕ) : h ∈ (s.take h n).allocated :=
  List.mem_append_right _ (List.mem_singleton_self h)

/-- A host object of the proxy. -/
theorem bound {version : ℕ} (hn : s.Numbered) (hf : s.Fresh h n) :
    (s.bound h n i version).Numbered := by
  refine (hn.queueNewId hf).table rfl fun x hx => ?_
  rcases occupied_bound.mp hx with rfl | hx
  · exact .inr (.inr (.inl (mem_take s x n)))
  · exact .inl hx

/-- The object of a request. -/
theorem pairQueued {guestVersions hostVersions : Table ℕ ℕ} (hn : s.Numbered) (hf : s.Fresh h n) :
    ((s.pair g h n i guestVersions hostVersions).queueNewId h).Numbered := by
  refine (hn.queueNewId hf).table rfl fun x hx => ?_
  rcases occupied_pair.mp hx with rfl | hx
  · exact .inr (.inr (.inl (mem_take s x n)))
  · exact .inl hx

theorem pairSent {guestVersions hostVersions : Table ℕ ℕ} (hn : s.Numbered) (hf : s.Fresh h n)
    (hqueue : s.queuedNewIds = []) :
    ((s.pair g h n i guestVersions hostVersions).sendNewId h).Numbered := by
  have hsent : ((s.take h n).sendNewId h).Numbered :=
    hn.take hf (by simp [IdState.take, IdState.logHost, hqueue]) fun _ => List.mem_cons_of_mem _
  refine hsent.table rfl fun x hx => ?_
  rcases occupied_pair.mp hx with rfl | hx
  · exact .inr (.inr (.inl (mem_take s x n)))
  · exact .inl hx

theorem destroyInternal (hn : s.Numbered) (x : ℕ) : (s.destroyInternal x).Numbered :=
  (hn.logHost (.destroy x)).table (ShadowTable.markPendingDestroyHost_nextHostId ..) fun _ hy =>
    .inl (occupied_destroyInternal.mp hy)

/-- An object of the proxy that is retired was allocated. -/
theorem retireInternal (hn : s.Numbered) (hx : x ∈ s.allocated) :
    (s.retireInternal x).Numbered := by
  refine hn.table rfl fun y hy => ?_
  rcases occupied_retireInternal.mp hy with rfl | hy
  · exact .inr (.inr (.inl hx))
  · exact .inl hy

theorem createTextInput {guestVersions hostVersions : Table ℕ ℕ} (hn : s.Numbered)
    (hf : s.Fresh h n) :
    (((s.take h n).queueNewId h).pairTextInput g h none guestVersions hostVersions).Numbered := by
  refine (hn.queueNewId hf).table rfl fun x hx => ?_
  rcases occupied_pairTextInput.mp hx with rfl | hx | hx
  · exact .inr (.inr (.inl (mem_take s x n)))
  · cases hx
  · exact .inl hx

theorem createExtendedTextInput {h' n' : ℕ} {guestVersions hostVersions : Table ℕ ℕ}
    (hn : s.Numbered) (hf : s.Fresh h n) (hf' : ((s.take h n).queueNewId h).Fresh h' n') :
    (((((s.take h n).queueNewId h).take h' n').queueNewId h').pairTextInput g h (some h')
      guestVersions hostVersions).Numbered := by
  refine ((hn.queueNewId hf).queueNewId hf').table rfl fun x hx => ?_
  rcases occupied_pairTextInput.mp hx with rfl | hx | hx
  · exact .inr (.inr (.inl (List.mem_append_left _ (mem_take s x n))))
  · obtain rfl := Option.some.inj hx
    exact .inr (.inr (.inl (mem_take ((s.take h n).queueNewId h) h' n')))
  · exact .inl hx

theorem forwardDestructor (hn : s.Numbered) (g h : ℕ) : (s.forwardDestructor g h).Numbered := by
  refine (hn.logHost (.destroy h)).table ?_ fun x hx => .inl ?_
  · split_ifs <;> simp [IdState.logHost]
  · split_ifs at hx
    · exact hx.of_removeId
    · exact (ShadowTable.occupied_markPendingDestroy g).mp hx

/-- An acknowledgement occupies nothing. -/
theorem onDeleteId (hc : s.Coherent) (hn : s.Numbered) (h : ℕ) : (s.onDeleteId h).Numbered := by
  have hack : (s.acknowledged h).Numbered :=
    (hn.logHost (.acknowledge h)).table rfl fun x hx => .inl (occupied_of_acknowledged hx)
  rcases s.onDeleteId_cases h with heq | ⟨g, i, -, hg, hi, heq⟩ | ⟨g, -, hg, heq⟩
  · exact heq ▸ hack
  · rw [heq]
    refine hack.keep rfl rfl rfl (ShadowTable.removeGuestMapping_nextHostId _ g) (fun _ => id)
      fun x hx => .inl ?_
    exact ((hc.acknowledged h).paired.occupied_removeGuestMapping
      ((hc.paired g h).mpr hg) hi).mp hx
  · rw [heq]
    exact hack.keep rfl rfl rfl (ShadowTable.removeId_nextHostId _ g) (fun _ => id)
      fun x hx => .inl hx.of_removeId

theorem move {lawful : Prop} (hc : s.Coherent) (hn : s.Numbered) (hm : s.Move lawful s') :
    s'.Numbered := by
  cases hm with
  | emit | emitError | guestCreate | guestDestroy =>
    exact hn.keep rfl rfl rfl rfl (fun _ => id) fun _ => .inl
  | flush => exact hn.keep rfl (by simp [flush]) rfl rfl (fun _ => id) fun _ => .inl
  | track => exact hn.table rfl fun _ => .inl
  | pairQueued hg hf => exact hn.pairQueued hf
  | pairSent hg hf hqueue => exact hn.pairSent hf hqueue
  | bridgeBuffer hg hf hf' => exact ((hn.bound hf).pairQueued hf').destroyInternal _
  | pairAnnounced hg hh _ hi =>
    refine hn.keep rfl rfl rfl rfl (fun _ => List.mem_cons_of_mem _) fun x hx => ?_
    rcases occupied_pairAnnouncedAs.mp hx with rfl | hx
    · exact .inr (.inr (.inr List.mem_cons_self))
    · exact .inl hx
  | orphanBuffer h version hh =>
    refine Numbered.destroyInternal (s := (s.logHost (.announce h)).onTable
      (·.trackHostInterfaceWithVersion h .wlBuffer version)) ?_ h
    refine (hn.logHost (.announce h)).table rfl fun x hx => ?_
    rcases (ShadowTable.occupied_trackHostInterface ..).mp hx with rfl | hx
    · exact .inr (.inr (.inr List.mem_cons_self))
    · exact .inl hx
  | logDestroy => exact hn.logHost _
  | markPendingDestroy g =>
    exact hn.table (ShadowTable.markPendingDestroy_nextHostId ..) fun x hx =>
      .inl ((ShadowTable.occupied_markPendingDestroy g).mp hx)
  | forwardDestructor => exact hn.forwardDestructor ..
  | retireBuffer hg =>
    exact hn.table (ShadowTable.retireGuestObject_nextHostId ..) fun x hx =>
      .inl ((hc.paired.occupied_retireGuestObject hg.mapped hg.interface).mp hx)
  | @destroyParams g h hg =>
    have horphan : (s.orphanParams g h).Numbered :=
      hn.keep rfl rfl rfl rfl (fun _ => id) fun _ => .inl
    exact horphan.forwardDestructor ..
  | completeCallback hh hmark hi =>
    refine hn.keep rfl rfl rfl (ShadowTable.retireServerDestroyedObject_nextHostId _ _)
      (fun _ => List.mem_cons_of_mem _) fun x hx => .inl ?_
    exact (hc.paired.occupied_retireServerDestroyedObject (hc.mapped (.inr hh)) hi).mp hx
  | deleteLocal g hi =>
    unfold queueLocalDeleteId
    split_ifs
    · exact hn.keep rfl rfl rfl (ShadowTable.removeId_nextHostId _ g) (fun _ => id)
        fun x hx => .inl hx.of_removeId
    · exact hn
  | retireTextInput hg =>
    exact hn.keep rfl rfl rfl (ShadowTable.removeGuestMapping_nextHostId _ _) (fun _ => id)
      fun x hx => .inl ((hc.paired.occupied_removeGuestMapping hg.mapped hg.interface).mp hx)
  | answerOrphan h hh =>
    refine hn.keep rfl rfl rfl ?_ (fun _ => id) fun x hx => .inl (occupied_answerOrphan.mp hx).2
    simp only [answerOrphan, onTable]
    split_ifs <;> rfl

end Numbered

/-- At first only the ID of the display is occupied. -/
theorem numbered_new : new.Numbered where
  order := rfl
  occupied x hx := by
    rw [new_shadowTable] at hx
    refine .inl ?_
    by_contra hne
    simp [ShadowTable.Occupied, ShadowTable.new, hne] at hx
  fits := by
    rw [new_shadowTable]
    simp [ShadowTable.CursorFits, ShadowTable.new]
  counted _ := by
    rw [new_shadowTable]
    exact .empty _ 2

theorem onDeleteId_allocated (s : IdState) (h : ℕ) : (s.onDeleteId h).allocated = s.allocated := by
  rcases s.onDeleteId_cases h with heq | ⟨g, i, -, -, -, heq⟩ | ⟨g, -, -, heq⟩ <;> rw [heq] <;> rfl

/-- What was allocated stays noted. -/
theorem Move.allocated_subset {lawful : Prop} (hm : s.Move lawful s') :
    s.allocated ⊆ s'.allocated := by
  cases hm with
  | pairQueued | pairSent => exact List.subset_append_left ..
  | bridgeBuffer =>
    exact List.Subset.trans (List.subset_append_left ..) (List.subset_append_left ..)
  | deleteLocal =>
    unfold queueLocalDeleteId
    split_ifs <;> exact List.Subset.refl _
  | _ => exact List.Subset.refl _

end IdState

namespace IdContext
variable {p : Promises} {c c' : IdContext}

/-- The host objects in the slots were allocated. -/
def SlotsAllocated (s : IdState) (slot : Slot → Option ℕ) : Prop :=
  ∀ k x, slot k = some x → x ∈ s.allocated

theorem SlotsAllocated.mono {s s' : IdState} {slot slot' : Slot → Option ℕ}
    (hslots : SlotsAllocated s slot) (halloc : s.allocated ⊆ s'.allocated)
    (hslot : ∀ k x, slot' k = some x → slot k = some x ∨ x ∈ s'.allocated) :
    SlotsAllocated s' slot' := fun k x hx =>
  (hslot k x hx).elim (fun h => halloc (hslots k x h)) id

theorem slotsAllocated_act (hslots : SlotsAllocated c.toIdState c.slot)
    (hact : Act p c c') : SlotsAllocated c'.toIdState c'.slot := by
  have hupdate : ∀ k (y : Option ℕ) k' x, Function.update c.slot k y k' = some x →
      c.slot k' = some x ∨ y = some x := by
    intro k y k' x hx
    rw [Function.update_apply] at hx
    split_ifs at hx
    · exact .inr hx
    · exact .inl hx
  cases hact with
  | note h =>
    rw [h.ids, h.slots]
    exact hslots
  | move hm h =>
    rw [h.ids, h.slots]
    exact hslots.mono hm.allocated_subset fun _ _ => .inl
  | @bind _ k x n version hf h =>
    rw [h.ids, h.slots]
    refine hslots.mono (List.subset_append_left ..) fun k' y hy => ?_
    refine (hupdate k (some x) k' y hy).imp_right fun heq => ?_
    obtain rfl := Option.some.inj heq
    exact IdState.Numbered.mem_take c.toIdState x n
  | @drop _ k x s hx hs h =>
    rw [h.ids, h.slots]
    refine hslots.mono ?_ fun k' y hy => .inl ((hupdate k none k' y hy).resolve_right (by simp))
    rcases hs with rfl | rfl <;> exact List.Subset.refl _
  | createTextInput hg hf h =>
    rw [h.ids, h.slots]
    exact hslots.mono (List.subset_append_left ..) fun k' y hy =>
      .inl ((hupdate _ none k' y hy).resolve_right (by simp))
  | @createExtendedTextInput _ g h n h' n' guestVersions hostVersions hg hf hf' _ hc =>
    rw [hc.ids, hc.slots]
    refine hslots.mono (List.Subset.trans (List.subset_append_left ..) (List.subset_append_left ..))
      fun k' y hy => ?_
    refine (hupdate _ (some h') k' y hy).imp_right fun heq => ?_
    obtain rfl := Option.some.inj heq
    exact IdState.Numbered.mem_take ((c.toIdState.take h n).queueNewId h) h' n'
  | deleteId =>
    rw [onDeleteId_toIdState, onDeleteId_slot]
    refine hslots.mono ?_ fun _ _ => .inl
    rw [IdState.onDeleteId_allocated]
    exact List.Subset.refl _

theorem numbered_act (hc : c.toIdState.Coherent) (hn : c.toIdState.Numbered)
    (hslots : SlotsAllocated c.toIdState c.slot) (hact : Act p c c') :
    c'.toIdState.Numbered := by
  cases hact with
  | note h => exact h.ids ▸ hn
  | move hm h => exact h.ids ▸ hn.move hc hm
  | bind hf h => exact h.ids ▸ hn.bound hf
  | drop hx hs h =>
    rcases hs with rfl | rfl
    · exact h.ids ▸ hn.destroyInternal _
    · exact h.ids ▸ hn.retireInternal (hslots _ _ hx)
  | createTextInput hg hf h => exact h.ids ▸ hn.createTextInput hf
  | createExtendedTextInput hg hf hf' _ h => exact h.ids ▸ hn.createExtendedTextInput hf hf'
  | deleteId => exact onDeleteId_toIdState c _ ▸ IdState.Numbered.onDeleteId hc hn _

end IdContext

open IdContext

theorem numbered_of_reachable {c : IdContext} (hc : idSystem.Reachable c) :
    c.toIdState.Numbered := by
  have hrun : idSystem.ReachableWhile (Keeps ⟨False, False⟩) c :=
    hc.mono fun _ _ _ => ⟨False.elim, False.elim⟩
  have hinv := ids_invariant (I := fun s slot => s.Coherent ∧ s.Numbered ∧ SlotsAllocated s slot)
    ⟨IdState.coherent_new, IdState.numbered_new, ?_⟩
    (fun c c' h hact => ⟨coherent_act h.1 hact, numbered_act h.1 h.2.1 h.2.2 hact,
      slotsAllocated_act h.2.2 hact⟩) hrun
  · exact hinv.2.1
  · intro k x hx
    cases k <;> simp [slot, IdContext.new] at hx

/-- In every run each allocated host ID is announced in one request, in the order of the
allocations, and at the latest with the end of the batch. Until the allocator wraps, the IDs
increase, and an ID that is left out was announced by the host. -/
theorem newIds_ordered {c : IdContext} (hc : idSystem.Reachable c) :
    c.allocated = c.sentNewIds ++ c.queuedNewIds ∧
    (∀ next, ∃ c', c.step (.endBatch next) = some c' ∧ c'.sentNewIds = c.allocated) ∧
    (c.wrapped = false → c.allocated.Pairwise (· < ·) ∧
      ∀ before h after, c.allocated = before ++ h :: after → ∀ k, 2 ≤ k → k < h →
        k ∈ before ∨ LifetimeEvent.announce k ∈ c.hostTraffic) := by
  have hn := numbered_of_reachable hc
  refine ⟨hn.order, fun next => ⟨_, rfl, hn.order.symm⟩, fun hw => ?_⟩
  have hcounted := hn.counted hw
  exact ⟨hcounted.increasing, fun before h after heq k h2 hlt => hcounted.before heq h2 hlt⟩

/-- Two objects of a guest, under the first two host IDs. -/
theorem newIds_ordered_sync : ∃ c : IdContext,
    idSystem.run .new [.request (.sync 2), .request (.getRegistry 3)] = some c ∧
    c.allocated = [2, 3] ∧ c.allocated = c.sentNewIds ++ c.queuedNewIds ∧
    c.allocated.Pairwise (· < ·) := by
  obtain ⟨c, hrun⟩ : ∃ c : IdContext,
      idSystem.run .new [.request (.sync 2), .request (.getRegistry 3)] = some c := ⟨_, rfl⟩
  have hc : idSystem.Reachable c := TransitionSystem.Reachable.run (.init rfl) hrun
  have hids : (some c).map (fun c => (c.allocated, c.wrapped)) = some ([2, 3], false) := by
    rw [← hrun]
    rfl
  obtain ⟨hallocated, hwrapped⟩ := Prod.mk.inj (Option.some.inj hids)
  obtain ⟨horder, -, hincreasing⟩ := newIds_ordered hc
  exact ⟨c, hrun, hallocated, horder, (hincreasing hwrapped).1⟩

end Sommelier
