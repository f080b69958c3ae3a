import Sommelier.Ids.StepActs

/-!
# Coherent tables

What the ID tables of a session have to do with each other: the pairs of both sides, the
interfaces of the objects, and the marks of pending destructors.

## Main definitions

* `Coherent`: the relation.
* `IdState.Coherent.move`, `IdContext.coherent_act`: every act keeps it.

## Main results

* `idTables_coherent`: the tables of every run.
-/
namespace Sommelier

/-- The tables fit together. -/
structure Coherent (t : ShadowTable) (orphans : Table ℕ ℕ) : Prop where
  paired : t.Paired
  display : ∀ h, t.guestToHost.get 1 = some h → h = 1
  displayInterface : ∀ i, t.interfaces.get 1 = some i → i = .wlDisplay
  /-- the host creates buffers and offers -/
  server : ∀ g i, guestServerIdStart ≤ g → t.interfaces.get g = some i →
    i = .wlBuffer ∨ i = .wlDataOffer
  /-- the callbacks of the proxy have no guest object -/
  callback : ∀ g h, t.hostToGuest.get h = some g → t.hostInterfaces.get h ≠ some .wlCallback
  marked : ∀ g ∈ t.pendingDestroyGuestIds, t.guestToHost.get g ≠ none
  /-- the guest creates the parameters of buffers -/
  orphan : ∀ g h, orphans.get h = some g → g ≠ 1 ∧ g < guestServerIdStart

namespace Coherent
variable {t : ShadowTable} {orphans : Table ℕ ℕ} {g h : ℕ} {i : Interface}
  {guestVersions hostVersions : Table ℕ ℕ} {n : ℕ} {next : ServerId} {retired pending : Finset ℕ}

/-- Only the pairs, the interfaces and the marks matter. -/
theorem frame (hc : Coherent t orphans) :
    Coherent { t with
      guestVersions
      hostVersions
      retiredHostIds := retired
      pendingDestroyHostIds := pending
      nextHostId := n
      nextGuestServerId := next } orphans :=
  ⟨hc.paired, hc.display, hc.displayInterface, hc.server, hc.callback, hc.marked, hc.orphan⟩

/-! ## New objects -/

theorem track (hc : Coherent t orphans) (hone : g ≠ 1) (hg : g < guestServerIdStart) :
    Coherent { t with interfaces := t.interfaces.set g i, guestVersions } orphans := by
  refine ⟨hc.paired, hc.display, ?_, ?_, hc.callback, hc.marked, hc.orphan⟩
  · grind [hc.displayInterface, Table.get_set]
  · grind [hc.server, Table.get_set]

/-- A new object on both sides. -/
theorem pair (hc : Coherent t orphans) (hg : t.guestToHost.get g = none) (hone : g ≠ 1)
    (hi : guestServerIdStart ≤ g → i = .wlBuffer ∨ i = .wlDataOffer)
    (hfree : t.hostIdFree h = true) :
    Coherent { t with
      guestToHost := t.guestToHost.set g h
      hostToGuest := t.hostToGuest.set h g
      interfaces := t.interfaces.set g i
      guestVersions
      hostVersions
      nextHostId := n
      nextGuestServerId := next } orphans := by
  obtain ⟨hh, hhi, -, -⟩ := ShadowTable.hostIdFree_iff.mp hfree
  refine ⟨?_, ?_, ?_, ?_, ?_, ?_, hc.orphan⟩
  · have hmap := hc.paired.mapId hg hh
    rwa [ShadowTable.mapId_fresh hg hh] at hmap
  · grind [hc.display, Table.get_set]
  · grind [hc.displayInterface, Table.get_set]
  · grind [hc.server, Table.get_set]
  · grind [hc.callback, Table.get_set]
  · grind [hc.marked, Table.get_set]

/-- A host object gets an interface, or loses the one it had. -/
theorem name {hostInterfaces : Table ℕ Interface} (hc : Coherent t orphans)
    (hcallback : ∀ g h, t.hostToGuest.get h = some g →
      t.hostInterfaces.get h ≠ some .wlCallback → hostInterfaces.get h ≠ some .wlCallback) :
    Coherent { t with
      hostInterfaces
      hostVersions
      retiredHostIds := retired
      pendingDestroyHostIds := pending } orphans :=
  ⟨hc.paired, hc.display, hc.displayInterface, hc.server,
    fun g h hh => hcallback g h hh (hc.callback g h hh), hc.marked, hc.orphan⟩

theorem trackHost (hc : Coherent t orphans)
    (hi : t.hostToGuest.get h = none ∨ i ≠ .wlCallback) :
    Coherent { t with hostInterfaces := t.hostInterfaces.set h i, hostVersions } orphans := by
  refine hc.name fun g k hk hcallback => ?_
  rw [Table.get_set]
  split_ifs with heq
  · rw [← heq, hk] at hi
    simpa using hi
  · exact hcallback

/-! ## Destroyed objects -/

theorem mark (hc : Coherent t orphans) (g : ℕ) : Coherent (t.markPendingDestroy g) orphans := by
  unfold ShadowTable.markPendingDestroy
  split
  next h hg =>
    refine ⟨hc.paired, hc.display, hc.displayInterface, hc.server, hc.callback, ?_, hc.orphan⟩
    grind [hc.marked]
  · exact hc

/-- The guest half of a pair is gone with its mark. -/
theorem unpair {hostInterfaces : Table ℕ Interface} {marks : Finset ℕ} (hc : Coherent t orphans)
    (hg : t.guestToHost.get g = some h)
    (hmarks : ∀ g', g' ∈ marks ↔ g' ≠ g ∧ g' ∈ t.pendingDestroyGuestIds)
    (hother : ∀ k, k ≠ h → hostInterfaces.get k = t.hostInterfaces.get k) :
    Coherent { t with
      guestToHost := t.guestToHost.erase g
      hostToGuest := t.hostToGuest.erase h
      interfaces := t.interfaces.erase g
      hostInterfaces
      guestVersions
      hostVersions
      retiredHostIds := retired
      pendingDestroyHostIds := pending
      pendingDestroyGuestIds := marks } orphans := by
  refine ⟨?_, ?_, ?_, ?_, ?_, ?_, hc.orphan⟩
  · have hpaired := hc.paired.removeId g
    rwa [ShadowTable.removeId_mapped hg] at hpaired
  · grind [hc.display, Table.get_erase]
  · grind [hc.displayInterface, Table.get_erase]
  · grind [hc.server, Table.get_erase]
  · grind [hc.callback, Table.get_erase]
  · grind [hc.marked, Table.get_erase]

/-- A pair is gone on both sides, or an object that only the proxy knows. -/
theorem removeId (hc : Coherent t orphans) (g : ℕ) : Coherent (t.removeId g) orphans := by
  cases hg : t.guestToHost.get g with
  | some h =>
    rw [ShadowTable.removeId_mapped hg]
    refine hc.unpair hg (fun g' => Finset.mem_erase) (fun k hk => ?_)
    rw [Table.get_erase, if_neg hk]
  | none =>
    rw [ShadowTable.removeId_unmapped hg]
    refine ⟨hc.paired, hc.display, ?_, ?_, hc.callback, ?_, hc.orphan⟩
    · grind [hc.displayInterface, Table.get_erase]
    · grind [hc.server, Table.get_erase]
    · grind [hc.marked]

/-- The guest may not name a buffer any more, and the host still may. -/
theorem retireGuestObject (hc : Coherent t orphans) (hg : t.guestToHost.get g = some h)
    (hi : t.interfaces.get g = some .wlBuffer) : Coherent (t.retireGuestObject g) orphans := by
  obtain ⟨hostInterfaces, hostVersions, hget, heq⟩ := ShadowTable.retireGuestObject_get hg hi
  rw [heq]
  refine ⟨hc.paired, hc.display, ?_, ?_, ?_, ?_, hc.orphan⟩
  · grind [hc.displayInterface, Table.get_erase]
  · grind [hc.server, Table.get_erase]
  · intro g' h' hh'
    have hcallback := hc.callback g' h' hh'
    rw [hget]
    split_ifs with hsame
    · subst hsame
      cases hhi : t.hostInterfaces.get h' <;> simp_all
    · exact hcallback
  · grind [hc.marked]

/-- The parameters of an unanswered creation. -/
theorem orphanParams (hc : Coherent t orphans) (hone : g ≠ 1) (hlt : g < guestServerIdStart) :
    Coherent t (orphans.set h g) := by
  refine ⟨hc.paired, hc.display, hc.displayInterface, hc.server, hc.callback, hc.marked,
    fun g' h' hg' => ?_⟩
  rw [Table.get_set] at hg'
  split_ifs at hg'
  · exact Option.some.inj hg' ▸ ⟨hone, hlt⟩
  · exact hc.orphan g' h' hg'

/-- The answer for destroyed parameters arrived. -/
theorem answer (hc : Coherent t orphans) (h : ℕ) : Coherent t (orphans.erase h) := by
  refine ⟨hc.paired, hc.display, hc.displayInterface, hc.server, hc.callback, hc.marked,
    fun g' h' hg' => ?_⟩
  rw [Table.get_erase] at hg'
  split_ifs at hg'
  exact hc.orphan g' h' hg'

end Coherent

namespace IdState
variable {s s' : IdState} {g h x : ℕ} {i : Interface} {guestVersions hostVersions : Table ℕ ℕ}

/-- The tables of the state fit together. -/
def Coherent (s : IdState) : Prop := Sommelier.Coherent s.shadowTable s.orphanedDmabufParams

namespace Coherent

theorem mapped (hc : s.Coherent) (hg : s.shadowTable.guestToHost.get g = some h ∨
    s.shadowTable.hostToGuest.get h = some g) : s.shadowTable.guestToHost.get g = some h :=
  hg.elim id (hc.paired g h).mpr

/-- An object that is neither the display nor a kind the host creates has an ID of the guest. -/
theorem lt_start (hc : s.Coherent) (hi : s.shadowTable.interfaces.get g = some i)
    (hbuffer : i ≠ .wlBuffer) (hoffer : i ≠ .wlDataOffer) : g < guestServerIdStart := by
  by_contra hge
  rcases hc.server g i (Nat.le_of_not_lt hge) hi with h | h
  · exact hbuffer h
  · exact hoffer h

theorem ne_one (hc : s.Coherent) (hi : s.shadowTable.interfaces.get g = some i)
    (hdisplay : i ≠ .wlDisplay) : g ≠ 1 := by
  rintro rfl
  exact hdisplay (hc.displayInterface i hi)

/-! ## Moves -/

theorem take (hc : s.Coherent) (h n : ℕ) : (s.take h n).Coherent := hc.frame

theorem bound {n version : ℕ} (hc : s.Coherent) (hf : s.Fresh h n) :
    (s.bound h n i version).Coherent :=
  (hc.take h n).trackHost (.inl hf.mem.1)

theorem pair {n : ℕ} (hc : s.Coherent) (hg : s.Open g) (hf : s.Fresh h n) :
    (s.pair g h n i guestVersions hostVersions).Coherent :=
  Sommelier.Coherent.pair (hc.take h n) hg.unmapped hg.one_lt.ne'
    (fun hge => absurd hg.lt_start (Nat.not_lt.mpr hge)) hf.free

/-- The destructor of a host object changes no interface to that of a callback. -/
theorem destroyInternal (hc : s.Coherent) (x : ℕ) : (s.destroyInternal x).Coherent := by
  unfold IdState.destroyInternal ShadowTable.markPendingDestroyHost
  dsimp only [IdState.onTable, IdState.Coherent]
  split_ifs
  · exact hc
  · refine hc.name fun g k hk hcallback => ?_
    change (s.shadowTable.hostInterfaces.erase x).get k ≠ _
    rw [Table.get_erase]
    split_ifs
    · simp
    · exact hcallback

theorem retireInternal (hc : s.Coherent) (x : ℕ) : (s.retireInternal x).Coherent := by
  refine hc.name fun g k hk hcallback => ?_
  rw [Table.get_erase]
  split_ifs
  · simp
  · exact hcallback

theorem forwardDestructor (hc : s.Coherent) (g h : ℕ) : (s.forwardDestructor g h).Coherent := by
  unfold IdState.forwardDestructor
  dsimp only [IdState.onTable, IdState.Coherent]
  split_ifs
  · exact Sommelier.Coherent.removeId hc g
  · exact Sommelier.Coherent.mark hc g

theorem destroyParams (hc : s.Coherent) (hg : s.Known g h .zwpLinuxBufferParamsV1) :
    ((s.orphanParams g h).forwardDestructor g h).Coherent := by
  have hone := hc.ne_one hg.interface (by simp)
  have hlt := hc.lt_start hg.interface (by simp) (by simp)
  have horphan : (s.orphanParams g h).Coherent := Sommelier.Coherent.orphanParams hc hone hlt
  exact horphan.forwardDestructor g h

theorem completeCallback (hc : s.Coherent) (hg : s.shadowTable.guestToHost.get g = some h)
    (hmark : g ∉ s.shadowTable.pendingDestroyGuestIds)
    (hi : (s.shadowTable.hostInterfaces.get h).or (s.shadowTable.interfaces.get g) = some i) :
    (s.completeCallback g h).Coherent := by
  obtain ⟨hostInterfaces, hostVersions, hget, heq⟩ :=
    hc.paired.retireServerDestroyedObject_get hg hi
  simp only [IdState.completeCallback, IdState.Coherent, IdState.emit, IdState.logGuest,
    IdState.logHost, IdState.onTable, heq]
  refine hc.unpair hg (fun g' => ⟨fun hg' => ⟨?_, hg'⟩, And.right⟩) (fun k hk => ?_)
  · rintro rfl
    exact hmark hg'
  · rw [hget, if_neg hk]

theorem queueLocalDeleteId (hc : s.Coherent) (g : ℕ) : (s.queueLocalDeleteId g).Coherent := by
  unfold IdState.queueLocalDeleteId
  split
  · exact Sommelier.Coherent.removeId hc g
  · exact hc

/-- The guest half of an unmarked pair is gone. -/
theorem removeGuestMapping (hc : s.Coherent) (hg : s.Known g h i) :
    (s.onTable (·.removeGuestMapping g)).Coherent := by
  obtain ⟨hostInterfaces, hget, heq⟩ := hc.paired.removeGuestMapping_get hg.mapped
  simp only [IdState.Coherent, IdState.onTable, heq]
  refine hc.unpair hg.mapped (fun g' => ⟨fun hg' => ⟨?_, hg'⟩, And.right⟩) (fun k hk => ?_)
  · rintro rfl
    exact hg.unmarked hg'
  · rw [hget, if_neg hk]

theorem answerOrphan (hc : s.Coherent) (h : ℕ) : (s.answerOrphan h).Coherent := by
  have hanswer := hc.answer h
  unfold IdState.answerOrphan IdState.onTable
  dsimp only [IdState.Coherent]
  split_ifs
  · refine hanswer.name fun g k hk hcallback => ?_
    rw [Table.get_erase]
    split_ifs
    · simp
    · exact hcallback
  · exact hanswer

theorem move {lawful : Prop} (hc : s.Coherent) (hm : s.Move lawful s') : s'.Coherent := by
  cases hm with
  | emit | emitError | guestCreate | guestDestroy | flush | logDestroy => exact hc
  | track g hg i guestVersions => exact Sommelier.Coherent.track hc hg.one_lt.ne' hg.lt_start
  | pairQueued hg hf | pairSent hg hf => exact hc.pair hg hf
  | bridgeBuffer hg hf hf' => exact ((hc.bound hf).pair hg.bound hf').destroyInternal _
  | pairAnnounced hg hh _ hi =>
    have hone : 1 < guestServerIdStart := by decide
    exact Sommelier.Coherent.pair hc hg.unmapped (hone.trans_le hg.start_le).ne' (fun _ => hi)
      (Bool.and_eq_true_iff.mp hh).2
  | orphanBuffer h version hh =>
    refine Coherent.destroyInternal (s := (s.logHost (.announce h)).onTable
      (·.trackHostInterfaceWithVersion h .wlBuffer version)) ?_ h
    exact Sommelier.Coherent.trackHost hc (.inr (by simp))
  | markPendingDestroy g => exact Sommelier.Coherent.mark hc g
  | forwardDestructor => exact hc.forwardDestructor ..
  | retireBuffer hg => exact Sommelier.Coherent.retireGuestObject hc hg.mapped hg.interface
  | destroyParams hg => exact hc.destroyParams hg
  | completeCallback hh hmark hi => exact hc.completeCallback (hc.mapped (.inr hh)) hmark hi
  | deleteLocal g hi => exact hc.queueLocalDeleteId g
  | retireTextInput hg =>
    have hremoved := hc.removeGuestMapping hg
    exact hremoved
  | answerOrphan h hh => exact hc.answerOrphan h

/-- The host objects of a text input are no callbacks. -/
theorem createTextInput {n : ℕ} (hc : s.Coherent) (hg : s.Open g) (hf : s.Fresh h n) :
    (((s.take h n).queueNewId h).pairTextInput g h none guestVersions hostVersions).Coherent := by
  have hpair : (s.pair g h n .zwpTextInputV3 guestVersions hostVersions).Coherent :=
    hc.pair hg hf
  exact hpair.trackHost (.inr (by simp))

theorem createExtendedTextInput {n h' n' : ℕ} (hc : s.Coherent) (hg : s.Open g)
    (hf : s.Fresh h n) :
    (((((s.take h n).queueNewId h).take h' n').queueNewId h').pairTextInput g h (some h')
      guestVersions hostVersions).Coherent := by
  have hone : (((s.take h n).queueNewId h).pairTextInput g h none guestVersions
      hostVersions).Coherent := hc.createTextInput hg hf
  exact (hone.take h' n').trackHost (i := .zcrExtendedTextInputV1) (.inr (by simp))

theorem acknowledged (hc : s.Coherent) (h : ℕ) : (s.acknowledged h).Coherent := hc.frame

/-- An acknowledgement ends a pair, or it concerns no pair. -/
theorem onDeleteId (hc : s.Coherent) (h : ℕ) : (s.onDeleteId h).Coherent := by
  have hack := hc.acknowledged h
  rcases s.onDeleteId_cases h with heq | ⟨g, i, -, hg, hi, heq⟩ | ⟨g, ho, hg, heq⟩
  · exact heq ▸ hack
  · obtain ⟨hostInterfaces, hget, hremove⟩ :=
      hack.paired.removeGuestMapping_get ((hc.paired g h).mpr hg)
    rw [heq]
    simp only [IdState.Coherent, IdState.onTable, IdState.logGuest, hremove,
      ShadowTable.clearPendingDestroyGuest]
    refine hack.unpair ((hc.paired g h).mpr hg) (fun g' => Finset.mem_erase) fun k hk => ?_
    rw [hget, if_neg hk]
  · rw [heq]
    exact Sommelier.Coherent.removeId hack g

end Coherent

/-- At first only the display exists. -/
theorem new_shadowTable : new.shadowTable = { ShadowTable.new with
    guestToHost := ShadowTable.new.guestToHost.set 1 1
    hostToGuest := ShadowTable.new.hostToGuest.set 1 1
    interfaces := ShadowTable.new.interfaces.set 1 .wlDisplay
    guestVersions := (new.shadowTable).guestVersions } := by
  have hmap := ShadowTable.mapId_fresh (t := ShadowTable.new) (g := 1) (h := 1) rfl rfl
  simp only [new, hmap, ShadowTable.trackInterface]

theorem coherent_new : new.Coherent := by
  refine ⟨?_, ?_, ?_, ?_, ?_, ?_, by simp [new]⟩ <;> rw [new_shadowTable]
  · intro g h
    simp only [ShadowTable.new, Table.get_set, Table.get_empty]
    split_ifs <;> simp_all [eq_comm]
  · simp [eq_comm]
  · simp [eq_comm]
  · intro g i hge
    have hne : g ≠ 1 := by
      rintro rfl
      exact absurd hge (by decide)
    simp [ShadowTable.new, hne]
  · simp [ShadowTable.new]
  · simp [ShadowTable.new]

end IdState

namespace IdContext
variable {p : Promises} {c c' : IdContext}

@[simp] theorem onDeleteId_toIdState (c : IdContext) (h : ℕ) :
    (c.onDeleteId h).toIdState = c.toIdState.onDeleteId h := by
  unfold onDeleteId
  dsimp only
  split_ifs <;> rfl

@[simp] theorem onDeleteId_slot (c : IdContext) (h : ℕ) : (c.onDeleteId h).slot = c.slot := by
  unfold onDeleteId
  dsimp only
  funext k
  split_ifs <;> cases k <;> rfl

theorem coherent_act (hc : c.toIdState.Coherent) (hact : Act p c c') :
    c'.toIdState.Coherent := by
  cases hact with
  | note h => exact h.ids ▸ hc
  | move hm h => exact h.ids ▸ hc.move hm
  | bind hf h => exact h.ids ▸ hc.bound hf
  | drop _ hs h =>
    rcases hs with rfl | rfl
    · exact h.ids ▸ hc.destroyInternal _
    · exact h.ids ▸ hc.retireInternal _
  | createTextInput hg hf h => exact h.ids ▸ hc.createTextInput hg hf
  | createExtendedTextInput hg hf _ _ h => exact h.ids ▸ hc.createExtendedTextInput hg hf
  | deleteId => exact onDeleteId_toIdState c _ ▸ hc.onDeleteId _

end IdContext

/-- In every run the two ID tables are one pairing, in which the display is the display; the guest
sees only buffers and offers of the host under IDs of the server range; every pending destructor is
that of a mapped object; and no callback of the proxy is an object of the guest. -/
theorem idTables_coherent {c : IdContext} (hc : idSystem.Reachable c) :
    (∀ g h, c.shadowTable.getHostId g = some h ↔ c.shadowTable.getGuestId h = some g) ∧
    (∀ h, c.shadowTable.getHostId 1 = some h → h = 1) ∧
    (∀ g i, guestServerIdStart ≤ g → c.shadowTable.getInterface g = some i →
      i = .wlBuffer ∨ i = .wlDataOffer) ∧
    (∀ g, c.shadowTable.isPendingDestroyGuest g = true →
      (c.shadowTable.getHostId g).isSome = true) ∧
    ∀ g h, c.shadowTable.getGuestId h = some g →
      c.shadowTable.hostInterfaces.get h ≠ some .wlCallback := by
  have hrun : idSystem.ReachableWhile (IdContext.Keeps ⟨False, False⟩) c :=
    hc.mono fun _ _ _ => ⟨False.elim, False.elim⟩
  have hcoherent : c.toIdState.Coherent := ids_invariant (I := fun s _ => s.Coherent)
    IdState.coherent_new (fun _ _ h hact => IdContext.coherent_act h hact) hrun
  refine ⟨hcoherent.paired, hcoherent.display, hcoherent.server, fun g hg => ?_,
    hcoherent.callback⟩
  have hmapped := hcoherent.marked g (of_decide_eq_true hg)
  exact Option.isSome_iff_ne_none.mpr hmapped

/-- The callback of a guest is paired with the first host ID. -/
theorem idTables_coherent_sync : ∃ c : IdContext,
    idSystem.run .new [.request (.sync 2)] = some c ∧ c.shadowTable.getHostId 2 = some 2 ∧
    c.shadowTable.getGuestId 2 = some 2 := by
  obtain ⟨c, hrun⟩ : ∃ c : IdContext, idSystem.run .new [.request (.sync 2)] = some c := ⟨_, rfl⟩
  have hc : idSystem.Reachable c := TransitionSystem.Reachable.run (.init rfl) hrun
  have hhost : (some c).map (·.shadowTable.getHostId 2) = some (some 2) := by
    rw [← hrun]
    rfl
  have hhost := Option.some.inj hhost
  exact ⟨c, hrun, hhost, ((idTables_coherent hc).1 2 2).mp hhost⟩

end Sommelier
