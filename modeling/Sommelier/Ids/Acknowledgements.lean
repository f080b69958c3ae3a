import Sommelier.Ids.Coherence

/-!
# Acknowledged guest IDs

The guest hears `delete_id` once for each object it created, and when it does its ID is free for
a new object. Five handlers send it; each of them takes the last entries of the object out of the
tables, so that no two of them answer for the same object.

## Main definitions

* `ShadowTable.Frees`, `ShadowTable.Fewer`: entries of the guest that are gone.
* `IdState.Answered`: the objects of the tables are those the guest waits for.

## Main results

* `guestDeleteIds`: the acknowledgements of every run.
-/
namespace Sommelier

namespace ShadowTable
variable {t t' : ShadowTable} {g h : ℕ}

/-- The guest's ID has an entry. -/
def Used (t : ShadowTable) (g : ℕ) : Prop :=
  t.guestToHost.get g ≠ none ∨ t.interfaces.get g ≠ none

/-- The entries of one guest ID are gone, and those of the others stay. -/
def Frees (t t' : ShadowTable) (g : ℕ) : Prop :=
  ∀ k, t'.guestToHost.get k = (if k = g then none else t.guestToHost.get k) ∧
    t'.interfaces.get k = if k = g then none else t.interfaces.get k

/-- No entry of a guest ID is new. -/
def Fewer (t t' : ShadowTable) : Prop :=
  ∀ k, (t'.guestToHost.get k = none ∨ t'.guestToHost.get k = t.guestToHost.get k) ∧
    (t'.interfaces.get k = none ∨ t'.interfaces.get k = t.interfaces.get k)

theorem Frees.fewer (hf : t.Frees t' g) : t.Fewer t' := fun k => by
  obtain ⟨hg, hi⟩ := hf k
  split_ifs at hg hi <;> simp [hg, hi]

theorem Frees.unused (hf : t.Frees t' g) : ¬ t'.Used g := by
  simp [Used, hf g]

theorem Fewer.used (hf : t.Fewer t') (hg : t'.Used g) : t.Used g := by
  unfold Used at *
  grind [hf g]

theorem Fewer.refl (t : ShadowTable) : t.Fewer t := fun _ => ⟨.inr rfl, .inr rfl⟩

theorem fewer_markPendingDestroy (t : ShadowTable) (g : ℕ) : t.Fewer (t.markPendingDestroy g) := by
  unfold markPendingDestroy
  split <;> exact .refl _

theorem frees_removeId (t : ShadowTable) (g : ℕ) : t.Frees (t.removeId g) g := fun k => by
  refine ⟨removeId_guestToHost t g k, ?_⟩
  cases hg : t.guestToHost.get g with
  | none =>
    rw [removeId_unmapped hg]
    exact Table.get_erase ..
  | some h =>
    rw [removeId_mapped hg]
    exact Table.get_erase ..

theorem Paired.frees_removeGuestMapping (hp : t.Paired) (hg : t.guestToHost.get g = some h) :
    t.Frees (t.removeGuestMapping g) g := by
  obtain ⟨hostInterfaces, -, heq⟩ := hp.removeGuestMapping_get hg
  rw [heq]
  exact fun k => ⟨Table.get_erase .., Table.get_erase ..⟩

theorem Paired.frees_retireServerDestroyedObject (hp : t.Paired) {i : Interface}
    (hg : t.guestToHost.get g = some h)
    (hi : (t.hostInterfaces.get h).or (t.interfaces.get g) = some i) :
    t.Frees (t.retireServerDestroyedObject g).2 g := by
  obtain ⟨hostInterfaces, hostVersions, -, heq⟩ := hp.retireServerDestroyedObject_get hg hi
  rw [heq]
  exact fun k => ⟨Table.get_erase .., Table.get_erase ..⟩

/-- The host half of a buffer is awaited under the guest's ID. -/
theorem fewer_retireGuestObject {i : Interface} (hg : t.guestToHost.get g = some h)
    (hi : t.interfaces.get g = some i) : t.Fewer (t.retireGuestObject g) := by
  obtain ⟨hostInterfaces, hostVersions, -, heq⟩ := retireGuestObject_get hg hi
  rw [heq]
  refine fun k => ⟨.inr rfl, ?_⟩
  rw [Table.get_erase]
  split_ifs
  · exact .inl rfl
  · exact .inr rfl

theorem used_of_get {i : Interface} (hi : t.interfaces.get g = some i) : t.Used g :=
  .inr (by simp [hi])

end ShadowTable

namespace IdState
variable {lawful : Prop} {s s' : IdState} {g h n : ℕ} {i : Interface}
  {guestVersions hostVersions : Table ℕ ℕ}

/-- The guest hears of the end only of an object that it created, and of which it did not hear
before. -/
def AnswersOnce (log : List (LifetimeEvent ℕ)) (e : LifetimeEvent ℕ) : Prop :=
  ∀ g, e = .acknowledge g → g = 1 ∨ guestServerIdStart ≤ g ∨ Outstanding log g

/-- The objects in the tables are those whose end the guest waits for. With a lawful host it hears
of the end of its own objects only: the objects of the host were not created by the proxy. -/
structure Answered (lawful : Prop) (s : IdState) : Prop where
  used : ∀ g, s.shadowTable.Used g →
    g = 1 ∨ guestServerIdStart ≤ g ∨ 1 < g ∧ Outstanding s.guestLifetimes g
  history : EachAfter AnswersOnce s.guestLifetimes
  created : ∀ h, Outstanding s.hostTraffic h → 2 ≤ h
  server : lawful → ∀ g h, guestServerIdStart ≤ g → s.shadowTable.guestToHost.get g = some h →
    ¬ Outstanding s.hostTraffic h
  client : lawful → ∀ g, LifetimeEvent.acknowledge g ∈ s.guestLifetimes →
    1 < g ∧ g < guestServerIdStart

namespace Answered

/-- What neither creates an object nor tells the guest of an end. -/
theorem keep (ha : s.Answered lawful) (hfewer : s.shadowTable.Fewer s'.shadowTable)
    (hlog : s'.guestLifetimes = s.guestLifetimes)
    (hhost : ∀ h, Outstanding s'.hostTraffic h → Outstanding s.hostTraffic h) :
    s'.Answered lawful := by
  refine ⟨fun g hg => ?_, ?_, fun h hh => ha.created h (hhost h hh), fun hl g h hge hg hh => ?_, ?_⟩
  · rw [hlog]
    exact ha.used g (hfewer.used hg)
  · rw [hlog]
    exact ha.history
  · rcases (hfewer g).1 with hnone | hsame
    · simp [hnone] at hg
    · exact ha.server hl g h hge (hsame ▸ hg) (hhost h hh)
  · rw [hlog]
    exact ha.client

theorem logHost (ha : s.Answered lawful) (e : LifetimeEvent ℕ)
    (he : ∀ h, e ≠ .create h) : (s.logHost e).Answered lawful := by
  refine ha.keep (.refl _) rfl fun h hh => ?_
  cases e with
  | create h => exact absurd rfl (he h)
  | announce h => exact hh
  | destroy h => exact hh
  | acknowledge h => exact hh.2

theorem logGuest (ha : s.Answered lawful) (e : LifetimeEvent ℕ) (he : ∀ g, e ≠ .acknowledge g) :
    (s.logGuest e).Answered lawful := by
  refine ⟨fun g hg => ?_, ⟨fun g heq => absurd heq (he g), ha.history⟩, ha.created, ha.server,
    fun hl g hg => ?_⟩
  · refine (ha.used g hg).imp_right (Or.imp_right (And.imp_right fun hout => ?_))
    have hwaits : LifetimeEvent.acknowledge g ∉ [e] := by simpa using (he g).symm
    exact hout.lasts hwaits
  · exact ha.client hl g ((List.mem_cons.mp hg).resolve_left (he g).symm)

/-- An object of a kind that the host does not create belongs to the guest. -/
theorem of_guest (hc : s.Coherent) (ha : s.Answered lawful)
    (hi : s.shadowTable.interfaces.get g = some i) (hdisplay : i ≠ .wlDisplay)
    (hbuffer : i ≠ .wlBuffer) (hoffer : i ≠ .wlDataOffer) : 1 < g ∧ g < guestServerIdStart := by
  have hone := hc.ne_one hi hdisplay
  have hlt := hc.lt_start hi hbuffer hoffer
  rcases ha.used g (ShadowTable.used_of_get hi) with rfl | hge | hout
  · exact absurd rfl hone
  · omega
  · exact ⟨hout.1, hlt⟩

/-- The guest hears of the end of an object, whose entries are gone with it. -/
theorem acknowledge (ha : s.Answered lawful) (hused : s.shadowTable.Used g)
    (hfrees : s.shadowTable.Frees s'.shadowTable g)
    (hlog : s'.guestLifetimes = .acknowledge g :: s.guestLifetimes)
    (hhost : ∀ h, Outstanding s'.hostTraffic h → Outstanding s.hostTraffic h)
    (hclient : lawful → 1 < g ∧ g < guestServerIdStart) : s'.Answered lawful := by
  refine ⟨fun k hk => ?_, ?_, fun h hh => ha.created h (hhost h hh), fun hl k h hge hk hh => ?_,
    fun hl k hk => ?_⟩
  · have hne : g ≠ k := by
      rintro rfl
      exact hfrees.unused hk
    rw [hlog, outstanding_acknowledge]
    refine (ha.used k (hfrees.fewer.used hk)).imp_right (Or.imp_right fun hout => ?_)
    exact ⟨hout.1, hne, hout.2⟩
  · rw [hlog, eachAfter_cons]
    refine ⟨fun k hk => ?_, ha.history⟩
    obtain rfl := LifetimeEvent.acknowledge.inj hk
    exact (ha.used g hused).imp_right (Or.imp_right And.right)
  · rcases (hfrees.fewer k).1 with hnone | hsame
    · simp [hnone] at hk
    · exact ha.server hl k h hge (hsame ▸ hk) (hhost h hh)
  · rw [hlog] at hk
    rcases List.mem_cons.mp hk with heq | hk
    · exact LifetimeEvent.acknowledge.inj heq ▸ hclient hl
    · exact ha.client hl k hk

/-- A request for the host creates a new object. -/
theorem allocate (hc : s.Coherent) (ha : s.Answered lawful) (hf : s.Fresh h n)
    {sent queued : List ℕ} : ({ s.take h n with
      sentNewIds := sent
      queuedNewIds := queued
      hostTraffic := .create h :: s.hostTraffic } : IdState).Answered lawful := by
  refine ⟨ha.used, ha.history, fun k hk => ?_, fun hl g k hge hg hk => ?_, ha.client⟩
  · rcases hk with rfl | hk
    · exact hf.two_le
    · exact ha.created k hk
  · rcases hk with rfl | hk
    · simpa [hf.mem.1] using (hc.paired g h).mp hg
    · exact ha.server hl g k hge hg hk

/-- The guest named the ID of the new entries. -/
theorem named (ha : s.Answered lawful) (hg : s.Open g) {t : ShadowTable}
    (hother : ∀ k, k ≠ g → t.guestToHost.get k = s.shadowTable.guestToHost.get k ∧
      t.interfaces.get k = s.shadowTable.interfaces.get k) :
    ({ s with shadowTable := t } : IdState).Answered lawful := by
  refine ⟨fun k hk => ?_, ha.history, ha.created, fun hl k h hge hk => ?_, ha.client⟩
  · by_cases heq : k = g
    · exact heq ▸ .inr (.inr ⟨hg.one_lt, hg.outstanding⟩)
    · refine ha.used k ?_
      rwa [ShadowTable.Used, (hother k heq).1, (hother k heq).2] at hk
  · have hne : k ≠ g := by
      rintro rfl
      exact absurd hg.lt_start (Nat.not_lt.mpr hge)
    exact ha.server hl k h hge ((hother k hne).1 ▸ hk)

/-! ## Moves -/

theorem bound {version : ℕ} (hc : s.Coherent) (ha : s.Answered lawful) (hf : s.Fresh h n) :
    (s.bound h n i version).Answered lawful := by
  have halloc : ((s.take h n).queueNewId h).Answered lawful := ha.allocate hc hf
  exact halloc.keep (.refl _) rfl fun _ => id

/-- The object of a request. -/
theorem pair (hc : s.Coherent) (ha : s.Answered lawful) (hg : s.Open g) (hf : s.Fresh h n)
    {sent queued : List ℕ} : ({ s.pair g h n i guestVersions hostVersions with
      sentNewIds := sent
      queuedNewIds := queued
      hostTraffic := .create h :: s.hostTraffic } : IdState).Answered lawful := by
  have halloc : ({ s.take h n with
      sentNewIds := sent
      queuedNewIds := queued
      hostTraffic := .create h :: s.hostTraffic } : IdState).Answered lawful := ha.allocate hc hf
  refine halloc.named ⟨hg.unmapped, hg.one_lt, hg.lt_start, hg.outstanding⟩ fun k hk => ?_
  exact ⟨(Table.get_set ..).trans (if_neg hk), (Table.get_set ..).trans (if_neg hk)⟩

theorem destroyInternal (ha : s.Answered lawful) (x : ℕ) :
    (s.destroyInternal x).Answered lawful := by
  obtain ⟨hostInterfaces, hostVersions, retired, pending, heq⟩ :=
    (s.logHost (.destroy x)).shadowTable.markPendingDestroyHost_eq x
  refine (ha.logHost (.destroy x) (by simp)).keep ?_ rfl fun _ => id
  simp only [IdState.destroyInternal, IdState.onTable, heq]
  exact .refl _

theorem retireInternal (ha : s.Answered lawful) (x : ℕ) : (s.retireInternal x).Answered lawful :=
  ha.keep (.refl _) rfl fun _ => id

theorem createTextInput {h' : Option ℕ} (hc : s.Coherent) (ha : s.Answered lawful) (hg : s.Open g)
    (hf : s.Fresh h n) :
    (((s.take h n).queueNewId h).pairTextInput g h h' guestVersions hostVersions).Answered
      lawful := by
  have hpair : (s.pair g h n .zwpTextInputV3 guestVersions hostVersions).queueNewId h
      |>.Answered lawful := ha.pair hc hg hf
  exact hpair.keep (.refl _) rfl fun _ => id

theorem createExtendedTextInput {h' n' : ℕ} (hc : s.Coherent) (ha : s.Answered lawful)
    (hg : s.Open g) (hf : s.Fresh h n) (hf' : ((s.take h n).queueNewId h).Fresh h' n') :
    (((((s.take h n).queueNewId h).take h' n').queueNewId h').pairTextInput g h (some h')
      guestVersions hostVersions).Answered lawful := by
  have hone : (((s.take h n).queueNewId h).pairTextInput g h (some h') guestVersions
      hostVersions).Answered lawful := ha.createTextInput hc hg hf
  refine ⟨hone.used, hone.history, fun k hk => ?_, fun hl k h hge hk hh => ?_, hone.client⟩
  · rcases hk with rfl | hk
    · exact hf'.two_le
    · exact hone.created k hk
  · rcases hh with rfl | hh
    · have hne : k ≠ g := by
        rintro rfl
        exact absurd hg.lt_start (Nat.not_lt.mpr hge)
      have hk' : s.shadowTable.guestToHost.get k = some h' :=
        ((Table.get_set ..).trans (if_neg hne)).symm.trans hk
      have hnone : s.shadowTable.hostToGuest.get h' = none := hf'.mem.1
      simp [(hc.paired k h').mp hk'] at hnone
    · exact hone.server hl k h hge hk hh

/-- An object of the host: a lawful one announces no object of the proxy. -/
theorem pairAnnouncedAs {version : ℕ} {next : ServerId} (ha : s.Answered lawful)
    (hg : s.FreshServerId g) (hh : lawful → ¬ Outstanding s.hostTraffic h) :
    (s.pairAnnouncedAs g h i version next).Answered lawful := by
  have hannounced : ((s.logHost (.announce h)).logGuest (.announce g)).Answered lawful :=
    (ha.logHost (.announce h) (by simp)).logGuest (.announce g) (by simp)
  refine ⟨fun k hk => ?_, hannounced.history, hannounced.created, fun hl k h' hge hk => ?_,
    hannounced.client⟩
  · by_cases heq : k = g
    · exact .inr (.inl (heq ▸ hg.start_le))
    · refine hannounced.used k ?_
      change (s.shadowTable.guestToHost.set g h).get k ≠ none ∨
        (s.shadowTable.interfaces.set g i).get k ≠ none at hk
      rwa [Table.get_set, if_neg heq, Table.get_set, if_neg heq] at hk
  · change (s.shadowTable.guestToHost.set g h).get k = some h' at hk
    rw [Table.get_set] at hk
    split_ifs at hk with heq
    · exact Option.some.inj hk ▸ hh hl
    · exact ha.server hl k h' hge hk

theorem forwardDestructor (ha : s.Answered lawful) (g h : ℕ) :
    (s.forwardDestructor g h).Answered lawful := by
  refine (ha.logHost (.destroy h) (by simp)).keep ?_ rfl fun _ => id
  simp only [IdState.forwardDestructor, IdState.onTable]
  split_ifs
  · exact (ShadowTable.frees_removeId _ g).fewer
  · exact ShadowTable.fewer_markPendingDestroy _ g

/-- The host acknowledged an ID; a lawful one acknowledges what the proxy created. -/
theorem onDeleteId (hc : s.Coherent) (ha : s.Answered lawful)
    (hh : lawful → Outstanding s.hostTraffic h) : (s.onDeleteId h).Answered lawful := by
  have hack : (s.acknowledged h).Answered lawful :=
    (ha.logHost (.acknowledge h) (by simp)).keep (.refl _) rfl fun _ => id
  have hclient : ∀ g, s.shadowTable.hostToGuest.get h = some g → s.shadowTable.Used g →
      lawful → 1 < g ∧ g < guestServerIdStart := by
    intro g hg hused hl
    have hg := (hc.paired g h).mpr hg
    have hlt : g < guestServerIdStart := by
      by_contra hge
      exact ha.server hl g h (Nat.le_of_not_lt hge) hg (hh hl)
    rcases ha.used g hused with rfl | hge | hout
    · have hle := ha.created h (hh hl)
      rw [hc.display h hg] at hle
      omega
    · omega
    · exact ⟨hout.1, hlt⟩
  rcases s.onDeleteId_cases h with heq | ⟨g, i, ho, hg, hi, heq⟩ | ⟨g, ho, hg, heq⟩
  · exact heq ▸ hack
  · have hfrees := (hc.acknowledged h).paired.frees_removeGuestMapping ((hc.paired g h).mpr hg)
    rw [heq]
    exact hack.acknowledge (ShadowTable.used_of_get hi) hfrees rfl (fun _ => id)
      (hclient g hg (ShadowTable.used_of_get hi))
  · have hused : s.shadowTable.Used g := .inl (by simp [(hc.paired g h).mpr hg])
    rw [heq]
    exact hack.acknowledge hused (ShadowTable.frees_removeId _ g) rfl (fun _ => id)
      (hclient g hg hused)

theorem move (hc : s.Coherent) (ha : s.Answered lawful) (hm : s.Move lawful s') :
    s'.Answered lawful := by
  cases hm with
  | emit | emitError | flush => exact ha.keep (.refl _) rfl fun _ => id
  | guestCreate | guestDestroy => exact ha.logGuest _ (by simp)
  | track g hg i guestVersions =>
    exact ha.named hg fun k hk => ⟨rfl, by rw [Table.get_set, if_neg hk]⟩
  | pairQueued hg hf | pairSent hg hf => exact ha.pair hc hg hf
  | @bridgeBuffer g x n h n' version i guestVersions hostVersions hg hf hf' =>
    have hpair : ((s.bound x n i version).pair g h n' .wlBuffer guestVersions
        hostVersions).queueNewId h |>.Answered lawful :=
      (ha.bound hc hf).pair (hc.bound hf) hg.bound hf'
    exact hpair.destroyInternal x
  | pairAnnounced hg hh hl hi => exact ha.pairAnnouncedAs hg hl
  | orphanBuffer h version hh =>
    refine Answered.destroyInternal (s := (s.logHost (.announce h)).onTable
      (·.trackHostInterfaceWithVersion h .wlBuffer version)) ?_ h
    exact (ha.logHost (.announce h) (by simp)).keep (.refl _) rfl fun _ => id
  | logDestroy h => exact ha.logHost _ (by simp)
  | markPendingDestroy g =>
    exact ha.keep (ShadowTable.fewer_markPendingDestroy _ g) rfl fun _ => id
  | forwardDestructor => exact ha.forwardDestructor ..
  | retireBuffer hg =>
    exact ha.keep (ShadowTable.fewer_retireGuestObject hg.mapped hg.interface) rfl fun _ => id
  | @destroyParams g h hg =>
    have horphan : (s.orphanParams g h).Answered lawful := ha.keep (.refl _) rfl fun _ => id
    exact horphan.forwardDestructor ..
  | @completeCallback g h hh hmark hi =>
    have hg := hc.mapped (.inr hh)
    have hfrees := hc.paired.frees_retireServerDestroyedObject hg hi
    have hinterface : s.shadowTable.interfaces.get g = some .wlCallback := by
      cases hhost : s.shadowTable.hostInterfaces.get h with
      | none => rwa [hhost, Option.none_or] at hi
      | some j =>
        rw [hhost, Option.some_or] at hi
        exact absurd (hhost.trans hi) (hc.callback g h hh)
    exact ha.acknowledge (ShadowTable.used_of_get hinterface) hfrees rfl (fun _ => id) fun _ =>
      ha.of_guest hc hinterface (by simp) (by simp) (by simp)
  | deleteLocal g hlocal =>
    unfold ShadowTable.isLocalOnlyGuestObject at hlocal
    cases hi : s.shadowTable.interfaces.get g with
    | none => simp [hi] at hlocal
    | some i =>
      rw [hi, Option.any_some] at hlocal
      unfold queueLocalDeleteId
      split_ifs
      · refine ha.acknowledge (ShadowTable.used_of_get hi) (ShadowTable.frees_removeId _ g) rfl
          (fun _ => id) fun _ => ha.of_guest hc hi ?_ ?_ ?_
        all_goals
          rintro rfl
          exact absurd hlocal (by decide)
      · exact ha
  | retireTextInput hg =>
    exact ha.acknowledge (ShadowTable.used_of_get hg.interface)
      (hc.paired.frees_removeGuestMapping hg.mapped) rfl (fun _ => id) fun _ =>
        ha.of_guest hc hg.interface (by simp) (by simp) (by simp)
  | answerOrphan h hh =>
    refine ha.keep ?_ rfl fun _ => id
    simp only [answerOrphan, onTable]
    split_ifs <;> exact .refl _

end Answered

/-- At first the tables know only the display. -/
theorem answered_new : new.Answered lawful where
  used g hg := by
    rw [new_shadowTable] at hg
    refine .inl ?_
    by_contra hne
    simp [ShadowTable.Used, ShadowTable.new, hne] at hg
  history := eachAfter_nil
  created _ hh := hh.elim
  server _ _ _ _ _ := id
  client _ g hg := by simp [new, guestLifetimes] at hg

end IdState

open IdContext in
theorem answered_act {p : Promises} {c c' : IdContext} (hc : c.toIdState.Coherent)
    (ha : c.toIdState.Answered p.lawful) (hact : Act p c c') : c'.toIdState.Answered p.lawful := by
  cases hact with
  | note h => exact h.ids ▸ ha
  | move hm h => exact h.ids ▸ ha.move hc hm
  | bind hf h => exact h.ids ▸ ha.bound hc hf
  | drop _ hs h =>
    rcases hs with rfl | rfl
    · exact h.ids ▸ ha.destroyInternal _
    · exact h.ids ▸ ha.retireInternal _
  | createTextInput hg hf h => exact h.ids ▸ ha.createTextInput hc hg hf
  | createExtendedTextInput hg hf hf' _ h => exact h.ids ▸ ha.createExtendedTextInput hc hg hf hf'
  | deleteId hh => exact onDeleteId_toIdState c _ ▸ ha.onDeleteId hc hh

theorem answered_of_reachable {p : IdContext.Promises} {c : IdContext}
    (hc : idSystem.ReachableWhile (IdContext.Keeps p) c) :
    c.toIdState.Coherent ∧ c.toIdState.Answered p.lawful :=
  ids_invariant (I := fun s _ => s.Coherent ∧ s.Answered p.lawful)
    ⟨IdState.coherent_new, IdState.answered_new⟩
    (fun _ _ h hact => ⟨IdContext.coherent_act h.1 hact, answered_act h.1 h.2 hact⟩) hc

/-- In every run the guest hears of the end of each object it created at most once, and then the
object's ID is free and not awaited; no free ID is awaited. With a host that acknowledges only what
the proxy created, it hears of the end of its own objects only. -/
theorem guestDeleteIds {c : IdContext} (hc : idSystem.Reachable c) :
    EachAfter IdState.AnswersOnce c.guestLifetimes ∧
    (∀ newer g older, c.guestLifetimes = newer ++ .acknowledge g :: older →
      LifetimeEvent.create g ∉ newer → 1 < g → g < guestServerIdStart →
      c.shadowTable.isGuestIdAvailable g = true ∧
        c.shadowTable.isPendingDestroyGuest g = false) ∧
    (∀ g, c.shadowTable.isGuestIdAvailable g = true →
      c.shadowTable.isPendingDestroyGuest g = false) ∧
    (idSystem.ReachableWhile IdContext.HostLawful c → ∀ g,
      LifetimeEvent.acknowledge g ∈ c.guestLifetimes → 1 < g ∧ g < guestServerIdStart) := by
  have hrun : idSystem.ReachableWhile (IdContext.Keeps ⟨False, False⟩) c :=
    hc.mono fun _ _ _ => ⟨False.elim, False.elim⟩
  obtain ⟨hcoherent, ha⟩ := answered_of_reachable hrun
  have hmarked : ∀ g, c.shadowTable.guestToHost.get g = none →
      c.shadowTable.isPendingDestroyGuest g = false := by
    intro g hg
    refine decide_eq_false fun hmark => ?_
    exact hcoherent.marked g hmark hg
  refine ⟨ha.history, fun newer g older heq hnew hone hlt => ?_, fun g hg => ?_, fun hl g hg => ?_⟩
  · -- an object of that ID would be one the guest created since
    have hunused : ¬ c.shadowTable.Used g := by
      intro hused
      rcases ha.used g hused with rfl | hge | hout
      · omega
      · omega
      · rw [heq] at hout
        have hended : ¬ Outstanding (.acknowledge g :: older) g := by simp
        exact hnew (hout.2.started hended)
    obtain ⟨hg, hi⟩ := not_or.mp hunused
    exact ⟨ShadowTable.isGuestIdAvailable_iff.mpr
      ⟨hone, hlt, not_not.mp hg, not_not.mp hi⟩, hmarked g (not_not.mp hg)⟩
  · exact hmarked g (ShadowTable.isGuestIdAvailable_iff.mp hg).2.2.1
  · have hlawful : idSystem.ReachableWhile (IdContext.Keeps ⟨True, False⟩) c :=
      hl.mono fun _ _ h => ⟨fun _ => h, False.elim⟩
    exact (answered_of_reachable hlawful).2.client trivial g hg

/-- A guest creates a region and destroys it. -/
def regionRun : List IdMessage :=
  [.request (.getRegistry 2), .request (.bind 2 3 .wlCompositor 3 0),
    .request (.plain ⟨3, .wlCompositor, 0, [], some (4, .wlRegion), []⟩),
    .request (.plainDestructor 4 .wlRegion 0), .endBatch .hostToClient]

/-- The host acknowledges the region: its ID is free at once. -/
theorem guestDeleteIds_region : ∃ c : IdContext,
    idSystem.run .new (regionRun ++ [.event (.deleteId 4)]) = some c ∧
    c.guestLifetimes = [.acknowledge 4, .destroy 4, .create 4, .create 3, .create 2] ∧
    Outstanding c.guestLifetimes.tail 4 ∧ c.shadowTable.isGuestIdAvailable 4 = true ∧
    c.shadowTable.isPendingDestroyGuest 4 = false ∧ 4 < guestServerIdStart := by
  obtain ⟨b, hbefore⟩ : ∃ b : IdContext, idSystem.run .new regionRun = some b := ⟨_, rfl⟩
  obtain ⟨c, hrun⟩ : ∃ c : IdContext,
      idSystem.run .new (regionRun ++ [.event (.deleteId 4)]) = some c := ⟨_, rfl⟩
  have htraffic : (some b).map (·.hostTraffic) =
      some [.destroy 4, .create 4, .create 3, .create 2] := by
    rw [← hbefore]
    rfl
  have hlife : (some c).map (·.guestLifetimes) =
      some [.acknowledge 4, .destroy 4, .create 4, .create 3, .create 2] := by
    rw [← hrun]
    rfl
  replace hlife : c.guestLifetimes = _ := Option.some.inj hlife
  have hb : idSystem.ReachableWhile IdContext.HostLawful b :=
    TransitionSystem.ReachableWhile.run (.init rfl) (by simp [regionRun, IdContext.HostLawful])
      hbefore
  -- the object is one of the proxy's, so the host may acknowledge it
  have hlawful : b.HostLawful (.event (.deleteId 4)) := by
    simp [IdContext.HostLawful, Option.some.inj htraffic]
  have hstep : idSystem.step b (.event (.deleteId 4)) = some c := by
    rw [TransitionSystem.run_append, hbefore] at hrun
    simpa using hrun
  have hc : idSystem.ReachableWhile IdContext.HostLawful c := hb.step hlawful hstep
  obtain ⟨honce, havailable, -, hclient⟩ := guestDeleteIds hc.reachable
  have hlt := (hclient hc 4 (by simp [hlife])).2
  obtain ⟨hfree, hmark⟩ := havailable [] 4 _ hlife (by simp) (by simp) hlt
  rw [hlife] at honce
  refine ⟨c, hrun, hlife, ?_, hfree, hmark, hlt⟩
  rw [hlife]
  exact ((honce.1 4 rfl).resolve_left (by simp)).resolve_left (Nat.not_le.mpr hlt)

/-- A host that acknowledges the buffer it announced: the guest is told of an ID it never
created. -/
theorem server_id_acknowledged : ¬ ∀ c, idSystem.Reachable c → ∀ g,
    LifetimeEvent.acknowledge g ∈ c.guestLifetimes → g < guestServerIdStart := by
  obtain ⟨c, hrun⟩ : ∃ c : IdContext, idSystem.run .new [.request (.getRegistry 2),
      .request (.bind 2 3 .zwpLinuxDmabufV1 3 0), .request (.createParams 3 4),
      .request (.create 4), .endBatch .hostToClient, .event (.created 4 0xff000000),
      .event (.deleteId 0xff000000)] = some c := ⟨_, rfl⟩
  have hlife : (some c).map (·.guestLifetimes) =
      some [.acknowledge 0xff000000, .announce 0xff000000, .create 4, .create 3, .create 2] := by
    rw [← hrun]
    rfl
  intro hclient
  have hlt := hclient c (.run (.init rfl) hrun) 0xff000000 (by simp [Option.some.inj hlife])
  exact absurd hlt (by decide)

end Sommelier
