import Sommelier.Globals.Effects

/-!
# The steps of a session

Each request and each event is one of the effects on the view.

## Main definitions

* `GlobalContext.Acts`: a message acts on the view.
* `GlobalSession.Routed`: what every session keeps about the routing of messages.
* `GlobalSession.Routed.acts`: the specification of a step.
-/
namespace Sommelier

namespace GlobalContext
variable {c c' : GlobalContext} {m : GlobalMessage}

/-- A message acts on the view, and no registry appears on the host side alone. -/
structure Acts (c : GlobalContext) (m : GlobalMessage) (c' : GlobalContext) : Prop where
  effect : Effect c.options m c.view c'.view
  clean : c.shadowTable.Clean → c'.shadowTable.Clean
  options : c'.options = c.options

theorem Aside.acts (h : Aside c c') (hm : m.isListing = false) : Acts c m c' :=
  ⟨h.view ▸ .idle hm, fun hclean => h.table ▸ hclean, h.options⟩

theorem guarded_eq_some {allowed : Bool} {next : Option GlobalContext}
    (h : guarded allowed next = some c') : allowed = true ∧ next = some c' := by
  unfold guarded at h
  split_ifs at h with hallowed
  exact ⟨hallowed, h⟩

theorem settle_eq_some (h : c.settle = some c') : c.fatalProtocolError = false ∧ c' = c := by
  unfold settle at h
  split_ifs at h with hfatal
  exact ⟨by simpa using hfatal, (Option.some.inj h).symm⟩

theorem senderAllowed_mapped {g : ℕ} {i : Interface} (h : c.senderAllowed g i = true)
    (hi : i.isLocalOnly = false) : c.shadowTable.interfaces.get g = some i ∧
      g ∉ c.shadowTable.pendingDestroyGuestIds ∧ ∃ h, c.shadowTable.guestToHost.get g = some h := by
  simp only [senderAllowed, Bool.and_eq_true, Bool.or_eq_true, ShadowTable.guestObjectMatches,
    beq_iff_eq, ShadowTable.isPendingDestroyGuest, Bool.not_eq_true', decide_eq_false_iff_not,
    ShadowTable.getHostId, ShadowTable.isLocalOnlyGuestObject] at h
  obtain ⟨⟨hg, hp⟩, hhost⟩ := h
  refine ⟨hg, hp, ?_⟩
  rcases hhost with hhost | hhost
  · exact Option.isSome_iff_exists.mp hhost
  · rw [hg, Option.any_some, hi] at hhost
    exact absurd hhost Bool.false_ne_true

theorem isGuestIdAvailable_new {t : ShadowTable} {g : ℕ} (h : t.isGuestIdAvailable g = true) :
    t.guestToHost.get g = none ∧ t.interfaces.get g = none := by
  simp only [ShadowTable.isGuestIdAvailable, Bool.and_eq_true, Option.isNone_iff_eq_none] at h
  exact ⟨h.1.2, h.2⟩

theorem requestAllowed_interface {g since : ℕ} {i : Interface}
    (h : c.requestAllowed g i since = true) : c.shadowTable.interfaces.get g = some i := by
  have hsender : c.senderAllowed g i = true := (Bool.and_eq_true_iff.mp h).1
  simp only [senderAllowed, Bool.and_eq_true, ShadowTable.guestObjectMatches,
    beq_iff_eq] at hsender
  exact hsender.1.1

/-! ### Requests -/

theorem acts_getRegistry {registry : ℕ} (h : c.requestStep (.getRegistry registry) = some c') :
    Acts c (.getRegistry registry) c' := by
  obtain ⟨hallowed, h⟩ := guarded_eq_some h
  obtain ⟨hg, hnew⟩ := isGuestIdAvailable_new (Bool.and_eq_true_iff.mp hallowed).2
  obtain ⟨result, hresult, rfl⟩ := Option.map_eq_some_iff.mp h
  simp only [onGetRegistry, Option.bind_eq_bind, Option.bind_eq_some_iff] at hresult
  obtain ⟨⟨hostId, t⟩, ht, hresult⟩ := hresult
  obtain ⟨hfree, -, next, rfl⟩ := ShadowTable.allocateHostId_eq_some ht
  have hh := (ShadowTable.hostIdFree_iff.mp hfree).1
  rw [← Option.some.inj hresult]
  have hmap := ShadowTable.mapId_fresh (t := { c.shadowTable with nextHostId := next }) hg hh
  refine ⟨?_, ?_, rfl⟩
  · dsimp only
    rw [hmap]
    exact .bind (g := registry) (h := hostId) (i := .wlRegistry) rfl hg hh hnew rfl (by decide)
  · dsimp only
    rw [hmap]
    exact id

/-- The object of a forwarded request, or of a binding. -/
theorem acts_bind {t : ShadowTable} {g h : ℕ} {i : Interface} (hm : m.isListing = false)
    (hg : c.shadowTable.guestToHost.get g = none) (hh : c.shadowTable.hostToGuest.get h = none)
    (hnew : c.shadowTable.interfaces.get g = none) (hcreated : m.created = some (g, i))
    (hshm : i ≠ .wlShm) (hids : c'.shadowTable = t) (ht : t.ids = c.shadowTable.ids.bind g h i)
    (hhost : t.hostInterfaces = c.shadowTable.hostInterfaces)
    (hview : c'.view = { c.view with ids := t.ids }) (hoptions : c'.options = c.options) :
    Acts c m c' := by
  refine ⟨?_, ?_, hoptions⟩
  · rw [hview, ht]
    exact .bind hm hg hh hnew hcreated hshm
  · rw [hids, ShadowTable.Clean, ShadowTable.Clean, hhost]
    exact id

theorem acts_track {g v : ℕ} {i : Interface} (hm : m.isListing = false)
    (hg : c.shadowTable.guestToHost.get g = none)
    (hnew : c.shadowTable.interfaces.get g = none) (hcreated : m.created = some (g, i))
    (h : Aside { c with shadowTable := c.shadowTable.trackInterfaceWithVersion g i v } c') :
    Acts c m c' := by
  refine ⟨?_, ?_, h.options⟩
  · rw [h.view]
    exact .track hm hg hnew hcreated
  · rw [h.table]
    exact id

theorem acts_bindRequest {r n v g : ℕ} {i : Interface}
    (h : c.requestStep (.bind r n i v g) = some c') : Acts c (.bind r n i v g) c' := by
  obtain ⟨hallowed, h⟩ := guarded_eq_some h
  obtain ⟨hsender, havailable⟩ := Bool.and_eq_true_iff.mp hallowed
  obtain ⟨hg, hnew⟩ := isGuestIdAvailable_new havailable
  have hsender' : c.senderAllowed r .wlRegistry = true := (Bool.and_eq_true_iff.mp hsender).1
  obtain ⟨hr, -, hostRegistry, hhost⟩ := senderAllowed_mapped hsender' rfl
  obtain ⟨result, hresult, hsettle⟩ := Option.bind_eq_some_iff.mp h
  obtain ⟨hfatal, rfl⟩ := settle_eq_some hsettle
  unfold onBind at hresult
  dsimp only at hresult
  split_ifs at hresult with hbind
  · rw [← Option.some.inj hresult] at hfatal
    exact absurd hfatal (by simp [queueProtocolError])
  · split at hresult
    · rw [← Option.some.inj hresult]
      exact acts_track rfl hg hnew rfl (aside_registerGuestShm _ g)
    · rw [← Option.some.inj hresult]
      exact acts_track rfl hg hnew rfl (.refl _)
    · obtain ⟨next, hnext, rfl⟩ := Option.map_eq_some_iff.mp hresult
      simp only [queueGtkShellCapabilityBarrier, Option.bind_eq_bind,
        Option.bind_eq_some_iff] at hnext
      obtain ⟨⟨callbackId, c₁⟩, halloc, hnext⟩ := hnext
      obtain ⟨t, rfl, hroutes⟩ := allocateInternal_eq_some (by decide) halloc
      rw [← Option.some.inj hnext]
      refine ⟨?_, hroutes.clean, rfl⟩
      have hids := hroutes.ids
      have hview : ∀ next : GlobalContext, next.view = { c.view with ids := t.ids } →
          Effect c.options (.bind r n .gtkShell1 v g) c.view next.view := by
        intro next hnext
        rw [hnext, hids]
        exact .track rfl hg hnew rfl
      exact hview _ rfl
    · next hshm _ _ =>
      obtain ⟨next, hnext, rfl⟩ := Option.map_eq_some_iff.mp hresult
      simp only [bindOnHost, Option.bind_eq_bind, Option.bind_eq_some_iff] at hnext
      obtain ⟨⟨hostId, t⟩, ht, hnext⟩ := hnext
      obtain ⟨hfree, -, nextId, rfl⟩ := ShadowTable.allocateHostId_eq_some ht
      have hh := (ShadowTable.hostIdFree_iff.mp hfree).1
      have hmap := ShadowTable.mapId_fresh (t := { c.shadowTable with nextHostId := nextId }) hg hh
      dsimp only at hnext
      rw [hmap] at hnext
      have hne : r ≠ g := by
        rintro rfl
        rw [hhost] at hg
        exact Option.some_ne_none _ hg
      have hlookup : (Table.set c.shadowTable.guestToHost g hostId).get r = some hostRegistry := by
        rw [Table.get_set, if_neg hne, hhost]
      split at hnext
      · next hnone => exact absurd (hlookup.symm.trans hnone) (Option.some_ne_none _)
      · split_ifs at hnext
        all_goals
          rw [← Option.some.inj hnext]
          exact acts_bind (t := _) (h := hostId) (i := i) rfl hg hh hnew rfl hshm rfl rfl rfl
            rfl rfl

theorem acts_getFeedback {factory g : ℕ} {tables : Bool}
    (h : c.requestStep (.getFeedback factory g tables) = some c') :
    Acts c (.getFeedback factory g tables) c' := by
  obtain ⟨hallowed, h⟩ := guarded_eq_some h
  obtain ⟨hg, hnew⟩ := isGuestIdAvailable_new (Bool.and_eq_true_iff.mp hallowed).2
  obtain ⟨hfatal, rfl⟩ := settle_eq_some h
  revert hfatal
  unfold createSyntheticFeedback
  split
  · intro hfatal
    exact absurd hfatal (by simp [queueProtocolError])
  · dsimp only
    split_ifs
    · split
      · next hqueue =>
        intro
        exact acts_track rfl hg hnew rfl (.after (aside_queueSyntheticFeedback hqueue)
          ⟨rfl, fun _ _ => rfl, rfl, rfl, rfl⟩)
      · intro hfatal
        exact absurd hfatal (by simp [queueProtocolError])
    · intro
      exact acts_track rfl hg hnew rfl ⟨rfl, fun _ _ => rfl, rfl, rfl, rfl⟩

theorem view_sendGuest (c : GlobalContext) (event : GuestEvent) :
    (c.sendGuest event).view = c.view.tell [event] := by
  have : ∀ g n, registryNotices g n (event :: c.guestEvents) =
      registryNotices g n [event] ++ registryNotices g n c.guestEvents := fun g n => by
    rw [registryNotices, registryNotices, registryNotices, ← List.filterMap_append,
      List.singleton_append]
  simp only [GlobalContext.view, GlobalView.tell, sendGuest, this]
  rfl

theorem acts_queueLocalDeleteId {g : ℕ} {i : Interface} (hm : m.isListing = false)
    (hi : c.shadowTable.interfaces.get g = some i) (hdestroyed : m.destroyed = some (g, i)) :
    Acts c m (c.queueLocalDeleteId g) := by
  unfold queueLocalDeleteId
  split_ifs with h
  · have hg : c.shadowTable.guestToHost.get g = none := by
      simp only [Bool.and_eq_true, Option.isNone_iff_eq_none] at h
      exact h.2
    have hremove := ShadowTable.removeId_unmapped hg
    refine ⟨?_, ?_, rfl⟩
    · rw [view_sendGuest, hremove]
      exact .untrack hm hg hi hdestroyed
    · dsimp only [sendGuest]
      rw [hremove]
      exact id
  · exact (Aside.refl c).acts hm

theorem Aside.trans_acts {c₁ : GlobalContext} (h : Aside c c₁) (h' : Acts c₁ m c') :
    Acts c m c' := by
  refine ⟨?_, ?_, h'.options.trans h.options⟩
  · rw [← h.view, ← h.options]
    exact h'.effect
  · rw [← h.table]
    exact h'.clean

theorem acts_forwardDestructor {g since : ℕ} {i : Interface} (hm : m.isListing = false)
    (h : c.requestAllowed g i since = true) (hi : i ≠ .wlRegistry) {c₁ : GlobalContext}
    (haside : Aside c c₁) : Acts c m (c₁.forwardDestructor g) := by
  have hg := requestAllowed_interface h
  refine haside.trans_acts ?_
  rw [← haside.table] at hg
  unfold forwardDestructor
  split
  · exact (Aside.refl c₁).acts hm
  · next hostId hhost =>
    have hmark := ShadowTable.markPendingDestroy_mapped hhost
    refine ⟨?_, ?_, rfl⟩
    · rw [hmark]
      exact .doom hm hhost hg hi
    · dsimp only [sendHost]
      rw [hmark]
      exact id

theorem acts_createPool {shm g : ℕ} {mapped : Bool}
    (h : c.requestStep (.createPool shm g mapped) = some c') :
    Acts c (.createPool shm g mapped) c' := by
  obtain ⟨hallowed, h⟩ := guarded_eq_some h
  obtain ⟨hg, hnew⟩ := isGuestIdAvailable_new (Bool.and_eq_true_iff.mp hallowed).2
  obtain ⟨hfatal, rfl⟩ := settle_eq_some h
  revert hfatal
  unfold onCreatePool
  split_ifs
  · intro
    exact (Aside.refl c).acts rfl
  · intro hfatal
    exact absurd hfatal (by simp [queueProtocolError])
  · intro
    exact acts_track rfl hg hnew rfl ⟨rfl, fun _ _ => rfl, rfl, rfl, rfl⟩

theorem acts_newObject {sender g : ℕ} {i : Interface}
    (h : c.requestStep (.newObject sender g i) = some c') : Acts c (.newObject sender g i) c' := by
  obtain ⟨hallowed, h⟩ := guarded_eq_some h
  obtain ⟨hg, hnew⟩ := isGuestIdAvailable_new (Bool.and_eq_true_iff.mp hallowed).2
  have hshm : i ≠ .wlShm := by
    rintro rfl
    exact absurd hallowed Bool.false_ne_true
  simp only [mapNewId, Option.bind_eq_bind, Option.bind_eq_some_iff] at h
  obtain ⟨⟨hostId, t⟩, ht, h⟩ := h
  obtain ⟨hfree, -, next, rfl⟩ := ShadowTable.allocateHostId_eq_some ht
  have hh := (ShadowTable.hostIdFree_iff.mp hfree).1
  have hregister := ShadowTable.registerObject_fresh
    (t := { c.shadowTable with nextHostId := next }) hg hh i
  dsimp only at h
  rw [hregister] at h
  rw [← Option.some.inj h]
  exact acts_bind (t := _) (h := hostId) (i := i) rfl hg hh hnew rfl hshm rfl rfl rfl rfl rfl

/-- The tables of a destroyed registry. -/
theorem ledger_forget (c : GlobalContext) (r : ℕ) : GlobalContext.ledger { c with
      registryGlobalGenerations := c.registryGlobalGenerations.erase r
      registryGlobalNames := c.registryGlobalNames.erase r
      registryGlobalRemoved := c.registryGlobalRemoved.erase r
      registryGlobalVisibility := c.registryGlobalVisibility.erase r
      pendingDmabufGlobals := c.pendingDmabufGlobals.filter (·.registryHostId != r) } =
    c.ledger.forget r := by
  refine Ledger.ext ?_ ?_ ?_ ?_ rfl rfl rfl rfl rfl <;> funext r'
  · by_cases h : r' = r <;> simp [ledger, Ledger.forget, namesOf, h]
  · by_cases h : r' = r <;> simp [ledger, Ledger.forget, removedOf, h]
  · by_cases h : r' = r
    · subst h
      funext n
      simp [ledger, Ledger.forget, generationOf]
    · funext n
      simp [ledger, Ledger.forget, generationOf, h]
  · by_cases h : r' = r
    · subst h
      funext n
      simp [ledger, Ledger.forget, visibilityOf]
    · funext n
      simp [ledger, Ledger.forget, visibilityOf, h]

theorem acts_destroyRegistry {fixes g : ℕ} (hpaired : c.shadowTable.Paired)
    (h : c.requestStep (.destroyRegistry fixes g) = some c') :
    Acts c (.destroyRegistry fixes g) c' := by
  obtain ⟨hallowed, h⟩ := guarded_eq_some h
  obtain ⟨hi, hp, r, hr⟩ := senderAllowed_mapped (Bool.and_eq_true_iff.mp hallowed).2 rfl
  rw [← Option.some.inj h]
  have hhost : (c.shadowTable.getHostId g).getD g = r := by
    rw [ShadowTable.getHostId, hr, Option.getD_some]
  unfold onDestroyRegistry
  dsimp only
  rw [hhost]
  have hreclaim := Aside.foldl aside_maybeReclaimCapabilityGeneration
    (((c.registryGlobalGenerations.get r).map fun generations =>
      generations.entries.map (·.2)).getD []) { c with
        registryGlobalGenerations := c.registryGlobalGenerations.erase r
        registryGlobalNames := c.registryGlobalNames.erase r
        registryGlobalRemoved := c.registryGlobalRemoved.erase r
        registryGlobalVisibility := c.registryGlobalVisibility.erase r
        pendingDmabufGlobals := c.pendingDmabufGlobals.filter (·.registryHostId != r) }
  revert hreclaim
  generalize List.foldl maybeReclaimCapabilityGeneration _ _ = c₁
  intro hreclaim
  have hmark := ShadowTable.markPendingDestroy_mapped (t := c₁.shadowTable) (g := g) (h := r)
    (by rw [hreclaim.table]; exact hr)
  have hview := hreclaim.view
  refine ⟨?_, ?_, hreclaim.options⟩
  · have heq : GlobalContext.view { c₁ with shadowTable := c₁.shadowTable.markPendingDestroy g } =
        { c.view with ledger := c.ledger.forget r, ids := c.view.ids.doom g } := by
      rw [hmark, ← ledger_forget]
      exact congrArg (fun v : GlobalView => { v with ids := v.ids.doom g }) hview
    rw [heq]
    exact .forget ⟨(hpaired g r).mp hr, hi, hp⟩ hr
  · dsimp only
    rw [hmark, hreclaim.table]
    exact id

/-- What the guest asks for acts on the view. -/
theorem acts_requestStep (hpaired : c.shadowTable.Paired) (h : c.requestStep m = some c') :
    Acts c m c' := by
  cases m with
  | getRegistry => exact acts_getRegistry h
  | bind => exact acts_bindRequest h
  | destroyRegistry => exact acts_destroyRegistry hpaired h
  | getFeedback => exact acts_getFeedback h
  | destroyFeedback feedback =>
    obtain ⟨hallowed, h⟩ := guarded_eq_some h
    have haside := aside_feedbackOnDestroy c feedback
    have hi := requestAllowed_interface hallowed
    rw [← haside.table] at hi
    exact Option.some.inj h ▸ haside.trans_acts (acts_queueLocalDeleteId rfl hi rfl)
  | destroyDmabuf factory =>
    obtain ⟨hallowed, h⟩ := guarded_eq_some h
    exact Option.some.inj h ▸
      acts_forwardDestructor rfl hallowed (by decide) (aside_dmabufOnDestroy c factory)
  | createPool => exact acts_createPool h
  | destroyPool pool =>
    obtain ⟨hallowed, h⟩ := guarded_eq_some h
    have haside : Aside c (c.poolOnDestroy pool).2 := ⟨rfl, fun _ _ => rfl, rfl, rfl, rfl⟩
    have hi := requestAllowed_interface hallowed
    exact Option.some.inj h ▸ haside.trans_acts (acts_queueLocalDeleteId rfl hi rfl)
  | releaseShm shm =>
    obtain ⟨hallowed, h⟩ := guarded_eq_some h
    have haside : Aside c (c.shmOnRelease shm).2 := ⟨rfl, fun _ _ => rfl, rfl, rfl, rfl⟩
    have hi := requestAllowed_interface hallowed
    exact Option.some.inj h ▸ haside.trans_acts (acts_queueLocalDeleteId rfl hi rfl)
  | newObject => exact acts_newObject h
  | destroyObject g i =>
    obtain ⟨hallowed, h⟩ := guarded_eq_some h
    obtain ⟨hordinary, hallowed⟩ := Bool.and_eq_true_iff.mp hallowed
    have hi : i ≠ .wlRegistry := by
      rintro rfl
      exact absurd hordinary (by decide)
    exact Option.some.inj h ▸ acts_forwardDestructor rfl hallowed hi (.refl c)
  | _ => exact absurd h (Option.some_ne_none c').symm

/-! ### Events -/

/-- Events that a host object alone, or none, receives are dropped or refused. -/
theorem deliver_eq_some {h : ℕ} {i : Interface} {handle : Option GlobalContext}
    (heq : c.deliver h i handle = some c') :
    c' = c ∧ (c.eventInterface h = none ∨ c.shadowTable.isPendingDestroyHost h = true) ∨
      c.eventInterface h = some i ∧ c.shadowTable.isPendingDestroyHost h = false ∧
        handle = some c' := by
  unfold deliver at heq
  split at heq
  · next hnone => exact .inl ⟨(Option.some.inj heq).symm, .inl hnone⟩
  · next name hname =>
    split_ifs at heq with hne hpending
    · exact .inl ⟨(Option.some.inj heq).symm, .inr hpending⟩
    · rw [not_not] at hne
      exact .inr ⟨hne ▸ hname, by simpa using hpending, heq⟩

theorem isPendingDestroyHost_iff {t : ShadowTable} {h : ℕ} :
    t.isPendingDestroyHost h = true ↔
      ∃ g, t.hostToGuest.get h = some g ∧ g ∈ t.pendingDestroyGuestIds := by
  simp [ShadowTable.isPendingDestroyHost, ShadowTable.isPendingDestroyGuest, Option.any_eq_true]

/-- The event of a registry reaches its handler exactly if the registry is alive. -/
theorem deliver_registry {r : ℕ} {handle : Option GlobalContext}
    (hclean : c.shadowTable.Clean) (heq : c.deliver r .wlRegistry handle = some c') :
    c' = c ∧ (∀ g, ¬ c.view.Live r g) ∨ (∃ g, c.view.Live r g) ∧ handle = some c' := by
  rcases deliver_eq_some heq with ⟨rfl, hdead⟩ | ⟨hi, hpending, hhandle⟩
  · refine .inl ⟨rfl, fun g hlive => ?_⟩
    rcases hdead with hdead | hdead
    · obtain ⟨hg, hi, -⟩ := hlive
      have hg' : c'.shadowTable.getGuestId r = some g := hg
      have hi' : c'.shadowTable.getInterface g = some .wlRegistry := hi
      simp [eventInterface, hg', hi'] at hdead
    · obtain ⟨g', hg', hp⟩ := isPendingDestroyHost_iff.mp hdead
      obtain rfl := Option.some.inj (hlive.1.symm.trans hg')
      exact hlive.2.2 hp
  · refine .inr ⟨?_, hhandle⟩
    unfold eventInterface at hi
    rcases Option.or_eq_some_iff.mp hi with hi | ⟨-, hi⟩
    · exact absurd hi (hclean r)
    · obtain ⟨g, hg, hi⟩ := Option.bind_eq_some_iff.mp hi
      refine ⟨g, hg, hi, fun hp => ?_⟩
      have := isPendingDestroyHost_iff.mpr ⟨g, hg, hp⟩
      rw [hpending] at this
      exact Bool.false_ne_true this

theorem acts_global {r n v : ℕ} {i : Interface} (hclean : c.shadowTable.Clean)
    (h : c.eventStep (.global r n i v) = some c') : Acts c (.global r n i v) c' := by
  rcases deliver_registry hclean h with ⟨rfl, hdead⟩ | ⟨⟨g, hlive⟩, h⟩
  · exact ⟨.ignored (.inr (.inr hdead)), id, rfl⟩
  obtain ⟨result, hresult, rfl⟩ := Option.map_eq_some_iff.mp h
  rcases onGlobal_effect hlive.1 hresult with ⟨heq, hignored⟩ |
    ⟨o, hversion, hlists, ho, hledger, hevents, hroutes, hoptions, hbound⟩
  · rw [heq]
    exact ⟨.ignored (hignored.imp_right .inl), id, rfl⟩
  · refine ⟨?_, hroutes.clean, hoptions⟩
    rw [view_of_told hevents hroutes, hledger]
    exact .advertise hversion hlive hlists ho hbound

theorem acts_globalRemove {r n : ℕ} (hclean : c.shadowTable.Clean)
    (h : c.eventStep (.globalRemove r n) = some c') : Acts c (.globalRemove r n) c' := by
  rcases deliver_registry hclean h with ⟨rfl, hdead⟩ | ⟨⟨g, hlive⟩, h⟩
  · exact ⟨.unlisted (.inr hdead), id, rfl⟩
  rw [← Option.some.inj h]
  by_cases hn : n ∈ c.namesOf r
  · obtain ⟨last, tombstone, hlast, htombstone, hledger, hevents, hroutes, hoptions, hbound⟩ :=
      onGlobalRemove_effect hlive.1 hn
    refine ⟨?_, hroutes.clean, hoptions⟩
    rw [view_of_told hevents hroutes, hledger]
    exact .remove hlive hn hlast htombstone hbound
  · rw [onGlobalRemove, if_pos hn]
    exact ⟨.unlisted (.inl hn), id, rfl⟩

theorem table_publishPendingDmabufGlobals (c : GlobalContext) (generation : ℕ) :
    (c.publishPendingDmabufGlobals generation).shadowTable = c.shadowTable ∧
      (c.publishPendingDmabufGlobals generation).options = c.options := by
  have hfold : ∀ (ps : List PendingDmabufGlobal) (c : GlobalContext),
      (ps.foldl (publishPendingDmabufGlobal generation) c).shadowTable = c.shadowTable ∧
        (ps.foldl (publishPendingDmabufGlobal generation) c).options = c.options := by
    intro ps
    induction ps with
    | nil => exact fun _ => ⟨rfl, rfl⟩
    | cons p ps ih =>
      intro c
      have hone : (publishPendingDmabufGlobal generation c p).shadowTable = c.shadowTable ∧
          (publishPendingDmabufGlobal generation c p).options = c.options := by
        unfold publishPendingDmabufGlobal
        split_ifs <;> exact ⟨rfl, rfl⟩
      obtain ⟨htable, hoptions⟩ := ih (publishPendingDmabufGlobal generation c p)
      exact ⟨htable.trans hone.1, hoptions.trans hone.2⟩
  unfold publishPendingDmabufGlobals
  dsimp only
  split_ifs
  · exact hfold _ _
  · exact ⟨rfl, rfl⟩

theorem acts_completeCapabilityDiscovery {c₁ : GlobalContext} (hm : m.isListing = false)
    (tables : Bool) (generation : ℕ)
    (haside : Aside (c.completeCapabilityDiscovery tables generation) c₁) : Acts c m c₁ := by
  revert haside
  unfold completeCapabilityDiscovery
  split
  · intro haside
    exact haside.acts hm
  · next capabilities _ =>
    split_ifs
    · intro haside
      exact haside.acts hm
    · dsimp only
      intro haside
      have haside' := (aside_publishFeedbacks tables generation _ _).trans haside
      obtain ⟨htable, hoptions⟩ := table_publishPendingDmabufGlobals { c with
        dmabufCapabilities := c.dmabufCapabilities.set generation
          { capabilities with ready := true } } generation
      refine ⟨?_, ?_, haside'.options.trans hoptions⟩
      · rw [haside'.view, view_publishPendingDmabufGlobals]
        exact .publish generation _ hm
      · rw [haside'.table, htable]
        exact id

/-- A host object of the proxy is gone. -/
theorem acts_markPendingDestroyHost (c₁ : GlobalContext) (h : ℕ)
    (hview : c₁.view = { c.view with ids := (c.shadowTable.markPendingDestroyHost h).2.ids })
    (htable : c₁.shadowTable = (c.shadowTable.markPendingDestroyHost h).2)
    (hoptions : c₁.options = c.options) (hacts : Acts c₁ m c') : Acts c m c' := by
  have hroutes := ShadowTable.Routes.markPendingDestroyHost c.shadowTable h
  have hview' : c₁.view = c.view := by
    rw [hview, hroutes.ids]
    rfl
  refine ⟨?_, ?_, hacts.options.trans hoptions⟩
  · rw [← hview', ← hoptions]
    exact hacts.effect
  · intro hclean
    refine hacts.clean ?_
    rw [htable]
    exact hroutes.clean hclean

theorem acts_callbackDone {h : ℕ} {tables : Bool}
    (heq : c.eventStep (.callbackDone h tables) = some c') :
    Acts c (.callbackDone h tables) c' := by
  rcases deliver_eq_some heq with ⟨rfl, -⟩ | ⟨-, -, heq⟩
  · exact (Aside.refl c').acts rfl
  obtain ⟨-, rfl⟩ := settle_eq_some heq
  unfold callbackOnDone
  split
  · next generation _ =>
    refine acts_markPendingDestroyHost { c with
      dmabufCapabilityCallbacks := c.dmabufCapabilityCallbacks.erase h
      shadowTable := (c.shadowTable.markPendingDestroyHost h).2 } h rfl rfl rfl ?_
    exact acts_completeCapabilityDiscovery rfl tables generation
      (aside_maybeReclaimCapabilityGeneration _ generation)
  · split
    · next gtkShellId _ =>
      refine acts_markPendingDestroyHost { c with
        gtkShellCapabilityCallbacks := c.gtkShellCapabilityCallbacks.erase h
        shadowTable := (c.shadowTable.markPendingDestroyHost h).2 } h rfl rfl rfl ?_
      dsimp only
      split_ifs
      · exact Aside.acts ⟨rfl, fun _ _ => rfl, rfl, rfl, rfl⟩ rfl
      · exact (Aside.refl _).acts rfl
    · exact (Aside.refl c).acts rfl

theorem acts_deleteId {h : ℕ} (hpaired : c.shadowTable.Paired)
    (hconforms : h ∈ c.shadowTable.pendingDestroyHostIds ∨
      c.shadowTable.isPendingDestroyHost h = true) : Acts c (.deleteId h) (c.onDeleteId h) := by
  unfold onDeleteId ShadowTable.consumeHostDeleteId
  dsimp only
  split_ifs with hconsumed
  · exact ⟨.idle rfl, id, rfl⟩
  · have hdoomed : c.shadowTable.isPendingDestroyHost h = true := by
      refine hconforms.resolve_left fun hmem => hconsumed ?_
      simpa using hmem
    obtain ⟨g, hh, hp⟩ := isPendingDestroyHost_iff.mp hdoomed
    have hg := (hpaired g h).mpr hh
    have hremove := ShadowTable.removeId_mapped (t := { c.shadowTable with
      pendingDestroyHostIds := c.shadowTable.pendingDestroyHostIds.erase h }) hg
    simp only [ShadowTable.getGuestId, hh]
    refine ⟨?_, ?_, rfl⟩
    · rw [view_sendGuest, hremove]
      exact .unbind hg hh hp
    · dsimp only [sendGuest]
      rw [hremove]
      have hroutes : c.shadowTable.Routes { c.shadowTable with
          hostInterfaces := c.shadowTable.hostInterfaces.erase h } := .of_erase rfl rfl
      exact hroutes.clean

/-- What the host sends acts on the view. -/
theorem acts_eventStep (hpaired : c.shadowTable.Paired) (hclean : c.shadowTable.Clean)
    (hconforms : ∀ h, m = .deleteId h → h ∈ c.shadowTable.pendingDestroyHostIds ∨
      c.shadowTable.isPendingDestroyHost h = true)
    (h : c.eventStep m = some c') : Acts c m c' := by
  cases m with
  | global => exact acts_global hclean h
  | globalRemove => exact acts_globalRemove hclean h
  | shmFormat shm format =>
    rcases deliver_eq_some h with ⟨rfl, -⟩ | ⟨-, -, h⟩
    · exact (Aside.refl c').acts rfl
    · rw [← Option.some.inj h]
      refine (aside_forwardEvent (fun _ _ _ => rfl) ?_).acts rfl
      unfold shmOnFormat
      split_ifs
      · exact aside_recordHostShmWlFormat c format
      · exact .refl c
  | dmabufFormat factory format tables =>
    rcases deliver_eq_some h with ⟨rfl, -⟩ | ⟨-, -, h⟩
    · exact (Aside.refl c').acts rfl
    · obtain ⟨-, rfl⟩ := settle_eq_some h
      exact (aside_forwardEvent (fun _ _ _ => rfl) (aside_onReport ..)).acts rfl
  | dmabufModifier factory format modifierHi modifierLo tables =>
    rcases deliver_eq_some h with ⟨rfl, -⟩ | ⟨-, -, h⟩
    · exact (Aside.refl c').acts rfl
    · obtain ⟨-, rfl⟩ := settle_eq_some h
      exact (aside_forwardEvent (fun _ _ _ => rfl) (aside_onReport ..)).acts rfl
  | callbackDone => exact acts_callbackDone h
  | deleteId hostId => exact Option.some.inj h ▸ acts_deleteId hpaired (hconforms hostId rfl)
  | endBatch =>
    rw [← Option.some.inj h]
    exact Aside.acts ⟨rfl, fun _ _ => rfl, rfl, rfl, rfl⟩ rfl
  | _ => exact absurd h (Option.some_ne_none c').symm

end GlobalContext

/-! ## The effects of steps -/

/-- The two ID maps are inverse to each other. -/
def ShadowTable.Ids.Paired (t : ShadowTable.Ids) : Prop :=
  ∀ g h, t.guestToHost.get g = some h ↔ t.hostToGuest.get h = some g

theorem ShadowTable.Ids.Paired.bind {t : ShadowTable.Ids} (ht : t.Paired) {g h : ℕ}
    (hg : t.guestToHost.get g = none) (hh : t.hostToGuest.get h = none) (i : Interface) :
    (t.bind g h i).Paired := by
  intro g' h'
  simp only [ShadowTable.Ids.bind, Table.get_set]
  by_cases hg' : g' = g <;> by_cases hh' : h' = h
  · simp [hg', hh']
  · subst hg'
    rw [if_pos rfl, if_neg hh', Option.some.injEq, ← ht g' h', hg]
    exact iff_of_false (fun heq => hh' heq.symm) (Option.some_ne_none h').symm
  · subst hh'
    rw [if_neg hg', if_pos rfl, Option.some.injEq, ht g' h', hh]
    exact iff_of_false (Option.some_ne_none g').symm (fun heq => hg' heq.symm)
  · rw [if_neg hg', if_neg hh']
    exact ht g' h'

theorem ShadowTable.Ids.Paired.unbind {t : ShadowTable.Ids} (ht : t.Paired) {g h : ℕ}
    (hg : t.guestToHost.get g = some h) : (t.unbind g h).Paired := by
  have hh := (ht g h).mp hg
  intro g' h'
  simp only [ShadowTable.Ids.unbind, Table.get_erase]
  by_cases hg' : g' = g <;> by_cases hh' : h' = h
  · simp [hg', hh']
  · subst hg'
    rw [if_pos rfl, if_neg hh', ← ht g' h', hg, Option.some.injEq]
    exact iff_of_false (Option.some_ne_none h').symm (fun heq => hh' heq.symm)
  · subst hh'
    rw [if_neg hg', if_pos rfl, ht g' h', hh, Option.some.injEq]
    exact iff_of_false (fun heq => hg' heq.symm) (Option.some_ne_none g').symm
  · rw [if_neg hg', if_neg hh']
    exact ht g' h'

theorem Effect.paired {options : GlobalOptions} {m : GlobalMessage} {v v' : GlobalView}
    (h : Effect options m v v') (hv : v.ids.Paired) : v'.ids.Paired := by
  cases h with
  | bind hm hg hh => exact hv.bind hg hh _
  | unbind hg => exact hv.unbind hg
  | publish generation canPublish => rwa [GlobalView.publish_ids]
  | _ => exact hv

namespace GlobalSession
variable {options : GlobalOptions} {s t : GlobalSession} {m : GlobalMessage}

/-- What every session keeps about the routing of messages. -/
structure Routed (options : GlobalOptions) (s : GlobalSession) : Prop where
  paired : s.context.view.ids.Paired
  clean : s.context.shadowTable.Clean
  options_eq : s.context.options = options

/-- Every step acts on the view in one of the ways. -/
theorem Routed.acts (hs : Routed options s) (h : s.step m = some t) :
    GlobalContext.Acts s.context m t.context ∧ t.advertised = s.advertise m ∧
      s.hostConforms m = true := by
  unfold step at h
  split_ifs at h with hconforms
  obtain ⟨next, hnext, rfl⟩ := Option.map_eq_some_iff.mp h
  refine ⟨?_, rfl, hconforms⟩
  rcases Option.or_eq_some_iff.mp hnext with hnext | ⟨-, hnext⟩
  · exact GlobalContext.acts_requestStep hs.paired hnext
  · refine GlobalContext.acts_eventStep hs.paired hs.clean ?_ hnext
    rintro h rfl
    simpa [hostConforms] using hconforms

theorem Routed.step (hs : Routed options s) (h : s.step m = some t) : Routed options t := by
  obtain ⟨hacts, -⟩ := hs.acts h
  exact ⟨hacts.effect.paired hs.paired, hacts.clean hs.clean, hacts.options.trans hs.options_eq⟩

theorem routed_new (options : GlobalOptions) : Routed options (.new options) := by
  refine ⟨?_, ?_, rfl⟩
  · have h : ShadowTable.Ids.Paired { ShadowTable.new.ids with
        guestToHost := Table.set ∅ 1 1
        hostToGuest := Table.set ∅ 1 1 } := by
      intro g h
      simp only [Table.get_set, Table.get_empty]
      grind
    exact h
  · intro h heq
    exact Option.some_ne_none _ (heq.symm.trans (Table.get_empty h))

end GlobalSession
end Sommelier
