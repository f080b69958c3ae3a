import Sommelier.Globals.Steps

/-!
# What the guest is told about globals

On each of its registries the guest is told that a name appears and disappears by turns,
whatever the host advertises on other registries and whenever the proxy learns the formats
that an advertisement waits for.

## Main definitions

* `Streamed`: the invariant.
* `guest_registry_stream`: the events of a registry alternate, and hidden globals have none.
-/
namespace Sommelier

/-- A pending advertisement, as a name on a registry. -/
def PendingDmabufGlobal.key (p : PendingDmabufGlobal) : ℕ × ℕ := (p.registryHostId, p.name)

/-- What the ledger says about a name is what the guest was told. -/
structure Streamed (v : GlobalView) (advertised : ℕ → Finset ℕ) : Prop where
  paired : v.ids.Paired
  live : ∀ r n, n ∈ v.ledger.names r → ∃ g, v.Live r g
  advertised : ∀ r n, n ∈ v.ledger.names r → n ∈ advertised r
  listed : ∀ r n, v.ledger.visibility r n ≠ none ↔ n ∈ v.ledger.names r
  hidden : ∀ p ∈ v.ledger.pending, v.ledger.visibility p.registryHostId p.name = some false ∧
    v.ledger.generation p.registryHostId p.name = some p.generation
  once : (v.ledger.pending.map PendingDmabufGlobal.key).Nodup
  alternates : ∀ g n, Alternates (v.edges g n)
  fresh : ∀ g n, v.ids.guestToHost.get g = none → occupant (v.edges g n) = none
  shown : ∀ r g n, v.ids.hostToGuest.get r = some g → g ∉ v.ids.pendingDestroyGuestIds →
    (occupant (v.edges g n) = some () ↔ v.ledger.visibility r n = some true)

namespace GlobalView
variable (v : GlobalView) (g n : ℕ)

/-- The edges come from the notices alone. -/
@[simp] theorem edges_mk (l : Ledger) (ids : ShadowTable.Ids) (bound : ℕ → Prop) :
    GlobalView.edges { v with ledger := l, ids, bound } = v.edges := rfl

@[simp] theorem tell_nil : v.tell [] = v := rfl

@[simp] theorem tell_ledger (told : List GuestEvent) : (v.tell told).ledger = v.ledger := rfl

@[simp] theorem tell_ids (told : List GuestEvent) : (v.tell told).ids = v.ids := rfl

@[simp] theorem tell_bound (told : List GuestEvent) : (v.tell told).bound = v.bound := rfl

theorem tell_global_edges (registry name version g n : ℕ) (i : Interface) :
    (v.tell [.global registry name i version]).edges g n =
      if registry = g ∧ name = n then .enter () :: v.edges g n else v.edges g n := by
  by_cases h : registry = g ∧ name = n <;> simp [edges, tell, registryNotices, registryNotice,
    RegistryNotice.edge, h]

theorem tell_globalRemove_edges (registry name g n : ℕ) :
    (v.tell [.globalRemove registry name]).edges g n =
      if registry = g ∧ name = n then .leave () :: v.edges g n else v.edges g n := by
  by_cases h : registry = g ∧ name = n <;> simp [edges, tell, registryNotices, registryNotice,
    RegistryNotice.edge, h]

theorem tell_deleteId_edges (object g n : ℕ) :
    (v.tell [.deleteId object]).edges g n =
      if object = g then .reset :: v.edges g n else v.edges g n := by
  by_cases h : object = g <;> simp [edges, tell, registryNotices, registryNotice,
    RegistryNotice.edge, h]

theorem tell_announcement_edges (o : Outcome) (registry name g n : ℕ) :
    (v.tell (o.announcement registry name)).edges g n =
      if o.isPublished = true ∧ registry = g ∧ name = n then .enter () :: v.edges g n
      else v.edges g n := by
  cases o with
  | published global =>
    rw [Outcome.announcement, tell_global_edges]
    simp [Outcome.isPublished]
  | hidden => simp [Outcome.announcement, Outcome.isPublished]
  | deferred version => simp [Outcome.announcement, Outcome.isPublished]

end GlobalView

namespace Streamed
variable {v : GlobalView} {advertised : ℕ → Finset ℕ} {r n g h : ℕ}

theorem mapped (hv : Streamed v advertised) (hlive : v.Live r g) :
    v.ids.guestToHost.get g = some r := (hv.paired g r).mpr hlive.1

theorem names_unmapped (hv : Streamed v advertised) (hh : v.ids.hostToGuest.get h = none) :
    n ∉ v.ledger.names h := fun hn => by
  obtain ⟨g, hlive⟩ := hv.live h n hn
  exact Option.some_ne_none g (hlive.1.symm.trans hh)

theorem names_doomed (hv : Streamed v advertised) (hh : v.ids.hostToGuest.get h = some g)
    (hg : g ∈ v.ids.pendingDestroyGuestIds) : n ∉ v.ledger.names h := fun hn => by
  obtain ⟨g', hlive⟩ := hv.live h n hn
  obtain rfl := Option.some.inj (hlive.1.symm.trans hh)
  exact hlive.2.2 hg

theorem visibility_unlisted (hv : Streamed v advertised) (hn : n ∉ v.ledger.names r) :
    v.ledger.visibility r n = none := not_not.mp (mt (hv.listed r n).mp hn)

/-! ## Routing -/

theorem bind (hv : Streamed v advertised) {i : Interface} (hg : v.ids.guestToHost.get g = none)
    (hh : v.ids.hostToGuest.get h = none) :
    Streamed { v with ids := v.ids.bind g h i } advertised := by
  refine { hv with paired := hv.paired.bind hg hh i, live := ?_, fresh := ?_, shown := ?_ }
  · intro r n hn
    obtain ⟨g', hlive⟩ := hv.live r n hn
    have hr : r ≠ h := by
      rintro rfl
      exact hv.names_unmapped hh hn
    have hg' : g' ≠ g := by
      rintro rfl
      exact Option.some_ne_none r ((hv.mapped hlive).symm.trans hg)
    refine ⟨g', ?_, ?_, hlive.2.2⟩
    · simp only [ShadowTable.Ids.bind, Table.get_set, if_neg hr]
      exact hlive.1
    · simp only [ShadowTable.Ids.bind, Table.get_set, if_neg hg']
      exact hlive.2.1
  · intro g' n hg'
    refine hv.fresh g' n ?_
    simp only [ShadowTable.Ids.bind, Table.get_set] at hg'
    split_ifs at hg'
    exact hg'
  · intro r g' n hr hg'
    simp only [ShadowTable.Ids.bind, Table.get_set] at hr
    split_ifs at hr with heq
    · obtain rfl := Option.some.inj hr
      subst heq
      rw [GlobalView.edges_mk, hv.fresh g n hg,
        hv.visibility_unlisted (hv.names_unmapped hh)]
      exact iff_of_false (Option.some_ne_none _).symm (Option.some_ne_none _).symm
    · exact hv.shown r g' n hr hg'

theorem track (hv : Streamed v advertised) {i : Interface}
    (hg : v.ids.guestToHost.get g = none) :
    Streamed { v with ids := v.ids.track g i } advertised := by
  refine { hv with live := ?_ }
  intro r n hn
  obtain ⟨g', hlive⟩ := hv.live r n hn
  have hg' : g' ≠ g := by
    rintro rfl
    exact Option.some_ne_none r ((hv.mapped hlive).symm.trans hg)
  refine ⟨g', hlive.1, ?_, hlive.2.2⟩
  simp only [ShadowTable.Ids.track, Table.get_set, if_neg hg']
  exact hlive.2.1

theorem doom (hv : Streamed v advertised) {i : Interface}
    (hi : v.ids.interfaces.get g = some i) (hregistry : i ≠ .wlRegistry) :
    Streamed { v with ids := v.ids.doom g } advertised := by
  refine { hv with live := ?_, shown := ?_ }
  · intro r n hn
    obtain ⟨g', hlive⟩ := hv.live r n hn
    refine ⟨g', hlive.1, hlive.2.1, ?_⟩
    rw [ShadowTable.Ids.doom, Finset.mem_insert, not_or]
    refine ⟨?_, hlive.2.2⟩
    rintro rfl
    exact hregistry (Option.some.inj (hi.symm.trans hlive.2.1))
  · intro r g' n hr hg'
    refine hv.shown r g' n hr fun hmem => hg' ?_
    exact Finset.mem_insert_of_mem hmem

theorem untrack (hv : Streamed v advertised) (hg : v.ids.guestToHost.get g = none) :
    Streamed (GlobalView.tell { v with ids := v.ids.untrack g } [.deleteId g]) advertised := by
  have hne : ∀ {r g' : ℕ}, v.ids.hostToGuest.get r = some g' → g' ≠ g := by
    rintro r g' hr rfl
    exact Option.some_ne_none r (((hv.paired g' r).mpr hr).symm.trans hg)
  refine { hv with live := ?_, alternates := ?_, fresh := ?_, shown := ?_ }
  · intro r n hn
    obtain ⟨g', hlive⟩ := hv.live r n hn
    refine ⟨g', hlive.1, ?_, ?_⟩
    · simp only [GlobalView.tell_ids, ShadowTable.Ids.untrack, Table.get_erase,
        if_neg (hne hlive.1)]
      exact hlive.2.1
    · exact fun hmem => hlive.2.2 (Finset.mem_of_mem_erase hmem)
  · intro g' n
    rw [GlobalView.tell_deleteId_edges]
    split_ifs
    · exact hv.alternates g' n
    · exact hv.alternates g' n
  · intro g' n hg'
    rw [GlobalView.tell_deleteId_edges]
    split_ifs
    · rfl
    · exact hv.fresh g' n hg'
  · intro r g' n hr hg'
    rw [GlobalView.tell_deleteId_edges, if_neg (hne hr).symm]
    refine hv.shown r g' n hr fun hmem => hg' ?_
    exact Finset.mem_erase_of_ne_of_mem (hne hr) hmem

theorem unbind (hv : Streamed v advertised) (hg : v.ids.guestToHost.get g = some h)
    (hdoomed : g ∈ v.ids.pendingDestroyGuestIds) :
    Streamed (GlobalView.tell { v with ids := v.ids.unbind g h } [.deleteId g]) advertised := by
  have hh := (hv.paired g h).mp hg
  have hne : ∀ {r g' : ℕ}, r ≠ h → v.ids.hostToGuest.get r = some g' → g' ≠ g := by
    rintro r g' hr hg' rfl
    exact hr (Option.some.inj (((hv.paired g' r).mpr hg').symm.trans hg))
  refine { hv with
    paired := hv.paired.unbind hg, live := ?_, alternates := ?_, fresh := ?_, shown := ?_ }
  · intro r n hn
    obtain ⟨g', hlive⟩ := hv.live r n hn
    have hr : r ≠ h := by
      rintro rfl
      exact hv.names_doomed hh hdoomed hn
    have hg' := hne hr hlive.1
    refine ⟨g', ?_, ?_, fun hmem => hlive.2.2 (Finset.mem_of_mem_erase hmem)⟩
    · simp only [GlobalView.tell_ids, ShadowTable.Ids.unbind, Table.get_erase, if_neg hr]
      exact hlive.1
    · simp only [GlobalView.tell_ids, ShadowTable.Ids.unbind, Table.get_erase, if_neg hg']
      exact hlive.2.1
  · intro g' n
    rw [GlobalView.tell_deleteId_edges]
    split_ifs
    · exact hv.alternates g' n
    · exact hv.alternates g' n
  · intro g' n hg'
    rw [GlobalView.tell_deleteId_edges]
    split_ifs with heq
    · rfl
    · simp only [GlobalView.tell_ids, ShadowTable.Ids.unbind, Table.get_erase,
        if_neg (Ne.symm heq)] at hg'
      exact hv.fresh g' n hg'
  · intro r g' n hr hg'
    simp only [GlobalView.tell_ids, ShadowTable.Ids.unbind, Table.get_erase] at hr
    split_ifs at hr with heq
    have hg := hne heq hr
    rw [GlobalView.tell_deleteId_edges, if_neg hg.symm]
    refine hv.shown r g' n hr fun hmem => hg' ?_
    exact Finset.mem_erase_of_ne_of_mem hg hmem

/-! ## Listing -/

theorem other_guest (hv : Streamed v advertised) {r' g' : ℕ}
    (hr : v.ids.hostToGuest.get r = some g) (hr' : v.ids.hostToGuest.get r' = some g')
    (hne : r' ≠ r) : g' ≠ g := by
  rintro rfl
  exact hne (Option.some.inj (((hv.paired g' r').mpr hr').symm.trans ((hv.paired g' r).mpr hr)))

/-- The host has not advertised the name on the registry, so neither has the proxy. -/
theorem advertise (hv : Streamed v advertised) {o : Outcome} (hlive : v.Live r g)
    (hn : n ∉ advertised r) (bound : ℕ → Prop) :
    Streamed (GlobalView.tell { v with ledger := v.ledger.advertise r n o, bound }
      (o.announcement g n)) (Function.update advertised r (insert n (advertised r))) := by
  have hunlisted : n ∉ v.ledger.names r := fun h => hn (hv.advertised r n h)
  have hnone := hv.visibility_unlisted hunlisted
  have hoccupant : occupant (v.edges g n) = none := by
    have := (hv.shown r g n hlive.1 hlive.2.2)
    rw [hnone] at this
    cases ho : occupant (v.edges g n) with
    | none => rfl
    | some u => exact absurd (this.mp (by rw [ho])) (Option.some_ne_none _).symm
  have hedges : ∀ g' n', (GlobalView.tell { v with
      ledger := v.ledger.advertise r n o, bound } (o.announcement g n)).edges g' n' =
      if o.isPublished = true ∧ g = g' ∧ n = n' then .enter () :: v.edges g' n'
      else v.edges g' n' := fun g' n' => GlobalView.tell_announcement_edges _ o g n g' n'
  constructor
  case paired => exact hv.paired
  case live =>
    intro r' n' hn'
    rw [GlobalView.tell_ledger, Ledger.advertise_names] at hn'
    split_ifs at hn' with hr
    · exact ⟨g, hr ▸ hlive⟩
    · exact hv.live r' n' hn'
  case advertised =>
    intro r' n' hn'
    rw [GlobalView.tell_ledger, Ledger.advertise_names] at hn'
    rw [Function.update_apply]
    split_ifs at hn' ⊢ with hr
    · rw [Finset.mem_insert] at hn' ⊢
      exact hn'.imp_right (hv.advertised r n')
    · exact hv.advertised r' n' hn'
  case listed =>
    intro r' n'
    rw [GlobalView.tell_ledger, Ledger.advertise_visibility, Ledger.advertise_names]
    by_cases hr : r' = r
    · subst hr
      by_cases hn' : n' = n
      · simp [hn']
      · rw [if_neg (fun h => hn' h.2), if_pos rfl, Finset.mem_insert, hv.listed r' n']
        exact (or_iff_right hn').symm
    · rw [if_neg (fun h => hr h.1), if_neg hr]
      exact hv.listed r' n'
  case hidden =>
    intro p hp
    rw [GlobalView.tell_ledger, Ledger.advertise_visibility, Ledger.advertise_generation]
    rcases Ledger.mem_advertise_pending _ _ _ _ hp with hp | ⟨version, rfl, rfl⟩
    · have hp' := hv.hidden p hp
      rw [if_neg, if_neg]
      · exact hp'
      all_goals
        rintro ⟨hr, hn'⟩
        rw [hr, hn', hnone] at hp'
        exact Option.some_ne_none _ hp'.1.symm
    · exact ⟨if_pos ⟨rfl, rfl⟩, if_pos ⟨rfl, rfl⟩⟩
  case once =>
    rw [GlobalView.tell_ledger, Ledger.advertise_pending]
    cases o with
    | deferred version =>
      dsimp only
      split_ifs
      · exact hv.once
      · rw [List.map_append, List.nodup_append]
        refine ⟨hv.once, List.nodup_singleton _, ?_⟩
        rintro key hkey key' hkey' rfl
        obtain ⟨p, hp, hpkey⟩ := List.mem_map.mp hkey
        rw [List.map_singleton, List.mem_singleton] at hkey'
        obtain ⟨hr, hn'⟩ := Prod.mk.inj (hpkey.trans hkey')
        have hp' := (hv.hidden p hp).1
        rw [hr, hn'] at hp'
        exact Option.some_ne_none _ (hp'.symm.trans hnone)
    | _ => exact hv.once
  case alternates =>
    intro g' n'
    rw [hedges]
    split_ifs with h
    · obtain ⟨-, rfl, rfl⟩ := h
      exact ⟨hoccupant, hv.alternates g n⟩
    · exact hv.alternates g' n'
  case fresh =>
    intro g' n' hg'
    rw [hedges, if_neg]
    · exact hv.fresh g' n' hg'
    · rintro ⟨-, rfl, -⟩
      exact Option.some_ne_none r ((hv.mapped hlive).symm.trans hg')
  case shown =>
    intro r' g' n' hr' hg'
    rw [hedges, GlobalView.tell_ledger, Ledger.advertise_visibility]
    by_cases hr : r' = r
    · subst hr
      obtain rfl := Option.some.inj (hlive.1.symm.trans hr')
      by_cases hn' : n' = n
      · subst hn'
        cases ho : o.isPublished with
        | true => simp
        | false => simp [hoccupant]
      · rw [if_neg (fun h => hn' h.2.2.symm), if_neg (fun h => hn' h.2)]
        exact hv.shown r' g n' hr' hg'
    · have hne := hv.other_guest hlive.1 hr' hr
      rw [if_neg (fun h => hne h.2.1.symm), if_neg (fun h => hr h.1)]
      exact hv.shown r' g' n' hr' hg'

/-- The guest is told of a removal exactly if it saw the global. -/
theorem visible_iff (hv : Streamed v advertised) (hlive : v.Live r g)
    (hn : n ∈ v.ledger.names r) (fallback : Bool) :
    (v.ledger.visibility r n).getD fallback = true ↔ occupant (v.edges g n) = some () := by
  rw [hv.shown r g n hlive.1 hlive.2.2]
  obtain ⟨visible, hvisible⟩ := Option.ne_none_iff_exists'.mp ((hv.listed r n).mpr hn)
  simp [hvisible]

theorem remove (hv : Streamed v advertised) {last tombstone : Bool} (hlive : v.Live r g)
    (hn : n ∈ v.ledger.names r) (bound : ℕ → Prop) :
    Streamed (GlobalView.tell { v with ledger := v.ledger.remove r n last tombstone, bound }
      (if (v.ledger.visibility r n).getD (v.ledger.published n).isSome then [.globalRemove g n]
        else [])) (Function.update advertised r ((advertised r).erase n)) := by
  have hvisible := hv.visible_iff hlive hn (v.ledger.published n).isSome
  have hedges : ∀ g' n', (GlobalView.tell { v with
      ledger := v.ledger.remove r n last tombstone, bound }
      (if (v.ledger.visibility r n).getD (v.ledger.published n).isSome then [.globalRemove g n]
        else [])).edges g' n' =
      if occupant (v.edges g n) = some () ∧ g = g' ∧ n = n' then .leave () :: v.edges g' n'
      else v.edges g' n' := by
    intro g' n'
    split_ifs with hshown hcase hcase
    · rw [GlobalView.tell_globalRemove_edges, if_pos hcase.2, GlobalView.edges_mk]
    · rw [GlobalView.tell_globalRemove_edges, if_neg, GlobalView.edges_mk]
      exact fun h => hcase ⟨hvisible.mp hshown, h⟩
    · exact absurd (hvisible.mpr hcase.1) hshown
    · rfl
  constructor
  case paired => exact hv.paired
  case live =>
    intro r' n' hn'
    simp only [GlobalView.tell_ledger, Ledger.remove, Function.update_apply] at hn'
    split_ifs at hn' with hr
    · exact ⟨g, hr ▸ hlive⟩
    · exact hv.live r' n' hn'
  case advertised =>
    intro r' n' hn'
    simp only [GlobalView.tell_ledger, Ledger.remove, Function.update_apply] at hn'
    rw [Function.update_apply]
    split_ifs at hn' ⊢ with hr
    · obtain ⟨hne, hn'⟩ := Finset.mem_erase.mp hn'
      exact Finset.mem_erase_of_ne_of_mem hne (hv.advertised r n' hn')
    · exact hv.advertised r' n' hn'
  case listed =>
    intro r' n'
    simp only [GlobalView.tell_ledger, Ledger.remove, Function.update_apply, setEntry_apply]
    by_cases hr : r' = r
    · subst hr
      by_cases hn' : n' = n
      · simp [hn']
      · rw [if_neg (fun h => hn' h.2), if_pos rfl, Finset.mem_erase, hv.listed r' n']
        exact (and_iff_right hn').symm
    · rw [if_neg (fun h => hr h.1), if_neg hr]
      exact hv.listed r' n'
  case hidden =>
    intro p hp
    obtain ⟨hp, hkept⟩ := List.mem_filter.mp hp
    have hp' := hv.hidden p hp
    refine ⟨?_, hp'.2⟩
    simp only [GlobalView.tell_ledger, Ledger.remove, setEntry_apply]
    rw [if_neg]
    · exact hp'.1
    · rintro ⟨hr, hn'⟩
      subst hr hn'
      simp [hp'.2] at hkept
  case once => exact hv.once.sublist ((List.filter_sublist).map _)
  case alternates =>
    intro g' n'
    rw [hedges]
    split_ifs with h
    · obtain ⟨hshown, rfl, rfl⟩ := h
      exact ⟨hshown, hv.alternates g n⟩
    · exact hv.alternates g' n'
  case fresh =>
    intro g' n' hg'
    rw [hedges, if_neg]
    · exact hv.fresh g' n' hg'
    · rintro ⟨-, rfl, -⟩
      exact Option.some_ne_none r ((hv.mapped hlive).symm.trans hg')
  case shown =>
    intro r' g' n' hr' hg'
    rw [hedges]
    simp only [GlobalView.tell_ledger, Ledger.remove, setEntry_apply]
    by_cases hr : r' = r
    · subst hr
      obtain rfl := Option.some.inj (hlive.1.symm.trans hr')
      by_cases hn' : n' = n
      · subst hn'
        by_cases hshown : occupant (v.edges g n') = some () <;> simp [hshown]
      · rw [if_neg (fun h => hn' h.2.2.symm), if_neg (fun h => hn' h.2)]
        exact hv.shown r' g n' hr' hg'
    · have hne := hv.other_guest hlive.1 hr' hr
      rw [if_neg (fun h => hne h.2.1.symm), if_neg (fun h => hr h.1)]
      exact hv.shown r' g' n' hr' hg'

theorem forget (hv : Streamed v advertised) (hlive : v.Live r g) :
    Streamed { v with ledger := v.ledger.forget r, ids := v.ids.doom g } advertised := by
  refine { hv with
    live := ?_, advertised := ?_, listed := ?_, hidden := ?_, once := ?_, shown := ?_ }
  · intro r' n hn
    simp only [Ledger.forget, Function.update_apply] at hn
    split_ifs at hn with hr
    · exact absurd hn (Finset.notMem_empty n)
    obtain ⟨g', hlive'⟩ := hv.live r' n hn
    refine ⟨g', hlive'.1, hlive'.2.1, ?_⟩
    rw [ShadowTable.Ids.doom, Finset.mem_insert, not_or]
    exact ⟨hv.other_guest hlive.1 hlive'.1 hr, hlive'.2.2⟩
  · intro r' n hn
    simp only [Ledger.forget, Function.update_apply] at hn
    split_ifs at hn with hr
    · exact absurd hn (Finset.notMem_empty n)
    · exact hv.advertised r' n hn
  · intro r' n
    by_cases hr : r' = r
    · simp [Ledger.forget, hr]
    · simpa [Ledger.forget, hr] using hv.listed r' n
  · intro p hp
    obtain ⟨hp, hkept⟩ := List.mem_filter.mp hp
    have hr : p.registryHostId ≠ r := by simpa using hkept
    have hp' := hv.hidden p hp
    simpa [Ledger.forget, hr] using hp'
  · exact hv.once.sublist ((List.filter_sublist).map _)
  · intro r' g' n hr' hg'
    have hg'' : g' ∉ v.ids.pendingDestroyGuestIds := fun hmem =>
      hg' (Finset.mem_insert_of_mem hmem)
    have hr : r' ≠ r := by
      rintro rfl
      obtain rfl := Option.some.inj (hlive.1.symm.trans hr')
      exact hg' (Finset.mem_insert_self ..)
    simpa [Ledger.forget, hr] using hv.shown r' g' n hr' hg''

/-! ## Publishing what was held back -/

theorem publishOne (hv : Streamed v advertised) {p : PendingDmabufGlobal}
    (hp : v.ledger.visibility p.registryHostId p.name = some false)
    (hother : ∀ q ∈ v.ledger.pending, q.key ≠ p.key) (generation : ℕ) :
    Streamed (v.publishOne generation p) advertised := by
  unfold GlobalView.publishOne
  split_ifs with hcurrent
  swap
  · exact hv
  obtain ⟨g, hlive⟩ := hv.live _ _ hcurrent.1
  rw [hlive.1, Option.getD_some]
  have hoccupant : occupant (v.edges g p.name) = none := by
    cases ho : occupant (v.edges g p.name) with
    | none => rfl
    | some u =>
      have := (hv.shown _ g p.name hlive.1 hlive.2.2).mp ho
      exact absurd (Option.some.inj (hp.symm.trans this)) Bool.false_ne_true
  refine { hv with
    listed := ?_, hidden := ?_, alternates := ?_, fresh := ?_, shown := ?_ }
  · intro r n
    simp only [GlobalView.tell_ledger, Ledger.settle, Ledger.setVisible, setEntry_apply]
    split_ifs with h
    · rw [h.1, h.2]
      exact iff_of_true (Option.some_ne_none _) hcurrent.1
    · exact hv.listed r n
  · intro q hq
    refine ⟨?_, (hv.hidden q hq).2⟩
    simp only [GlobalView.tell_ledger, Ledger.settle, Ledger.setVisible, setEntry_apply]
    rw [if_neg (fun h => hother q hq (Prod.ext h.1 h.2))]
    exact (hv.hidden q hq).1
  · intro g' n
    rw [GlobalView.tell_global_edges]
    split_ifs with h
    · obtain ⟨rfl, rfl⟩ := h
      exact ⟨hoccupant, hv.alternates g p.name⟩
    · exact hv.alternates g' n
  · intro g' n hg'
    rw [GlobalView.tell_global_edges, if_neg]
    · exact hv.fresh g' n hg'
    · rintro ⟨rfl, -⟩
      exact Option.some_ne_none _ ((hv.mapped hlive).symm.trans hg')
  · intro r g' n hr hg'
    rw [GlobalView.tell_global_edges]
    simp only [GlobalView.tell_ledger, Ledger.settle, Ledger.setVisible, setEntry_apply]
    by_cases hr' : r = p.registryHostId
    · subst hr'
      obtain rfl := Option.some.inj (hlive.1.symm.trans hr)
      by_cases hn : n = p.name
      · simp [hn, Outcome.isPublished]
      · rw [if_neg (fun h => hn h.2.symm), if_neg (fun h => hn h.2)]
        exact hv.shown _ g n hr hg'
    · have hne := hv.other_guest hlive.1 hr hr'
      rw [if_neg (fun h => hne h.1.symm), if_neg (fun h => hr' h.1)]
      exact hv.shown r g' n hr hg'

theorem publishOne_visibility (v : GlobalView) (generation : ℕ) (p : PendingDmabufGlobal)
    (r n : ℕ) : (v.publishOne generation p).ledger.visibility r n =
      if v.ledger.IsCurrent p generation ∧ r = p.registryHostId ∧ n = p.name then some true
      else v.ledger.visibility r n := by
  unfold GlobalView.publishOne
  split_ifs with hcurrent h h
  · exact if_pos h.2
  · exact if_neg fun h' => h ⟨hcurrent, h'⟩
  · exact absurd h.1 hcurrent
  · rfl

theorem publishOne_pending (v : GlobalView) (generation : ℕ) (p : PendingDmabufGlobal) :
    (v.publishOne generation p).ledger.pending = v.ledger.pending := by
  unfold GlobalView.publishOne
  split_ifs <;> rfl

theorem foldl_publishOne (hv : Streamed v advertised) (generation : ℕ)
    (ps : List PendingDmabufGlobal)
    (hps : ∀ p ∈ ps, v.ledger.visibility p.registryHostId p.name = some false)
    (honce : ((ps ++ v.ledger.pending).map PendingDmabufGlobal.key).Nodup) :
    Streamed (ps.foldl (GlobalView.publishOne generation) v) advertised := by
  induction ps generalizing v with
  | nil => exact hv
  | cons p ps ih =>
    rw [List.cons_append, List.map_cons, List.nodup_cons] at honce
    obtain ⟨hp, honce⟩ := honce
    have hother : ∀ q ∈ ps ++ v.ledger.pending, q.key ≠ p.key := by
      intro q hq hkey
      exact hp (hkey ▸ List.mem_map_of_mem hq)
    refine ih (hv.publishOne (hps p List.mem_cons_self)
      (fun q hq => hother q (List.mem_append_right ps hq)) generation) ?_ ?_
    · intro q hq
      rw [publishOne_visibility, if_neg]
      · exact hps q (List.mem_cons_of_mem p hq)
      · exact fun h => hother q (List.mem_append_left _ hq) (Prod.ext h.2.1 h.2.2)
    · rwa [publishOne_pending]

theorem publish (hv : Streamed v advertised) (generation : ℕ) (canPublish : Bool) :
    Streamed (v.publish generation canPublish) advertised := by
  have hrest : Streamed { v with ledger := { v.ledger with
      pending := v.ledger.pending.filter (·.generation != generation) } } advertised :=
    { hv with
      hidden := fun p hp => hv.hidden p (List.mem_filter.mp hp).1
      once := hv.once.sublist ((List.filter_sublist).map _) }
  unfold GlobalView.publish
  dsimp only
  split_ifs
  · refine hrest.foldl_publishOne generation _ ?_ ?_
    · exact fun p hp => (hv.hidden p (List.mem_filter.mp hp).1).1
    · have hperm := List.filter_append_perm (·.generation == generation) v.ledger.pending
      exact ((hperm.map PendingDmabufGlobal.key).nodup_iff).mpr hv.once
  · exact hrest

/-! ## Steps -/

/-- The host's record changes for a name only when its events name it. -/
theorem advertise_of_listing {s : GlobalSession} {m : GlobalMessage}
    (hv : Streamed s.context.view s.advertised) (hm : m.isListing = false)
    (hn : n ∈ s.context.view.ledger.names r) : n ∈ s.advertise m r := by
  have hadvertised := hv.advertised r n hn
  cases m with
  | deleteId h =>
    rw [GlobalSession.advertise]
    split_ifs with hdoomed
    · rw [Function.update_apply, if_neg]
      · exact hadvertised
      · rintro rfl
        obtain ⟨g, hg, hp⟩ := GlobalContext.isPendingDestroyHost_iff.mp hdoomed
        exact hv.names_doomed hg hp hn
    · exact hadvertised
  | global | globalRemove => exact absurd hm Bool.true_eq_false.mp
  | _ => exact hadvertised

/-- The host may forget what it advertised on registries that list nothing. -/
theorem of_advertised (hv : Streamed v advertised) {advertised' : ℕ → Finset ℕ}
    (h : ∀ r n, n ∈ v.ledger.names r → n ∈ advertised' r) : Streamed v advertised' :=
  { hv with advertised := h }

theorem step {options : GlobalOptions} {s t : GlobalSession} {m : GlobalMessage}
    (hv : Streamed s.context.view s.advertised) (hrouted : GlobalSession.Routed options s)
    (h : s.step m = some t) : Streamed t.context.view t.advertised := by
  obtain ⟨⟨heffect, -, -⟩, hadvertised, hconforms⟩ := hrouted.acts h
  rw [hadvertised]
  have hquiet : m.isListing = false → ∀ {v : GlobalView},
      v.ledger.names = s.context.view.ledger.names → Streamed v s.advertised →
      Streamed v (s.advertise m) := by
    intro hm v hnames hv'
    refine hv'.of_advertised fun r n hn => ?_
    exact hv.advertise_of_listing hm (hnames ▸ hn)
  generalize hnext : t.context.view = v' at heffect ⊢
  clear hnext hadvertised h
  cases heffect with
  | idle hm => exact hquiet hm rfl hv
  | bind hm hg hh => exact hquiet hm rfl (hv.bind hg hh)
  | track hm hg => exact hquiet hm rfl (hv.track hg)
  | doom hm hg hi hregistry => exact hquiet hm rfl (hv.doom hi hregistry)
  | untrack hm hg => exact hquiet hm rfl (hv.untrack hg)
  | unbind hg hh hdoomed => exact hquiet rfl rfl (hv.unbind hg hdoomed)
  | publish generation canPublish hm =>
    exact hquiet hm (GlobalView.publish_listing _ generation canPublish).names
      (hv.publish generation canPublish)
  | ignored h =>
    refine hv.of_advertised fun r' n' hn => ?_
    rw [GlobalSession.advertise, Function.update_apply]
    split_ifs with hr
    · exact Finset.mem_insert_of_mem (hr ▸ hv.advertised r' n' hn)
    · exact hv.advertised r' n' hn
  | advertise hversion hlive hlists ho hbound =>
    exact hv.advertise hlive (by simpa [GlobalSession.hostConforms] using hconforms) _
  | @unlisted _ r n h =>
    refine hv.of_advertised fun r' n' hn => ?_
    rw [GlobalSession.advertise, Function.update_apply]
    split_ifs with hr
    · subst hr
      refine Finset.mem_erase_of_ne_of_mem ?_ (hv.advertised r' n' hn)
      rintro rfl
      obtain ⟨g, hlive⟩ := hv.live r' n' hn
      exact h.elim (fun h => h hn) fun h => h g hlive
    · exact hv.advertised r' n' hn
  | remove hlive hn hlast htombstone hbound => exact hv.remove hlive hn _
  | forget hlive hg => exact hv.forget hlive

/-- What is visible stays visible. -/
theorem foldl_publishOne_visible {v : GlobalView} {generation : ℕ}
    {ps : List PendingDmabufGlobal} (h : v.ledger.visibility r n = some true) :
    (ps.foldl (GlobalView.publishOne generation) v).ledger.visibility r n = some true := by
  induction ps generalizing v with
  | nil => exact h
  | cons p ps ih =>
    refine ih ?_
    rw [publishOne_visibility]
    split_ifs
    · rfl
    · exact h

theorem foldl_publishOne_silent {v : GlobalView} {generation : ℕ}
    {ps : List PendingDmabufGlobal} (hpaired : v.ids.Paired)
    (hlive : ∀ r n, n ∈ v.ledger.names r → ∃ g, v.Live r g)
    (hr : v.ids.hostToGuest.get r = some g)
    (hhidden : (ps.foldl (GlobalView.publishOne generation) v).ledger.visibility r n ≠
      some true) :
    (ps.foldl (GlobalView.publishOne generation) v).edges g n = v.edges g n := by
  induction ps generalizing v with
  | nil => rfl
  | cons p ps ih =>
    have hids := GlobalView.publishOne_ids v generation p
    have hnames := (GlobalView.publishOne_listing v generation p).names
    have hlive' : ∀ r n, n ∈ (v.publishOne generation p).ledger.names r →
        ∃ g, (v.publishOne generation p).Live r g := by
      intro r n hn
      obtain ⟨g, hlive⟩ := hlive r n (hnames ▸ hn)
      exact ⟨g, by rwa [GlobalView.Live, hids]⟩
    have hrest := ih (hids ▸ hpaired) hlive' (hids ▸ hr) hhidden
    refine hrest.trans ?_
    unfold GlobalView.publishOne
    split_ifs with hcurrent
    swap
    · rfl
    rw [GlobalView.tell_global_edges, if_neg, GlobalView.edges_mk]
    rintro ⟨hg, hn⟩
    obtain ⟨g', hlive⟩ := hlive _ _ hcurrent.1
    rw [hlive.1, Option.getD_some] at hg
    subst hg
    have hreg : r = p.registryHostId := Option.some.inj
      (((hpaired g' r).mpr hr).symm.trans ((hpaired g' _).mpr hlive.1))
    refine hhidden ?_
    rw [List.foldl_cons]
    refine foldl_publishOne_visible ?_
    rw [publishOne_visibility, if_pos ⟨hcurrent, hreg, hn.symm⟩]

/-- A name the guest does not see, and is not to see now, is not mentioned. -/
theorem silent {options : GlobalOptions} {m : GlobalMessage} {v v' : GlobalView}
    (hv : Streamed v advertised) (h : Effect options m v v')
    (hr : v.ids.hostToGuest.get r = some g) (hg : g ∉ v.ids.pendingDestroyGuestIds)
    (hhidden : v'.ledger.visibility r n = some false ∨
      v.ledger.visibility r n = some false ∧ v'.ledger.visibility r n ≠ some true) :
    v'.edges g n = v.edges g n := by
  have hguest : ∀ {r' g'}, v.ids.hostToGuest.get r' = some g' → g' = g → r' = r := by
    rintro r' g' hr' rfl
    exact Option.some.inj (((hv.paired g' r').mpr hr').symm.trans ((hv.paired g' r).mpr hr))
  cases h with
  | untrack hm hg' =>
    rw [GlobalView.tell_deleteId_edges, if_neg, GlobalView.edges_mk]
    rintro rfl
    exact Option.some_ne_none r (((hv.paired _ r).mpr hr).symm.trans hg')
  | unbind hg' hh hdoomed =>
    rw [GlobalView.tell_deleteId_edges, if_neg, GlobalView.edges_mk]
    rintro rfl
    exact hg hdoomed
  | @advertise _ r' n' version g' i o bound hversion hlive hlists ho hbound =>
    rw [GlobalView.tell_announcement_edges, if_neg, GlobalView.edges_mk]
    rintro ⟨hpublished, hg', rfl⟩
    obtain rfl := hguest hlive.1 hg'
    rw [GlobalView.tell_ledger, Ledger.advertise_visibility, if_pos ⟨rfl, rfl⟩,
      hpublished] at hhidden
    rcases hhidden with hhidden | hhidden
    · exact Bool.false_ne_true (Option.some.inj hhidden).symm
    · exact hhidden.2 rfl
  | @remove _ r' n' g' last tombstone bound hlive hn hlast htombstone hbound =>
    split_ifs with hvisible
    · rw [GlobalView.tell_globalRemove_edges, if_neg, GlobalView.edges_mk]
      rintro ⟨hg', rfl⟩
      obtain rfl := hguest hlive.1 hg'
      rcases hhidden with hhidden | hhidden
      · simp [Ledger.remove] at hhidden
      · rw [hhidden.1, Option.getD_some] at hvisible
        exact Bool.false_ne_true hvisible
    · rfl
  | publish generation canPublish =>
    have hne : (v.publish generation canPublish).ledger.visibility r n ≠ some true := by
      rcases hhidden with hhidden | hhidden
      · rw [hhidden]
        exact fun heq => Bool.false_ne_true (Option.some.inj heq)
      · exact hhidden.2
    revert hne
    unfold GlobalView.publish
    dsimp only
    split_ifs
    · intro hne
      exact foldl_publishOne_silent (v := { v with ledger := { v.ledger with
        pending := v.ledger.pending.filter (·.generation != generation) } })
        hv.paired hv.live hr hne
    · intro
      rfl
  | _ => rfl

theorem new (options : GlobalOptions) :
    Streamed (GlobalSession.new options).context.view (GlobalSession.new options).advertised where
  paired := (GlobalSession.routed_new options).paired
  live r n hn := absurd hn (by simp [GlobalSession.new, GlobalContext.new, GlobalContext.view,
    GlobalContext.ledger, GlobalContext.namesOf])
  advertised r n hn := absurd hn (by simp [GlobalSession.new, GlobalContext.new,
    GlobalContext.view, GlobalContext.ledger, GlobalContext.namesOf])
  listed r n := by
    simp [GlobalSession.new, GlobalContext.new, GlobalContext.view, GlobalContext.ledger,
      GlobalContext.namesOf, GlobalContext.visibilityOf]
  hidden p hp := absurd hp List.not_mem_nil
  once := List.nodup_nil
  alternates _ _ := trivial
  fresh _ _ _ := rfl
  shown r g n _ _ := by
    simp [GlobalSession.new, GlobalContext.new, GlobalContext.view, GlobalContext.ledger,
      GlobalContext.visibilityOf, GlobalView.edges, registryNotices]

end Streamed

/-- On each registry of the guest, a name appears and disappears by turns, it is seen only
while the host advertises it there, and nothing is said of it while it is hidden or waits for
the formats of its generation. -/
theorem guest_registry_stream {options : GlobalOptions} {s : GlobalSession}
    (hs : (globalSystem options).Reachable s) :
    (∀ g n, Alternates (registryEdges g n s.context.guestEvents)) ∧
      ∀ r g n, s.context.shadowTable.getGuestId r = some g →
        g ∉ s.context.shadowTable.pendingDestroyGuestIds →
        (occupant (registryEdges g n s.context.guestEvents) = some () →
          n ∈ s.advertised r) ∧
        ∀ m t, s.step m = some t → (t.context.visibilityOf r n = some false ∨
          s.context.visibilityOf r n = some false ∧ t.context.visibilityOf r n ≠ some true) →
          registryEdges g n t.context.guestEvents = registryEdges g n s.context.guestEvents := by
  have hinv : GlobalSession.Routed options s ∧ Streamed s.context.view s.advertised := by
    refine hs.invariant (I := fun s => GlobalSession.Routed options s ∧
      Streamed s.context.view s.advertised) ?_ ?_
    · rintro s rfl
      exact ⟨GlobalSession.routed_new options, .new options⟩
    · intro s m t _ hI _ ht
      exact ⟨hI.1.step ht, .step hI.2 hI.1 ht⟩
  obtain ⟨hrouted, hv⟩ := hinv
  refine ⟨hv.alternates, fun r g n hr hg => ⟨fun hseen => ?_, fun m t ht hhidden => ?_⟩⟩
  · have hvisible := (hv.shown r g n hr hg).mp hseen
    refine hv.advertised r n ((hv.listed r n).mp ?_)
    rw [hvisible]
    exact Option.some_ne_none _
  · obtain ⟨⟨heffect, -, -⟩, -, -⟩ := hrouted.acts ht
    exact hv.silent heffect hr hg hhidden

/-- A dma-buf global that was removed before the host sent its formats. -/
theorem guest_registry_stream_deferred : ∃ s t, (globalSystem gpuOptions).run (.new gpuOptions)
      [.getRegistry 2, .global 2 7 .zwpLinuxDmabufV1 3] = some s ∧
    s.step (.globalRemove 2 7) = some t ∧
    registryEdges 2 7 t.context.guestEvents = registryEdges 2 7 s.context.guestEvents := by
  have hrun : ((globalSystem gpuOptions).run (.new gpuOptions)
      [.getRegistry 2, .global 2 7 .zwpLinuxDmabufV1 3]).map (fun s =>
        (s.context.shadowTable.getGuestId 2, s.context.shadowTable.pendingDestroyGuestIds,
          s.context.visibilityOf 2 7,
          (s.step (.globalRemove 2 7)).map fun t => t.context.visibilityOf 2 7)) =
      some (some 2, ∅, some false, some none) := by decide +kernel
  obtain ⟨s, hs, heq⟩ := Option.map_eq_some_iff.mp hrun
  simp only [Prod.mk.injEq] at heq
  obtain ⟨hguest, hdoomed, hhidden, hstep⟩ := heq
  obtain ⟨t, ht, hgone⟩ := Option.map_eq_some_iff.mp hstep
  have hstream := guest_registry_stream (.run (.init rfl) hs)
  refine ⟨s, t, hs, ht, (hstream.2 2 2 7 hguest ?_).2 _ t ht (.inr ⟨hhidden, ?_⟩)⟩
  · rw [hdoomed]
    exact Finset.notMem_empty 2
  · rw [hgone]
    exact (Option.some_ne_none _).symm

end Sommelier
