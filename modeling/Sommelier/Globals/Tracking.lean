import Sommelier.Globals.Timeline

/-!
# Generations and advertisements

One generation for each name stands for the advertisement of the host that was noted last. As
long as that is right, the ledger of the proxy says what the registries list.

## Main definitions

* `Tracked`: the invariant between the ledger and what the registries have told.
* `Rerouted`: messages that leave the registries alone.
* `Tracked.generationFor_iff`: an advertisement gets the generation of its like.
* `Tracked.advertise`, `remove`, `forget`, `quiet`: the effects that keep the invariant.
-/
namespace Sommelier

/-- The global the guest sees for an advertisement. -/
def Advertisement.published (options : GlobalOptions) (ad : Advertisement) : HostGlobal :=
  publishedGlobal options ad.interface ad.version

/-- The held-back advertisement is one that its registry lists. -/
def HeldBack (options : GlobalOptions) (ads : ℕ → Advertisement) (d : Heard)
    (p : PendingDmabufGlobal) : Prop :=
  ∃ k, d.listed p.registryHostId p.name = some k ∧
    (ads k).published options = { interface := .zwpLinuxDmabufV1, version := p.version }

/-- A registry is at the current generation exactly if the advertisement it told last is the
last one of all. -/
structure Tracked (options : GlobalOptions) (ads : ℕ → Advertisement) (v : GlobalView)
    (d : Heard) : Prop where
  paired : v.ids.Paired
  live : ∀ r n, n ∈ v.ledger.names r → ∃ g, v.Live r g
  recorded : ∀ r n, v.ledger.generation r n ≠ none → ∃ g, v.Live r g
  seen : ∀ r g n, v.Live r g → (d.told r n = none ↔ v.ledger.generation r n = none)
  noted : ∀ n, v.ledger.current n = none ↔ d.latest n = none
  spoken : ∀ r n, d.latest n = none → d.told r n = none
  same : ∀ r g n k, v.Live r g → d.told r n = some k →
    (v.ledger.generation r n = v.ledger.current n ↔ d.latest n = some k)
  names : ∀ r g n, v.Live r g →
    (n ∈ v.ledger.names r ↔ ∃ k, d.listed r n = some k ∧ (ads k).version ≠ 0)
  told : ∀ r g n k, v.Live r g → d.listed r n = some k → (ads k).version ≠ 0 →
    d.told r n = some k
  removed : ∀ r n, v.ledger.generation r n ≠ none → n ∉ v.ledger.names r →
    n ∈ v.ledger.removed r
  newest : ∀ n k, (ads k).version ≠ 0 → (∃ r g, v.Live r g) →
    (∀ r g, v.Live r g → d.listed r n = some k) → d.latest n = some k
  published : ∀ r n k, v.ledger.Lists r n → v.ledger.visibility r n = some true →
    d.listed r n = some k → v.ledger.published n = some ((ads k).published options)
  kept : ∀ r n, v.ledger.Lists r n → n ∉ v.ledger.tombstones
  pending : ∀ p ∈ v.ledger.pending, HeldBack options ads d p
  announced : ∀ r g n k, v.Live r g → v.ledger.visibility r n = some true →
    d.listed r n = some k →
    (v.notices g n).head? = some (.appeared ((ads k).published options)) ∧
      options.interfaceIsSupported ((ads k).published options).interface = true

/-- The routing of messages changes, but no registry the proxy has heard of comes or goes. -/
structure Rerouted (v v' : GlobalView) : Prop where
  paired : v'.ids.Paired
  ledger : v'.ledger = v.ledger
  stays : ∀ r g, v.Live r g → v'.Live r g
  before : ∀ r g, v'.Live r g → v.Live r g ∨ v.ids.hostToGuest.get r = none
  notices : ∀ r g n, v.Live r g → v'.notices g n = v.notices g n

namespace Rerouted
variable {v : GlobalView} {g h : ℕ} {i : Interface}

/-- A guest object that is not on the host is no registry that is mapped. -/
theorem ne_of_unmapped (hpaired : v.ids.Paired) (hg : v.ids.guestToHost.get g = none)
    {r g' : ℕ} (hr : v.ids.hostToGuest.get r = some g') : g' ≠ g := by
  rintro rfl
  exact Option.some_ne_none r (((hpaired g' r).mpr hr).symm.trans hg)

theorem bind (hpaired : v.ids.Paired) (hg : v.ids.guestToHost.get g = none)
    (hh : v.ids.hostToGuest.get h = none) :
    Rerouted v { v with ids := v.ids.bind g h i } := by
  have hget : ∀ r, r ≠ h → (v.ids.bind g h i).hostToGuest.get r = v.ids.hostToGuest.get r := by
    intro r hr
    simp only [ShadowTable.Ids.bind, Table.get_set, if_neg hr]
  have hinterface : ∀ g', g' ≠ g →
      (v.ids.bind g h i).interfaces.get g' = v.ids.interfaces.get g' := by
    intro g' hg'
    simp only [ShadowTable.Ids.bind, Table.get_set, if_neg hg']
  refine ⟨hpaired.bind hg hh i, rfl, fun r g' hlive => ?_, fun r g' hlive => ?_,
    fun _ _ _ _ => rfl⟩
  · have hr : r ≠ h := by
      rintro rfl
      exact Option.some_ne_none g' (hlive.1.symm.trans hh)
    exact ⟨(hget r hr).trans hlive.1,
      (hinterface g' (ne_of_unmapped hpaired hg hlive.1)).trans hlive.2.1, hlive.2.2⟩
  · by_cases hr : r = h
    · exact .inr (hr ▸ hh)
    · have hmapped := (hget r hr).symm.trans hlive.1
      exact .inl ⟨hmapped, (hinterface g' (ne_of_unmapped hpaired hg hmapped)).symm.trans
        hlive.2.1, hlive.2.2⟩

theorem track (hpaired : v.ids.Paired) (hg : v.ids.guestToHost.get g = none) :
    Rerouted v { v with ids := v.ids.track g i } := by
  have hinterface : ∀ r g', v.ids.hostToGuest.get r = some g' →
      (v.ids.track g i).interfaces.get g' = v.ids.interfaces.get g' := by
    intro r g' hr
    simp only [ShadowTable.Ids.track, Table.get_set, if_neg (ne_of_unmapped hpaired hg hr)]
  refine ⟨hpaired, rfl, fun r g' hlive => ?_, fun r g' hlive => .inl ?_, fun _ _ _ _ => rfl⟩
  · exact ⟨hlive.1, (hinterface r g' hlive.1).trans hlive.2.1, hlive.2.2⟩
  · exact ⟨hlive.1, (hinterface r g' hlive.1).symm.trans hlive.2.1, hlive.2.2⟩

theorem doom (hpaired : v.ids.Paired) (hi : v.ids.interfaces.get g = some i)
    (hregistry : i ≠ .wlRegistry) : Rerouted v { v with ids := v.ids.doom g } := by
  refine ⟨hpaired, rfl, fun r g' hlive => ⟨hlive.1, hlive.2.1, ?_⟩,
    fun r g' hlive => .inl ⟨hlive.1, hlive.2.1, ?_⟩, fun _ _ _ _ => rfl⟩
  · rw [ShadowTable.Ids.doom, Finset.mem_insert, not_or]
    refine ⟨?_, hlive.2.2⟩
    rintro rfl
    exact hregistry (Option.some.inj (hi.symm.trans hlive.2.1))
  · exact fun hmem => hlive.2.2 (Finset.mem_insert_of_mem hmem)

theorem notices_deleteId {g g' : ℕ} (n : ℕ) (hne : g' ≠ g) (ids : ShadowTable.Ids) :
    (GlobalView.tell { v with ids } [.deleteId g]).notices g' n = v.notices g' n := by
  simp [GlobalView.tell, registryNotices, registryNotice, hne.symm]

theorem untrack (hpaired : v.ids.Paired) (hg : v.ids.guestToHost.get g = none) :
    Rerouted v (GlobalView.tell { v with ids := v.ids.untrack g } [.deleteId g]) := by
  have hinterface : ∀ g', g' ≠ g →
      (v.ids.untrack g).interfaces.get g' = v.ids.interfaces.get g' := by
    intro g' hg'
    simp only [ShadowTable.Ids.untrack, Table.get_erase, if_neg hg']
  refine ⟨hpaired, rfl, fun r g' hlive => ?_, fun r g' hlive => .inl ?_,
    fun r g' n hlive => notices_deleteId n (ne_of_unmapped hpaired hg hlive.1) _⟩
  · have hg' := ne_of_unmapped hpaired hg hlive.1
    exact ⟨hlive.1, (hinterface g' hg').trans hlive.2.1,
      fun hmem => hlive.2.2 (Finset.mem_of_mem_erase hmem)⟩
  · have hg' := ne_of_unmapped hpaired hg hlive.1
    exact ⟨hlive.1, (hinterface g' hg').symm.trans hlive.2.1,
      fun hmem => hlive.2.2 (Finset.mem_erase_of_ne_of_mem hg' hmem)⟩

theorem unbind (hpaired : v.ids.Paired) (hg : v.ids.guestToHost.get g = some h)
    (hdoomed : g ∈ v.ids.pendingDestroyGuestIds) :
    Rerouted v (GlobalView.tell { v with ids := v.ids.unbind g h } [.deleteId g]) := by
  have hget : ∀ r, r ≠ h → (v.ids.unbind g h).hostToGuest.get r = v.ids.hostToGuest.get r := by
    intro r hr
    simp only [ShadowTable.Ids.unbind, Table.get_erase, if_neg hr]
  have hinterface : ∀ g', g' ≠ g →
      (v.ids.unbind g h).interfaces.get g' = v.ids.interfaces.get g' := by
    intro g' hg'
    simp only [ShadowTable.Ids.unbind, Table.get_erase, if_neg hg']
  have hne : ∀ {r g'}, r ≠ h → v.ids.hostToGuest.get r = some g' → g' ≠ g := by
    rintro r g' hr hg' rfl
    exact hr (Option.some.inj (((hpaired g' r).mpr hg').symm.trans hg))
  have hlive_ne : ∀ {r g'}, v.Live r g' → r ≠ h := by
    rintro r g' hlive rfl
    obtain rfl := Option.some.inj (hlive.1.symm.trans ((hpaired g r).mp hg))
    exact hlive.2.2 hdoomed
  refine ⟨hpaired.unbind hg, rfl, fun r g' hlive => ?_, fun r g' hlive => .inl ?_,
    fun r g' n hlive => notices_deleteId n (hne (hlive_ne hlive) hlive.1) _⟩
  · have hr := hlive_ne hlive
    exact ⟨(hget r hr).trans hlive.1, (hinterface g' (hne hr hlive.1)).trans hlive.2.1,
      fun hmem => hlive.2.2 (Finset.mem_of_mem_erase hmem)⟩
  · have hr : r ≠ h := by
      rintro rfl
      have hmapped := hlive.1
      simp only [GlobalView.tell_ids, ShadowTable.Ids.unbind, Table.get_erase, if_pos] at hmapped
      exact Option.some_ne_none g' hmapped.symm
    have hmapped := (hget r hr).symm.trans hlive.1
    have hg' := hne hr hmapped
    exact ⟨hmapped, (hinterface g' hg').symm.trans hlive.2.1,
      fun hmem => hlive.2.2 (Finset.mem_erase_of_ne_of_mem hg' hmem)⟩

end Rerouted

/-- What is held back is listed. -/
theorem Streamed.pending_listed {v : GlobalView} {advertised : ℕ → Finset ℕ}
    (hv : Streamed v advertised) {p : PendingDmabufGlobal} (hp : p ∈ v.ledger.pending) :
    p.name ∈ v.ledger.names p.registryHostId := by
  refine (hv.listed _ _).mp ?_
  rw [(hv.hidden p hp).1]
  exact Option.some_ne_none false

namespace Tracked
variable {options : GlobalOptions} {ads : ℕ → Advertisement} {v v' : GlobalView} {d : Heard}
  {r n g h k : ℕ}

/-! ## Routing -/

/-- Registries that come are silent so far. -/
theorem rerouted (hd : Tracked options ads v d) (h : Rerouted v v')
    (hsilent : ∀ r, v.ids.hostToGuest.get r = none →
      ∀ n, d.listed r n = none ∧ d.told r n = none) : Tracked options ads v' d := by
  have hnew : ∀ r g n, v'.Live r g → ¬ v.Live r g →
      (d.listed r n = none ∧ d.told r n = none) ∧ v.ledger.generation r n = none ∧
        n ∉ v.ledger.names r := by
    intro r g n hlive' hlive
    have hr := (h.before r g hlive').resolve_left hlive
    have hnever : ∀ g', ¬ v.Live r g' := fun g' hlive =>
      Option.some_ne_none g' (hlive.1.symm.trans hr)
    refine ⟨hsilent r hr n, ?_, fun hn => ?_⟩
    · by_contra hgeneration
      obtain ⟨g', hg'⟩ := hd.recorded r n hgeneration
      exact hnever g' hg'
    · obtain ⟨g', hg'⟩ := hd.live r n hn
      exact hnever g' hg'
  constructor
  case paired => exact h.paired
  case live =>
    intro r n hn
    obtain ⟨g, hlive⟩ := hd.live r n (h.ledger ▸ hn)
    exact ⟨g, h.stays r g hlive⟩
  case recorded =>
    intro r n hn
    obtain ⟨g, hlive⟩ := hd.recorded r n (h.ledger ▸ hn)
    exact ⟨g, h.stays r g hlive⟩
  case seen =>
    intro r g n hlive'
    rw [h.ledger]
    by_cases hlive : v.Live r g
    · exact hd.seen r g n hlive
    · have hnew := hnew r g n hlive' hlive
      exact iff_of_true hnew.1.2 hnew.2.1
  case noted =>
    intro n
    rw [h.ledger]
    exact hd.noted n
  case spoken => exact hd.spoken
  case same =>
    intro r g n k hlive' htold
    rw [h.ledger]
    by_cases hlive : v.Live r g
    · exact hd.same r g n k hlive htold
    · rw [(hnew r g n hlive' hlive).1.2] at htold
      exact absurd htold.symm (Option.some_ne_none k)
  case names =>
    intro r g n hlive'
    rw [h.ledger]
    by_cases hlive : v.Live r g
    · exact hd.names r g n hlive
    · have hnew := hnew r g n hlive' hlive
      refine iff_of_false hnew.2.2 ?_
      rintro ⟨k, hk, -⟩
      exact Option.some_ne_none k (hk.symm.trans hnew.1.1)
  case told =>
    intro r g n k hlive' hlisted hversion
    by_cases hlive : v.Live r g
    · exact hd.told r g n k hlive hlisted hversion
    · rw [(hnew r g n hlive' hlive).1.1] at hlisted
      exact absurd hlisted.symm (Option.some_ne_none k)
  case removed =>
    rw [h.ledger]
    exact hd.removed
  case newest =>
    rintro n k hversion ⟨r, g, hlive'⟩ hall
    have hold : ∀ r g, v'.Live r g → v.Live r g := by
      intro r g hlive'
      by_contra hlive
      have hlisted := hall r g hlive'
      rw [(hnew r g n hlive' hlive).1.1] at hlisted
      exact Option.some_ne_none k hlisted.symm
    exact hd.newest n k hversion ⟨r, g, hold r g hlive'⟩ fun r g hlive =>
      hall r g (h.stays r g hlive)
  case published =>
    rw [h.ledger]
    exact hd.published
  case kept =>
    rw [h.ledger]
    exact hd.kept
  case pending =>
    rw [h.ledger]
    exact hd.pending
  case announced =>
    intro r g n k hlive' hvisible hlisted
    by_cases hlive : v.Live r g
    · rw [h.notices r g n hlive]
      exact hd.announced r g n k hlive (h.ledger ▸ hvisible) hlisted
    · rw [(hnew r g n hlive' hlive).1.1] at hlisted
      exact absurd hlisted.symm (Option.some_ne_none k)

/-- What a host object told before it was gone does not matter. -/
theorem gone (hd : Tracked options ads v d) {advertised : ℕ → Finset ℕ}
    (hv : Streamed v advertised) (hh : ∀ g, ¬ v.Live h g) :
    Tracked options ads v (d.forget h) := by
  have hlisted : ∀ r g n, v.Live r g → (d.forget h).listed r n = d.listed r n := by
    intro r g n hlive
    refine congrFun (Function.update_of_ne ?_ _ _) n
    rintro rfl
    exact hh g hlive
  have htold : ∀ r g n, v.Live r g → (d.forget h).told r n = d.told r n := by
    intro r g n hlive
    refine congrFun (Function.update_of_ne ?_ _ _) n
    rintro rfl
    exact hh g hlive
  constructor
  case paired => exact hd.paired
  case live => exact hd.live
  case recorded => exact hd.recorded
  case seen =>
    intro r g n hlive
    rw [htold r g n hlive]
    exact hd.seen r g n hlive
  case noted => exact hd.noted
  case spoken =>
    intro r n hlatest
    simp only [Heard.forget, Function.update_apply]
    split_ifs
    · rfl
    · exact hd.spoken r n hlatest
  case same =>
    intro r g n k hlive
    rw [htold r g n hlive]
    exact hd.same r g n k hlive
  case names =>
    intro r g n hlive
    rw [hlisted r g n hlive]
    exact hd.names r g n hlive
  case told =>
    intro r g n k hlive
    rw [htold r g n hlive, hlisted r g n hlive]
    exact hd.told r g n k hlive
  case removed => exact hd.removed
  case newest =>
    intro n k hversion hsome hall
    refine hd.newest n k hversion hsome fun r g hlive => ?_
    rw [← hlisted r g n hlive]
    exact hall r g hlive
  case published =>
    intro r n k hlists hvisible
    obtain ⟨g, hlive⟩ := hd.live r n hlists.1
    rw [hlisted r g n hlive]
    exact hd.published r n k hlists hvisible
  case kept => exact hd.kept
  case pending =>
    intro p hp
    obtain ⟨k, hk, hpublished⟩ := hd.pending p hp
    obtain ⟨g, hlive⟩ := hd.live _ _ (hv.pending_listed hp)
    exact ⟨k, (hlisted _ g _ hlive).trans hk, hpublished⟩
  case announced =>
    intro r g n k hlive hvisible
    rw [hlisted r g n hlive]
    exact hd.announced r g n k hlive hvisible

/-! ## Advertisements -/

/-- An advertisement that the proxy ignores. -/
theorem ignored (hd : Tracked options ads v d) {advertised : ℕ → Finset ℕ}
    (hv : Streamed v advertised) (hn : n ∉ v.ledger.names r)
    (hk : (ads k).version = 0 ∨ ∀ g, ¬ v.Live r g) :
    Tracked options ads v (d.add r n k false) := by
  have hlisted : ∀ r' n', ¬ (r' = r ∧ n' = n) →
      (d.add r n k false).listed r' n' = d.listed r' n' := fun r' n' hne => if_neg hne
  have hsame : (d.add r n k false).listed r n = some k := if_pos ⟨rfl, rfl⟩
  have hlists : ∀ r' n', n' ∈ v.ledger.names r' → ¬ (r' = r ∧ n' = n) := by
    rintro r' n' hn' ⟨rfl, rfl⟩
    exact hn hn'
  have hvisible : ∀ r' n', v.ledger.visibility r' n' = some true → ¬ (r' = r ∧ n' = n) := by
    intro r' n' hvisible
    refine hlists r' n' ((hv.listed r' n').mp ?_)
    rw [hvisible]
    exact Option.some_ne_none true
  have hversion : ∀ g, v.Live r g → (ads k).version = 0 := fun g hlive =>
    hk.resolve_right fun h => h g hlive
  refine { hd with
    names := ?_, told := ?_, newest := ?_, published := ?_, pending := ?_, announced := ?_ }
  · intro r' g n' hlive
    by_cases hne : r' = r ∧ n' = n
    · obtain ⟨rfl, rfl⟩ := hne
      refine iff_of_false hn ?_
      rintro ⟨k', hk', hversion'⟩
      obtain rfl := Option.some.inj (hk'.symm.trans hsame)
      exact hversion' (hversion g hlive)
    · rw [hlisted r' n' hne]
      exact hd.names r' g n' hlive
  · intro r' g n' k' hlive hk' hversion'
    by_cases hne : r' = r ∧ n' = n
    · obtain ⟨rfl, rfl⟩ := hne
      obtain rfl := Option.some.inj (hk'.symm.trans hsame)
      exact absurd (hversion g hlive) hversion'
    · exact hd.told r' g n' k' hlive ((hlisted r' n' hne).symm.trans hk') hversion'
  · intro n' k' hversion' hsome hall
    refine hd.newest n' k' hversion' hsome fun r' g hlive => ?_
    have hk' := hall r' g hlive
    by_cases hne : r' = r ∧ n' = n
    · obtain ⟨rfl, rfl⟩ := hne
      obtain rfl := Option.some.inj (hk'.symm.trans hsame)
      exact absurd (hversion g hlive) hversion'
    · exact (hlisted r' n' hne).symm.trans hk'
  · intro r' n' k' hlists' hvisible'
    rw [hlisted r' n' (hlists r' n' hlists'.1)]
    exact hd.published r' n' k' hlists' hvisible'
  · intro p hp
    obtain ⟨k', hk', hpublished⟩ := hd.pending p hp
    exact ⟨k', (hlisted _ _ (hlists _ _ (hv.pending_listed hp))).trans hk', hpublished⟩
  · intro r' g n' k' hlive hvisible'
    rw [hlisted r' n' (hvisible r' n' hvisible')]
    exact hd.announced r' g n' k' hlive hvisible'

/-- The generation of an advertisement tells it apart from what other registries told. -/
theorem generationFor_iff (hd : Tracked options ads v d) (hlive : v.Live r g)
    (hn : n ∉ v.ledger.names r) (hfresh : d.told r n ≠ some k) (hwraps : ¬ v.ledger.Wraps r n)
    (hovertakes : ¬ d.Overtakes (fun r => ∃ g, v.Live r g) r n k) {r' g' k' : ℕ}
    (hr' : r' ≠ r) (hlive' : v.Live r' g') (htold : d.told r' n = some k') :
    v.ledger.generation r' n = some (v.ledger.generationFor r n) ↔ k' = k := by
  have hothers : ∀ j, d.latest n = some j → j ≠ k →
      d.told r' n ≠ some k ∧ (d.told r' n = some j → d.told r n = some j) := by
    intro j hj hne
    refine ⟨fun hk => hovertakes ⟨j, hj, hne, r', hr', ⟨g', hlive'⟩, .inl hk⟩, fun hj' => ?_⟩
    by_contra hr
    exact hovertakes ⟨j, hj, hne, r', hr', ⟨g', hlive'⟩, .inr ⟨hj', hr⟩⟩
  have hlatest : d.latest n ≠ none := by
    intro hnone
    rw [hd.spoken r' n hnone] at htold
    exact Option.some_ne_none k' htold.symm
  obtain ⟨j, hj⟩ := Option.ne_none_iff_exists'.mp hlatest
  by_cases hbegins : v.ledger.Begins r n
  · -- a new generation, which no registry has told of
    rw [Ledger.generationFor_of_begins _ _ _ hbegins]
    refine iff_of_false (fun h => hwraps ⟨hbegins, r', hr', h⟩) ?_
    rintro rfl
    by_cases hne : j = k'
    · subst hne
      have hcurrent : v.ledger.current n ≠ none := mt (hd.noted n).mp hlatest
      obtain ⟨-, hgeneration⟩ := hbegins.resolve_left hcurrent
      have hsome : d.told r n ≠ none := by
        rw [Ne, hd.seen r g n hlive, hgeneration]
        exact hcurrent
      obtain ⟨i, hi⟩ := Option.ne_none_iff_exists'.mp hsome
      have hi' := (hd.same r g n i hlive hi).mp hgeneration
      exact hfresh (hi.trans (hi'.symm.trans hj))
    · exact (hothers j hj hne).1 htold
  · -- the current generation
    rw [Ledger.generationFor_of_not_begins _ _ _ hbegins, hd.same r' g' n k' hlive' htold, hj,
      Option.some_inj]
    by_cases hne : j = k
    · rw [hne]
      exact eq_comm
    · refine iff_of_false ?_ ?_
      · rintro rfl
        have htold_r := (hothers j hj hne).2 htold
        have hgeneration := (hd.same r g n j hlive htold_r).mpr hj
        refine hbegins (.inr ⟨hd.removed r n ?_ hn, hgeneration⟩)
        rw [hgeneration]
        exact mt (hd.noted n).mp hlatest
      · rintro rfl
        exact (hothers j hj hne).1 htold

theorem advertise (hd : Tracked options ads v d) {advertised : ℕ → Finset ℕ}
    (hv : Streamed v advertised) {o : Outcome} (hlive : v.Live r g)
    (hn : n ∉ v.ledger.names r) (hversion : (ads k).version ≠ 0)
    (ho : GlobalContext.Treats options (ads k).interface (ads k).version o)
    (hfresh : d.told r n ≠ some k) (hwraps : ¬ v.ledger.Wraps r n)
    (hovertakes : ¬ d.Overtakes (fun r => ∃ g, v.Live r g) r n k) (bound : ℕ → Prop) :
    Tracked options ads (GlobalView.tell { v with ledger := v.ledger.advertise r n o, bound }
      (o.announcement g n)) (d.add r n k true) := by
  have hgeneration : ∀ {r' g' k'}, r' ≠ r → v.Live r' g' → d.told r' n = some k' →
      (v.ledger.generation r' n = some (v.ledger.generationFor r n) ↔ k' = k) :=
    fun hr' hlive' htold' =>
      hd.generationFor_iff hlive hn hfresh hwraps hovertakes hr' hlive' htold'
  have hlisted : ∀ r' n', (d.add r n k true).listed r' n' =
      if r' = r ∧ n' = n then some k else d.listed r' n' := fun _ _ => rfl
  have htold : ∀ r' n', (d.add r n k true).told r' n' =
      if r' = r ∧ n' = n then some k else d.told r' n' := fun _ _ => rfl
  have hlatest : ∀ n', (d.add r n k true).latest n' =
      if n' = n then some k else d.latest n' := fun _ => Function.update_apply ..
  have hlists : ∀ r' n', n' ∈ v.ledger.names r' → ¬ (r' = r ∧ n' = n) := by
    rintro r' n' hn' ⟨rfl, rfl⟩
    exact hn hn'
  have hmem : ∀ r' n', n' ∈ (v.ledger.advertise r n o).names r' ↔
      (r' = r ∧ n' = n) ∨ n' ∈ v.ledger.names r' := by
    intro r' n'
    rw [Ledger.advertise_names]
    by_cases hr : r' = r
    · subst hr
      simp
    · simp [hr]
  constructor
  case paired => exact hd.paired
  case live =>
    intro r' n' hn'
    rcases (hmem r' n').mp hn' with ⟨rfl, rfl⟩ | hn'
    · exact ⟨g, hlive⟩
    · exact hd.live r' n' hn'
  case recorded =>
    intro r' n' hn'
    rw [GlobalView.tell_ledger, Ledger.advertise_generation] at hn'
    split_ifs at hn' with hsame
    · exact ⟨g, hsame.1 ▸ hlive⟩
    · exact hd.recorded r' n' hn'
  case seen =>
    intro r' g' n' hlive'
    rw [GlobalView.tell_ledger, Ledger.advertise_generation, htold]
    split_ifs
    · exact Iff.rfl
    · exact hd.seen r' g' n' hlive'
  case noted =>
    intro n'
    rw [GlobalView.tell_ledger, Ledger.advertise_current, hlatest]
    split_ifs
    · exact Iff.rfl
    · exact hd.noted n'
  case spoken =>
    intro r' n'
    rw [hlatest, htold]
    split_ifs with hn' hsame hsame
    · exact fun h => h
    · exact False.elim
    · exact absurd hsame.2 hn'
    · exact hd.spoken r' n'
  case same =>
    intro r' g' n' k' hlive'
    rw [GlobalView.tell_ledger, Ledger.advertise_generation, Ledger.advertise_current, hlatest,
      htold]
    by_cases hn' : n' = n
    · subst hn'
      rw [if_pos rfl, if_pos rfl]
      by_cases hr : r' = r
      · rw [if_pos ⟨hr, rfl⟩, if_pos ⟨hr, rfl⟩]
        exact fun hk => iff_of_true rfl hk
      · rw [if_neg (fun h => hr h.1), if_neg (fun h => hr h.1)]
        intro hk
        rw [hgeneration hr hlive' hk, Option.some_inj]
        exact eq_comm
    · rw [if_neg hn', if_neg hn', if_neg (fun h => hn' h.2), if_neg (fun h => hn' h.2)]
      exact hd.same r' g' n' k' hlive'
  case names =>
    intro r' g' n' hlive'
    rw [GlobalView.tell_ledger, hmem, hlisted]
    split_ifs with hsame
    · exact iff_of_true (.inl hsame) ⟨k, rfl, hversion⟩
    · rw [or_iff_right hsame]
      exact hd.names r' g' n' hlive'
  case told =>
    intro r' g' n' k' hlive'
    rw [hlisted, htold]
    split_ifs
    · exact fun h _ => h
    · exact hd.told r' g' n' k' hlive'
  case removed =>
    intro r' n' hgen hn'
    rw [GlobalView.tell_ledger, hmem, not_or] at hn'
    rw [GlobalView.tell_ledger, Ledger.advertise_generation, if_neg hn'.1] at hgen
    have hremoved := hd.removed r' n' hgen hn'.2
    rw [GlobalView.tell_ledger, Ledger.advertise_removed]
    split_ifs with hr
    · subst hr
      exact Finset.mem_erase_of_ne_of_mem (fun h => hn'.1 ⟨rfl, h⟩) hremoved
    · exact hremoved
  case newest =>
    intro n' k' hversion' hsome hall
    rw [hlatest]
    split_ifs with hn'
    · have hr := hall r g hlive
      rwa [hlisted, if_pos ⟨rfl, hn'⟩] at hr
    · refine hd.newest n' k' hversion' hsome fun r' g' hlive' => ?_
      have hr := hall r' g' hlive'
      rwa [hlisted, if_neg (fun h => hn' h.2)] at hr
  case published =>
    rintro r' n' k' ⟨hn', hgen⟩ hvisible hk'
    rw [GlobalView.tell_ledger, hmem] at hn'
    rw [GlobalView.tell_ledger, Ledger.advertise_generation, Ledger.advertise_current] at hgen
    rw [GlobalView.tell_ledger, Ledger.advertise_visibility] at hvisible
    rw [hlisted] at hk'
    rw [GlobalView.tell_ledger]
    by_cases hname : n' = n
    swap
    · have hne : ¬ (r' = r ∧ n' = n) := fun h => hname h.2
      rw [if_neg hne] at hgen hvisible hk'
      rw [if_neg hname] at hgen
      rw [Ledger.advertise_published _ _ _ _ _ hname]
      exact hd.published r' n' k' ⟨hn'.resolve_left hne, hgen⟩ hvisible hk'
    · subst hname
      rw [Ledger.advertise_published_self]
      by_cases hr : r' = r
      · rw [if_pos ⟨hr, rfl⟩] at hvisible hk'
        obtain rfl := Option.some.inj hk'
        cases o with
        | published global => exact congrArg some ho.1
        | hidden => exact absurd (Option.some.inj hvisible) Bool.false_ne_true
        | deferred version => exact absurd (Option.some.inj hvisible) Bool.false_ne_true
      · have hne : ¬ (r' = r ∧ n' = n') := fun h => hr h.1
        rw [if_neg hne] at hgen hvisible hk'
        rw [if_pos rfl] at hgen
        have hn' := hn'.resolve_left hne
        obtain ⟨g', hlive'⟩ := hd.live r' n' hn'
        obtain ⟨i, hi, hversion'⟩ := (hd.names r' g' n' hlive').mp hn'
        obtain rfl := Option.some.inj (hi.symm.trans hk')
        have htold' := hd.told r' g' n' i hlive' hi hversion'
        obtain rfl := (hgeneration hr hlive' htold').mp hgen
        cases o with
        | published global => exact congrArg some ho.1
        | _ =>
          dsimp only
          have hcurrent : some (v.ledger.generationFor r n') = v.ledger.current n' := by
            refine Ledger.generationFor_of_not_begins _ _ _ fun hbegins => ?_
            rw [Ledger.generationFor_of_begins _ _ _ hbegins] at hgen
            exact hwraps ⟨hbegins, r', hr, hgen⟩
          rw [if_neg (fun h => h.2 hcurrent)]
          exact hd.published r' n' i ⟨hn', hgen.trans hcurrent⟩ hvisible hk'
  case kept =>
    rintro r' n' ⟨hn', hgen⟩
    rw [GlobalView.tell_ledger, hmem] at hn'
    rw [GlobalView.tell_ledger, Ledger.advertise_generation, Ledger.advertise_current] at hgen
    rw [GlobalView.tell_ledger, Ledger.advertise_tombstones, Finset.mem_erase, not_and]
    intro hname
    have hne : ¬ (r' = r ∧ n' = n) := fun h => hname h.2
    rw [if_neg hne, if_neg hname] at hgen
    exact hd.kept r' n' ⟨hn'.resolve_left hne, hgen⟩
  case pending =>
    intro p hp
    rcases Ledger.mem_advertise_pending _ _ _ _ hp with hp | ⟨version, rfl, rfl⟩
    · obtain ⟨k', hk', hpublished⟩ := hd.pending p hp
      exact ⟨k', (if_neg (hlists _ _ (hv.pending_listed hp))).trans hk', hpublished⟩
    · refine ⟨k, if_pos ⟨rfl, rfl⟩, ?_⟩
      rw [Advertisement.published, ho.1, publishedGlobal, ← ho.2]
      rfl
  case announced =>
    intro r' g' n' k' hlive' hvisible hk'
    rw [GlobalView.tell_ledger, Ledger.advertise_visibility] at hvisible
    rw [hlisted] at hk'
    by_cases hsame : r' = r ∧ n' = n
    · obtain ⟨rfl, rfl⟩ := hsame
      rw [if_pos ⟨rfl, rfl⟩] at hvisible hk'
      obtain rfl := Option.some.inj hk'
      obtain rfl := Option.some.inj (hlive.1.symm.trans hlive'.1)
      cases o with
      | published global =>
        obtain ⟨rfl, hsupported⟩ := ho
        refine ⟨?_, hsupported⟩
        simp [GlobalView.tell, Outcome.announcement, registryNotices, registryNotice,
          Advertisement.published]
      | hidden => exact absurd (Option.some.inj hvisible) Bool.false_ne_true
      | deferred version => exact absurd (Option.some.inj hvisible) Bool.false_ne_true
    · rw [if_neg hsame] at hvisible hk'
      have hnotices : (GlobalView.tell { v with
          ledger := v.ledger.advertise r n o, bound } (o.announcement g n)).notices g' n' =
          v.notices g' n' := by
        have hother : ¬ (g = g' ∧ n = n') := by
          rintro ⟨rfl, rfl⟩
          refine hsame ⟨?_, rfl⟩
          exact Option.some.inj (((hd.paired g r').mpr hlive'.1).symm.trans
            ((hd.paired g r).mpr hlive.1))
        cases o <;> simp [GlobalView.tell, Outcome.announcement, registryNotices,
          registryNotice, hother]
      rw [hnotices]
      exact hd.announced r' g' n' k' hlive' hvisible hk'

/-! ## Removals -/

/-- A removal that the proxy ignores. -/
theorem unlisted (hd : Tracked options ads v d) {advertised : ℕ → Finset ℕ}
    (hv : Streamed v advertised) (hn : n ∉ v.ledger.names r) :
    Tracked options ads v (d.remove r n) := by
  have hlisted : ∀ r' n', (d.remove r n).listed r' n' =
      if r' = r ∧ n' = n then none else d.listed r' n' := fun _ _ => rfl
  have hlists : ∀ r' n', n' ∈ v.ledger.names r' → ¬ (r' = r ∧ n' = n) := by
    rintro r' n' hn' ⟨rfl, rfl⟩
    exact hn hn'
  have hvisible : ∀ r' n', v.ledger.visibility r' n' = some true → ¬ (r' = r ∧ n' = n) := by
    intro r' n' hvisible
    refine hlists r' n' ((hv.listed r' n').mp ?_)
    rw [hvisible]
    exact Option.some_ne_none true
  refine { hd with
    names := ?_, told := ?_, newest := ?_, published := ?_, pending := ?_, announced := ?_ }
  · intro r' g n' hlive
    rw [hlisted]
    split_ifs with hsame
    · obtain ⟨rfl, rfl⟩ := hsame
      exact iff_of_false hn (by simp)
    · exact hd.names r' g n' hlive
  · intro r' g n' k' hlive
    rw [hlisted]
    split_ifs
    · exact False.elim
    · exact hd.told r' g n' k' hlive
  · intro n' k' hversion hsome hall
    refine hd.newest n' k' hversion hsome fun r' g hlive => ?_
    have hk' := hall r' g hlive
    rw [hlisted] at hk'
    split_ifs at hk'
    exact hk'
  · intro r' n' k' hlists' hvisible'
    rw [hlisted, if_neg (hlists r' n' hlists'.1)]
    exact hd.published r' n' k' hlists' hvisible'
  · intro p hp
    obtain ⟨k', hk', hpublished⟩ := hd.pending p hp
    exact ⟨k', (if_neg (hlists _ _ (hv.pending_listed hp))).trans hk', hpublished⟩
  · intro r' g n' k' hlive hvisible'
    rw [hlisted, if_neg (hvisible r' n' hvisible')]
    exact hd.announced r' g n' k' hlive hvisible'

theorem remove (hd : Tracked options ads v d) {advertised : ℕ → Finset ℕ}
    (hv : Streamed v advertised) {last tombstone : Bool} (hlive : v.Live r g)
    (hlast : last = true ↔ v.ledger.IsLast r n) (htombstone : tombstone = true → last = true)
    (bound : ℕ → Prop) (visible : Bool) :
    Tracked options ads (GlobalView.tell { v with
      ledger := v.ledger.remove r n last tombstone, bound }
      (if visible then [.globalRemove g n] else [])) (d.remove r n) := by
  have hlisted : ∀ r' n', (d.remove r n).listed r' n' =
      if r' = r ∧ n' = n then none else d.listed r' n' := fun _ _ => rfl
  have hmem : ∀ r' n', n' ∈ (v.ledger.remove r n last tombstone).names r' ↔
      ¬ (r' = r ∧ n' = n) ∧ n' ∈ v.ledger.names r' := by
    intro r' n'
    simp only [Ledger.remove, Function.update_apply]
    by_cases hr : r' = r
    · subst hr
      simp
    · simp [hr]
  have hother : ∀ r', (v.ledger.remove r n last tombstone).Lists r' n →
      v.ledger.Lists r' n ∧ last = false := by
    intro r' hlists
    obtain ⟨hr, hlists⟩ := (Ledger.lists_remove _ r n last tombstone r').mp hlists
    refine ⟨hlists, Bool.eq_false_iff.mpr fun h => ?_⟩
    exact (hlast.mp h).2 r' hr hlists
  constructor
  case paired => exact hd.paired
  case live => exact fun r' n' hn' => hd.live r' n' ((hmem r' n').mp hn').2
  case recorded => exact hd.recorded
  case seen => exact hd.seen
  case noted => exact hd.noted
  case spoken => exact hd.spoken
  case same => exact hd.same
  case names =>
    intro r' g' n' hlive'
    rw [GlobalView.tell_ledger, hmem, hlisted]
    split_ifs with hsame
    · exact iff_of_false (fun h => h.1 hsame) (by simp)
    · rw [and_iff_right hsame]
      exact hd.names r' g' n' hlive'
  case told =>
    intro r' g' n' k' hlive'
    rw [hlisted]
    split_ifs
    · exact False.elim
    · exact hd.told r' g' n' k' hlive'
  case removed =>
    intro r' n' hgen hn'
    rw [GlobalView.tell_ledger, hmem, not_and] at hn'
    simp only [GlobalView.tell_ledger, Ledger.remove, Function.update_apply]
    by_cases hsame : r' = r ∧ n' = n
    · rw [if_pos hsame.1, hsame.2]
      exact Finset.mem_insert_self ..
    · have hremoved := hd.removed r' n' hgen (hn' hsame)
      split_ifs with hr
      · exact Finset.mem_insert_of_mem (hr ▸ hremoved)
      · exact hremoved
  case newest =>
    intro n' k' hversion hsome hall
    refine hd.newest n' k' hversion hsome fun r' g' hlive' => ?_
    have hk' := hall r' g' hlive'
    rw [hlisted] at hk'
    split_ifs at hk'
    exact hk'
  case published =>
    intro r' n' k' hlists hvisible hk'
    have hne := ((hmem r' n').mp hlists.1).1
    rw [hlisted, if_neg hne] at hk'
    have hvisible' : v.ledger.visibility r' n' = some true := by
      rw [← hvisible]
      exact (if_neg hne).symm
    by_cases hn' : n' = n
    · subst hn'
      obtain ⟨hlists', rfl⟩ := hother r' hlists
      exact hd.published r' n' k' hlists' hvisible' hk'
    · have hpublished : (v.ledger.remove r n last tombstone).published n' =
          v.ledger.published n' := by
        simp only [Ledger.remove]
        split_ifs
        · exact Function.update_of_ne hn' _ _
        · rfl
      rw [GlobalView.tell_ledger, hpublished]
      exact hd.published r' n' k' ⟨((hmem r' n').mp hlists.1).2, hlists.2⟩ hvisible' hk'
  case kept =>
    intro r' n' hlists
    simp only [GlobalView.tell_ledger, Ledger.remove]
    by_cases hn' : n' = n
    · subst hn'
      obtain ⟨hlists', rfl⟩ := hother r' hlists
      rw [if_neg (fun h => Bool.false_ne_true (htombstone h))]
      exact hd.kept r' n' hlists'
    · have hkept := hd.kept r' n' ⟨((hmem r' n').mp hlists.1).2, hlists.2⟩
      split_ifs
      · exact fun h => hkept (Finset.mem_of_mem_insert_of_ne h hn')
      · exact hkept
  case pending =>
    intro p hp
    obtain ⟨hp, hkeep⟩ := List.mem_filter.mp hp
    obtain ⟨k', hk', hpublished⟩ := hd.pending p hp
    refine ⟨k', (if_neg ?_).trans hk', hpublished⟩
    rintro ⟨hr, hn'⟩
    have hgen := (hv.hidden p hp).2
    simp [hr, hn', ← hgen] at hkeep
  case announced =>
    intro r' g' n' k' hlive' hvisible hk'
    have hne : ¬ (r' = r ∧ n' = n) := by
      intro hsame
      rw [hlisted, if_pos hsame] at hk'
      exact Option.some_ne_none k' hk'.symm
    rw [hlisted, if_neg hne] at hk'
    have hvisible : v.ledger.visibility r' n' = some true := by
      rw [← hvisible]
      exact (if_neg hne).symm
    have hnotices : (GlobalView.tell { v with
        ledger := v.ledger.remove r n last tombstone, bound }
        (if visible then [.globalRemove g n] else [])).notices g' n' = v.notices g' n' := by
      have hguest : ¬ (g = g' ∧ n = n') := by
        rintro ⟨rfl, rfl⟩
        refine hne ⟨?_, rfl⟩
        exact Option.some.inj (((hd.paired g r').mpr hlive'.1).symm.trans
          ((hd.paired g r).mpr hlive.1))
      cases visible <;> simp [GlobalView.tell, registryNotices, registryNotice, hguest]
    rw [hnotices]
    exact hd.announced r' g' n' k' hlive' hvisible hk'

theorem forget (hd : Tracked options ads v d) (hlive : v.Live r g)
    (hstrands : ¬ d.Strands (fun r => ∃ g, v.Live r g) ads r) :
    Tracked options ads { v with ledger := v.ledger.forget r, ids := v.ids.doom g } d := by
  have hold : ∀ r' g', GlobalView.Live { v with
      ledger := v.ledger.forget r, ids := v.ids.doom g } r' g' ↔ r' ≠ r ∧ v.Live r' g' := by
    intro r' g'
    simp only [GlobalView.Live, ShadowTable.Ids.doom, Finset.mem_insert, not_or]
    constructor
    · rintro ⟨hr', hi, hg', hdoomed⟩
      refine ⟨?_, hr', hi, hdoomed⟩
      rintro rfl
      exact hg' (Option.some.inj (hr'.symm.trans hlive.1))
    · rintro ⟨hr', hlive'⟩
      refine ⟨hlive'.1, hlive'.2.1, ?_, hlive'.2.2⟩
      rintro rfl
      exact hr' (Option.some.inj (((hd.paired g' r').mpr hlive'.1).symm.trans
        ((hd.paired g' r).mpr hlive.1)))
  have hgen : ∀ r' n', (v.ledger.forget r).generation r' n' =
      if r' = r then none else v.ledger.generation r' n' := by
    intro r' n'
    simp only [Ledger.forget, Function.update_apply]
    split_ifs <;> rfl
  have hmem : ∀ r' n', n' ∈ (v.ledger.forget r).names r' ↔ r' ≠ r ∧ n' ∈ v.ledger.names r' := by
    intro r' n'
    simp only [Ledger.forget, Function.update_apply]
    split_ifs with hr <;> simp [hr]
  have hvisibility : ∀ r' n', (v.ledger.forget r).visibility r' n' =
      if r' = r then none else v.ledger.visibility r' n' := by
    intro r' n'
    simp only [Ledger.forget, Function.update_apply]
    split_ifs <;> rfl
  constructor
  case paired => exact hd.paired
  case live =>
    intro r' n' hn'
    obtain ⟨hr', hn'⟩ := (hmem r' n').mp hn'
    obtain ⟨g', hlive'⟩ := hd.live r' n' hn'
    exact ⟨g', (hold r' g').mpr ⟨hr', hlive'⟩⟩
  case recorded =>
    intro r' n' hn'
    rw [hgen] at hn'
    split_ifs at hn' with hr'
    · exact absurd rfl hn'
    · obtain ⟨g', hlive'⟩ := hd.recorded r' n' hn'
      exact ⟨g', (hold r' g').mpr ⟨hr', hlive'⟩⟩
  case seen =>
    intro r' g' n' hlive'
    obtain ⟨hr', hlive'⟩ := (hold r' g').mp hlive'
    rw [hgen, if_neg hr']
    exact hd.seen r' g' n' hlive'
  case noted => exact hd.noted
  case spoken => exact hd.spoken
  case same =>
    intro r' g' n' k' hlive' htold
    obtain ⟨hr', hlive'⟩ := (hold r' g').mp hlive'
    rw [hgen, if_neg hr']
    exact hd.same r' g' n' k' hlive' htold
  case names =>
    intro r' g' n' hlive'
    obtain ⟨hr', hlive'⟩ := (hold r' g').mp hlive'
    rw [hmem, and_iff_right hr']
    exact hd.names r' g' n' hlive'
  case told =>
    intro r' g' n' k' hlive'
    exact hd.told r' g' n' k' ((hold r' g').mp hlive').2
  case removed =>
    intro r' n' hgen' hn'
    rw [hgen] at hgen'
    split_ifs at hgen' with hr'
    · exact absurd rfl hgen'
    · rw [hmem, not_and] at hn'
      simp only [Ledger.forget, Function.update_apply, if_neg hr']
      exact hd.removed r' n' hgen' (hn' hr')
  case newest =>
    rintro n' k' hversion ⟨r', g', hlive'⟩ hall
    by_contra hlatest
    obtain ⟨hr', hlive'⟩ := (hold r' g').mp hlive'
    refine hstrands ⟨n', k', hversion, hlatest, ⟨r', hr', g', hlive'⟩, ?_⟩
    rintro r'' hr'' ⟨g'', hlive''⟩
    exact hall r'' g'' ((hold r'' g'').mpr ⟨hr'', hlive''⟩)
  case published =>
    rintro r' n' k' ⟨hn', hgen'⟩ hvisible hk'
    obtain ⟨hr', hn'⟩ := (hmem r' n').mp hn'
    rw [hgen, if_neg hr'] at hgen'
    rw [hvisibility, if_neg hr'] at hvisible
    exact hd.published r' n' k' ⟨hn', hgen'⟩ hvisible hk'
  case kept =>
    rintro r' n' ⟨hn', hgen'⟩
    obtain ⟨hr', hn'⟩ := (hmem r' n').mp hn'
    rw [hgen, if_neg hr'] at hgen'
    exact hd.kept r' n' ⟨hn', hgen'⟩
  case pending => exact fun p hp => hd.pending p (List.mem_filter.mp hp).1
  case announced =>
    intro r' g' n' k' hlive' hvisible hk'
    obtain ⟨hr', hlive'⟩ := (hold r' g').mp hlive'
    rw [hvisibility, if_neg hr'] at hvisible
    exact hd.announced r' g' n' k' hlive' hvisible hk'

/-! ## Advertisements that were held back -/

theorem notices_global {g' n' version : ℕ} {i : Interface} (h : ¬ (g = g' ∧ n = n')) :
    (v.tell [.global g n i version]).notices g' n' = v.notices g' n' := by
  simp [GlobalView.tell, registryNotices, registryNotice, h]

theorem publishOne (hd : Tracked options ads v d) (generation : ℕ) {p : PendingDmabufGlobal}
    (hp : HeldBack options ads d p) : Tracked options ads (v.publishOne generation p) d := by
  unfold GlobalView.publishOne
  split_ifs with hcurrent
  swap
  · exact hd
  obtain ⟨k, hk, hpublished⟩ := hp
  obtain ⟨g, hlive⟩ := hd.live _ _ hcurrent.1
  have hguest : (v.ids.hostToGuest.get p.registryHostId).getD p.registryHostId = g := by
    rw [hlive.1, Option.getD_some]
  obtain ⟨k', hk', hversion⟩ := (hd.names _ g _ hlive).mp hcurrent.1
  obtain rfl := Option.some.inj (hk.symm.trans hk')
  have htold := hd.told _ g _ k hlive hk hversion
  have hlatest := (hd.same _ g _ k hlive htold).mp (hcurrent.2.1.trans hcurrent.2.2.2.symm)
  refine { hd with published := ?_, announced := ?_ }
  · intro r n k' hlists hvisible hk'
    simp only [GlobalView.tell_ledger, Ledger.settle, Ledger.setVisible, setEntry_apply] at hvisible
    simp only [GlobalView.tell_ledger, Ledger.settle, Ledger.setVisible, Function.update_apply]
    split_ifs with hn
    · subst hn
      obtain ⟨g', hlive'⟩ := hd.live r p.name hlists.1
      obtain ⟨i, hi, hversion'⟩ := (hd.names r g' _ hlive').mp hlists.1
      obtain rfl := Option.some.inj (hi.symm.trans hk')
      have hlatest' := (hd.same r g' _ i hlive' (hd.told r g' _ i hlive' hi hversion')).mp hlists.2
      obtain rfl := Option.some.inj (hlatest.symm.trans hlatest')
      rw [hpublished]
    · rw [if_neg (fun h => hn h.2)] at hvisible
      exact hd.published r n k' hlists hvisible hk'
  · intro r g' n k' hlive' hvisible hk'
    simp only [GlobalView.tell_ledger, Ledger.settle, Ledger.setVisible, setEntry_apply] at hvisible
    by_cases hsame : r = p.registryHostId ∧ n = p.name
    · obtain ⟨rfl, rfl⟩ := hsame
      obtain rfl := Option.some.inj (hk.symm.trans hk')
      obtain rfl := Option.some.inj (hlive.1.symm.trans hlive'.1)
      rw [hguest, hpublished]
      refine ⟨?_, rfl⟩
      simp [GlobalView.tell, registryNotices, registryNotice]
    · rw [if_neg hsame] at hvisible
      have hother : ¬ (g = g' ∧ p.name = n) := by
        rintro ⟨rfl, rfl⟩
        refine hsame ⟨?_, rfl⟩
        exact Option.some.inj (((hd.paired g r).mpr hlive'.1).symm.trans
          ((hd.paired g _).mpr hlive.1))
      rw [hguest, notices_global hother]
      exact hd.announced r g' n k' hlive' hvisible hk'

theorem publish (hd : Tracked options ads v d) (generation : ℕ) (canPublish : Bool) :
    Tracked options ads (v.publish generation canPublish) d := by
  have hfold : ∀ (ps : List PendingDmabufGlobal) (v : GlobalView), Tracked options ads v d →
      (∀ p ∈ ps, HeldBack options ads d p) →
      Tracked options ads (ps.foldl (GlobalView.publishOne generation) v) d := by
    intro ps
    induction ps with
    | nil => exact fun _ hd _ => hd
    | cons p ps ih =>
      intro v hd hps
      obtain ⟨hp, hps⟩ := List.forall_mem_cons.mp hps
      exact ih _ (hd.publishOne generation hp) hps
  have hrest : Tracked options ads { v with ledger := { v.ledger with
      pending := v.ledger.pending.filter (·.generation != generation) } } d := by
    refine { hd with pending := fun p hp => ?_ }
    exact hd.pending p (List.mem_filter.mp hp).1
  unfold GlobalView.publish
  dsimp only
  split_ifs
  · refine hfold _ _ hrest fun p hp => ?_
    exact hd.pending p (List.mem_filter.mp hp).1
  · exact hrest

/-- Messages that are not about what a registry lists. -/
theorem quiet (hd : Tracked options ads v d) {m : GlobalMessage} (hm : m.isListing = false)
    (h : Effect options m v v') (hsilent : ∀ r, v.ids.hostToGuest.get r = none →
      ∀ n, d.listed r n = none ∧ d.told r n = none) : Tracked options ads v' d := by
  cases h with
  | idle => exact hd
  | bind _ hg hh => exact hd.rerouted (.bind hd.paired hg hh) hsilent
  | track _ hg => exact hd.rerouted (.track hd.paired hg) hsilent
  | doom _ hg hi hregistry => exact hd.rerouted (.doom hd.paired hi hregistry) hsilent
  | untrack _ hg => exact hd.rerouted (.untrack hd.paired hg) hsilent
  | unbind hg hh hdoomed => exact hd.rerouted (.unbind hd.paired hg hdoomed) hsilent
  | publish generation canPublish => exact hd.publish generation canPublish
  | _ => exact absurd hm Bool.true_eq_false.mp

theorem new : Tracked options ads (GlobalSession.new options).context.view .empty where
  paired := (GlobalSession.routed_new options).paired
  live r n hn := absurd hn (by simp [GlobalSession.new, GlobalContext.new, GlobalContext.view,
    GlobalContext.ledger, GlobalContext.namesOf])
  recorded r n hn := absurd rfl hn
  seen _ _ _ _ := iff_of_true rfl rfl
  noted _ := iff_of_true rfl rfl
  spoken _ _ _ := rfl
  same _ _ _ k _ hk := absurd hk.symm (Option.some_ne_none k)
  names r _ n _ := by
    simp [GlobalSession.new, GlobalContext.new, GlobalContext.view, GlobalContext.ledger,
      GlobalContext.namesOf, Heard.empty]
  told _ _ _ k _ hk := absurd hk.symm (Option.some_ne_none k)
  removed _ _ hn := absurd rfl hn
  newest n k _ := by
    rintro ⟨r, g, hlive⟩ hall
    exact absurd (hall r g hlive).symm (Option.some_ne_none k)
  published _ _ k _ _ hk := absurd hk.symm (Option.some_ne_none k)
  kept _ n _ := Finset.notMem_empty n
  pending p hp := absurd hp List.not_mem_nil
  announced _ _ _ k _ _ hk := absurd hk.symm (Option.some_ne_none k)

end Tracked
end Sommelier
