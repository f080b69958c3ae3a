import Sommelier.Globals.RegistryStream

/-!
# The end of a global

When registries have observed the removal of a name and none lists it any more, the proxy
should neither offer the name nor hold anything bound from it. That is so, unless the last
registry to list the name was destroyed.

## Main definitions

* `finalitySystem`: sessions with the names whose removal was observed.
* `Final`: the property.
* `DestroysLast`: the guest destroys the last registry that lists such a name.
* `removal_finality`: the property holds exactly as long as that does not happen.
-/
namespace Sommelier

namespace GlobalSession

/-- The names of which some registry observed the removal at their current generation. -/
def observe (s t : GlobalSession) (observed : Finset ℕ) : GlobalMessage → Finset ℕ
  | .global _ name _ _ =>
    if t.context.globalGenerations.get name = s.context.globalGenerations.get name then observed
    else observed.erase name
  | .globalRemove registry name =>
    if name ∈ s.context.namesOf registry ∧
        s.context.generationOf registry name = s.context.globalGenerations.get name then
      insert name observed
    else observed
  | _ => observed

end GlobalSession

/-- Sessions, with what was observed. -/
def finalitySystem (options : GlobalOptions) :
    TransitionSystem (GlobalSession × Finset ℕ) GlobalMessage where
  init s := s = (.new options, ∅)
  step s m := (s.1.step m).map fun t => (t, s.1.observe t s.2 m)

namespace GlobalContext

/-- A registry the guest may use. -/
def LiveRegistry (c : GlobalContext) (registryHostId : ℕ) : Prop :=
  ∃ g, c.shadowTable.getGuestId registryHostId = some g ∧
    c.shadowTable.getInterface g = some .wlRegistry ∧
    g ∉ c.shadowTable.pendingDestroyGuestIds

/-- The registry lists the name at its current generation. -/
def ListsCurrent (c : GlobalContext) (registryHostId name : ℕ) : Prop :=
  name ∈ c.namesOf registryHostId ∧
    c.generationOf registryHostId name = c.globalGenerations.get name

/-- The guest may bind the name, or the proxy has bound something from it. -/
def InUse (c : GlobalContext) (name : ℕ) : Prop :=
  (c.hostGlobals.get name).isSome = true ∨ c.internalBindingMatches name = true

end GlobalContext

/-- Names that were removed and are listed nowhere are not in use. -/
def Final (s : GlobalSession × Finset ℕ) : Prop :=
  ∀ n ∈ s.2, (∀ r, s.1.context.LiveRegistry r → ¬ s.1.context.ListsCurrent r n) →
    ¬ s.1.context.InUse n

/-- The message destroys the last registry that lists a name in use, of which another one
observed the removal. -/
def DestroysLast (s : GlobalSession × Finset ℕ) (m : GlobalMessage) : Prop :=
  ∃ fixes g r n, m = .destroyRegistry fixes g ∧ s.1.context.shadowTable.getHostId g = some r ∧
    n ∈ s.2 ∧ s.1.context.ListsCurrent r n ∧
    (∀ r' ≠ r, s.1.context.LiveRegistry r' → ¬ s.1.context.ListsCurrent r' n) ∧
    s.1.context.InUse n

/-! ## The property of the view -/

namespace GlobalView

def InUse (v : GlobalView) (n : ℕ) : Prop := v.ledger.published n ≠ none ∨ v.bound n

/-- The last of the observed names are not in use. -/
def Final (v : GlobalView) (observed : Finset ℕ) : Prop :=
  ∀ n ∈ observed, (∀ r, ¬ v.ledger.Lists r n) → ¬ v.InUse n

end GlobalView

theorem inUse_view {c : GlobalContext} {n : ℕ} : c.view.InUse n ↔ c.InUse n := by
  unfold GlobalView.InUse GlobalContext.InUse
  rw [Option.isSome_iff_ne_none]
  exact Iff.rfl

theorem Streamed.lists_live {v : GlobalView} {advertised : ℕ → Finset ℕ}
    (hv : Streamed v advertised) {P : ℕ → Prop} (n : ℕ) :
    (∀ r, P r → (∃ g, v.Live r g) → ¬ v.ledger.Lists r n) ↔
      ∀ r, P r → ¬ v.ledger.Lists r n := by
  refine forall_congr' fun r => ⟨fun h hr hlists => ?_, fun h hr _ => h hr⟩
  exact h hr (hv.live r n hlists.1) hlists

theorem final_view {s : GlobalSession × Finset ℕ} (hv : Streamed s.1.context.view s.1.advertised) :
    s.1.context.view.Final s.2 ↔ Final s := by
  refine forall₂_congr fun n _ => imp_congr ?_ (not_congr inUse_view)
  have := hv.lists_live (P := fun _ => True) n
  simp only [true_imp_iff] at this
  exact this.symm

namespace GlobalView

variable {v v' : GlobalView} {observed : Finset ℕ}

/-- Publishing concerns listed names only. -/
theorem publishOne_published (generation : ℕ) (v : GlobalView) (p : PendingDmabufGlobal) (n : ℕ)
    (hn : ∀ r, ¬ v.ledger.Lists r n) :
    (v.publishOne generation p).ledger.published n = v.ledger.published n := by
  unfold publishOne
  split_ifs with hcurrent
  · refine Function.update_of_ne ?_ _ _
    rintro rfl
    exact hn p.registryHostId ⟨hcurrent.1, hcurrent.2.1.trans hcurrent.2.2.2.symm⟩
  · rfl

theorem lists_of_sameListing {l l' : Ledger} (h : SameListing l l') (r n : ℕ) :
    l'.Lists r n ↔ l.Lists r n := by
  rw [Ledger.Lists, Ledger.Lists, h.names, h.generation, h.current]

theorem foldl_publishOne_published (generation : ℕ) (ps : List PendingDmabufGlobal)
    (v : GlobalView) (n : ℕ) (hn : ∀ r, ¬ v.ledger.Lists r n) :
    (ps.foldl (publishOne generation) v).ledger.published n = v.ledger.published n := by
  induction ps generalizing v with
  | nil => rfl
  | cons p ps ih =>
    refine (ih _ fun r => ?_).trans (publishOne_published generation v p n hn)
    rw [lists_of_sameListing (publishOne_listing v generation p)]
    exact hn r

theorem publish_published (generation : ℕ) (canPublish : Bool) (v : GlobalView) (n : ℕ)
    (hn : ∀ r, ¬ v.ledger.Lists r n) :
    (v.publish generation canPublish).ledger.published n = v.ledger.published n := by
  unfold publish
  dsimp only
  split_ifs
  · exact foldl_publishOne_published generation _ { v with ledger := { v.ledger with
      pending := v.ledger.pending.filter (·.generation != generation) } } n hn
  · rfl

/-- The names of which some registry observed the removal, on the view. -/
def observe (v v' : GlobalView) (observed : Finset ℕ) : GlobalMessage → Finset ℕ
  | .global _ name _ _ =>
    if v'.ledger.current name = v.ledger.current name then observed else observed.erase name
  | .globalRemove registry name =>
    if name ∈ v.ledger.names registry ∧
        v.ledger.generation registry name = v.ledger.current name then
      insert name observed
    else observed
  | _ => observed

theorem observe_of_listing {m : GlobalMessage} (hm : m.isListing = false) :
    v.observe v' observed m = observed := by
  cases m <;> first | rfl | exact absurd hm Bool.true_eq_false.mp

/-- What is listed and bound is as before. -/
theorem Final.of_lists (hfinal : v.Final observed)
    (hlists : ∀ n r, v'.ledger.Lists r n ↔ v.ledger.Lists r n)
    (huse : ∀ n, (∀ r, ¬ v.ledger.Lists r n) → v'.InUse n → v.InUse n) : v'.Final observed := by
  intro n hn hlast hinUse
  have hlast' : ∀ r, ¬ v.ledger.Lists r n := fun r => mt (hlists n r).mpr (hlast r)
  exact hfinal n hn hlast' (huse n hlast' hinUse)

theorem Final.advertise (hfinal : v.Final observed) {r n g version : ℕ} {i : Interface}
    {o : Outcome} {bound : ℕ → Prop} (hbound : ∀ k, bound k → v.bound k ∨ k = n)
    (hv' : v' = tell { v with ledger := v.ledger.advertise r n o, bound } (o.announcement g n)) :
    v'.Final (v.observe v' observed (.global r n i version)) := by
  subst hv'
  intro n' hn' hlast
  have hne : n' ≠ n := by
    rintro rfl
    refine hlast r ⟨?_, ?_⟩
    · rw [tell_ledger, Ledger.advertise_names, if_pos rfl]
      exact Finset.mem_insert_self ..
    · rw [tell_ledger, Ledger.advertise_generation, Ledger.advertise_current, if_pos ⟨rfl, rfl⟩,
        if_pos rfl]
  have hmem : n' ∈ observed := by
    simp only [observe] at hn'
    split_ifs at hn'
    · exact hn'
    · exact Finset.mem_of_mem_erase hn'
  have hlast' : ∀ r', ¬ v.ledger.Lists r' n' := by
    rintro r' ⟨hlisted, hgeneration⟩
    refine hlast r' ⟨?_, ?_⟩
    · rw [tell_ledger, Ledger.advertise_names]
      split_ifs with hr
      · exact Finset.mem_insert_of_mem (hr ▸ hlisted)
      · exact hlisted
    · rw [tell_ledger, Ledger.advertise_generation, Ledger.advertise_current,
        if_neg (fun h => hne h.2), if_neg hne, hgeneration]
  refine mt ?_ (hfinal n' hmem hlast')
  rintro (hpublished | hb)
  · refine .inl ?_
    rwa [tell_ledger, Ledger.advertise_published _ _ _ _ _ hne] at hpublished
  · exact .inr ((hbound n' hb).resolve_right hne)

theorem Final.remove (hfinal : v.Final observed) {r n : ℕ} {last tombstone : Bool}
    {bound : ℕ → Prop} {told : List GuestEvent} (hn : n ∈ v.ledger.names r)
    (hlast : last = true ↔ v.ledger.IsLast r n)
    (hbound : ∀ k, bound k → v.bound k ∧ ¬ (last = true ∧ k = n))
    (hv' : v' = tell { v with ledger := v.ledger.remove r n last tombstone, bound } told) :
    v'.Final (v.observe v' observed (.globalRemove r n)) := by
  subst hv'
  intro n' hn' hgone
  by_cases hne : n' = n
  · subst hne
    have hgone' : ∀ r' ≠ r, ¬ v.ledger.Lists r' n' := fun r' hr hlists =>
      hgone r' ((Ledger.lists_remove _ r n' last tombstone r').mpr ⟨hr, hlists⟩)
    by_cases hcurrent : v.ledger.generation r n' = v.ledger.current n'
    · have htrue : last = true := hlast.mpr ⟨hcurrent, hgone'⟩
      rintro (hpublished | hb)
      · subst htrue
        exact hpublished (Function.update_self ..)
      · exact (hbound n' hb).2 ⟨htrue, rfl⟩
    · have hfalse : last = false := by
        refine Bool.eq_false_iff.mpr fun h => hcurrent (hlast.mp h).1
      have hmem : n' ∈ observed := by
        simpa only [observe, hcurrent, and_false, if_false] using hn'
      have hgone'' : ∀ r', ¬ v.ledger.Lists r' n' := by
        intro r' hlists
        by_cases hr : r' = r
        · exact hcurrent (hr ▸ hlists.2)
        · exact hgone' r' hr hlists
      refine mt ?_ (hfinal n' hmem hgone'')
      rintro (hpublished | hb)
      · subst hfalse
        exact .inl hpublished
      · exact .inr (hbound n' hb).1
  · have hmem : n' ∈ observed := by
      simp only [observe] at hn'
      split_ifs at hn'
      · exact Finset.mem_of_mem_insert_of_ne hn' hne
      · exact hn'
    have hgone' : ∀ r', ¬ v.ledger.Lists r' n' := by
      rintro r' ⟨hlisted, hgeneration⟩
      refine hgone r' ⟨?_, hgeneration⟩
      simp only [tell_ledger, Ledger.remove, Function.update_apply]
      split_ifs with hr
      · exact Finset.mem_erase_of_ne_of_mem hne (hr ▸ hlisted)
      · exact hlisted
    refine mt ?_ (hfinal n' hmem hgone')
    rintro (hpublished | hb)
    · refine .inl ?_
      simp only [tell_ledger, Ledger.remove] at hpublished
      split_ifs at hpublished
      · rwa [Function.update_of_ne hne] at hpublished
      · exact hpublished
    · exact .inr (hbound n' hb).1

theorem lists_forget {l : Ledger} {r r' n : ℕ} :
    (l.forget r).Lists r' n ↔ r' ≠ r ∧ l.Lists r' n := by
  by_cases h : r' = r
  · simp [Ledger.Lists, Ledger.forget, h]
  · simp [Ledger.Lists, Ledger.forget, h]

/-- Destroying a registry ends no name properly: this holds only if none was to end. -/
theorem final_forget (hfinal : v.Final observed) {r g : ℕ} :
    GlobalView.Final { v with ledger := v.ledger.forget r, ids := v.ids.doom g } observed ↔
      ¬ ∃ n ∈ observed, v.ledger.Lists r n ∧ (∀ r' ≠ r, ¬ v.ledger.Lists r' n) ∧ v.InUse n := by
  constructor
  · rintro hnext ⟨n, hn, -, hothers, hinUse⟩
    refine hnext n hn (fun r' hlists => ?_) hinUse
    obtain ⟨hr, hlists⟩ := lists_forget.mp hlists
    exact hothers r' hr hlists
  · intro hnone n hn hgone hinUse
    have hothers : ∀ r' ≠ r, ¬ v.ledger.Lists r' n := fun r' hr hlists =>
      hgone r' (lists_forget.mpr ⟨hr, hlists⟩)
    by_cases hlists : v.ledger.Lists r n
    · exact hnone ⟨n, hn, hlists, hothers, hinUse⟩
    · refine hfinal n hn (fun r' hlists' => ?_) hinUse
      by_cases hr : r' = r
      · exact hlists (hr ▸ hlists')
      · exact hothers r' hr hlists'

end GlobalView

/-! ## Runs -/

theorem destroysLast_iff {s : GlobalSession} {observed : Finset ℕ} {fixes g r : ℕ}
    (hv : Streamed s.context.view s.advertised)
    (hg : s.context.view.ids.guestToHost.get g = some r) :
    DestroysLast (s, observed) (.destroyRegistry fixes g) ↔
      ∃ n ∈ observed, s.context.view.ledger.Lists r n ∧
        (∀ r' ≠ r, ¬ s.context.view.ledger.Lists r' n) ∧ s.context.view.InUse n := by
  constructor
  · rintro ⟨fixes', g', r', n, hm, hg', hn, hlists, hothers, hinUse⟩
    obtain ⟨rfl, rfl⟩ := GlobalMessage.destroyRegistry.inj hm
    obtain rfl := Option.some.inj (hg'.symm.trans hg)
    exact ⟨n, hn, hlists, (hv.lists_live n).mp hothers, inUse_view.mpr hinUse⟩
  · rintro ⟨n, hn, hlists, hothers, hinUse⟩
    exact ⟨fixes, g, r, n, rfl, hg, hn, hlists, (hv.lists_live n).mpr hothers,
      inUse_view.mp hinUse⟩

theorem not_destroysLast {s : GlobalSession × Finset ℕ} {m : GlobalMessage}
    (hm : ∀ fixes g, m ≠ .destroyRegistry fixes g) : ¬ DestroysLast s m := by
  rintro ⟨fixes, g, -, -, hm', -⟩
  exact hm fixes g hm'

/-- A step keeps the property unless it destroys the last registry of a name. -/
theorem final_step {options : GlobalOptions} {s t : GlobalSession} {m : GlobalMessage}
    {observed : Finset ℕ} (hrouted : GlobalSession.Routed options s)
    (hv : Streamed s.context.view s.advertised) (hfinal : s.context.view.Final observed)
    (h : s.step m = some t) :
    t.context.view.Final (s.context.view.observe t.context.view observed m) ↔
      ¬ DestroysLast (s, observed) m := by
  obtain ⟨⟨heffect, -, -⟩, -, -⟩ := hrouted.acts h
  have hsame : ∀ {v' : GlobalView}, m.isListing = false →
      v'.ledger = s.context.view.ledger → v'.bound = s.context.view.bound →
      (v'.Final (s.context.view.observe v' observed m) ↔ ¬ DestroysLast (s, observed) m) := by
    intro v' hm hledger hbound
    refine iff_of_true ?_ (not_destroysLast fun fixes g heq => ?_)
    · rw [GlobalView.observe_of_listing hm]
      refine hfinal.of_lists (fun n r => by rw [hledger]) fun n _ hinUse => ?_
      rwa [GlobalView.InUse, hledger, hbound] at hinUse
    · exact absurd hm (by rw [heq]; exact Bool.true_eq_false.mp)
  generalize hnext : t.context.view = v' at heffect ⊢
  clear hnext h
  cases heffect with
  | idle hm => exact hsame hm rfl rfl
  | bind hm => exact hsame hm rfl rfl
  | track hm => exact hsame hm rfl rfl
  | doom hm => exact hsame hm rfl rfl
  | untrack hm => exact hsame hm rfl rfl
  | unbind => exact hsame rfl rfl rfl
  | publish generation canPublish hm =>
    refine iff_of_true ?_ (not_destroysLast fun fixes g heq => ?_)
    · rw [GlobalView.observe_of_listing hm]
      refine hfinal.of_lists (fun n r => GlobalView.lists_of_sameListing
        (GlobalView.publish_listing _ generation canPublish) r n) fun n hgone hinUse => ?_
      rwa [GlobalView.InUse, GlobalView.publish_published _ _ _ _ hgone,
        GlobalView.publish_bound] at hinUse
    · exact absurd hm (by rw [heq]; exact Bool.true_eq_false.mp)
  | ignored h =>
    refine iff_of_true ?_ (not_destroysLast fun _ _ => nofun)
    simpa [GlobalView.observe] using hfinal
  | advertise hversion hlive hlists ho hbound =>
    exact iff_of_true (hfinal.advertise hbound rfl) (not_destroysLast fun _ _ => nofun)
  | @unlisted _ r n h =>
    refine iff_of_true ?_ (not_destroysLast fun _ _ => nofun)
    have hn : n ∉ s.context.view.ledger.names r := by
      intro hn
      obtain ⟨g, hlive⟩ := hv.live r n hn
      exact h.elim (fun h => h hn) fun h => h g hlive
    simpa [GlobalView.observe, hn] using hfinal
  | remove hlive hn hlast htombstone hbound =>
    exact iff_of_true (hfinal.remove hn hlast hbound rfl) (not_destroysLast fun _ _ => nofun)
  | forget hlive hg =>
    rw [destroysLast_iff hv hg]
    exact GlobalView.final_forget hfinal

/-- What is removed everywhere is not in use, exactly as long as no step destroys the last
registry that lists a removed name in use. -/
theorem removal_finality {options : GlobalOptions} {s : GlobalSession × Finset ℕ}
    (hs : (finalitySystem options).ReachableWhile (fun s m => ¬ DestroysLast s m) s) :
    Final s ∧ ∀ m t, (finalitySystem options).step s m = some t →
      (Final t ↔ ¬ DestroysLast s m) := by
  have hstep : ∀ s m t, (finalitySystem options).step s m = some t →
      ∃ t', s.1.step m = some t' ∧ t = (t', s.1.context.view.observe t'.context.view s.2 m) := by
    intro s m t ht
    obtain ⟨t', ht', rfl⟩ := Option.map_eq_some_iff.mp ht
    exact ⟨t', ht', by cases m <;> rfl⟩
  have hinv : GlobalSession.Routed options s.1 ∧ Streamed s.1.context.view s.1.advertised ∧
      s.1.context.view.Final s.2 := by
    refine hs.invariant (I := fun s => GlobalSession.Routed options s.1 ∧
      Streamed s.1.context.view s.1.advertised ∧ s.1.context.view.Final s.2) ?_ ?_
    · rintro s rfl
      exact ⟨GlobalSession.routed_new options, .new options,
        fun n hn => absurd hn (Finset.notMem_empty n)⟩
    · rintro s m t - ⟨hrouted, hv, hfinal⟩ hkeeps ht
      obtain ⟨t', ht', rfl⟩ := hstep s m t ht
      exact ⟨hrouted.step ht', hv.step hrouted ht', (final_step hrouted hv hfinal ht').mpr hkeeps⟩
  obtain ⟨hrouted, hv, hfinal⟩ := hinv
  refine ⟨(final_view hv).mp hfinal, fun m t ht => ?_⟩
  obtain ⟨t', ht', rfl⟩ := hstep s m t ht
  rw [← final_step hrouted hv hfinal ht', final_view (s := (t', _)) (hv.step hrouted ht')]

/-- Two registries that list an output, of which one observed its removal. -/
def halfRemovedRun : List GlobalMessage :=
  [.getRegistry 2, .getRegistry 3, .global 2 1 .wlFixes 1, .bind 2 1 .wlFixes 1 4,
    .global 2 7 .wlOutput 3, .global 3 7 .wlOutput 3, .globalRemove 2 7]

theorem removal_finality_observed : ∃ s,
    (finalitySystem gpuOptions).run (.new gpuOptions, ∅) (halfRemovedRun ++ [.globalRemove 3 7]) =
      some s ∧ 7 ∈ s.2 ∧ ¬ s.1.context.InUse 7 := by
  let test : GlobalSession × Finset ℕ → GlobalMessage → Bool := fun _ m => match m with
    | .destroyRegistry .. => false
    | _ => true
  have htest : ∀ s m, test s m = true → ¬ DestroysLast s m := by
    intro s m hpass
    refine not_destroysLast fun fixes g hm => ?_
    subst hm
    exact Bool.false_ne_true hpass
  have hrun : (((finalitySystem gpuOptions).restrict test).run (.new gpuOptions, ∅)
      (halfRemovedRun ++ [.globalRemove 3 7])).map (fun s =>
        (decide (7 ∈ s.2), s.1.context.stillSeen 7)) = some (true, false) := by decide +kernel
  obtain ⟨s, hs, heq⟩ := Option.map_eq_some_iff.mp hrun
  simp only [Prod.mk.injEq, decide_eq_true_eq] at heq
  obtain ⟨hobserved, hunseen⟩ := heq
  have hfinal := (removal_finality (TransitionSystem.Reachable.of_restrict htest
    (.run (.init rfl) hs))).1
  refine ⟨s, TransitionSystem.run_of_restrict hs, hobserved, hfinal 7 hobserved ?_⟩
  intro r _ hlists
  rw [GlobalContext.stillSeen_iff.mpr ⟨r, hlists⟩] at hunseen
  exact Bool.false_ne_true hunseen.symm

/-- Destroying the other registry leaves the output on offer, although nothing lists it. -/
theorem destroyed_registry_leaves_global : ¬ ∀ s, (finalitySystem gpuOptions).Reachable s →
    Final s := by
  have hrun : ((finalitySystem gpuOptions).run (.new gpuOptions, ∅)
      (halfRemovedRun ++ [.destroyRegistry 4 3])).map (fun s =>
        (decide (7 ∈ s.2), s.1.context.stillSeen 7, (s.1.context.hostGlobals.get 7).isSome)) =
      some (true, false, true) := by decide +kernel
  obtain ⟨s, hs, heq⟩ := Option.map_eq_some_iff.mp hrun
  simp only [Prod.mk.injEq, decide_eq_true_eq] at heq
  obtain ⟨hobserved, hunseen, hoffered⟩ := heq
  intro hall
  refine hall s (.run (.init rfl) hs) 7 hobserved (fun r _ hlists => ?_) (.inl hoffered)
  rw [GlobalContext.stillSeen_iff.mpr ⟨r, hlists⟩] at hunseen
  exact Bool.false_ne_true hunseen.symm

end Sommelier
