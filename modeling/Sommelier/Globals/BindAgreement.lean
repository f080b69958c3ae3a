import Sommelier.Globals.Tracking

/-!
# Agreement on what can be bound

The guest can bind what all its registries list and it was told of, as long as no step makes
the proxy take one advertisement for another.

## Main definitions

* `Timeline.Ordered`: each registry is sent advertisements in their order.
* `Timeline.Sound`: the invariant of runs.
* `bind_agreement`: the property.
-/
namespace Sommelier

/-- The advertisements among some changes. -/
def serials (q : List HostChange) : List ℕ :=
  q.filterMap fun change => match change with
    | .add k => some k
    | .remove _ => none

namespace Timeline

/-- The advertisements that are still to be sent, and the next one the host makes. -/
def upcoming (t : Timeline) (q : List HostChange) : List ℕ := serials q ++ [t.nextSerial]

/-- Each registry is sent advertisements in their order. -/
structure Ordered (t : Timeline) : Prop where
  inForce : (t.inForce ++ [t.nextSerial]).Pairwise (· < ·)
  sorted : ∀ r q, t.queue r = some q → (t.upcoming q).Pairwise (· < ·)
  later : ∀ r q, t.queue r = some q → ∀ n j, t.heard.told r n = some j →
    ∀ k ∈ t.upcoming q, j < k
  mapped : ∀ r, t.queue r ≠ none → t.session.context.shadowTable.getGuestId r ≠ none
  silent : ∀ r, t.queue r = none → ∀ n, t.heard.listed r n = none ∧ t.heard.told r n = none

/-- What holds along runs that are not misled. -/
structure Sound (options : GlobalOptions) (ads : ℕ → Advertisement) (t : Timeline) : Prop where
  routed : GlobalSession.Routed options t.session
  streamed : Streamed t.session.context.view t.session.advertised
  tracked : Tracked options ads t.session.context.view t.heard
  ordered : t.Ordered

end Timeline

/-- Host objects keep their guest object until the end of a destroyed one is acknowledged. -/
theorem Effect.mapped {options : GlobalOptions} {m : GlobalMessage} {v v' : GlobalView}
    (h : Effect options m v v') {r : ℕ} (hr : v.ids.hostToGuest.get r ≠ none)
    (hkeep : ∀ g, m = .deleteId r → v.ids.hostToGuest.get r = some g →
      g ∉ v.ids.pendingDestroyGuestIds) : v'.ids.hostToGuest.get r ≠ none := by
  cases h with
  | bind =>
    simp only [ShadowTable.Ids.bind, Table.get_set]
    split_ifs
    · exact Option.some_ne_none _
    · exact hr
  | @unbind _ g h hg hh hdoomed =>
    simp only [GlobalView.tell_ids, ShadowTable.Ids.unbind, Table.get_erase]
    split_ifs with heq
    · subst heq
      exact absurd hdoomed (hkeep g rfl hh)
    · exact hr
  | publish generation canPublish =>
    rw [GlobalView.publish_ids]
    exact hr
  | _ => exact hr

namespace Timeline
variable {options : GlobalOptions} {ads : ℕ → Advertisement} {t t' : Timeline}

theorem Sound.new (options : GlobalOptions) (ads : ℕ → Advertisement) :
    Sound options ads (.new options) where
  routed := GlobalSession.routed_new options
  streamed := .new options
  tracked := .new
  ordered := {
    inForce := List.pairwise_singleton _ _
    sorted := fun _ _ hq => absurd hq.symm (Option.some_ne_none _)
    later := fun _ _ hq => absurd hq.symm (Option.some_ne_none _)
    mapped := fun _ hq => absurd rfl hq
    silent := fun _ _ _ => ⟨rfl, rfl⟩ }

/-- Registries without guest object have told nothing. -/
theorem Ordered.unmapped (ht : t.Ordered) {r : ℕ}
    (hr : t.session.context.view.ids.hostToGuest.get r = none) (n : ℕ) :
    t.heard.listed r n = none ∧ t.heard.told r n = none := by
  refine ht.silent r ?_ n
  by_contra hqueue
  exact ht.mapped r hqueue hr

/-! ## The host -/

theorem pairwise_snoc_succ {ks : List ℕ} {k : ℕ} (h : (ks ++ [k]).Pairwise (· < ·)) :
    (ks ++ [k] ++ [k + 1]).Pairwise (· < ·) := by
  rw [List.pairwise_append]
  refine ⟨h, List.pairwise_singleton _ _, fun i hi j hj => ?_⟩
  rw [List.mem_singleton] at hj
  subst hj
  rcases List.mem_append.mp hi with hi | hi
  · have := (List.pairwise_append.mp h).2.2 i hi k (List.mem_singleton_self k)
    omega
  · rw [List.mem_singleton] at hi
    omega

theorem serials_append (q q' : List HostChange) :
    serials (q ++ q') = serials q ++ serials q' := List.filterMap_append

theorem serials_map_add (ks : List ℕ) : serials (ks.map .add) = ks := by
  induction ks with
  | nil => rfl
  | cons k ks ih => exact congrArg (k :: ·) ih

theorem Sound.add (ht : Sound options ads t) (h : t.step ads .add = some t') :
    Sound options ads t' := by
  unfold Timeline.step at h
  dsimp only at h
  split_ifs at h
  rw [← Option.some.inj h]
  have hqueue : ∀ r q, t.broadcast (.add t.nextSerial) r = some q →
      ∃ q', t.queue r = some q' ∧ serials q = serials q' ++ [t.nextSerial] := by
    intro r q hq
    obtain ⟨q', hq', rfl⟩ := Option.map_eq_some_iff.mp hq
    exact ⟨q', hq', serials_append q' _⟩
  refine ⟨ht.routed, ht.streamed, ht.tracked, ?_⟩
  constructor
  case inForce => exact pairwise_snoc_succ ht.ordered.inForce
  case sorted =>
    intro r q hq
    obtain ⟨q', hq', hserials⟩ := hqueue r q hq
    rw [upcoming, hserials]
    exact pairwise_snoc_succ (ht.ordered.sorted r q' hq')
  case later =>
    intro r q hq n j hj k hk
    obtain ⟨q', hq', hserials⟩ := hqueue r q hq
    rw [upcoming, hserials, List.mem_append] at hk
    have hlater := ht.ordered.later r q' hq' n j hj
    rcases hk with hk | hk
    · exact hlater k hk
    · have := hlater t.nextSerial (List.mem_append_right _ (List.mem_singleton_self _))
      rw [List.mem_singleton] at hk
      dsimp only at hk
      omega
  case mapped =>
    intro r hr
    refine ht.ordered.mapped r fun hnone => hr ?_
    simp only [broadcast, hnone, Option.map_none]
  case silent =>
    intro r hr
    exact ht.ordered.silent r (Option.map_eq_none_iff.mp hr)

theorem Sound.remove {name : ℕ} (ht : Sound options ads t)
    (h : t.step ads (.remove name) = some t') : Sound options ads t' := by
  unfold Timeline.step at h
  dsimp only at h
  split_ifs at h
  rw [← Option.some.inj h]
  have hqueue : ∀ r q, t.broadcast (.remove name) r = some q →
      ∃ q', t.queue r = some q' ∧ serials q = serials q' := by
    intro r q hq
    obtain ⟨q', hq', rfl⟩ := Option.map_eq_some_iff.mp hq
    exact ⟨q', hq', (serials_append q' _).trans (List.append_nil _)⟩
  refine ⟨ht.routed, ht.streamed, ht.tracked, ?_⟩
  constructor
  case inForce =>
    refine ht.ordered.inForce.sublist ?_
    exact (List.filter_sublist).append_right _
  case sorted =>
    intro r q hq
    obtain ⟨q', hq', hserials⟩ := hqueue r q hq
    rw [upcoming, hserials]
    exact ht.ordered.sorted r q' hq'
  case later =>
    intro r q hq n j hj k hk
    obtain ⟨q', hq', hserials⟩ := hqueue r q hq
    rw [upcoming, hserials] at hk
    exact ht.ordered.later r q' hq' n j hj k hk
  case mapped =>
    intro r hr
    refine ht.ordered.mapped r fun hnone => hr ?_
    simp only [broadcast, hnone, Option.map_none]
  case silent =>
    intro r hr
    exact ht.ordered.silent r (Option.map_eq_none_iff.mp hr)

theorem Sound.create {r : ℕ} (ht : Sound options ads t)
    (h : t.step ads (.create r) = some t') : Sound options ads t' := by
  unfold Timeline.step at h
  dsimp only at h
  split_ifs at h with hcreate
  obtain ⟨hlive, hnone⟩ := hcreate
  rw [← Option.some.inj h]
  have hqueue : ∀ r' q, Function.update t.queue r (some (t.inForce.map .add)) r' = some q →
      r' = r ∧ serials q = t.inForce ∨ t.queue r' = some q := by
    intro r' q hq
    rw [Function.update_apply] at hq
    split_ifs at hq with hr
    · rw [← Option.some.inj hq]
      exact .inl ⟨hr, serials_map_add _⟩
    · exact .inr hq
  refine ⟨ht.routed, ht.streamed, ht.tracked, ?_⟩
  constructor
  case inForce => exact ht.ordered.inForce
  case sorted =>
    intro r' q hq
    rcases hqueue r' q hq with ⟨-, hserials⟩ | hq
    · rw [upcoming, hserials]
      exact ht.ordered.inForce
    · exact ht.ordered.sorted r' q hq
  case later =>
    intro r' q hq n j hj
    rcases hqueue r' q hq with ⟨rfl, -⟩ | hq
    · rw [(ht.ordered.silent r' hnone n).2] at hj
      exact absurd hj.symm (Option.some_ne_none j)
    · exact ht.ordered.later r' q hq n j hj
  case mapped =>
    intro r' hr'
    dsimp only at hr' ⊢
    rw [Function.update_apply] at hr'
    split_ifs at hr' with hr
    · obtain ⟨g, hg, -⟩ := hlive
      rw [hr, hg]
      exact Option.some_ne_none g
    · exact ht.ordered.mapped r' hr'
  case silent =>
    intro r' hr'
    dsimp only at hr' ⊢
    rw [Function.update_apply] at hr'
    split_ifs at hr'
    exact ht.ordered.silent r' hr'

/-! ## The session -/

theorem other_eq_some {m : GlobalMessage} (h : t.other m = some t') :
    ∃ s, t.session.step m = some s ∧
      (m.isListing = true → ∃ fixes g, m = .destroyRegistry fixes g) ∧
      (t' = { t with session := s } ∧
          (∀ h, m = .deleteId h → t.session.context.shadowTable.isPendingDestroyHost h = false) ∨
        ∃ h, m = .deleteId h ∧ t.session.context.shadowTable.isPendingDestroyHost h = true ∧
          t' = { t with
            session := s
            queue := Function.update t.queue h none
            heard := t.heard.forget h }) := by
  cases m with
  | global | globalRemove => exact absurd h.symm (Option.some_ne_none t')
  | deleteId h' =>
    obtain ⟨s, hs, rfl⟩ := Option.map_eq_some_iff.mp h
    refine ⟨s, hs, fun hm => absurd hm Bool.false_ne_true, ?_⟩
    by_cases hdoomed : t.session.context.shadowTable.isPendingDestroyHost h' = true
    · exact .inr ⟨h', rfl, hdoomed, if_pos hdoomed⟩
    · refine .inl ⟨if_neg hdoomed, fun h hm => ?_⟩
      obtain rfl := GlobalMessage.deleteId.inj hm
      exact Bool.eq_false_iff.mpr hdoomed
  | destroyRegistry fixes g =>
    obtain ⟨s, hs, rfl⟩ := Option.map_eq_some_iff.mp h
    exact ⟨s, hs, fun _ => ⟨fixes, g, rfl⟩, .inl ⟨rfl, fun _ => nofun⟩⟩
  | _ =>
    unfold other at h
    obtain ⟨s, hs, rfl⟩ := Option.map_eq_some_iff.mp h
    exact ⟨s, hs, fun hm => absurd hm Bool.false_ne_true, .inl ⟨rfl, fun _ => nofun⟩⟩

/-- An acknowledged host object was no registry of the guest. -/
theorem not_live_of_doomed {h : ℕ}
    (hdoomed : t.session.context.shadowTable.isPendingDestroyHost h = true) (g : ℕ) :
    ¬ t.session.context.view.Live h g := by
  intro hlive
  obtain ⟨g', hg', hmem⟩ := GlobalContext.isPendingDestroyHost_iff.mp hdoomed
  obtain rfl := Option.some.inj (hlive.1.symm.trans hg')
  exact hlive.2.2 hmem

theorem Sound.message {m : GlobalMessage} (ht : Sound options ads t)
    (hkeeps : ¬ Misleads ads t (.message m)) (h : t.step ads (.message m) = some t') :
    Sound options ads t' := by
  obtain ⟨s, hs, hlisting, hcases⟩ := other_eq_some h
  obtain ⟨⟨heffect, -, -⟩, -, -⟩ := ht.routed.acts hs
  rw [ht.routed.options_eq] at heffect
  rcases hcases with ⟨rfl, hkept⟩ | ⟨h', rfl, hdoomed, rfl⟩
  · refine ⟨ht.routed.step hs, ht.streamed.step ht.routed hs, ?_, ?_⟩
    · by_cases hm : m.isListing = true
      · obtain ⟨fixes, g, rfl⟩ := hlisting hm
        dsimp only
        generalize s.context.view = v' at heffect ⊢
        cases heffect with
        | forget hlive hg =>
          refine ht.tracked.forget hlive fun hstrands => hkeeps ?_
          exact ⟨_, hg, hstrands⟩
        | idle hm | bind hm | track hm | doom hm | untrack hm | publish _ _ hm =>
          exact absurd hm Bool.true_eq_false.mp
      · exact ht.tracked.quiet (Bool.eq_false_iff.mpr hm) heffect fun r hr =>
          ht.ordered.unmapped hr
    · refine { ht.ordered with mapped := fun r hr => ?_ }
      refine heffect.mapped (ht.ordered.mapped r hr) fun g hm hg hmem => ?_
      have hdoomed := GlobalContext.isPendingDestroyHost_iff.mpr ⟨g, hg, hmem⟩
      rw [hkept r hm] at hdoomed
      exact Bool.false_ne_true hdoomed
  · refine ⟨ht.routed.step hs, ht.streamed.step ht.routed hs, ?_, ?_⟩
    · refine (ht.tracked.gone ht.streamed (not_live_of_doomed hdoomed)).quiet rfl heffect ?_
      intro r hr n
      have hsilent := ht.ordered.unmapped hr n
      simp only [Heard.forget, Function.update_apply]
      split_ifs
      · exact ⟨rfl, rfl⟩
      · exact hsilent
    · have hqueue : ∀ r q, Function.update t.queue h' none r = some q →
          r ≠ h' ∧ t.queue r = some q := by
        intro r q hq
        rw [Function.update_apply] at hq
        split_ifs at hq with hr
        exact ⟨hr, hq⟩
      constructor
      case inForce => exact ht.ordered.inForce
      case sorted => exact fun r q hq => ht.ordered.sorted r q (hqueue r q hq).2
      case later =>
        intro r q hq n j hj
        obtain ⟨hr, hq⟩ := hqueue r q hq
        simp only [Heard.forget, Function.update_apply, if_neg hr] at hj
        exact ht.ordered.later r q hq n j hj
      case mapped =>
        intro r hr
        dsimp only at hr ⊢
        rw [Function.update_apply] at hr
        split_ifs at hr with heq
        · exact absurd rfl hr
        · refine heffect.mapped (ht.ordered.mapped r hr) fun g hm => ?_
          exact absurd (GlobalMessage.deleteId.inj hm).symm heq
      case silent =>
        intro r hr n
        dsimp only at hr
        simp only [Heard.forget, Function.update_apply] at hr ⊢
        split_ifs at hr ⊢ with heq
        · exact ⟨rfl, rfl⟩
        · exact ht.ordered.silent r hr n

theorem notes_of_live {r g : ℕ} {ad : Advertisement} (hlive : t.session.context.view.Live r g)
    (hversion : ad.version ≠ 0) : t.notes r ad = true := by
  have hregistry : t.session.context.LiveRegistry r := ⟨g, hlive⟩
  simp [notes, hregistry, hversion]

theorem notes_of_ignored {r : ℕ} {ad : Advertisement}
    (h : ad.version = 0 ∨ ∀ g, ¬ t.session.context.view.Live r g) : t.notes r ad = false := by
  rcases h with hversion | hlive
  · simp [notes, hversion]
  · have hregistry : ¬ t.session.context.LiveRegistry r := fun ⟨g, hg⟩ => hlive g hg
    simp [notes, hregistry]

/-- What a registry is sent, less the change it delivers. -/
theorem Ordered.deliver (ht : t.Ordered) {r : ℕ} {change : HostChange} {q : List HostChange}
    (hq : t.queue r = some (change :: q)) {s : GlobalSession} {d : Heard}
    (hmapped : ∀ r, t.queue r ≠ none → s.context.shadowTable.getGuestId r ≠ none)
    (hheard : ∀ r' ≠ r, d.listed r' = t.heard.listed r' ∧ d.told r' = t.heard.told r')
    (htold : ∀ n j, d.told r n = some j → change = .add j ∨ t.heard.told r n = some j) :
    Ordered { t with
      session := s
      queue := Function.update t.queue r (some q)
      heard := d } := by
  have hqueue : ∀ r' q', Function.update t.queue r (some q) r' = some q' →
      r' = r ∧ q' = q ∨ r' ≠ r ∧ t.queue r' = some q' := by
    intro r' q' hq'
    rw [Function.update_apply] at hq'
    split_ifs at hq' with hr
    · exact .inl ⟨hr, (Option.some.inj hq').symm⟩
    · exact .inr ⟨hr, hq'⟩
  have hupcoming : t.upcoming (change :: q) = serials [change] ++ t.upcoming q := by
    rw [upcoming, upcoming, ← List.append_assoc, ← serials_append, List.singleton_append]
  have hsorted := ht.sorted r _ hq
  rw [hupcoming, List.pairwise_append] at hsorted
  constructor
  case inForce => exact ht.inForce
  case sorted =>
    intro r' q' hq'
    rcases hqueue r' q' hq' with ⟨-, rfl⟩ | ⟨-, hq'⟩
    · exact hsorted.2.1
    · exact ht.sorted r' q' hq'
  case later =>
    intro r' q' hq' n j hj k hk
    dsimp only at hj
    rcases hqueue r' q' hq' with ⟨rfl, rfl⟩ | ⟨hr, hq'⟩
    · rcases htold n j hj with rfl | hj
      · exact hsorted.2.2 j (List.mem_singleton_self j) k hk
      · refine ht.later r' _ hq n j hj k ?_
        rw [hupcoming]
        exact List.mem_append_right _ hk
    · rw [(hheard r' hr).2] at hj
      exact ht.later r' q' hq' n j hj k hk
  case mapped =>
    intro r' hr'
    refine hmapped r' ?_
    dsimp only at hr'
    rw [Function.update_apply] at hr'
    split_ifs at hr' with hr
    · rw [hr, hq]
      exact Option.some_ne_none _
    · exact hr'
  case silent =>
    intro r' hr' n
    dsimp only at hr' ⊢
    rw [Function.update_apply] at hr'
    split_ifs at hr' with hr
    rw [(hheard r' hr).1, (hheard r' hr).2]
    exact ht.silent r' hr' n

theorem Sound.deliver {r : ℕ} (ht : Sound options ads t)
    (hkeeps : ¬ Misleads ads t (.deliver r)) (h : t.step ads (.deliver r) = some t') :
    Sound options ads t' := by
  unfold Timeline.step Timeline.deliver at h
  dsimp only at h
  split at h
  · next k q hq =>
    obtain ⟨s, hs, rfl⟩ := Option.map_eq_some_iff.mp h
    obtain ⟨⟨heffect, -, -⟩, -, hconforms⟩ := ht.routed.acts hs
    rw [ht.routed.options_eq] at heffect
    have hn : (ads k).name ∉ t.session.context.view.ledger.names r := by
      intro hn
      have hadvertised := ht.streamed.advertised r _ hn
      simp only [GlobalSession.hostConforms, decide_eq_true_eq] at hconforms
      exact hconforms hadvertised
    refine ⟨ht.routed.step hs, ht.streamed.step ht.routed hs, ?_, ?_⟩
    · dsimp only
      generalize s.context.view = v' at heffect ⊢
      cases heffect with
      | ignored hignored =>
        have hk : (ads k).version = 0 ∨ ∀ g, ¬ t.session.context.view.Live r g :=
          hignored.imp_right fun h => h.resolve_left fun hlists => hn hlists.1
        rw [notes_of_ignored hk]
        exact ht.tracked.ignored ht.streamed hn hk
      | advertise hversion hlive hlists ho hbound =>
        have hnotes := notes_of_live hlive hversion
        rw [hnotes]
        refine ht.tracked.advertise ht.streamed hlive hn hversion ho (fun htold => ?_)
          (fun hwraps => hkeeps ⟨k, q, hq, hnotes, .inr hwraps⟩)
          (fun hovertakes => hkeeps ⟨k, q, hq, hnotes, .inl hovertakes⟩) _
        have := ht.ordered.later r _ hq _ k htold k (List.mem_cons_self ..)
        omega
      | idle hm | bind hm | track hm | doom hm | untrack hm | publish _ _ hm =>
        exact absurd hm Bool.true_eq_false.mp
    · refine ht.ordered.deliver hq (fun r' hr' => ?_) (fun r' hr' => ?_) fun n j hj => ?_
      · exact heffect.mapped (ht.ordered.mapped r' hr') fun _ hm => by cases hm
      · have hother : ∀ f : ℕ → ℕ → Option ℕ,
            setEntry f r (ads k).name (some k) r' = f r' := by
          intro f
          funext n
          exact if_neg fun h => hr' h.1
        refine ⟨hother _, ?_⟩
        unfold Heard.add
        dsimp only
        split_ifs
        · exact hother _
        · rfl
      · unfold Heard.add at hj
        dsimp only at hj
        split_ifs at hj
        · rw [setEntry_apply] at hj
          split_ifs at hj
          · exact .inl (congrArg _ (Option.some.inj hj))
          · exact .inr hj
        · exact .inr hj
  · next n q hq =>
    obtain ⟨s, hs, rfl⟩ := Option.map_eq_some_iff.mp h
    obtain ⟨⟨heffect, -, -⟩, -, -⟩ := ht.routed.acts hs
    rw [ht.routed.options_eq] at heffect
    refine ⟨ht.routed.step hs, ht.streamed.step ht.routed hs, ?_, ?_⟩
    · dsimp only
      generalize s.context.view = v' at heffect ⊢
      cases heffect with
      | unlisted hunlisted =>
        refine ht.tracked.unlisted ht.streamed fun hn => ?_
        obtain ⟨g, hlive⟩ := ht.streamed.live r n hn
        exact hunlisted.elim (fun h => h hn) fun h => h g hlive
      | remove hlive hn hlast htombstone hbound =>
        exact ht.tracked.remove ht.streamed hlive hlast htombstone _ _
      | idle hm | bind hm | track hm | doom hm | untrack hm | publish _ _ hm =>
        exact absurd hm Bool.true_eq_false.mp
    · refine ht.ordered.deliver hq (fun r' hr' => ?_) (fun r' hr' => ⟨?_, rfl⟩)
        fun n j hj => .inr hj
      · exact heffect.mapped (ht.ordered.mapped r' hr') fun _ hm => by cases hm
      · funext n'
        exact if_neg fun h => hr' h.1
  · exact absurd h.symm (Option.some_ne_none t')

theorem Sound.step {i : TimelineInput} (ht : Sound options ads t) (hkeeps : ¬ Misleads ads t i)
    (h : t.step ads i = some t') : Sound options ads t' := by
  cases i with
  | add => exact ht.add h
  | remove name => exact ht.remove h
  | create r => exact ht.create h
  | deliver r => exact ht.deliver hkeeps h
  | message m => exact ht.message hkeeps h

/-! ## Binding -/

/-- The guest was told of what its registry lists. -/
theorem Sound.announced (ht : Sound options ads t) {r n : ℕ} {global : HostGlobal}
    (hlive : t.session.context.LiveRegistry r)
    (hglobal : t.session.context.Announced r n global) :
    t.session.context.visibilityOf r n = some true := by
  obtain ⟨g, hlive⟩ := hlive
  obtain ⟨g', hg', hhead⟩ := hglobal
  obtain rfl := Option.some.inj (hlive.1.symm.trans hg')
  refine (ht.streamed.shown r g n hlive.1 hlive.2.2).mp ?_
  obtain ⟨notices, hnotices⟩ : ∃ notices, t.session.context.view.notices g n =
      .appeared global :: notices := by
    cases hlist : registryNotices g n t.session.context.guestEvents with
    | nil =>
      rw [hlist] at hhead
      exact absurd hhead.symm (Option.some_ne_none _)
    | cons notice notices =>
      rw [hlist, List.head?_cons, Option.some_inj] at hhead
      exact ⟨notices, hhead ▸ hlist⟩
  rw [GlobalView.edges, hnotices]
  rfl

theorem Sound.agrees (ht : Sound options ads t) : Agrees t := by
  intro n k hall r global hr hglobal r' g version hr' hg hpositive hversion
  have hvisible := ht.announced hr hglobal
  obtain ⟨g₀, hlive₀⟩ := hr
  obtain ⟨g', hlive⟩ := hr'
  obtain rfl := Option.some.inj (hlive.1.symm.trans hg)
  have hlisted₀ := hall r ⟨g₀, hlive₀⟩
  have hlisted := hall r' ⟨g', hlive⟩
  obtain ⟨hhead, hsupported⟩ := ht.tracked.announced r g₀ n k hlive₀ hvisible hlisted₀
  obtain ⟨g₁, hg₁, hhead'⟩ := hglobal
  obtain rfl := Option.some.inj (hlive₀.1.symm.trans hg₁)
  obtain rfl := RegistryNotice.appeared.inj (Option.some.inj (hhead'.symm.trans hhead))
  have hnames₀ : n ∈ t.session.context.view.ledger.names r := by
    have hvisible' : t.session.context.view.ledger.visibility r n = some true := hvisible
    refine (ht.streamed.listed r n).mp ?_
    rw [hvisible']
    exact Option.some_ne_none true
  obtain ⟨k', hk', hreal⟩ := (ht.tracked.names r g₀ n hlive₀).mp hnames₀
  obtain rfl := Option.some.inj (hlisted₀.symm.trans hk')
  have hlatest := ht.tracked.newest n k hreal ⟨r, g₀, hlive₀⟩ fun r g hlive => hall r ⟨g, hlive⟩
  have hlists : ∀ r g, t.session.context.view.Live r g →
      t.session.context.view.ledger.Lists r n := by
    intro r g hlive
    have hlisted := hall r ⟨g, hlive⟩
    refine ⟨(ht.tracked.names r g n hlive).mpr ⟨k, hlisted, hreal⟩, ?_⟩
    exact (ht.tracked.same r g n k hlive (ht.tracked.told r g n k hlive hlisted hreal)).mpr hlatest
  have hpublished : t.session.context.hostGlobals.get n = some ((ads k).published options) :=
    ht.tracked.published r n k (hlists r g₀ hlive₀) hvisible hlisted₀
  have hkept : n ∉ t.session.context.removedHostGlobals :=
    ht.tracked.kept r' n (hlists r' g' hlive)
  have hhost : t.session.context.shadowTable.getHostId g' = some r' :=
    (ht.tracked.paired g' r').mpr hlive.1
  have hregistry : t.session.context.registryListsGlobal r' n = true := by
    obtain ⟨hn, hgeneration⟩ := hlists r' g' hlive
    unfold GlobalContext.registryListsGlobal
    cases hnames : t.session.context.registryGlobalNames.get r' with
    | none => rfl
    | some names =>
      have hmem : n ∈ names := by
        have hof : t.session.context.namesOf r' = names := by
          rw [GlobalContext.namesOf, hnames, Option.getD_some]
        exact hof ▸ hn
      have hcurrent : t.session.context.generationOf r' n =
          t.session.context.globalGenerations.get n := hgeneration
      simp [hmem, hcurrent]
  unfold GlobalContext.guestBindIsAllowed
  rw [ht.routed.options_eq, hsupported, hpublished, hhost]
  simp [hkept, hregistry, hpositive, hversion]

end Timeline

/-- What all registries of the guest list for one advertisement, and the guest was told, can be
bound through each of them, as long as no step misleads the proxy. -/
theorem bind_agreement {options : GlobalOptions} {ads : ℕ → Advertisement} {t : Timeline}
    (ht : (timelineSystem options ads).ReachableWhile (fun t i => ¬ Misleads ads t i) t) :
    Agrees t := by
  have hsound : t.Sound options ads := by
    refine ht.invariant (I := Timeline.Sound options ads) ?_ ?_
    · rintro t rfl
      exact .new options ads
    · exact fun t i t' _ hI hkeeps hstep => hI.step hkeeps hstep
  exact hsound.agrees

/-- A host that advertises the same output again and again. -/
def outputs : ℕ → Advertisement := fun _ => { name := 7, interface := .wlOutput, version := 3 }

/-- Two registries see an output removed and advertised again. -/
def replacedOutputRun : List TimelineInput :=
  [.message (.getRegistry 2), .message (.getRegistry 3), .create 2, .create 3, .add, .deliver 2,
    .deliver 3, .remove 7, .add, .deliver 2, .deliver 3, .deliver 2, .deliver 3]

/-- The step does not mislead the proxy, as a test. -/
def keepsTrack (ads : ℕ → Advertisement) (t : Timeline) : TimelineInput → Bool
  | .deliver r => match t.queue r with
    | some (.add k :: _) =>
      !(t.session.context.shadowTable.hostToGuest.any fun r' _ => r' != r &&
        t.heard.latest (ads k).name != some k &&
        (t.heard.told r' (ads k).name == some k ||
          (t.heard.told r' (ads k).name == t.heard.latest (ads k).name &&
            t.heard.told r (ads k).name != t.heard.latest (ads k).name))) &&
      !(t.session.context.registryGlobalGenerations.any fun r' generations => r' != r &&
        generations.get (ads k).name == some t.session.context.ledger.fresh)
    | _ => true
  | .message (.destroyRegistry ..) => false
  | _ => true

theorem keepsTrack_sound {ads : ℕ → Advertisement} {t : Timeline} {i : TimelineInput}
    (h : keepsTrack ads t i = true) : ¬ Misleads ads t i := by
  cases i with
  | deliver r =>
    rintro ⟨k, q, hq, -, hmisled⟩
    simp only [keepsTrack, hq, Bool.and_eq_true, Bool.not_eq_true', Bool.eq_false_iff,
      Table.any_eq_true, ne_eq, not_exists] at h
    rcases hmisled with ⟨j, hj, hne, r', hr', ⟨g, hg, -⟩, htold⟩ | ⟨-, r', hr', hgeneration⟩
    · refine h.1 r' g ⟨hg, ?_⟩
      simpa [hr', hj, hne] using htold
    · obtain ⟨generations, hget, hgeneration⟩ := Option.bind_eq_some_iff.mp hgeneration
      refine h.2 r' generations ⟨hget, ?_⟩
      simpa [hr'] using hgeneration
  | message m =>
    cases m with
    | destroyRegistry => exact absurd h Bool.false_ne_true
    | _ => exact id
  | _ => exact id

theorem bind_agreement_replaced : ∃ t,
    (timelineSystem gpuOptions outputs).run (.new gpuOptions) replacedOutputRun = some t ∧
      Agrees t := by
  have hrun : (((timelineSystem gpuOptions outputs).restrict (keepsTrack outputs)).run
      (.new gpuOptions) replacedOutputRun).isSome = true := by decide +kernel
  obtain ⟨t, ht⟩ := Option.isSome_iff_exists.mp hrun
  have hreach : (timelineSystem gpuOptions outputs).ReachableWhile
      (fun t i => ¬ Misleads outputs t i) t :=
    TransitionSystem.Reachable.of_restrict (fun _ _ => keepsTrack_sound) (.run (.init rfl) ht)
  exact ⟨t, TransitionSystem.run_of_restrict ht, bind_agreement hreach⟩

/-- A new registry is told of an advertisement before the one that saw the last removed. -/
def newRegistryRun : List TimelineInput :=
  [.message (.getRegistry 2), .create 2, .add, .deliver 2, .remove 7, .deliver 2,
    .message (.getRegistry 3), .create 3, .add, .deliver 3, .deliver 2]

/-- The proxy takes the two for different advertisements, and refuses to bind the output
through the new registry. -/
theorem new_registry_refuses_bind : ¬ ∀ t,
    (timelineSystem gpuOptions outputs).Reachable t → Agrees t := by
  have hrun : ((timelineSystem gpuOptions outputs).run (.new gpuOptions) newRegistryRun).map
      (fun t => (t.session.context.shadowTable.hostToGuest.any fun r g =>
          t.session.context.shadowTable.getInterface g == some .wlRegistry &&
            t.heard.listed r 7 != some 1,
        [t.session.context.shadowTable.getGuestId 2, t.session.context.shadowTable.getGuestId 3],
        decide (t.session.context.LiveRegistry 2 ∧ t.session.context.LiveRegistry 3),
        t.session.context.guestEvents.head?,
        t.session.context.guestBindIsAllowed 3 7 .wlOutput 1)) =
      some (false, [some 2, some 3], true, some (.global 2 7 .wlOutput 3), false) := by
    decide +kernel
  obtain ⟨t, ht, heq⟩ := Option.map_eq_some_iff.mp hrun
  simp only [Prod.mk.injEq, decide_eq_true_eq, List.cons.injEq] at heq
  obtain ⟨hlisted, ⟨hguest, hguest', -⟩, ⟨hlive, hlive'⟩, hevent, hrefused⟩ := heq
  intro hall
  have hlisted : ∀ r, t.session.context.LiveRegistry r → t.heard.listed r 7 = some 1 := by
    rintro r ⟨g, hg, hi, -⟩
    by_contra hne
    refine absurd ((Table.any_eq_true _ _).mpr ⟨r, g, hg, ?_⟩) (Bool.eq_false_iff.mp hlisted)
    simp [hi, hne]
  have hannounced : t.session.context.Announced 2 7 { interface := .wlOutput, version := 3 } := by
    refine ⟨2, hguest, ?_⟩
    cases hevents : t.session.context.guestEvents with
    | nil => simp [hevents] at hevent
    | cons event events =>
      rw [hevents, List.head?_cons, Option.some_inj] at hevent
      simp [hevent, registryNotices, registryNotice]
  have haccepted := hall t (.run (.init rfl) ht) 7 1 hlisted 2 _ hlive hannounced 3 3 1 hlive'
    hguest' (by decide) (by decide)
  exact Bool.false_ne_true (hrefused.symm.trans haccepted)

end Sommelier
