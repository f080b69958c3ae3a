import Sommelier.Objects.ShownBuffers
import Sommelier.Objects.SurfaceFrame

/-!
# Buffers that stay while they are attached

In runs where the guest destroys no attached buffer, attached buffers are alive, and no pass
for deferred destructors destroys a buffer that a surface shows or has attached.

## Main definitions

* `Context.KeepsAttached`: the condition on messages.
* `Context.HoldsAttached`: attached buffers are alive.
* `holdsAttached_of_reachableWhile`: the invariant along runs.
-/
namespace Sommelier

variable {maps : DamageMapping} {lost : Set ℕ} {c c' : Context} {g h s : ℕ}

namespace Context

/-- The message destroys no buffer that is attached for the next commit of a surface. -/
def KeepsAttached (c : Context) : Message → Prop
  | .destroyBuffer g => ¬ c.Pends g
  | _ => True

/-- The guest destroyed no attached buffer. -/
def HoldsAttached (c : Context) : Prop :=
  ∀ g, c.Pends g → ∃ h, c.shadowTable.guestToHost.get g = some h ∧
    c.renderBuffers.phase h = some .guestAlive

/-- Where attached buffers are alive, no attachment alone keeps a shown buffer. -/
theorem HoldsAttached.keepsShown (hh : c.HoldsAttached) (m : Message) : c.KeepsShown m := by
  have hnone : ∀ g t, c.Idle g → (c.buffersOf t).2 ≠ .attach g := by
    rintro g t ⟨h, hmap, hphase, -⟩ hattach
    obtain ⟨h', hmap', hphase'⟩ := hh g (pends_iff_buffersOf.mpr ⟨t, hattach⟩)
    obtain rfl := Option.some.inj (hmap.symm.trans hmap')
    simp [hphase] at hphase'
  cases m
  case attach => exact fun g hidle _ hattach => absurd hattach (hnone g _ hidle)
  case destroySurface => exact fun g hidle _ hattach => absurd hattach (hnone g _ hidle)
  all_goals exact trivial

end Context

/-- The pass for deferred destructors spares the buffers that surfaces refer to. -/
theorem Retirable.unreferenced (hr : Retirable c g h) (hp : Presented c) :
    ¬ c.Shows g ∧ ¬ c.Pends g := by
  refine ⟨fun hshows => hr.not_pends (hp.held g hshows ⟨h, hr.1, hr.2.1, ?_⟩), hr.not_pends⟩
  have hreleased : c.bufferIsReleased g = true := by
    rcases (canRetireDeferredBuffer_iff.mp hr.2.2).1 with hunused | hreleased
    · exact absurd hshows hunused.1
    · exact hreleased.1
  simpa [Context.bufferIsReleased, Context.hostBufferUse,
    renderBufferHostId_eq hr.1 (by simp [hr.2.1])] using hreleased

namespace Context.HoldsAttached

/-- What is attached stays alive. -/
theorem congr (hh : c.HoldsAttached) (hold : ∀ g, c'.Pends g → c.Pends g)
    (hkept : ∀ g h, c'.Pends g → c.shadowTable.guestToHost.get g = some h →
      c.renderBuffers.phase h = some .guestAlive → c'.shadowTable.guestToHost.get g = some h ∧
        c'.renderBuffers.phase h = some .guestAlive) : c'.HoldsAttached := by
  intro g hg
  obtain ⟨h, hmap, hphase⟩ := hh g (hold g hg)
  exact ⟨h, hkept g h hg hmap hphase⟩

theorem of_eq (hh : c.HoldsAttached) (hold : ∀ g, c'.Pends g → c.Pends g)
    (htable : c'.shadowTable.guestToHost = c.shadowTable.guestToHost)
    (hphase : ∀ h, c'.renderBuffers.phase h = c.renderBuffers.phase h) : c'.HoldsAttached :=
  hh.congr hold fun _ h _ hmap hlive => ⟨htable ▸ hmap, (hphase h).trans hlive⟩

theorem of_frame (hh : c.HoldsAttached) (hf : BufferFrame c c') : c'.HoldsAttached := by
  refine hh.congr (fun _ => hf.pends.mp) fun g h _ hmap hphase => ?_
  have hactive := RenderBufferRegistry.activeBuffer_isSome_iff.mpr (.inl hphase)
  rw [RenderBufferRegistry.phase, hf.get_usable hactive]
  exact ⟨hf.mapped g h hmap hactive, hphase⟩

theorem retire (hh : c.HoldsAttached) (hc : Consistent lost c) :
    (retireEligibleBuffers c).HoldsAttached := by
  have hf := (retireEligibleBuffers_spec hc).2
  refine hh.congr (fun _ => hf.pends.mp) fun g h _ hmap hphase => ?_
  obtain ⟨hmap', hsame⟩ := hf.kept g h hmap fun hr => by simp [hr.2.1] at hphase
  rw [RenderBufferRegistry.phase, hsame]
  exact ⟨hmap', hphase⟩

theorem attachTo (hh : c.HoldsAttached) (hc : Consistent lost c) {buffer : ℕ}
    (hbuffer : buffer = 0 ∨ c.objectAllowed buffer .wlBuffer = true)
    {f : SurfaceState → SurfaceState} (hf : ∀ z, (f z).buffers =
      (z.currentBufferId, if buffer = 0 then .detach else .attach buffer)) :
    (c.updateSurface s f).HoldsAttached := by
  intro g hg
  obtain ⟨t, b, hpend⟩ := pends_iff.mp hg
  rw [Context.updateSurface, Table.get_set] at hpend
  by_cases ht : t = s
  · rw [if_pos ht, Option.map_some, hf] at hpend
    obtain ⟨-, hattach⟩ := Prod.mk.inj (Option.some.inj hpend)
    split_ifs at hattach with hzero
    obtain rfl := SurfaceAttachment.attach.inj hattach
    obtain ⟨hi, hlive, -⟩ := senderAllowed_iff.mp (hbuffer.resolve_left hzero)
    exact hc.tracked buffer hi hlive
  · rw [if_neg ht] at hpend
    exact hh g (pends_iff.mpr ⟨t, b, hpend⟩)

theorem onCommit (hh : c.HoldsAttached) (hc : Consistent lost c) (maps : DamageMapping) (s : ℕ)
    (env : CommitEnvironment) : (onCommit maps c s env).2.HoldsAttached := by
  have hundo : ∀ c₀, Undone c c₀ → c₀.HoldsAttached := by
    rintro c₀ ⟨surfaces, r, fatal, hsame, huses, rfl⟩
    refine hh.of_eq (fun g => ?_) rfl fun h => (huses h).1
    rintro ⟨t, x, hget, hpend⟩
    exact ⟨t, x, (hsame t).symm.trans hget, hpend⟩
  rcases onCommit_cases maps c s env with ⟨-, -, c₀, hundone, heq | heq⟩ |
    ⟨-, -, messages, c₁, c₂, c₃, hbuild, hcopy, hwait, hfinal, heq⟩ <;> rw [heq]
  · exact hundo c₀ hundone
  · exact (hundo c₀ hundone).retire (hundone.consistent hc)
  · obtain ⟨surfaces, r, rfl, hphase, hbuffers⟩ := forwarded_eq hcopy hwait hfinal
    have hforwarded := (hc.forwarded hphase hbuffers).queue_messages
      (buildSurfaceCommitMessages_quiet hbuild)
    refine retire (hh.of_eq (fun g hg => ?_) ?_ fun h => ?_) hforwarded
    · rw [queue_messages_eq] at hg
      obtain ⟨t, b, hpend⟩ := pends_iff.mp hg
      rw [hbuffers, buffers_prepared] at hpend
      split_ifs at hpend
      · simp at hpend
      · exact pends_iff.mpr ⟨t, b, hpend⟩
    · rw [queue_messages_eq]
    · rw [queue_messages_eq]
      exact hphase h

theorem surfaceOnDestroy (hh : c.HoldsAttached) (hc : Consistent lost c)
    (hallowed : c.senderAllowed s .wlSurface = true) :
    (surfaceOnDestroy c s).2.HoldsAttached := by
  obtain ⟨h, r, fatal, c₁, -, hphase, -, hc₁, -, hmarked, heq⟩ := surfaceOnDestroy_eq hc hallowed
  rw [heq]
  have herased : (c₁.awaitDeleteId s).HoldsAttached := by
    subst hc₁
    refine hh.of_eq (fun g => ?_) rfl hphase
    rintro ⟨t, x, hget, hpend⟩
    simp only [Context.awaitDeleteId, Table.get_erase] at hget
    split_ifs at hget
    exact ⟨t, x, hget, hpend⟩
  exact herased.retire hmarked

theorem bufferOnDestroy (hh : c.HoldsAttached) (hc : Consistent lost c)
    (hallowed : c.senderAllowed g .wlBuffer = true) (hkeeps : ¬ c.Pends g) :
    (bufferOnDestroy c g).2.HoldsAttached := by
  obtain ⟨h, buffer, hg, he, ⟨-, -, heq⟩ | ⟨-, -, heq⟩⟩ := bufferOnDestroy_cases hc hallowed <;>
    rw [heq]
  · obtain ⟨hi, hlive, -⟩ := senderAllowed_iff.mp hallowed
    obtain ⟨versions, hretire⟩ :=
      ShadowTable.retireGuestObject_mapped hg hi (hc.unlisted g h hg hlive)
    rw [hretire]
    refine hh.congr (fun _ => id) fun g' h' hpends hmap hphase => ⟨hmap, ?_⟩
    have hne : h' ≠ h := by
      rintro rfl
      exact hkeeps (hc.paired.guest_inj hmap hg ▸ hpends)
    rw [RenderBufferRegistry.phase_set, if_neg hne, hphase]
  · have hf := retireBuffer_frame hc hg (.inl (by
      simp [RenderBufferRegistry.phase, he, RenderBuffer.phase]))
    refine hh.congr (fun g' hpends => hf.pends.mp (pends_clearSurfaceBufferReferences hpends))
      fun g' h' hpends hmap hphase => ?_
    have hold := hf.pends.mp (pends_clearSurfaceBufferReferences hpends)
    obtain ⟨hmap', hsame⟩ := hf.kept g' h' hmap
      fun heq => hkeeps ((Prod.mk.inj heq).1 ▸ hold)
    exact ⟨hmap', (congrArg (Option.map RenderBuffer.phase) hsame).trans hphase⟩

theorem bufferOnRelease (hh : c.HoldsAttached) (hc : Consistent lost c) :
    (bufferOnRelease c h).2.HoldsAttached := by
  have hphase : ∀ h', (c.renderBuffers.release h).2.phase h' = c.renderBuffers.phase h' :=
    fun _ => RenderBufferRegistry.phase_release
  obtain heq | ⟨g, hg, ⟨-, heq⟩ | ⟨hdestroyed, hpends, heq⟩⟩ := bufferOnRelease_cases hc h <;>
    rw [heq]
  · exact hh
  · exact hh.of_eq (fun _ => id) rfl hphase
  · have hnext : Consistent lost { c with renderBuffers := (c.renderBuffers.release h).2 } :=
      hc.withRenderBuffers hphase
    have hf := retireBuffer_frame hnext hg (.inr ((hphase h).trans hdestroyed))
    refine hh.congr (fun g' hpends => hf.pends.mp (pends_clearSurfaceBufferReferences hpends))
      fun g' h' hpends' hmap hlive => ?_
    have hold : c.Pends g' := hf.pends.mp (pends_clearSurfaceBufferReferences hpends')
    obtain ⟨hmap', hsame⟩ := hf.kept g' h' hmap
      fun heq => hpends ((Prod.mk.inj heq).1 ▸ hold)
    exact ⟨hmap', (congrArg (Option.map RenderBuffer.phase) hsame).trans ((hphase h').trans hlive)⟩

end Context.HoldsAttached

/-! ## Runs -/

theorem step_holdsAttached (hh : c.HoldsAttached) (hc : Consistent lost c) {m : Message}
    (hkeeps : c.KeepsAttached m) (h' : step maps c m = some c') : c'.HoldsAttached := by
  by_cases habout : m.isAboutBuffers = false
  · exact hh.of_frame (step_bufferFrame hc habout h')
  obtain ⟨-, hrequest | ⟨-, hevent⟩⟩ := step_eq_some.mp h'
  · cases m
    case attach surface buffer x y =>
      obtain ⟨-, hbuffer, offset, rfl⟩ := attach_eq_some hrequest
      refine .retire ?_ (hc.withAttachment hbuffer offset)
      have hattached : (c.updateSurface surface (.attach buffer offset)).HoldsAttached :=
        hh.attachTo hc hbuffer fun _ => rfl
      rcases c.withAttachment_cases surface buffer offset with heq | ⟨h, b, heq⟩ <;> rw [heq]
      · exact hattached
      · exact hattached.of_eq (fun _ => id) rfl fun _ => rfl
    case commit surface env =>
      obtain ⟨-, rfl⟩ := settle_eq_some.mp (guarded_eq_some.mp hrequest).2
      exact hh.onCommit hc maps surface env
    case destroySurface surface =>
      obtain ⟨hallowed, hrequest⟩ := guarded_eq_some.mp hrequest
      obtain ⟨-, rfl⟩ := settle_eq_some.mp hrequest
      exact hh.surfaceOnDestroy hc (senderAllowed_of_requestAllowed hallowed)
    case destroyBuffer guestId =>
      obtain ⟨hallowed, hrequest⟩ := guarded_eq_some.mp hrequest
      obtain ⟨-, rfl⟩ := settle_eq_some.mp hrequest
      exact hh.bufferOnDestroy hc (senderAllowed_of_requestAllowed hallowed) hkeeps
    case release => simp [requestStep] at hrequest
    all_goals exact absurd rfl habout
  · cases m
    case release buffer =>
      rw [eventStep] at hevent
      obtain rfl | ⟨-, -, hevent⟩ := deliver_eq_some hevent
      · exact hh
      · obtain ⟨-, rfl⟩ := settle_eq_some.mp hevent
        exact hh.bufferOnRelease hc
    case attach | commit | destroySurface | destroyBuffer => simp [eventStep] at hevent
    all_goals exact absurd rfl habout

theorem holdsAttached_of_reachableWhile
    (hr : (objectSystem maps).ReachableWhile Context.KeepsAttached c) : c.HoldsAttached := by
  refine hr.invariant (fun s hinit => ?_) fun s m t hs hh hkeeps ht => ?_
  · rw [show s = .new from hinit]
    rintro g ⟨t, x, hget, -⟩
    simp [Context.new] at hget
  · exact step_holdsAttached hh (consistent_of_reachable hs.reachable) hkeeps ht

theorem presented_of_keepsAttached
    (hr : (objectSystem maps).ReachableWhile Context.KeepsAttached c) : Presented c := by
  refine hr.invariant (fun s hinit => ?_) fun s m t hs hp _ ht => ?_
  · rw [show s = .new from hinit]
    exact presented_new
  · exact step_presented hp (consistent_of_reachable hs.reachable)
      ((holdsAttached_of_reachableWhile hs).keepsShown m) ht

end Sommelier
