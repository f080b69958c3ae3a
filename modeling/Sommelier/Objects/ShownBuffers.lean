import Sommelier.Objects.BufferFrame

/-!
# Buffers that surfaces show

A surface shows a buffer that was submitted, and stays registered while it is shown. This
holds unless the last pending attachment of a buffer that is otherwise ready for its deferred
destructor is withdrawn while a surface shows the buffer.

## Main definitions

* `Context.Idle`: a released buffer whose destructor only waits for its attachments.
* `Presented`: the invariant.
* `Context.KeepsShown`: the condition on messages.
* `shown_buffers_submitted`: the invariant along runs, and that commits are finalized.
-/
namespace Sommelier

variable {maps : DamageMapping} {lost : Set ℕ} {c c' : Context} {g h s : ℕ}

namespace Context

/-- The guest destroyed the buffer and the host released it. -/
def Idle (c : Context) (guestId : ℕ) : Prop :=
  ∃ h, c.shadowTable.guestToHost.get guestId = some h ∧
    c.renderBuffers.phase h = some .guestDestroyed ∧
    c.renderBuffers.useState h = some .released

/-- The message withdraws no attachment that alone keeps a shown buffer from destruction. -/
def KeepsShown (c : Context) : Message → Prop
  | .attach s _ _ _ => ∀ g, c.Idle g → c.Shows g → (c.buffersOf s).2 = .attach g →
    ∃ t ≠ s, (c.buffersOf t).2 = .attach g
  | .destroySurface s => ∀ g, c.Idle g → (∃ t ≠ s, (c.buffersOf t).1 = some g) →
    (c.buffersOf s).2 = .attach g → ∃ t ≠ s, (c.buffersOf t).2 = .attach g
  | _ => True

end Context

/-- Shown buffers were submitted, and one that awaits destruction is attached again. -/
structure Presented (c : Context) : Prop where
  shown : ∀ g, c.Shows g → ∃ h, c.shadowTable.guestToHost.get g = some h ∧
    c.renderBuffers.canDetach h = true
  held : ∀ g, c.Shows g → c.Idle g → c.Pends g

namespace SurfaceAttachment

theorem transitionFrom_eq_none {a : SurfaceAttachment} {shown : Option ℕ} :
    a.transitionFrom shown = none ↔ a = .unchanged := by
  cases a <;> simp [transitionFrom]

theorem transitionFrom_eq_some {a : SurfaceAttachment} {shown previous next : Option ℕ} :
    a.transitionFrom shown = some (previous, next) ↔
      a ≠ .unchanged ∧ previous = shown ∧ next = a.bufferId := by
  cases a <;> simp [transitionFrom, bufferId, eq_comm]

end SurfaceAttachment

theorem active_of_canDetach {r : RenderBufferRegistry BufferState} (hd : r.canDetach h = true) :
    (r.activeBuffer h).isSome = true := by
  obtain ⟨use, huse, -⟩ := RenderBufferRegistry.canDetach_iff.mp hd
  rw [RenderBufferRegistry.useState, Option.map_eq_some_iff] at huse
  obtain ⟨b, hb, -⟩ := huse
  simp [hb]

theorem phase_ne_none_of_active {r : RenderBufferRegistry BufferState}
    (hactive : (r.activeBuffer h).isSome = true) : r.phase h ≠ none := by
  rw [RenderBufferRegistry.activeBuffer_isSome_iff] at hactive
  rcases hactive with halive | hdestroyed
  · simp [halive]
  · simp [hdestroyed]

theorem resolveAttachment_mapped (hg : c.shadowTable.guestToHost.get g = some h)
    (hphase : c.renderBuffers.phase h ≠ none) : c.resolveAttachment (some g) = some (some h) := by
  simp [Context.resolveAttachment, renderBufferHostId_eq hg hphase]

theorem resolveAttachment_congr (htable : c'.shadowTable = c.shadowTable)
    (hphase : ∀ h, c'.renderBuffers.phase h = c.renderBuffers.phase h) :
    c'.resolveAttachment = c.resolveAttachment := by
  have hcontains : ∀ h, c'.renderBuffers.contains h = c.renderBuffers.contains h := by
    intro h
    rw [Bool.eq_iff_iff, RenderBufferRegistry.contains_iff, RenderBufferRegistry.contains_iff,
      hphase]
  funext next
  cases next with
  | none => rfl
  | some g =>
    simp only [Context.resolveAttachment, Context.renderBufferHostId, htable, funext hcontains]

theorem resolveAttachment_copied (state : SurfaceState) {r : RenderBufferRegistry BufferState}
    (huses : SameUses c.renderBuffers r) :
    Context.resolveAttachment { c.setSurface s state with renderBuffers := r } =
      c.resolveAttachment :=
  resolveAttachment_congr rfl fun h => (huses h).1

namespace Presented

/-- Shown buffers that stay mapped, in the same phase and use, stay presented. -/
theorem congr (hp : Presented c) (hshows : ∀ g, c'.Shows g → c.Shows g)
    (hpends : ∀ g, c'.Shows g → c.Idle g → c.Pends g → c'.Pends g)
    (hkept : ∀ g h, c'.Shows g → c.shadowTable.guestToHost.get g = some h →
      c.renderBuffers.canDetach h = true → c'.shadowTable.guestToHost.get g = some h ∧
        c'.renderBuffers.canDetach h = true ∧
        (c'.renderBuffers.phase h = some .guestDestroyed →
          c'.renderBuffers.useState h = some .released →
          c.renderBuffers.phase h = some .guestDestroyed ∧
            c.renderBuffers.useState h = some .released ∨ c'.Pends g)) : Presented c' := by
  refine ⟨fun g hg => ?_, fun g hg hidle => ?_⟩
  · obtain ⟨h, hmap, hd⟩ := hp.shown g (hshows g hg)
    exact ⟨h, (hkept g h hg hmap hd).1, (hkept g h hg hmap hd).2.1⟩
  · obtain ⟨h, hmap, hd⟩ := hp.shown g (hshows g hg)
    obtain ⟨hmap', -, hold⟩ := hkept g h hg hmap hd
    obtain ⟨h', hmap'', hphase, huse⟩ := hidle
    obtain rfl := Option.some.inj (hmap'.symm.trans hmap'')
    rcases hold hphase huse with ⟨hphase, huse⟩ | hpends'
    · have hidle : c.Idle g := ⟨h, hmap, hphase, huse⟩
      exact hpends g hg hidle (hp.held g (hshows g hg) hidle)
    · exact hpends'

theorem of_frame (hp : Presented c) (hf : BufferFrame c c') : Presented c' := by
  refine hp.congr (fun _ => hf.shows.mp) (fun _ _ _ => hf.pends.mpr) fun g h hg hmap hd => ?_
  have hactive := active_of_canDetach hd
  have hsame := hf.get_usable hactive
  refine ⟨hf.mapped g h hmap hactive, ?_, fun hphase huse => .inl ?_⟩
  · simpa [RenderBufferRegistry.canDetach, RenderBufferRegistry.useState,
      RenderBufferRegistry.activeBuffer, hsame] using hd
  · simp only [RenderBufferRegistry.phase, RenderBufferRegistry.useState,
      RenderBufferRegistry.activeBuffer, hsame] at hphase huse ⊢
    exact ⟨hphase, huse⟩

/-- The pass for deferred destructors spares the buffers that are shown. -/
theorem retire (hp : Presented c) (hc : Consistent lost c) :
    Presented (retireEligibleBuffers c) := by
  have hf := (retireEligibleBuffers_spec hc).2
  refine hp.congr (fun _ => hf.shows.mp) (fun _ _ _ => hf.pends.mpr) fun g h hg hmap hd => ?_
  have hshows := hf.shows.mp hg
  have hkept : ¬ Retirable c g h := by
    intro hr
    have hreleased : c.bufferIsReleased g = true := by
      rcases (canRetireDeferredBuffer_iff.mp hr.2.2).1 with hunused | hreleased
      · exact absurd hshows hunused.1
      · exact hreleased.1
    refine hr.not_pends (hp.held g hshows ⟨h, hmap, hr.2.1, ?_⟩)
    simpa [Context.bufferIsReleased, Context.hostBufferUse,
      renderBufferHostId_eq hmap (by simp [hr.2.1])] using hreleased
  obtain ⟨hmap', hsame⟩ := hf.kept g h hmap hkept
  refine ⟨hmap', ?_, fun hphase huse => .inl ?_⟩
  · simpa [RenderBufferRegistry.canDetach, hf.useState hmap hkept] using hd
  · rw [hf.useState hmap hkept] at huse
    rw [RenderBufferRegistry.phase, hsame] at hphase
    exact ⟨hphase, huse⟩

/-- Uses may change as long as shown buffers stay submitted. -/
theorem of_uses (hp : Presented c) {r : RenderBufferRegistry BufferState}
    (hphase : ∀ h, r.phase h = c.renderBuffers.phase h)
    (huses : ∀ g h, c.Shows g → c.shadowTable.guestToHost.get g = some h →
      r.useState h = c.renderBuffers.useState h ∨
      r.useState h = some .released ∧ (r.phase h = some .guestDestroyed → c.Pends g)) :
    Presented { c with renderBuffers := r } := by
  refine hp.congr (fun _ => id) (fun _ _ _ => id) fun g h hg hmap hd => ⟨hmap, ?_⟩
  dsimp only
  rcases huses g h hg hmap with hsame | ⟨hreleased, hheld⟩
  · refine ⟨by simpa [RenderBufferRegistry.canDetach, hsame] using hd, fun hdestroyed huse => ?_⟩
    exact .inl ⟨(hphase h).symm.trans hdestroyed, hsame.symm.trans huse⟩
  · exact ⟨by simp [RenderBufferRegistry.canDetach, hreleased],
      fun hdestroyed _ => .inr (hheld hdestroyed)⟩

/-- An attachment changes what is pending on its surface. -/
theorem attach (hp : Presented c) {buffer : ℕ} {x y : ℤ}
    (hkeeps : c.KeepsShown (.attach s buffer x y)) {f : SurfaceState → SurfaceState}
    (hf : ∀ z, (f z).currentBufferId = z.currentBufferId) :
    Presented (c.updateSurface s f) := by
  have hbuffers : ∀ t, t ≠ s → (c.updateSurface s f).buffersOf t = c.buffersOf t := by
    intro t hne
    simp [Context.buffersOf, Context.surfaceOrDefault, Context.updateSurface, hne]
  have hshown : ∀ t, ((c.updateSurface s f).buffersOf t).1 = (c.buffersOf t).1 := by
    intro t
    by_cases heq : t = s
    · subst heq
      simp only [Context.buffersOf, Context.surfaceOrDefault, Context.updateSurface,
        Table.get_set, if_true, Option.getD_some, SurfaceState.buffers]
      exact hf _
    · rw [hbuffers t heq]
  have hshows : ∀ g, (c.updateSurface s f).Shows g → c.Shows g := by
    intro g
    simp only [shows_iff_buffersOf, hshown]
    exact id
  refine hp.congr hshows (fun g hg hidle hpends => ?_) fun g h _ hmap hd =>
    ⟨hmap, hd, fun hphase huse => .inl ⟨hphase, huse⟩⟩
  obtain ⟨t, ht⟩ := pends_iff_buffersOf.mp hpends
  obtain ⟨t, hne, ht⟩ : ∃ t ≠ s, (c.buffersOf t).2 = .attach g := by
    by_cases heq : t = s
    · exact hkeeps g hidle (hshows g hg) (heq ▸ ht)
    · exact ⟨t, heq, ht⟩
  exact pends_iff_buffersOf.mpr ⟨t, by rw [hbuffers t hne, ht]⟩

/-- A buffer that the guest destroys is idle only while it is attached. -/
theorem deferBuffer (hp : Presented c) {buffer : ActiveRenderBuffer BufferState}
    {t : ShadowTable} (hc : c.shadowTable.Paired)
    (hg : c.shadowTable.guestToHost.get g = some h)
    (he : c.renderBuffers.get h = some (.guestAlive buffer))
    (hpends : c.bufferIsReleased g = true → c.Pends g)
    (ht : t.guestToHost = c.shadowTable.guestToHost) :
    Presented { c with
      renderBuffers := c.renderBuffers.set h (.guestDestroyed buffer), shadowTable := t } := by
  have huses : ∀ h', RenderBufferRegistry.useState
      (c.renderBuffers.set h (.guestDestroyed buffer)) h' = c.renderBuffers.useState h' := by
    intro h'
    by_cases heq : h' = h
    · simp [RenderBufferRegistry.useState, RenderBufferRegistry.activeBuffer, heq, he,
        RenderBuffer.active]
    · simp [RenderBufferRegistry.useState, RenderBufferRegistry.activeBuffer, heq]
  refine hp.congr (fun _ => id) (fun _ _ _ => id) fun g' h' _ hmap hd => ?_
  dsimp only
  refine ⟨by rw [ht, hmap], by rw [RenderBufferRegistry.canDetach, huses]; exact hd, ?_⟩
  intro hphase huse
  rw [huses] at huse
  by_cases heq : h' = h
  · subst heq
    obtain rfl := hc.guest_inj hmap hg
    refine .inr (hpends ?_)
    simp [Context.bufferIsReleased, Context.hostBufferUse,
      renderBufferHostId_eq hmap (by simp [RenderBufferRegistry.phase, he]), huse]
  · rw [RenderBufferRegistry.phase_set, if_neg heq] at hphase
    exact .inl ⟨hphase, huse⟩

theorem clearCurrentBufferReference_current (x : SurfaceState) (buffer : ℕ) :
    (x.clearCurrentBufferReference buffer).currentBufferId =
      if x.currentBufferId = some buffer then none else x.currentBufferId := by
  unfold SurfaceState.clearCurrentBufferReference SurfaceState.currentBufferId
  split
  · rename_i content hcontent
    split_ifs <;> simp_all
  · rename_i hnone
    simp [hnone]

theorem buffersOf_clearReferences (c : Context) (buffer t : ℕ) :
    (clearSurfaceBufferReferences c buffer).buffersOf t =
      (if (c.buffersOf t).1 = some buffer then none else (c.buffersOf t).1,
        if (c.buffersOf t).2 = .attach buffer then .detach else (c.buffersOf t).2) := by
  unfold Context.buffersOf Context.surfaceOrDefault clearSurfaceBufferReferences
  rw [Table.get_mapValues]
  cases hget : c.surfaces.get t with
  | none => simp [SurfaceState.buffers, SurfaceState.new, SurfaceState.currentBufferId]
  | some x =>
    have hcurrent := clearCurrentBufferReference_current x buffer
    have hpending := clearCurrentBufferReference_pending x buffer
    simp only [Option.map_some, Option.getD_some, SurfaceState.buffers]
    by_cases hattach : x.pendingAttachment = .attach buffer
    · rw [if_pos (hpending.trans hattach)]
      exact Prod.ext hcurrent (if_pos hattach).symm
    · rw [if_neg (hpending ▸ hattach)]
      exact Prod.ext hcurrent (hpending.trans (if_neg hattach).symm)

/-- A buffer that is destroyed at once is forgotten by all surfaces. Its use may just have
changed. -/
theorem retireBuffer (hp : Presented c) {r : RenderBufferRegistry BufferState}
    (hc : Consistent lost { c with renderBuffers := r })
    (hg : c.shadowTable.guestToHost.get g = some h)
    (hphase : r.phase h = some .guestAlive ∨ r.phase h = some .guestDestroyed)
    (hother : ∀ h', h' ≠ h → r.get h' = c.renderBuffers.get h') :
    Presented (clearSurfaceBufferReferences
      (Sommelier.retireBuffer { c with renderBuffers := r } g h) g) := by
  have hf := retireBuffer_frame hc hg hphase
  have hbuffers : ∀ t, (Sommelier.retireBuffer { c with renderBuffers := r } g h).buffersOf t =
      c.buffersOf t := by
    simp only [Context.buffersOf, Context.surfaceOrDefault, hf.surfaces, implies_true]
  have hshows : ∀ g', (clearSurfaceBufferReferences
      (Sommelier.retireBuffer { c with renderBuffers := r } g h) g).Shows g' →
      g' ≠ g ∧ c.Shows g' := by
    intro g' hg'
    obtain ⟨t, ht⟩ := shows_iff_buffersOf.mp hg'
    rw [buffersOf_clearReferences, hbuffers] at ht
    dsimp only at ht
    split_ifs at ht with heq
    refine ⟨?_, shows_iff_buffersOf.mpr ⟨t, ht⟩⟩
    rintro rfl
    exact heq ht
  refine hp.congr (fun g' hg' => (hshows g' hg').2) (fun g' hg' _ hpends => ?_)
    fun g' h' hg' hmap hd => ?_
  · obtain ⟨t, ht⟩ := pends_iff_buffersOf.mp hpends
    refine pends_iff_buffersOf.mpr ⟨t, ?_⟩
    rw [buffersOf_clearReferences, hbuffers, ht]
    exact if_neg fun heq => (hshows g' hg').1 (SurfaceAttachment.attach.inj heq)
  · obtain ⟨hmap', hsame⟩ := hf.kept g' h' hmap fun heq => (hshows g' hg').1 (Prod.mk.inj heq).1
    have hne : h' ≠ h := by
      rintro rfl
      exact (hshows g' hg').1 (hc.paired.guest_inj hmap hg)
    rw [show Context.renderBuffers { c with renderBuffers := r } = r from rfl, hother h' hne]
      at hsame
    refine ⟨hmap', ?_, fun hdestroyed huse => .inl ?_⟩
    · simpa [clearSurfaceBufferReferences, RenderBufferRegistry.canDetach,
        RenderBufferRegistry.useState, RenderBufferRegistry.activeBuffer, hsame] using hd
    · simp only [clearSurfaceBufferReferences, RenderBufferRegistry.phase,
        RenderBufferRegistry.useState, RenderBufferRegistry.activeBuffer, hsame]
        at hdestroyed huse ⊢
      exact ⟨hdestroyed, huse⟩

/-! ## Attachments and commits -/

theorem queue (hp : Presented c) (m : HostTraffic) : Presented (c.queue m) :=
  ⟨hp.shown, hp.held⟩

theorem queue_messages (hp : Presented c) (messages : List HostTraffic) :
    Presented (messages.foldl Context.queue c) := by
  rw [queue_messages_eq]
  exact ⟨hp.shown, hp.held⟩

theorem withAttachment (hp : Presented c) {buffer : ℕ} {x y : ℤ}
    (hkeeps : c.KeepsShown (.attach s buffer x y)) (offset : Option (ℤ × ℤ)) :
    Presented (c.withAttachment s buffer offset) := by
  have hattached : Presented (c.updateSurface s (.attach buffer offset)) :=
    hp.attach hkeeps fun _ => rfl
  rcases c.withAttachment_cases s buffer offset with heq | ⟨h, b, heq⟩ <;> rw [heq]
  · exact hattached
  · exact hattached.queue _

theorem of_sameUses (hp : Presented c) (htable : c'.shadowTable = c.shadowTable)
    (hbuffers : ∀ t, c'.buffersOf t = c.buffersOf t)
    (huses : SameUses c.renderBuffers c'.renderBuffers) : Presented c' := by
  refine hp.congr (fun g => ?_) (fun g _ _ => ?_) fun g h _ hmap hd => ⟨htable ▸ hmap, ?_⟩
  · simp only [shows_iff_buffersOf, hbuffers, imp_self]
  · simp only [pends_iff_buffersOf, hbuffers, imp_self]
  · simp only [RenderBufferRegistry.canDetach, (huses h).1, (huses h).2] at hd ⊢
    exact ⟨hd, fun hphase huse => .inl ⟨hphase, huse⟩⟩

theorem undone (hp : Presented c) (hu : Undone c c') : Presented c' := by
  obtain ⟨surfaces, r, fatal, hget, huses, rfl⟩ := hu
  refine hp.of_sameUses rfl (fun t => ?_) huses
  simp only [Context.buffersOf, Context.surfaceOrDefault, hget]

/-- A commit that replaces the buffer of a surface shows a submitted one. -/
theorem replace (hp : Presented c) {next n : Option ℕ}
    (hnext : c.resolveAttachment next = some n)
    (hshows : ∀ g, c'.Shows g → c.Shows g ∨ next = some g)
    (hpends : ∀ g, c.Pends g → c'.Pends g ∨ next = some g)
    (htable : c'.shadowTable = c.shadowTable)
    (hphase : ∀ h, c'.renderBuffers.phase h = c.renderBuffers.phase h)
    (hsubmitted : ∀ h, n = some h → ∃ detached,
      c'.renderBuffers.useState h = some (.awaitingRelease detached))
    (hkept : ∀ h, n ≠ some h → c.renderBuffers.KeepsUse c'.renderBuffers h) :
    Presented c' := by
  have hresolved : ∀ g, next = some g →
      ∃ h, c.shadowTable.guestToHost.get g = some h ∧ n = some h := by
    rintro g rfl
    obtain ⟨h, hhost, rfl⟩ := Option.map_eq_some_iff.mp hnext
    rw [Context.renderBufferHostId, Option.filter_eq_some_iff] at hhost
    exact ⟨h, hhost.1, rfl⟩
  refine ⟨fun g hg => ?_, fun g hg hidle => ?_⟩
  · rw [htable]
    rcases hshows g hg with hg | hg
    · obtain ⟨h, hmap, hd⟩ := hp.shown g hg
      refine ⟨h, hmap, RenderBufferRegistry.canDetach_iff.mpr ?_⟩
      by_cases hn : n = some h
      · obtain ⟨detached, huse⟩ := hsubmitted h hn
        exact ⟨_, huse, by simp⟩
      · rcases hkept h hn with hsame | ⟨-, hawaits⟩
        · rw [hsame]
          exact RenderBufferRegistry.canDetach_iff.mp hd
        · exact ⟨_, hawaits, by simp⟩
    · obtain ⟨h, hmap, hn⟩ := hresolved g hg
      obtain ⟨detached, huse⟩ := hsubmitted h hn
      exact ⟨h, hmap, RenderBufferRegistry.canDetach_iff.mpr ⟨_, huse, by simp⟩⟩
  · obtain ⟨h, hmap, hdestroyed, huse⟩ := hidle
    rw [htable] at hmap
    have hn : n ≠ some h := by
      intro hn
      obtain ⟨detached, hawaits⟩ := hsubmitted h hn
      simp [hawaits] at huse
    have hother : next ≠ some g := by
      intro hg
      obtain ⟨h', hmap', hn'⟩ := hresolved g hg
      exact hn (hn'.trans (hmap'.symm.trans hmap))
    have hreleased : c.renderBuffers.useState h = some .released := by
      rcases hkept h hn with hsame | ⟨-, hawaits⟩
      · exact hsame.symm.trans huse
      · simp [hawaits] at huse
    have hidle : c.Idle g := ⟨h, hmap, (hphase h).symm.trans hdestroyed, hreleased⟩
    exact (hpends g (hp.held g ((hshows g hg).resolve_right hother) hidle)).resolve_right hother

end Presented

/-- The buffers of the surfaces once a commit is forwarded. -/
theorem buffersOf_forwarded {surfaces : Table ℕ SurfaceState} {r : RenderBufferRegistry BufferState}
    (hbuffers : ∀ t, (surfaces.get t).map SurfaceState.buffers =
      ((c.setSurface s (c.surfaceOrDefault s).prepareCommit.state).surfaces.get t).map
        SurfaceState.buffers) (t : ℕ) :
    Context.buffersOf { c with surfaces, renderBuffers := r } t =
      if t = s then (match (c.buffersOf s).2 with
        | .unchanged => (c.buffersOf s).1
        | .detach => none
        | .attach g => some g, .unchanged)
      else c.buffersOf t := by
  have hget := (hbuffers t).trans (buffers_prepared c s t)
  unfold Context.buffersOf Context.surfaceOrDefault
  by_cases heq : t = s
  · subst heq
    simp only [if_true] at hget ⊢
    cases hold : c.surfaces.get t with
    | none =>
      rw [hold, Option.map_none, Option.map_eq_none_iff] at hget
      simp [hget, SurfaceState.new, SurfaceState.buffers, SurfaceState.currentBufferId]
    | some x =>
      rw [hold, Option.map_some, Option.map_eq_some_iff] at hget
      obtain ⟨y, hy, heq⟩ := hget
      cases hx : x.pendingAttachment <;> simpa [hy, SurfaceState.buffers, hx] using heq
  · simp only [if_neg heq] at hget ⊢
    cases hold : c.surfaces.get t with
    | none =>
      rw [hold, Option.map_none, Option.map_eq_none_iff] at hget
      simp [hget]
    | some x =>
      rw [hold, Option.map_some, Option.map_eq_some_iff] at hget
      obtain ⟨y, hy, heq⟩ := hget
      simpa [hy] using heq

namespace Presented

/-- A commit that is forwarded shows submitted buffers. -/
theorem forwarded (hp : Presented c) {env : CommitEnvironment} {c₁ c₂ c₃ : Context}
    (hcopy : copyAttachedBuffer (c.setSurface s (c.surfaceOrDefault s).prepareCommit.state) env
      (c.surfaceOrDefault s).prepareCommit = (true, c₁))
    (hwait : waitForAttachedBuffer c₁ env (c.surfaceOrDefault s).prepareCommit = some c₂)
    (hfinal : finalizeCommit c₂ s (c.surfaceOrDefault s).prepareCommit = (true, c₃)) :
    Presented c₃ := by
  obtain ⟨surfaces, r, rfl, hphase, hbuffers⟩ := forwarded_eq hcopy hwait hfinal
  have hbuffersOf := buffersOf_forwarded (r := r) hbuffers
  obtain ⟨r₂, rfl, huses⟩ := copied_eq hcopy hwait
  replace huses : SameUses c.renderBuffers r₂ := huses
  have ht : (c.surfaceOrDefault s).prepareCommit.attachmentTransition =
    (c.buffersOf s).2.transitionFrom (c.buffersOf s).1 := rfl
  rcases htransition : (c.buffersOf s).2.transitionFrom (c.buffersOf s).1 with
    _ | ⟨previous, next⟩ <;> rw [htransition] at ht
  · rw [finalizeCommit_unchanged ht] at hfinal
    obtain rfl : r₂ = r := congrArg (fun result => result.2.renderBuffers) hfinal
    have hpending := SurfaceAttachment.transitionFrom_eq_none.mp htransition
    refine hp.of_sameUses rfl (fun t => ?_) huses
    rw [hbuffersOf]
    split_ifs with heq
    · rw [heq, hpending]
      exact Prod.ext rfl hpending.symm
    · rfl
  · obtain ⟨hpending, -, hnext⟩ := SurfaceAttachment.transitionFrom_eq_some.mp htransition
    obtain ⟨n, hresolve, hsubmitted, hkept⟩ := finalizeCommit_uses ht hfinal
    rw [resolveAttachment_copied (c := c) _ huses] at hresolve
    refine hp.replace hresolve (fun g hg => ?_) (fun g hg => ?_) rfl hphase hsubmitted
      fun h hn => ?_
    · obtain ⟨t, hshown⟩ := shows_iff_buffersOf.mp hg
      rw [hbuffersOf] at hshown
      split_ifs at hshown
      · refine .inr (hnext.trans ?_)
        cases hattach : (c.buffersOf s).2 <;> simp_all [SurfaceAttachment.bufferId]
      · exact .inl (shows_iff_buffersOf.mpr ⟨t, hshown⟩)
    · obtain ⟨t, hattached⟩ := pends_iff_buffersOf.mp hg
      by_cases heq : t = s
      · rw [heq] at hattached
        exact .inr (by rw [hnext, hattached]; rfl)
      · exact .inl (pends_iff_buffersOf.mpr ⟨t, by rw [hbuffersOf, if_neg heq, hattached]⟩)
    · simpa only [RenderBufferRegistry.KeepsUse, (huses h).2] using hkept h hn

theorem onCommit (hp : Presented c) (hc : Consistent lost c) (maps : DamageMapping) (s : ℕ)
    (env : CommitEnvironment) : Presented (onCommit maps c s env).2 := by
  rcases onCommit_cases maps c s env with ⟨-, -, c₀, hundone, heq | heq⟩ |
    ⟨-, -, messages, c₁, c₂, c₃, hbuild, hcopy, hwait, hfinal, heq⟩ <;> rw [heq]
  · exact hp.undone hundone
  · exact (hp.undone hundone).retire (hundone.consistent hc)
  · have hforwarded := hp.forwarded hcopy hwait hfinal
    obtain ⟨surfaces, r, rfl, hphase, hbuffers⟩ := forwarded_eq hcopy hwait hfinal
    exact (hforwarded.queue_messages messages).retire
      ((hc.forwarded hphase hbuffers).queue_messages (buildSurfaceCommitMessages_quiet hbuild))

/-! ## The end of surfaces and buffers -/

/-- Without a surface, the other surfaces show what they showed. -/
theorem eraseSurface (hp : Presented c) (hc : Consistent lost c)
    (hkeeps : c.KeepsShown (.destroySurface s)) {c₁ : Context}
    (hsurfaces : c₁.surfaces = c.surfaces.erase s)
    (htable : c₁.shadowTable.guestToHost = c.shadowTable.guestToHost)
    (hphase : ∀ h, c₁.renderBuffers.phase h = c.renderBuffers.phase h)
    (huses : ∀ h, c₁.renderBuffers.useState h = c.renderBuffers.useState h ∨
      ∃ g, c.shadowTable.guestToHost.get g = some h ∧ ¬ c₁.Shows g) : Presented c₁ := by
  have hbuffers : ∀ t, c₁.buffersOf t = if t = s then (none, .unchanged) else c.buffersOf t := by
    intro t
    simp only [Context.buffersOf, Context.surfaceOrDefault, hsurfaces, Table.get_erase]
    split_ifs
    · rfl
    · rfl
  have hshows : ∀ g, c₁.Shows g → ∃ t ≠ s, (c.buffersOf t).1 = some g := by
    intro g hg
    obtain ⟨t, ht⟩ := shows_iff_buffersOf.mp hg
    rw [hbuffers] at ht
    split_ifs at ht with hne
    exact ⟨t, hne, ht⟩
  refine hp.congr (fun g hg => ?_) (fun g hg hidle hpends => ?_) fun g h' hg hmap hd => ?_
  · obtain ⟨t, -, ht⟩ := hshows g hg
    exact shows_iff_buffersOf.mpr ⟨t, ht⟩
  · obtain ⟨t, ht⟩ := pends_iff_buffersOf.mp hpends
    obtain ⟨t, hne, ht⟩ : ∃ t ≠ s, (c.buffersOf t).2 = .attach g := by
      by_cases heq : t = s
      · exact hkeeps g hidle (hshows g hg) (heq ▸ ht)
      · exact ⟨t, heq, ht⟩
    exact pends_iff_buffersOf.mpr ⟨t, by rw [hbuffers, if_neg hne, ht]⟩
  · have hsame : c₁.renderBuffers.useState h' = c.renderBuffers.useState h' := by
      refine (huses h').resolve_right ?_
      rintro ⟨g', hmap', hunshown⟩
      rw [hc.paired.guest_inj hmap' hmap] at hunshown
      exact hunshown hg
    rw [htable]
    refine ⟨hmap, by simpa only [RenderBufferRegistry.canDetach, hsame] using hd, ?_⟩
    rw [hphase, hsame]
    exact fun hdestroyed huse => .inl ⟨hdestroyed, huse⟩

theorem surfaceOnDestroy (hp : Presented c) (hc : Consistent lost c)
    (hallowed : c.senderAllowed s .wlSurface = true) (hkeeps : c.KeepsShown (.destroySurface s)) :
    Presented (surfaceOnDestroy c s).2 := by
  obtain ⟨h, r, fatal, c₁, -, hphase, huses, hc₁, -, hmarked, heq⟩ :=
    surfaceOnDestroy_eq hc hallowed
  rw [heq]
  have hpresented : Presented (c₁.awaitDeleteId s) := by
    subst hc₁
    exact hp.eraseSurface hc hkeeps rfl rfl hphase huses
  have hretired := hpresented.retire hmarked
  exact ⟨hretired.shown, hretired.held⟩

theorem bufferOnDestroy (hp : Presented c) (hc : Consistent lost c)
    (hallowed : c.senderAllowed g .wlBuffer = true) : Presented (bufferOnDestroy c g).2 := by
  obtain ⟨h, buffer, hg, he, ⟨hheld, -, heq⟩ | ⟨-, -, heq⟩⟩ :=
    bufferOnDestroy_cases hc hallowed <;> rw [heq]
  · obtain ⟨hi, hlive, -⟩ := senderAllowed_iff.mp hallowed
    obtain ⟨versions, hretire⟩ :=
      ShadowTable.retireGuestObject_mapped hg hi (hc.unlisted g h hg hlive)
    exact hp.deferBuffer hc.paired hg he hheld (by rw [hretire])
  · exact hp.retireBuffer (r := c.renderBuffers) hc hg (.inl (by
      simp [RenderBufferRegistry.phase, he, RenderBuffer.phase])) fun _ _ => rfl

theorem bufferOnRelease (hp : Presented c) (hc : Consistent lost c) :
    Presented (bufferOnRelease c h).2 := by
  have hphase : ∀ h', (c.renderBuffers.release h).2.phase h' = c.renderBuffers.phase h' :=
    fun _ => RenderBufferRegistry.phase_release
  obtain heq | ⟨g, hg, ⟨hheld, heq⟩ | ⟨hdestroyed, hpends, heq⟩⟩ := bufferOnRelease_cases hc h <;>
    rw [heq]
  · exact hp
  · refine hp.of_uses hphase fun g' h' _ hmap => ?_
    rcases RenderBufferRegistry.useState_release c.renderBuffers h h' with
      ⟨hsame, -⟩ | ⟨rfl, hreleased⟩
    · exact .inl hsame
    · rw [hphase, hc.paired.guest_inj hmap hg]
      exact .inr ⟨hreleased, hheld⟩
  · have hnext : Consistent lost { c with renderBuffers := (c.renderBuffers.release h).2 } :=
      hc.withRenderBuffers hphase
    exact hp.retireBuffer hnext hg (.inr ((hphase h).trans hdestroyed)) fun h' hne =>
      RenderBufferRegistry.get_release_other hne

end Presented

/-! ## Runs -/

theorem presented_new : Presented .new := by
  have hshows : ∀ g, ¬ Context.new.Shows g := by
    rintro g ⟨s, surface, hget, -⟩
    simp [Context.new] at hget
  exact ⟨fun g hg => absurd hg (hshows g), fun g hg => absurd hg (hshows g)⟩

theorem step_presented (hp : Presented c) (hc : Consistent lost c) {m : Message}
    (hkeeps : c.KeepsShown m) (h' : step maps c m = some c') : Presented c' := by
  by_cases habout : m.isAboutBuffers = false
  · exact hp.of_frame (step_bufferFrame hc habout h')
  obtain ⟨-, hrequest | ⟨-, hevent⟩⟩ := step_eq_some.mp h'
  · cases m
    case attach surface buffer x y =>
      obtain ⟨-, hbuffer, offset, rfl⟩ := attach_eq_some hrequest
      exact (hp.withAttachment hkeeps offset).retire (hc.withAttachment hbuffer offset)
    case commit surface env =>
      obtain ⟨-, hrequest⟩ := guarded_eq_some.mp hrequest
      obtain ⟨-, rfl⟩ := settle_eq_some.mp hrequest
      exact hp.onCommit hc maps surface env
    case destroySurface surface =>
      obtain ⟨hallowed, hrequest⟩ := guarded_eq_some.mp hrequest
      obtain ⟨-, rfl⟩ := settle_eq_some.mp hrequest
      exact hp.surfaceOnDestroy hc (senderAllowed_of_requestAllowed hallowed) hkeeps
    case destroyBuffer guestId =>
      obtain ⟨hallowed, hrequest⟩ := guarded_eq_some.mp hrequest
      obtain ⟨-, rfl⟩ := settle_eq_some.mp hrequest
      exact hp.bufferOnDestroy hc (senderAllowed_of_requestAllowed hallowed)
    case release => simp [requestStep] at hrequest
    all_goals exact absurd rfl habout
  · cases m
    case release buffer =>
      rw [eventStep] at hevent
      obtain rfl | ⟨-, -, hevent⟩ := deliver_eq_some hevent
      · exact hp
      · obtain ⟨-, rfl⟩ := settle_eq_some.mp hevent
        exact hp.bufferOnRelease hc
    case attach | commit | destroySurface | destroyBuffer => simp [eventStep] at hevent
    all_goals exact absurd rfl habout

theorem presented_of_reachableWhile
    (hr : (objectSystem maps).ReachableWhile Context.KeepsShown c) : Presented c := by
  refine hr.invariant (fun s hinit => ?_) fun s m t hs hp hkeeps ht => ?_
  · rw [show s = .new from hinit]
    exact presented_new
  · exact step_presented hp (consistent_of_reachable hs.reachable) hkeeps ht

/-- Where shown buffers were submitted, no commit fails to replace one. -/
theorem commit_finalized (hp : Presented c) (hc : Consistent lost c) (maps : DamageMapping)
    (s : ℕ) (env : CommitEnvironment) : (onCommit maps c s env).1 ≠ .finalizeFailed := by
  intro hexit
  rcases onCommit_cases maps c s env with ⟨-, hfailed, -⟩ | ⟨hforwarded, -⟩
  swap
  · simp [hexit] at hforwarded
  obtain ⟨r, huses, hfailed⟩ := hfailed hexit
  have ht : (c.surfaceOrDefault s).prepareCommit.attachmentTransition =
    (c.buffersOf s).2.transitionFrom (c.buffersOf s).1 := rfl
  rcases htransition : (c.buffersOf s).2.transitionFrom (c.buffersOf s).1 with
    _ | ⟨previous, next⟩ <;> rw [htransition] at ht
  · simp [finalizeCommit_unchanged ht] at hfailed
  obtain ⟨hpending, rfl, rfl⟩ := SurfaceAttachment.transitionFrom_eq_some.mp htransition
  obtain ⟨p, hprevious, hdetach⟩ : ∃ p, c.resolveAttachment (c.buffersOf s).1 = some p ∧
      ∀ h, p = some h → c.renderBuffers.canDetach h = true := by
    cases hcurrent : (c.buffersOf s).1 with
    | none => exact ⟨none, rfl, by simp⟩
    | some g =>
      obtain ⟨h, hmap, hd⟩ := hp.shown g (shows_iff_buffersOf.mpr ⟨s, hcurrent⟩)
      refine ⟨some h, resolveAttachment_mapped hmap ?_, by simpa using hd⟩
      exact phase_ne_none_of_active (active_of_canDetach hd)
  obtain ⟨n, hnext, hsubmit⟩ : ∃ n, c.resolveAttachment (c.buffersOf s).2.bufferId = some n ∧
      ∀ h, n = some h → c.renderBuffers.canSubmit h = true := by
    cases hattach : (c.buffersOf s).2 with
    | unchanged => exact absurd hattach hpending
    | detach => exact ⟨none, rfl, by simp⟩
    | attach g =>
      obtain ⟨h, hmap, hphase⟩ := hc.attached g (pends_iff_buffersOf.mpr ⟨s, hattach⟩)
      have hactive := RenderBufferRegistry.activeBuffer_isSome_iff.mpr hphase
      exact ⟨some h, resolveAttachment_mapped hmap (phase_ne_none_of_active hactive),
        by simpa [RenderBufferRegistry.canSubmit] using hactive⟩
  have hsurface : ∃ x, (c.setSurface s (c.surfaceOrDefault s).prepareCommit.state).surfaces.get s =
      some x ∧ ((c.buffersOf s).2.bufferId.isSome = true →
        x.currentBufferId = (c.buffersOf s).2.bufferId) := by
    cases hget : c.surfaces.get s with
    | none =>
      simp [Context.buffersOf, Context.surfaceOrDefault, hget, SurfaceState.new,
        SurfaceState.buffers] at hpending
    | some x =>
      refine ⟨x.prepareCommit.state, ?_, fun hsome => ?_⟩
      · rw [get_setSurface, if_pos rfl, hget]
        simp [Context.surfaceOrDefault, hget]
      · simp only [Context.buffersOf, Context.surfaceOrDefault, hget, Option.getD_some,
          SurfaceState.buffers] at hsome ⊢
        cases hattach : x.pendingAttachment <;>
          simp_all [SurfaceAttachment.bufferId, SurfaceState.prepareCommit,
            SurfaceState.currentBufferId]
  rw [← resolveAttachment_copied (s := s) (c := c)
    (c.surfaceOrDefault s).prepareCommit.state huses] at hprevious hnext
  have hfinalized := finalizeCommit_succeeds
    (c := { c.setSurface s (c.surfaceOrDefault s).prepareCommit.state with renderBuffers := r })
    ht hsurface hprevious hnext
    (fun h hn => by
      simpa only [RenderBufferRegistry.canDetach, (huses h).2] using hdetach h hn)
    fun h hn => by
      rw [RenderBufferRegistry.canSubmit_iff, (huses h).2]
      exact RenderBufferRegistry.canSubmit_iff.mp (hsubmit h hn)
  exact absurd (hfinalized.symm.trans hfailed) (by simp)

/-- Every buffer a surface shows is registered and was submitted, and no commit ends the
session because its attachment cannot be finalized. The host of these sessions follows the rules
for object IDs, the guest need not. -/
theorem shown_buffers_submitted
    (hr : (objectSystem maps).ReachableWhile Context.KeepsShown c) :
    (∀ s g, (c.surfaces.get s).bind SurfaceState.currentBufferId = some g →
      ∃ h use, c.renderBufferHostId g = some h ∧ c.renderBuffers.useState h = some use ∧
        use ≠ .neverSubmitted) ∧
    ∀ s env, (onCommit maps c s env).1 ≠ .finalizeFailed := by
  have hp := presented_of_reachableWhile hr
  have hc := consistent_of_reachable hr.reachable
  refine ⟨fun s g hg => ?_, fun s env => commit_finalized hp hc maps s env⟩
  obtain ⟨surface, hget, hcurrent⟩ := Option.bind_eq_some_iff.mp hg
  obtain ⟨h, hmap, hd⟩ := hp.shown g ⟨s, surface, hget, hcurrent⟩
  obtain ⟨use, huse, hne⟩ := RenderBufferRegistry.canDetach_iff.mp hd
  exact ⟨h, use, renderBufferHostId_eq hmap
    (phase_ne_none_of_active (active_of_canDetach hd)), huse, hne⟩

/-- Two buffers, and a surface that shows the first. -/
def shownRun : List Message :=
  [.newObject 1 2 .wlRegistry, .newObject 2 3 .zwpLinuxDmabufV1,
    .createParams 3 4, .addPlane 4 ⟨0, 0, 4, 0⟩ true, .createImmed 4 5 1 1 0x34325258 true,
    .createParams 3 6, .addPlane 6 ⟨0, 0, 4, 0⟩ true, .createImmed 6 7 1 1 0x34325258 true,
    .newObject 2 8 .wlCompositor, .newObject 8 9 .wlSurface,
    .attach 9 5 0 0, .commit 9 ⟨true, true, true, true, .synchronized⟩]

/-- A test that admits attachments to surfaces where nothing is attached. -/
def attachesFresh (c : Context) : Message → Bool
  | .attach s _ _ _ | .destroySurface s => ((c.buffersOf s).2.bufferId).isNone
  | _ => true

theorem keepsShown_of_attachesFresh {m : Message} (htest : attachesFresh c m = true) :
    c.KeepsShown m := by
  cases m
  case attach s buffer x y =>
    intro g _ _ hattach
    simp [attachesFresh, hattach, SurfaceAttachment.bufferId] at htest
  case destroySurface s =>
    intro g _ _ hattach
    simp [attachesFresh, hattach, SurfaceAttachment.bufferId] at htest
  all_goals exact trivial

/-- A shown buffer that the guest destroys stays submitted. -/
theorem shown_buffers_submitted_destroyed : ∃ c, (objectSystem .unscaled).run .new
      (shownRun ++ [.destroyBuffer 5]) = some c ∧
    ∃ h use, c.renderBufferHostId 5 = some h ∧ c.renderBuffers.useState h = some use ∧
      use ≠ .neverSubmitted := by
  have hrun : (((objectSystem .unscaled).restrict attachesFresh).run .new
      (shownRun ++ [.destroyBuffer 5])).map (fun c =>
        (c.surfaces.get 9).bind SurfaceState.currentBufferId) = some (some 5) := by decide +kernel
  obtain ⟨c, hc, hshown⟩ := Option.map_eq_some_iff.mp hrun
  have hreach : (objectSystem .unscaled).ReachableWhile Context.KeepsShown c :=
    TransitionSystem.Reachable.of_restrict (fun _ _ => keepsShown_of_attachesFresh)
      (.run (.init rfl) hc)
  exact ⟨c, TransitionSystem.run_of_restrict hc, (shown_buffers_submitted hreach).1 9 5 hshown⟩

/-- A shown buffer is attached again, destroyed and released; the next attachment makes the
proxy destroy it while the surface shows it, and the commit after that ends the session. -/
theorem shown_buffer_destroyed : ¬ ∀ c, (objectSystem .unscaled).Reachable c →
    (∀ s g, (c.surfaces.get s).bind SurfaceState.currentBufferId = some g →
      ∃ h use, c.renderBufferHostId g = some h ∧ c.renderBuffers.useState h = some use ∧
        use ≠ .neverSubmitted) ∧
    ∀ s env, (onCommit .unscaled c s env).1 ≠ .finalizeFailed := by
  have hrun : ((objectSystem .unscaled).run .new (shownRun ++
      [.attach 9 5 0 0, .destroyBuffer 5, .release 5, .attach 9 7 0 0])).map (fun c =>
        (onCommit .unscaled c 9 ⟨true, true, true, true, .synchronized⟩).1) =
      some .finalizeFailed := by decide +kernel
  obtain ⟨c, hc, hfailed⟩ := Option.map_eq_some_iff.mp hrun
  exact fun h => (h c (.run (.init rfl) hc)).2 9 _ hfailed

end Sommelier
