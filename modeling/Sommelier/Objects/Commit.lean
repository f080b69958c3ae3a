import Sommelier.Objects.Destruction

/-!
# Commits and surface requests

What a commit can do, exit by exit: an exit that sends nothing leaves surfaces and buffer
uses as they were, and a commit that is forwarded has passed every step before.

## Main definitions

* `SameUses`: two registries with the same buffers in the same uses.
* `UnderWay`, `Undone`: the states of a commit before and after it is taken back.
* `onCommit_cases`: the exits of a commit.
-/
namespace Sommelier

variable {lost : Set ℕ} {c c' : Context} {g h : ℕ}

/-! ## Steps of a commit -/

/-- The registries agree except for the contents of local copies and fallback marks. -/
def SameUses (r r' : RenderBufferRegistry BufferState) : Prop :=
  ∀ h, r'.phase h = r.phase h ∧ r'.useState h = r.useState h

theorem SameUses.refl (r : RenderBufferRegistry BufferState) : SameUses r r :=
  fun _ => ⟨rfl, rfl⟩

theorem SameUses.trans {r₁ r₂ r₃ : RenderBufferRegistry BufferState} (h₁ : SameUses r₁ r₂)
    (h₂ : SameUses r₂ r₃) : SameUses r₁ r₃ :=
  fun h => ⟨(h₂ h).1.trans (h₁ h).1, (h₂ h).2.trans (h₁ h).2⟩

theorem sameUses_modify (r : RenderBufferRegistry BufferState) (h : ℕ)
    {f : ActiveRenderBuffer BufferState → ActiveRenderBuffer BufferState}
    (hf : ∀ b, (f b).useState = b.useState) :
    SameUses r (r.modify h (RenderBuffer.mapActive f)) := by
  refine fun h' => ⟨RenderBufferRegistry.phase_modify_active f, ?_⟩
  rw [RenderBufferRegistry.useState_modify_active]
  simp [hf, RenderBufferRegistry.useState]

theorem copySurfaceBuffer_eq (buffer : ℕ) (env : CommitEnvironment) (commit : SurfaceCommit) :
    ∃ r, (copySurfaceBuffer c buffer env commit).2 = { c with renderBuffers := r } ∧
      SameUses c.renderBuffers r := by
  unfold copySurfaceBuffer
  split
  · exact ⟨_, rfl, .refl _⟩
  · split
    · exact ⟨_, rfl, .refl _⟩
    · refine ⟨_, rfl, sameUses_modify _ _ fun b => ?_⟩
      split <;> rfl

theorem waitForNativeBuffer_eq {buffer : ℕ} {sync : NativeSync}
    (h' : waitForNativeBuffer c buffer sync = some c') :
    ∃ r, c' = { c with renderBuffers := r } ∧ SameUses c.renderBuffers r := by
  unfold waitForNativeBuffer at h'
  split at h'
  · split at h'
    · exact ⟨_, (Option.some.inj h').symm, .refl _⟩
    · exact ⟨_, (Option.some.inj h').symm, sameUses_modify _ _ fun _ => rfl⟩
    · simp at h'
  · exact ⟨_, (Option.some.inj h').symm, .refl _⟩

theorem copyAttachedBuffer_eq (env : CommitEnvironment) (commit : SurfaceCommit) :
    ∃ r, (copyAttachedBuffer c env commit).2 = { c with renderBuffers := r } ∧
      SameUses c.renderBuffers r := by
  unfold copyAttachedBuffer
  split
  · exact ⟨_, rfl, .refl _⟩
  · exact copySurfaceBuffer_eq _ env commit

theorem waitForAttachedBuffer_eq {env : CommitEnvironment} {commit : SurfaceCommit}
    (h' : waitForAttachedBuffer c env commit = some c') :
    ∃ r, c' = { c with renderBuffers := r } ∧ SameUses c.renderBuffers r := by
  unfold waitForAttachedBuffer at h'
  split at h'
  · exact ⟨_, (Option.some.inj h').symm, .refl _⟩
  · exact waitForNativeBuffer_eq h'

theorem get_setSurface (s t : ℕ) (state : SurfaceState) :
    (c.setSurface s state).surfaces.get t =
      if t = s then (c.surfaces.get t).map fun _ => state else c.surfaces.get t :=
  Table.get_modify ..

/-- The part of a surface that names buffers. -/
def SurfaceState.buffers (x : SurfaceState) : Option ℕ × SurfaceAttachment :=
  (x.currentBufferId, x.pendingAttachment)

/-- What is left of a state once the attached buffer was copied and waited for. -/
theorem copied_eq {env : CommitEnvironment} {commit : SurfaceCommit} {copied : Bool}
    {c₁ c₂ : Context} (hcopy : copyAttachedBuffer c env commit = (copied, c₁))
    (hwait : waitForAttachedBuffer c₁ env commit = some c₂) :
    ∃ r, c₂ = { c with renderBuffers := r } ∧ SameUses c.renderBuffers r := by
  obtain ⟨r₁, heq₁, huses₁⟩ := copyAttachedBuffer_eq (c := c) env commit
  rw [hcopy] at heq₁
  obtain ⟨r₂, heq₂, huses₂⟩ := waitForAttachedBuffer_eq hwait
  dsimp only at heq₁
  subst heq₁ heq₂
  exact ⟨r₂, rfl, huses₁.trans huses₂⟩

/-- Recording the size of the shown buffer changes no attachment. -/
theorem updateSnapshot_eq (s : ℕ) (next : Option ℕ) : ∃ surfaces,
    (updateSnapshot c s next).2 = { c with surfaces } ∧
    (∀ t, t ≠ s → surfaces.get t = c.surfaces.get t) ∧
    ∀ t, (surfaces.get t).map SurfaceState.buffers =
      (c.surfaces.get t).map SurfaceState.buffers := by
  unfold updateSnapshot
  cases next with
  | none => exact ⟨_, rfl, fun _ _ => rfl, fun _ => rfl⟩
  | some buffer =>
    dsimp only
    split
    · exact ⟨_, rfl, fun _ _ => rfl, fun _ => rfl⟩
    · rename_i surface hsurface
      obtain ⟨old, hold, hset⟩ := Option.bind_eq_some_iff.mp hsurface
      refine ⟨_, rfl, fun t hne => (get_setSurface s t surface).trans (if_neg hne), fun t => ?_⟩
      refine (congrArg (Option.map SurfaceState.buffers) (get_setSurface s t surface)).trans ?_
      split_ifs with heq
      · subst heq
        unfold SurfaceState.setCurrentBufferDimensions at hset
        split at hset
        · rename_i content hcontent
          split_ifs at hset
          obtain rfl := Option.some.inj hset
          simp [hold, SurfaceState.buffers, SurfaceState.currentBufferId, hcontent]
        · simp at hset
      · rfl

/-- A replacement of buffers changes uses only, and nothing when it is refused. -/
theorem finalizeSurfaceAttachment_eq (previous next : Option ℕ) : ∃ r,
    (c.finalizeSurfaceAttachment previous next).2 = { c with renderBuffers := r } ∧
    (∀ h, r.phase h = c.renderBuffers.phase h) ∧
    ((c.finalizeSurfaceAttachment previous next).1 = false → r = c.renderBuffers) := by
  unfold Context.finalizeSurfaceAttachment
  split
  · rename_i p n _ _
    refine ⟨_, rfl, fun h => RenderBufferRegistry.phase_finalizeAttachment p n, fun hfailed => ?_⟩
    rcases RenderBufferRegistry.finalizeAttachment_cases (r := c.renderBuffers) p n with
      ⟨-, hok, -⟩ | ⟨-, heq⟩
    · exact absurd (hok.symm.trans hfailed) (by simp)
    · exact congrArg Prod.snd heq
  · exact ⟨_, rfl, fun _ => rfl, fun _ => rfl⟩

theorem finalizeCommit_eq (s : ℕ) (commit : SurfaceCommit) : ∃ surfaces r,
    (finalizeCommit c s commit).2 = { c with surfaces, renderBuffers := r } ∧
    (∀ t, t ≠ s → surfaces.get t = c.surfaces.get t) ∧
    (∀ t, (surfaces.get t).map SurfaceState.buffers =
      (c.surfaces.get t).map SurfaceState.buffers) ∧
    (∀ h, r.phase h = c.renderBuffers.phase h) ∧
    ((finalizeCommit c s commit).1 = false → r = c.renderBuffers) := by
  unfold finalizeCommit
  split
  · exact ⟨_, _, rfl, fun _ _ => rfl, fun _ => rfl, fun _ => rfl, fun _ => rfl⟩
  · rename_i previous next _
    obtain ⟨surfaces, hsnapshot, hother, hbuffers⟩ := updateSnapshot_eq (c := c) s next
    rcases hres : updateSnapshot c s next with ⟨updated, c₁⟩
    rw [hres] at hsnapshot
    obtain rfl : c₁ = { c with surfaces } := hsnapshot
    dsimp only
    split
    · obtain ⟨r, heq, hphase, hfailed⟩ :=
        finalizeSurfaceAttachment_eq (c := { c with surfaces }) previous next
      exact ⟨surfaces, r, heq, hother, hbuffers, hphase, hfailed⟩
    · exact ⟨surfaces, _, rfl, hother, hbuffers, fun _ => rfl, fun _ => rfl⟩

theorem finalizeCommit_unchanged {s : ℕ} {commit : SurfaceCommit}
    (ht : commit.attachmentTransition = none) : finalizeCommit c s commit = (true, c) := by
  simp [finalizeCommit, ht]

/-- What a replacement of buffers does to their uses. -/
theorem finalizeCommit_uses {s : ℕ} {commit : SurfaceCommit} {previous next : Option ℕ}
    (ht : commit.attachmentTransition = some (previous, next))
    (hfinal : finalizeCommit c s commit = (true, c')) :
    ∃ n, c.resolveAttachment next = some n ∧
      (∀ h, n = some h → ∃ detached,
        c'.renderBuffers.useState h = some (.awaitingRelease detached)) ∧
      ∀ h, n ≠ some h → RenderBufferRegistry.KeepsUse c.renderBuffers c'.renderBuffers h := by
  unfold finalizeCommit at hfinal
  simp only [ht] at hfinal
  obtain ⟨surfaces, hsnapshot, -⟩ := updateSnapshot_eq (c := c) s next
  rcases hres : updateSnapshot c s next with ⟨updated, c₁⟩
  rw [hres] at hsnapshot hfinal
  obtain rfl : c₁ = { c with surfaces } := hsnapshot
  dsimp only at hfinal
  split_ifs at hfinal
  · unfold Context.finalizeSurfaceAttachment at hfinal
    split at hfinal
    · rename_i p n hp hn
      obtain ⟨hok, rfl⟩ := Prod.mk.inj hfinal
      rcases RenderBufferRegistry.finalizeAttachment_cases (r := c.renderBuffers) p n with
        ⟨-, -, hnext, hother⟩ | ⟨-, hfailed⟩
      · exact ⟨n, hn, hnext, hother⟩
      · exact absurd (hok.symm.trans (congrArg Prod.fst hfailed)) (by simp)
    · simp at hfinal
  · simp at hfinal

/-- A replacement of a submitted buffer by a usable one is applied. -/
theorem finalizeCommit_succeeds {s : ℕ} {commit : SurfaceCommit} {previous next p n : Option ℕ}
    (ht : commit.attachmentTransition = some (previous, next))
    (hsurface : ∃ x, c.surfaces.get s = some x ∧ (next.isSome = true → x.currentBufferId = next))
    (hprevious : c.resolveAttachment previous = some p)
    (hnext : c.resolveAttachment next = some n)
    (hdetach : ∀ h, p = some h → c.renderBuffers.canDetach h = true)
    (hsubmit : ∀ h, n = some h → c.renderBuffers.canSubmit h = true) :
    (finalizeCommit c s commit).1 = true := by
  obtain ⟨x, hx, hcurrent⟩ := hsurface
  have hupdated : (updateSnapshot c s next).1 = true := by
    unfold updateSnapshot
    cases next with
    | none => simp [hx]
    | some buffer =>
      have hbuffer := hcurrent rfl
      rw [SurfaceState.currentBufferId, Option.bind_eq_some_iff] at hbuffer
      obtain ⟨content, hcontent, hid⟩ := hbuffer
      simp [hx, SurfaceState.setCurrentBufferDimensions, hcontent, hid]
  obtain ⟨surfaces, hsnapshot, -⟩ := updateSnapshot_eq (c := c) s next
  unfold finalizeCommit
  simp only [ht, hupdated, if_true, hsnapshot]
  unfold Context.finalizeSurfaceAttachment
  have hprevious' : Context.resolveAttachment { c with surfaces } previous = some p := hprevious
  have hnext' : Context.resolveAttachment { c with surfaces } next = some n := hnext
  simp only [hprevious', hnext']
  rcases RenderBufferRegistry.finalizeAttachment_cases (r := c.renderBuffers) p n with
    ⟨-, hok, -⟩ | ⟨hrefused, -⟩
  · exact hok
  · exact absurd ⟨.inr hdetach, hsubmit⟩ hrefused

/-! ## Exits -/

theorem buildSurfaceCommitMessages_quiet {maps : DamageMapping} {s : ℕ}
    {surfaceDamage bufferDamage : List DamageRect} {state : SurfaceState} {full : Bool}
    {messages : List HostTraffic}
    (hbuild : buildSurfaceCommitMessages maps c s surfaceDamage bufferDamage state full =
      some messages) : ∀ m ∈ messages, m.lifetimeEvent = none := by
  unfold buildSurfaceCommitMessages at hbuild
  split at hbuild
  · simp at hbuild
  · obtain rfl := Option.some.inj hbuild
    simp only [List.mem_append, List.mem_map, List.mem_singleton]
    rintro m (⟨rect, -, rfl⟩ | rfl) <;> rfl

/-- The state is that of a commit under way: only one surface changed, and no use. -/
def UnderWay (c : Context) (s : ℕ) (c' : Context) : Prop :=
  ∃ surfaces r fatal, (∀ t, t ≠ s → surfaces.get t = c.surfaces.get t) ∧
    (surfaces.get s).isSome = (c.surfaces.get s).isSome ∧ SameUses c.renderBuffers r ∧
    c' = { c with surfaces, renderBuffers := r, fatalProtocolError := fatal }

/-- The state has the same surfaces and uses again. -/
def Undone (c c' : Context) : Prop :=
  ∃ surfaces r fatal, (∀ t, surfaces.get t = c.surfaces.get t) ∧ SameUses c.renderBuffers r ∧
    c' = { c with surfaces, renderBuffers := r, fatalProtocolError := fatal }

theorem underWay_setSurface (s : ℕ) (state : SurfaceState) :
    UnderWay c s (c.setSurface s state) :=
  ⟨_, _, _, fun t hne => (get_setSurface s t state).trans (if_neg hne),
    by simp [Context.setSurface], .refl _, rfl⟩

theorem UnderWay.copy {s : ℕ} (hw : UnderWay c s c') (env : CommitEnvironment)
    (commit : SurfaceCommit) : UnderWay c s (copyAttachedBuffer c' env commit).2 := by
  obtain ⟨surfaces, r, fatal, hother, hself, huses, rfl⟩ := hw
  obtain ⟨r', heq, huses'⟩ := copyAttachedBuffer_eq
    (c := { c with surfaces, renderBuffers := r, fatalProtocolError := fatal }) env commit
  exact ⟨surfaces, r', fatal, hother, hself, huses.trans huses', heq⟩

theorem UnderWay.wait {s : ℕ} {c₂ : Context} (hw : UnderWay c s c') {env : CommitEnvironment}
    {commit : SurfaceCommit} (hwait : waitForAttachedBuffer c' env commit = some c₂) :
    UnderWay c s c₂ := by
  obtain ⟨surfaces, r, fatal, hother, hself, huses, rfl⟩ := hw
  obtain ⟨r', heq, huses'⟩ := waitForAttachedBuffer_eq hwait
  exact ⟨surfaces, r', fatal, hother, hself, huses.trans huses', heq⟩

theorem UnderWay.finalizeFailed {s : ℕ} (hw : UnderWay c s c') {commit : SurfaceCommit}
    (hfailed : (finalizeCommit c' s commit).1 = false) :
    UnderWay c s (finalizeCommit c' s commit).2 := by
  obtain ⟨surfaces, r, fatal, hother, hself, huses, rfl⟩ := hw
  obtain ⟨surfaces', r', heq, hother', hbuffers, -, hsame⟩ := finalizeCommit_eq
    (c := { c with surfaces, renderBuffers := r, fatalProtocolError := fatal }) s commit
  rw [hsame hfailed] at heq
  refine ⟨surfaces', r, fatal, fun t hne => (hother' t hne).trans (hother t hne), ?_, huses, heq⟩
  have hs := congrArg Option.isSome (hbuffers s)
  simpa [hself] using hs

theorem UnderWay.undo {s : ℕ} (hw : UnderWay c s c') :
    Undone c (c'.setSurface s (c.surfaceOrDefault s)) := by
  obtain ⟨surfaces, r, fatal, hother, hself, huses, rfl⟩ := hw
  refine ⟨_, r, fatal, fun t => ?_, huses, rfl⟩
  rw [Table.get_modify]
  split_ifs with heq
  · subst heq
    unfold Context.surfaceOrDefault
    cases hold : c.surfaces.get t <;> cases hnew : surfaces.get t <;> simp_all
  · exact hother t heq

theorem UnderWay.abandon {s : ℕ} (hw : UnderWay c s c') (fatal : Bool) : ∃ c₀, Undone c c₀ ∧
    abandonCommit c' s (c.surfaceOrDefault s).prepareCommit fatal = retireEligibleBuffers c₀ := by
  have hfatal : UnderWay c s
      { c' with fatalProtocolError := c'.fatalProtocolError || fatal } := by
    obtain ⟨surfaces, r, _, hother, hself, huses, rfl⟩ := hw
    exact ⟨surfaces, r, _, hother, hself, huses, rfl⟩
  exact ⟨_, hfatal.undo, rfl⟩

/-- The exits of a commit. One that sends nothing leaves the surfaces and all uses as they
were; a commit that is forwarded has passed every step before. -/
theorem onCommit_cases (maps : DamageMapping) (c : Context) (s : ℕ) (env : CommitEnvironment) :
    ((onCommit maps c s env).1 ≠ .forwarded ∧
      ((onCommit maps c s env).1 = .finalizeFailed → ∃ r, SameUses c.renderBuffers r ∧
        (finalizeCommit { c.setSurface s (c.surfaceOrDefault s).prepareCommit.state with
          renderBuffers := r } s (c.surfaceOrDefault s).prepareCommit).1 = false) ∧
      ∃ c₀, Undone c c₀ ∧
      ((onCommit maps c s env).2 = c₀ ∨ (onCommit maps c s env).2 = retireEligibleBuffers c₀)) ∨
    ((onCommit maps c s env).1 = .forwarded ∧
      (c.surfaceOrDefault s).prepareCommit.hasInvalidFractionalViewport = false ∧
      ∃ (messages : List HostTraffic) (c₁ c₂ c₃ : Context),
      buildSurfaceCommitMessages maps
        (c.setSurface s (c.surfaceOrDefault s).prepareCommit.state) s
        (c.surfaceOrDefault s).prepareCommit.surfaceDamage.toRects
        (c.surfaceOrDefault s).prepareCommit.bufferDamage.toRects
        (c.surfaceOrDefault s).prepareCommit.state
        (forceFullDamage (c.setSurface s (c.surfaceOrDefault s).prepareCommit.state)
          (c.surfaceOrDefault s).prepareCommit) = some messages ∧
      copyAttachedBuffer (c.setSurface s (c.surfaceOrDefault s).prepareCommit.state) env
        (c.surfaceOrDefault s).prepareCommit = (true, c₁) ∧
      waitForAttachedBuffer c₁ env (c.surfaceOrDefault s).prepareCommit = some c₂ ∧
      finalizeCommit c₂ s (c.surfaceOrDefault s).prepareCommit = (true, c₃) ∧
      (onCommit maps c s env).2 = retireEligibleBuffers (messages.foldl Context.queue c₃)) := by
  have hprepared : UnderWay c s (c.setSurface s (c.surfaceOrDefault s).prepareCommit.state) :=
    underWay_setSurface s _
  have hcopied := hprepared.copy env (c.surfaceOrDefault s).prepareCommit
  generalize hres : onCommit maps c s env = result
  unfold onCommit at hres
  dsimp only at hres
  split at hres
  · subst hres
    refine .inl ⟨by simp, by simp, _, ?_, .inl rfl⟩
    split
    · obtain ⟨surfaces, r, _, hother, hself, huses, heq⟩ := hprepared
      exact UnderWay.undo ⟨surfaces, r, true, hother, hself, huses, by rw [heq]; rfl⟩
    · exact hprepared.undo
  · rename_i hvalid
    split at hres
    · subst hres
      obtain ⟨c₀, hundone, heq⟩ := hprepared.abandon true
      exact .inl ⟨by simp, by simp, c₀, hundone, .inr heq⟩
    · rename_i messages hbuild
      rcases hcopy : copyAttachedBuffer
        (c.setSurface s (c.surfaceOrDefault s).prepareCommit.state) env
        (c.surfaceOrDefault s).prepareCommit with ⟨copied, c₁⟩
      simp only [hcopy] at hres hcopied
      cases copied with
      | false =>
        subst hres
        obtain ⟨c₀, hundone, heq⟩ := hcopied.abandon false
        exact .inl ⟨by simp, by simp, c₀, hundone, .inr heq⟩
      | true =>
        simp only [Bool.not_true, Bool.false_eq_true, if_false] at hres
        split at hres
        · subst hres
          obtain ⟨c₀, hundone, heq⟩ := hcopied.abandon true
          exact .inl ⟨by simp, by simp, c₀, hundone, .inr heq⟩
        · rename_i c₂ hwait
          have hwaited := hcopied.wait hwait
          rcases hfinal : finalizeCommit c₂ s (c.surfaceOrDefault s).prepareCommit with
            ⟨finalized, c₃⟩
          simp only [hfinal] at hres
          cases finalized with
          | false =>
            subst hres
            have hfailed := hwaited.finalizeFailed (congrArg Prod.fst hfinal)
            rw [hfinal] at hfailed
            obtain ⟨c₀, hundone, heq⟩ := hfailed.abandon true
            refine .inl ⟨by simp, fun _ => ?_, c₀, hundone, .inr heq⟩
            obtain ⟨r, hc₂, huses⟩ := copied_eq hcopy hwait
            exact ⟨r, huses, by rw [← hc₂, hfinal]⟩
          | true =>
            subst hres
            exact .inr ⟨rfl, Bool.eq_false_iff.mpr hvalid, messages, c₁, c₂, c₃, hbuild, rfl, hwait,
              hfinal, rfl⟩

end Sommelier
