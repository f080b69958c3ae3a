import Sommelier.Objects.HeldBuffers
import Sommelier.Objects.LiveObjects

/-!
# Surfaces agree with the host

What the proxy keeps of the double-buffered state of a surface is what the host makes of the
requests it is sent.

## Main definitions

* `SurfaceState.mirror`: the state of a surface as the host should have it.
* `SurfacesAgree`: the host has every live surface, and its viewport, as it should.
* `double_buffered_agreement`: it does in every run that destroys no attached buffer.
-/
namespace Sommelier

variable {maps : DamageMapping} {lost : Set ℕ} {c c' : Context} {k k' : HostCompositor}
  {g h s : ℕ}

/-! ## The state of a surface on the host -/

/-- A pending attachment as a change of the buffer of a surface. -/
def SurfaceAttachment.change : SurfaceAttachment → Option (Option ℕ)
  | unchanged => none
  | detach => some none
  | attach g => some (some g)

namespace SurfaceState
variable {x y : SurfaceState} {f f' : ℕ → Option ℕ}

/-- The double-buffered state of a surface as the host should have it. -/
def mirror (x : SurfaceState) (hostId : ℕ → Option ℕ) : HostSurface where
  scale := Patched.mirror ⟨x.currentBufferScale, x.pendingBufferScale⟩
  transform := Patched.mirror ⟨x.currentBufferTransform, x.pendingBufferTransform⟩
  viewport := Patched.mirror ⟨x.viewport, x.pendingViewport⟩
  buffer := (Patched.mirror ⟨x.currentBufferId, x.pendingAttachment.change⟩).map (·.bind hostId)

theorem mirror_new (f : ℕ → Option ℕ) : new.mirror f = .new := rfl

theorem mirror_eq (hstate : y.doubleBuffered = x.doubleBuffered)
    (hcurrent : y.currentBufferId = x.currentBufferId) : y.mirror f = x.mirror f := by
  have hscale := congrArg (fun z => (z.currentBufferScale, z.pendingBufferScale)) hstate
  have htransform := congrArg (fun z => (z.currentBufferTransform, z.pendingBufferTransform)) hstate
  have hviewport := congrArg (fun z => (z.viewport, z.pendingViewport)) hstate
  have hattachment := congrArg SurfaceState.pendingAttachment hstate
  simp only [doubleBuffered, Prod.mk.injEq] at hscale htransform hviewport hattachment
  simp [mirror, hscale, htransform, hviewport, hattachment, hcurrent]

/-- Only the host IDs of the buffers of the surface matter. -/
theorem mirror_congr (hcurrent : ∀ g, x.currentBufferId = some g → f' g = f g)
    (hattached : ∀ g, x.pendingAttachment = .attach g → f' g = f g) : x.mirror f' = x.mirror f := by
  have hbind : x.currentBufferId.bind f' = x.currentBufferId.bind f := by
    cases hbuffer : x.currentBufferId with
    | none => rfl
    | some g => exact hcurrent g hbuffer
  unfold mirror Patched.mirror Mirrored.map
  cases hpending : x.pendingAttachment <;> simp_all [SurfaceAttachment.change]

theorem mirror_prepareCommit (x : SurfaceState) (f : ℕ → Option ℕ) :
    x.prepareCommit.state.mirror f = (x.mirror f).commit := by
  unfold mirror prepareCommit currentBufferId
  cases x.pendingAttachment <;> rfl

/-- The end of a buffer the surface does not refer to. -/
theorem dropBuffer_mirror (hcurrent : ∀ g, x.currentBufferId = some g → f g ≠ some h)
    (hattached : ∀ g, x.pendingAttachment = .attach g → f g ≠ some h) :
    (x.mirror f).dropBuffer h = x.mirror f := by
  have hkeep : ∀ o : Option ℕ, o ≠ some h → o.filter (· != h) = o := by
    rintro (_ | b) hne
    · rfl
    · simpa using hne
  have hbuffer : x.currentBufferId.bind f ≠ some h := by
    cases hcurrent' : x.currentBufferId with
    | none => simp
    | some g => exact hcurrent g hcurrent'
  unfold mirror HostSurface.dropBuffer Patched.mirror Mirrored.map
  cases hpending : x.pendingAttachment <;>
    simp_all [SurfaceAttachment.change]

/-- The surface without its references to a buffer. -/
def forget (g : ℕ) (x : SurfaceState) : SurfaceState :=
  let x := x.clearCurrentBufferReference g
  if x.pendingAttachment = .attach g then { x with pendingAttachment := .detach } else x

/-- The host ID of a buffer that is forgotten is filtered out. -/
theorem forget_bind (hf : ∀ g', f g' = some h ↔ g' = g) (o : Option ℕ) :
    (if o = some g then none else o).bind f = (o.bind f).filter (· != h) := by
  cases o with
  | none => rfl
  | some g' =>
    by_cases heq : g' = g
    · simp [heq, (hf g).mpr rfl, Option.filter]
    · have hne : f g' ≠ some h := mt (hf g').mp heq
      cases hg' : f g' <;> simp_all [Option.filter]

theorem mirror_forget (hf : ∀ g', f g' = some h ↔ g' = g) (x : SurfaceState) :
    (x.forget g).mirror f = (x.mirror f).dropBuffer h := by
  have hstate := clearCurrentBufferReference_doubleBuffered x g
  have hcurrent := Presented.clearCurrentBufferReference_current x g
  have hpending := clearCurrentBufferReference_pending x g
  have hclear : (x.clearCurrentBufferReference g).mirror f = { x.mirror f with
      buffer := (Patched.mirror ⟨if x.currentBufferId = some g then none else x.currentBufferId,
        x.pendingAttachment.change⟩).map (·.bind f) } := by
    have hscale := congrArg (fun z => (z.currentBufferScale, z.pendingBufferScale)) hstate
    have htransform := congrArg (fun z => (z.currentBufferTransform, z.pendingBufferTransform))
      hstate
    have hviewport := congrArg (fun z => (z.viewport, z.pendingViewport)) hstate
    simp only [doubleBuffered, Prod.mk.injEq] at hscale htransform hviewport
    simp [mirror, hscale, htransform, hviewport, hcurrent, hpending]
  unfold forget
  dsimp only
  rw [hpending]
  split_ifs with hattached
  · have hdetached : ∀ z : SurfaceState, { z with pendingAttachment := .detach }.mirror f =
        { z.mirror f with buffer := ⟨z.currentBufferId.bind f, none⟩ } := fun _ => rfl
    rw [hdetached, hclear, hcurrent, forget_bind hf]
    simp [HostSurface.dropBuffer, mirror, Patched.mirror, Mirrored.map, hattached,
      SurfaceAttachment.change, (hf g).mpr rfl, Option.filter]
  · rw [hclear]
    unfold HostSurface.dropBuffer mirror Patched.mirror Mirrored.map
    cases hcase : x.pendingAttachment with
    | unchanged => simp [SurfaceAttachment.change, forget_bind hf]
    | detach => simp [SurfaceAttachment.change, forget_bind hf]
    | attach g' =>
      have hne : some g' ≠ some g := fun heq => hattached (by rw [hcase, Option.some.inj heq])
      have hkept := forget_bind hf (some g')
      rw [if_neg hne] at hkept
      simpa [SurfaceAttachment.change, forget_bind hf] using hkept

end SurfaceState

/-- The double-buffered state of a surface as the host should have it. -/
def Context.mirror (c : Context) (surfaceId : ℕ) : HostSurface :=
  (c.surfaceOrDefault surfaceId).mirror c.shadowTable.getHostId

/-- Only the host IDs of the buffers that surfaces refer to matter. -/
theorem mirror_of_refers (hsame : c'.surfaceOrDefault s = c.surfaceOrDefault s)
    (hrefs : ∀ g, c.Shows g ∨ c.Pends g →
      c'.shadowTable.getHostId g = c.shadowTable.getHostId g) : c'.mirror s = c.mirror s := by
  rw [Context.mirror, Context.mirror, hsame]
  exact SurfaceState.mirror_congr
    (fun g hg => hrefs g (.inl (shows_iff_buffersOf.mpr ⟨s, hg⟩)))
    fun g hg => hrefs g (.inr (pends_iff_buffersOf.mpr ⟨s, hg⟩))

/-! ## Agreement -/

/-- The host has the live surfaces and viewports as it should. -/
structure SurfacesAgree (c : Context) (k : HostCompositor) : Prop where
  surface : ∀ s h, c.shadowTable.liveHost .wlSurface s = some h → k.surfaces h = c.mirror s
  owned : ∀ v s, c.viewportToWlSurface.get v = some s → (c.mirror s).viewport.next ≠ none ∧
    ∃ hv hs, c.shadowTable.liveHost .wpViewport v = some hv ∧
      c.shadowTable.liveHost .wlSurface s = some hs ∧ k.viewports hv = some hs
  inert : ∀ v hv, c.shadowTable.liveHost .wpViewport v = some hv →
    c.viewportToWlSurface.get v = none → k.viewports hv = none
  alone : ∀ v v' s, c.viewportToWlSurface.get v = some s →
    c.viewportToWlSurface.get v' = some s → v = v'
  stored : ∀ s, c.surfaces.get s ≠ none → c.shadowTable.liveHost .wlSurface s ≠ none

namespace SurfacesAgree

/-- Steps that neither create nor end surfaces and viewports. -/
theorem update (ha : SurfacesAgree c k)
    (hlive : ∀ i, i.isDoubleBuffered = true → ∀ g,
      c'.shadowTable.liveHost i g = c.shadowTable.liveHost i g)
    (hviewports : c'.viewportToWlSurface = c.viewportToWlSurface)
    (hhost : k'.viewports = k.viewports)
    (hsurface : ∀ s h, c.shadowTable.liveHost .wlSurface s = some h →
      k'.surfaces h = c'.mirror s)
    (hnext : ∀ s, (c.mirror s).viewport.next ≠ none → (c'.mirror s).viewport.next ≠ none)
    (hstored : ∀ s, c'.surfaces.get s ≠ none →
      c.surfaces.get s ≠ none ∨ c.shadowTable.liveHost .wlSurface s ≠ none) :
        SurfacesAgree c' k' where
  surface s h hs := hsurface s h (by rwa [hlive _ rfl] at hs)
  owned v s hv := by
    rw [hviewports] at hv
    obtain ⟨hsome, hv', hs, hlv, hls, hk⟩ := ha.owned v s hv
    exact ⟨hnext s hsome, hv', hs, by rwa [hlive _ rfl], by rwa [hlive _ rfl], by rwa [hhost]⟩
  inert v hv hlv hnone := by
    rw [hlive _ rfl] at hlv
    rw [hhost]
    exact ha.inert v hv hlv (by rwa [hviewports] at hnone)
  alone v v' s hv hv' := by
    rw [hviewports] at hv hv'
    exact ha.alone v v' s hv hv'
  stored s hs := by
    rw [hlive _ rfl]
    exact (hstored s hs).elim (ha.stored s) id

/-- Steps that change no surface and keep the buffers that surfaces refer to. -/
theorem frame (ha : SurfacesAgree c k)
    (hlive : ∀ i, i.isDoubleBuffered = true → ∀ g,
      c'.shadowTable.liveHost i g = c.shadowTable.liveHost i g)
    (hsame : SameSurfaces c c')
    (hrefs : ∀ g, c.Shows g ∨ c.Pends g →
      c'.shadowTable.getHostId g = c.shadowTable.getHostId g) : SurfacesAgree c' k := by
  have hmirror : ∀ s, c'.mirror s = c.mirror s := fun s =>
    mirror_of_refers (hsame.surfaceOrDefault s) hrefs
  refine ha.update hlive hsame.viewports rfl (fun s h hs => ?_) (fun s hs => ?_) fun s hs => ?_
  · rw [hmirror, ha.surface s h hs]
  · rwa [hmirror]
  · exact .inl (by rwa [hsame.surfaces] at hs)

/-- The host is told to destroy a buffer no surface refers to. -/
theorem drop (ha : SurfacesAgree c k)
    (hfree : ∀ g, c.Shows g ∨ c.Pends g → c.shadowTable.guestToHost.get g ≠ some h) :
    SurfacesAgree c (k.apply (.destroyBuffer h)) := by
  refine ha.update (fun _ _ _ => rfl) rfl rfl (fun s hs hlive => ?_) (fun _ => id) fun _ => .inl
  refine (congrArg (HostSurface.dropBuffer h) (ha.surface s hs hlive)).trans ?_
  exact SurfaceState.dropBuffer_mirror
    (fun g hg => hfree g (.inl (shows_iff_buffersOf.mpr ⟨s, hg⟩)))
    fun g hg => hfree g (.inr (pends_iff_buffersOf.mpr ⟨s, hg⟩))

theorem drops (ha : SurfacesAgree c k) {buffers : List ℕ}
    (hfree : ∀ h ∈ buffers, ∀ g, c.Shows g ∨ c.Pends g →
      c.shadowTable.guestToHost.get g ≠ some h) :
    SurfacesAgree c ((buffers.map SurfaceRequest.destroyBuffer).foldl HostCompositor.apply k) := by
  induction buffers generalizing k with
  | nil => exact ha
  | cons h buffers ih =>
    obtain ⟨hh, hfree⟩ := List.forall_mem_cons.mp hfree
    exact ih (ha.drop hh) hfree

/-- A change of one surface on both sides. -/
theorem updateSurface (ha : SurfacesAgree c k) (hc : Consistent lost c)
    (hs : c.shadowTable.liveHost .wlSurface s = some h) {f : SurfaceState → SurfaceState}
    {F : HostSurface → HostSurface}
    (hf : (f (c.surfaceOrDefault s)).mirror c.shadowTable.getHostId = F (c.mirror s))
    (hnext : (c.mirror s).viewport.next ≠ none → (F (c.mirror s)).viewport.next ≠ none) :
    SurfacesAgree (c.updateSurface s f) (k.updateSurface h F) := by
  have hmirror : ∀ t, (c.updateSurface s f).mirror t =
      if t = s then F (c.mirror s) else c.mirror t := by
    intro t
    rw [Context.mirror, Context.surfaceOrDefault, Context.updateSurface, Table.get_set]
    split_ifs
    · exact hf
    · rfl
  refine ha.update (fun _ _ _ => rfl) rfl rfl (fun t ht hlive => ?_) (fun t => ?_) fun t ht => ?_
  · rw [hmirror]
    by_cases heq : t = s
    · subst heq
      obtain rfl := Option.some.inj (hs.symm.trans hlive)
      simp [HostCompositor.updateSurface, ha.surface t h hs]
    · have hne : ht ≠ h := by
        rintro rfl
        exact heq (hc.paired.guest_inj (ShadowTable.liveHost_eq_some.mp hlive).2.2
          (ShadowTable.liveHost_eq_some.mp hs).2.2)
      simp [HostCompositor.updateSurface, heq, hne, ha.surface t ht hlive]
  · rw [hmirror]
    split_ifs with heq
    · exact heq ▸ hnext
    · exact id
  · rw [Context.updateSurface, Table.get_set] at ht
    split_ifs at ht with heq
    · exact .inr (by simp [heq, hs])
    · exact .inl ht

/-- The pass for deferred destructors, and what it tells the host. -/
theorem retire (ha : SurfacesAgree c k) (hc : Consistent lost c) (hp : Presented c) :
    ∃ news, (retireEligibleBuffers c).traffic = news ++ c.traffic ∧ ∃ buffers : List ℕ,
      news.reverse.filterMap HostTraffic.surfaceRequest =
        buffers.map SurfaceRequest.destroyBuffer ∧
      (∀ h ∈ buffers, ∃ g, Retirable c g h) ∧
      SurfacesAgree (retireEligibleBuffers c)
        ((buffers.map SurfaceRequest.destroyBuffer).foldl HostCompositor.apply k) := by
  obtain ⟨hlive, news, hnews, buffers, hsent, hretired⟩ := retireEligibleBuffers_live hc
  have hf := (retireEligibleBuffers_spec hc).2
  refine ⟨news, hnews, buffers, hsent, hretired, ?_⟩
  refine (ha.drops fun h hh g hrefs hmap => ?_).frame hlive (retireEligibleBuffers_sameSurfaces c)
    fun g hrefs => ?_
  · obtain ⟨g', hr⟩ := hretired h hh
    obtain rfl := hc.paired.guest_inj hmap hr.1
    exact hrefs.elim (hr.unreferenced hp).1 (hr.unreferenced hp).2
  · obtain ⟨h, hmap⟩ : ∃ h, c.shadowTable.guestToHost.get g = some h := by
      rcases hrefs with hshows | hpends
      · exact (hp.shown g hshows).imp fun _ => And.left
      · exact (hc.attached g hpends).imp fun _ => And.left
    have hkept := (hf.kept g h hmap fun hr =>
      hrefs.elim (hr.unreferenced hp).1 (hr.unreferenced hp).2).1
    exact hkept.trans hmap.symm

end SurfacesAgree

/-! ## Messages about other objects -/

/-- The buffers that surfaces refer to are usable. -/
theorem refers_active (hc : Consistent lost c) (hp : Presented c) (hrefs : c.Shows g ∨ c.Pends g) :
    ∃ h, c.shadowTable.guestToHost.get g = some h ∧
      (c.renderBuffers.activeBuffer h).isSome = true := by
  rcases hrefs with hshows | hpends
  · exact (hp.shown g hshows).imp fun _ hd => ⟨hd.1, active_of_canDetach hd.2⟩
  · exact (hc.attached g hpends).imp fun _ hphase =>
      ⟨hphase.1, RenderBufferRegistry.activeBuffer_isSome_iff.mpr hphase.2⟩

/-- The sender of a request on a surface or viewport is live. -/
theorem liveHost_of_allowed {i : Interface} (hi : i.isDoubleBuffered = true)
    (hallowed : c.senderAllowed g i = true) : ∃ h, c.shadowTable.liveHost i g = some h ∧
      c.shadowTable.getHostId g = some h := by
  obtain ⟨hinterface, hlive, hmap | hlocal⟩ := senderAllowed_iff.mp hallowed
  · obtain ⟨h, hg⟩ := hmap
    exact ⟨h, ShadowTable.liveHost_eq_some.mpr ⟨hinterface, hlive, hg⟩, hg⟩
  · cases i <;> simp_all [Interface.isDoubleBuffered, Interface.isLocalOnly]

theorem forwardFor_eq {request : ℕ → SurfaceRequest} (hg : c.shadowTable.getHostId g = some h) :
    forwardFor c g .forward request = [request h] := by
  simp [forwardFor, hg]

theorem passedOn_eq_nil {m : Message} (hm : m.isAboutSurfaces = false)
    (hnew : ∀ sender g, m ≠ .newObject sender g .wlSurface) : m.passedOn c c' = [] := by
  cases m
  case newObject sender g i => cases i <;> simp_all [Message.passedOn]
  all_goals simp_all [Message.isAboutSurfaces, Message.passedOn]

theorem sentTraffic_same (htraffic : c'.traffic = c.traffic) : sentTraffic c c' = [] := by
  simp [sentTraffic, htraffic]

theorem step_other (ha : SurfacesAgree c k) (hc : Consistent lost c) (hp : Presented c)
    {m : Message} (hm : m.isAboutSurfaces = false)
    (hnew : ∀ sender g, m ≠ .newObject sender g .wlSurface)
    (h' : step maps c m = some c') :
    SurfacesAgree c' ((m.forwarded c c').foldl HostCompositor.apply k) := by
  have hbuffers : m.isAboutBuffers = false := by
    cases m <;> simp_all [Message.isAboutSurfaces, Message.isAboutBuffers]
  have hf := step_bufferFrame hc hbuffers h'
  have hsame := step_sameSurfaces hm h'
  have hrefs : ∀ g, c.Shows g ∨ c.Pends g →
      c'.shadowTable.getHostId g = c.shadowTable.getHostId g := by
    intro g hg
    obtain ⟨h, hmap, hactive⟩ := refers_active hc hp hg
    exact (hf.mapped g h hmap hactive).trans hmap.symm
  rw [Message.forwarded, passedOn_eq_nil hm hnew, List.nil_append]
  have hquiet : Aside c c' → SurfacesAgree c' (((sentTraffic c c').filterMap
      HostTraffic.surfaceRequest).foldl HostCompositor.apply k) := by
    intro haside
    rw [haside.sent]
    exact ha.frame haside.live hsame hrefs
  obtain ⟨hconf, hrequest | ⟨-, hevent⟩⟩ := step_eq_some.mp h'
  · exact hquiet (requestStep_aside hc hm hnew hrequest)
  · rcases eventStep_aside hc hconf hm hevent with haside | ⟨hlive, -, buffer, hfree, hsent⟩
    · exact hquiet haside
    · rw [hsent]
      refine (ha.drop fun g _ hmap => ?_).frame hlive hsame hrefs
      have hmapped := (hc.paired g buffer).mp hmap
      simp [(ShadowTable.hostIdFree_iff.mp hfree).1] at hmapped

/-- A new surface. -/
theorem step_newSurface (ha : SurfacesAgree c k) (hc : Consistent lost c) (hp : Presented c)
    {sender : ℕ} (h' : step maps c (.newObject sender g .wlSurface) = some c') :
    SurfacesAgree c' ((Message.forwarded c c' (.newObject sender g .wlSurface)).foldl
      HostCompositor.apply k) := by
  have hf := step_bufferFrame hc rfl h'
  have hsame := step_sameSurfaces rfl h'
  obtain ⟨-, hrequest | ⟨-, hevent⟩⟩ := step_eq_some.mp h'
  swap
  · simp [eventStep] at hevent
  obtain ⟨hallowed, hrequest⟩ := guarded_eq_some.mp hrequest
  simp only [Bool.and_eq_true] at hallowed
  obtain ⟨h, hfree, -, htraffic, hother, hself⟩ := mapNewId_live hc hallowed.2 hrequest
  obtain ⟨-, -, hg, -⟩ := ShadowTable.isGuestIdAvailable_iff.mp hallowed.2
  have hlive : ∀ i g', c'.shadowTable.liveHost i g' =
      if g' = g then (if i = .wlSurface then some h else none)
      else c.shadowTable.liveHost i g' := by
    intro i g'
    split_ifs with heq hi
    · rw [heq, hself, if_pos hi]
    · rw [heq, hself, if_neg hi]
    · exact hother.liveHost heq
  have hhost : c'.shadowTable.getHostId g = some h :=
    (ShadowTable.liveHost_eq_some.mp ((hself .wlSurface).trans (if_pos rfl))).2.2
  have hforwarded : Message.forwarded c c' (.newObject sender g .wlSurface) =
      [.createSurface h] := by
    rw [Message.forwarded, Message.passedOn, forwardFor_eq hhost,
      sentTraffic_eq [.create h] htraffic]
    rfl
  have hmirror : ∀ s, c'.mirror s = c.mirror s := by
    refine fun s => mirror_of_refers (hsame.surfaceOrDefault s) fun g' hrefs => ?_
    obtain ⟨h', hmap, hactive⟩ := refers_active hc hp hrefs
    exact (hf.mapped g' h' hmap hactive).trans hmap.symm
  have hne : ∀ {i g' h'}, c.shadowTable.liveHost i g' = some h' → g' ≠ g := by
    rintro i _ h' hsome rfl
    simp [liveHost_unmapped hg] at hsome
  have hunused : ∀ {i g' h'}, c.shadowTable.liveHost i g' = some h' → h' ≠ h := by
    rintro i g' _ hsome rfl
    have hmap := (hc.paired _ _).mp (ShadowTable.liveHost_eq_some.mp hsome).2.2
    simp [(ShadowTable.hostIdFree_iff.mp hfree).1] at hmap
  rw [hforwarded, List.foldl_cons, List.foldl_nil]
  constructor
  · intro s hs hls
    rw [hlive] at hls
    rw [hmirror]
    split_ifs at hls with heq
    · obtain rfl := Option.some.inj hls
      have hnone : c.surfaces.get s = none := by
        by_contra hsome
        obtain ⟨h', hls⟩ := Option.ne_none_iff_exists'.mp (ha.stored s hsome)
        exact hne hls heq
      simp [HostCompositor.apply, HostCompositor.updateSurface, Context.mirror,
        Context.surfaceOrDefault, hnone, SurfaceState.mirror_new]
    · simp [HostCompositor.apply, HostCompositor.updateSurface, hunused hls, ha.surface s hs hls]
  · intro v s hv
    rw [hsame.viewports] at hv
    obtain ⟨hsome, hv', hs, hlv, hls, hk⟩ := ha.owned v s hv
    refine ⟨by rwa [hmirror], hv', hs, ?_, ?_, hk⟩
    · rw [hlive, if_neg (hne hlv), hlv]
    · rw [hlive, if_neg (hne hls), hls]
  · intro v hv hlv hnone
    rw [hlive] at hlv
    rw [hsame.viewports] at hnone
    split_ifs at hlv with heq hi
    · exact absurd hi (by decide)
    · exact ha.inert v hv hlv hnone
  · intro v v' s hv hv'
    rw [hsame.viewports] at hv hv'
    exact ha.alone v v' s hv hv'
  · intro s hs
    rw [hsame.surfaces] at hs
    obtain ⟨h', hls⟩ := Option.ne_none_iff_exists'.mp (ha.stored s hs)
    simp [hlive, hne hls, hls]

/-! ## Requests on surfaces -/

/-- A request that only changes pending state of its surface. -/
theorem SurfacesAgree.request (ha : SurfacesAgree c k) (hc : Consistent lost c) {m : Message}
    (hallowed : c.senderAllowed s .wlSurface = true) {f : SurfaceState → SurfaceState}
    (request : ℕ → SurfaceRequest) (F : HostSurface → HostSurface)
    (hpassed : m.passedOn c (c.updateSurface s f) = forwardFor c s .forward request)
    (hrequest : ∀ h, k.apply (request h) = k.updateSurface h F)
    (hf : ∀ x hostId, (f x).mirror hostId = F (x.mirror hostId))
    (hnext : ∀ x, x.viewport.next ≠ none → (F x).viewport.next ≠ none) :
    SurfacesAgree (c.updateSurface s f)
      ((m.forwarded c (c.updateSurface s f)).foldl HostCompositor.apply k) := by
  obtain ⟨h, hlive, hhost⟩ := liveHost_of_allowed rfl hallowed
  have hsent : sentTraffic c (c.updateSurface s f) = [] := sentTraffic_same rfl
  rw [Message.forwarded, hpassed, forwardFor_eq hhost, hsent]
  simp only [List.filterMap_nil, List.append_nil, List.foldl_cons, List.foldl_nil, hrequest]
  exact ha.updateSurface hc hlive (hf _ _) (hnext _)

/-- Damage and offsets are no double-buffered state that is compared. -/
theorem SurfacesAgree.quietRequest (ha : SurfacesAgree c k) (hc : Consistent lost c) {m : Message}
    (hallowed : c.senderAllowed s .wlSurface = true) {f : SurfaceState → SurfaceState}
    (hpassed : m.passedOn c (c.updateSurface s f) = [])
    (hf : ∀ x hostId, (f x).mirror hostId = x.mirror hostId) :
    SurfacesAgree (c.updateSurface s f)
      ((m.forwarded c (c.updateSurface s f)).foldl HostCompositor.apply k) := by
  obtain ⟨h, hlive, -⟩ := liveHost_of_allowed rfl hallowed
  have hsent : sentTraffic c (c.updateSurface s f) = [] := sentTraffic_same rfl
  rw [Message.forwarded, hpassed, hsent]
  have hsame : k.updateSurface h id = k := by
    simp [HostCompositor.updateSurface]
  exact hsame ▸ ha.updateSurface hc hlive (hf _ _) id

theorem step_setBufferScale (ha : SurfacesAgree c k) (hc : Consistent lost c) {scale : ℤ}
    (h' : requestStep maps c (.setBufferScale s scale) = some c') :
    SurfacesAgree c' ((Message.forwarded c c' (.setBufferScale s scale)).foldl
      HostCompositor.apply k) := by
  obtain ⟨hallowed, h'⟩ := guarded_eq_some.mp h'
  unfold onSetBufferScale at h'
  split_ifs at h' with hpos
  · simp at h'
  · obtain ⟨-, rfl⟩ := settle_eq_some.mp h'
    dsimp only
    apply ha.request hc (senderAllowed_of_requestAllowed hallowed) (.setBufferScale · scale)
      fun x => { x with scale := x.scale.set scale }
    · simp [Message.passedOn, onSetBufferScale, hpos]
    · exact fun _ => rfl
    · exact fun _ _ => rfl
    · exact fun _ => id

theorem step_setBufferTransform (ha : SurfacesAgree c k) (hc : Consistent lost c) {transform : ℤ}
    (h' : requestStep maps c (.setBufferTransform s transform) = some c') :
    SurfacesAgree c' ((Message.forwarded c c' (.setBufferTransform s transform)).foldl
      HostCompositor.apply k) := by
  obtain ⟨hallowed, h'⟩ := guarded_eq_some.mp h'
  unfold onSetBufferTransform at h'
  split_ifs at h' with hrange
  · simp at h'
  · obtain ⟨-, rfl⟩ := settle_eq_some.mp h'
    dsimp only
    apply ha.request hc (senderAllowed_of_requestAllowed hallowed) (.setBufferTransform · transform)
      fun x => { x with transform := x.transform.set transform }
    · simp [Message.passedOn, onSetBufferTransform, hrange]
    · exact fun _ => rfl
    · exact fun _ _ => rfl
    · exact fun _ => id

/-- The host ID of an attachment, which is null only for a detachment. -/
theorem attached_host (hc : Consistent lost c) (hn : c.NonNull) {buffer : ℕ}
    (hbuffer : buffer = 0 ∨ c.objectAllowed buffer .wlBuffer = true) : ∃ hostBuffer,
    (if buffer = 0 then some 0 else c.shadowTable.getHostId buffer) = some hostBuffer ∧
      (if hostBuffer = 0 then none else some hostBuffer) =
        if buffer = 0 then none else c.shadowTable.getHostId buffer := by
  by_cases hzero : buffer = 0
  · exact ⟨0, by simp [hzero], by simp [hzero]⟩
  · obtain ⟨hi, hlive, -⟩ := senderAllowed_iff.mp (hbuffer.resolve_left hzero)
    obtain ⟨h, hg, -⟩ := hc.tracked buffer hi hlive
    have hne : h ≠ 0 := fun heq => hn buffer (heq ▸ hg)
    exact ⟨h, by simp [hzero, ShadowTable.getHostId, hg],
      by simp [hzero, hne, ShadowTable.getHostId, hg]⟩

/-- An attachment reaches the host after the ends of the buffers it superseded. -/
theorem step_attach (ha : SurfacesAgree c k) (hc : Consistent lost c) (hp : Presented c)
    (hh : c.HoldsAttached) (hn : c.NonNull) {buffer : ℕ} {x y : ℤ}
    (h' : requestStep maps c (.attach s buffer x y) = some c') :
    SurfacesAgree c' ((Message.forwarded c c' (.attach s buffer x y)).foldl
      HostCompositor.apply k) := by
  obtain ⟨hallowed, hbuffer, offset, rfl⟩ := attach_eq_some h'
  obtain ⟨h, hlive, hhost⟩ := liveHost_of_allowed rfl hallowed
  obtain ⟨hostBuffer, hattach, hnull⟩ := attached_host hc hn hbuffer
  have hf : ∀ z, (SurfaceState.attach buffer offset z).buffers =
      (z.currentBufferId, if buffer = 0 then .detach else .attach buffer) := fun _ => rfl
  have hattached : Consistent lost (c.updateSurface s (.attach buffer offset)) :=
    hc.attachTo hbuffer hf
  have hpresented : Presented (c.updateSurface s (.attach buffer offset)) :=
    hp.attach (hh.keepsShown (.attach s buffer x y)) fun _ => rfl
  have hupdated : SurfacesAgree (c.updateSurface s (.attach buffer offset))
      (k.apply (.attach h hostBuffer)) := by
    refine ha.updateSurface hc hlive (F := fun x => { x with
      buffer := x.buffer.set (if hostBuffer = 0 then none else some hostBuffer) }) ?_ id
    rw [hnull]
    unfold SurfaceState.mirror SurfaceState.attach Context.mirror SurfaceState.mirror
    by_cases hzero : buffer = 0
    · simp [hzero, SurfaceAttachment.change, Patched.mirror, Mirrored.map, Mirrored.set,
        SurfaceState.currentBufferId]
    · simp [hzero, SurfaceAttachment.change, Patched.mirror, Mirrored.map, Mirrored.set,
        SurfaceState.currentBufferId]
  have hpends : buffer ≠ 0 → (c.updateSurface s (.attach buffer offset)).Pends buffer := by
    intro hzero
    refine pends_iff_buffersOf.mpr ⟨s, ?_⟩
    simp [Context.buffersOf, Context.surfaceOrDefault, Context.updateSurface, SurfaceState.buffers,
      SurfaceState.attach, hzero]
  have hrequest : attachRequest (retireEligibleBuffers
      (c.updateSurface s (.attach buffer offset))).shadowTable s buffer =
        some (.attach h hostBuffer) := by
    have hs := (retireEligibleBuffers_live hattached).1 .wlSurface rfl s
    have hsurface : (retireEligibleBuffers
        (c.updateSurface s (.attach buffer offset))).shadowTable.getHostId s = some h :=
      (ShadowTable.liveHost_eq_some.mp (hs.trans hlive)).2.2
    have hbuffer' : (if buffer = 0 then some 0 else (retireEligibleBuffers
        (c.updateSurface s (.attach buffer offset))).shadowTable.getHostId buffer) =
          some hostBuffer := by
      by_cases hzero : buffer = 0
      · simpa [hzero] using hattach
      · rw [if_neg hzero] at hattach ⊢
        exact ((retireEligibleBuffers_spec hattached).2.kept buffer hostBuffer hattach
          fun hr => (hr.unreferenced hpresented).2 (hpends hzero)).1
    simp only [attachRequest, hsurface, hbuffer']
  have hsame : c.withAttachment s buffer offset =
      (c.updateSurface s (.attach buffer offset)).queue (.attach h hostBuffer) := by
    rw [Context.withAttachment, hrequest]
    rfl
  have htold : SurfacesAgree (c.withAttachment s buffer offset)
      (k.apply (.attach h hostBuffer)) := by
    rw [hsame]
    exact hupdated.frame (fun _ _ _ => rfl) ⟨rfl, rfl⟩ fun _ _ => rfl
  obtain ⟨news, hnews, buffers, hsent, -, hagrees⟩ := htold.retire
    (hc.withAttachment hbuffer offset)
    (hp.withAttachment (hh.keepsShown (.attach s buffer x y)) offset)
  have htraffic : (retireEligibleBuffers (c.withAttachment s buffer offset)).traffic =
      (news ++ [.attach h hostBuffer]) ++ c.traffic := by
    rw [hnews, hsame, List.append_assoc]
    rfl
  rw [Message.forwarded, sentTraffic_eq _ htraffic, List.reverse_append, List.filterMap_append,
    hsent]
  exact hagrees

/-- Agreement only depends on a few parts of the state. -/
theorem SurfacesAgree.congr (ha : SurfacesAgree c k) (htable : c'.shadowTable = c.shadowTable)
    (hsame : SameSurfaces c c') : SurfacesAgree c' k :=
  ha.frame (fun _ _ _ => by rw [htable]) hsame fun _ _ => by rw [htable]

/-- A commit that fails leaves the host alone. -/
theorem Undone.agrees (hu : Undone c c') (ha : SurfacesAgree c k) : SurfacesAgree c' k := by
  obtain ⟨surfaces, r, fatal, hget, huses, rfl⟩ := hu
  have hsame : ∀ t, Context.surfaceOrDefault
      { c with surfaces, renderBuffers := r, fatalProtocolError := fatal } t =
        c.surfaceOrDefault t := by
    simp [Context.surfaceOrDefault, hget]
  have hmirror := fun t => mirror_of_refers (hsame t) fun _ _ => rfl
  refine ha.update (fun _ _ _ => rfl) rfl rfl (fun t h hlive => ?_) (fun t => ?_) fun t ht => ?_
  · rw [hmirror, ha.surface t h hlive]
  · rw [hmirror]
    exact id
  · exact .inl (hget t ▸ ht)

/-- The host hears of a commit once, whatever damage it is told. -/
theorem commitMessages_requests {surfaceDamage bufferDamage : List DamageRect}
    {state : SurfaceState} {full : Bool} {messages : List HostTraffic}
    (hbuild : buildSurfaceCommitMessages maps c s surfaceDamage bufferDamage state full =
      some messages) (hhost : c.shadowTable.getHostId s = some h) :
    messages.filterMap HostTraffic.surfaceRequest = [.commit h] := by
  simp only [buildSurfaceCommitMessages, hhost, Option.some.injEq] at hbuild
  subst hbuild
  simp [HostTraffic.surfaceRequest, List.filterMap_map, Function.comp_def]

/-- A forwarded commit applies the pending state on both sides. -/
theorem SurfacesAgree.forwarded (ha : SurfacesAgree c k) (hc : Consistent lost c)
    (hlive : c.shadowTable.liveHost .wlSurface s = some h)
    (htable : c'.shadowTable = c.shadowTable)
    (hviewports : c'.viewportToWlSurface = c.viewportToWlSurface)
    (hcurrent : ∀ t, (c'.buffersOf t).1 =
      if t = s then (c.surfaceOrDefault s).prepareCommit.state.currentBufferId
      else (c.buffersOf t).1)
    (hstate : ∀ t, c'.doubleBuffered t =
      if t = s then (c.surfaceOrDefault s).prepareCommit.state.doubleBuffered
      else c.doubleBuffered t)
    (hstored : ∀ t, (c'.surfaces.get t).isSome = (c.surfaces.get t).isSome) :
    SurfacesAgree c' (k.apply (.commit h)) := by
  have hmirror : ∀ t, c'.mirror t = if t = s then (c.mirror s).commit else c.mirror t := by
    intro t
    have hcurrent := hcurrent t
    have hstate := hstate t
    rw [Context.mirror, htable]
    split_ifs at hstate hcurrent ⊢ with heq
    · exact (SurfaceState.mirror_eq hstate hcurrent).trans (SurfaceState.mirror_prepareCommit ..)
    · exact SurfaceState.mirror_eq hstate hcurrent
  refine ha.update (fun _ _ _ => by rw [htable]) hviewports rfl (fun t ht hlive' => ?_)
    (fun t => ?_) fun t ht => ?_
  · rw [hmirror]
    by_cases heq : t = s
    · subst heq
      obtain rfl := Option.some.inj (hlive.symm.trans hlive')
      simp [HostCompositor.apply, HostCompositor.updateSurface, ha.surface t h hlive]
    · have hne : ht ≠ h := by
        rintro rfl
        exact heq (hc.paired.guest_inj (ShadowTable.liveHost_eq_some.mp hlive').2.2
          (ShadowTable.liveHost_eq_some.mp hlive).2.2)
      simp [HostCompositor.apply, HostCompositor.updateSurface, heq, hne, ha.surface t ht hlive']
  · rw [hmirror]
    split_ifs with heq
    · subst heq
      exact id
    · exact id
  · have hsome := hstored t
    refine .inl fun hnone => ht ?_
    simpa [hnone] using hsome

theorem step_commit (ha : SurfacesAgree c k) (hc : Consistent lost c) (hp : Presented c)
    {env : CommitEnvironment} (h' : requestStep maps c (.commit s env) = some c') :
    SurfacesAgree c' ((Message.forwarded c c' (.commit s env)).foldl HostCompositor.apply k) := by
  obtain ⟨hallowed, h'⟩ := guarded_eq_some.mp h'
  obtain ⟨-, rfl⟩ := settle_eq_some.mp h'
  obtain ⟨h, hlive, hhost⟩ := liveHost_of_allowed rfl (senderAllowed_of_requestAllowed hallowed)
  have hstate := onCommit_doubleBuffered maps c s env
  have hpassed : Message.passedOn c (onCommit maps c s env).2 (.commit s env) = [] := rfl
  rw [Message.forwarded, hpassed, List.nil_append]
  rcases onCommit_cases maps c s env with ⟨-, -, c₀, hundone, heq | heq⟩ |
    ⟨hexit, -, messages, c₁, c₂, c₃, hbuild, hcopy, hwait, hfinal, heq⟩
  · have htraffic : c₀.traffic = c.traffic := by
      obtain ⟨surfaces, r, fatal, -, -, rfl⟩ := hundone
      rfl
    rw [heq, sentTraffic_same htraffic]
    exact hundone.agrees ha
  · have htraffic : c₀.traffic = c.traffic := by
      obtain ⟨surfaces, r, fatal, -, -, rfl⟩ := hundone
      rfl
    obtain ⟨news, hnews, buffers, hsent, -, hagrees⟩ :=
      (hundone.agrees ha).retire (hundone.consistent hc) (hp.undone hundone)
    rw [heq, sentTraffic_eq _ (hnews.trans (by rw [htraffic])), hsent]
    exact hagrees
  · have hpresented := hp.forwarded hcopy hwait hfinal
    obtain ⟨surfaces, r, rfl, hphase, hbuffers⟩ := forwarded_eq hcopy hwait hfinal
    have hqueued := (hc.forwarded hphase hbuffers).queue_messages
      (buildSurfaceCommitMessages_quiet hbuild)
    have hstate : ∀ t, (messages.foldl Context.queue
        { c with surfaces, renderBuffers := r }).doubleBuffered t =
        if t = s then (c.surfaceOrDefault s).prepareCommit.state.doubleBuffered
        else c.doubleBuffered t := by
      intro t
      rw [← (retireEligibleBuffers_sameSurfaces _).doubleBuffered, ← heq, hstate]
      simp [hexit]
    have hcommitted : SurfacesAgree
        (messages.foldl Context.queue { c with surfaces, renderBuffers := r })
        (k.apply (.commit h)) := by
      refine ha.forwarded hc hlive ?_ ?_ (fun t => ?_) hstate fun t => ?_
      · rw [queue_messages_eq]
      · rw [queue_messages_eq]
      · rw [queue_messages_eq]
        refine (congrArg Prod.fst (buffersOf_forwarded (r := r) hbuffers t)).trans ?_
        split_ifs
        · simp only [Context.buffersOf, SurfaceState.buffers, SurfaceState.prepareCommit]
          cases (c.surfaceOrDefault s).pendingAttachment <;> simp [SurfaceState.currentBufferId]
        · rfl
      · have hsome := congrArg Option.isSome ((hbuffers t).trans (buffers_prepared c s t))
        rw [queue_messages_eq]
        split_ifs at hsome <;> simpa using hsome
    obtain ⟨news, hnews, buffers, hsent, -, hagrees⟩ :=
      hcommitted.retire hqueued (hpresented.queue_messages messages)
    have htraffic : (retireEligibleBuffers (messages.foldl Context.queue
        { c with surfaces, renderBuffers := r })).traffic =
          (news ++ messages.reverse) ++ c.traffic := by
      rw [hnews, queue_messages_eq, List.append_assoc]
    rw [heq, sentTraffic_eq _ htraffic, List.reverse_append, List.reverse_reverse,
      List.filterMap_append, hsent, commitMessages_requests hbuild hhost]
    exact hagrees

/-! ## Viewports -/

theorem mirror_updateViewport {x : SurfaceState} {f : ViewportState → ViewportState}
    {hostId : ℕ → Option ℕ} (hnext : (x.mirror hostId).viewport.next ≠ none) :
    (x.updateViewport f).mirror hostId = { x.mirror hostId with
      viewport := (x.mirror hostId).viewport.set ((x.mirror hostId).viewport.next.map f) } := by
  have hviewport : some (f (((x.pendingViewport.bind id).or x.viewport).getD .new)) =
      (x.pendingViewport.getD x.viewport).map f := by
    simp only [SurfaceState.mirror, Patched.mirror] at hnext
    rcases hpending : x.pendingViewport with _ | (_ | viewport)
    · obtain ⟨viewport, hviewport⟩ := Option.ne_none_iff_exists'.mp
        (by simpa [hpending] using hnext)
      simp [hviewport]
    · simp [hpending] at hnext
    · simp
  simp only [SurfaceState.mirror, Patched.mirror, Mirrored.set, SurfaceState.updateViewport]
  rw [← hviewport]
  rfl

/-- A request on a viewport changes the crop and scale of its surface on both sides. -/
theorem SurfacesAgree.updateViewport (ha : SurfacesAgree c k) (hc : Consistent lost c) {v : ℕ}
    {valid : Bool} {f : ViewportState → ViewportState} (request : ℕ → SurfaceRequest)
    (hallowed : c.senderAllowed v .wpViewport = true)
    (hsafe : (Sommelier.updateViewport c v valid f).2.fatalProtocolError = false)
    (hrequest : ∀ hv, k.apply (request hv) = k.updateViewport hv (Option.map f)) :
    SurfacesAgree (Sommelier.updateViewport c v valid f).2
      ((forwardFor c v (Sommelier.updateViewport c v valid f).1 request).foldl
        HostCompositor.apply k) := by
  obtain ⟨hv, hlv, hhost⟩ := liveHost_of_allowed rfl hallowed
  unfold Sommelier.updateViewport at hsafe ⊢
  cases howner : c.viewportToWlSurface.get v with
  | none => simp [howner, Context.queueProtocolError] at hsafe
  | some s =>
    simp only [howner] at hsafe ⊢
    split_ifs at hsafe ⊢
    · simp [Context.queueProtocolError] at hsafe
    · obtain ⟨hnext, hv', hs, hlv', hls, hk⟩ := ha.owned v s howner
      obtain rfl := Option.some.inj (hlv.symm.trans hlv')
      rw [forwardFor_eq hhost, List.foldl_cons, List.foldl_nil, hrequest,
        HostCompositor.updateViewport, hk]
      refine ha.updateSurface hc hls (F := fun x => { x with
        viewport := x.viewport.set (x.viewport.next.map f) }) (mirror_updateViewport hnext)
          fun _ => ?_
      obtain ⟨viewport, hviewport⟩ := Option.ne_none_iff_exists'.mp hnext
      simp [Mirrored.set, hviewport]

theorem updateViewport_traffic (c : Context) (v : ℕ) (valid : Bool)
    (f : ViewportState → ViewportState) :
    (updateViewport c v valid f).2.traffic = c.traffic := by
  unfold updateViewport
  split
  · rfl
  · split <;> rfl

theorem step_setSource (ha : SurfacesAgree c k) (hc : Consistent lost c) {v : ℕ}
    {x y width height : ℤ}
    (h' : requestStep maps c (.setSource v x y width height) = some c') :
    SurfacesAgree c' ((Message.forwarded c c' (.setSource v x y width height)).foldl
      HostCompositor.apply k) := by
  obtain ⟨hallowed, h'⟩ := guarded_eq_some.mp h'
  obtain ⟨hsafe, rfl⟩ := settle_eq_some.mp h'
  have hsent : sentTraffic c (onSetSource c v x y width height).2 = [] :=
    sentTraffic_same (updateViewport_traffic ..)
  rw [Message.forwarded, hsent, List.filterMap_nil, List.append_nil]
  refine ha.updateViewport hc (.setSource · x y width height)
    (senderAllowed_of_requestAllowed hallowed) hsafe fun hv => ?_
  simp [HostCompositor.apply]

theorem step_setDestination (ha : SurfacesAgree c k) (hc : Consistent lost c) {v : ℕ}
    {width height : ℤ}
    (h' : requestStep maps c (.setDestination v width height) = some c') :
    SurfacesAgree c' ((Message.forwarded c c' (.setDestination v width height)).foldl
      HostCompositor.apply k) := by
  obtain ⟨hallowed, h'⟩ := guarded_eq_some.mp h'
  obtain ⟨hsafe, rfl⟩ := settle_eq_some.mp h'
  have hsent : sentTraffic c (onSetDestination c v width height).2 = [] :=
    sentTraffic_same (updateViewport_traffic ..)
  rw [Message.forwarded, hsent, List.filterMap_nil, List.append_nil]
  refine ha.updateViewport hc (.setDestination · width height)
    (senderAllowed_of_requestAllowed hallowed) hsafe fun hv => ?_
  simp [HostCompositor.apply]

/-- Different live objects have different host IDs. -/
theorem liveHost_inj (hc : Consistent lost c) {i j : Interface} {g' : ℕ}
    (hg : c.shadowTable.liveHost i g = some h) (hg' : c.shadowTable.liveHost j g' = some h) :
    g = g' :=
  hc.paired.guest_inj (ShadowTable.liveHost_eq_some.mp hg).2.2
    (ShadowTable.liveHost_eq_some.mp hg').2.2

/-- A new viewport starts a crop and scale of its surface. -/
theorem step_getViewport (ha : SurfacesAgree c k) (hc : Consistent lost c) (hp : Presented c)
    {viewporter v : ℕ} (h' : step maps c (.getViewport viewporter v s) = some c') :
    SurfacesAgree c' ((Message.forwarded c c' (.getViewport viewporter v s)).foldl
      HostCompositor.apply k) := by
  have hf := step_bufferFrame hc rfl h'
  obtain ⟨-, hrequest | ⟨-, hevent⟩⟩ := step_eq_some.mp h'
  swap
  · simp [eventStep] at hevent
  obtain ⟨hallowed, hrequest⟩ := guarded_eq_some.mp hrequest
  simp only [Bool.and_eq_true] at hallowed
  obtain ⟨hs, hls, hhost⟩ := liveHost_of_allowed rfl hallowed.2
  obtain ⟨-, -, hg, -⟩ := ShadowTable.isGuestIdAvailable_iff.mp hallowed.1.2
  obtain ⟨c₁, h₁, hrequest⟩ := Option.bind_eq_some_iff.mp hrequest
  obtain ⟨-, rfl⟩ := settle_eq_some.mp h₁
  by_cases hany : c.viewportToWlSurface.any (fun _ owner => owner == s) = true
  · simp [onGetViewport, hany, Context.queueProtocolError] at h₁
    simp [settle] at h₁
  have hunowned : ∀ v', c.viewportToWlSurface.get v' ≠ some s := by
    intro v' howner
    exact hany ((Table.any_eq_true _ _).mpr ⟨v', s, howner, by simp⟩)
  have hbooks := (hc.onGetViewport v s).1
  have heq : onGetViewport c v s = (.forward, Context.updateSurface
      { c with viewportToWlSurface := c.viewportToWlSurface.set v s } s fun surface =>
        { surface with pendingViewport := some (some .new) }) := by
    rw [onGetViewport, if_neg hany]
  rw [heq] at hrequest hbooks
  obtain ⟨hv, hfree, -, htraffic, hother, hself⟩ := mapNewId_live hbooks hallowed.1.2 hrequest
  have hsame := mapNewId_sameSurfaces hrequest
  have hlive : ∀ i g', c'.shadowTable.liveHost i g' =
      if g' = v then (if i = .wpViewport then some hv else none)
      else c.shadowTable.liveHost i g' := by
    intro i g'
    split_ifs with heq hi
    · rw [heq, hself, if_pos hi]
    · rw [heq, hself, if_neg hi]
    · exact hother.liveHost heq
  have hne : ∀ {i g' h'}, c.shadowTable.liveHost i g' = some h' → g' ≠ v := by
    rintro i _ h' hsome rfl
    simp [liveHost_unmapped hg] at hsome
  have hunused : ∀ {i g' h'}, c.shadowTable.liveHost i g' = some h' → h' ≠ hv := by
    intro i g' h' hsome heq
    have hmap := (hc.paired _ _).mp (ShadowTable.liveHost_eq_some.mp hsome).2.2
    have hnone : c.shadowTable.hostToGuest.get hv = none := (ShadowTable.hostIdFree_iff.mp hfree).1
    simp [heq, hnone] at hmap
  have hnew : c'.shadowTable.getHostId v = some hv :=
    (ShadowTable.liveHost_eq_some.mp ((hself .wpViewport).trans (if_pos rfl))).2.2
  have hforwarded : Message.forwarded c c' (.getViewport viewporter v s) =
      [.getViewport hv hs] := by
    have hsent : sentTraffic c c' = [.create hv] := sentTraffic_eq [.create hv] htraffic
    rw [Message.forwarded, Message.passedOn, hhost, heq, hsent]
    simp only [forwardFor_eq hnew]
    rfl
  have hmirror : ∀ t, c'.mirror t = if t = s then { c.mirror s with
      viewport := (c.mirror s).viewport.set (some .new) } else c.mirror t := by
    intro t
    have hkept : ∀ g, c.Shows g ∨ c.Pends g →
        c'.shadowTable.getHostId g = c.shadowTable.getHostId g := by
      intro g hrefs
      obtain ⟨h, hmap, hactive⟩ := refers_active hc hp hrefs
      exact (hf.mapped g h hmap hactive).trans hmap.symm
    have hcongr : ∀ (x : SurfaceState) (u : ℕ), x.buffers = c.buffersOf u →
        x.mirror c'.shadowTable.getHostId = x.mirror c.shadowTable.getHostId := by
      intro x u hx
      exact SurfaceState.mirror_congr
        (fun g hg => hkept g (.inl (shows_iff_buffersOf.mpr ⟨u, by rw [← hx]; exact hg⟩)))
        fun g hg => hkept g (.inr (pends_iff_buffersOf.mpr ⟨u, by rw [← hx]; exact hg⟩))
    rw [Context.mirror, hsame.surfaceOrDefault, Context.surfaceOrDefault, Context.updateSurface,
      Table.get_set]
    split_ifs with heq
    · subst heq
      exact hcongr _ t rfl
    · exact hcongr _ t rfl
  have hviewports : ∀ v', c'.viewportToWlSurface.get v' =
      if v' = v then some s else c.viewportToWlSurface.get v' := by
    intro v'
    rw [hsame.viewports, Context.updateSurface, Table.get_set]
  rw [hforwarded, List.foldl_cons, List.foldl_nil]
  constructor
  · intro t ht hlt
    rw [hlive] at hlt
    rw [hmirror]
    split_ifs at hlt with heq hi
    · exact absurd hi (by decide)
    · by_cases hts : t = s
      · subst hts
        obtain rfl := Option.some.inj (hls.symm.trans hlt)
        simp [HostCompositor.apply, HostCompositor.updateSurface, ha.surface t hs hls]
      · have hne' : ht ≠ hs := by
          rintro rfl
          exact hts (liveHost_inj hc hlt hls)
        simp [HostCompositor.apply, HostCompositor.updateSurface, hts, hne', ha.surface t ht hlt]
  · intro v' t howner
    rw [hviewports] at howner
    rw [hmirror]
    split_ifs at howner with hv'
    · obtain rfl := Option.some.inj howner
      refine ⟨by simp [Mirrored.set], hv, hs, ?_, ?_, ?_⟩
      · simp [hlive, hv']
      · rw [hlive, if_neg (hne hls), hls]
      · simp [HostCompositor.apply, HostCompositor.updateSurface]
    · obtain ⟨hnext, hv'', hs', hlv, hlt, hk⟩ := ha.owned v' t howner
      have hts : t ≠ s := by
        rintro rfl
        exact hunowned v' howner
      refine ⟨by rwa [if_neg hts], hv'', hs', ?_, ?_, ?_⟩
      · rw [hlive, if_neg hv', hlv]
      · rw [hlive, if_neg (hne hlt), hlt]
      · simp [HostCompositor.apply, HostCompositor.updateSurface, hunused hlv, hk]
  · intro v' hv'' hlv hnone
    rw [hviewports] at hnone
    rw [hlive] at hlv
    split_ifs at hnone hlv with hv'
    have hk := ha.inert v' hv'' hlv hnone
    simp [HostCompositor.apply, HostCompositor.updateSurface, hunused hlv, hk]
  · intro v₁ v₂ t h₁ h₂
    rw [hviewports] at h₁ h₂
    split_ifs at h₁ h₂ with heq₁ heq₂ heq₂
    · rw [heq₁, heq₂]
    · exact absurd (h₂.trans h₁.symm) (hunowned v₂)
    · exact absurd (h₁.trans h₂.symm) (hunowned v₁)
    · exact ha.alone v₁ v₂ t h₁ h₂
  · intro t ht
    rw [hsame.surfaces, Context.updateSurface, Table.get_set] at ht
    have hlt : c.shadowTable.liveHost .wlSurface t ≠ none := by
      split_ifs at ht with heq
      · simp [heq, hls]
      · exact ha.stored t ht
    obtain ⟨h', hlt⟩ := Option.ne_none_iff_exists'.mp hlt
    simp [hlive, hne hlt, hlt]

/-- The end of a viewport ends the crop and scale of its surface. -/
theorem step_destroyViewport (ha : SurfacesAgree c k) (hc : Consistent lost c)
    (hp : Presented c) {v : ℕ}
    (h' : step maps c (.destroyViewport v) = some c') :
    SurfacesAgree c' ((Message.forwarded c c' (.destroyViewport v)).foldl
      HostCompositor.apply k) := by
  have hf := step_bufferFrame hc rfl h'
  obtain ⟨-, hrequest | ⟨-, hevent⟩⟩ := step_eq_some.mp h'
  swap
  · simp [eventStep] at hevent
  obtain ⟨hallowed, hrequest⟩ := guarded_eq_some.mp hrequest
  obtain ⟨hv, hlv, hhost⟩ := liveHost_of_allowed rfl (senderAllowed_of_requestAllowed hallowed)
  obtain ⟨-, rfl⟩ := settle_eq_some.mp hrequest
  have htable := (hc.viewportOnDestroy v).2
  have hsame := destroyPlain_sameSurfaces (viewportOnDestroy c v).2 v
  obtain ⟨hother, hself, -, news, hnews, hquiet⟩ := destroyPlain_live (viewportOnDestroy c v).2 v
  have hlive : ∀ i g', (destroyPlain (viewportOnDestroy c v).2 v).shadowTable.liveHost i g' =
      if g' = v then none else c.shadowTable.liveHost i g' := by
    intro i g'
    split_ifs with heq
    · rw [heq, hself]
    · rw [hother.liveHost heq, htable]
  have hforwarded : Message.forwarded c (destroyPlain (viewportOnDestroy c v).2 v)
      (.destroyViewport v) = [.destroyViewport hv] := by
    have hkept : (viewportOnDestroy c v).2.traffic = c.traffic ∧
        (viewportOnDestroy c v).1 = .forward := by
      unfold viewportOnDestroy
      split <;> exact ⟨rfl, rfl⟩
    have hsent : sentTraffic c (destroyPlain (viewportOnDestroy c v).2 v) = news.reverse :=
      sentTraffic_eq news (by rw [hnews, hkept.1])
    rw [Message.forwarded, Message.passedOn, hkept.2, forwardFor_eq hhost, hsent,
      List.filterMap_reverse, hquiet]
    rfl
  have hkept : ∀ g, c.Shows g ∨ c.Pends g →
      (destroyPlain (viewportOnDestroy c v).2 v).shadowTable.getHostId g =
        c.shadowTable.getHostId g := by
    intro g hrefs
    obtain ⟨h, hmap, hactive⟩ := refers_active hc hp hrefs
    exact (hf.mapped g h hmap hactive).trans hmap.symm
  rw [hforwarded, List.foldl_cons, List.foldl_nil]
  have hviewports : ∀ v', (destroyPlain (viewportOnDestroy c v).2 v).viewportToWlSurface.get v' =
      if v' = v then none else c.viewportToWlSurface.get v' := by
    intro v'
    rw [hsame.viewports]
    unfold viewportOnDestroy
    cases howner : c.viewportToWlSurface.get v with
    | none =>
      split_ifs with heq
      · rw [heq, howner]
      · rfl
    | some s => simp
  have hmirror : ∀ t, (destroyPlain (viewportOnDestroy c v).2 v).mirror t =
      if c.viewportToWlSurface.get v = some t then { c.mirror t with
        viewport := (c.mirror t).viewport.set none }
      else c.mirror t := by
    intro t
    have hcongr : (destroyPlain (viewportOnDestroy c v).2 v).mirror t =
        ((viewportOnDestroy c v).2.surfaceOrDefault t).mirror c.shadowTable.getHostId := by
      rw [Context.mirror, hsame.surfaceOrDefault]
      have hbuffers := (viewportOnDestroy_frame (c := c) v).buffers t
      exact SurfaceState.mirror_congr
        (fun g hg => hkept g (.inl (shows_iff_buffersOf.mpr ⟨t, by rw [← hbuffers]; exact hg⟩)))
        fun g hg => hkept g (.inr (pends_iff_buffersOf.mpr ⟨t, by rw [← hbuffers]; exact hg⟩))
    rw [hcongr]
    unfold viewportOnDestroy
    cases howner : c.viewportToWlSurface.get v with
    | none => simp [Context.mirror]
    | some s =>
      by_cases heq : t = s
      · subst heq
        obtain ⟨x, hx⟩ : ∃ x, c.surfaces.get t = some x := by
          refine Option.ne_none_iff_exists'.mp fun hnone => (ha.owned v t howner).1 ?_
          simp [Context.mirror, Context.surfaceOrDefault, hnone, SurfaceState.mirror_new,
            HostSurface.new, Mirrored.new]
        simp only [Context.surfaceOrDefault, Table.get_modify, hx, if_true, Option.map_some,
          Option.getD_some, Context.mirror]
        rfl
      · simp [Context.surfaceOrDefault, Context.mirror, heq, Ne.symm heq]
  have hhosted : ∀ t ht, c.shadowTable.liveHost .wlSurface t = some ht →
      (k.viewports hv = some ht ↔ c.viewportToWlSurface.get v = some t) := by
    intro t ht hlt
    cases howner : c.viewportToWlSurface.get v with
    | none => simp [ha.inert v hv hlv howner]
    | some s =>
      obtain ⟨-, hv', hs, hlv', hls, hk⟩ := ha.owned v s howner
      obtain rfl := Option.some.inj (hlv.symm.trans hlv')
      rw [hk, Option.some.injEq, Option.some.injEq]
      exact ⟨fun heq => liveHost_inj hc hls (heq ▸ hlt),
        fun heq => Option.some.inj (hls.symm.trans (heq ▸ hlt))⟩
  constructor
  · intro t ht hlt
    rw [hlive] at hlt
    split_ifs at hlt
    rw [hmirror, HostCompositor.destroyViewport_surfaces, ha.surface t ht hlt]
    simp only [hhosted t ht hlt]
  · intro v' t howner
    rw [hviewports] at howner
    split_ifs at howner with hne
    obtain ⟨hnext, hv', ht, hlv', hlt, hk⟩ := ha.owned v' t howner
    have hnot : c.viewportToWlSurface.get v ≠ some t := fun howned =>
      hne (ha.alone v' v t howner howned)
    refine ⟨by rwa [hmirror, if_neg hnot], hv', ht, by rw [hlive, if_neg hne, hlv'], ?_, ?_⟩
    · rw [hlive, if_neg ?_, hlt]
      rintro rfl
      have hsurface := (ShadowTable.liveHost_eq_some.mp hlt).1
      simp [(ShadowTable.liveHost_eq_some.mp hlv).1] at hsurface
    · have hne' : hv' ≠ hv := fun heq => hne (liveHost_inj hc hlv' (heq ▸ hlv))
      rw [HostCompositor.destroyViewport_viewports, if_neg hne', hk]
  · intro v' hv' hlv' hnone
    rw [hlive] at hlv'
    rw [hviewports] at hnone
    split_ifs at hlv' hnone with hne
    have hne' : hv' ≠ hv := fun heq => hne (liveHost_inj hc hlv' (heq ▸ hlv))
    rw [HostCompositor.destroyViewport_viewports, if_neg hne']
    exact ha.inert v' hv' hlv' hnone
  · intro v₁ v₂ t h₁ h₂
    rw [hviewports] at h₁ h₂
    split_ifs at h₁ h₂
    exact ha.alone v₁ v₂ t h₁ h₂
  · intro t ht
    have hold : c.surfaces.get t ≠ none := by
      intro hnone
      rw [hsame.surfaces] at ht
      unfold viewportOnDestroy at ht
      cases howner : c.viewportToWlSurface.get v with
      | none => simp [howner, hnone] at ht
      | some s =>
        simp only [howner, Table.get_modify] at ht
        split_ifs at ht <;> simp [hnone] at ht
    obtain ⟨ht', hlt⟩ := Option.ne_none_iff_exists'.mp (ha.stored t hold)
    rw [hlive, if_neg ?_, hlt]
    · simp
    · rintro rfl
      have hsurface := (ShadowTable.liveHost_eq_some.mp hlt).1
      simp [(ShadowTable.liveHost_eq_some.mp hlv).1] at hsurface

/-! ## Ends of surfaces and buffers -/

theorem completeQueuedBufferDestroy_viewports (c : Context) (viewports : Table ℕ ℕ) (g h : ℕ) :
    Context.completeQueuedBufferDestroy { c with viewportToWlSurface := viewports } g h =
      ((c.completeQueuedBufferDestroy g h).1,
        { (c.completeQueuedBufferDestroy g h).2 with viewportToWlSurface := viewports }) := by
  unfold Context.completeQueuedBufferDestroy
  dsimp only
  split_ifs <;> rfl

theorem retireBuffer_viewports (c : Context) (viewports : Table ℕ ℕ) (g h : ℕ) :
    retireBuffer { c with viewportToWlSurface := viewports } g h =
      { retireBuffer c g h with viewportToWlSurface := viewports } := by
  have hqueue : queueHostBufferDestroy { c with viewportToWlSurface := viewports } h =
      { queueHostBufferDestroy c h with viewportToWlSurface := viewports } := rfl
  unfold retireBuffer retireDestroyedBufferMapping
  rw [hqueue, completeQueuedBufferDestroy_viewports]
  dsimp only
  split_ifs <;> rfl

/-- The pass for deferred destructors does not look at viewports. -/
theorem retireEligibleBuffers_viewports (c : Context) (viewports : Table ℕ ℕ) :
    retireEligibleBuffers { c with viewportToWlSurface := viewports } =
      { retireEligibleBuffers c with viewportToWlSurface := viewports } := by
  have hfold : ∀ (ids : List (ℕ × ℕ)) (c : Context),
      ids.foldl (fun c ids => retireBuffer c ids.1 ids.2)
          { c with viewportToWlSurface := viewports } =
        { ids.foldl (fun c ids => retireBuffer c ids.1 ids.2) c with
          viewportToWlSurface := viewports } := by
    intro ids
    induction ids with
    | nil => exact fun _ => rfl
    | cons p ids ih =>
      intro c
      rw [List.foldl_cons, List.foldl_cons, retireBuffer_viewports]
      exact ih _
  exact hfold (retirementCandidates c) c

/-- The end of a surface ends the effect of its viewport. -/
theorem SurfacesAgree.eraseSurface (ha : SurfacesAgree c k) (hc : Consistent lost c)
    (hlive : c.shadowTable.liveHost .wlSurface s = some h)
    (hsurfaces : c'.surfaces = c.surfaces.erase s)
    (htable : c'.shadowTable = (c.awaitDeleteId s).shadowTable)
    (hviewports : c'.viewportToWlSurface =
      c.viewportToWlSurface.retain fun _ owner => owner != s) :
    SurfacesAgree c' (k.apply (.destroySurface h)) := by
  have hlives : ∀ i g, c'.shadowTable.liveHost i g =
      if g = s then none else c.shadowTable.liveHost i g := by
    intro i g
    rw [htable]
    by_cases heq : g = s <;> simp [ShadowTable.liveHost, Context.awaitDeleteId, heq]
  have hmirror : ∀ t ≠ s, c'.mirror t = c.mirror t := by
    intro t hne
    rw [Context.mirror, Context.surfaceOrDefault, hsurfaces, Table.get_erase, if_neg hne, htable]
    rfl
  have howned : ∀ v t, c'.viewportToWlSurface.get v = some t →
      c.viewportToWlSurface.get v = some t ∧ t ≠ s := by
    intro v t hv
    rw [hviewports, Table.get_retain, Option.filter_eq_some_iff] at hv
    simpa using hv
  constructor
  · intro t ht hlt
    rw [hlives] at hlt
    split_ifs at hlt with hne
    rw [hmirror t hne]
    exact ha.surface t ht hlt
  · intro v t hv
    obtain ⟨hold, hne⟩ := howned v t hv
    obtain ⟨hnext, hv', ht, hlv, hlt, hk⟩ := ha.owned v t hold
    refine ⟨by rwa [hmirror t hne], hv', ht, ?_, by rw [hlives, if_neg hne, hlt], ?_⟩
    · rw [hlives, if_neg ?_, hlv]
      rintro rfl
      have hsurface := (ShadowTable.liveHost_eq_some.mp hlive).1
      simp [(ShadowTable.liveHost_eq_some.mp hlv).1] at hsurface
    · have hne' : ht ≠ h := fun heq => hne (liveHost_inj hc hlt (heq ▸ hlive))
      simp [HostCompositor.apply, hk, hne', Option.filter]
  · intro v hv hlv hnone
    rw [hlives] at hlv
    split_ifs at hlv
    cases hold : c.viewportToWlSurface.get v with
    | none => simp [HostCompositor.apply, ha.inert v hv hlv hold]
    | some t =>
      obtain rfl : t = s := by
        by_contra hne
        rw [hviewports, Table.get_retain, hold] at hnone
        simp [Option.filter, hne] at hnone
      obtain ⟨-, hv', ht, hlv', hlt, hk⟩ := ha.owned v t hold
      obtain rfl := Option.some.inj (hlv.symm.trans hlv')
      obtain rfl := Option.some.inj (hlive.symm.trans hlt)
      simp [HostCompositor.apply, hk, Option.filter]
  · intro v v' t hv hv'
    exact ha.alone v v' t (howned v t hv).1 (howned v' t hv').1
  · intro t ht
    rw [hsurfaces, Table.get_erase] at ht
    split_ifs at ht with hne
    · exact absurd rfl ht
    · rw [hlives, if_neg hne]
      exact ha.stored t ht

theorem step_destroySurface (ha : SurfacesAgree c k) (hc : Consistent lost c) (hp : Presented c)
    (hh : c.HoldsAttached) (h' : requestStep maps c (.destroySurface s) = some c') :
    SurfacesAgree c' ((Message.forwarded c c' (.destroySurface s)).foldl
      HostCompositor.apply k) := by
  obtain ⟨hallowed, h'⟩ := guarded_eq_some.mp h'
  obtain ⟨-, rfl⟩ := settle_eq_some.mp h'
  have hsender := senderAllowed_of_requestAllowed hallowed
  obtain ⟨h, hlive, hhost⟩ := liveHost_of_allowed rfl hsender
  obtain ⟨h', r, fatal, c₁, hmap, hphase, huses, hc₁, -, hmarked, heq⟩ :=
    surfaceOnDestroy_eq hc hsender
  obtain rfl := Option.some.inj (hhost.symm.trans hmap)
  -- The pass may as well come after the viewports of the surface are forgotten.
  obtain ⟨c₂, hc₂⟩ : ∃ c₂, c₂ = { c₁.awaitDeleteId s with
    viewportToWlSurface := c.viewportToWlSurface.retain fun _ owner => owner != s } := ⟨_, rfl⟩
  have hretire : (surfaceOnDestroy c s).2 = retireEligibleBuffers c₂ := by
    have hviewports : (retireEligibleBuffers c₁).viewportToWlSurface = c.viewportToWlSurface := by
      rw [(retireEligibleBuffers_sameSurfaces c₁).viewports, hc₁]
      rfl
    rw [heq, hviewports, hc₂]
    exact (retireEligibleBuffers_viewports (c₁.awaitDeleteId s) _).symm
  have hconsistent : Consistent lost c₂ := by
    rw [hc₂]
    exact hmarked.frame ⟨rfl, rfl, rfl, rfl, fun _ => rfl⟩ fun _ => .inl
  subst hc₁
  have hpresented : Presented c₂ := by
    rw [hc₂]
    exact hp.eraseSurface hc (hh.keepsShown (.destroySurface s)) rfl rfl hphase huses
  have herased : SurfacesAgree c₂ (k.apply (.destroySurface h)) := by
    rw [hc₂]
    exact ha.eraseSurface hc hlive rfl rfl rfl
  obtain ⟨news, hnews, buffers, hsent, -, hagrees⟩ := herased.retire hconsistent hpresented
  have htraffic : (retireEligibleBuffers c₂).traffic = (news ++ [.destroy h]) ++ c.traffic := by
    rw [hnews, hc₂, List.append_assoc]
    rfl
  have hforwarded : Message.forwarded c (retireEligibleBuffers c₂) (.destroySurface s) =
      .destroySurface h :: buffers.map SurfaceRequest.destroyBuffer := by
    rw [Message.forwarded, Message.passedOn, forwardFor_eq hhost, sentTraffic_eq _ htraffic,
      List.reverse_append, List.filterMap_append, hsent]
    rfl
  rw [hretire, hforwarded]
  exact hagrees

theorem surfaceOrDefault_clear (c : Context) (g t : ℕ) :
    (clearSurfaceBufferReferences c g).surfaceOrDefault t = (c.surfaceOrDefault t).forget g := by
  unfold Context.surfaceOrDefault clearSurfaceBufferReferences
  rw [Table.get_mapValues]
  cases c.surfaces.get t <;> rfl

/-- The end of a buffer ends its uses on both sides. -/
theorem SurfacesAgree.endBuffer (ha : SurfacesAgree c k) (hc : Consistent lost c)
    (hrefs : ∀ g', c.Shows g' ∨ c.Pends g' → ∃ h', c.shadowTable.guestToHost.get g' = some h')
    (hg : c.shadowTable.guestToHost.get g = some h)
    (hphase : c.renderBuffers.phase h = some .guestAlive ∨
      c.renderBuffers.phase h = some .guestDestroyed)
    (hother : ∀ i, i.isDoubleBuffered = true → c.shadowTable.interfaces.get g ≠ some i) :
    ∃ news, (clearSurfaceBufferReferences (retireBuffer c g h) g).traffic = news ++ c.traffic ∧
      news.reverse.filterMap HostTraffic.surfaceRequest = [.destroyBuffer h] ∧
      SurfacesAgree (clearSurfaceBufferReferences (retireBuffer c g h) g)
        (k.apply (.destroyBuffer h)) := by
  have hids : ∀ p ∈ [(g, h)], ∀ i, i.isDoubleBuffered = true →
      c.shadowTable.interfaces.get p.1 ≠ some i := by simpa using hother
  obtain ⟨hlive, news, hnews, hsent⟩ := retireBuffers_live hids
  have hf := retireBuffer_frame hc hg hphase
  have hsame := retireBuffer_sameSurfaces c g h
  have hhost : ∀ g', c.shadowTable.getHostId g' = some h ↔ g' = g := fun g' =>
    ⟨fun hmap => hc.paired.guest_inj hmap hg, fun heq => heq ▸ hg⟩
  have hkept : ∀ g' ≠ g, c.Shows g' ∨ c.Pends g' →
      (retireBuffer c g h).shadowTable.getHostId g' = c.shadowTable.getHostId g' := by
    intro g' hne hrefs'
    obtain ⟨h', hmap⟩ := hrefs g' hrefs'
    exact (hf.kept g' h' hmap fun heq => hne (Prod.mk.inj heq).1).1.trans hmap.symm
  have hmirror : ∀ t, (clearSurfaceBufferReferences (retireBuffer c g h) g).mirror t =
      (c.mirror t).dropBuffer h := by
    intro t
    have hbuffers := Presented.buffersOf_clearReferences c g t
    rw [Context.buffersOf, surfaceOrDefault_clear] at hbuffers
    obtain ⟨hcurrent, hpending⟩ := Prod.mk.inj hbuffers
    rw [Context.mirror, surfaceOrDefault_clear, hsame.surfaceOrDefault t]
    refine (SurfaceState.mirror_congr (fun g' hg' => ?_) fun g' hg' => ?_).trans
      (SurfaceState.mirror_forget hhost (c.surfaceOrDefault t))
    · rw [hcurrent] at hg'
      split_ifs at hg' with hne
      exact hkept g' (fun heq => hne (heq ▸ hg')) (.inl (shows_iff_buffersOf.mpr ⟨t, hg'⟩))
    · rw [hpending] at hg'
      split_ifs at hg' with hne
      exact hkept g' (fun heq => hne (heq ▸ hg')) (.inr (pends_iff_buffersOf.mpr ⟨t, hg'⟩))
  refine ⟨news, hnews, hsent, ha.update hlive hsame.viewports rfl (fun t ht hlt => ?_)
    (fun t hnext => ?_) fun t ht => .inl ?_⟩
  · rw [hmirror, ← ha.surface t ht hlt]
    rfl
  · rw [hmirror]
    exact hnext
  · rw [← hsame.surfaces]
    simpa [clearSurfaceBufferReferences] using ht

theorem step_destroyBuffer (ha : SurfacesAgree c k) (hc : Consistent lost c) (hp : Presented c)
    (h' : requestStep maps c (.destroyBuffer g) = some c') :
    SurfacesAgree c' ((Message.forwarded c c' (.destroyBuffer g)).foldl
      HostCompositor.apply k) := by
  obtain ⟨hallowed, h'⟩ := guarded_eq_some.mp h'
  obtain ⟨-, rfl⟩ := settle_eq_some.mp h'
  have hsender := senderAllowed_of_requestAllowed hallowed
  obtain ⟨hi, hlive, -⟩ := senderAllowed_iff.mp hsender
  have hother : ∀ i, i.isDoubleBuffered = true → c.shadowTable.interfaces.get g ≠ some i := by
    rintro i hdouble hbuffer
    obtain rfl := Option.some.inj (hi.symm.trans hbuffer)
    simp [Interface.isDoubleBuffered] at hdouble
  have hpassed : Message.passedOn c (bufferOnDestroy c g).2 (.destroyBuffer g) = [] := rfl
  rw [Message.forwarded, hpassed, List.nil_append]
  obtain ⟨h, buffer, hg, he, ⟨-, -, heq⟩ | ⟨-, -, heq⟩⟩ := bufferOnDestroy_cases hc hsender
  · obtain ⟨versions, hretire⟩ :=
      ShadowTable.retireGuestObject_mapped hg hi (hc.unlisted g h hg hlive)
    rw [sentTraffic_same (by rw [heq]), heq]
    refine ha.frame (fun i hdouble g' => ?_) ⟨rfl, rfl⟩ fun g' _ => ?_
    · by_cases hsame : g' = g
      · subst hsame
        simp [ShadowTable.liveHost, hother i hdouble, hretire]
      · exact (ShadowTable.retireGuestObject_sameBut _ g).liveHost hsame
    · rw [hretire]
      rfl
  · obtain ⟨news, hnews, hsent, hagrees⟩ := ha.endBuffer hc
      (fun g' hrefs => (refers_active hc hp hrefs).imp fun _ => And.left) hg
      (.inl (by simp [RenderBufferRegistry.phase, he, RenderBuffer.phase])) hother
    rw [heq, sentTraffic_eq news hnews, hsent]
    exact hagrees

theorem step_release (ha : SurfacesAgree c k) (hc : Consistent lost c) (hp : Presented c)
    (h' : eventStep c (.release h) = some c') :
    SurfacesAgree c' ((Message.forwarded c c' (.release h)).foldl HostCompositor.apply k) := by
  rw [eventStep] at h'
  have hpassed : Message.passedOn c c' (.release h) = [] := rfl
  rw [Message.forwarded, hpassed, List.nil_append]
  obtain rfl | ⟨-, -, h'⟩ := deliver_eq_some h'
  · rw [sentTraffic_same rfl]
    exact ha
  obtain ⟨-, rfl⟩ := settle_eq_some.mp h'
  have hphase : ∀ h', (c.renderBuffers.release h).2.phase h' = c.renderBuffers.phase h' :=
    fun _ => RenderBufferRegistry.phase_release
  obtain heq | ⟨g, hg, ⟨-, heq⟩ | ⟨hdestroyed, -, heq⟩⟩ := bufferOnRelease_cases hc h
  · rw [sentTraffic_same (by rw [heq]), heq]
    exact ha
  · rw [sentTraffic_same (by rw [heq]), heq]
    exact ha.congr rfl ⟨rfl, rfl⟩
  · have hreleased : SurfacesAgree { c with renderBuffers := (c.renderBuffers.release h).2 } k :=
      ha.congr rfl ⟨rfl, rfl⟩
    obtain ⟨news, hnews, hsent, hagrees⟩ := hreleased.endBuffer (hc.withRenderBuffers hphase)
      (fun g' hrefs => (refers_active hc hp hrefs).imp fun _ => And.left) hg
      (.inr ((hphase h).trans hdestroyed)) (by simp [(hc.deferred g h hg hdestroyed).2.1])
    rw [heq, sentTraffic_eq (c := c) news hnews, hsent]
    exact hagrees

/-! ## Runs -/

/-- Every step keeps the agreement. -/
theorem step_agrees (ha : SurfacesAgree c k) (hc : Consistent lost c) (hp : Presented c)
    (hh : c.HoldsAttached) (hn : c.NonNull) {m : Message} (h' : step maps c m = some c') :
    SurfacesAgree c' ((m.forwarded c c').foldl HostCompositor.apply k) := by
  by_cases hother : m.isAboutSurfaces = false
  · by_cases hnew : ∃ sender g, m = .newObject sender g .wlSurface
    · obtain ⟨sender, g, rfl⟩ := hnew
      exact step_newSurface ha hc hp h'
    · push Not at hnew
      exact step_other ha hc hp hother hnew h'
  have hstep := h'
  obtain ⟨-, hrequest | ⟨-, hevent⟩⟩ := step_eq_some.mp h'
  · cases m
    case attach => exact step_attach ha hc hp hh hn hrequest
    case damage | damageBuffer | offset =>
      obtain ⟨hallowed, hrequest⟩ := guarded_eq_some.mp hrequest
      obtain ⟨-, rfl⟩ := settle_eq_some.mp hrequest
      dsimp only [onDamage, onDamageBuffer, onOffset]
      refine ha.quietRequest hc (senderAllowed_of_requestAllowed hallowed) ?_ fun _ _ => ?_ <;> rfl
    case setBufferScale => exact step_setBufferScale ha hc hrequest
    case setBufferTransform => exact step_setBufferTransform ha hc hrequest
    case commit => exact step_commit ha hc hp hrequest
    case getViewport => exact step_getViewport ha hc hp hstep
    case setSource => exact step_setSource ha hc hrequest
    case setDestination => exact step_setDestination ha hc hrequest
    case destroyViewport => exact step_destroyViewport ha hc hp hstep
    case destroySurface => exact step_destroySurface ha hc hp hh hrequest
    case destroyBuffer => exact step_destroyBuffer ha hc hp hrequest
    case release => simp [requestStep] at hrequest
    all_goals exact absurd rfl hother
  · cases m
    case release => exact step_release ha hc hp hevent
    all_goals simp_all [eventStep, Message.isAboutSurfaces]

theorem agrees_new : SurfacesAgree .new .new := by
  have hlive : ∀ i, i.isDoubleBuffered = true → ∀ g,
      Context.new.shadowTable.liveHost i g = none := by
    intro i hi g
    have hinterfaces : Context.new.shadowTable.interfaces.get g =
        if g = 1 then some .wlDisplay else none := by
      simp [Context.new, ShadowTable.new, ShadowTable.mapId, ShadowTable.trackInterface]
    rw [ShadowTable.liveHost, if_neg]
    rintro ⟨hget, -⟩
    rw [hinterfaces] at hget
    split_ifs at hget
    obtain rfl := Option.some.inj hget
    simp [Interface.isDoubleBuffered] at hi
  constructor
  · intro s h hs
    simp [hlive .wlSurface rfl] at hs
  · intro v s hv
    simp [Context.new] at hv
  · exact fun _ _ _ _ => rfl
  · intro v v' s hv
    simp [Context.new] at hv
  · intro s hs
    simp [Context.new] at hs

/-- The guest destroys no attached buffer. -/
def HostedSession.KeepsAttached (x : HostedSession) (m : Message) : Prop :=
  x.context.KeepsAttached m

/-- The host of a session only listens. -/
theorem context_of_hosted {x : HostedSession}
    (hr : (hostedSystem maps).ReachableWhile HostedSession.KeepsAttached x) :
    (objectSystem maps).ReachableWhile Context.KeepsAttached x.context := by
  refine hr.map (f := HostedSession.context) (fun x hinit => ?_)
    fun x m y hkeeps hstep => ⟨hkeeps, ?_⟩
  · rw [show x = ⟨.new, .new⟩ from hinit]
    rfl
  · obtain ⟨c', hc', rfl⟩ := Option.map_eq_some_iff.mp hstep
    exact hc'

theorem nonNull_of_reachable (hr : (objectSystem maps).Reachable c) : c.NonNull := by
  refine hr.invariant (fun c hinit g hg => ?_) fun c m c' hr hn _ hstep => ?_
  · rw [show c = .new from hinit] at hg
    have hguest : Context.new.shadowTable.guestToHost.get g = if g = 1 then some 1 else none := by
      simp [Context.new, ShadowTable.new, ShadowTable.mapId, ShadowTable.trackInterface]
    rw [hguest] at hg
    split_ifs at hg
    exact absurd (Option.some.inj hg) (by decide)
  · exact step_nonNull hn (consistent_of_reachable hr) hstep

theorem agrees_of_reachableWhile {x : HostedSession}
    (hr : (hostedSystem maps).ReachableWhile HostedSession.KeepsAttached x) :
    SurfacesAgree x.context x.host := by
  refine hr.invariant (I := fun x => SurfacesAgree x.context x.host) (fun x hinit => ?_)
    fun x m y hr ha _ hstep => ?_
  · rw [show x = ⟨.new, .new⟩ from hinit]
    exact agrees_new
  · have hcontext := context_of_hosted hr
    obtain ⟨c', hc', rfl⟩ := Option.map_eq_some_iff.mp hstep
    exact step_agrees ha (consistent_of_reachable hcontext.reachable)
      (presented_of_keepsAttached hcontext) (holdsAttached_of_reachableWhile hcontext)
      (nonNull_of_reachable hcontext.reachable) hc'

/-- In runs that destroy no attached buffer, the current state of every surface is the one the
host has, which follows the rules for object IDs. -/
theorem double_buffered_agreement {x : HostedSession}
    (hr : (hostedSystem maps).ReachableWhile HostedSession.KeepsAttached x)
    (hs : x.context.shadowTable.liveHost .wlSurface s = some h) :
    let surface := x.context.surfaceOrDefault s
    let host := x.host.surfaces h
    host.scale.current = surface.currentBufferScale ∧
      host.transform.current = surface.currentBufferTransform ∧
      host.viewport.current = surface.viewport ∧
      host.buffer.current = surface.currentBufferId.bind x.context.shadowTable.getHostId ∧
      (surface.currentBufferId.isSome = true → host.buffer.current.isSome = true) := by
  intro surface host
  have hhost : host = x.context.mirror s := (agrees_of_reachableWhile hr).surface s h hs
  rw [hhost]
  refine ⟨rfl, rfl, rfl, rfl, fun hsome => ?_⟩
  obtain ⟨g, hg⟩ := Option.isSome_iff_exists.mp hsome
  have hshows : x.context.Shows g := shows_iff_buffersOf.mpr ⟨s, hg⟩
  obtain ⟨h', hmap, -⟩ := (presented_of_keepsAttached (context_of_hosted hr)).shown g hshows
  have hbuffer : (x.context.mirror s).buffer.current =
      surface.currentBufferId.bind x.context.shadowTable.getHostId := rfl
  rw [hbuffer, hg, Option.bind_some, ShadowTable.getHostId, hmap]
  rfl

/-- A test that admits messages other than the destruction of a buffer. -/
def destroysNoBuffer (_ : HostedSession) : Message → Bool
  | .destroyBuffer _ => false
  | _ => true

/-- The proxy drops the commit of a buffer, a scale and a crop, and forwards the next one. -/
def scaledRun : List Message :=
  [.newObject 1 2 .wlRegistry, .newLocalObject 3 .wlShm 1, .createPool 3 4 64 (some fun _ => 0),
    .createBuffer 4 5 ⟨0, 4, 4, 16, 0⟩ (.sharedMemory fun _ => 0), .newObject 2 6 .wlCompositor,
    .newObject 6 7 .wlSurface, .newObject 2 8 .wpViewporter, .getViewport 8 9 7,
    .setDestination 9 2 2, .setBufferScale 7 2, .attach 7 5 0 0,
    .commit 7 ⟨false, true, true, true, .synchronized⟩, .setBufferTransform 7 1,
    .commit 7 ⟨true, true, true, true, .synchronized⟩]

theorem double_buffered_agreement_scaled : ∃ x h,
    (hostedSystem .unscaled).run ⟨.new, .new⟩ scaledRun = some x ∧
      (x.context.surfaceOrDefault 7).currentBufferScale = 2 ∧
      (x.host.surfaces h).scale.current = 2 ∧ (x.host.surfaces h).buffer.current.isSome = true := by
  have hrun : (((hostedSystem .unscaled).restrict destroysNoBuffer).run ⟨.new, .new⟩
      scaledRun).map (fun x => (x.context.shadowTable.liveHost .wlSurface 7,
        (x.context.surfaceOrDefault 7).currentBufferScale,
        (x.context.surfaceOrDefault 7).currentBufferId)) = some (some 6, 2, some 5) := by
    decide +kernel
  obtain ⟨x, hx, hstate⟩ := Option.map_eq_some_iff.mp hrun
  obtain ⟨hlive, hscale, hbuffer⟩ : _ ∧ _ ∧ _ := by simpa only [Prod.mk.injEq] using hstate
  have hkeeps : ∀ (x : HostedSession) m, destroysNoBuffer x m = true → x.KeepsAttached m := by
    intro x m htest
    cases m <;> trivial
  have hr : (hostedSystem .unscaled).ReachableWhile HostedSession.KeepsAttached x :=
    TransitionSystem.Reachable.of_restrict hkeeps (.run (.init rfl) hx)
  obtain ⟨hhost, -, -, -, hshown⟩ := double_buffered_agreement hr hlive
  exact ⟨x, 6, TransitionSystem.run_of_restrict hx, hscale, hhost.trans hscale,
    hshown (by rw [hbuffer]; rfl)⟩

end Sommelier
