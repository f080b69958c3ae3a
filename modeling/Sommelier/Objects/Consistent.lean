import Sommelier.Objects.System

/-!
# The consistency of a session

Every reachable session keeps the shadow table, the render-buffer registry and the lives of
the host IDs in agreement, whatever the guest does.

## Main definitions

* `Context.Pends`, `Context.Shows`: a surface has the buffer attached, or shows it.
* `Consistent`: the invariant.
-/
namespace Sommelier

namespace Context

/-- The buffer is attached to a surface for its next commit. -/
def Pends (c : Context) (guestId : ℕ) : Prop :=
  ∃ surfaceId surface, c.surfaces.get surfaceId = some surface ∧
    surface.pendingAttachment.bufferId = some guestId

/-- A surface shows the buffer. -/
def Shows (c : Context) (guestId : ℕ) : Prop :=
  ∃ surfaceId surface, c.surfaces.get surfaceId = some surface ∧
    surface.currentBufferId = some guestId

end Context

theorem collect_pending {c : Context} {guestId : ℕ} :
    (SurfaceBufferReferences.collect c).pending guestId = true ↔ c.Pends guestId := by
  simp [SurfaceBufferReferences.collect, Context.Pends]

theorem collect_current {c : Context} {guestId : ℕ} :
    (SurfaceBufferReferences.collect c).current guestId = true ↔ c.Shows guestId := by
  simp [SurfaceBufferReferences.collect, Context.Shows]

/-- The phase of a host object that exists, by the range of its guest ID. -/
def livePhase (guestId : ℕ) : Lifetime :=
  if ShadowTable.isGuestServerId guestId then .announced else .created

/-- The invariant of the object system. Only numbers in `lost` may stay reserved although
they are free on the host. -/
structure Consistent (lost : Set ℕ) (c : Context) : Prop where
  paired : c.shadowTable.Paired
  pending_mapped : ∀ g ∈ c.shadowTable.pendingDestroyGuestIds,
    c.shadowTable.guestToHost.get g ≠ none
  unreserved : ∀ h, c.shadowTable.hostToGuest.get h ≠ none →
    h ∉ c.shadowTable.retiredHostIds ∧ h ∉ c.shadowTable.pendingDestroyHostIds
  lawful : ∀ h, c.hostLifetime h ≠ none
  free : ∀ h, c.shadowTable.hostIdFree h = true → c.hostLifetime h = some .free
  /-- An object the guest may name, and a buffer whose destructor waits, is alive. -/
  live : ∀ g h, c.shadowTable.guestToHost.get g = some h →
    g ∉ c.shadowTable.pendingDestroyGuestIds ∨
      c.renderBuffers.phase h = some .guestDestroyed →
    c.hostLifetime h = some (livePhase g)
  /-- An object whose destructor was sent stays mapped only in the client range. -/
  dying : ∀ g h, c.shadowTable.guestToHost.get g = some h →
    g ∈ c.shadowTable.pendingDestroyGuestIds →
    c.renderBuffers.phase h ≠ some .guestDestroyed →
    c.hostLifetime h = some .destroyed ∧ ShadowTable.isGuestServerId g = false
  entry_mapped : ∀ h, c.renderBuffers.phase h ≠ none → c.shadowTable.hostToGuest.get h ≠ none
  unlisted : ∀ g h, c.shadowTable.guestToHost.get g = some h →
    g ∉ c.shadowTable.pendingDestroyGuestIds → c.shadowTable.hostInterfaces.get h = none
  alive : ∀ g h, c.shadowTable.guestToHost.get g = some h →
    c.renderBuffers.phase h = some .guestAlive →
    c.shadowTable.interfaces.get g = some .wlBuffer ∧ g ∉ c.shadowTable.pendingDestroyGuestIds
  deferred : ∀ g h, c.shadowTable.guestToHost.get g = some h →
    c.renderBuffers.phase h = some .guestDestroyed →
    g ∈ c.shadowTable.pendingDestroyGuestIds ∧ c.shadowTable.interfaces.get g = none ∧
      c.shadowTable.hostInterfaces.get h = some .wlBuffer
  queued : ∀ g h, c.shadowTable.guestToHost.get g = some h →
    c.renderBuffers.phase h = some .hostDestroyQueued →
    g ∈ c.shadowTable.pendingDestroyGuestIds ∧
      (c.shadowTable.hostInterfaces.get h = some .wlBuffer ∧
          c.shadowTable.interfaces.get g = none ∨
        c.shadowTable.hostInterfaces.get h = none ∧
          c.shadowTable.interfaces.get g = some .wlBuffer)
  /-- A destroyed buffer of the client range waits for its acknowledgement. -/
  doomed : ∀ h a p, c.lastAbout h = some (.destroyBuffer h a p) →
    c.hostLifetime h = some .destroyed →
    ∃ g, c.shadowTable.guestToHost.get g = some h ∧
      c.renderBuffers.phase h = some .hostDestroyQueued
  /-- Every buffer the guest may name is registered. -/
  tracked : ∀ g, c.shadowTable.interfaces.get g = some .wlBuffer →
    g ∉ c.shadowTable.pendingDestroyGuestIds →
    ∃ h, c.shadowTable.guestToHost.get g = some h ∧
      c.renderBuffers.phase h = some .guestAlive
  /-- Attached buffers are usable. -/
  attached : ∀ g, c.Pends g → ∃ h, c.shadowTable.guestToHost.get g = some h ∧
    (c.renderBuffers.phase h = some .guestAlive ∨
      c.renderBuffers.phase h = some .guestDestroyed)
  /-- Only these are created by the host. -/
  announced : ∀ g i, c.shadowTable.interfaces.get g = some i →
    ShadowTable.isGuestServerId g = true → i = .wlBuffer ∨ i = .wlDataOffer
  server_mapped : ∀ g i, c.shadowTable.interfaces.get g = some i →
    ShadowTable.isGuestServerId g = true → c.shadowTable.guestToHost.get g ≠ none
  server_range : ∀ g h, c.shadowTable.guestToHost.get g = some h →
    ShadowTable.isGuestServerId g = true → isServerId h = true
  creating : ∀ h p, c.pendingNativeCreates.get h = some p →
    c.shadowTable.hostToGuest.get h = some p.guestParamsId ∧
      c.shadowTable.interfaces.get p.guestParamsId = some .zwpLinuxBufferParamsV1 ∧
      p.guestParamsId ∉ c.shadowTable.pendingDestroyGuestIds ∧
      c.orphanedDmabufParams.get h = none
  /-- Orphaned parameters keep their guest ID until the acknowledgement, and their host
  interface until the late answer. -/
  orphaned : ∀ h g, c.orphanedDmabufParams.get h = some g →
    (c.shadowTable.hostToGuest.get h = some g ∧
      g ∈ c.shadowTable.pendingDestroyGuestIds ∧
      c.shadowTable.interfaces.get g = some .zwpLinuxBufferParamsV1) ∨
    (c.shadowTable.hostToGuest.get h = none ∧ c.hostLifetime h = some .free ∧
      c.shadowTable.hostInterfaces.get h ≠ none ∧ c.lastAbout h = some (.deleteId h))
  /-- A number without object is free, or waits for the acknowledgement of its destructor. -/
  settled : ∀ h ∉ lost, c.shadowTable.hostToGuest.get h = none →
    c.orphanedDmabufParams.get h = none → c.shadowTable.hostIdFree h = true ∨
      h ∈ c.shadowTable.pendingDestroyHostIds ∧ c.shadowTable.hostInterfaces.get h = none ∧
        h ∉ c.shadowTable.retiredHostIds ∧ c.hostLifetime h = some .destroyed
  quiet : ∀ h a p, .destroyBuffer h a p ∈ c.traffic → a = false ∧ p = false

/-! ## Lives of host IDs -/

variable {lost : Set ℕ}

@[simp] theorem hostLifetime_queue (c : Context) (m : HostTraffic) (h : ℕ) :
    (c.queue m).hostLifetime h = match m.lifetimeEvent with
      | none => c.hostLifetime h
      | some e => if e.id = h then (c.hostLifetime h).bind e.next else c.hostLifetime h := by
  simp only [Context.hostLifetime, Context.queue, List.filterMap_cons]
  cases m.lifetimeEvent with
  | none => rfl
  | some e => exact lifetime_cons e _ h

@[simp] theorem lastAbout_queue (c : Context) (m : HostTraffic) (h : ℕ) :
    (c.queue m).lastAbout h =
      if m.lifetimeEvent.any (·.id == h) = true then some m else c.lastAbout h := by
  unfold Context.lastAbout Context.queue
  rw [List.find?_cons]
  split <;> simp_all

theorem lastAbout_queue_other {c : Context} {m : HostTraffic} {h : ℕ}
    (hm : ∀ e, m.lifetimeEvent = some e → e.id ≠ h) :
    (c.queue m).lastAbout h = c.lastAbout h := by
  rw [lastAbout_queue, if_neg]
  cases he : m.lifetimeEvent with
  | none => simp
  | some e => simpa using hm e he

/-! ## Frames -/

/-- Uses and copies do not matter to the invariant. -/
theorem Consistent.withRenderBuffers {c : Context} (hc : Consistent lost c)
    {renderBuffers : RenderBufferRegistry BufferState}
    (hphase : ∀ h, renderBuffers.phase h = c.renderBuffers.phase h) :
    Consistent lost { c with renderBuffers } := by
  refine { hc with
    live := ?_, dying := ?_, entry_mapped := ?_, alive := ?_, deferred := ?_, queued := ?_,
    doomed := ?_, tracked := ?_, attached := ?_ } <;> simp only [hphase]
  exacts [hc.live, hc.dying, hc.entry_mapped, hc.alive, hc.deferred, hc.queued, hc.doomed,
    hc.tracked, hc.attached]

/-! ## Updates of the shadow table

Each lemma is about one change of the tables, as its effect on lookups, together with the
lives it gives to the host IDs. -/

section
variable {c : Context} {t : ShadowTable} {r : RenderBufferRegistry BufferState}
  {traffic : List HostTraffic} {g h : ℕ}

/-- A new object under unused IDs; a new buffer is registered with it. -/
theorem Consistent.bindObject (hc : Consistent lost c) {i : Interface}
    (hg : c.shadowTable.guestToHost.get g = none)
    (hh : c.shadowTable.hostIdFree h = true)
    (hg2h : t.guestToHost = c.shadowTable.guestToHost.set g h)
    (hh2g : t.hostToGuest = c.shadowTable.hostToGuest.set h g)
    (hinterfaces : t.interfaces = c.shadowTable.interfaces.set g i)
    (hhost : t.hostInterfaces = c.shadowTable.hostInterfaces)
    (hpending : t.pendingDestroyGuestIds = c.shadowTable.pendingDestroyGuestIds)
    (hpendingHost : t.pendingDestroyHostIds = c.shadowTable.pendingDestroyHostIds)
    (hretired : t.retiredHostIds = c.shadowTable.retiredHostIds)
    (hphase : ∀ h', r.phase h' =
      if h' = h ∧ i = .wlBuffer then some .guestAlive else c.renderBuffers.phase h')
    (hlife : ∀ h', Context.hostLifetime
      { c with shadowTable := t, renderBuffers := r, traffic } h' =
        if h' = h then some (livePhase g) else c.hostLifetime h')
    (hlast : ∀ h', h' ≠ h → Context.lastAbout
      { c with shadowTable := t, renderBuffers := r, traffic } h' = c.lastAbout h')
    (hquiet : ∀ h a p, .destroyBuffer h a p ∈ traffic → .destroyBuffer h a p ∈ c.traffic)
    (hrange : ShadowTable.isGuestServerId g = true →
      (i = .wlBuffer ∨ i = .wlDataOffer) ∧ isServerId h = true) :
    Consistent lost { c with shadowTable := t, renderBuffers := r, traffic } := by
  have hfree := ShadowTable.hostIdFree_iff.mp hh
  have hnone : c.renderBuffers.phase h = none := by
    by_contra hne
    exact hc.entry_mapped h hne hfree.1
  have hpend : g ∉ c.shadowTable.pendingDestroyGuestIds := fun hmem =>
    hc.pending_mapped g hmem hg
  have hpaired := hc.paired
  constructor <;>
    simp only [hg2h, hh2g, hinterfaces, hhost, hpending, hpendingHost, hretired, hphase, hlife,
      Table.get_set, ShadowTable.Paired, ShadowTable.hostIdFree_iff]
  case paired => grind [ShadowTable.Paired]
  case pending_mapped => grind [hc.pending_mapped]
  case unreserved => grind [hc.unreserved]
  case lawful => grind [hc.lawful]
  case free => grind [hc.free, ShadowTable.hostIdFree_iff]
  case live => grind [hc.live, ShadowTable.Paired]
  case dying => grind [hc.dying, ShadowTable.Paired]
  case entry_mapped => grind [hc.entry_mapped]
  case unlisted => grind [hc.unlisted]
  case alive => grind [hc.alive, ShadowTable.Paired]
  case deferred => grind [hc.deferred, ShadowTable.Paired]
  case queued => grind [hc.queued, ShadowTable.Paired]
  case doomed =>
    intro h' a p hlast' hdestroyed
    have heq : h' ≠ h := by
      rintro rfl
      simp only [if_true, livePhase] at hdestroyed
      split_ifs at hdestroyed <;> simp at hdestroyed
    obtain ⟨g', hmap, hqueued⟩ := hc.doomed h' a p
      ((hlast h' heq).symm.trans hlast') (by simpa [heq] using hdestroyed)
    exact ⟨g', by grind, by simpa [heq] using hqueued⟩
  case tracked => grind [hc.tracked, ShadowTable.Paired]
  case attached =>
    intro g' hg'
    obtain ⟨h', hmap, hactive⟩ := hc.attached g' hg'
    exact ⟨h', by grind, by grind⟩
  case announced => grind [hc.announced]
  case server_mapped => grind [hc.server_mapped]
  case server_range => grind [hc.server_range]
  case creating =>
    intro h' p hp
    have hold := hc.creating h' p hp
    have hmap := (hpaired _ _).mpr hold.1
    grind
  case orphaned => grind [hc.orphaned, ShadowTable.Paired]
  case settled =>
    intro h' hkept
    have hold := hc.settled h' hkept
    grind [ShadowTable.hostIdFree_iff]
  case quiet => exact fun h a p hmem => hc.quiet h a p (hquiet h a p hmem)

/-- A host-only number in use for a moment: it stays reserved, for its acknowledgement or,
when the host chose it, for nothing. -/
theorem Consistent.reserveHostId (hc : Consistent lost c) (phase : Lifetime)
    (hh : c.shadowTable.hostIdFree h = true)
    (hg2h : t.guestToHost = c.shadowTable.guestToHost)
    (hh2g : t.hostToGuest = c.shadowTable.hostToGuest)
    (hinterfaces : t.interfaces = c.shadowTable.interfaces)
    (hhost : ∀ h', t.hostInterfaces.get h' = c.shadowTable.hostInterfaces.get h')
    (hpending : t.pendingDestroyGuestIds = c.shadowTable.pendingDestroyGuestIds)
    (hpendingHost : t.pendingDestroyHostIds = insert h c.shadowTable.pendingDestroyHostIds)
    (hretired : t.retiredHostIds = c.shadowTable.retiredHostIds)
    (hlife : ∀ h', Context.hostLifetime { c with shadowTable := t, traffic } h' =
      if h' = h then some phase else c.hostLifetime h')
    (hlast : ∀ h', h' ≠ h → Context.lastAbout { c with shadowTable := t, traffic } h' =
      c.lastAbout h')
    (hself : phase = .destroyed → ∀ a p, Context.lastAbout
      { c with shadowTable := t, traffic } h ≠ some (.destroyBuffer h a p))
    (hlost : h ∉ lost → phase = .destroyed)
    (hquiet : ∀ h a p, .destroyBuffer h a p ∈ traffic →
      .destroyBuffer h a p ∈ c.traffic ∨ a = false ∧ p = false) :
    Consistent lost { c with shadowTable := t, traffic } := by
  have hfree := ShadowTable.hostIdFree_iff.mp hh
  have hpaired := hc.paired
  constructor <;>
    simp only [hg2h, hh2g, hinterfaces, hhost, hpending, hpendingHost, hretired, hlife,
      ShadowTable.hostIdFree_iff, Finset.mem_insert]
  case paired => simpa only [ShadowTable.Paired, hg2h, hh2g] using hpaired
  case pending_mapped => exact hc.pending_mapped
  case unreserved => grind [hc.unreserved]
  case lawful => grind [hc.lawful]
  case free => grind [hc.free, ShadowTable.hostIdFree_iff]
  case live => grind [hc.live, ShadowTable.Paired]
  case dying => grind [hc.dying, ShadowTable.Paired]
  case entry_mapped => exact hc.entry_mapped
  case unlisted => exact hc.unlisted
  case alive => exact hc.alive
  case deferred => exact hc.deferred
  case queued => exact hc.queued
  case doomed =>
    intro h' a p hlast' hdestroyed
    by_cases heq : h' = h
    · subst heq
      simp only [if_true, Option.some.injEq] at hdestroyed
      exact absurd hlast' (hself hdestroyed a p)
    · exact hc.doomed h' a p
        ((hlast h' heq).symm.trans hlast') (by simpa [heq] using hdestroyed)
  case tracked => exact hc.tracked
  case attached => exact hc.attached
  case announced => exact hc.announced
  case server_mapped => exact hc.server_mapped
  case server_range => exact hc.server_range
  case creating => exact hc.creating
  case orphaned => grind [hc.orphaned]
  case settled =>
    intro h' hkept
    have hold := hc.settled h' hkept
    grind [ShadowTable.hostIdFree_iff]
  case quiet =>
    intro h a p hmem
    rcases hquiet h a p hmem with hold | hnew
    · exact hc.quiet h a p hold
    · exact hnew

/-- A destructor is sent for an object of the client range, which stays mapped. Destroyed
parameters that wait for an answer become orphans. -/
theorem Consistent.destroyClient (hc : Consistent lost c)
    {creates : Table ℕ PendingNativeCreate} {orphans : Table ℕ ℕ}
    (hg : c.shadowTable.guestToHost.get g = some h)
    (hserver : ShadowTable.isGuestServerId g = false)
    (hpends : ¬ c.Pends g)
    (hg2h : t.guestToHost = c.shadowTable.guestToHost)
    (hh2g : t.hostToGuest = c.shadowTable.hostToGuest)
    (hinterfaces : t.interfaces = c.shadowTable.interfaces)
    (hhost : t.hostInterfaces = c.shadowTable.hostInterfaces)
    (hpending : t.pendingDestroyGuestIds = insert g c.shadowTable.pendingDestroyGuestIds)
    (hpendingHost : t.pendingDestroyHostIds = c.shadowTable.pendingDestroyHostIds)
    (hretired : t.retiredHostIds = c.shadowTable.retiredHostIds)
    (hphase : ∀ h', r.phase h' =
      if h' = h ∧ c.renderBuffers.phase h ≠ none then some .hostDestroyQueued
      else c.renderBuffers.phase h')
    (hlife : ∀ h', Context.hostLifetime
      { c with shadowTable := t, renderBuffers := r, traffic } h' =
        if h' = h then some .destroyed else c.hostLifetime h')
    (hlast : ∀ h', h' ≠ h → Context.lastAbout
      { c with shadowTable := t, renderBuffers := r, traffic } h' = c.lastAbout h')
    (hself : c.renderBuffers.phase h = none → ∀ a p, Context.lastAbout
      { c with shadowTable := t, renderBuffers := r, traffic } h ≠ some (.destroyBuffer h a p))
    (hquiet : ∀ h a p, .destroyBuffer h a p ∈ traffic →
      .destroyBuffer h a p ∈ c.traffic ∨ a = false ∧ p = false)
    (hcreates : ∀ h' p, creates.get h' = some p → c.pendingNativeCreates.get h' = some p ∧
      p.guestParamsId ≠ g ∧ orphans.get h' = none)
    (horphans : ∀ h' g', orphans.get h' = some g' → c.orphanedDmabufParams.get h' = some g' ∨
      h' = h ∧ g' = g ∧ c.shadowTable.interfaces.get g = some .zwpLinuxBufferParamsV1)
    (horphans' : ∀ h', orphans.get h' = none → c.orphanedDmabufParams.get h' = none) :
    Consistent lost { c with
      shadowTable := t, renderBuffers := r, traffic, pendingNativeCreates := creates,
      orphanedDmabufParams := orphans } := by
  have hpaired := hc.paired
  have hbuffer : c.renderBuffers.phase h ≠ none →
      c.shadowTable.hostInterfaces.get h = some .wlBuffer ∧
          c.shadowTable.interfaces.get g = none ∨
        c.shadowTable.hostInterfaces.get h = none ∧
          c.shadowTable.interfaces.get g = some .wlBuffer := by
    intro hne
    rcases hphase : c.renderBuffers.phase h with _ | (_ | _ | _)
    · exact absurd hphase hne
    · have halive := hc.alive g h hg hphase
      exact .inr ⟨hc.unlisted g h hg halive.2, halive.1⟩
    · have hdeferred := hc.deferred g h hg hphase
      exact .inl ⟨hdeferred.2.2, hdeferred.2.1⟩
    · exact (hc.queued g h hg hphase).2
  have hlife' : ∀ h', Context.hostLifetime { c with
      shadowTable := t, renderBuffers := r, traffic, pendingNativeCreates := creates,
      orphanedDmabufParams := orphans } h' =
        if h' = h then some .destroyed else c.hostLifetime h' := hlife
  have hsame : ∀ h', h' ≠ h → Context.lastAbout { c with
      shadowTable := t, renderBuffers := r, traffic, pendingNativeCreates := creates,
      orphanedDmabufParams := orphans } h' = c.lastAbout h' := hlast
  constructor <;>
    simp only [hg2h, hh2g, hinterfaces, hhost, hpending, hpendingHost, hretired, hphase, hlife',
      ShadowTable.hostIdFree_iff, Finset.mem_insert]
  case paired => simpa only [ShadowTable.Paired, hg2h, hh2g] using hpaired
  case pending_mapped => grind [hc.pending_mapped]
  case unreserved => exact hc.unreserved
  case lawful => grind [hc.lawful]
  case free => grind [hc.free, ShadowTable.hostIdFree_iff, ShadowTable.Paired]
  case live => grind [hc.live, ShadowTable.Paired]
  case dying => grind [hc.dying, ShadowTable.Paired]
  case entry_mapped => grind [hc.entry_mapped]
  case unlisted => grind [hc.unlisted]
  case alive => grind [hc.alive, ShadowTable.Paired]
  case deferred => grind [hc.deferred, ShadowTable.Paired]
  case queued => grind [hc.queued, ShadowTable.Paired]
  case doomed =>
    intro h' a p hlast' hdestroyed
    by_cases heq : h' = h
    · subst heq
      by_cases hentry : c.renderBuffers.phase h' = none
      · exact absurd hlast' (hself hentry a p)
      · exact ⟨g, hg, by simp [hentry]⟩
    · obtain ⟨g', hmap, hqueued⟩ := hc.doomed h' a p
        ((hlast h' heq).symm.trans hlast') (by simpa [heq] using hdestroyed)
      exact ⟨g', hmap, by simpa [heq] using hqueued⟩
  case tracked => grind [hc.tracked, ShadowTable.Paired]
  case attached =>
    intro g' hg'
    obtain ⟨h', hmap, hactive⟩ := hc.attached g' hg'
    have hne : g' ≠ g := fun heq => hpends (heq ▸ hg')
    have hne' : h' ≠ h := fun heq => hne (hpaired.guest_inj hmap (heq ▸ hg))
    exact ⟨h', hmap, by grind⟩
  case announced => exact hc.announced
  case server_mapped => exact hc.server_mapped
  case server_range => exact hc.server_range
  case creating => grind [hc.creating]
  case orphaned => grind [hc.orphaned, ShadowTable.Paired]
  case settled =>
    intro h' hkept
    have hold := hc.settled h' hkept
    grind [ShadowTable.hostIdFree_iff]
  case quiet =>
    intro h a p hmem
    rcases hquiet h a p hmem with hold | hnew
    · exact hc.quiet h a p hold
    · exact hnew

/-- An object disappears from the tables: its ID is free on the host. -/
theorem Consistent.removeObject (hc : Consistent lost c) {creates : Table ℕ PendingNativeCreate}
    (hg : c.shadowTable.guestToHost.get g = some h)
    (hpends : ¬ c.Pends g)
    (horphan : c.orphanedDmabufParams.get h = none)
    (hg2h : t.guestToHost = c.shadowTable.guestToHost.erase g)
    (hh2g : t.hostToGuest = c.shadowTable.hostToGuest.erase h)
    (hinterfaces : t.interfaces = c.shadowTable.interfaces.erase g)
    (hhost : t.hostInterfaces = c.shadowTable.hostInterfaces.erase h)
    (hpending : t.pendingDestroyGuestIds = c.shadowTable.pendingDestroyGuestIds.erase g)
    (hpendingHost : t.pendingDestroyHostIds = c.shadowTable.pendingDestroyHostIds)
    (hretired : t.retiredHostIds = c.shadowTable.retiredHostIds)
    (hphase : ∀ h', r.phase h' = if h' = h then none else c.renderBuffers.phase h')
    (hlife : ∀ h', Context.hostLifetime
      { c with shadowTable := t, renderBuffers := r, traffic } h' =
        if h' = h then some .free else c.hostLifetime h')
    (hlast : ∀ h', h' ≠ h → Context.lastAbout
      { c with shadowTable := t, renderBuffers := r, traffic } h' = c.lastAbout h')
    (hquiet : ∀ h a p, .destroyBuffer h a p ∈ traffic →
      .destroyBuffer h a p ∈ c.traffic ∨ a = false ∧ p = false)
    (hcreates : ∀ h' p, creates.get h' = some p → c.pendingNativeCreates.get h' = some p ∧
      p.guestParamsId ≠ g) :
    Consistent lost { c with
      shadowTable := t, renderBuffers := r, traffic, pendingNativeCreates := creates } := by
  have hpaired := hc.paired
  have hlife' : ∀ h', Context.hostLifetime { c with
      shadowTable := t, renderBuffers := r, traffic, pendingNativeCreates := creates } h' =
        if h' = h then some .free else c.hostLifetime h' := hlife
  have hsame : ∀ h', h' ≠ h → Context.lastAbout { c with
      shadowTable := t, renderBuffers := r, traffic, pendingNativeCreates := creates } h' =
        c.lastAbout h' := hlast
  constructor <;>
    simp only [hg2h, hh2g, hinterfaces, hhost, hpending, hpendingHost, hretired, hphase, hlife',
      ShadowTable.hostIdFree_iff, Finset.mem_erase, Table.get_erase, ShadowTable.Paired]
  case paired => grind [ShadowTable.Paired]
  case pending_mapped => grind [hc.pending_mapped]
  case unreserved => grind [hc.unreserved]
  case lawful => grind [hc.lawful]
  case free => grind [hc.free, ShadowTable.hostIdFree_iff]
  case live => grind [hc.live, ShadowTable.Paired]
  case dying => grind [hc.dying, ShadowTable.Paired]
  case entry_mapped => grind [hc.entry_mapped]
  case unlisted => grind [hc.unlisted, ShadowTable.Paired]
  case alive => grind [hc.alive, ShadowTable.Paired]
  case deferred => grind [hc.deferred, ShadowTable.Paired]
  case queued => grind [hc.queued, ShadowTable.Paired]
  case doomed =>
    intro h' a p hlast' hdestroyed
    have heq : h' ≠ h := by
      rintro rfl
      simp at hdestroyed
    obtain ⟨g', hmap, hqueued⟩ := hc.doomed h' a p
      ((hlast h' heq).symm.trans hlast') (by simpa [heq] using hdestroyed)
    exact ⟨g', by grind, by simpa [heq] using hqueued⟩
  case tracked => grind [hc.tracked, ShadowTable.Paired]
  case attached =>
    intro g' hg'
    obtain ⟨h', hmap, hactive⟩ := hc.attached g' hg'
    have hne : g' ≠ g := fun heq => hpends (heq ▸ hg')
    have hne' : h' ≠ h := fun heq => hne (hpaired.guest_inj hmap (heq ▸ hg))
    exact ⟨h', by simp [hne, hmap], by simpa [hne'] using hactive⟩
  case announced => grind [hc.announced]
  case server_mapped => grind [hc.server_mapped]
  case server_range => grind [hc.server_range]
  case creating =>
    intro h' p hp
    obtain ⟨hpre, hne⟩ := hcreates h' p hp
    have hold := hc.creating h' p hpre
    have hmap := (hpaired _ _).mpr hold.1
    have hne' : h' ≠ h := fun heq => hne (hpaired.guest_inj hmap (heq ▸ hg))
    grind
  case orphaned =>
    intro h' g' horph
    have hne : h' ≠ h := by
      rintro rfl
      simp [horphan] at horph
    rcases hc.orphaned h' g' horph with ⟨hmap, hold⟩ | hold
    · have hne' : g' ≠ g := fun heq =>
        hne (hpaired.host_inj (heq ▸ hmap) ((hpaired g h).mp hg))
      grind
    · grind
  case settled =>
    intro h' hkept
    have hold := hc.settled h' hkept
    have hclear := hc.unreserved h (by simp [(hpaired g h).mp hg])
    grind [ShadowTable.hostIdFree_iff]
  case quiet =>
    intro h a p hmem
    rcases hquiet h a p hmem with hold | hnew
    · exact hc.quiet h a p hold
    · exact hnew

/-- The guest destroys a buffer that is still in use: it loses its name only. -/
theorem Consistent.deferBuffer (hc : Consistent lost c)
    (hg : c.shadowTable.guestToHost.get g = some h)
    (halive : c.renderBuffers.phase h = some .guestAlive)
    (hg2h : t.guestToHost = c.shadowTable.guestToHost)
    (hh2g : t.hostToGuest = c.shadowTable.hostToGuest)
    (hinterfaces : t.interfaces = c.shadowTable.interfaces.erase g)
    (hhost : t.hostInterfaces = c.shadowTable.hostInterfaces.set h .wlBuffer)
    (hpending : t.pendingDestroyGuestIds = insert g c.shadowTable.pendingDestroyGuestIds)
    (hpendingHost : t.pendingDestroyHostIds = c.shadowTable.pendingDestroyHostIds)
    (hretired : t.retiredHostIds = c.shadowTable.retiredHostIds)
    (hphase : ∀ h', r.phase h' =
      if h' = h then some .guestDestroyed else c.renderBuffers.phase h') :
    Consistent lost { c with shadowTable := t, renderBuffers := r } := by
  have hpaired := hc.paired
  have hbuffer := hc.alive g h hg halive
  have hlive := hc.live g h hg (.inl hbuffer.2)
  have hlife : ∀ h', Context.hostLifetime { c with shadowTable := t, renderBuffers := r } h' =
      c.hostLifetime h' := fun _ => rfl
  have hlast : ∀ h', Context.lastAbout { c with shadowTable := t, renderBuffers := r } h' =
      c.lastAbout h' := fun _ => rfl
  constructor <;>
    simp only [hg2h, hh2g, hinterfaces, hhost, hpending, hpendingHost, hretired, hphase, hlife,
      ShadowTable.hostIdFree_iff, Finset.mem_insert, Table.get_erase, Table.get_set]
  case paired => simpa only [ShadowTable.Paired, hg2h, hh2g] using hpaired
  case pending_mapped => grind [hc.pending_mapped]
  case unreserved => exact hc.unreserved
  case lawful => exact hc.lawful
  case free => grind [hc.free, ShadowTable.hostIdFree_iff]
  case live => grind [hc.live, ShadowTable.Paired]
  case dying => grind [hc.dying, ShadowTable.Paired]
  case entry_mapped => grind [hc.entry_mapped]
  case unlisted => grind [hc.unlisted, ShadowTable.Paired]
  case alive => grind [hc.alive, ShadowTable.Paired]
  case deferred => grind [hc.deferred, ShadowTable.Paired]
  case queued => grind [hc.queued, ShadowTable.Paired]
  case doomed =>
    intro h' a p hlast' hdestroyed
    have heq : h' ≠ h := by
      rintro rfl
      rw [hlive, livePhase] at hdestroyed
      split_ifs at hdestroyed <;> simp at hdestroyed
    obtain ⟨g', hmap, hqueued⟩ := hc.doomed h' a p hlast' hdestroyed
    exact ⟨g', hmap, by simpa [heq] using hqueued⟩
  case tracked => grind [hc.tracked, ShadowTable.Paired]
  case attached =>
    intro g' hg'
    obtain ⟨h', hmap, hactive⟩ := hc.attached g' hg'
    exact ⟨h', hmap, by grind⟩
  case announced => grind [hc.announced]
  case server_mapped => grind [hc.server_mapped]
  case server_range => exact hc.server_range
  case creating => grind [hc.creating]
  case orphaned => grind [hc.orphaned]
  case settled =>
    intro h' hkept
    have hold := hc.settled h' hkept
    grind [ShadowTable.hostIdFree_iff, ShadowTable.Paired]
  case quiet => exact hc.quiet

/-- The acknowledgement of destroyed parameters reaches the guest, while the host number
waits for the late answer. -/
theorem Consistent.releaseGuestId (hc : Consistent lost c)
    (hg : c.shadowTable.guestToHost.get g = some h)
    (horphan : c.orphanedDmabufParams.get h = some g)
    (hg2h : t.guestToHost = c.shadowTable.guestToHost.erase g)
    (hh2g : t.hostToGuest = c.shadowTable.hostToGuest.erase h)
    (hinterfaces : t.interfaces = c.shadowTable.interfaces.erase g)
    (hhost : ∀ h', t.hostInterfaces.get h' = none ↔
      h' ≠ h ∧ c.shadowTable.hostInterfaces.get h' = none)
    (hhost' : ∀ h' i, c.shadowTable.hostInterfaces.get h' = some i →
      t.hostInterfaces.get h' = some i)
    (hpending : t.pendingDestroyGuestIds = c.shadowTable.pendingDestroyGuestIds.erase g)
    (hpendingHost : t.pendingDestroyHostIds = c.shadowTable.pendingDestroyHostIds)
    (hretired : t.retiredHostIds = c.shadowTable.retiredHostIds)
    (hlife : ∀ h', Context.hostLifetime { c with shadowTable := t, traffic } h' =
      if h' = h then some .free else c.hostLifetime h')
    (hlast : ∀ h', Context.lastAbout { c with shadowTable := t, traffic } h' =
      if h' = h then some (.deleteId h) else c.lastAbout h')
    (hquiet : ∀ h a p, .destroyBuffer h a p ∈ traffic → .destroyBuffer h a p ∈ c.traffic) :
    Consistent lost { c with shadowTable := t, traffic } := by
  have hpaired := hc.paired
  have hparams : g ∈ c.shadowTable.pendingDestroyGuestIds ∧
      c.shadowTable.interfaces.get g = some .zwpLinuxBufferParamsV1 := by
    rcases hc.orphaned h g horphan with hmapped | hunmapped
    · exact hmapped.2
    · rw [(hpaired g h).mp hg] at hunmapped
      exact absurd hunmapped.1 (by simp)
  have hnone : c.renderBuffers.phase h = none := by
    rcases hphase : c.renderBuffers.phase h with _ | (_ | _ | _)
    · rfl
    · exact absurd hparams.1 (hc.alive g h hg hphase).2
    · rw [(hc.deferred g h hg hphase).2.1] at hparams
      exact absurd hparams.2 (by simp)
    · rcases (hc.queued g h hg hphase).2 with ⟨-, hi⟩ | ⟨-, hi⟩ <;> simp [hi] at hparams
  constructor <;>
    simp only [hg2h, hh2g, hinterfaces, hpending, hpendingHost, hretired, hlife,
      ShadowTable.hostIdFree_iff, Finset.mem_erase, Table.get_erase, ShadowTable.Paired]
  case paired => grind [ShadowTable.Paired]
  case pending_mapped => grind [hc.pending_mapped]
  case unreserved => grind [hc.unreserved]
  case lawful => grind [hc.lawful]
  case free => grind [hc.free, ShadowTable.hostIdFree_iff]
  case live => grind [hc.live, ShadowTable.Paired]
  case dying => grind [hc.dying, ShadowTable.Paired]
  case entry_mapped => grind [hc.entry_mapped]
  case unlisted => grind [hc.unlisted, ShadowTable.Paired]
  case alive => grind [hc.alive, ShadowTable.Paired]
  case deferred => grind [hc.deferred, ShadowTable.Paired]
  case queued => grind [hc.queued, ShadowTable.Paired]
  case doomed =>
    intro h' a p hlast' hdestroyed
    have heq : h' ≠ h := by
      rintro rfl
      simp at hdestroyed
    obtain ⟨g', hmap, hqueued⟩ := hc.doomed h' a p
      (by simpa [hlast, heq] using hlast') (by simpa [heq] using hdestroyed)
    exact ⟨g', by grind, hqueued⟩
  case tracked => grind [hc.tracked, ShadowTable.Paired]
  case attached =>
    intro g' hg'
    obtain ⟨h', hmap, hactive⟩ := hc.attached g' hg'
    have hne' : h' ≠ h := by
      rintro rfl
      simp [hnone] at hactive
    have hne : g' ≠ g := fun heq => hne' (Option.some.inj (hmap.symm.trans (heq ▸ hg)))
    exact ⟨h', by simp [hne, hmap], hactive⟩
  case announced => grind [hc.announced]
  case server_mapped => grind [hc.server_mapped]
  case server_range => grind [hc.server_range]
  case creating =>
    intro h' p hp
    have hold := hc.creating h' p hp
    have hmap := (hpaired _ _).mpr hold.1
    have hne : h' ≠ h := by
      rintro rfl
      rw [horphan] at hold
      exact absurd hold.2.2.2 (by simp)
    have hne' : p.guestParamsId ≠ g := fun heq =>
      hne (Option.some.inj (hmap.symm.trans (heq ▸ hg)))
    grind
  case orphaned =>
    intro h' g' horph
    by_cases heq : h' = h
    · exact .inr ⟨by simp [heq], by simp [heq], by simp [hhost, heq], by simp [hlast, heq]⟩
    · rcases hc.orphaned h' g' horph with ⟨hmap, hold⟩ | hold
      · have hne' : g' ≠ g := fun hgg =>
          heq (hpaired.host_inj (hgg ▸ hmap) ((hpaired g h).mp hg))
        grind
      · grind
  case settled =>
    intro h' hkept
    have hold := hc.settled h' hkept
    grind [ShadowTable.hostIdFree_iff]
  case quiet => exact fun h a p hmem => hc.quiet h a p (hquiet h a p hmem)

/-- A number that nobody uses any more leaves the host namespaces. -/
theorem Consistent.releaseHostId (hc : Consistent lost c)
    (hunmapped : c.shadowTable.hostToGuest.get h = none)
    (horphan : c.orphanedDmabufParams.get h = none)
    (hg2h : t.guestToHost = c.shadowTable.guestToHost)
    (hh2g : t.hostToGuest = c.shadowTable.hostToGuest)
    (hinterfaces : t.interfaces = c.shadowTable.interfaces)
    (hhost : ∀ h', h' ≠ h → t.hostInterfaces.get h' = c.shadowTable.hostInterfaces.get h')
    (hpending : t.pendingDestroyGuestIds = c.shadowTable.pendingDestroyGuestIds)
    (hpendingHost : t.pendingDestroyHostIds = c.shadowTable.pendingDestroyHostIds.erase h)
    (hretired : ∀ h', h' ≠ h → (h' ∈ t.retiredHostIds ↔ h' ∈ c.shadowTable.retiredHostIds))
    (hclear : h ∉ lost → t.hostInterfaces.get h = none ∧ h ∉ t.retiredHostIds)
    (hlife : ∀ h', Context.hostLifetime { c with shadowTable := t, traffic } h' =
      if h' = h then some .free else c.hostLifetime h')
    (hlast : ∀ h', h' ≠ h → Context.lastAbout { c with shadowTable := t, traffic } h' =
      c.lastAbout h')
    (hquiet : ∀ h a p, .destroyBuffer h a p ∈ traffic → .destroyBuffer h a p ∈ c.traffic) :
    Consistent lost { c with shadowTable := t, traffic } := by
  have hpaired := hc.paired
  have hmapped : ∀ g h', c.shadowTable.guestToHost.get g = some h' → h' ≠ h := by
    rintro g h' hmap rfl
    simp [(hpaired g h').mp hmap] at hunmapped
  constructor <;>
    simp only [hg2h, hh2g, hinterfaces, hpending, hpendingHost, hlife,
      ShadowTable.hostIdFree_iff, Finset.mem_erase]
  case paired => simpa only [ShadowTable.Paired, hg2h, hh2g] using hpaired
  case pending_mapped => exact hc.pending_mapped
  case unreserved => grind [hc.unreserved]
  case lawful => grind [hc.lawful]
  case free => grind [hc.free, ShadowTable.hostIdFree_iff]
  case live => grind [hc.live]
  case dying => grind [hc.dying]
  case entry_mapped => exact hc.entry_mapped
  case unlisted => grind [hc.unlisted]
  case alive => exact hc.alive
  case deferred => grind [hc.deferred]
  case queued => grind [hc.queued]
  case doomed =>
    intro h' a p hlast' hdestroyed
    have heq : h' ≠ h := by
      rintro rfl
      simp at hdestroyed
    obtain ⟨g', hmap, hqueued⟩ := hc.doomed h' a p
      ((hlast h' heq).symm.trans hlast') (by simpa [heq] using hdestroyed)
    exact ⟨g', hmap, hqueued⟩
  case tracked => exact hc.tracked
  case attached => exact hc.attached
  case announced => exact hc.announced
  case server_mapped => exact hc.server_mapped
  case server_range => exact hc.server_range
  case creating => exact hc.creating
  case orphaned => grind [hc.orphaned]
  case settled =>
    intro h' hkept
    have hold := hc.settled h' hkept
    grind [ShadowTable.hostIdFree_iff]
  case quiet => exact fun h a p hmem => hc.quiet h a p (hquiet h a p hmem)

/-- An object of the proxy alone appears or disappears. -/
theorem Consistent.relabel (hc : Consistent lost c)
    (hg : c.shadowTable.guestToHost.get g = none)
    (hg2h : t.guestToHost = c.shadowTable.guestToHost)
    (hh2g : t.hostToGuest = c.shadowTable.hostToGuest)
    (hinterfaces : ∀ g', g' ≠ g → t.interfaces.get g' = c.shadowTable.interfaces.get g')
    (hself : ∀ i, t.interfaces.get g = some i → i ≠ .wlBuffer ∧
      i ≠ .zwpLinuxBufferParamsV1 ∧ ShadowTable.isGuestServerId g = false)
    (hhost : t.hostInterfaces = c.shadowTable.hostInterfaces)
    (hpending : ∀ g', g' ∈ t.pendingDestroyGuestIds ↔ g' ∈ c.shadowTable.pendingDestroyGuestIds)
    (hpendingHost : t.pendingDestroyHostIds = c.shadowTable.pendingDestroyHostIds)
    (hretired : t.retiredHostIds = c.shadowTable.retiredHostIds) :
    Consistent lost { c with shadowTable := t } := by
  have hpaired := hc.paired
  have hlife : ∀ h', Context.hostLifetime { c with shadowTable := t } h' = c.hostLifetime h' :=
    fun _ => rfl
  constructor <;>
    simp only [hg2h, hh2g, hhost, hpending, hpendingHost, hretired, hlife,
      ShadowTable.hostIdFree_iff]
  case paired => simpa only [ShadowTable.Paired, hg2h, hh2g] using hpaired
  case pending_mapped => exact hc.pending_mapped
  case unreserved => exact hc.unreserved
  case lawful => exact hc.lawful
  case free => grind [hc.free, ShadowTable.hostIdFree_iff]
  case live => exact hc.live
  case dying => exact hc.dying
  case entry_mapped => exact hc.entry_mapped
  case unlisted => exact hc.unlisted
  case alive => grind [hc.alive]
  case deferred => grind [hc.deferred]
  case queued => grind [hc.queued]
  case doomed => exact hc.doomed
  case tracked => grind [hc.tracked]
  case attached => exact hc.attached
  case announced => grind [hc.announced]
  case server_mapped => grind [hc.server_mapped]
  case server_range => exact hc.server_range
  case creating =>
    intro h' p hp
    have hold := hc.creating h' p hp
    have hmap := (hpaired _ _).mpr hold.1
    grind
  case orphaned =>
    intro h' g' horph
    rcases hc.orphaned h' g' horph with hold | hold
    · have hmap := (hpaired _ _).mpr hold.1
      grind
    · exact .inr hold
  case settled =>
    intro h' hkept
    have hold := hc.settled h' hkept
    grind [ShadowTable.hostIdFree_iff]
  case quiet => exact hc.quiet

end

/-- More numbers may be lost. -/
theorem Consistent.mono {c : Context} (hc : Consistent lost c) {lost' : Set ℕ}
    (hsub : lost ⊆ lost') : Consistent lost' c :=
  { hc with settled := fun h hkept => hc.settled h fun hmem => hkept (hsub hmem) }

/-- A number with an object, or a free one, is not lost. -/
theorem Consistent.found {c : Context} {h : ℕ} (hc : Consistent (insert h lost) c)
    (hh : c.shadowTable.hostToGuest.get h = none → c.shadowTable.hostIdFree h = true) :
    Consistent lost c :=
  { hc with
    settled := by
      intro h' hkept hunmapped horph
      by_cases heq : h' = h
      · subst heq
        exact .inl (hh hunmapped)
      · exact hc.settled h' (by simp [heq, hkept]) hunmapped horph }

/-- Messages that create and destroy nothing do not matter to the invariant. -/
theorem Consistent.queue {c : Context} (hc : Consistent lost c) {m : HostTraffic}
    (hm : m.lifetimeEvent = none) : Consistent lost (c.queue m) := by
  have hlife : ∀ h, (c.queue m).hostLifetime h = c.hostLifetime h := by simp [hm]
  exact { hc with
    lawful := by simp only [hlife]; exact hc.lawful
    free := by simp only [hlife]; exact hc.free
    live := by simp only [hlife]; exact hc.live
    dying := by simp only [hlife]; exact hc.dying
    doomed := by simp only [hlife, lastAbout_queue, hm]; exact hc.doomed
    orphaned := by simp only [hlife, lastAbout_queue, hm]; exact hc.orphaned
    settled := by simp only [hlife]; exact hc.settled
    quiet := by
      intro h a p hmem
      rcases List.mem_cons.mp hmem with rfl | hold
      · simp [HostTraffic.lifetimeEvent] at hm
      · exact hc.quiet h a p hold }

/-- Parameters wait for the answer of the host. -/
theorem Consistent.expectAnswer {c : Context} (hc : Consistent lost c) {h : ℕ}
    {p : PendingNativeCreate} (hg : c.shadowTable.guestToHost.get p.guestParamsId = some h)
    (hparams : c.shadowTable.interfaces.get p.guestParamsId = some .zwpLinuxBufferParamsV1)
    (hlive : p.guestParamsId ∉ c.shadowTable.pendingDestroyGuestIds) :
    Consistent lost { c with pendingNativeCreates := c.pendingNativeCreates.set h p } := by
  have hmap := (hc.paired _ _).mp hg
  have horphan : c.orphanedDmabufParams.get h = none := by
    cases horph : c.orphanedDmabufParams.get h with
    | none => rfl
    | some g => grind [hc.orphaned h g horph]
  exact { hc with
    creating := by
      intro h' p' hp'
      rw [Table.get_set] at hp'
      split_ifs at hp' with heq
      · obtain rfl := Option.some.inj hp'
        exact ⟨heq ▸ hmap, hparams, hlive, heq ▸ horphan⟩
      · exact hc.creating h' p' hp' }

/-- Answered parameters are forgotten. -/
theorem Consistent.forget {c : Context} (hc : Consistent lost c)
    {creates : Table ℕ PendingNativeCreate} {orphans : Table ℕ ℕ}
    (hcreates : ∀ h p, creates.get h = some p → c.pendingNativeCreates.get h = some p)
    (horphans : ∀ h g, orphans.get h = some g → c.orphanedDmabufParams.get h = some g)
    (hkept : ∀ h ∉ lost, orphans.get h = none → c.orphanedDmabufParams.get h = none) :
    Consistent lost { c with pendingNativeCreates := creates, orphanedDmabufParams := orphans } :=
  { hc with
    creating := by
      intro h p hp
      have hold := hc.creating h p (hcreates h p hp)
      refine ⟨hold.1, hold.2.1, hold.2.2.1, ?_⟩
      cases horph : orphans.get h with
      | none => rfl
      | some g => simp [horphans h g horph] at hold
    orphaned := fun h g horph => hc.orphaned h g (horphans h g horph)
    settled := fun h hlost hunmapped horph =>
      hc.settled h hlost hunmapped (hkept h hlost horph) }

end Sommelier
