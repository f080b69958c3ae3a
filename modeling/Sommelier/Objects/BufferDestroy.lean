import Sommelier.Objects.Preservation

/-!
# The destructors of buffers

A buffer is destroyed once, when nothing uses it, and its number waits for the host.

## Main definitions

* `Reserved`: no object gets the number, and late events for it are dropped.
* `buffer_destructors`: the destructors in the traffic of every reachable session.
-/
namespace Sommelier

variable {maps : DamageMapping} {c : Context} {h : ℕ}

/-- No new object gets the number, and events that still arrive for it are not delivered. -/
def Reserved (c : Context) (hostId : ℕ) : Prop :=
  (∀ t, c.shadowTable.allocateHostId ≠ some (hostId, t)) ∧
    c.shadowTable.isHostIdAvailable hostId = false ∧
    ∀ opcode, pendingHostEventIsStale c hostId opcode = true

/-- The life of a number as a part of the traffic shows it. -/
def lifetimeIn (traffic : List HostTraffic) (hostId : ℕ) : Option Lifetime :=
  lifetime (traffic.filterMap HostTraffic.lifetimeEvent) hostId

theorem mem_lifetimeEvents {traffic : List HostTraffic} :
    (LifetimeEvent.create h ∈ traffic.filterMap HostTraffic.lifetimeEvent ↔
        .create h ∈ traffic) ∧
      (LifetimeEvent.announce h ∈ traffic.filterMap HostTraffic.lifetimeEvent ↔
        .announce h ∈ traffic) ∧
      (LifetimeEvent.acknowledge h ∈ traffic.filterMap HostTraffic.lifetimeEvent ↔
        .deleteId h ∈ traffic) := by
  simp only [List.mem_filterMap]
  refine ⟨⟨?_, fun hm => ⟨_, hm, rfl⟩⟩, ⟨?_, fun hm => ⟨_, hm, rfl⟩⟩,
    ?_, fun hm => ⟨_, hm, rfl⟩⟩ <;>
  · rintro ⟨m, hm, heq⟩
    cases m <;> simp_all [HostTraffic.lifetimeEvent]

/-- Two destructors of one number are those of two objects. -/
theorem destroyed_once (hc : Consistent Set.univ c) {newer between older : List HostTraffic}
    {a p a' p' : Bool} (htraffic : c.traffic =
      newer ++ .destroyBuffer h a p :: (between ++ .destroyBuffer h a' p' :: older)) :
    .create h ∈ between ∨ .announce h ∈ between := by
  have hlawful := hc.lawful h
  rw [Context.hostLifetime, htraffic] at hlawful
  simp only [List.filterMap_append, List.filterMap_cons, HostTraffic.lifetimeEvent] at hlawful
  have honce := destroy_once (Option.isSome_iff_ne_none.mpr hlawful)
  rwa [mem_lifetimeEvents.1, mem_lifetimeEvents.2.1] at honce

/-- A destroyed buffer that was not acknowledged is still the last thing about its number. -/
theorem waiting_buffer (hc : Consistent Set.univ c) {newer older : List HostTraffic} {a p : Bool}
    (htraffic : c.traffic = newer ++ .destroyBuffer h a p :: older)
    (hcreated : lifetimeIn older h = some .created) (hwaits : .deleteId h ∉ newer) :
    c.hostLifetime h = some .destroyed ∧ c.lastAbout h = some (.destroyBuffer h a p) := by
  have hlawful := hc.lawful h
  have hdestroyed : lifetimeIn (.destroyBuffer h a p :: older) h = some .destroyed := by
    unfold lifetimeIn at hcreated ⊢
    simp [HostTraffic.lifetimeEvent, hcreated, LifetimeEvent.next]
  rw [Context.hostLifetime, htraffic, List.filterMap_append] at hlawful
  obtain ⟨hlife, hnone⟩ := lifetime_waits hdestroyed (Option.isSome_iff_ne_none.mpr hlawful)
    (mem_lifetimeEvents.2.2.not.mpr hwaits)
  refine ⟨by rw [Context.hostLifetime, htraffic, List.filterMap_append]; exact hlife, ?_⟩
  rw [Context.lastAbout, htraffic, List.find?_append, List.find?_eq_none.mpr]
  · simp [HostTraffic.lifetimeEvent, LifetimeEvent.id]
  · intro m hm
    cases he : m.lifetimeEvent with
    | none => simp
    | some e =>
      simpa using hnone e (List.mem_filterMap.mpr ⟨m, hm, he⟩)

/-- The number of a destroyed buffer is reserved while its entry waits. -/
theorem reserved_of_queued (hc : Consistent Set.univ c) {g : ℕ}
    (hg : c.shadowTable.guestToHost.get g = some h)
    (hphase : c.renderBuffers.phase h = some .hostDestroyQueued) : Reserved c h := by
  have hmap := (hc.paired g h).mp hg
  obtain ⟨hpending, hname⟩ := hc.queued g h hg hphase
  have hbusy : c.shadowTable.hostIdFree h = false := by
    rw [Bool.eq_false_iff]
    intro hfree
    simp [(ShadowTable.hostIdFree_iff.mp hfree).1] at hmap
  refine ⟨fun t halloc => ?_, by simp [ShadowTable.isHostIdAvailable, hbusy], fun opcode => ?_⟩
  · have hfree := (ShadowTable.allocateHostId_eq_some halloc).1
    rw [hbusy] at hfree
    exact absurd hfree (by simp)
  · have hdeferred : c.renderBuffers.isGuestDestroyed h = false := by
      rw [Bool.eq_false_iff]
      intro htrue
      simp [RenderBufferRegistry.isGuestDestroyed_iff.mp htrue] at hphase
    have hinterface : c.eventInterface h = some .wlBuffer := by
      rcases hname with ⟨hlisted, -⟩ | ⟨hlisted, hi⟩ <;>
        simp [Context.eventInterface, ShadowTable.getHostInterface, ShadowTable.getGuestId,
          ShadowTable.getInterface, *]
    simp [pendingHostEventIsStale, hinterface, ShadowTable.isPendingDestroyHost, hmap,
      ShadowTable.isPendingDestroyGuest, hpending, Context.hostBufferIsGuestDestroyed, hdeferred]

/-- In every session with a host that follows the rules for object IDs, each buffer was
destroyed at most once, not while it awaited its release or was attached to a surface, and the
number of a buffer the proxy created is reserved from the destructor to the acknowledgement. -/
theorem buffer_destructors (hr : (objectSystem maps).Reachable c) :
    (∀ h newer between older a p a' p', c.traffic =
        newer ++ .destroyBuffer h a p :: (between ++ .destroyBuffer h a' p' :: older) →
      .create h ∈ between ∨ .announce h ∈ between) ∧
    (∀ h a p, .destroyBuffer h a p ∈ c.traffic → a = false ∧ p = false) ∧
    ∀ h newer older a p, c.traffic = newer ++ .destroyBuffer h a p :: older →
      lifetimeIn older h = some .created → .deleteId h ∉ newer → Reserved c h := by
  have hc := consistent_of_reachable hr
  refine ⟨fun h newer between older a p a' p' => destroyed_once hc, hc.quiet,
    fun h newer older a p htraffic hcreated hwaits => ?_⟩
  obtain ⟨hlife, hlast⟩ := waiting_buffer hc htraffic hcreated hwaits
  obtain ⟨g, hg, hphase⟩ := hc.doomed h a p hlast hlife
  exact reserved_of_queued hc hg hphase

/-- dma-buf parameters with one plane. -/
def planeRun : List Message :=
  [.newObject 1 2 .wlRegistry, .newObject 2 3 .zwpLinuxDmabufV1, .createParams 3 4,
    .addPlane 4 ⟨0, 0, 4, 0⟩ true]

theorem buffer_destructors_immed : ∃ c, (objectSystem .unscaled).run .new
      (planeRun ++ [.createImmed 4 5 1 1 0x34325258 true, .destroyBuffer 5]) = some c ∧
    c.traffic.head? = some (.destroyBuffer 5 false false) ∧ Reserved c 5 := by
  have hrun : ((objectSystem .unscaled).run .new (planeRun ++
      [.createImmed 4 5 1 1 0x34325258 true, .destroyBuffer 5])).map (·.traffic) =
      some [.destroyBuffer 5 false false, .create 5, .create 4, .create 3, .create 2,
        .create 1] := by decide +kernel
  obtain ⟨c, hc, htraffic⟩ := Option.map_eq_some_iff.mp hrun
  refine ⟨c, hc, by rw [htraffic]; rfl, ?_⟩
  exact (buffer_destructors (.run (.init rfl) hc)).2.2 5 [] _ false false htraffic (by decide)
    (by simp)

/-- The number of a buffer the host announced is not kept: the host never acknowledges the
destructor of an object in its own range. -/
theorem announced_buffer_unreserved :
    ¬ ∀ c, (objectSystem .unscaled).Reachable c → ∀ h newer older a p,
      c.traffic = newer ++ .destroyBuffer h a p :: older → .deleteId h ∉ newer →
      Reserved c h := by
  have hrun : ((objectSystem .unscaled).run .new (planeRun ++
      [.create 4 1 1 0x34325258 true, .created 4 guestServerIdStart,
        .destroyBuffer guestServerIdStart])).map
        (fun c => (c.traffic, c.shadowTable.isHostIdAvailable guestServerIdStart)) =
      some ([.destroyBuffer guestServerIdStart false false, .announce guestServerIdStart,
        .create 4, .create 3, .create 2, .create 1], true) := by decide +kernel
  obtain ⟨c, hc, heq⟩ := Option.map_eq_some_iff.mp hrun
  rw [Prod.mk.injEq] at heq
  intro h
  have hreserved := h c (.run (.init rfl) hc) guestServerIdStart [] _ _ _ heq.1 (by simp)
  exact absurd (heq.2.symm.trans hreserved.2.1) (by decide)

end Sommelier
