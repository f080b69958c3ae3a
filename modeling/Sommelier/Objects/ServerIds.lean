import Mathlib.Order.Interval.Finset.Nat
import Sommelier.Objects.Preservation

/-!
# Numbers the host reuses

The host may announce a new object under a number of its own range as soon as the destructor
of the old one arrived; it never acknowledges that destructor.

## Main definitions

* `Context.Returned`: the host created the object, and the proxy sent its destructor.
* `Context.Announces`: an event that announces a new object to the guest.
* `server_id_reuse`: the announcement is accepted and mapped.
-/
namespace Sommelier

variable {maps : DamageMapping} {lost : Set ℕ} {c : Context} {g h : ℕ} {m : Message}

/-- The newest message about the number is the destructor of an object the host created. -/
def Context.Returned (c : Context) (hostId : ℕ) : Prop :=
  isServerId hostId = true ∧ c.hostLifetime hostId = some .free ∧
    ∃ message, c.lastAbout hostId = some message ∧ message.lifetimeEvent = some (.destroy hostId)

/-- The event reaches the handler of a living object, which expects the new object. -/
def Context.Announces (c : Context) (m : Message) (hostId : ℕ) : Prop :=
  (∃ device, m = .dataOffer device hostId ∧ c.eventInterface device = some .wlDataDevice ∧
    pendingHostEventIsStale c device 0 = false) ∨
  ∃ params, m = .created params hostId ∧ (c.pendingNativeCreates.get params).isSome = true

/-! ## Numbers are free again -/

/-- A number that is free on the host and not lost is free in the tables. -/
theorem Consistent.hostIdFree_of_free (hc : Consistent lost c) (hkept : h ∉ lost)
    (hfree : c.hostLifetime h = some .free)
    (horph : c.shadowTable.hostToGuest.get h = none → c.orphanedDmabufParams.get h = none) :
    c.shadowTable.hostIdFree h = true := by
  rcases hmap : c.shadowTable.hostToGuest.get h with _ | g
  · rcases hc.settled h hkept hmap (horph hmap) with hidle | ⟨-, -, -, hwaits⟩
    · exact hidle
    · simp [hfree] at hwaits
  · have hg := (hc.paired g h).mpr hmap
    have hused : c.hostLifetime h = some (livePhase g) ∨ c.hostLifetime h = some .destroyed := by
      by_cases hlive : g ∉ c.shadowTable.pendingDestroyGuestIds ∨
          c.renderBuffers.phase h = some .guestDestroyed
      · exact .inl (hc.live g h hg hlive)
      · rw [not_or, not_not] at hlive
        exact .inr (hc.dying g h hg hlive.1 hlive.2).1
    rw [hfree, livePhase] at hused
    split_ifs at hused <;> simp at hused

theorem Consistent.returned_available (hc : Consistent lost c) (hkept : h ∉ lost)
    (hreturned : c.Returned h) : c.shadowTable.isHostIdAvailable h = true := by
  obtain ⟨hserver, hfree, message, hlast, hdestroy⟩ := hreturned
  have hidle := hc.hostIdFree_of_free hkept hfree fun hunmapped => by
    cases horph : c.orphanedDmabufParams.get h with
    | none => rfl
    | some g =>
      rcases hc.orphaned h g horph with hmapped | ⟨-, -, -, hacknowledged⟩
      · simp [hunmapped] at hmapped
      · rw [hlast] at hacknowledged
        simp [Option.some.inj hacknowledged, HostTraffic.lifetimeEvent] at hdestroy
  have hlarge : 0xff000000 ≤ h := (of_decide_eq_true hserver).1
  have hone : 1 < h := by omega
  simp [ShadowTable.isHostIdAvailable, hidle, hone]

/-- The guest has a number for the object: it has no more objects of the host than the host
has numbers, and the number in question names none of them. -/
theorem Consistent.guestServerId_free (hc : Consistent lost c) (hserver : isServerId h = true)
    (hfree : c.shadowTable.hostToGuest.get h = none) :
    c.shadowTable.allocateGuestServerId.isSome = true := by
  let range := Finset.Ico guestServerIdStart (2 ^ 32)
  have hmem : ∀ n, n ∈ range ↔ isServerId n = true := by
    intro n
    simp [range, isServerId]
  suffices hid : ∃ g ∈ range, c.shadowTable.guestToHost.get g = none by
    obtain ⟨g, hg, hunmapped⟩ := hid
    have hrange : ShadowTable.isGuestServerId g = true := by
      simp only [range, Finset.mem_Ico] at hg
      simpa [ShadowTable.isGuestServerId] using hg.1
    refine ShadowTable.allocateGuestServerId_isSome (i := ⟨g, Finset.mem_Ico.mp hg⟩) hunmapped ?_
    rw [Option.eq_none_iff_forall_ne_some]
    exact fun i hi => hc.server_mapped g i hi hrange hunmapped
  by_contra hall
  push Not at hall
  -- All guest numbers in use would need all host numbers but this one.
  have hcard : (range.erase h).card < range.card :=
    Finset.card_erase_lt_of_mem ((hmem h).mpr hserver)
  have hmaps : ∀ g ∈ range, (c.shadowTable.guestToHost.get g).getD 0 ∈ range.erase h := by
    intro g hg
    obtain ⟨n, hn⟩ := Option.ne_none_iff_exists'.mp (hall g hg)
    have hrange : ShadowTable.isGuestServerId g = true := by
      simpa [ShadowTable.isGuestServerId] using (Finset.mem_Ico.mp hg).1
    rw [hn, Option.getD_some, Finset.mem_erase, hmem]
    refine ⟨?_, hc.server_range g n hn hrange⟩
    rintro rfl
    simp [(hc.paired g n).mp hn] at hfree
  obtain ⟨g, hg, g', hg', hne, heq⟩ :=
    Finset.exists_ne_map_eq_of_card_lt_of_maps_to hcard hmaps
  obtain ⟨n, hn⟩ := Option.ne_none_iff_exists'.mp (hall g hg)
  obtain ⟨n', hn'⟩ := Option.ne_none_iff_exists'.mp (hall g' hg')
  simp only [hn, hn', Option.getD_some] at heq
  exact hne (hc.paired.guest_inj hn (heq ▸ hn'))

/-! ## Announcements -/

theorem mapAnnouncedId_mapped (sender : ℕ) {i : Interface}
    (hfree : c.shadowTable.hostToGuest.get h = none)
    (hguest : c.shadowTable.allocateGuestServerId.isSome = true) :
    ∃ c' g, mapAnnouncedId c sender h i = some c' ∧
      c'.shadowTable.getGuestId h = some g ∧ c'.shadowTable.getHostId g = some h ∧
      c'.shadowTable.getInterface g = some i := by
  obtain ⟨⟨g, t⟩, halloc⟩ := Option.isSome_iff_exists.mp hguest
  obtain ⟨-, hg, -, n, rfl⟩ := ShadowTable.allocateGuestServerId_eq_some halloc
  refine ⟨_, g, by rw [mapAnnouncedId, halloc]; rfl, ?_⟩
  have hregister := ShadowTable.registerObject_fresh
    (t := { c.shadowTable with nextGuestServerId := n }) hg hfree i
    ((c.shadowTable.hostObjectVersion sender).getD unknownObjectVersion)
    ((c.shadowTable.hostObjectVersion sender).getD unknownObjectVersion)
  simp only [Context.queue, hregister, ShadowTable.getGuestId, ShadowTable.getHostId,
    ShadowTable.getInterface, Table.get_set, if_true, and_self]

/-- The host answers parameters that await a buffer: the event is delivered. -/
theorem Consistent.deliver_created (hc : Consistent lost c) {params : ℕ}
    (hp : (c.pendingNativeCreates.get params).isSome = true)
    (handle : Context → Option Context) :
    deliver c params 0 .zwpLinuxBufferParamsV1 handle = handle c := by
  obtain ⟨p, hp⟩ := Option.isSome_iff_exists.mp hp
  obtain ⟨hmap, hi, hlive, -⟩ := hc.creating params p hp
  have hunlisted := hc.unlisted _ params ((hc.paired _ _).mpr hmap) hlive
  have hname : c.eventInterface params = some .zwpLinuxBufferParamsV1 := by
    simp [Context.eventInterface, ShadowTable.getHostInterface, ShadowTable.getGuestId,
      ShadowTable.getInterface, hunlisted, hmap, hi]
  have hstale : pendingHostEventIsStale c params 0 = false := by
    simp [pendingHostEventIsStale, ShadowTable.isPendingDestroyHost, hmap,
      ShadowTable.isPendingDestroyGuest, hlive]
  simp [deliver, hname, hstale]

/-- As long as the host announced no buffer under the number for parameters that were
already destroyed, it may reuse the number once the destructor was sent: the announcement
of the next object is accepted, and the object is mapped. The host follows the rules for object
IDs in the session before. -/
theorem server_id_reuse
    (hr : (objectSystem maps).ReachableWhile (fun c m => h ∉ c.Orphans m) c)
    (hreturned : c.Returned h) (hm : c.Announces m h) :
    ∃ c' g, step maps c m = some c' ∧ c'.shadowTable.getGuestId h = some g ∧
      c'.shadowTable.getHostId g = some h := by
  have hc : Consistent {h}ᶜ c := consistent_of_reachableWhile
    (hr.mono fun _ _ hkept => Set.subset_compl_singleton_iff.mpr hkept)
  have havail := hc.returned_available (by simp) hreturned
  have hfree : c.shadowTable.hostIdFree h = true := (Bool.and_eq_true_iff.mp havail).2
  have hunmapped := (ShadowTable.hostIdFree_iff.mp hfree).1
  have hguest := hc.guestServerId_free hreturned.1 hunmapped
  rcases hm with ⟨device, rfl, hname, hstale⟩ | ⟨params, rfl, hp⟩
  · obtain ⟨c', g, h', hhost, hmap, -⟩ := mapAnnouncedId_mapped device
      (i := .wlDataOffer) hunmapped hguest
    refine ⟨c', g, ?_, hhost, hmap⟩
    simp [step, hostConforms, hreturned.1, hreturned.2.1, requestStep, eventStep, deliver, hname,
      hstale, guarded, havail, h']
  · obtain ⟨p, hget⟩ := Option.isSome_iff_exists.mp hp
    obtain ⟨c', g, h', hhost, hmap, -⟩ := mapAnnouncedId_mapped (c := (onCreated c params h).2)
      (i := .wlBuffer) (h := h) params
      (by rw [onCreated_awaited hc hfree hget]; exact hunmapped)
      (by rw [onCreated_awaited hc hfree hget]; exact hguest)
    refine ⟨c', g, ?_, hhost, hmap⟩
    rw [onCreated_awaited hc hfree hget] at h'
    have hsafe := safe_of_reachable hr.reachable
    simpa [step, hostConforms, hreturned.1, hreturned.2.1, hp, requestStep, eventStep,
      hc.deliver_created hp, guarded, havail, onCreated_awaited hc hfree hget, settle, hsafe]
      using h'

/-- A data device, and parameters of which the host was asked a buffer. -/
def awaitedRun : List Message :=
  [.newObject 1 2 .wlRegistry, .newObject 2 3 .zwpLinuxDmabufV1,
    .newObject 2 4 .wlDataDeviceManager, .newObject 4 5 .wlDataDevice, .createParams 3 6,
    .addPlane 6 ⟨0, 0, 4, 0⟩ true, .create 6 1 1 0x34325258 true]

theorem server_id_reuse_offer : ∃ c c' g,
    (objectSystem .unscaled).run .new (awaitedRun ++ [.created 6 guestServerIdStart,
      .destroyBuffer guestServerIdStart]) = some c ∧
    step .unscaled c (.dataOffer 5 guestServerIdStart) = some c' ∧
    c'.shadowTable.getGuestId guestServerIdStart = some g ∧
    c'.shadowTable.getHostId g = some guestServerIdStart := by
  let test : Context → Message → Bool := fun c m => match m with
    | .created params _ => (c.orphanedDmabufParams.get params).isNone
    | _ => true
  have htest : ∀ c m, test c m = true → guestServerIdStart ∉ c.Orphans m := by
    rintro c m hpass ⟨params, rfl, horph⟩
    simp [Option.isNone_iff_eq_none.mp hpass] at horph
  have hrun : (((objectSystem .unscaled).restrict test).run .new (awaitedRun ++
      [.created 6 guestServerIdStart, .destroyBuffer guestServerIdStart])).map (fun c =>
        (c.hostLifetime guestServerIdStart, c.lastAbout guestServerIdStart, c.eventInterface 5,
          pendingHostEventIsStale c 5 0)) =
      some (some .free, some (.destroyBuffer guestServerIdStart false false),
        some .wlDataDevice, false) := by decide +kernel
  obtain ⟨c, hc, heq⟩ := Option.map_eq_some_iff.mp hrun
  simp only [Prod.mk.injEq] at heq
  obtain ⟨hfree, hlast, hname, hstale⟩ := heq
  obtain ⟨c', g, h'⟩ := server_id_reuse
    (TransitionSystem.Reachable.of_restrict htest (.run (.init rfl) hc))
    ⟨rfl, hfree, _, hlast, rfl⟩ (.inl ⟨5, rfl, hname, hstale⟩)
  exact ⟨c, c', g, TransitionSystem.run_of_restrict hc, h'⟩

/-- A buffer for parameters that were destroyed in the meantime is destroyed on arrival, and
its number is never free again: the next object of that number ends the session. -/
theorem orphaned_buffer_keeps_id : ¬ ∀ c, (objectSystem .unscaled).Reachable c → ∀ h m,
    c.Returned h → c.Announces m h → ∃ c' g, step .unscaled c m = some c' ∧
      c'.shadowTable.getGuestId h = some g ∧ c'.shadowTable.getHostId g = some h := by
  have hrun : ((objectSystem .unscaled).run .new (awaitedRun ++ [.destroyParams 6,
      .created 6 guestServerIdStart])).map (fun c =>
        (c.hostLifetime guestServerIdStart, c.lastAbout guestServerIdStart, c.eventInterface 5,
          pendingHostEventIsStale c 5 0,
          (step .unscaled c (.dataOffer 5 guestServerIdStart)).isSome)) =
      some (some .free, some (.destroyBuffer guestServerIdStart false false),
        some .wlDataDevice, false, false) := by decide +kernel
  obtain ⟨c, hc, heq⟩ := Option.map_eq_some_iff.mp hrun
  simp only [Prod.mk.injEq] at heq
  obtain ⟨hfree, hlast, hname, hstale, hends⟩ := heq
  intro hall
  obtain ⟨c', g, hstep, -⟩ := hall c (.run (.init rfl) hc) guestServerIdStart _
    ⟨rfl, hfree, _, hlast, rfl⟩ (.inl ⟨5, rfl, hname, hstale⟩)
  simp [hstep] at hends

end Sommelier
