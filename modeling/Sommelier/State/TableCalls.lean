import Sommelier.Lib.Transition
import Sommelier.State.ShadowTable

/-!
# Calls on the shadow table

The handlers share one shadow table and each changes it through a few calls. The calls keep
the two ID maps inverse, the destruction marks on objects that exist, and the numbers that
wait for the host out of the pairs.

## Main definitions

* `TableCall`: the calls, and the notes on orphaned dma-buf parameters that go with them.
* `TableClient`: the table with those notes and the numbers the proxy uses for itself.
* `TableClient.makes`: how the handlers call.
* `shadow_table_consistency`: the table is consistent after every sequence of calls.
-/
namespace Sommelier

inductive TableCall
  | allocateHostId
  | allocateGuestServerId
  | mapId (guestId hostId : ℕ)
  | trackInterface (guestId : ℕ) (interface : Interface)
  | trackInterfaceWithVersion (guestId : ℕ) (interface : Interface) (version : ℕ)
  | trackHostInterface (hostId : ℕ) (interface : Interface)
  | trackHostInterfaceWithVersion (hostId : ℕ) (interface : Interface) (version : ℕ)
  | setHostVersion (hostId version : ℕ)
  | removeId (guestId : ℕ)
  | removeGuestMapping (guestId : ℕ)
  | removeHostInterface (hostId : ℕ)
  | retireServerDestroyedObject (guestId : ℕ)
  | retireGuestObject (guestId : ℕ)
  | retireHostInterface (hostId : ℕ)
  | markPendingDestroy (guestId : ℕ)
  | markPendingDestroyHost (hostId : ℕ)
  | consumeHostDeleteId (hostId : ℕ)
  | clearPendingDestroyGuest (guestId : ℕ)
  | orphanParams (hostId guestId : ℕ)
  | forgetOrphan (hostId : ℕ)
  deriving DecidableEq, Repr

/-- The table, the orphaned parameters by host ID, and the numbers of host objects that were
registered without a guest object. While the guest half of orphaned parameters is removed,
`halfRemoved` names the guest ID whose mark is still to be cleared. -/
structure TableClient where
  table : ShadowTable
  orphanedDmabufParams : Table ℕ ℕ
  hostOnly : Finset ℕ
  halfRemoved : Option ℕ

namespace TableClient

/-- Only `wl_display` exists on both sides. -/
def new : TableClient where
  table := (ShadowTable.new.mapId 1 1).trackInterface 1 .wlDisplay
  orphanedDmabufParams := ∅
  hostOnly := ∅
  halfRemoved := none

/-- The parameters with this guest ID wait for an answer the guest no longer cares about. -/
def isOrphan (c : TableClient) (guestId : ℕ) : Bool :=
  c.orphanedDmabufParams.any fun _ orphan => orphan == guestId

/-- A guest ID for a new object: one the guest may choose, or one just allocated for it. -/
def mayBeNew (c : TableClient) (guestId : ℕ) : Bool :=
  c.table.isGuestIdAvailable guestId ||
    (ShadowTable.isGuestServerId guestId && (c.table.guestToHost.get guestId).isNone &&
      (c.table.interfaces.get guestId).isNone)

/-- How the handlers call. New objects get free numbers. Only the acknowledgement of orphaned
parameters splits an object that is being destroyed, and clears its mark next. Numbers are
retired only for the objects the proxy registered for itself. -/
def makes (c : TableClient) (call : TableCall) : Bool :=
  (c.halfRemoved.all fun guestId => call == .clearPendingDestroyGuest guestId) &&
    match call with
    | .mapId guestId hostId => c.mayBeNew guestId && c.table.isHostIdAvailable hostId
    | .removeGuestMapping guestId => !c.table.isPendingDestroyGuest guestId || c.isOrphan guestId
    | .retireServerDestroyedObject guestId => !c.table.isPendingDestroyGuest guestId
    | .retireHostInterface hostId => decide (hostId ∈ c.hostOnly)
    | _ => true

/-- A host object is registered; it is one of the proxy's own when it has no guest object. -/
def registerHost (c : TableClient) (hostId : ℕ) (table : ShadowTable) : TableClient :=
  { c with
    table
    hostOnly := if (c.table.hostToGuest.get hostId).isNone then insert hostId c.hostOnly
      else c.hostOnly }

/-- The effect of a call; `none` when an allocator panics. -/
def apply (c : TableClient) : TableCall → Option TableClient
  | .allocateHostId => c.table.allocateHostId.map fun result => { c with table := result.2 }
  | .allocateGuestServerId =>
    c.table.allocateGuestServerId.map fun result => { c with table := result.2 }
  | .mapId guestId hostId => some { c with table := c.table.mapId guestId hostId }
  | .trackInterface guestId interface =>
    some { c with table := c.table.trackInterface guestId interface }
  | .trackInterfaceWithVersion guestId interface version =>
    some { c with table := c.table.trackInterfaceWithVersion guestId interface version }
  | .trackHostInterface hostId interface =>
    some (c.registerHost hostId (c.table.trackHostInterface hostId interface))
  | .trackHostInterfaceWithVersion hostId interface version =>
    some (c.registerHost hostId (c.table.trackHostInterfaceWithVersion hostId interface version))
  | .setHostVersion hostId version =>
    some { c with table := c.table.setHostVersion hostId version }
  | .removeId guestId => some { c with table := c.table.removeId guestId }
  | .removeGuestMapping guestId =>
    some { c with
      table := c.table.removeGuestMapping guestId
      halfRemoved := if c.table.isPendingDestroyGuest guestId then some guestId else none }
  | .removeHostInterface hostId =>
    some { c with
      table := c.table.removeHostInterface hostId
      hostOnly := c.hostOnly.erase hostId }
  | .retireServerDestroyedObject guestId =>
    some { c with table := (c.table.retireServerDestroyedObject guestId).2 }
  | .retireGuestObject guestId => some { c with table := c.table.retireGuestObject guestId }
  | .retireHostInterface hostId => some { c with table := c.table.retireHostInterface hostId }
  | .markPendingDestroy guestId => some { c with table := c.table.markPendingDestroy guestId }
  | .markPendingDestroyHost hostId =>
    some { c with table := (c.table.markPendingDestroyHost hostId).2 }
  | .consumeHostDeleteId hostId =>
    let (consumed, table) := c.table.consumeHostDeleteId hostId
    some { c with
      table
      hostOnly := if consumed then c.hostOnly.erase hostId else c.hostOnly }
  | .clearPendingDestroyGuest guestId =>
    some { c with table := c.table.clearPendingDestroyGuest guestId, halfRemoved := none }
  | .orphanParams hostId guestId =>
    some { c with orphanedDmabufParams := c.orphanedDmabufParams.set hostId guestId }
  | .forgetOrphan hostId =>
    some { c with orphanedDmabufParams := c.orphanedDmabufParams.erase hostId }

end TableClient

/-- The shadow table of a session under the calls of its handlers. -/
def tableCalls : TransitionSystem TableClient TableCall where
  init c := c = .new
  step c call := if c.makes call then c.apply call else none

/-! ## The invariant -/

namespace TableClient
variable {c c' : TableClient} {call : TableCall} {t : ShadowTable} {g h : ℕ}

/-- The number waits for the host: it was retired, or its destructor is on the way. -/
def Waits (t : ShadowTable) (hostId : ℕ) : Prop :=
  hostId ∈ t.retiredHostIds ∨ hostId ∈ t.pendingDestroyHostIds

structure Consistent (c : TableClient) : Prop where
  paired : c.table.Paired
  pending : ∀ g ∈ c.table.pendingDestroyGuestIds,
    (c.table.guestToHost.get g).isSome = true ∨ c.halfRemoved = some g
  orphaned : ∀ g, c.halfRemoved = some g → c.isOrphan g = true
  settled : ∀ h g, c.table.hostToGuest.get h = some g → ¬ Waits c.table h
  hostOnly : ∀ h ∈ c.hostOnly, c.table.hostToGuest.get h = none ∧
    ((c.table.hostInterfaces.get h).isSome = true ∨ Waits c.table h)

/-- A call that leaves the pairs and the marks alone, and forgets no number of the proxy. -/
theorem Consistent.frame (hc : c.Consistent) (hguest : t.guestToHost = c.table.guestToHost)
    (hhost : t.hostToGuest = c.table.hostToGuest)
    (hpending : t.pendingDestroyGuestIds = c.table.pendingDestroyGuestIds)
    (hwaits : ∀ h, Waits t h ↔ Waits c.table h)
    (hkept : ∀ h, (c.table.hostInterfaces.get h).isSome = true →
      (t.hostInterfaces.get h).isSome = true) : { c with table := t }.Consistent where
  paired g h := by
    rw [hguest, hhost]
    exact hc.paired g h
  pending g hg := by
    rw [hpending] at hg
    rw [hguest]
    exact hc.pending g hg
  orphaned := hc.orphaned
  settled h g hh := by
    rw [hhost] at hh
    rw [hwaits]
    exact hc.settled h g hh
  hostOnly h hmem := by
    obtain ⟨hnone, hknown⟩ := hc.hostOnly h hmem
    rw [hhost, hwaits]
    exact ⟨hnone, hknown.imp_left (hkept h)⟩

theorem Consistent.mapId (hc : c.Consistent) (hg : c.mayBeNew g = true)
    (hh : c.table.isHostIdAvailable h = true) :
    { c with table := c.table.mapId g h }.Consistent := by
  have hguest : c.table.guestToHost.get g = none := by
    simp only [mayBeNew, ShadowTable.isGuestIdAvailable, Bool.or_eq_true, Bool.and_eq_true,
      Option.isNone_iff_eq_none] at hg
    rcases hg with hg | hg
    · exact hg.1.2
    · exact hg.1.2
  simp only [ShadowTable.isHostIdAvailable, Bool.and_eq_true, ShadowTable.hostIdFree_iff] at hh
  obtain ⟨-, hhost, hinterface, hretired, hdestroyed⟩ := hh
  have hmap := ShadowTable.mapId_fresh hguest hhost
  have hpaired := hc.paired.mapId hguest hhost
  rw [hmap] at hpaired ⊢
  constructor
  case paired => exact hpaired
  case pending =>
    intro g' hg'
    refine (hc.pending g' hg').imp_left fun hmapped => ?_
    simp only [Table.get_set]
    split_ifs
    · rfl
    · exact hmapped
  case orphaned => exact hc.orphaned
  case settled =>
    intro h' g' hh'
    simp only [Table.get_set] at hh'
    split_ifs at hh' with heq
    · subst heq
      exact not_or.mpr ⟨hretired, hdestroyed⟩
    · exact hc.settled h' g' hh'
  case hostOnly =>
    intro h' hmem
    obtain ⟨hnone, hknown⟩ := hc.hostOnly h' hmem
    have hne : h' ≠ h := by
      rintro rfl
      rcases hknown with hknown | hknown
      · simp [hinterface] at hknown
      · exact not_or.mpr ⟨hretired, hdestroyed⟩ hknown
    exact ⟨by simp [hne, hnone], hknown⟩

/-- A pair is undone; its guest number is not marked any more, or its mark is still to be
cleared. -/
theorem Consistent.unpair (hc : c.Consistent) {half : Option ℕ}
    (hguest : ∀ g', t.guestToHost.get g' =
      if g' = g then none else c.table.guestToHost.get g')
    (hhost : ∀ h, t.hostToGuest.get h =
      if c.table.guestToHost.get g = some h then none else c.table.hostToGuest.get h)
    (hpending : ∀ g' ∈ t.pendingDestroyGuestIds,
      g' ∈ c.table.pendingDestroyGuestIds ∧ (g' ≠ g ∧ c.halfRemoved ≠ some g' ∨ half = some g'))
    (horphaned : ∀ g', half = some g' → c.isOrphan g' = true)
    (hwaits : ∀ h, Waits t h ↔ Waits c.table h)
    (hkept : ∀ h, c.table.guestToHost.get g ≠ some h →
      (c.table.hostInterfaces.get h).isSome = true → (t.hostInterfaces.get h).isSome = true) :
    { c with table := t, halfRemoved := half }.Consistent where
  paired := hc.paired.unpair hguest hhost
  pending g' hg' := by
    obtain ⟨hold, ⟨hne, hhalf⟩ | hhalf⟩ := hpending g' hg'
    · rw [hguest, if_neg hne]
      exact .inl ((hc.pending g' hold).resolve_right hhalf)
    · exact .inr hhalf
  orphaned := horphaned
  settled h g' hh := by
    rw [hhost] at hh
    split_ifs at hh
    rw [hwaits]
    exact hc.settled h g' hh
  hostOnly h hmem := by
    obtain ⟨hnone, hknown⟩ := hc.hostOnly h hmem
    have hne : c.table.guestToHost.get g ≠ some h := by
      intro hg
      rw [hc.paired, hnone] at hg
      cases hg
    rw [hhost, if_neg hne, hwaits]
    exact ⟨hnone, hknown.imp_left (hkept h hne)⟩

theorem Consistent.removeId (hc : c.Consistent) (hhalf : c.halfRemoved = none) (g : ℕ) :
    { c with table := c.table.removeId g }.Consistent := by
  refine hc.unpair (g := g) (ShadowTable.removeId_guestToHost c.table g)
    (ShadowTable.removeId_hostToGuest c.table g) (fun g' hg' => ?_) hc.orphaned
    (fun h => ?_) (fun h hne hkept => ?_)
  · rw [hhalf]
    cases hg : c.table.guestToHost.get g <;>
      simp_all [ShadowTable.removeId_unmapped, ShadowTable.removeId_mapped]
  · cases hg : c.table.guestToHost.get g <;>
      simp [Waits, ShadowTable.removeId_unmapped, ShadowTable.removeId_mapped, hg]
  · cases hg : c.table.guestToHost.get g with
    | none => simpa [ShadowTable.removeId_unmapped hg] using hkept
    | some h' =>
      have hother : h ≠ h' := fun heq => hne (heq ▸ hg)
      simpa [ShadowTable.removeId_mapped hg, hother] using hkept

theorem waits_removeGuestMapping (hp : c.table.Paired) (g h : ℕ) :
    Waits (c.table.removeGuestMapping g) h ↔ Waits c.table h := by
  cases hg : c.table.guestToHost.get g with
  | none => rw [ShadowTable.removeGuestMapping_unmapped hg]; rfl
  | some h' => rw [hp.removeGuestMapping_eq hg]; rfl

theorem Consistent.removeGuestMapping (hc : c.Consistent) (hhalf : c.halfRemoved = none)
    (hg : c.table.isPendingDestroyGuest g = true → c.isOrphan g = true) :
    { c with
      table := c.table.removeGuestMapping g
      halfRemoved := if c.table.isPendingDestroyGuest g then some g else none }.Consistent := by
  have hpending : (c.table.removeGuestMapping g).pendingDestroyGuestIds =
      c.table.pendingDestroyGuestIds := by
    cases hmap : c.table.guestToHost.get g with
    | none => rw [ShadowTable.removeGuestMapping_unmapped hmap]
    | some h => rw [hc.paired.removeGuestMapping_eq hmap]
  refine hc.unpair (g := g) (ShadowTable.removeGuestMapping_guestToHost c.table g)
    (hc.paired.removeGuestMapping_hostToGuest g) (fun g' hg' => ?_) (fun g' hg' => ?_)
    (waits_removeGuestMapping hc.paired g) (fun h hne hkept => ?_)
  · rw [hpending] at hg'
    refine ⟨hg', ?_⟩
    rw [hhalf]
    by_cases heq : g' = g
    · subst heq
      simp [ShadowTable.isPendingDestroyGuest, hg']
    · simp [heq]
  · split_ifs at hg' with hmarked
    rw [← Option.some.inj hg']
    exact hg hmarked
  · cases hmap : c.table.guestToHost.get g with
    | none => rwa [ShadowTable.removeGuestMapping_unmapped hmap]
    | some h' =>
      rw [hc.paired.removeGuestMapping_eq hmap]
      dsimp only
      split
      · rw [Table.get_set]
        split_ifs
        · rfl
        · exact hkept
      · exact hkept

/-- A call about one host number that is in no pair. -/
theorem Consistent.unpaired (hc : c.Consistent) {only : Finset ℕ}
    (hunpaired : c.table.hostToGuest.get h = none)
    (hguest : t.guestToHost = c.table.guestToHost)
    (hhost : t.hostToGuest = c.table.hostToGuest)
    (hpending : t.pendingDestroyGuestIds = c.table.pendingDestroyGuestIds)
    (hother : ∀ h', h' ≠ h → (Waits t h' ↔ Waits c.table h') ∧
      t.hostInterfaces.get h' = c.table.hostInterfaces.get h' ∧ (h' ∈ only → h' ∈ c.hostOnly))
    (hself : h ∈ only → (t.hostInterfaces.get h).isSome = true ∨ Waits t h) :
    { c with table := t, hostOnly := only }.Consistent where
  paired g h := by
    rw [hguest, hhost]
    exact hc.paired g h
  pending g hg := by
    rw [hpending] at hg
    rw [hguest]
    exact hc.pending g hg
  orphaned := hc.orphaned
  settled h' g hh := by
    rw [hhost] at hh
    have hne : h' ≠ h := by
      rintro rfl
      rw [hunpaired] at hh
      cases hh
    rw [(hother h' hne).1]
    exact hc.settled h' g hh
  hostOnly h' hmem := by
    rw [hhost]
    by_cases heq : h' = h
    · subst heq
      exact ⟨hunpaired, hself hmem⟩
    · obtain ⟨hwaits, hinterface, honly⟩ := hother h' heq
      rw [hwaits, hinterface]
      exact hc.hostOnly h' (honly hmem)

theorem Consistent.registerHost (hc : c.Consistent)
    (hguest : t.guestToHost = c.table.guestToHost)
    (hhost : t.hostToGuest = c.table.hostToGuest)
    (hpending : t.pendingDestroyGuestIds = c.table.pendingDestroyGuestIds)
    (hwaits : ∀ h', Waits t h' ↔ Waits c.table h') {i : Interface}
    (hinterfaces : t.hostInterfaces = c.table.hostInterfaces.set h i) :
    (c.registerHost h t).Consistent := by
  unfold TableClient.registerHost
  split_ifs with hnone
  · refine hc.unpaired (Option.isNone_iff_eq_none.mp hnone) hguest hhost hpending
      (fun h' hne => ⟨hwaits h', ?_, fun hmem => ?_⟩) fun _ => ?_
    · simp [hinterfaces, hne]
    · exact (Finset.mem_insert.mp hmem).resolve_left hne
    · simp [hinterfaces]
  · refine hc.frame hguest hhost hpending hwaits fun h' hkept => ?_
    rw [hinterfaces, Table.get_set]
    split_ifs
    · rfl
    · exact hkept

theorem Consistent.retireHostInterface (hc : c.Consistent) (hmem : h ∈ c.hostOnly) :
    { c with table := c.table.retireHostInterface h }.Consistent := by
  refine hc.unpaired (hc.hostOnly h hmem).1 rfl rfl rfl (fun h' hne => ⟨?_, ?_, id⟩) fun _ => ?_
  · simp [Waits, ShadowTable.retireHostInterface, hne]
  · simp [ShadowTable.retireHostInterface, hne]
  · simp [Waits, ShadowTable.retireHostInterface]

theorem Consistent.markPendingDestroyHost (hc : c.Consistent) (h : ℕ) :
    { c with table := (c.table.markPendingDestroyHost h).2 }.Consistent := by
  unfold ShadowTable.markPendingDestroyHost
  split_ifs with hrefused
  · exact hc
  · simp only [Bool.or_eq_true, not_or, Bool.not_eq_true, Option.isSome_eq_false_iff,
      Option.isNone_iff_eq_none] at hrefused
    refine hc.unpaired hrefused.1 rfl rfl rfl (fun h' hne => ⟨?_, ?_, id⟩) fun _ => ?_
    · simp [Waits, hne]
    · simp [hne]
    · simp [Waits]

/-- The number of a host object that is gone is in no pair, whether it was one of the proxy's
own or not. -/
theorem Consistent.consumeHostDeleteId (hc : c.Consistent) (h : ℕ) :
    { c with
      table := (c.table.consumeHostDeleteId h).2
      hostOnly := if (c.table.consumeHostDeleteId h).1 then c.hostOnly.erase h
        else c.hostOnly }.Consistent := by
  simp only [ShadowTable.consumeHostDeleteId, decide_eq_true_eq]
  split_ifs with hwaits
  · have hunpaired : c.table.hostToGuest.get h = none := by
      cases hh : c.table.hostToGuest.get h with
      | none => rfl
      | some g => exact absurd (.inr hwaits) (hc.settled h g hh)
    refine hc.unpaired hunpaired rfl rfl rfl (fun h' hne => ⟨?_, rfl, Finset.mem_of_mem_erase⟩)
      fun hmem => absurd rfl (Finset.ne_of_mem_erase hmem)
    simp [Waits, hne]
  · refine hc.frame rfl rfl rfl (fun h' => ?_) fun h' => id
    rw [Waits, Waits, Finset.mem_erase]
    constructor
    · exact Or.imp_right And.right
    · exact Or.imp_right fun hmem => ⟨fun heq => hwaits (heq ▸ hmem), hmem⟩

theorem Consistent.removeHostInterface (hc : c.Consistent) (h : ℕ) :
    { c with
      table := c.table.removeHostInterface h
      hostOnly := c.hostOnly.erase h }.Consistent := by
  constructor
  case paired => exact hc.paired
  case pending => exact hc.pending
  case orphaned => exact hc.orphaned
  case settled =>
    intro h' g hh hwaits
    refine hc.settled h' g hh ?_
    exact hwaits.imp Finset.mem_of_mem_erase Finset.mem_of_mem_erase
  case hostOnly =>
    intro h' hmem
    obtain ⟨hne, hmem⟩ := Finset.mem_erase.mp hmem
    obtain ⟨hnone, hknown⟩ := hc.hostOnly h' hmem
    refine ⟨hnone, ?_⟩
    simpa [Waits, ShadowTable.removeHostInterface, hne] using hknown

theorem Consistent.retireServerDestroyedObject (hc : c.Consistent)
    (hhalf : c.halfRemoved = none) (hg : c.table.isPendingDestroyGuest g = false) :
    { c with table := (c.table.retireServerDestroyedObject g).2 }.Consistent := by
  unfold ShadowTable.retireServerDestroyedObject
  split
  · exact hc
  · have hremoved := hc.removeGuestMapping hhalf (g := g) (by simp [hg])
    rw [hg, if_neg (Bool.false_ne_true)] at hremoved
    have hsame : c = { c with halfRemoved := none } := by rw [← hhalf]
    rw [hsame]
    exact hremoved.markPendingDestroyHost _

/-- A mark on a guest object that exists. -/
theorem Consistent.mark (hc : c.Consistent) (hmapped : (c.table.guestToHost.get g).isSome = true)
    (hguest : t.guestToHost = c.table.guestToHost)
    (hhost : t.hostToGuest = c.table.hostToGuest)
    (hpending : t.pendingDestroyGuestIds = insert g c.table.pendingDestroyGuestIds)
    (hwaits : ∀ h, Waits t h ↔ Waits c.table h)
    (hkept : ∀ h, (c.table.hostInterfaces.get h).isSome = true →
      (t.hostInterfaces.get h).isSome = true) : { c with table := t }.Consistent where
  paired g h := by
    rw [hguest, hhost]
    exact hc.paired g h
  pending g' hg' := by
    rw [hpending, Finset.mem_insert] at hg'
    rw [hguest]
    rcases hg' with rfl | hg'
    · exact .inl hmapped
    · exact hc.pending g' hg'
  orphaned := hc.orphaned
  settled h g hh := by
    rw [hhost] at hh
    rw [hwaits]
    exact hc.settled h g hh
  hostOnly h hmem := by
    obtain ⟨hnone, hknown⟩ := hc.hostOnly h hmem
    rw [hhost, hwaits]
    exact ⟨hnone, hknown.imp_left (hkept h)⟩

theorem Consistent.markPendingDestroy (hc : c.Consistent) (g : ℕ) :
    { c with table := c.table.markPendingDestroy g }.Consistent := by
  cases hg : c.table.guestToHost.get g with
  | none => simpa [ShadowTable.markPendingDestroy, hg] using hc
  | some h =>
    rw [ShadowTable.markPendingDestroy_mapped hg]
    exact hc.mark (by rw [hg]; rfl) rfl rfl rfl (fun _ => Iff.rfl) fun _ => id

theorem Consistent.retireGuestObject (hc : c.Consistent) (g : ℕ) :
    { c with table := c.table.retireGuestObject g }.Consistent := by
  unfold ShadowTable.retireGuestObject
  dsimp only
  split
  next h i hg hi =>
    refine hc.mark (by rw [hg]; rfl) rfl rfl rfl (fun _ => Iff.rfl) fun h' hkept => ?_
    dsimp only
    split
    · exact hkept
    · rw [Table.get_set]
      split_ifs
      · rfl
      · exact hkept
  next => exact hc.frame rfl rfl rfl (fun _ => Iff.rfl) fun _ => id

theorem Consistent.clearPendingDestroyGuest (hc : c.Consistent)
    (hhalf : c.halfRemoved.all fun g' => g' == g) :
    { c with table := c.table.clearPendingDestroyGuest g, halfRemoved := none }.Consistent where
  paired := hc.paired
  pending g' hg' := by
    obtain ⟨hne, hg'⟩ := Finset.mem_erase.mp hg'
    refine .inl ((hc.pending g' hg').resolve_right fun heq => hne ?_)
    simpa [heq] using hhalf
  orphaned g' hg' := by cases hg'
  settled := hc.settled
  hostOnly := hc.hostOnly

/-- A call other than the awaited one is made only when none is awaited. -/
theorem halfRemoved_of_makes (hmakes : c.makes call = true)
    (hother : ∀ g, call ≠ .clearPendingDestroyGuest g) : c.halfRemoved = none := by
  cases hhalf : c.halfRemoved with
  | none => rfl
  | some g =>
    simp only [makes, hhalf, Option.all_some, Bool.and_eq_true, beq_iff_eq] at hmakes
    exact absurd hmakes.1 (hother g)

theorem consistent_new : new.Consistent where
  paired g h := by
    by_cases hg : g = 1 <;> by_cases hh : h = 1 <;>
      simp [new, ShadowTable.new, ShadowTable.mapId, ShadowTable.trackInterface, hg, hh, eq_comm]
  pending g hg := by
    simp [new, ShadowTable.new, ShadowTable.mapId, ShadowTable.trackInterface] at hg
  orphaned g hg := by cases hg
  settled h g _ := by simp [Waits, new, ShadowTable.new, ShadowTable.mapId,
    ShadowTable.trackInterface]
  hostOnly h hh := by simp [new] at hh

theorem Consistent.apply (hc : c.Consistent) (hmakes : c.makes call = true)
    (happly : c.apply call = some c') : c'.Consistent := by
  have hargs := (Bool.and_eq_true_iff.mp hmakes).2
  cases call with
  | allocateHostId =>
    obtain ⟨⟨h, t⟩, ht, rfl⟩ := Option.map_eq_some_iff.mp happly
    obtain ⟨-, -, n, rfl⟩ := ShadowTable.allocateHostId_eq_some ht
    exact hc.frame rfl rfl rfl (fun _ => Iff.rfl) fun _ => id
  | allocateGuestServerId =>
    obtain ⟨⟨g, t⟩, ht, rfl⟩ := Option.map_eq_some_iff.mp happly
    obtain ⟨-, -, -, n, rfl⟩ := ShadowTable.allocateGuestServerId_eq_some ht
    exact hc.frame rfl rfl rfl (fun _ => Iff.rfl) fun _ => id
  | mapId g h =>
    cases happly
    obtain ⟨hg, hh⟩ := Bool.and_eq_true_iff.mp hargs
    exact hc.mapId hg hh
  | trackInterface g i =>
    cases happly
    exact hc.frame rfl rfl rfl (fun _ => Iff.rfl) fun _ => id
  | trackInterfaceWithVersion g i version =>
    cases happly
    exact hc.frame rfl rfl rfl (fun _ => Iff.rfl) fun _ => id
  | trackHostInterface h i =>
    cases happly
    exact hc.registerHost rfl rfl rfl (fun _ => Iff.rfl) rfl
  | trackHostInterfaceWithVersion h i version =>
    cases happly
    exact hc.registerHost rfl rfl rfl (fun _ => Iff.rfl) rfl
  | setHostVersion h version =>
    cases happly
    exact hc.frame rfl rfl rfl (fun _ => Iff.rfl) fun _ => id
  | removeId g =>
    cases happly
    exact hc.removeId (halfRemoved_of_makes hmakes fun _ => by simp) g
  | removeGuestMapping g =>
    cases happly
    refine hc.removeGuestMapping (halfRemoved_of_makes hmakes fun _ => by simp) fun hpending => ?_
    simpa [hpending] using hargs
  | removeHostInterface h =>
    cases happly
    exact hc.removeHostInterface h
  | retireServerDestroyedObject g =>
    cases happly
    exact hc.retireServerDestroyedObject (halfRemoved_of_makes hmakes fun _ => by simp)
      (by simpa using hargs)
  | retireGuestObject g =>
    cases happly
    exact hc.retireGuestObject g
  | retireHostInterface h =>
    cases happly
    exact hc.retireHostInterface (of_decide_eq_true hargs)
  | markPendingDestroy g =>
    cases happly
    exact hc.markPendingDestroy g
  | markPendingDestroyHost h =>
    cases happly
    exact hc.markPendingDestroyHost h
  | consumeHostDeleteId h =>
    cases happly
    exact hc.consumeHostDeleteId h
  | clearPendingDestroyGuest g =>
    cases happly
    refine hc.clearPendingDestroyGuest ?_
    have hawaited := (Bool.and_eq_true_iff.mp hmakes).1
    cases hhalf : c.halfRemoved with
    | none => rfl
    | some g' =>
      simp only [hhalf, Option.all_some, beq_iff_eq, TableCall.clearPendingDestroyGuest.injEq]
        at hawaited ⊢
      exact hawaited.symm
  | orphanParams h g =>
    cases happly
    have hhalf := halfRemoved_of_makes hmakes fun _ => by simp
    exact ⟨hc.paired, hc.pending, fun g' hg' => (by simp [hhalf] at hg'), hc.settled, hc.hostOnly⟩
  | forgetOrphan h =>
    cases happly
    have hhalf := halfRemoved_of_makes hmakes fun _ => by simp
    exact ⟨hc.paired, hc.pending, fun g' hg' => (by simp [hhalf] at hg'), hc.settled, hc.hostOnly⟩

end TableClient

theorem tableCalls_consistent {c : TableClient} (hc : tableCalls.Reachable c) :
    c.Consistent := by
  refine hc.invariant (fun c hinit => ?_) fun c call c' _ hc _ hstep => ?_
  · obtain rfl : c = .new := hinit
    exact TableClient.consistent_new
  · change (if c.makes call then c.apply call else none) = some c' at hstep
    split_ifs at hstep with hmakes
    exact hc.apply hmakes hstep

/-- After every sequence of calls the two ID maps are inverse to each other, a guest ID marked
for destruction is mapped or is that of orphaned parameters, and no host ID is paired while it
waits for the host. -/
theorem shadow_table_consistency {calls : List TableCall} {c : TableClient}
    (h : tableCalls.run .new calls = some c) :
    c.table.Paired ∧
    (∀ g ∈ c.table.pendingDestroyGuestIds, (c.table.guestToHost.get g).isSome = true ∨
      ∃ hostId, c.orphanedDmabufParams.get hostId = some g) ∧
    ∀ hostId g, c.table.hostToGuest.get hostId = some g →
      hostId ∉ c.table.retiredHostIds ∧ hostId ∉ c.table.pendingDestroyHostIds := by
  have hc := tableCalls_consistent (.run (.init rfl) h)
  refine ⟨hc.paired, fun g hg => (hc.pending g hg).imp_right fun hhalf => ?_,
    fun hostId g hpair => not_or.mp (hc.settled hostId g hpair)⟩
  simpa [TableClient.isOrphan] using hc.orphaned g hhalf

/-- Parameters destroyed before the host answered: their guest half is removed while they are
still marked. -/
theorem shadow_table_consistency_orphan :
    ∃ c, tableCalls.run .new [.mapId 7 5, .trackInterface 7 .zwpLinuxBufferParamsV1,
      .orphanParams 5 7, .markPendingDestroy 7, .removeGuestMapping 7] = some c ∧
      (c.table.guestToHost.get 7).isSome = false ∧
      ∃ hostId, c.orphanedDmabufParams.get hostId = some 7 := by
  have hrun : (tableCalls.run .new [.mapId 7 5, .trackInterface 7 .zwpLinuxBufferParamsV1,
      .orphanParams 5 7, .markPendingDestroy 7, .removeGuestMapping 7]).map (fun c =>
        (decide (7 ∈ c.table.pendingDestroyGuestIds), (c.table.guestToHost.get 7).isSome)) =
      some (true, false) := by decide +kernel
  obtain ⟨c, hc, heq⟩ := Option.map_eq_some_iff.mp hrun
  simp only [Prod.mk.injEq, decide_eq_true_eq] at heq
  obtain ⟨hmarked, hunmapped⟩ := heq
  refine ⟨c, hc, hunmapped, ?_⟩
  exact ((shadow_table_consistency hc).2.1 7 hmarked).resolve_left (by simp [hunmapped])

end Sommelier
