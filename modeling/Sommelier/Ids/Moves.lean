import Mathlib.Logic.Relation
import Sommelier.Ids.State

/-!
# Moves of the ID state

What the handlers do to the ID state, one object at a time. A property of all runs is proved
once for each move; what a handler does is a sequence of moves.

## Main definitions

* `IdState.Fresh`, `IdState.pair`, `IdState.pairTextInput`: a new host ID, and what is registered
  under it.
* `IdState.Open`: the guest named an ID for a new object.
* `IdState.Move`: what is done to objects both peers know, and what is created.
-/
namespace Sommelier.IdState

variable {s s' : IdState} {g h n : ℕ}

/-! ## New host IDs -/

/-- A search for a host ID finds `h` and leaves the cursor at `n`. -/
structure Fresh (s : IdState) (h n : ℕ) : Prop where
  free : s.shadowTable.hostIdFree h = true
  two_le : 2 ≤ h
  found : s.shadowTable.allocateHostId = some (h, { s.shadowTable with nextHostId := n })

/-- The state after such a search. -/
def take (s : IdState) (h n : ℕ) : IdState :=
  { s with
    shadowTable := { s.shadowTable with nextHostId := n }
    allocated := s.allocated ++ [h]
    wrapped := s.wrapped || decide (n ≤ s.shadowTable.nextHostId) }

theorem allocateHostId_eq_some (hi : s.allocateHostId = some (h, s')) :
    ∃ n, s.Fresh h n ∧ s' = s.take h n := by
  obtain ⟨⟨hostId, t⟩, hfound, heq⟩ := Option.map_eq_some_iff.mp hi
  obtain ⟨rfl, rfl⟩ := Prod.mk.inj heq
  obtain ⟨hfree, hle, n, rfl⟩ := ShadowTable.allocateHostId_eq_some hfound
  exact ⟨n, ⟨hfree, hle, hfound⟩, rfl⟩

theorem Fresh.mem (hf : s.Fresh h n) : s.shadowTable.hostToGuest.get h = none ∧
    s.shadowTable.hostInterfaces.get h = none ∧ h ∉ s.shadowTable.retiredHostIds ∧
    h ∉ s.shadowTable.pendingDestroyHostIds :=
  ShadowTable.hostIdFree_iff.mp hf.free

/-- The state with a new host object of the proxy. -/
def bound (s : IdState) (h n : ℕ) (i : Interface) (version : ℕ) : IdState :=
  ((s.take h n).onTable (·.trackHostInterfaceWithVersion h i version)).queueNewId h

theorem bound_hostInterfaces_self (s : IdState) (h n : ℕ) (i : Interface) (version : ℕ) :
    (s.bound h n i version).shadowTable.hostInterfaces.get h = some i := by
  simp [bound, onTable, queueNewId, logHost, ShadowTable.trackHostInterfaceWithVersion]

/-- A host object of the proxy. -/
theorem bindInternal_eq_some {i : Interface} {version : ℕ}
    (hi : s.bindInternal i version = some (h, s')) : ∃ n, s.Fresh h n ∧
      s' = s.bound h n i version := by
  obtain ⟨⟨hostId, s₁⟩, halloc, heq⟩ := Option.map_eq_some_iff.mp hi
  obtain ⟨rfl, rfl⟩ := Prod.mk.inj heq
  obtain ⟨n, hfresh, rfl⟩ := allocateHostId_eq_some halloc
  exact ⟨n, hfresh, rfl⟩

/-- A host object that is destroyed waits for the acknowledgement of the host. -/
theorem destroyInternal_eq {x : ℕ} {i : Interface}
    (hunmapped : s.shadowTable.hostToGuest.get x = none)
    (hi : s.shadowTable.hostInterfaces.get x = some i) :
    s.destroyInternal x = { s with
      hostTraffic := .destroy x :: s.hostTraffic
      shadowTable := { s.shadowTable with
        hostInterfaces := s.shadowTable.hostInterfaces.erase x
        hostVersions := s.shadowTable.hostVersions.erase x
        retiredHostIds := s.shadowTable.retiredHostIds.erase x
        pendingDestroyHostIds := insert x s.shadowTable.pendingDestroyHostIds } } := by
  simp only [destroyInternal, onTable, logHost, ShadowTable.markPendingDestroyHost_fresh hunmapped
    hi]

/-- The registration of a guest object: its interface, and versions. -/
def Registers (guestId : ℕ) (interface : Interface) (register : ℕ → ShadowTable → ShadowTable) :
    Prop :=
  ∀ hostId t, ∃ guestVersions hostVersions, register hostId t = { t with
    interfaces := t.interfaces.set guestId interface
    guestVersions
    hostVersions }

/-- The tables with a new object on both sides. -/
def pair (s : IdState) (g h n : ℕ) (i : Interface) (guestVersions hostVersions : Table ℕ ℕ) :
    IdState :=
  (s.take h n).onTable fun t => { t with
    guestToHost := t.guestToHost.set g h
    hostToGuest := t.hostToGuest.set h g
    interfaces := t.interfaces.set g i
    guestVersions
    hostVersions }

/-- A guest object that is mapped to a new host object. -/
theorem register_mapId {i : Interface} {register : ℕ → ShadowTable → ShadowTable}
    (hg : s.shadowTable.guestToHost.get g = none) (hreg : Registers g i register)
    (hi : s.allocateHostId = some (h, s')) : ∃ n guestVersions hostVersions, s.Fresh h n ∧
      (s'.onTable fun t => register h (t.mapId g h)) =
        s.pair g h n i guestVersions hostVersions := by
  obtain ⟨n, hf, rfl⟩ := allocateHostId_eq_some hi
  have hmap := ShadowTable.mapId_fresh (t := (s.take h n).shadowTable) hg hf.mem.1
  obtain ⟨guestVersions, hostVersions, heq⟩ := hreg h ((s.take h n).shadowTable.mapId g h)
  rw [hmap] at heq
  refine ⟨n, guestVersions, hostVersions, hf, ?_⟩
  simp only [onTable, pair, hmap]
  rw [heq]

/-- The tables with both host objects of a text input. -/
def pairTextInput (s : IdState) (g h : ℕ) (extended : Option ℕ)
    (guestVersions hostVersions : Table ℕ ℕ) : IdState :=
  s.onTable fun t => { t with
    guestToHost := t.guestToHost.set g h
    hostToGuest := t.hostToGuest.set h g
    interfaces := t.interfaces.set g .zwpTextInputV3
    hostInterfaces :=
      let hostInterfaces := t.hostInterfaces.set h .zwpTextInputV1
      extended.elim hostInterfaces (hostInterfaces.set · .zcrExtendedTextInputV1)
    guestVersions
    hostVersions }

theorem registerTextInput_eq (hg : s.shadowTable.guestToHost.get g = none)
    (hh : s.shadowTable.hostToGuest.get h = none) (extended manager : Option ℕ) :
    ∃ guestVersions hostVersions, s.onTable (registerTextInput g h extended manager) =
      s.pairTextInput g h extended guestVersions hostVersions := by
  cases extended <;>
    simp only [onTable, pairTextInput, registerTextInput, ShadowTable.mapId_fresh hg hh] <;>
    exact ⟨_, _, rfl⟩

/-- A text input: its host object, and the extension under a second new ID. -/
theorem createTextInput_eq_some {manager extended : Option ℕ}
    (hg : s.shadowTable.guestToHost.get g = none)
    (hs : s.createTextInput g manager = some ((h, extended), s')) :
    ∃ n guestVersions hostVersions, s.Fresh h n ∧
      match extended with
      | none => s' = ((s.take h n).queueNewId h).pairTextInput g h none guestVersions hostVersions
      | some h' => ∃ n', manager.isSome = true ∧ ((s.take h n).queueNewId h).Fresh h' n' ∧
        s' = ((((s.take h n).queueNewId h).take h' n').queueNewId h').pairTextInput g h (some h')
          guestVersions hostVersions := by
  cases manager with
  | none =>
    simp only [createTextInput, Option.bind_eq_bind, Option.bind_eq_some_iff, Option.pure_def,
      Option.bind_some, Option.some.injEq, Prod.mk.injEq, Prod.exists] at hs
    obtain ⟨h, s₁, halloc, ⟨rfl, rfl⟩, rfl⟩ := hs
    obtain ⟨n, hfresh, rfl⟩ := allocateHostId_eq_some halloc
    obtain ⟨guestVersions, hostVersions, heq⟩ :=
      registerTextInput_eq (s := (s.take h n).queueNewId h) hg hfresh.mem.1 none none
    exact ⟨n, guestVersions, hostVersions, hfresh, heq⟩
  | some manager =>
    simp only [createTextInput, Option.bind_eq_bind, Option.bind_eq_some_iff, Option.pure_def,
      Option.map_eq_some_iff, Option.some.injEq, Prod.mk.injEq, Prod.exists] at hs
    obtain ⟨h, s₁, halloc, extended, s₂, ⟨h', s₃, halloc', rfl, rfl⟩, ⟨rfl, rfl⟩, rfl⟩ := hs
    obtain ⟨n, hfresh, rfl⟩ := allocateHostId_eq_some halloc
    obtain ⟨n', hfresh', rfl⟩ := allocateHostId_eq_some halloc'
    obtain ⟨guestVersions, hostVersions, heq⟩ :=
      registerTextInput_eq (s := (((s.take h n).queueNewId h).take h' n').queueNewId h') hg
        hfresh.mem.1 (some h') (some manager)
    exact ⟨n, guestVersions, hostVersions, hfresh, n', rfl, hfresh', heq⟩

/-- The tables with an object the host announced. -/
def pairAnnouncedAs (s : IdState) (g h : ℕ) (i : Interface) (version : ℕ) (next : ServerId) :
    IdState :=
  ((s.onTable fun t => { t with
    guestToHost := t.guestToHost.set g h
    hostToGuest := t.hostToGuest.set h g
    interfaces := t.interfaces.set g i
    guestVersions := t.guestVersions.set g version
    hostVersions := t.hostVersions.set h version
    nextGuestServerId := next }).logHost (.announce h)).logGuest (.announce g)

/-- A new guest ID of the server range. -/
structure FreshServerId (s : IdState) (g : ℕ) : Prop where
  start_le : guestServerIdStart ≤ g
  unmapped : s.shadowTable.guestToHost.get g = none
  untracked : s.shadowTable.interfaces.get g = none

/-- The object of an event, under a new guest ID of the server range. -/
theorem pairAnnounced_eq_some {i : Interface} {version : ℕ}
    (hh : s.shadowTable.hostToGuest.get h = none)
    (hs : s.pairAnnounced h i version = some (g, s')) :
    s.FreshServerId g ∧ ∃ next, s' = s.pairAnnouncedAs g h i version next := by
  obtain ⟨⟨guestId, t⟩, halloc, heq⟩ := Option.map_eq_some_iff.mp hs
  obtain ⟨rfl, rfl⟩ := Prod.mk.inj heq
  obtain ⟨hstart, hg, hi, next, rfl⟩ := ShadowTable.allocateGuestServerId_eq_some halloc
  refine ⟨⟨hstart, hg, hi⟩, next, ?_⟩
  rw [ShadowTable.registerObject_fresh (t := { s.shadowTable with nextGuestServerId := next })
    hg hh]
  rfl

/-! ## Acknowledged host IDs -/

/-- The host acknowledged an ID; it is no longer waited for. -/
def acknowledged (s : IdState) (h : ℕ) : IdState :=
  { s.logHost (.acknowledge h) with
    shadowTable := { s.shadowTable with
      pendingDestroyHostIds := s.shadowTable.pendingDestroyHostIds.erase h } }

/-- The acknowledgement ends a pair, and the guest hears of it; or it concerns no guest object. -/
theorem onDeleteId_cases (s : IdState) (h : ℕ) :
    s.onDeleteId h = s.acknowledged h ∨
    (∃ g i, s.orphanedDmabufParams.get h = some g ∧ s.shadowTable.hostToGuest.get h = some g ∧
      s.shadowTable.interfaces.get g = some i ∧
      s.onDeleteId h = ((s.acknowledged h).logGuest (.acknowledge g)).onTable fun t =>
        (t.removeGuestMapping g).clearPendingDestroyGuest g) ∨
    (∃ g, s.orphanedDmabufParams.get h = none ∧ s.shadowTable.hostToGuest.get h = some g ∧
      s.onDeleteId h = ((s.acknowledged h).onTable (·.removeId g)).logGuest (.acknowledge g)) := by
  by_cases hconsumed : h ∈ s.shadowTable.pendingDestroyHostIds
  · refine .inl ?_
    simp [onDeleteId, ShadowTable.consumeHostDeleteId, logHost, acknowledged, hconsumed]
  have hunconsumed : s.shadowTable.consumeHostDeleteId h =
      (false, (s.acknowledged h).shadowTable) := by
    simp [ShadowTable.consumeHostDeleteId, acknowledged, hconsumed]
  cases ho : s.orphanedDmabufParams.get h with
  | none =>
    cases hg : s.shadowTable.hostToGuest.get h with
    | none =>
      refine .inl ?_
      simp [onDeleteId, logHost, acknowledged, hunconsumed, ho, hg, ShadowTable.getGuestId]
    | some g =>
      refine .inr (.inr ⟨g, rfl, rfl, ?_⟩)
      simp [onDeleteId, logHost, acknowledged, hunconsumed, ho, hg, ShadowTable.getGuestId]
  | some g =>
    by_cases hg : s.shadowTable.hostToGuest.get h = some g
    · cases hi : s.shadowTable.interfaces.get g with
      | none =>
        refine .inl ?_
        simp [onDeleteId, logHost, acknowledged, hunconsumed, ho, hg, hi, ShadowTable.getGuestId,
          queueGuestDeleteId, ShadowTable.getInterface]
      | some i =>
        refine .inr (.inl ⟨g, i, rfl, hg, hi, ?_⟩)
        simp [onDeleteId, logHost, acknowledged, hunconsumed, ho, hg, hi, ShadowTable.getGuestId,
          queueGuestDeleteId, ShadowTable.getInterface]
    · refine .inl ?_
      simp [onDeleteId, logHost, acknowledged, hunconsumed, ho, hg, ShadowTable.getGuestId]

/-! ## Moves -/

/-- The guest named the ID for a new object, and the object is not mapped yet. -/
structure Open (s : IdState) (g : ℕ) : Prop where
  unmapped : s.shadowTable.guestToHost.get g = none
  one_lt : 1 < g
  lt_start : g < guestServerIdStart
  outstanding : Outstanding s.guestLifetimes g

theorem Open.bound {i : Interface} {version : ℕ} (hg : s.Open g) :
    (s.bound h n i version).Open g :=
  ⟨hg.unmapped, hg.one_lt, hg.lt_start, hg.outstanding⟩

/-- A live object both peers know. -/
structure Known (s : IdState) (g h : ℕ) (i : Interface) : Prop where
  mapped : s.shadowTable.guestToHost.get g = some h
  interface : s.shadowTable.interfaces.get g = some i
  unmarked : g ∉ s.shadowTable.pendingDestroyGuestIds

/-- The destructor of a host object of the proxy concerns no object of the guest. -/
theorem Known.destroyInternal {i : Interface} (hg : s.Known g h i) (x : ℕ) :
    (s.destroyInternal x).Known g h i := by
  obtain ⟨hostInterfaces, hostVersions, retired, pending, heq⟩ :=
    (s.logHost (.destroy x)).shadowTable.markPendingDestroyHost_eq x
  constructor <;> simp only [IdState.destroyInternal, onTable, heq]
  · exact hg.mapped
  · exact hg.interface
  · exact hg.unmarked

/-- What handlers do with messages and with objects both peers know, and what they create. A lawful
host announces no ID of the proxy. -/
inductive Move (lawful : Prop) (s : IdState) : IdState → Prop
  | emit (g : ℕ) (objects : List ℕ) : Move lawful s (s.emit g objects)
  | emitError (g : ℕ) : Move lawful s (s.emitError g)
  | guestCreate (g : ℕ) (hg : s.shadowTable.isGuestIdAvailable g = true) :
      Move lawful s (s.logGuest (.create g))
  | guestDestroy (g : ℕ) : Move lawful s (s.logGuest (.destroy g))
  | flush : Move lawful s s.flush
  | track (g : ℕ) (hg : s.Open g) (i : Interface) (guestVersions : Table ℕ ℕ) :
      Move lawful s (s.onTable fun t => { t with
        interfaces := t.interfaces.set g i
        guestVersions })
  | pairQueued {g h n : ℕ} {i : Interface} {guestVersions hostVersions : Table ℕ ℕ}
      (hg : s.Open g) (hf : s.Fresh h n) :
      Move lawful s ((s.pair g h n i guestVersions hostVersions).queueNewId h)
  | pairSent {g h n : ℕ} {i : Interface} {guestVersions hostVersions : Table ℕ ℕ}
      (hg : s.Open g) (hf : s.Fresh h n) (hqueue : s.queuedNewIds = []) :
      Move lawful s ((s.pair g h n i guestVersions hostVersions).sendNewId h)
  | bridgeBuffer {g x n h n' version : ℕ} {i : Interface} {guestVersions hostVersions : Table ℕ ℕ}
      (hg : s.Open g) (hf : s.Fresh x n) (hf' : (s.bound x n i version).Fresh h n') :
      Move lawful s ((((s.bound x n i version).pair g h n' .wlBuffer guestVersions
        hostVersions).queueNewId h).destroyInternal x)
  | pairAnnounced {g h version : ℕ} {i : Interface} {next : ServerId}
      (hg : s.FreshServerId g) (hh : s.shadowTable.isHostIdAvailable h = true)
      (hlawful : lawful → ¬ Outstanding s.hostTraffic h)
      (hi : i = .wlBuffer ∨ i = .wlDataOffer) : Move lawful s (s.pairAnnouncedAs g h i version next)
  | orphanBuffer (h version : ℕ) (hh : s.shadowTable.isHostIdAvailable h = true) :
      Move lawful s (((s.logHost (.announce h)).onTable
        (·.trackHostInterfaceWithVersion h .wlBuffer version)).destroyInternal h)
  | logDestroy (h : ℕ) : Move lawful s (s.logHost (.destroy h))
  | markPendingDestroy (g : ℕ) : Move lawful s (s.onTable (·.markPendingDestroy g))
  | forwardDestructor {g h : ℕ} (hg : s.shadowTable.guestToHost.get g = some h ∨
      s.shadowTable.hostToGuest.get h = some g) : Move lawful s (s.forwardDestructor g h)
  | retireBuffer {g h : ℕ} (hg : s.Known g h .wlBuffer) :
      Move lawful s (s.onTable (·.retireGuestObject g))
  | destroyParams {g h : ℕ} (hg : s.Known g h .zwpLinuxBufferParamsV1) :
      Move lawful s ((s.orphanParams g h).forwardDestructor g h)
  | completeCallback {g h : ℕ} (hh : s.shadowTable.hostToGuest.get h = some g)
      (hmark : g ∉ s.shadowTable.pendingDestroyGuestIds)
      (hi : (s.shadowTable.hostInterfaces.get h).or (s.shadowTable.interfaces.get g) =
        some .wlCallback) : Move lawful s (s.completeCallback g h)
  | deleteLocal (g : ℕ) (hi : s.shadowTable.isLocalOnlyGuestObject g = true) :
      Move lawful s (s.queueLocalDeleteId g)
  | retireTextInput {g h : ℕ} (hg : s.Known g h .zwpTextInputV3) :
      Move lawful s ((s.logGuest (.acknowledge g)).onTable (·.removeGuestMapping g))
  | answerOrphan (h : ℕ) (hh : (s.orphanedDmabufParams.get h).isSome = true) :
      Move lawful s (s.answerOrphan h)

end Sommelier.IdState
