import Mathlib.Algebra.Group.Nat.Defs
import Mathlib.Data.Finset.Basic
import Sommelier.Lib.Table

/-!
# Shadow table

Guest and host number their objects independently. The shadow table pairs the numbers,
remembers the interface and version of each object, and keeps the host numbers of
destroyed objects reserved until the host acknowledges the destructor.

## Main definitions

* `Interface`: the interfaces of the supported protocols.
* `ShadowTable`: the tables, with the two ID allocators and the destruction marks.
* `ShadowTable.Paired`: the two ID maps are inverse to each other.
-/
namespace Sommelier

/-- The interfaces the generated dispatch classifies, and names it does not know. -/
inductive Interface
  | wlDisplay | wlRegistry | wlCallback | wlCompositor | wlShmPool | wlShm | wlBuffer
  | wlDataOffer | wlDataSource | wlDataDevice | wlDataDeviceManager | wlShell
  | wlShellSurface | wlSurface | wlSeat | wlPointer | wlKeyboard | wlTouch | wlOutput
  | wlRegion | wlSubcompositor | wlSubsurface | wlFixes
  | xdgWmBase | xdgPositioner | xdgSurface | xdgToplevel | xdgPopup
  | zwpLinuxDmabufV1 | zwpLinuxBufferParamsV1 | zwpLinuxDmabufFeedbackV1
  | wpViewporter | wpViewport | zwpTextInputV3 | zwpTextInputManagerV3
  | zwpTextInputV1 | zwpTextInputManagerV1 | zcrTextInputExtensionV1
  | zcrExtendedTextInputV1 | zxdgDecorationManagerV1 | zxdgToplevelDecorationV1
  | wpFractionalScaleManagerV1 | wpFractionalScaleV1 | zcrKeyboardExtensionV1
  | zcrExtendedKeyboardV1 | gtkShell1 | gtkSurface1 | zauraShell | zauraSurface
  | zauraOutput | zauraToplevel | zauraPopup
  | unclassified (name : String)
  deriving DecidableEq, Repr

/-- Guest objects without a host counterpart, served by the proxy alone. -/
def Interface.isLocalOnly : Interface → Bool
  | wlShm | wlShmPool | zwpTextInputManagerV3 | zwpLinuxDmabufFeedbackV1 | gtkShell1
  | gtkSurface1 => true
  | _ => false

/-- First ID of the range reserved for objects created by the server. -/
def guestServerIdStart : ℕ := 0xff000000

/-- An ID of the server range. -/
abbrev ServerId := { id : ℕ // guestServerIdStart ≤ id ∧ id < 2 ^ 32 }

namespace ServerId

def first : ServerId := ⟨guestServerIdStart, by decide⟩

/-- The next ID of the range, which wraps. -/
def next (id : ServerId) : ServerId :=
  if h : id.1 = 0xffffffff then first else ⟨id.1 + 1, Nat.le_succ_of_le id.2.1, by omega⟩

theorem next_val (id : ServerId) :
    id.next.1 = if id.1 = 0xffffffff then guestServerIdStart else id.1 + 1 := by
  unfold next
  split_ifs <;> rfl

end ServerId

/-- The version of objects registered without a negotiated one. -/
def unknownObjectVersion : ℕ := 0xffffffff

@[ext] structure ShadowTable where
  guestToHost : Table ℕ ℕ
  hostToGuest : Table ℕ ℕ
  interfaces : Table ℕ Interface
  hostInterfaces : Table ℕ Interface
  guestVersions : Table ℕ ℕ
  hostVersions : Table ℕ ℕ
  retiredHostIds : Finset ℕ
  pendingDestroyHostIds : Finset ℕ
  pendingDestroyGuestIds : Finset ℕ
  nextHostId : ℕ
  nextGuestServerId : ServerId

namespace ShadowTable

def new : ShadowTable where
  guestToHost := ∅
  hostToGuest := ∅
  interfaces := ∅
  hostInterfaces := ∅
  guestVersions := ∅
  hostVersions := ∅
  retiredHostIds := ∅
  pendingDestroyHostIds := ∅
  pendingDestroyGuestIds := ∅
  nextHostId := 2
  nextGuestServerId := .first

/-! ## Lookups -/

def getHostId (t : ShadowTable) (guestId : ℕ) : Option ℕ := t.guestToHost.get guestId

def getGuestId (t : ShadowTable) (hostId : ℕ) : Option ℕ := t.hostToGuest.get hostId

def getInterface (t : ShadowTable) (guestId : ℕ) : Option Interface := t.interfaces.get guestId

def getHostInterface (t : ShadowTable) (hostId : ℕ) : Option Interface :=
  t.hostInterfaces.get hostId

def guestObjectMatches (t : ShadowTable) (guestId : ℕ) (interface : Interface) : Bool :=
  t.interfaces.get guestId == some interface

def isLocalOnlyGuestObject (t : ShadowTable) (guestId : ℕ) : Bool :=
  (t.interfaces.get guestId).any Interface.isLocalOnly

def hostObjectMatches (t : ShadowTable) (hostId : ℕ) (interface : Interface) : Bool :=
  t.hostInterfaces.get hostId == some interface ||
    (t.hostToGuest.get hostId).any fun guestId => t.interfaces.get guestId == some interface

def isGuestIdAvailable (t : ShadowTable) (guestId : ℕ) : Bool :=
  decide (1 < guestId) && decide (guestId < guestServerIdStart) &&
    (t.guestToHost.get guestId).isNone && (t.interfaces.get guestId).isNone

def isGuestServerId (guestId : ℕ) : Bool := decide (guestServerIdStart ≤ guestId)

/-- The number is in none of the host namespaces. -/
def hostIdFree (t : ShadowTable) (hostId : ℕ) : Bool :=
  (t.hostToGuest.get hostId).isNone && (t.hostInterfaces.get hostId).isNone &&
    !decide (hostId ∈ t.retiredHostIds) && !decide (hostId ∈ t.pendingDestroyHostIds)

def isHostIdAvailable (t : ShadowTable) (hostId : ℕ) : Bool :=
  decide (1 < hostId) && t.hostIdFree hostId

def isEventSenderKnown (t : ShadowTable) (hostId : ℕ) : Bool :=
  (t.hostToGuest.get hostId).isSome || (t.hostInterfaces.get hostId).isSome

def isPendingDestroyGuest (t : ShadowTable) (guestId : ℕ) : Bool :=
  decide (guestId ∈ t.pendingDestroyGuestIds)

def isPendingDestroyHost (t : ShadowTable) (hostId : ℕ) : Bool :=
  (t.hostToGuest.get hostId).any t.isPendingDestroyGuest

def guestObjectVersion (t : ShadowTable) (guestId : ℕ) : Option ℕ :=
  (t.guestVersions.get guestId).or ((t.guestToHost.get guestId).bind t.hostVersions.get)

def hostObjectVersion (t : ShadowTable) (hostId : ℕ) : Option ℕ :=
  (t.hostVersions.get hostId).or ((t.hostToGuest.get hostId).bind t.guestVersions.get)

/-! ## Allocation -/

/-- The search of `allocate_host_id` with the candidates left to try. -/
def allocateHostIdLoop : ℕ → ShadowTable → Option (ℕ × ShadowTable)
  | 0, _ => none
  | fuel + 1, t =>
    let id := t.nextHostId
    let t := { t with nextHostId := max ((t.nextHostId + 1) % 2 ^ 32) 2 }
    if decide (2 ≤ id) && t.hostIdFree id then some (id, t) else allocateHostIdLoop fuel t

/-- A free host ID; `none` is the panic of an exhausted ID space. -/
def allocateHostId (t : ShadowTable) : Option (ℕ × ShadowTable) :=
  allocateHostIdLoop (2 ^ 32) t

def allocateGuestServerIdLoop : ℕ → ShadowTable → Option (ℕ × ShadowTable)
  | 0, _ => none
  | fuel + 1, t =>
    let id := t.nextGuestServerId
    let t := { t with nextGuestServerId := id.next }
    if decide (guestServerIdStart ≤ id.1) && (t.guestToHost.get id).isNone &&
        (t.interfaces.get id).isNone then some (id.1, t)
    else allocateGuestServerIdLoop fuel t

/-- A free guest ID of the server range; `none` is the panic of an exhausted range. -/
def allocateGuestServerId (t : ShadowTable) : Option (ℕ × ShadowTable) :=
  allocateGuestServerIdLoop 0x1000000 t

/-! ## Updates -/

/-- Pair two IDs, undoing the pairs either of them was in. -/
def mapId (t : ShadowTable) (guestId hostId : ℕ) : ShadowTable :=
  let oldHostId := t.guestToHost.get guestId
  let t := { t with guestToHost := t.guestToHost.set guestId hostId }
  let t := match oldHostId with
    | some old =>
      if old ≠ hostId ∧ t.hostToGuest.get old = some guestId then
        { t with
          hostToGuest := t.hostToGuest.erase old
          hostVersions := t.hostVersions.erase old }
      else t
    | none => t
  let oldGuestId := t.hostToGuest.get hostId
  let t := { t with hostToGuest := t.hostToGuest.set hostId guestId }
  match oldGuestId with
  | some old =>
    if old ≠ guestId ∧ t.guestToHost.get old = some hostId then
      { t with
        guestToHost := t.guestToHost.erase old
        interfaces := t.interfaces.erase old
        guestVersions := t.guestVersions.erase old }
    else t
  | none => t

def trackInterface (t : ShadowTable) (guestId : ℕ) (interface : Interface) : ShadowTable :=
  { t with
    interfaces := t.interfaces.set guestId interface
    guestVersions :=
      match t.guestVersions.get guestId with
      | some _ => t.guestVersions
      | none => t.guestVersions.set guestId unknownObjectVersion }

def trackInterfaceWithVersion (t : ShadowTable) (guestId : ℕ) (interface : Interface)
    (version : ℕ) : ShadowTable :=
  { t with
    interfaces := t.interfaces.set guestId interface
    guestVersions := t.guestVersions.set guestId version }

def trackHostInterface (t : ShadowTable) (hostId : ℕ) (interface : Interface) : ShadowTable :=
  { t with
    hostInterfaces := t.hostInterfaces.set hostId interface
    hostVersions :=
      match t.hostVersions.get hostId with
      | some _ => t.hostVersions
      | none => t.hostVersions.set hostId unknownObjectVersion }

def trackHostInterfaceWithVersion (t : ShadowTable) (hostId : ℕ) (interface : Interface)
    (version : ℕ) : ShadowTable :=
  { t with
    hostInterfaces := t.hostInterfaces.set hostId interface
    hostVersions := t.hostVersions.set hostId version }

def setHostVersion (t : ShadowTable) (hostId version : ℕ) : ShadowTable :=
  { t with hostVersions := t.hostVersions.set hostId version }

/-- Register an object that exists on both sides. -/
def registerObject (t : ShadowTable) (guestId hostId : ℕ) (interface : Interface)
    (version hostVersion : ℕ) : ShadowTable :=
  ((t.mapId guestId hostId).trackInterfaceWithVersion guestId interface version).setHostVersion
    hostId hostVersion

/-- A forwarded destructor waits for the host's `delete_id`. -/
def markPendingDestroy (t : ShadowTable) (guestId : ℕ) : ShadowTable :=
  match t.guestToHost.get guestId with
  | some _ => { t with pendingDestroyGuestIds := insert guestId t.pendingDestroyGuestIds }
  | none => t

/-- A host-only object whose destructor was queued; `false` when it is not host-only. -/
def markPendingDestroyHost (t : ShadowTable) (hostId : ℕ) : Bool × ShadowTable :=
  if (t.hostToGuest.get hostId).isSome || (t.hostInterfaces.get hostId).isNone then (false, t)
  else
    (!decide (hostId ∈ t.pendingDestroyHostIds),
      { t with
        hostInterfaces := t.hostInterfaces.erase hostId
        hostVersions := t.hostVersions.erase hostId
        retiredHostIds := t.retiredHostIds.erase hostId
        pendingDestroyHostIds := insert hostId t.pendingDestroyHostIds })

/-- Whether a `delete_id` was for a host-only object, and the table after it. -/
def consumeHostDeleteId (t : ShadowTable) (hostId : ℕ) : Bool × ShadowTable :=
  (decide (hostId ∈ t.pendingDestroyHostIds),
    { t with pendingDestroyHostIds := t.pendingDestroyHostIds.erase hostId })

def clearPendingDestroyGuest (t : ShadowTable) (guestId : ℕ) : ShadowTable :=
  { t with pendingDestroyGuestIds := t.pendingDestroyGuestIds.erase guestId }

def removeHostInterface (t : ShadowTable) (hostId : ℕ) : ShadowTable :=
  { t with
    hostInterfaces := t.hostInterfaces.erase hostId
    hostVersions := t.hostVersions.erase hostId
    retiredHostIds := t.retiredHostIds.erase hostId
    pendingDestroyHostIds := t.pendingDestroyHostIds.erase hostId }

/-- Forget the dispatch metadata of a host object that has no destructor. -/
def retireHostInterface (t : ShadowTable) (hostId : ℕ) : ShadowTable :=
  { t with
    hostInterfaces := t.hostInterfaces.erase hostId
    hostVersions := t.hostVersions.erase hostId
    pendingDestroyHostIds := t.pendingDestroyHostIds.erase hostId
    retiredHostIds := insert hostId t.retiredHostIds }

def removeId (t : ShadowTable) (guestId : ℕ) : ShadowTable :=
  let t := { t with pendingDestroyGuestIds := t.pendingDestroyGuestIds.erase guestId }
  let t := match t.guestToHost.get guestId with
    | some hostId =>
      { t with
        guestToHost := t.guestToHost.erase guestId
        hostToGuest := t.hostToGuest.erase hostId
        hostInterfaces := t.hostInterfaces.erase hostId
        hostVersions := t.hostVersions.erase hostId }
    | none => t
  { t with
    interfaces := t.interfaces.erase guestId
    guestVersions := t.guestVersions.erase guestId }

/-- Forget the guest side of an object whose host side lives on. -/
def removeGuestMapping (t : ShadowTable) (guestId : ℕ) : ShadowTable :=
  let guestInterface := t.interfaces.get guestId
  let t := { t with
    interfaces := t.interfaces.erase guestId
    guestVersions := t.guestVersions.erase guestId }
  match t.guestToHost.get guestId with
  | some hostId =>
    let t := { t with guestToHost := t.guestToHost.erase guestId }
    let t := if t.hostToGuest.get hostId = some guestId then
        { t with hostToGuest := t.hostToGuest.erase hostId }
      else t
    match t.hostInterfaces.get hostId, guestInterface with
    | none, some interface =>
      { t with hostInterfaces := t.hostInterfaces.set hostId interface }
    | _, _ => t
  | none => t

def retireServerDestroyedObject (t : ShadowTable) (guestId : ℕ) : Option ℕ × ShadowTable :=
  match t.guestToHost.get guestId with
  | none => (none, t)
  | some hostId =>
    let (marked, t) := (t.removeGuestMapping guestId).markPendingDestroyHost hostId
    (if marked then some hostId else none, t)

/-- A destroyed guest object whose host object still sends events: the guest may no
longer name it, and its interface moves to the host side. -/
def retireGuestObject (t : ShadowTable) (guestId : ℕ) : ShadowTable :=
  let interface := t.interfaces.get guestId
  let t := { t with
    interfaces := t.interfaces.erase guestId
    guestVersions := t.guestVersions.erase guestId }
  match t.guestToHost.get guestId, interface with
  | some hostId, some interface =>
    { t with
      pendingDestroyGuestIds := insert guestId t.pendingDestroyGuestIds
      hostInterfaces :=
        match t.hostInterfaces.get hostId with
        | some _ => t.hostInterfaces
        | none => t.hostInterfaces.set hostId interface
      hostVersions :=
        match t.hostVersions.get hostId with
        | some _ => t.hostVersions
        | none => t.hostVersions.set hostId unknownObjectVersion }
  | _, _ => t

/-! ## What the updates change -/

variable {t t' : ShadowTable} {g h : ℕ}

/-- The two ID maps are inverse to each other. -/
def Paired (t : ShadowTable) : Prop :=
  ∀ g h, t.guestToHost.get g = some h ↔ t.hostToGuest.get h = some g

theorem isGuestIdAvailable_iff : t.isGuestIdAvailable g = true ↔
    1 < g ∧ g < guestServerIdStart ∧ t.guestToHost.get g = none ∧ t.interfaces.get g = none := by
  simp [isGuestIdAvailable, and_assoc]

theorem hostIdFree_iff : t.hostIdFree h = true ↔ t.hostToGuest.get h = none ∧
    t.hostInterfaces.get h = none ∧ h ∉ t.retiredHostIds ∧ h ∉ t.pendingDestroyHostIds := by
  simp [hostIdFree, and_assoc]

theorem allocateHostIdLoop_eq_some {fuel : ℕ} (hi : allocateHostIdLoop fuel t = some (h, t')) :
    t.hostIdFree h = true ∧ 2 ≤ h ∧ ∃ n, t' = { t with nextHostId := n } := by
  induction fuel generalizing t with
  | zero => simp [allocateHostIdLoop] at hi
  | succ fuel ih =>
    unfold allocateHostIdLoop at hi
    simp only [Bool.and_eq_true, decide_eq_true_eq] at hi
    split_ifs at hi with hfree
    · obtain ⟨rfl, rfl⟩ := Prod.mk.inj (Option.some.inj hi)
      exact ⟨hfree.2, hfree.1, _, rfl⟩
    · obtain ⟨hfree', hle, n, rfl⟩ := ih hi
      exact ⟨hfree', hle, n, rfl⟩

/-- A new host ID is in none of the namespaces, and nothing else changes. -/
theorem allocateHostId_eq_some (hi : t.allocateHostId = some (h, t')) :
    t.hostIdFree h = true ∧ 2 ≤ h ∧ ∃ n, t' = { t with nextHostId := n } :=
  allocateHostIdLoop_eq_some hi

theorem allocateGuestServerIdLoop_eq_some {fuel : ℕ}
    (hi : allocateGuestServerIdLoop fuel t = some (g, t')) :
    guestServerIdStart ≤ g ∧ t.guestToHost.get g = none ∧ t.interfaces.get g = none ∧
      ∃ n, t' = { t with nextGuestServerId := n } := by
  induction fuel generalizing t with
  | zero => simp [allocateGuestServerIdLoop] at hi
  | succ fuel ih =>
    unfold allocateGuestServerIdLoop at hi
    simp only [Bool.and_eq_true, decide_eq_true_eq, Option.isNone_iff_eq_none] at hi
    by_cases hfree : (guestServerIdStart ≤ t.nextGuestServerId.1 ∧
        t.guestToHost.get t.nextGuestServerId = none) ∧
        t.interfaces.get t.nextGuestServerId = none
    · rw [if_pos hfree] at hi
      obtain ⟨rfl, rfl⟩ := Prod.mk.inj (Option.some.inj hi)
      exact ⟨hfree.1.1, hfree.1.2, hfree.2, _, rfl⟩
    · rw [if_neg hfree] at hi
      obtain ⟨hle, hg, hint, n, rfl⟩ := ih hi
      exact ⟨hle, hg, hint, n, rfl⟩

/-- Stepping through the range is addition modulo its size. -/
theorem iterate_next (id : ServerId) (k : ℕ) : (ServerId.next^[k] id).1 =
    guestServerIdStart + (id.1 - guestServerIdStart + k) % 0x1000000 := by
  have hid := id.2
  induction k with
  | zero =>
    rw [Function.iterate_zero]
    change id.1 = _
    unfold guestServerIdStart at hid ⊢
    omega
  | succ k ih =>
    rw [Function.iterate_succ_apply', ServerId.next_val, ih]
    unfold guestServerIdStart at hid ⊢
    split_ifs <;> omega

theorem allocateGuestServerIdLoop_isSome {fuel k : ℕ} (hk : k < fuel)
    (hg : t.guestToHost.get (ServerId.next^[k] t.nextGuestServerId) = none)
    (hi : t.interfaces.get (ServerId.next^[k] t.nextGuestServerId) = none) :
    (allocateGuestServerIdLoop fuel t).isSome = true := by
  induction fuel generalizing t k with
  | zero => omega
  | succ fuel ih =>
    unfold allocateGuestServerIdLoop
    dsimp only
    split_ifs with hfree
    · rfl
    · cases k with
      | zero =>
        refine absurd ?_ hfree
        simp only [Function.iterate_zero, id_eq] at hg hi
        simp [hg, hi, t.nextGuestServerId.2.1]
      | succ k => exact ih (k := k) (by omega) hg hi

/-- The search finds a free guest ID of the server range when there is one. -/
theorem allocateGuestServerId_isSome {i : ServerId} (hg : t.guestToHost.get i = none)
    (hi : t.interfaces.get i = none) : t.allocateGuestServerId.isSome = true := by
  have hreach : ServerId.next^[(i.1 + 0x1000000 - t.nextGuestServerId.1) % 0x1000000]
      t.nextGuestServerId = i := by
    refine Subtype.ext ?_
    rw [iterate_next]
    have hid := i.2
    have hnext := t.nextGuestServerId.2
    unfold guestServerIdStart at hid hnext ⊢
    omega
  rw [← hreach] at hg hi
  exact allocateGuestServerIdLoop_isSome (Nat.mod_lt _ (by decide)) hg hi

theorem allocateGuestServerId_eq_some (hi : t.allocateGuestServerId = some (g, t')) :
    guestServerIdStart ≤ g ∧ t.guestToHost.get g = none ∧ t.interfaces.get g = none ∧
      ∃ n, t' = { t with nextGuestServerId := n } :=
  allocateGuestServerIdLoop_eq_some hi

/-- Pairing two unused IDs undoes no earlier pair. -/
theorem mapId_fresh (hg : t.guestToHost.get g = none) (hh : t.hostToGuest.get h = none) :
    t.mapId g h = { t with
      guestToHost := t.guestToHost.set g h
      hostToGuest := t.hostToGuest.set h g } := by
  simp [mapId, hg, hh]

theorem registerObject_fresh (hg : t.guestToHost.get g = none)
    (hh : t.hostToGuest.get h = none) (i : Interface) (version hostVersion : ℕ) :
    t.registerObject g h i version hostVersion = { t with
      guestToHost := t.guestToHost.set g h
      hostToGuest := t.hostToGuest.set h g
      interfaces := t.interfaces.set g i
      guestVersions := t.guestVersions.set g version
      hostVersions := t.hostVersions.set h hostVersion } := by
  rw [registerObject, mapId_fresh hg hh]
  rfl

theorem Paired.guest_inj (hp : t.Paired) {g' : ℕ} (hg : t.guestToHost.get g = some h)
    (hg' : t.guestToHost.get g' = some h) : g = g' := by
  rw [hp] at hg hg'
  rw [hg] at hg'
  exact Option.some.inj hg'

theorem Paired.host_inj (hp : t.Paired) {h' : ℕ} (hh : t.hostToGuest.get h = some g)
    (hh' : t.hostToGuest.get h' = some g) : h = h' := by
  rw [← hp] at hh hh'
  rw [hh] at hh'
  exact Option.some.inj hh'

theorem markPendingDestroy_mapped (hg : t.guestToHost.get g = some h) :
    t.markPendingDestroy g =
      { t with pendingDestroyGuestIds := insert g t.pendingDestroyGuestIds } := by
  simp [markPendingDestroy, hg]

theorem removeId_mapped (hg : t.guestToHost.get g = some h) :
    t.removeId g = { t with
      guestToHost := t.guestToHost.erase g
      hostToGuest := t.hostToGuest.erase h
      interfaces := t.interfaces.erase g
      hostInterfaces := t.hostInterfaces.erase h
      guestVersions := t.guestVersions.erase g
      hostVersions := t.hostVersions.erase h
      pendingDestroyGuestIds := t.pendingDestroyGuestIds.erase g } := by
  simp [removeId, hg]

theorem removeId_unmapped (hg : t.guestToHost.get g = none) :
    t.removeId g = { t with
      interfaces := t.interfaces.erase g
      guestVersions := t.guestVersions.erase g
      pendingDestroyGuestIds := t.pendingDestroyGuestIds.erase g } := by
  simp [removeId, hg]

theorem retireGuestObject_mapped {i : Interface} (hg : t.guestToHost.get g = some h)
    (hi : t.interfaces.get g = some i) (hnone : t.hostInterfaces.get h = none) :
    ∃ versions, t.retireGuestObject g = { t with
      interfaces := t.interfaces.erase g
      hostInterfaces := t.hostInterfaces.set h i
      guestVersions := t.guestVersions.erase g
      hostVersions := versions
      pendingDestroyGuestIds := insert g t.pendingDestroyGuestIds } := by
  simp only [retireGuestObject, hg, hi, hnone]
  exact ⟨_, rfl⟩

theorem removeGuestMapping_mapped {i : Interface} (hg : t.guestToHost.get g = some h)
    (hh : t.hostToGuest.get h = some g) (hi : t.interfaces.get g = some i) :
    t.removeGuestMapping g = { t with
      guestToHost := t.guestToHost.erase g
      hostToGuest := t.hostToGuest.erase h
      interfaces := t.interfaces.erase g
      hostInterfaces :=
        if (t.hostInterfaces.get h).isNone then t.hostInterfaces.set h i else t.hostInterfaces
      guestVersions := t.guestVersions.erase g } := by
  cases hnone : t.hostInterfaces.get h <;> simp [removeGuestMapping, hg, hh, hi, hnone]

theorem removeId_guestToHost (t : ShadowTable) (g g' : ℕ) :
    (t.removeId g).guestToHost.get g' = if g' = g then none else t.guestToHost.get g' := by
  cases hg : t.guestToHost.get g with
  | none =>
    rw [removeId_unmapped hg]
    split_ifs with heq
    · exact heq ▸ hg
    · rfl
  | some h =>
    rw [removeId_mapped hg]
    exact Table.get_erase ..

theorem removeGuestMapping_guestToHost (t : ShadowTable) (g g' : ℕ) :
    (t.removeGuestMapping g).guestToHost.get g' =
      if g' = g then none else t.guestToHost.get g' := by
  unfold removeGuestMapping
  cases hg : t.guestToHost.get g with
  | none =>
    simp only [hg]
    split_ifs with heq
    · exact heq ▸ hg
    · rfl
  | some h =>
    simp only [hg]
    split <;> split_ifs <;> simp_all

theorem removeId_hostToGuest (t : ShadowTable) (g h : ℕ) :
    (t.removeId g).hostToGuest.get h =
      if t.guestToHost.get g = some h then none else t.hostToGuest.get h := by
  cases hg : t.guestToHost.get g with
  | none => simp [removeId_unmapped hg]
  | some h' => simp [removeId_mapped hg, eq_comm]

theorem removeGuestMapping_unmapped (hg : t.guestToHost.get g = none) :
    t.removeGuestMapping g = { t with
      interfaces := t.interfaces.erase g
      guestVersions := t.guestVersions.erase g } := by
  simp [removeGuestMapping, hg]

/-- The host half of the pair is unregistered from the guest; it keeps or takes over the
interface. -/
theorem Paired.removeGuestMapping_eq (hp : t.Paired) (hg : t.guestToHost.get g = some h) :
    t.removeGuestMapping g = { t with
      guestToHost := t.guestToHost.erase g
      hostToGuest := t.hostToGuest.erase h
      interfaces := t.interfaces.erase g
      hostInterfaces :=
        match t.hostInterfaces.get h, t.interfaces.get g with
        | none, some interface => t.hostInterfaces.set h interface
        | _, _ => t.hostInterfaces
      guestVersions := t.guestVersions.erase g } := by
  simp only [removeGuestMapping, hg, (hp g h).mp hg, if_true]
  cases t.hostInterfaces.get h <;> cases t.interfaces.get g <;> rfl

theorem Paired.removeGuestMapping_hostToGuest (hp : t.Paired) (g h : ℕ) :
    (t.removeGuestMapping g).hostToGuest.get h =
      if t.guestToHost.get g = some h then none else t.hostToGuest.get h := by
  cases hg : t.guestToHost.get g with
  | none => simp [removeGuestMapping_unmapped hg]
  | some h' => simp [hp.removeGuestMapping_eq hg, eq_comm]

/-- Both halves of one pair are gone. -/
theorem Paired.unpair (hp : t.Paired)
    (hguest : ∀ g', t'.guestToHost.get g' = if g' = g then none else t.guestToHost.get g')
    (hhost : ∀ h, t'.hostToGuest.get h =
      if t.guestToHost.get g = some h then none else t.hostToGuest.get h) : t'.Paired := by
  intro g' h
  rw [hguest, hhost]
  split_ifs with heq hmapped hmapped
  · simp
  · subst heq
    simp [← hp g' h, hmapped]
  · simp only [iff_false]
    exact fun hg' => heq (hp.guest_inj hg' hmapped)
  · exact hp g' h

theorem Paired.removeId (hp : t.Paired) (g : ℕ) : (t.removeId g).Paired :=
  hp.unpair (removeId_guestToHost t g) (removeId_hostToGuest t g)

theorem Paired.mapId (hp : t.Paired) (hg : t.guestToHost.get g = none)
    (hh : t.hostToGuest.get h = none) : (t.mapId g h).Paired := by
  intro g' h'
  rw [mapId_fresh hg hh]
  simp only [Table.get_set]
  split_ifs with hg' hh' hh'
  · simp [hg', hh']
  · subst hg'
    simp [← hp g' h', hg, Ne.symm hh']
  · subst hh'
    simp [hp g' h', hh, Ne.symm hg']
  · exact hp g' h'

@[simp] theorem markPendingDestroy_guestToHost (t : ShadowTable) (g : ℕ) :
    (t.markPendingDestroy g).guestToHost = t.guestToHost := by
  unfold markPendingDestroy
  split <;> rfl

/-- The mark concerns the host side only. -/
theorem markPendingDestroyHost_eq (t : ShadowTable) (h : ℕ) :
    ∃ hostInterfaces hostVersions retiredHostIds pendingDestroyHostIds,
      (t.markPendingDestroyHost h).2 = { t with
        hostInterfaces
        hostVersions
        retiredHostIds
        pendingDestroyHostIds } := by
  unfold markPendingDestroyHost
  split_ifs <;> exact ⟨_, _, _, _, rfl⟩

theorem markPendingDestroyHost_fresh {i : Interface} (hunmapped : t.hostToGuest.get h = none)
    (hi : t.hostInterfaces.get h = some i) :
    (t.markPendingDestroyHost h).2 = { t with
      hostInterfaces := t.hostInterfaces.erase h
      hostVersions := t.hostVersions.erase h
      retiredHostIds := t.retiredHostIds.erase h
      pendingDestroyHostIds := insert h t.pendingDestroyHostIds } := by
  simp [markPendingDestroyHost, hunmapped, hi]

/-- The guest half is marked; the host half keeps or takes over the interface. -/
theorem retireGuestObject_get {i : Interface} (hg : t.guestToHost.get g = some h)
    (hi : t.interfaces.get g = some i) : ∃ hostInterfaces hostVersions,
      (∀ k, hostInterfaces.get k =
        if k = h then (t.hostInterfaces.get h).or (some i) else t.hostInterfaces.get k) ∧
      t.retireGuestObject g = { t with
        interfaces := t.interfaces.erase g
        hostInterfaces
        guestVersions := t.guestVersions.erase g
        hostVersions
        pendingDestroyGuestIds := insert g t.pendingDestroyGuestIds } := by
  simp only [retireGuestObject, hg, hi]
  refine ⟨_, _, fun k => ?_, rfl⟩
  cases hh : t.hostInterfaces.get h <;> grind [Table.get_set]

/-- The guest half is gone; the host half keeps or takes over the interface. -/
theorem Paired.removeGuestMapping_get (hp : t.Paired) (hg : t.guestToHost.get g = some h) :
    ∃ hostInterfaces,
      (∀ k, hostInterfaces.get k = if k = h then
        (t.hostInterfaces.get h).or (t.interfaces.get g) else t.hostInterfaces.get k) ∧
      t.removeGuestMapping g = { t with
        guestToHost := t.guestToHost.erase g
        hostToGuest := t.hostToGuest.erase h
        interfaces := t.interfaces.erase g
        hostInterfaces
        guestVersions := t.guestVersions.erase g } := by
  refine ⟨_, fun k => ?_, hp.removeGuestMapping_eq hg⟩
  cases hh : t.hostInterfaces.get h <;> cases hi : t.interfaces.get g <;> grind [Table.get_set]

/-- The host half of a pair is destroyed with it. -/
theorem Paired.retireServerDestroyedObject_get (hp : t.Paired) {i : Interface}
    (hg : t.guestToHost.get g = some h)
    (hi : (t.hostInterfaces.get h).or (t.interfaces.get g) = some i) :
    ∃ hostInterfaces hostVersions,
      (∀ k, hostInterfaces.get k = if k = h then none else t.hostInterfaces.get k) ∧
      (t.retireServerDestroyedObject g).2 = { t with
        guestToHost := t.guestToHost.erase g
        hostToGuest := t.hostToGuest.erase h
        interfaces := t.interfaces.erase g
        hostInterfaces
        guestVersions := t.guestVersions.erase g
        hostVersions
        retiredHostIds := t.retiredHostIds.erase h
        pendingDestroyHostIds := insert h t.pendingDestroyHostIds } := by
  obtain ⟨hostInterfaces, hget, heq⟩ := hp.removeGuestMapping_get hg
  refine ⟨hostInterfaces.erase h, t.hostVersions.erase h, fun k => ?_, ?_⟩
  · rw [Table.get_erase, hget]
    split_ifs <;> rfl
  · simp only [retireServerDestroyedObject, hg, heq, markPendingDestroyHost]
    simp [hget, hi]

end ShadowTable
end Sommelier
