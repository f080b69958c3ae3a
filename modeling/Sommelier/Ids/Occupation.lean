import Sommelier.Ids.Coherence
import Sommelier.State.HostIdRange

/-!
# Occupied host IDs

A host ID is occupied while it stands in one of the host namespaces. Most acts leave every
occupied ID occupied: an object that is destroyed moves from one namespace to another.

## Main definitions

* `ShadowTable.Occupied`: the ID is in one of the host namespaces.
-/
namespace Sommelier

namespace ShadowTable
variable {t : ShadowTable} {g h x : ℕ}

/-- The ID is in one of the host namespaces. -/
def Occupied (t : ShadowTable) (h : ℕ) : Prop :=
  t.hostToGuest.get h ≠ none ∨ t.hostInterfaces.get h ≠ none ∨ h ∈ t.retiredHostIds ∨
    h ∈ t.pendingDestroyHostIds

theorem occupied_iff : t.Occupied h ↔ t.hostIdFree h = false := by
  rw [← Bool.not_eq_true, hostIdFree_iff, Occupied]
  tauto

theorem occupied_markPendingDestroy (g : ℕ) :
    (t.markPendingDestroy g).Occupied x ↔ t.Occupied x := by
  unfold markPendingDestroy
  split <;> exact Iff.rfl

/-- A destroyed host object waits for its acknowledgement. -/
theorem occupied_markPendingDestroyHost (h : ℕ) :
    (t.markPendingDestroyHost h).2.Occupied x ↔ t.Occupied x := by
  unfold markPendingDestroyHost
  split_ifs with hhost
  · exact Iff.rfl
  · simp only [Bool.or_eq_true, Option.isNone_iff_eq_none, not_or] at hhost
    unfold Occupied
    grind [Table.get_erase]

theorem occupied_retireHostInterface (h : ℕ) :
    (t.retireHostInterface h).Occupied x ↔ x = h ∨ t.Occupied x := by
  unfold Occupied retireHostInterface
  grind [Table.get_erase]

/-- The host half of a pair is gone with the guest half, if its destructor is not under way. -/
theorem Occupied.of_removeId (hx : (t.removeId g).Occupied x) : t.Occupied x := by
  cases hg : t.guestToHost.get g with
  | none => rwa [removeId_unmapped hg] at hx
  | some h =>
    rw [removeId_mapped hg] at hx
    unfold Occupied at hx ⊢
    grind [Table.get_erase]

theorem Paired.occupied_retireGuestObject (hp : t.Paired) {i : Interface}
    (hg : t.guestToHost.get g = some h) (hi : t.interfaces.get g = some i) :
    (t.retireGuestObject g).Occupied x ↔ t.Occupied x := by
  have hh := (hp g h).mp hg
  obtain ⟨hostInterfaces, hostVersions, hget, heq⟩ := retireGuestObject_get hg hi
  rw [heq]
  unfold Occupied
  grind

/-- The host half of a pair keeps its ID under an interface of its own. -/
theorem Paired.occupied_removeGuestMapping (hp : t.Paired) {i : Interface}
    (hg : t.guestToHost.get g = some h) (hi : t.interfaces.get g = some i) :
    (t.removeGuestMapping g).Occupied x ↔ t.Occupied x := by
  have hh := (hp g h).mp hg
  obtain ⟨hostInterfaces, hget, heq⟩ := hp.removeGuestMapping_get hg
  have hself : hostInterfaces.get h ≠ none := by
    rw [hget, if_pos rfl, hi]
    simp
  rw [heq]
  unfold Occupied
  grind [Table.get_erase]

/-- The host half of a completed callback waits for its acknowledgement. -/
theorem Paired.occupied_retireServerDestroyedObject (hp : t.Paired) {i : Interface}
    (hg : t.guestToHost.get g = some h)
    (hi : (t.hostInterfaces.get h).or (t.interfaces.get g) = some i) :
    (t.retireServerDestroyedObject g).2.Occupied x ↔ t.Occupied x := by
  have hh := (hp g h).mp hg
  obtain ⟨hostInterfaces, hostVersions, hget, heq⟩ := hp.retireServerDestroyedObject_get hg hi
  rw [heq]
  unfold Occupied
  grind [Table.get_erase]

/-- A new host object occupies its ID. -/
theorem occupied_trackHostInterface (h : ℕ) (i : Interface) (version : ℕ) :
    (t.trackHostInterfaceWithVersion h i version).Occupied x ↔ x = h ∨ t.Occupied x := by
  unfold Occupied trackHostInterfaceWithVersion
  grind [Table.get_set]

end ShadowTable

namespace IdState
variable {s : IdState} {g h n x : ℕ} {i : Interface} {guestVersions hostVersions : Table ℕ ℕ}

theorem occupied_bound {version : ℕ} :
    (s.bound h n i version).shadowTable.Occupied x ↔ x = h ∨ s.shadowTable.Occupied x :=
  ShadowTable.occupied_trackHostInterface (t := (s.take h n).shadowTable) h i version

theorem occupied_pair : (s.pair g h n i guestVersions hostVersions).shadowTable.Occupied x ↔
    x = h ∨ s.shadowTable.Occupied x := by
  unfold ShadowTable.Occupied
  simp only [pair, take, onTable]
  grind [Table.get_set]

theorem occupied_pairTextInput {extended : Option ℕ} :
    (s.pairTextInput g h extended guestVersions hostVersions).shadowTable.Occupied x ↔
      x = h ∨ extended = some x ∨ s.shadowTable.Occupied x := by
  unfold ShadowTable.Occupied
  cases extended <;> simp only [pairTextInput, onTable, Option.elim_none, Option.elim_some] <;>
    grind [Table.get_set]

theorem occupied_pairAnnouncedAs {version : ℕ} {next : ServerId} :
    (s.pairAnnouncedAs g h i version next).shadowTable.Occupied x ↔
      x = h ∨ s.shadowTable.Occupied x := by
  unfold ShadowTable.Occupied
  simp only [pairAnnouncedAs, onTable, logHost, logGuest]
  grind [Table.get_set]

theorem occupied_destroyInternal :
    (s.destroyInternal h).shadowTable.Occupied x ↔ s.shadowTable.Occupied x :=
  ShadowTable.occupied_markPendingDestroyHost h

theorem occupied_retireInternal :
    (s.retireInternal h).shadowTable.Occupied x ↔ x = h ∨ s.shadowTable.Occupied x :=
  ShadowTable.occupied_retireHostInterface h

/-- The answer for destroyed parameters frees their ID, once they have no guest object. -/
theorem occupied_answerOrphan : (s.answerOrphan h).shadowTable.Occupied x ↔
    (x = h → s.shadowTable.hostToGuest.get h ≠ none) ∧ s.shadowTable.Occupied x := by
  simp only [answerOrphan, onTable, ShadowTable.getGuestId, Option.isNone_iff_eq_none]
  split_ifs with hnone
  · unfold ShadowTable.Occupied ShadowTable.removeHostInterface
    grind [Table.get_erase]
  · simp [hnone]

/-- An acknowledged ID is occupied only by what does not wait for the acknowledgement. -/
theorem occupied_of_acknowledged (hx : (s.acknowledged h).shadowTable.Occupied x) :
    s.shadowTable.Occupied x := by
  unfold ShadowTable.Occupied acknowledged at hx
  unfold ShadowTable.Occupied
  grind

end IdState

end Sommelier
