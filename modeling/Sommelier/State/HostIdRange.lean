import Sommelier.State.HostIds
import Sommelier.State.TableCalls

/-!
# The range of allocated host IDs

Clients number their objects from 2 up to the range that is reserved for the server. The search
for a host ID does not stop there: it returns an ID of the client range exactly when the cursor
meets a free one before any free ID of the server range.

## Main definitions

* `ShadowTable.AllocatesClientId`: what an allocation should return.
* `ShadowTable.ClientIdFirst`: a free ID of the client range comes first.
* `hostIdSystem`: allocations between arbitrary calls on the table.
* `host_id_range`: the IDs that are returned and announced.
-/
namespace Sommelier

namespace ShadowTable

variable {t t' : ShadowTable} {h : ℕ}

/-! ## One allocation -/

/-- An ID a client may choose. -/
def IsClientId (hostId : ℕ) : Prop := 2 ≤ hostId ∧ hostId < guestServerIdStart

instance (hostId : ℕ) : Decidable (IsClientId hostId) := inferInstanceAs (Decidable (_ ∧ _))

/-- An allocation returns a free ID of the client range, and there is one to return if any is
free. -/
structure AllocatesClientId (t : ShadowTable) : Prop where
  range : ∀ h t', t.allocateHostId = some (h, t') → IsClientId h ∧ t.hostIdFree h = true
  isSome : (∃ h, IsClientId h ∧ t.hostIdFree h = true) → t.allocateHostId.isSome = true

/-- The steps of the cursor until it meets the ID. -/
def walk (t : ShadowTable) (hostId : ℕ) : ℕ := (hostId + hostIdCount - t.nextHostId) % hostIdCount

/-- On the way of the cursor, a free ID of the client range comes before every free ID of the
server range. -/
def ClientIdFirst (t : ShadowTable) : Prop :=
  ∀ s, guestServerIdStart ≤ s → s < 2 ^ 32 → t.hostIdFree s = true →
    ∃ h, IsClientId h ∧ t.hostIdFree h = true ∧ t.walk h < t.walk s

theorem IsClientId.lt (hh : IsClientId h) : h < 2 ^ 32 :=
  hh.2.trans (by decide)

/-- The cursor meets the ID after as many steps as its walk has. -/
theorem eq_of_walk (hfits : t.CursorFits) (hle : 2 ≤ h) (hlt : h < 2 ^ 32) :
    2 + (t.nextHostId - 2 + t.walk h) % hostIdCount = h := by
  obtain ⟨hle', hlt'⟩ := hfits
  unfold walk hostIdCount
  omega

theorem walk_of_eq (hfits : t.CursorFits) {k : ℕ} (hk : k < hostIdCount)
    (hh : h = 2 + (t.nextHostId - 2 + k) % hostIdCount) : t.walk h = k := by
  obtain ⟨hle, hlt⟩ := hfits
  unfold walk hostIdCount at *
  omega

/-- The search returns the free ID with the shortest walk. -/
theorem allocateHostId_walk (hfits : t.CursorFits) (hi : t.allocateHostId = some (h, t')) :
    t.hostIdFree h = true ∧ 2 ≤ h ∧ h < 2 ^ 32 ∧
      ∀ k, 2 ≤ k → k < 2 ^ 32 → t.hostIdFree k = true → t.walk h ≤ t.walk k := by
  obtain ⟨hfree, hle, -⟩ := allocateHostId_eq_some hi
  obtain ⟨n, hn, hh, hbefore, -⟩ := allocateHostId_first hfits hi
  have hlt : h < 2 ^ 32 := by
    have hround := Nat.mod_lt (t.nextHostId - 2 + n) (show 0 < hostIdCount by decide)
    unfold hostIdCount at *
    omega
  refine ⟨hfree, hle, hlt, fun k hk hk' hfree' => ?_⟩
  rw [walk_of_eq hfits hn hh]
  by_contra hshort
  have hpassed := hbefore (t.walk k) (Nat.lt_of_not_le hshort)
  rw [eq_of_walk hfits hk hk', hfree'] at hpassed
  exact absurd hpassed (by simp)

/-- An allocation keeps to the client range if and only if a client ID comes first. -/
theorem allocatesClientId_iff (hfits : t.CursorFits) :
    t.AllocatesClientId ↔ t.ClientIdFirst := by
  constructor
  · intro halloc s hstart hlt hfree
    have hs : 2 ≤ s := le_trans (by decide) hstart
    obtain ⟨⟨h, t'⟩, hi⟩ :=
      Option.isSome_iff_exists.mp (allocateHostId_isSome hfits hs hlt hfree)
    obtain ⟨hclient, hfree'⟩ := halloc.range h t' hi
    refine ⟨h, hclient, hfree', lt_of_le_of_ne ?_ fun heq => ?_⟩
    · exact (allocateHostId_walk hfits hi).2.2.2 s hs hlt hfree
    · have hsame : h = s := by
        rw [← eq_of_walk hfits hclient.1 hclient.lt, heq, eq_of_walk hfits hs hlt]
      exact absurd hclient.2 (by omega)
  · intro hfirst
    refine ⟨fun h t' hi => ?_, fun ⟨h, hclient, hfree⟩ => ?_⟩
    · obtain ⟨hfree, hle, hlt, hshortest⟩ := allocateHostId_walk hfits hi
      refine ⟨⟨hle, ?_⟩, hfree⟩
      by_contra hserver
      obtain ⟨k, hclient, hfree', hwalk⟩ := hfirst h (Nat.le_of_not_lt hserver) hlt hfree
      exact absurd (hshortest k hclient.1 hclient.lt hfree') (Nat.not_le_of_lt hwalk)
    · exact allocateHostId_isSome hfits hclient.1 hclient.lt hfree

/-! ## The cursor under the other calls -/

@[simp] theorem mapId_nextHostId (t : ShadowTable) (g h : ℕ) :
    (t.mapId g h).nextHostId = t.nextHostId := by
  unfold mapId
  dsimp only
  split <;> (try split_ifs) <;> split <;> (try split_ifs) <;> rfl

@[simp] theorem removeId_nextHostId (t : ShadowTable) (g : ℕ) :
    (t.removeId g).nextHostId = t.nextHostId := by
  cases hg : t.guestToHost.get g with
  | none => rw [removeId_unmapped hg]
  | some h => rw [removeId_mapped hg]

@[simp] theorem removeGuestMapping_nextHostId (t : ShadowTable) (g : ℕ) :
    (t.removeGuestMapping g).nextHostId = t.nextHostId := by
  unfold removeGuestMapping
  dsimp only
  split
  · split_ifs <;> split <;> rfl
  · rfl

@[simp] theorem markPendingDestroy_nextHostId (t : ShadowTable) (g : ℕ) :
    (t.markPendingDestroy g).nextHostId = t.nextHostId := by
  unfold markPendingDestroy
  split <;> rfl

@[simp] theorem markPendingDestroyHost_nextHostId (t : ShadowTable) (h : ℕ) :
    (t.markPendingDestroyHost h).2.nextHostId = t.nextHostId := by
  unfold markPendingDestroyHost
  split_ifs <;> rfl

@[simp] theorem retireServerDestroyedObject_nextHostId (t : ShadowTable) (g : ℕ) :
    (t.retireServerDestroyedObject g).2.nextHostId = t.nextHostId := by
  unfold retireServerDestroyedObject
  split
  · rfl
  · simp

@[simp] theorem retireGuestObject_nextHostId (t : ShadowTable) (g : ℕ) :
    (t.retireGuestObject g).nextHostId = t.nextHostId := by
  unfold retireGuestObject
  dsimp only
  split <;> rfl

end ShadowTable

/-- Only an allocation moves the cursor. -/
theorem TableClient.apply_nextHostId {c c' : TableClient} {call : TableCall}
    (hcall : call ≠ .allocateHostId) (h : c.apply call = some c') :
    c'.table.nextHostId = c.table.nextHostId := by
  cases call with
  | allocateHostId => exact absurd rfl hcall
  | allocateGuestServerId =>
    obtain ⟨⟨g, t⟩, halloc, rfl⟩ := Option.map_eq_some_iff.mp h
    obtain ⟨-, -, -, n, rfl⟩ := ShadowTable.allocateGuestServerId_eq_some halloc
    rfl
  | trackHostInterface hostId interface =>
    obtain rfl := Option.some.inj h
    rfl
  | trackHostInterfaceWithVersion hostId interface version =>
    obtain rfl := Option.some.inj h
    rfl
  | _ =>
    obtain rfl := Option.some.inj h
    simp [ShadowTable.trackInterface, ShadowTable.trackInterfaceWithVersion,
      ShadowTable.setHostVersion, ShadowTable.removeHostInterface,
      ShadowTable.retireHostInterface, ShadowTable.clearPendingDestroyGuest]

/-! ## Sessions -/

/-- What happens to the table: a call of a handler, in any order and with any arguments, or a
request whose new ID the generated code maps and announces to the host. -/
inductive HostIdInput
  | call (call : TableCall)
  | newId (guestId : ℕ) (interface : Interface) (version hostVersion : ℕ)
  deriving DecidableEq, Repr

/-- The table, with every ID an allocation returned, the table it was returned from, and the new
IDs the generated code announced; newest first. -/
structure HostIdSession where
  client : TableClient
  returned : List (ShadowTable × ℕ)
  announced : List ℕ

namespace HostIdSession

def new : HostIdSession where
  client := .new
  returned := []
  announced := []

/-- `none` is the panic of an exhausted ID space. -/
def allocate (s : HostIdSession) : Option (ℕ × HostIdSession) :=
  s.client.table.allocateHostId.map fun (hostId, table) =>
    (hostId, { s with
      client := { s.client with table }
      returned := (s.client.table, hostId) :: s.returned })

/-- Change the table alone. -/
def onTable (s : HostIdSession) (f : ShadowTable → ShadowTable) : HostIdSession :=
  { s with client := { s.client with table := f s.client.table } }

def step (s : HostIdSession) : HostIdInput → Option HostIdSession
  | .call .allocateHostId => s.allocate.map (·.2)
  | .call call => (s.client.apply call).map fun client => { s with client }
  | .newId guestId interface version hostVersion =>
    s.allocate.map fun (hostId, s) =>
      { s.onTable (·.registerObject guestId hostId interface version hostVersion) with
        announced := hostId :: s.announced }

end HostIdSession

/-- The input allocates a host ID. -/
def HostIdInput.allocates : HostIdInput → Bool
  | .call tableCall => tableCall == .allocateHostId
  | .newId .. => true

/-- The shadow table of a session under calls in any order. -/
def hostIdSystem : TransitionSystem HostIdSession HostIdInput where
  init s := s = .new
  step := HostIdSession.step

namespace HostIdSession

variable {s s' : HostIdSession} {input : HostIdInput} {h : ℕ}

theorem allocate_eq_some (hi : s.allocate = some (h, s')) :
    ∃ t, s.client.table.allocateHostId = some (h, t) ∧ s' = { s with
      client := { s.client with table := t }
      returned := (s.client.table, h) :: s.returned } := by
  obtain ⟨⟨hostId, t⟩, halloc, heq⟩ := Option.map_eq_some_iff.mp hi
  obtain ⟨rfl, rfl⟩ := Prod.mk.inj heq
  exact ⟨t, halloc, rfl⟩

/-- A step that allocates returns one ID and announces at most that one; the others do neither. -/
theorem step_cases (hs : s.step input = some s') :
    (∃ h t, input.allocates = true ∧ s.client.table.allocateHostId = some (h, t) ∧
      s'.client.table.nextHostId = t.nextHostId ∧
      s'.returned = (s.client.table, h) :: s.returned ∧
      ∀ k ∈ s'.announced, k = h ∨ k ∈ s.announced) ∨
    (s'.client.table.nextHostId = s.client.table.nextHostId ∧ s'.returned = s.returned ∧
      s'.announced = s.announced) := by
  cases input with
  | call call =>
    by_cases hcall : call = .allocateHostId
    · subst hcall
      obtain ⟨⟨h, s₁⟩, halloc, rfl⟩ := Option.map_eq_some_iff.mp hs
      obtain ⟨t, ht, rfl⟩ := allocate_eq_some halloc
      exact .inl ⟨h, t, rfl, ht, rfl, rfl, fun k hk => .inr hk⟩
    · right
      have happly : (s.client.apply call).map (fun client => { s with client }) = some s' := by
        cases call <;> first | exact absurd rfl hcall | exact hs
      obtain ⟨client, hclient, rfl⟩ := Option.map_eq_some_iff.mp happly
      exact ⟨TableClient.apply_nextHostId hcall hclient, rfl, rfl⟩
  | newId guestId interface version hostVersion =>
    left
    obtain ⟨⟨h, s₁⟩, halloc, rfl⟩ := Option.map_eq_some_iff.mp hs
    obtain ⟨t, ht, rfl⟩ := allocate_eq_some halloc
    refine ⟨h, t, rfl, ht, ?_, rfl, fun k hk => List.mem_cons.mp hk⟩
    change (t.mapId guestId h).nextHostId = t.nextHostId
    exact ShadowTable.mapId_nextHostId t guestId h

/-- The cursor is an ID in every session. -/
theorem cursorFits_of_reachable (hs : hostIdSystem.Reachable s) : s.client.table.CursorFits := by
  refine hs.invariant (I := fun s => s.client.table.CursorFits) ?_ ?_
  · rintro s rfl
    exact ⟨by decide, by decide⟩
  · intro s input s' _ hfits _ hstep
    rcases step_cases hstep with ⟨h, t, -, halloc, hnext, -⟩ | ⟨hnext, -⟩
    · have ht := ShadowTable.allocateHostId_fits halloc
      exact ⟨hnext ▸ ht.1, hnext ▸ ht.2⟩
    · exact ⟨hnext ▸ hfits.1, hnext ▸ hfits.2⟩

/-- Every ID that was returned is a free one of the client range, and so is every ID that was
announced. -/
structure KeepsRange (s : HostIdSession) : Prop where
  returned : ∀ a ∈ s.returned, ShadowTable.IsClientId a.2 ∧ a.1.hostIdFree a.2 = true
  announced : ∀ h ∈ s.announced, ShadowTable.IsClientId h

theorem KeepsRange.step (hs : s.KeepsRange)
    (hfirst : input.allocates = true → s.client.table.AllocatesClientId)
    (hstep : s.step input = some s') : s'.KeepsRange := by
  rcases step_cases hstep with
    ⟨h, t, hallocates, halloc, -, hreturned, hannounced⟩ | ⟨-, hreturned, hannounced⟩
  · have hh := (hfirst hallocates).range h t halloc
    refine ⟨?_, fun k hk => ?_⟩
    · rw [hreturned]
      exact List.forall_mem_cons.mpr ⟨hh, hs.returned⟩
    · rcases hannounced k hk with rfl | hold
      · exact hh.1
      · exact hs.announced k hold
  · exact ⟨hreturned ▸ hs.returned, hannounced ▸ hs.announced⟩

end HostIdSession

/-- In every session, an allocation keeps to the client range if and only if a free ID of that
range comes first on the way of the cursor. In a session whose allocations all meet this, every
ID that was returned was a free one of the client range, and so is every announced one. -/
theorem host_id_range (s : HostIdSession) :
    (hostIdSystem.Reachable s →
      (s.client.table.AllocatesClientId ↔ s.client.table.ClientIdFirst)) ∧
    (hostIdSystem.ReachableWhile
      (fun s input => input.allocates = true → s.client.table.ClientIdFirst) s → s.KeepsRange) := by
  refine ⟨fun hs => ?_, fun hs => ?_⟩
  · exact ShadowTable.allocatesClientId_iff (HostIdSession.cursorFits_of_reachable hs)
  · refine hs.invariant ?_ ?_
    · rintro s rfl
      exact ⟨by simp [HostIdSession.new], by simp [HostIdSession.new]⟩
    · intro s input s' hreach hkeeps hfirst hstep
      refine hkeeps.step (fun hallocates => ?_) hstep
      exact (ShadowTable.allocatesClientId_iff
        (HostIdSession.cursorFits_of_reachable hreach.reachable)).mpr (hfirst hallocates)

/-! ## A long session -/

/-- No host ID is in use, nor is the guest ID 2, and the cursor stands at `k`. -/
structure ShadowTable.Idle (t : ShadowTable) (k : ℕ) : Prop where
  unused : t.guestToHost.get 2 = none
  free : ∀ h, 2 ≤ h → t.hostIdFree h = true
  cursor : t.nextHostId = k

/-- One callback: its ID is mapped and announced, and removed when it is deleted. -/
def callbackRound : List HostIdInput := [.newId 2 .wlCallback 1 1, .call (.removeId 2)]

/-- One callback for every ID of the client range, and one more. -/
def longSession : List HostIdInput :=
  (List.replicate (guestServerIdStart - 2) callbackRound).flatten ++ [.newId 2 .wlCallback 1 1]

namespace HostIdSession

variable {s : HostIdSession} {k : ℕ}

/-- An idle table returns the ID at its cursor. -/
theorem allocateHostId_idle {t : ShadowTable} (ht : t.Idle k) (hle : 2 ≤ k) (hlt : k < 2 ^ 32) :
    t.allocateHostId =
      some (k, { t with nextHostId := ShadowTable.nextHostCandidate k }) := by
  have hfits : t.CursorFits := ⟨ht.cursor ▸ hle, ht.cursor ▸ hlt⟩
  obtain ⟨⟨h, t'⟩, hi⟩ :=
    Option.isSome_iff_exists.mp (ShadowTable.allocateHostId_isSome hfits hle hlt (ht.free k hle))
  obtain ⟨n, -, hh, hbefore, rfl⟩ := ShadowTable.allocateHostId_first hfits hi
  have hn : n = 0 := by
    by_contra hpos
    have hused := hbefore 0 (Nat.pos_of_ne_zero hpos)
    rw [ht.free _ (Nat.le_add_right _ _)] at hused
    cases hused
  have hhk : h = k := by
    rw [hh, hn, ht.cursor, Nat.add_zero, Nat.mod_eq_of_lt]
    · omega
    · unfold ShadowTable.hostIdCount
      omega
  rw [hi, hhk]

/-- The session after a callback was announced. -/
theorem step_newId_idle (hs : s.client.table.Idle k) (hle : 2 ≤ k) (hlt : k < 2 ^ 32) :
    ∃ s', s.step (.newId 2 .wlCallback 1 1) = some s' ∧ s'.announced = k :: s.announced ∧
      s'.client.table = ShadowTable.registerObject
        { s.client.table with nextHostId := ShadowTable.nextHostCandidate k } 2 k .wlCallback 1
          1 := by
  simp only [step, allocate, allocateHostId_idle hs hle hlt, Option.map_some]
  exact ⟨_, rfl, rfl, rfl⟩

/-- A callback leaves the table idle, with the cursor at the next ID. -/
theorem run_callbackRound (hs : s.client.table.Idle k) (hle : 2 ≤ k) (hlt : k + 1 < 2 ^ 32) :
    ∃ s', hostIdSystem.run s callbackRound = some s' ∧ s'.client.table.Idle (k + 1) := by
  obtain ⟨s₁, hs₁, -, ht₁⟩ := step_newId_idle hs hle (Nat.lt_of_succ_lt hlt)
  have hfree := ShadowTable.hostIdFree_iff.mp (hs.free k hle)
  rw [ShadowTable.registerObject_fresh
    (t := { s.client.table with nextHostId := ShadowTable.nextHostCandidate k }) hs.unused
    hfree.1] at ht₁
  refine ⟨{ s₁ with client := { s₁.client with table := s₁.client.table.removeId 2 } }, ?_, ?_⟩
  · have hstep : hostIdSystem.step s (.newId 2 .wlCallback 1 1) = some s₁ := hs₁
    rw [callbackRound, TransitionSystem.run_cons, hstep]
    rfl
  · have hmapped : s₁.client.table.guestToHost.get 2 = some k := by simp [ht₁]
    rw [ShadowTable.removeId_mapped hmapped, ht₁]
    refine ⟨by simp, fun h hh => ?_, ?_⟩
    · have hold := ShadowTable.hostIdFree_iff.mp (hs.free h hh)
      rw [ShadowTable.hostIdFree_iff]
      refine ⟨?_, ?_, hold.2.2⟩
      · simp only [Table.get_erase, Table.get_set, hold.1]
        split_ifs <;> rfl
      · simp only [Table.get_erase, hold.2.1, ite_self]
    · simp only [ShadowTable.nextHostCandidate]
      omega

theorem run_callbackRounds (n : ℕ) (hs : s.client.table.Idle k) (hle : 2 ≤ k)
    (hlt : k + n < 2 ^ 32) : ∃ s',
      hostIdSystem.run s (List.replicate n callbackRound).flatten = some s' ∧
        s'.client.table.Idle (k + n) := by
  induction n generalizing s k with
  | zero => exact ⟨s, rfl, hs⟩
  | succ n ih =>
    obtain ⟨s₁, hs₁, hidle⟩ := run_callbackRound hs hle (by omega)
    obtain ⟨s', hs', hidle'⟩ := ih hidle (by omega) (by omega)
    refine ⟨s', ?_, by rwa [Nat.add_right_comm, Nat.add_assoc] at hidle'⟩
    rw [List.replicate_succ, List.flatten_cons, TransitionSystem.run_append, hs₁]
    exact hs'

theorem idle_new : new.client.table.Idle 2 where
  unused := by decide
  free h hh := by
    rw [ShadowTable.hostIdFree_iff]
    refine ⟨?_, rfl, Finset.notMem_empty h, Finset.notMem_empty h⟩
    change (Table.set ∅ 1 1).get h = none
    rw [Table.get_set, if_neg (by omega), Table.get_empty]
  cursor := rfl

end HostIdSession

/-- After one callback for every ID of the client range, the first ID of the server range is
announced, although every ID of the client range is free. -/
theorem host_id_range_passed : ∃ s, hostIdSystem.run .new longSession = some s ∧
    guestServerIdStart ∈ s.announced ∧ ¬ s.KeepsRange := by
  obtain ⟨s, hs, hidle⟩ := HostIdSession.run_callbackRounds (guestServerIdStart - 2)
    HostIdSession.idle_new (by decide) (by decide)
  obtain ⟨s', hs', hannounced, -⟩ :=
    HostIdSession.step_newId_idle hidle (by decide) (by decide)
  have hmem : guestServerIdStart ∈ s'.announced := by
    rw [hannounced]
    exact List.mem_cons_self
  refine ⟨s', ?_, hmem, fun hkeeps => absurd (hkeeps.announced _ hmem) (by decide)⟩
  have hstep : hostIdSystem.step s (.newId 2 .wlCallback 1 1) = some s' := hs'
  rw [longSession, TransitionSystem.run_append, hs, Option.bind_some, TransitionSystem.run_cons,
    hstep]
  rfl

end Sommelier
