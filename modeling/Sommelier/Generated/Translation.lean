import Sommelier.Generated.Dispatch

/-!
# Translation of a message

A forwarded message carries the values of the original under the shadow table: plain values
and descriptors unchanged, objects as their images, new IDs as the IDs they were just paired
with. The translation of the argument list is an induction over the schema; a new ID keeps
its partner only when it is the only new ID of the message with its number.

## Main definitions

* `ShadowTable.Nameable`: an object a message may name.
* `ArgTranslated`, `Translated`: an argument, and a message, and its translation.
* `NewlyMapped`: what the mapping of one new ID does to the table.
-/
namespace Sommelier

/-! ## Objects and their images -/

namespace ShadowTable

/-- The guest destroyed the object and the host has not acknowledged it. -/
def Doomed (t : ShadowTable) : Direction → ℕ → Prop
  | .clientToHost, id => id ∈ t.pendingDestroyGuestIds
  | .hostToClient, id => ∃ g, t.hostToGuest.get id = some g ∧ g ∈ t.pendingDestroyGuestIds

/-- The table records the interface for the object. -/
def HasInterface (t : ShadowTable) : Direction → ℕ → Interface → Prop
  | .clientToHost, id, i => t.interfaces.get id = some i
  | .hostToClient, id, i => t.hostInterfaces.get id = some i ∨
      ∃ g, t.hostToGuest.get id = some g ∧ t.interfaces.get g = some i

/-- A known object, not pending destruction, of the interface that is asked for. -/
structure Nameable (t : ShadowTable) (d : Direction) (interface : Option Interface)
    (id : ℕ) : Prop where
  known : ((t.image d).get id).isSome = true
  live : ¬ t.Doomed d id
  interface_eq : ∀ i, interface = some i → t.HasInterface d id i

/-- An ID the sender may introduce. -/
def Available (t : ShadowTable) : Direction → ℕ → Prop
  | .clientToHost, id => t.isGuestIdAvailable id = true
  | .hostToClient, id => t.isHostIdAvailable id = true

/-- An ID no object of the receiver has. -/
def IsFree (t : ShadowTable) : Direction → ℕ → Prop
  | .clientToHost, id => 2 ≤ id ∧ t.hostIdFree id = true
  | .hostToClient, id => guestServerIdStart ≤ id ∧ t.guestToHost.get id = none ∧
      t.interfaces.get id = none

/-- The two IDs are translated into each other. -/
def IsPair (t : ShadowTable) (d : Direction) (id id' : ℕ) : Prop :=
  (t.image d).get id = some id' ∧ (t.image d.reverse).get id' = some id

/-- The IDs of the table are 32-bit words. -/
structure FitsU32 (t : ShadowTable) : Prop where
  image_lt : ∀ d x y, (t.image d).get x = some y → y < 2 ^ 32
  next_lt : t.nextHostId < 2 ^ 32

end ShadowTable

/-- A new ID and the ID of its partner: both unused before the message, a pair after it. -/
structure NewPartner (d : Direction) (t t' : ShadowTable) (id id' : ℕ) : Prop where
  unused : (t.image d).get id = none
  free : t.IsFree d id'
  pair : t'.IsPair d id id'

/-- An object argument and its translation: null stays null. -/
def ObjectTranslated (d : Direction) (t : ShadowTable) (interface : Option Interface)
    (allowNull : Bool) (id id' : ℕ) : Prop :=
  if allowNull = true ∧ id = 0 then id' = 0
  else (t.image d).get id = some id' ∧ t.Nameable d interface id

/-- An argument and its translation, between the tables before and after the message. -/
def ArgTranslated {d : Direction} (t t' : ShadowTable) :
    (a : ArgType d) → a.Value → a.Value → Prop
  | .object interface allowNull, id, id' => ObjectTranslated d t interface allowNull id id'
  | .newId _, id, id' => NewPartner d t t' id id'
  | .newIdAny, (name, version, id), (name', version', id') =>
    name' = name ∧ version' = version ∧ NewPartner d t t' id id'
  | .int, v, v' => v' = v
  | .uint, v, v' => v' = v
  | .fixed, v, v' => v' = v
  | .string _, v, v' => v' = v
  | .array, v, v' => v' = v
  | .fd, v, v' => v' = v

/-- The packet is the message for the receiver: framed under the image of a live sender, it
decodes under the same schema, to the end, to the translation of every argument. -/
structure Translated (o : ByteOrder) {d : Direction} (messages : List (MessageSchema d))
    (t t' : ShadowTable) (msg : WireMessage) (packet : Packet) : Prop where
  sender : t.Nameable d none msg.senderId
  decodes : ∃ (s : MessageSchema d) (vs ws : ArgValues s.args) (rest : Cursor) (senderId : ℕ),
    (t.image d).get msg.senderId = some senderId ∧
    frame o packet.1 = .message { senderId, len := packet.1.length, opcode := msg.opcode } ∧
    fromWire o messages msg = .ok (⟨s, vs⟩, rest) ∧
    fromWire o messages ⟨senderId, msg.opcode, packet.1.drop 8, packet.2⟩ =
      .ok (⟨s, ws⟩, ⟨[], []⟩) ∧
    Related (ArgTranslated t t') s.args vs ws

/-- The IDs an argument introduces. -/
def ArgType.newIds {d : Direction} : (a : ArgType d) → a.Value → List ℕ
  | .newId _, id => [id]
  | .newIdAny, (_, _, id) => [id]
  | _, _ => []

/-- The IDs a message introduces, in order. -/
def newIds {d : Direction} : (args : List (ArgType d)) → ArgValues args → List ℕ
  | [], _ => []
  | a :: args, (v, vs) => a.newIds v ++ newIds args vs

theorem newIds_cons {d : Direction} (a : ArgType d) (args : List (ArgType d))
    (vs : ArgValues (a :: args)) :
    newIds (a :: args) vs = a.newIds vs.1 ++ newIds args vs.2 := rfl

/-- An interface-less object argument of an event names no object pending destruction. -/
def UntypedObjectLive (d : Direction) (t : ShadowTable) (interface : Option Interface)
    (allowNull : Bool) (id : ℕ) : Prop :=
  d = .hostToClient → interface = none → (allowNull = true ∧ id = 0) ∨ ¬ t.Doomed d id

def ArgUntypedLive {d : Direction} (t : ShadowTable) : (a : ArgType d) → a.Value → Prop
  | .object interface allowNull, id => UntypedObjectLive d t interface allowNull id
  | _, _ => True

/-! ## Mapping one new ID -/

/-- What the mapping of the new ID `id` to `id'` does to the table. A pair `id` was in
before is undone. -/
structure NewlyMapped (d : Direction) (t t' : ShadowTable) (id id' : ℕ) : Prop where
  free : t.IsFree d id'
  pair : t'.IsPair d id id'
  image_other : ∀ x, x ≠ id → (t'.image d).get x = (t.image d).get x
  back_other : ∀ y, y ≠ id' → (t'.image d.reverse).get y = (t.image d.reverse).get y ∨
    (t'.image d.reverse).get y = none ∧ t.IsPair d id y
  isFree : (t.image d).get id = none → ∀ y, t'.IsFree d y → t.IsFree d y
  next_lt : t.nextHostId < 2 ^ 32 → t'.nextHostId < 2 ^ 32
  lt : t.nextHostId < 2 ^ 32 → id' < 2 ^ 32

namespace ShadowTable
variable {t t' : ShadowTable} {g h x y : ℕ} {d : Direction}

theorem IsPair.symm (hp : t.IsPair d x y) : t.IsPair d.reverse y x := by
  cases d <;> exact ⟨hp.2, hp.1⟩

theorem IsFree.back (hf : t.IsFree d y) : (t.image d.reverse).get y = none := by
  cases d with
  | clientToHost => exact (hostIdFree_iff.mp hf.2).1
  | hostToClient => exact hf.2.1

theorem Available.image_eq_none (ha : t.Available d x) : (t.image d).get x = none := by
  cases d with
  | clientToHost =>
    simp only [Available, isGuestIdAvailable, Bool.and_eq_true, Option.isNone_iff_eq_none] at ha
    exact ha.1.2
  | hostToClient =>
    simp only [Available, isHostIdAvailable, Bool.and_eq_true] at ha
    exact (hostIdFree_iff.mp ha.2).1

/-- Pairing a free host ID undoes at most the pair of the guest ID. -/
theorem mapId_of_free_host (hh : t.hostToGuest.get h = none) :
    (∀ x, (t.mapId g h).guestToHost.get x = if x = g then some h else t.guestToHost.get x) ∧
    ∀ y, (t.mapId g h).hostToGuest.get y = if y = h then some g
      else if t.guestToHost.get g = some y ∧ t.hostToGuest.get y = some g then none
      else t.hostToGuest.get y := by
  unfold mapId
  cases hg : t.guestToHost.get g with
  | none => simp [hh]
  | some old =>
    dsimp only
    split_ifs with hold
    · have hfree : (t.hostToGuest.erase old).get h = none := by simp [hh]
      simp only [hfree]
      refine ⟨Table.get_set _ _ _, fun y => ?_⟩
      rw [Table.get_set, Table.get_erase]
      split_ifs <;> grind
    · simp only [hh]
      refine ⟨Table.get_set _ _ _, fun y => ?_⟩
      rw [Table.get_set]
      split_ifs <;> grind

/-- Pairing a free guest ID undoes at most the pair of the host ID. -/
theorem mapId_of_free_guest (hg : t.guestToHost.get g = none) :
    (∀ x, (t.mapId g h).guestToHost.get x = if x = g then some h
      else if t.hostToGuest.get h = some x ∧ t.guestToHost.get x = some h then none
      else t.guestToHost.get x) ∧
    ∀ y, (t.mapId g h).hostToGuest.get y = if y = h then some g else t.hostToGuest.get y := by
  unfold mapId
  cases hh : t.hostToGuest.get h with
  | none => simp [hg, hh]
  | some old =>
    simp only [hg, hh]
    split_ifs with hold
    · obtain ⟨hne, hback⟩ := hold
      rw [Table.get_set, if_neg hne] at hback
      refine ⟨fun x => ?_, Table.get_set _ _ _⟩
      rw [Table.get_erase, Table.get_set]
      split_ifs <;> grind
    · rw [Table.get_set] at hold
      refine ⟨fun x => ?_, Table.get_set _ _ _⟩
      rw [Table.get_set]
      split_ifs <;> grind

@[simp] theorem registerObject_nextHostId (t : ShadowTable) (g h : ℕ) (i : Interface)
    (v hv : ℕ) : (t.registerObject g h i v hv).nextHostId = t.nextHostId := by
  change (t.mapId g h).nextHostId = t.nextHostId
  unfold mapId
  grind

theorem allocateHostIdLoop_lt {fuel : ℕ} (hi : allocateHostIdLoop fuel t = some (h, t'))
    (hlt : t.nextHostId < 2 ^ 32) : h < 2 ^ 32 ∧ t'.nextHostId < 2 ^ 32 := by
  induction fuel generalizing t with
  | zero => simp [allocateHostIdLoop] at hi
  | succ fuel ih =>
    have hnext : max ((t.nextHostId + 1) % 2 ^ 32) 2 < 2 ^ 32 := by omega
    unfold allocateHostIdLoop at hi
    dsimp only at hi
    split_ifs at hi
    · obtain ⟨rfl, rfl⟩ := Prod.mk.inj (Option.some.inj hi)
      exact ⟨hlt, hnext⟩
    · exact ih hi hnext

theorem allocateGuestServerIdLoop_lt {fuel : ℕ}
    (hi : allocateGuestServerIdLoop fuel t = some (g, t')) : g < 2 ^ 32 := by
  induction fuel generalizing t with
  | zero => simp [allocateGuestServerIdLoop] at hi
  | succ fuel ih =>
    unfold allocateGuestServerIdLoop at hi
    dsimp only at hi
    split_ifs at hi
    · obtain ⟨rfl, -⟩ := Prod.mk.inj (Option.some.inj hi)
      exact t.nextGuestServerId.2.2
    · exact ih hi

end ShadowTable

theorem newHostObject_eq_ok {t t' : ShadowTable} {id id' : ℕ} {i : Interface} {v hv : ℕ}
    (h : newHostObject id i v hv t = .ok (id', t')) :
    ∃ t₁, t.allocateHostId = some (id', t₁) ∧ t' = t₁.registerObject id id' i v hv := by
  unfold newHostObject at h
  split at h
  · next hostId t₁ hallocate =>
    cases h
    exact ⟨t₁, hallocate, rfl⟩
  · cases h

theorem newGuestObject_eq_ok {t t' : ShadowTable} {id id' : ℕ} {i : Interface} {v : ℕ}
    (h : newGuestObject id i v t = .ok (id', t')) :
    ∃ t₁, t.allocateGuestServerId = some (id', t₁) ∧ t' = t₁.registerObject id' id i v v := by
  unfold newGuestObject at h
  split at h
  · next guestId t₁ hallocate =>
    cases h
    exact ⟨t₁, hallocate, rfl⟩
  · cases h

theorem newlyMapped_newHostObject {t t' : ShadowTable} {id id' : ℕ} {i : Interface} {v hv : ℕ}
    (h : newHostObject id i v hv t = .ok (id', t')) : NewlyMapped .clientToHost t t' id id' := by
  obtain ⟨t₁, hallocate, rfl⟩ := newHostObject_eq_ok h
  have hlt := ShadowTable.allocateHostIdLoop_lt hallocate
  obtain ⟨hfree, hle, n, rfl⟩ := ShadowTable.allocateHostId_eq_some hallocate
  have hnone : t.hostToGuest.get id' = none := (ShadowTable.hostIdFree_iff.mp hfree).1
  obtain ⟨hguest, hhost⟩ :=
    ShadowTable.mapId_of_free_host (t := { t with nextHostId := n }) (g := id) hnone
  constructor
  · exact ⟨hle, hfree⟩
  · exact ⟨(hguest id).trans (if_pos rfl), (hhost id').trans (if_pos rfl)⟩
  · intro x hx
    exact (hguest x).trans (if_neg hx)
  · intro y hy
    have hy' := (hhost y).trans (if_neg hy)
    split_ifs at hy' with hpair
    · exact .inr ⟨hy', hpair⟩
    · exact .inl hy'
  · intro hunused y hy
    rw [ShadowTable.registerObject_fresh (t := { t with nextHostId := n }) hunused hnone] at hy
    simp only [ShadowTable.IsFree, ShadowTable.hostIdFree_iff, Table.get_set] at hy ⊢
    split_ifs at hy with heq
    · exact absurd hy.2.1 (by simp)
    · exact hy
  · intro hnext
    rw [ShadowTable.registerObject_nextHostId]
    exact (hlt hnext).2
  · exact fun hnext => (hlt hnext).1

theorem newlyMapped_newGuestObject {t t' : ShadowTable} {id id' : ℕ} {i : Interface} {v : ℕ}
    (h : newGuestObject id i v t = .ok (id', t')) : NewlyMapped .hostToClient t t' id id' := by
  obtain ⟨t₁, hallocate, rfl⟩ := newGuestObject_eq_ok h
  have hlt := ShadowTable.allocateGuestServerIdLoop_lt hallocate
  obtain ⟨hle, hnone, hi, n, rfl⟩ := ShadowTable.allocateGuestServerId_eq_some hallocate
  obtain ⟨hguest, hhost⟩ :=
    ShadowTable.mapId_of_free_guest (t := { t with nextGuestServerId := n }) (h := id) hnone
  constructor
  · exact ⟨hle, hnone, hi⟩
  · exact ⟨(hhost id).trans (if_pos rfl), (hguest id').trans (if_pos rfl)⟩
  · intro x hx
    exact (hhost x).trans (if_neg hx)
  · intro y hy
    have hy' := (hguest y).trans (if_neg hy)
    split_ifs at hy' with hpair
    · exact .inr ⟨hy', hpair⟩
    · exact .inl hy'
  · intro hunused y hy
    rw [ShadowTable.registerObject_fresh (t := { t with nextGuestServerId := n }) hnone
      hunused] at hy
    simp only [ShadowTable.IsFree, Table.get_set] at hy ⊢
    split_ifs at hy with heq
    · exact absurd hy.2.1 (by simp)
    · exact hy
  · rw [ShadowTable.registerObject_nextHostId]
    exact fun hnext => hnext
  · exact fun _ => hlt

end Sommelier
