import Sommelier.Generated.Forwarding
import Sommelier.Generated.Sizes

/-!
# Dispatches that send nothing

A dispatch that drops or rejects a message should leave the objects of the shadow table as it
found them. The generated code checks a message before it maps the first new ID, so little can
fail after that: an object without counterpart that the checks let through, and a message that
outgrows its length field.

## Main definitions

* `Halt.table`, `ShadowTable.SameObjects`: what a dispatch leaves behind.
* `StrandsNewId`, `Strands`: the messages that leave an object the receiver never hears of.
* `dispatch_atomic_iff`: every other message is all or nothing.
-/
namespace Sommelier
variable {d : Direction} {o : ByteOrder} {t t' t₀ : ShadowTable} {senderId : ℕ}

/-- The table a dispatch without a message leaves behind, unless it panics. -/
def Halt.table : Halt → Option ShadowTable
  | dropped t => some t
  | rejected _ t => some t
  | exhausted => none

/-- The tables about objects agree; the allocators may differ. -/
structure ShadowTable.SameObjects (t t' : ShadowTable) : Prop where
  guestToHost : t'.guestToHost = t.guestToHost
  hostToGuest : t'.hostToGuest = t.hostToGuest
  interfaces : t'.interfaces = t.interfaces
  hostInterfaces : t'.hostInterfaces = t.hostInterfaces
  guestVersions : t'.guestVersions = t.guestVersions
  hostVersions : t'.hostVersions = t.hostVersions
  pendingDestroyGuestIds : t'.pendingDestroyGuestIds = t.pendingDestroyGuestIds
  pendingDestroyHostIds : t'.pendingDestroyHostIds = t.pendingDestroyHostIds

theorem ShadowTable.SameObjects.refl (t : ShadowTable) : t.SameObjects t :=
  ⟨rfl, rfl, rfl, rfl, rfl, rfl, rfl, rfl⟩

theorem ShadowTable.SameObjects.image (hs : t.SameObjects t') (d : Direction) :
    t'.image d = t.image d := by
  cases d with
  | clientToHost => exact hs.guestToHost
  | hostToClient => exact hs.hostToGuest

/-! ## Mapping that fails -/

namespace ArgType

/-- An object argument without a counterpart. -/
def Unmapped (t : ShadowTable) : (a : ArgType d) → a.Value → Prop
  | .object _ allowNull, id => ¬ (allowNull = true ∧ id = (0 : ℕ)) ∧ (t.image d).get id = none
  | _, _ => False

end ArgType

/-- The object arguments all have counterparts. -/
def AllMapped (t : ShadowTable) (args : List (ArgType d)) (vs : ArgValues args) : Prop :=
  EachValue (fun a v => ¬ a.Unmapped t v) args vs

/-- The first object argument without a counterpart comes after a new ID. -/
def StrandsNewId (t : ShadowTable) : (args : List (ArgType d)) → ArgValues args → Prop
  | [], _ => False
  | a :: args, (v, vs) => ¬ a.Unmapped t v ∧
      if a.newIds v = [] then StrandsNewId t args vs else ¬ AllMapped t args vs

theorem not_allMapped_of_strandsNewId {args : List (ArgType d)} {vs : ArgValues args}
    (hs : StrandsNewId t args vs) : ¬ AllMapped t args vs := by
  induction args with
  | nil => exact hs.elim
  | cons a args ih =>
    obtain ⟨v, vs⟩ := vs
    obtain ⟨-, hs⟩ := hs
    intro hall
    split_ifs at hs
    · exact ih hs hall.2
    · exact hs hall.2

/-- Whether an argument has a counterpart does not depend on the new IDs before it. -/
theorem unmapped_congr {a : ArgType d} {v : a.Value} (hagree : ImagesAgree d t₀ t)
    (hok : ArgAccepted t₀ a v) : a.Unmapped t v ↔ a.Unmapped t₀ v := by
  cases a with
  | object interface allowNull =>
    have hid : (allowNull = true ∧ v = (0 : ℕ)) ∨ ObjectAccepted d t₀ interface v := hok
    simp only [ArgType.Unmapped]
    rcases hid with hnull | haccepted
    · exact iff_of_false (fun h => h.1 hnull) fun h => h.1 hnull
    · rw [hagree v haccepted.inUse]
  | int | uint | fixed | string | array | fd | newId | newIdAny => rfl

theorem mapObject_error {allowNull : Bool} {id : ℕ} {halt : Halt}
    (h : mapObject d allowNull id t = .error halt) : halt = .dropped t ∧
      ¬ (allowNull = true ∧ id = 0) ∧ (t.image d).get id = none := by
  unfold mapObject at h
  split_ifs at h with hnull
  split at h
  · cases h
  · next hid =>
    cases h
    exact ⟨rfl, by simpa using hnull, hid⟩

theorem mapped_of_mapObject {allowNull : Bool} {id id' : ℕ}
    (h : mapObject d allowNull id t = .ok (id', t')) :
    ¬ (¬ (allowNull = true ∧ id = 0) ∧ (t.image d).get id = none) := by
  obtain ⟨-, hmap⟩ := mapObject_eq_ok h
  rintro ⟨hnull, hid⟩
  simp [if_neg hnull, hid] at hmap

/-- An argument is not mapped when it has no counterpart, or when no ID is left. -/
theorem mapArg_error {a : ArgType d} {v : a.Value} {halt : Halt}
    (h : mapArg senderId a v t = .error halt) :
    halt = .exhausted ∨ halt = .dropped t ∧ a.Unmapped t v := by
  have hnew : ∀ {id i v hv}, newHostObject id i v hv t = .error halt → halt = .exhausted := by
    intro id i v hv h
    unfold newHostObject at h
    split at h <;> cases h
    rfl
  cases a with
  | object interface allowNull => exact .inr (mapObject_error h)
  | newId interface =>
    left
    cases d with
    | clientToHost => exact hnew h
    | hostToClient =>
      simp only [mapArg, mapNewIdArg, newGuestObject] at h
      split at h <;> cases h
      rfl
  | newIdAny =>
    obtain ⟨name, version, id⟩ := v
    left
    simp only [mapArg] at h
    cases hr : newHostObject id (.ofName name) version version t with
    | error e =>
      simp only [hr, Except.map, Except.error.injEq] at h
      exact hnew (h ▸ hr)
    | ok r => simp [hr, Except.map] at h
  | int | uint | fixed | string | array | fd => cases h

theorem not_unmapped_of_mapArg {a : ArgType d} {v w : a.Value}
    (h : mapArg senderId a v t = .ok (w, t')) : ¬ a.Unmapped t v := by
  cases a with
  | object interface allowNull => exact mapped_of_mapObject h
  | int | uint | fixed | string | array | fd | newId | newIdAny => exact id

/-- The image of an argument takes as many bytes. -/
theorem size_mapArg {a : ArgType d} {v w : a.Value}
    (h : mapArg senderId a v t = .ok (w, t')) : a.size w = a.size v := by
  cases a with
  | newIdAny =>
    obtain ⟨name, version, id⟩ := v
    simp only [mapArg] at h
    cases hr : newHostObject id (.ofName name) version version t with
    | error e => simp [hr, Except.map] at h
    | ok r =>
      simp only [hr, Except.map, Except.ok.injEq] at h
      cases h
      rfl
  | object | newId => simp [ArgType.size]
  | int | uint | fixed | string | array | fd =>
    cases h
    rfl

section
variable {args : List (ArgType d)} {vs : ArgValues args}

theorem strandsNewId_cons {a : ArgType d} {v : a.Value} (hmapped : ¬ a.Unmapped t v) :
    StrandsNewId t (a :: args) (v, vs) ↔
      if a.newIds v = [] then StrandsNewId t args vs else ¬ AllMapped t args vs :=
  and_iff_right hmapped

/-- How the mapping of a checked argument list ends, in terms of the table `t₀` of the checks:
the images that were there stay, and new IDs get images. -/
inductive MapOutcome (t₀ t : ShadowTable) (args : List (ArgType d)) (vs : ArgValues args) :
    Except Halt (ArgValues args × ShadowTable) → Prop
  | mapped {ws : ArgValues args} {t' : ShadowTable} (hall : AllMapped t₀ args vs)
      (hsize : argsSize args ws = argsSize args vs) (hsame : newIds args vs = [] → t' = t)
      (hnew : ∀ x, x ∈ newIds args vs ∨ (t.image d).get x ≠ none → (t'.image d).get x ≠ none) :
      MapOutcome t₀ t args vs (.ok (ws, t'))
  | dropped {t' : ShadowTable} (hall : ¬ AllMapped t₀ args vs)
      (hsame : ¬ StrandsNewId t₀ args vs → t' = t)
      (hnew : StrandsNewId t₀ args vs → ∃ x ∈ newIds args vs, (t'.image d).get x ≠ none)
      (hkeep : ∀ x, (t.image d).get x ≠ none → (t'.image d).get x ≠ none) :
      MapOutcome t₀ t args vs (.error (.dropped t'))
  | exhausted : MapOutcome t₀ t args vs (.error .exhausted)

theorem mapOutcome (hagree : ImagesAgree d t₀ t) (hok : EachValue (ArgAccepted t₀) args vs) :
    MapOutcome t₀ t args vs (mapSeq (mapArg senderId) args vs t) := by
  induction args generalizing t with
  | nil => exact .mapped trivial rfl (fun _ => rfl) (by simp [newIds])
  | cons a args ih =>
    obtain ⟨v, vs⟩ := vs
    have hcongr := unmapped_congr (v := v) hagree hok.1
    rw [mapSeq]
    cases ha : mapArg senderId a v t with
    | error halt =>
      rcases mapArg_error ha with rfl | ⟨rfl, hunmapped⟩
      · exact .exhausted
      · rw [hcongr] at hunmapped
        exact .dropped (fun h => h.1 hunmapped) (fun _ => rfl) (fun h => absurd hunmapped h.1)
          fun _ => id
    | ok r =>
      obtain ⟨w, t₁⟩ := r
      have hmapped := mt hcongr.mpr (not_unmapped_of_mapArg ha)
      have hsize := size_mapArg ha
      have hnewIds : newIds (a :: args) (v, vs) = a.newIds v ++ newIds args vs := rfl
      rcases mapArg_cases ha with ⟨hids, rfl, -⟩ | ⟨id, id', hids, hm, havail, -⟩
      · have hrest := ih hagree hok.2
        have hstrands : StrandsNewId t₀ (a :: args) (v, vs) ↔ _ := strandsNewId_cons hmapped
        rw [if_pos hids] at hstrands
        rw [hids, List.nil_append] at hnewIds
        simp only [Except.bind]
        generalize mapSeq (mapArg senderId) args vs t₁ = result at hrest
        cases hrest with
        | mapped hall hsize' hsame hnew =>
          refine .mapped ⟨hmapped, hall⟩ ?_ ?_ ?_
          · simp only [argsSize, hsize, hsize']
          · rwa [hnewIds]
          · rwa [hnewIds]
        | dropped hall hsame hnew hkeep =>
          refine .dropped (fun h => hall h.2) (fun h => hsame (mt hstrands.mpr h)) ?_ hkeep
          rwa [hnewIds, hstrands]
        | exhausted => exact .exhausted
      · have hrest := ih (hm.imagesAgree (havail t₀ hok.1) hagree) hok.2
        have hstrands : StrandsNewId t₀ (a :: args) (v, vs) ↔ _ := strandsNewId_cons hmapped
        rw [if_neg (by simp [hids])] at hstrands
        rw [hids, List.singleton_append] at hnewIds
        have hid : (t₁.image d).get id ≠ none := by simp [hm.pair.1]
        have hkept : ∀ x, (t.image d).get x ≠ none → (t₁.image d).get x ≠ none := by
          intro x hx
          by_cases heq : x = id
          · exact heq ▸ hid
          · rwa [hm.image_other x heq]
        simp only [Except.bind]
        generalize mapSeq (mapArg senderId) args vs t₁ = result at hrest
        cases hrest with
        | mapped hall hsize' hsame hnew =>
          refine .mapped ⟨hmapped, hall⟩ ?_ (by simp [hnewIds]) ?_
          · simp only [argsSize, hsize, hsize']
          · rw [hnewIds]
            simp only [List.mem_cons]
            rintro x ((rfl | hx) | hx)
            · exact hnew x (.inr hid)
            · exact hnew x (.inl hx)
            · exact hnew x (.inr (hkept x hx))
        | dropped hall hsame hnew hkeep =>
          refine .dropped (fun h => hall h.2) (fun h => absurd (hstrands.mpr hall) h)
            (fun _ => ⟨id, ?_, hkeep id hid⟩) fun x hx => hkeep x (hkept x hx)
          simp [hnewIds]
        | exhausted => exact .exhausted

end

/-! ## Dispatch -/

/-- The generated function of a direction. -/
def dispatch (o : ByteOrder) : (d : Direction) → List (MessageSchema d) → ShadowTable →
    WireMessage → Except Halt (Packet × ShadowTable)
  | .clientToHost => dispatchRequest o
  | .hostToClient => dispatchEvent o

/-- A decoded message passes the version check and the validations of its arguments. -/
def ShadowTable.Accepts (t : ShadowTable) : (d : Direction) → ℕ → (s : MessageSchema d) →
    ArgValues s.args → Prop
  | .clientToHost, senderId, s, vs => t.isPendingDestroyGuest senderId = false ∧
      checkSince t s.since (t.guestObjectVersion senderId) senderId = .ok () ∧
      EachValue (fun a v => validateRequestArg t a v = .ok ()) s.args vs
  | .hostToClient, senderId, s, vs =>
      checkSince t s.since (t.hostObjectVersion senderId) senderId = .ok () ∧
      EachValue (fun a v => validateEventArg t a v = .ok ()) s.args vs

/-- A message that passes the checks and is not sent although a new ID was mapped: an object
argument behind the new ID has no counterpart, or the message has grown too long. -/
def Strands (o : ByteOrder) (messages : List (MessageSchema d)) (t : ShadowTable)
    (msg : WireMessage) : Prop :=
  ∃ s vs rest, fromWire o messages msg = .ok (⟨s, vs⟩, rest) ∧ t.Accepts d msg.senderId s vs ∧
    (StrandsNewId t s.args vs ∨ newIds s.args vs ≠ [] ∧ AllMapped t s.args vs ∧
      0xffff < argsSize s.args vs + 8)

theorem accepted_of_accepts {s : MessageSchema d} {vs : ArgValues s.args}
    (h : t.Accepts d senderId s vs) : EachValue (ArgAccepted t) s.args vs := by
  cases d with
  | clientToHost => exact h.2.2.imp fun _ _ => argAccepted_of_request
  | hostToClient => exact h.2.imp fun _ _ => argAccepted_of_event

theorem checkSince_error {since version : Option ℕ} {halt : Halt}
    (h : checkSince t since version senderId = .error halt) : halt.table = some t := by
  unfold checkSince at h
  split at h
  · cases h
  · cases h
    rfl
  · split_ifs at h
    cases h
    rfl

theorem validateRequestArg_error {a : ArgType .clientToHost} {v : a.Value} {halt : Halt}
    (h : validateRequestArg t a v = .error halt) : halt.table = some t := by
  cases a with
  | object interface allowNull =>
    simp only [validateRequestArg, checkRequestObject] at h
    split_ifs at h
    cases h
    rfl
  | newId interface =>
    simp only [validateRequestArg, checkGuestNewId] at h
    split_ifs at h
    cases h
    rfl
  | newIdAny =>
    obtain ⟨name, version, id⟩ := v
    simp only [validateRequestArg, checkGuestNewId] at h
    split_ifs at h
    cases h
    rfl
  | int | uint | fixed | string | array | fd => cases h

theorem validateEventArg_error {a : ArgType .hostToClient} {v : a.Value} {halt : Halt}
    (h : validateEventArg t a v = .error halt) : halt.table = some t := by
  cases a with
  | object interface allowNull =>
    simp only [validateEventArg, checkEventObject] at h
    split_ifs at h
    cases h
    rfl
  | newId interface =>
    simp only [validateEventArg, checkHostNewId] at h
    split_ifs at h
    cases h
    rfl
  | int | uint | fixed | string | array | fd => cases h

/-- A message of a paired sender that decodes and passes the checks is mapped and encoded. -/
theorem dispatch_of_accepts {messages : List (MessageSchema d)} {msg : WireMessage}
    {s : MessageSchema d} {vs : ArgValues s.args} {rest : Cursor} {receiverId : ℕ}
    (hsender : (t.image d).get msg.senderId = some receiverId)
    (hdecode : fromWire o messages msg = .ok (⟨s, vs⟩, rest))
    (haccepts : t.Accepts d msg.senderId s vs) : ∃ cleanup : ShadowTable → ShadowTable,
    dispatch o d messages t msg = (mapSeq (mapArg msg.senderId) s.args vs t).bind fun (ws, t) =>
      match buildMessage o s.args ws receiverId msg.opcode with
      | .error e => .error (.rejected e t)
      | .ok packet => .ok (packet, cleanup t) := by
  cases d with
  | clientToHost =>
    obtain ⟨hlive, hsince, hvalid⟩ := haccepts
    have hhost : t.getHostId msg.senderId = some receiverId := hsender
    refine ⟨requestDestructorCleanup s.destructor msg.senderId, ?_⟩
    rcases hmap : mapSeq (mapArg msg.senderId) s.args vs t with halt | ⟨ws, t'⟩
    · simp [dispatch, dispatchRequest, checkSeq_eq_ok_iff.mpr hvalid, Except.bind, *]
    · cases hbuild : buildMessage o s.args ws receiverId msg.opcode <;>
        simp [dispatch, dispatchRequest, checkSeq_eq_ok_iff.mpr hvalid, Except.bind, *]
  | hostToClient =>
    obtain ⟨hsince, hvalid⟩ := haccepts
    have hguest : t.getGuestId msg.senderId = some receiverId := hsender
    have hknown : t.isEventSenderKnown msg.senderId = true := by
      have hget : t.hostToGuest.get msg.senderId = some receiverId := hsender
      simp [ShadowTable.isEventSenderKnown, hget]
    refine ⟨eventDestructorCleanup s.destructor receiverId, ?_⟩
    rcases hmap : mapSeq (mapArg msg.senderId) s.args vs t with halt | ⟨ws, t'⟩
    · simp [dispatch, dispatchEvent, checkSeq_eq_ok_iff.mpr hvalid, Except.bind, *]
    · cases hbuild : buildMessage o s.args ws receiverId msg.opcode <;>
        simp [dispatch, dispatchEvent, checkSeq_eq_ok_iff.mpr hvalid, Except.bind, *]

/-- A message that does not decode or does not pass the checks changes nothing. -/
theorem dispatch_of_not_accepts {messages : List (MessageSchema d)} {msg : WireMessage}
    (hno : ∀ s vs rest, fromWire o messages msg = .ok (⟨s, vs⟩, rest) →
      ¬ t.Accepts d msg.senderId s vs) :
    ∃ halt, dispatch o d messages t msg = .error halt ∧ halt.table = some t := by
  cases hdecode : fromWire o messages msg with
  | error e =>
    cases d with
    | clientToHost => exact ⟨.rejected e t, by simp [dispatch, dispatchRequest, hdecode], rfl⟩
    | hostToClient =>
      simp only [dispatch, dispatchEvent, hdecode]
      split_ifs
      · exact ⟨_, rfl, rfl⟩
      · exact ⟨_, rfl, rfl⟩
  | ok r =>
    obtain ⟨⟨s, vs⟩, rest⟩ := r
    have hno' := hno s vs rest hdecode
    cases d with
    | clientToHost =>
      simp only [dispatch, dispatchRequest, hdecode]
      by_cases hdoomed : t.isPendingDestroyGuest msg.senderId = true
      · exact ⟨_, if_pos hdoomed, rfl⟩
      rw [if_neg hdoomed]
      cases hsince : checkSince t s.since (t.guestObjectVersion msg.senderId) msg.senderId with
      | error halt => exact ⟨halt, rfl, checkSince_error hsince⟩
      | ok =>
        cases hvalid : checkSeq (validateRequestArg t) s.args vs with
        | error halt =>
          obtain ⟨a, v, hv⟩ := checkSeq_eq_error hvalid
          exact ⟨halt, rfl, validateRequestArg_error hv⟩
        | ok =>
          exact absurd ⟨Bool.eq_false_iff.mpr hdoomed, hsince, checkSeq_eq_ok_iff.mp hvalid⟩ hno'
    | hostToClient =>
      simp only [dispatch, dispatchEvent, hdecode]
      split_ifs with hknown
      · exact ⟨_, rfl, rfl⟩
      cases hsince : checkSince t s.since (t.hostObjectVersion msg.senderId) msg.senderId with
      | error halt => exact ⟨halt, rfl, checkSince_error hsince⟩
      | ok =>
        cases hvalid : checkSeq (validateEventArg t) s.args vs with
        | error halt =>
          obtain ⟨a, v, hv⟩ := checkSeq_eq_error hvalid
          exact ⟨halt, rfl, validateEventArg_error hv⟩
        | ok => exact absurd ⟨hsince, checkSeq_eq_ok_iff.mp hvalid⟩ hno'

/-- A call of the generated code for a paired sender that returns without a message leaves the
objects of the table as they were, unless the message strands a new ID. -/
theorem dispatch_atomic_iff (o : ByteOrder) {d : Direction} (messages : List (MessageSchema d))
    {t : ShadowTable} {msg : WireMessage} (hsender : (t.image d).get msg.senderId ≠ none)
    (hreturns : dispatch o d messages t msg ≠ .error .exhausted) :
    (∀ halt t', dispatch o d messages t msg = .error halt → halt.table = some t' →
      t.SameObjects t') ↔ ¬ Strands o messages t msg := by
  obtain ⟨receiverId, hreceiver⟩ := Option.ne_none_iff_exists'.mp hsender
  by_cases haccepts : ∃ s vs rest, fromWire o messages msg = .ok (⟨s, vs⟩, rest) ∧
      t.Accepts d msg.senderId s vs
  swap
  · obtain ⟨halt, heq, htable⟩ := dispatch_of_not_accepts fun s vs rest hdecode ha =>
      haccepts ⟨s, vs, rest, hdecode, ha⟩
    refine iff_of_true (fun halt' t' heq' htable' => ?_) fun ⟨s, vs, rest, hdecode, ha, _⟩ =>
      haccepts ⟨s, vs, rest, hdecode, ha⟩
    obtain rfl := Except.error.inj (heq.symm.trans heq')
    obtain rfl := Option.some.inj (htable.symm.trans htable')
    exact .refl t
  obtain ⟨s, vs, rest, hdecode, haccepts⟩ := haccepts
  have hok := accepted_of_accepts haccepts
  obtain ⟨cleanup, heq⟩ := dispatch_of_accepts hreceiver hdecode haccepts
  have hstrands : Strands o messages t msg ↔ StrandsNewId t s.args vs ∨
      newIds s.args vs ≠ [] ∧ AllMapped t s.args vs ∧ 0xffff < argsSize s.args vs + 8 := by
    constructor
    · rintro ⟨s', vs', rest', hdecode', -, h⟩
      cases hdecode.symm.trans hdecode'
      exact h
    · exact fun h => ⟨s, vs, rest, hdecode, haccepts, h⟩
  -- An ID that was available before and has an image now shows that the table has changed.
  have hchanged : ∀ t', (∃ x ∈ newIds s.args vs, (t'.image d).get x ≠ none) →
      ¬ t.SameObjects t' := by
    rintro t' ⟨x, hx, himage⟩ hsame
    rw [hsame.image] at himage
    exact himage (available_of_mem_newIds hok hx).image_eq_none
  have houtcome : MapOutcome t t s.args vs (mapSeq (mapArg msg.senderId) s.args vs t) :=
    mapOutcome (fun _ _ => rfl) hok
  rw [heq] at hreturns ⊢
  rw [hstrands]
  have hleaves : ∀ {halt t'}, halt.table = some t' → ((∀ halt' t'',
      (.error halt : Except Halt (Packet × ShadowTable)) = .error halt' →
        halt'.table = some t'' → t.SameObjects t'') ↔ t.SameObjects t') := by
    intro halt t' htable
    refine ⟨fun h => h halt t' rfl htable, fun hsame halt' t'' heq' htable' => ?_⟩
    obtain rfl := Except.error.inj heq'
    obtain rfl := Option.some.inj (htable.symm.trans htable')
    exact hsame
  generalize mapSeq (mapArg msg.senderId) s.args vs t = result at houtcome hreturns
  cases houtcome with
  | @mapped ws t' hall hsize hsame hnew =>
    simp only [Except.bind]
    by_cases hlong : 0xffff < argsSize s.args vs + 8
    · have herror : ∃ e, buildMessage o s.args ws receiverId msg.opcode = .error e :=
        buildMessage_error_iff.mpr (hsize ▸ hlong)
      obtain ⟨e, he⟩ := herror
      have htable : (Halt.rejected e t').table = some t' := rfl
      simp only [he, hleaves htable]
      by_cases hids : newIds s.args vs = []
      · rw [hsame hids]
        exact iff_of_true (.refl t) fun h => h.elim
          (fun hstrands => not_allMapped_of_strandsNewId hstrands hall) fun h => h.1 hids
      · obtain ⟨x, hx⟩ := List.exists_mem_of_ne_nil _ hids
        exact iff_of_false (hchanged t' ⟨x, hx, hnew x (.inl hx)⟩) fun h =>
          h (.inr ⟨hids, hall, hlong⟩)
    · cases hbuild : buildMessage o s.args ws receiverId msg.opcode with
      | error e => exact absurd (hsize ▸ buildMessage_error_iff.mp ⟨e, hbuild⟩) hlong
      | ok packet =>
        refine iff_of_true (by simp) fun h => h.elim
          (fun hstrands => not_allMapped_of_strandsNewId hstrands hall) fun h => hlong h.2.2
  | @dropped t' hall hsame hnew hkeep =>
    have htable : (Halt.dropped t').table = some t' := rfl
    simp only [Except.bind, hleaves htable]
    by_cases hstranded : StrandsNewId t s.args vs
    · exact iff_of_false (hchanged t' (hnew hstranded)) fun h => h (.inl hstranded)
    · rw [hsame hstranded]
      exact iff_of_true (.refl t) fun h => h.elim hstranded fun h => hall h.2.1
  | exhausted => exact absurd rfl hreturns

theorem mapped_of_checkEventObject {interface : Option Interface} {allowNull : Bool} {id : ℕ}
    (h : checkEventObject t interface allowNull id = .ok ()) :
    ¬ (¬ (allowNull = true ∧ id = 0) ∧ (t.image .hostToClient).get id = none) := by
  unfold checkEventObject at h
  split_ifs at h with hc
  rintro ⟨hnull, hid⟩
  have hvalid := (null_or_valid hc).resolve_left hnull
  have hunknown : t.getGuestId id = none := hid
  cases interface <;> simp [invalidEventObject, hunknown] at hvalid

/-- The objects of an accepted event have counterparts. -/
theorem allMapped_of_event {s : MessageSchema .hostToClient} {vs : ArgValues s.args}
    (h : t.Accepts .hostToClient senderId s vs) : AllMapped t s.args vs := by
  refine h.2.imp fun a v hvalid => ?_
  cases a with
  | object interface allowNull => exact mapped_of_checkEventObject hvalid
  | int | uint | fixed | string | array | fd | newId => exact id

/-- A frame of the wire is never too long for its translation, so only a request can strand a
new ID, with an object behind it that the proxy serves alone. -/
theorem strands_iff_of_framed {messages : List (MessageSchema d)} {msg : WireMessage}
    (hframed : msg.payload.length + 8 ≤ 0xffff) : Strands o messages t msg ↔
      d = .clientToHost ∧ ∃ s vs rest, fromWire o messages msg = .ok (⟨s, vs⟩, rest) ∧
        t.Accepts d msg.senderId s vs ∧ StrandsNewId t s.args vs := by
  constructor
  · rintro ⟨s, vs, rest, hdecode, haccepts, hstrands | ⟨-, -, hlong⟩⟩
    · refine ⟨?_, s, vs, rest, hdecode, haccepts, hstrands⟩
      cases d with
      | clientToHost => rfl
      | hostToClient =>
        exact absurd (allMapped_of_event haccepts) (not_allMapped_of_strandsNewId hstrands)
    · have hle := argsSize_le_of_fromWire hdecode
      omega
  · rintro ⟨-, s, vs, rest, hdecode, haccepts, hstrands⟩
    exact ⟨s, vs, rest, hdecode, haccepts, .inl hstrands⟩

/-! ## A request that strands a new ID -/

/-- A request that creates a surface for a global of shared memory. -/
def createShmSurface : MessageSchema .clientToHost where
  since := none
  args := [.newId .wlSurface, .object (some .wlShm) false]
  destructor := false

/-- A compositor with a counterpart, and shared memory, which the proxy serves alone. -/
def localShm : ShadowTable :=
  (ShadowTable.new.registerObject 10 20 .wlCompositor 4 4).trackInterfaceWithVersion 11 .wlShm 1

def shmSurfaceRequest : WireMessage where
  senderId := 10
  opcode := 0
  payload := [50, 0, 0, 0, 11, 0, 0, 0]
  fds := []

theorem dispatch_shmSurfaceRequest : ∃ t',
    dispatch .little .clientToHost [createShmSurface] localShm shmSurfaceRequest =
      .error (.dropped t') ∧ t'.guestToHost.get 50 = some 2 :=
  ⟨_, rfl, rfl⟩

/-- The request is dropped, and the surface stays in the table. -/
theorem dispatch_not_atomic : ¬ ∀ (d : Direction) (messages : List (MessageSchema d))
    (t : ShadowTable) (msg : WireMessage), (t.image d).get msg.senderId ≠ none →
    ∀ halt t', dispatch .little d messages t msg = .error halt → halt.table = some t' →
      t.SameObjects t' := by
  intro hatomic
  obtain ⟨t', heq, hmapped⟩ := dispatch_shmSurfaceRequest
  have hsame := hatomic .clientToHost [createShmSurface] localShm shmSurfaceRequest (by decide)
    _ t' heq rfl
  rw [hsame.guestToHost] at hmapped
  exact absurd hmapped (by decide)

theorem dispatch_atomic_iff_shmSurfaceRequest :
    (∀ halt t', dispatch .little .clientToHost [createShmSurface] localShm shmSurfaceRequest =
      .error halt → halt.table = some t' → localShm.SameObjects t') ↔
      ¬ Strands .little [createShmSurface] localShm shmSurfaceRequest := by
  refine dispatch_atomic_iff .little [createShmSurface] (by decide) fun hexhausted => ?_
  obtain ⟨t', heq, -⟩ := dispatch_shmSurfaceRequest
  cases heq.symm.trans hexhausted

end Sommelier
