import Sommelier.Generated.Schema

/-!
# Generated protocol modules

How the proxy reaches the generated code: the interface of the sender selects a protocol
module, which decodes the message and hands the decoded arguments to a handler. A message
takes as many descriptors off the queue as its schema has descriptor arguments, and its
dispatch does not depend on the descriptors behind them.

## Main definitions

* `InterfaceSchema`, `Protocol`: the generated modules.
* `SommelierHandler`: the handlers with the state they share.
* `SommelierHandler.handlers`: what a batch of the proxy asks of them.
* `SommelierHandler.fdCount`: the descriptors of a message.
-/
namespace Sommelier

/-- The messages of an interface. -/
structure InterfaceSchema where
  requests : List (MessageSchema .clientToHost)
  events : List (MessageSchema .hostToClient)

def InterfaceSchema.messages (s : InterfaceSchema) : (d : Direction) → List (MessageSchema d)
  | .clientToHost => s.requests
  | .hostToClient => s.events

def ArgType.isFd {d : Direction} : ArgType d → Bool
  | fd => true
  | _ => false

def MessageSchema.fdCount {d : Direction} (s : MessageSchema d) : ℕ := s.args.countP ArgType.isFd

/-- The protocol module of an interface. The objects of the Aura family belong to the proxy
itself, which never decodes their messages; none of these carries a descriptor. -/
structure Protocol where
  schema : InterfaceSchema
  aura : Bool
  aura_fdCount : aura = true → ∀ d, ∀ s ∈ schema.messages d, s.fdCount = 0

theorem Protocol.fdCount_of_aura (protocol : Protocol) (h : protocol.aura = true)
    (d : Direction) (opcode : ℕ) :
    ((protocol.schema.messages d)[opcode]?).elim 0 MessageSchema.fdCount = 0 := by
  cases hs : (protocol.schema.messages d)[opcode]? with
  | none => rfl
  | some s => exact protocol.aura_fdCount h d s (List.mem_of_getElem? hs)

/-- The handlers, with the context they share. The generated code gives them the decoded
arguments of a message and nothing else of it. -/
structure SommelierHandler (σ : Type) where
  shadowTable : σ → ShadowTable
  interfaceName : Interface → String
  classifyInterface : String → Option Protocol
  on : (d : Direction) → σ → String → ℕ → ℕ → Decoded d → σ × Except ProtocolError (Option Packet)
  pendingHostEventIsStale : σ → ℕ → ℕ → Option ℕ → Bool
  setLastSenderId : σ → ℕ → σ
  fatalProtocolError : σ → Bool
  takeQueue : Direction → σ → List Packet × σ
  reapClipboardPumps : σ → σ
  clearFeedbackRefreshPending : σ → σ
  shadowTable_setLastSenderId : ∀ ctx id, shadowTable (setLastSenderId ctx id) = shadowTable ctx

namespace SommelierHandler
variable {σ : Type} (H : SommelierHandler σ) (o : ByteOrder)

/-- Decode a message and handle it. The offsets of a message that does not decode are not
looked at, it ends the session. -/
def decodeAndHandle (d : Direction) (protocol : Protocol) (ctx : σ) (interface : String)
    (msg : WireMessage) : Dispatched σ :=
  match fromWire o (protocol.schema.messages d) msg with
  | .error e => { ctx, offset := 0, fdOffset := 0, result := .error e }
  | .ok (decoded, rest) =>
    let (ctx, result) := H.on d ctx interface msg.senderId msg.opcode decoded
    { ctx, offset := msg.payload.length - rest.payload.length
      fdOffset := msg.fds.length - rest.fds.length, result }

/-- A message nothing of which is read. -/
def unread (ctx : σ) : Dispatched σ := { ctx, offset := 0, fdOffset := 0, result := .ok none }

def dispatchRequest (ctx : σ) (interface : String) (msg : WireMessage) : Dispatched σ :=
  match H.classifyInterface interface with
  | none => unread ctx
  | some protocol =>
    if protocol.aura then unread ctx
    else H.decodeAndHandle o .clientToHost protocol ctx interface msg

def dispatchEvent (ctx : σ) (interface : String) (msg : WireMessage) : Dispatched σ :=
  match H.classifyInterface interface with
  | none => unread ctx
  | some protocol =>
    if protocol.aura then { unread ctx with offset := msg.payload.length }
    else if !(H.shadowTable ctx).isEventSenderKnown msg.senderId then unread ctx
    else H.decodeAndHandle o .hostToClient protocol ctx interface msg

def consumeEvent (interface : String) (msg : WireMessage) : Consumed :=
  match H.classifyInterface interface with
  | none => { offset := 0, fdOffset := 0, result := .error (.invalidObjectId msg.senderId) }
  | some protocol =>
    match fromWire o protocol.schema.events msg with
    | .error e => { offset := 0, fdOffset := 0, result := .error e }
    | .ok (_, rest) =>
      { offset := msg.payload.length - rest.payload.length
        fdOffset := msg.fds.length - rest.fds.length, result := .ok () }

/-- What a batch asks of the context. -/
def handlers : Handlers σ where
  getGuestId ctx := (H.shadowTable ctx).getGuestId
  getHostId ctx := (H.shadowTable ctx).getHostId
  getInterface ctx id := ((H.shadowTable ctx).getInterface id).map H.interfaceName
  getHostInterface ctx id := ((H.shadowTable ctx).getHostInterface id).map H.interfaceName
  pendingHostEventIsStale := H.pendingHostEventIsStale
  dispatchRequest := H.dispatchRequest o
  dispatchEvent := H.dispatchEvent o
  consumeEvent := H.consumeEvent o
  setLastSenderId := H.setLastSenderId
  fatalProtocolError := H.fatalProtocolError
  takeQueue := H.takeQueue
  reapClipboardPumps := H.reapClipboardPumps
  clearFeedbackRefreshPending := H.clearFeedbackRefreshPending

/-- The descriptors of a message: one for each descriptor argument of its schema. -/
def fdCount (d : Direction) (interface : String) (opcode : ℕ) : ℕ :=
  match H.classifyInterface interface with
  | none => 0
  | some protocol => ((protocol.schema.messages d)[opcode]?).elim 0 MessageSchema.fdCount

end SommelierHandler

/-! ## A message reads its own descriptors -/

section
variable {o : ByteOrder} {d : Direction}

theorem ArgType.ignoresFds_read {a : ArgType d} (ha : a.isFd = false) :
    Cursor.IgnoresFds (a.read o) := by
  cases a with
  | int => exact Cursor.ignoresFds_readI32 o
  | uint => exact Cursor.ignoresFds_readU32 o
  | fixed => exact Cursor.ignoresFds_readI32 o
  | string allowNull =>
    cases allowNull with
    | false => exact Cursor.ignoresFds_readString o
    | true => exact Cursor.ignoresFds_readStringValue o true
  | array => exact Cursor.ignoresFds_readArray o
  | fd => cases ha
  | object interface allowNull => exact Cursor.ignoresFds_readU32 o
  | newId interface => exact Cursor.ignoresFds_readU32 o
  | newIdAny =>
    refine Cursor.IgnoresFds.bind (Cursor.ignoresFds_readString o) fun name => ?_
    refine Cursor.IgnoresFds.bind (Cursor.ignoresFds_readU32 o) fun version => ?_
    exact Cursor.IgnoresFds.bind (Cursor.ignoresFds_readU32 o) fun id => Cursor.ignoresFds_ok _

/-- An argument takes a descriptor if it is one, and leaves the ones behind it alone. -/
theorem ArgType.read_append_fds (a : ArgType d) {own : List RawFd}
    (h : a.isFd = true → own ≠ []) (p : List UInt8) (rest : List RawFd) :
    a.read o ⟨p, own ++ rest⟩ =
      (a.read o ⟨p, own⟩).map fun (v, c) => (v, ⟨c.payload, c.fds ++ rest⟩) := by
  by_cases ha : a.isFd = true
  · cases a with
    | fd =>
      cases own with
      | nil => exact absurd rfl (h ha)
      | cons fd own => rfl
    | int | uint | fixed | string | array | object | newId | newIdAny => cases ha
  · have hread := ArgType.ignoresFds_read (o := o) (Bool.eq_false_iff.mpr ha) p
    rw [hread (own ++ rest) [], hread own []]
    cases a.read o ⟨p, []⟩ <;> rfl

theorem ArgType.length_fds_of_read {a : ArgType d} {own : List RawFd} {p : List UInt8}
    {v : a.Value} {c : Cursor} (h : a.read o ⟨p, own⟩ = .ok (v, c)) :
    c.fds.length + (if a.isFd then 1 else 0) = own.length := by
  by_cases ha : a.isFd = true
  · cases a with
    | fd =>
      cases own with
      | nil => cases h
      | cons fd own =>
        cases h
        rfl
    | int | uint | fixed | string | array | object | newId | newIdAny => cases ha
  · rw [ArgType.ignoresFds_read (Bool.eq_false_iff.mpr ha) p own []] at h
    cases hr : a.read o ⟨p, []⟩ with
    | error e => simp [hr, Except.map] at h
    | ok r =>
      simp only [hr, Except.map, Except.ok.injEq, Prod.mk.injEq] at h
      simp [ha, ← h.2]

theorem readSeq_append_fds (args : List (ArgType d)) {own : List RawFd}
    (hown : args.countP ArgType.isFd ≤ own.length) (p : List UInt8) (rest : List RawFd) :
    (argCodec o d).readSeq args ⟨p, own ++ rest⟩ =
      ((argCodec o d).readSeq args ⟨p, own⟩).map fun (vs, c) =>
        (vs, ⟨c.payload, c.fds ++ rest⟩) := by
  induction args generalizing p own with
  | nil => rfl
  | cons a args ih =>
    rw [List.countP_cons] at hown
    have hne : a.isFd = true → own ≠ [] := fun hfd => by
      rw [if_pos hfd] at hown
      exact List.ne_nil_of_length_pos (by omega)
    have ha := ArgType.read_append_fds (o := o) a hne p rest
    rw [Codec.readSeq, Codec.readSeq]
    change ((a.read o ⟨p, own ++ rest⟩).bind _) = ((a.read o ⟨p, own⟩).bind _).map _
    rw [ha]
    cases hr : a.read o ⟨p, own⟩ with
    | error e => rfl
    | ok r =>
      obtain ⟨v, c⟩ := r
      have hlen := ArgType.length_fds_of_read hr
      have hrest := @ih c.fds (by omega) c.payload
      simp only [Except.map, Except.bind]
      rw [hrest]
      cases (argCodec o d).readSeq args c <;> rfl

theorem length_fds_of_readSeq {args : List (ArgType d)} {own : List RawFd} {p : List UInt8}
    {vs : ArgValues args} {c : Cursor} (h : (argCodec o d).readSeq args ⟨p, own⟩ = .ok (vs, c)) :
    c.fds.length + args.countP ArgType.isFd = own.length := by
  induction args generalizing p own with
  | nil =>
    cases h
    rfl
  | cons a args ih =>
    obtain ⟨v, vs⟩ := vs
    obtain ⟨c₁, ha, hrest⟩ := Codec.readSeq_cons_eq_ok.mp h
    have hlen := ArgType.length_fds_of_read ha
    have hlen' := ih hrest
    rw [List.countP_cons]
    omega

/-- Decoding takes the descriptors of the message and is blind to the ones behind them. -/
theorem fromWire_append_fds (messages : List (MessageSchema d)) (msg : WireMessage)
    {own : List RawFd}
    (hown : (messages[msg.opcode]?).elim 0 MessageSchema.fdCount ≤ own.length)
    (rest : List RawFd) :
    fromWire o messages { msg with fds := own ++ rest } =
      (fromWire o messages { msg with fds := own }).map fun (decoded, c) =>
        (decoded, ⟨c.payload, c.fds ++ rest⟩) := by
  unfold fromWire
  cases hs : messages[msg.opcode]? with
  | none => rfl
  | some s =>
    rw [hs] at hown
    have hread := readSeq_append_fds (o := o) s.args hown msg.payload rest
    change ((argCodec o d).readSeq s.args ⟨msg.payload, own ++ rest⟩).map _ =
      (((argCodec o d).readSeq s.args ⟨msg.payload, own⟩).map _).map _
    rw [hread]
    cases (argCodec o d).readSeq s.args ⟨msg.payload, own⟩ <;> rfl

theorem length_fds_of_fromWire {messages : List (MessageSchema d)} {msg : WireMessage}
    {decoded : Decoded d} {c : Cursor} (h : fromWire o messages msg = .ok (decoded, c)) :
    c.fds.length + (messages[msg.opcode]?).elim 0 MessageSchema.fdCount = msg.fds.length := by
  unfold fromWire at h
  cases hs : messages[msg.opcode]? with
  | none => simp [hs] at h
  | some s =>
    simp only [hs] at h
    cases hr : (argCodec o d).seq.read s.args msg.cursor with
    | error e => simp [hr, Except.map] at h
    | ok r =>
      obtain ⟨vs, c'⟩ := r
      simp only [hr, Except.map, Except.ok.injEq, Prod.mk.injEq] at h
      obtain ⟨-, rfl⟩ := h
      exact length_fds_of_readSeq hr

end

namespace SommelierHandler
variable {σ : Type} {H : SommelierHandler σ} {o : ByteOrder} {d : Direction} {ctx : σ}
  {interface : String} {msg : WireMessage} {own : List RawFd}

theorem decodeAndHandle_append_fds {protocol : Protocol}
    (hown : own.length = ((protocol.schema.messages d)[msg.opcode]?).elim 0 MessageSchema.fdCount)
    (rest : List RawFd) :
    H.decodeAndHandle o d protocol ctx interface { msg with fds := own ++ rest } =
      H.decodeAndHandle o d protocol ctx interface { msg with fds := own } ∧
    ∀ out, (H.decodeAndHandle o d protocol ctx interface { msg with fds := own }).result = .ok out →
      (H.decodeAndHandle o d protocol ctx interface { msg with fds := own }).fdOffset =
        own.length := by
  have happend := fromWire_append_fds (o := o) (protocol.schema.messages d) msg
    (Nat.le_of_eq hown.symm) rest
  unfold decodeAndHandle
  rw [happend]
  cases hwire : fromWire o (protocol.schema.messages d) { msg with fds := own } with
  | error e => exact ⟨rfl, fun out h => by simp at h⟩
  | ok r =>
    obtain ⟨decoded, c⟩ := r
    have hlen : c.fds.length + _ = own.length := length_fds_of_fromWire hwire
    have hnil : c.fds.length = 0 := by
      rw [← hown] at hlen
      omega
    simp only [Except.map, List.length_append, hnil]
    refine ⟨?_, fun _ _ => Nat.sub_zero _⟩
    congr 1
    omega

theorem consumeEvent_append_fds
    (hown : own.length = H.fdCount .hostToClient interface msg.opcode) (rest : List RawFd) :
    H.consumeEvent o interface { msg with fds := own ++ rest } =
      H.consumeEvent o interface { msg with fds := own } ∧
    ∀ out, (H.consumeEvent o interface { msg with fds := own }).result = .ok out →
      (H.consumeEvent o interface { msg with fds := own }).fdOffset = own.length := by
  unfold consumeEvent
  unfold fdCount at hown
  cases hprotocol : H.classifyInterface interface with
  | none => exact ⟨rfl, fun out h => by simp at h⟩
  | some protocol =>
    rw [hprotocol] at hown
    have happend := fromWire_append_fds (o := o) protocol.schema.events msg
      (Nat.le_of_eq hown.symm) rest
    simp only
    rw [happend]
    cases hwire : fromWire o protocol.schema.events { msg with fds := own } with
    | error e => exact ⟨rfl, fun out h => by simp at h⟩
    | ok r =>
      obtain ⟨decoded, c⟩ := r
      have hlen : c.fds.length + _ = own.length := length_fds_of_fromWire hwire
      have hnil : c.fds.length = 0 := by
        change own.length = _ at hown
        simp only [InterfaceSchema.messages] at hown
        rw [← hown] at hlen
        omega
      simp only [Except.map, List.length_append, hnil]
      refine ⟨?_, fun _ _ => Nat.sub_zero _⟩
      congr 1
      omega

theorem dispatchRequest_append_fds (ctx : σ)
    (hown : own.length = H.fdCount .clientToHost interface msg.opcode) (rest : List RawFd) :
    H.dispatchRequest o ctx interface { msg with fds := own ++ rest } =
      H.dispatchRequest o ctx interface { msg with fds := own } ∧
    ∀ out, (H.dispatchRequest o ctx interface { msg with fds := own }).result = .ok out →
      (H.dispatchRequest o ctx interface { msg with fds := own }).fdOffset = own.length := by
  unfold dispatchRequest
  unfold fdCount at hown
  cases hprotocol : H.classifyInterface interface with
  | none =>
    rw [hprotocol] at hown
    exact ⟨rfl, fun _ _ => hown.symm⟩
  | some protocol =>
    rw [hprotocol] at hown
    by_cases haura : protocol.aura = true
    · simp only [haura, if_true]
      exact ⟨trivial, fun _ _ => (hown.trans (protocol.fdCount_of_aura haura _ _)).symm⟩
    · simp only [haura]
      exact decodeAndHandle_append_fds hown rest

theorem dispatchEvent_append_fds
    (hknown : (H.shadowTable ctx).isEventSenderKnown msg.senderId = true)
    (hown : own.length = H.fdCount .hostToClient interface msg.opcode) (rest : List RawFd) :
    H.dispatchEvent o ctx interface { msg with fds := own ++ rest } =
      H.dispatchEvent o ctx interface { msg with fds := own } ∧
    ∀ out, (H.dispatchEvent o ctx interface { msg with fds := own }).result = .ok out →
      (H.dispatchEvent o ctx interface { msg with fds := own }).fdOffset = own.length := by
  unfold dispatchEvent
  unfold fdCount at hown
  cases hprotocol : H.classifyInterface interface with
  | none =>
    rw [hprotocol] at hown
    exact ⟨rfl, fun _ _ => hown.symm⟩
  | some protocol =>
    rw [hprotocol] at hown
    by_cases haura : protocol.aura = true
    · simp only [haura, if_true]
      exact ⟨trivial, fun _ _ => (hown.trans (protocol.fdCount_of_aura haura _ _)).symm⟩
    · simp only [haura, hknown]
      exact decodeAndHandle_append_fds hown rest

/-- A tracked message is dispatched as if only its own descriptors were queued, and takes
these off the queue when it is accepted. -/
theorem dispatchTracked_append_fds (ctx : σ) (interface : String) (msg : WireMessage)
    (stale : Bool)
    (hknown : d = .hostToClient → (H.shadowTable ctx).isEventSenderKnown msg.senderId = true)
    (hown : own.length = H.fdCount d interface msg.opcode) (rest : List RawFd) :
    dispatchTracked (H.handlers o) d ctx interface stale { msg with fds := own ++ rest } =
      dispatchTracked (H.handlers o) d ctx interface stale { msg with fds := own } ∧
    ∀ out, (dispatchTracked (H.handlers o) d ctx interface stale
        { msg with fds := own }).result = .ok out →
      (dispatchTracked (H.handlers o) d ctx interface stale { msg with fds := own }).fdOffset =
        own.length := by
  -- The test for trailing data keeps the descriptors an accepted message took.
  have htrailing : ∀ {res res' : Dispatched σ}, res' = res →
      (∀ out, res.result = .ok out → res.fdOffset = own.length) →
      (if res'.offset = msg.payload.length then res'
        else { res' with result := .error .trailingData }) =
      (if res.offset = msg.payload.length then res
        else { res with result := .error .trailingData }) ∧
      ∀ out, (if res.offset = msg.payload.length then res
        else { res with result := .error .trailingData }).result = .ok out →
        (if res.offset = msg.payload.length then res
          else { res with result := .error .trailingData }).fdOffset = own.length := by
    rintro res res' rfl hfds
    refine ⟨rfl, fun out hout => ?_⟩
    split_ifs at hout ⊢
    exact hfds out hout
  unfold dispatchTracked
  cases d with
  | clientToHost =>
    obtain ⟨heq, hfds⟩ := dispatchRequest_append_fds (H := H) (o := o)
      (H.setLastSenderId ctx msg.senderId) hown rest
    exact htrailing heq hfds
  | hostToClient =>
    cases stale with
    | true =>
      obtain ⟨heq, hfds⟩ := consumeEvent_append_fds (H := H) (o := o) hown rest
      refine htrailing ?_ fun out hout => ?_
      · simp only [if_true, handlers]
        rw [heq]
      · simp only [if_true, handlers] at hout ⊢
        cases hresult : (H.consumeEvent o interface { msg with fds := own }).result with
        | error e => simp [hresult, Except.map] at hout
        | ok out => exact hfds out hresult
    | false =>
      have hknown' : (H.shadowTable (H.setLastSenderId ctx msg.senderId)).isEventSenderKnown
          msg.senderId = true := by
        rw [H.shadowTable_setLastSenderId]
        exact hknown rfl
      obtain ⟨heq, hfds⟩ := dispatchEvent_append_fds (H := H) (o := o) hknown' hown rest
      exact htrailing heq hfds

end SommelierHandler
end Sommelier
