import Sommelier.Generated.Protocols
import Sommelier.Lib.TokenStream
import Sommelier.Proxy.Run

/-!
# Attribution of descriptors

Bytes and descriptors of a connection are two queues. A dispatched message takes the
descriptors of its schema off the front of the second, so the front of the queue belongs to
the message at the front of the first as long as every message before it took its own. A
skipped message takes none; descriptors queued at that moment can no longer be attributed,
and the next complete message ends the session.

## Main definitions

* `Delivery`, `batchDeliveries`: the messages a batch takes off its buffer.
* `channel`: one direction of a session, with everything received and delivered so far.
* `SentMessage`: a message as its sender sees it.
* `Attributed`: a delivery that got the descriptors of its message and no others.
-/
namespace Sommelier
variable {σ : Type}

/-- A complete message at the front of the buffer, with the queued descriptors. It goes to
the handlers of `interface`, or is skipped when there is none. -/
structure Delivery (σ : Type) where
  ctx : σ
  header : Header
  interface : Option String
  stale : Bool
  payload : List UInt8
  queued : List RawFd

namespace Delivery

/-- The delivered message with the descriptors `fds`. -/
def msg (e : Delivery σ) (fds : List RawFd) : WireMessage :=
  { senderId := e.header.senderId, opcode := e.header.opcode, payload := e.payload, fds }

/-- What the dispatch makes of the delivery when `fds` are queued. -/
def outcome (H : Handlers σ) (d : Direction) (e : Delivery σ) (interface : String)
    (fds : List RawFd) : Dispatched σ :=
  dispatchTracked H d e.ctx interface e.stale (e.msg fds)

/-- A skipped message with descriptors queued. -/
def Ambiguous (e : Delivery σ) : Prop := e.interface = none ∧ e.queued ≠ []

end Delivery

section
variable (H : Handlers σ) (o : ByteOrder) (d : Direction)

/-- The guest's ID of the sender of a message. -/
def senderGuestId (ctx : σ) (senderId : ℕ) : Option ℕ :=
  match d with
  | .clientToHost => some senderId
  | .hostToClient => H.getGuestId ctx senderId

/-- The delivery of the message at the front of the buffer. -/
def frontDelivery (header : Header) (b : Batch σ) : Delivery σ :=
  let guestId := senderGuestId H d b.ctx header.senderId
  { ctx := b.ctx
    header
    interface := match d with
      | .clientToHost => H.getInterface b.ctx header.senderId
      | .hostToClient =>
        (H.getHostInterface b.ctx header.senderId).or (guestId.bind (H.getInterface b.ctx))
    stale := d == .hostToClient &&
      H.pendingHostEventIsStale b.ctx header.senderId header.opcode guestId
    payload := (b.buf.take header.len).drop 8
    queued := b.fds }

/-- What is sent on for a delivery: its translation, if there is one, then the messages the
handlers queued meanwhile. -/
def Delivery.packets (e : Delivery σ) : List Packet :=
  let res := match e.interface with
    | some i => e.outcome H d i e.queued
    | none => { ctx := e.ctx, offset := 0, fdOffset := 0, result := .ok none }
  match res.result with
  | .error _ => []
  | .ok out =>
    let (data, fds) := out.getD ([], [])
    let guestId := senderGuestId H d e.ctx e.header.senderId
    (patchSenderId o guestId (translatedSenderId H d e.ctx e.header.senderId) data, fds) ::
      (H.takeQueue d res.ctx).1

/-- The messages a batch takes off its buffer, in order, up to the one that is rejected. -/
def batchDeliveries : ℕ → Batch σ → List (Delivery σ)
  | 0, _ => []
  | quantum + 1, b =>
    match frame o b.buf with
    | .message header =>
      if b.ambiguousUntrackedFd then []
      else
        frontDelivery H d header b ::
          match dispatchMessage H o d header b with
          | none => []
          | some b' => if H.fatalProtocolError b'.ctx then [] else batchDeliveries quantum b'
    | _ => []

/-- One direction of a session: its connection, the context it shares with the other
direction, and what was received and delivered so far. -/
structure Channel (σ : Type) where
  ctx : σ
  conn : WaylandConnection
  received : Packet
  delivered : List (Delivery σ)

/-- Bytes and descriptors arrive, in pieces of any size; a batch runs; or the other
direction and the rest of the event loop change the context. -/
inductive ChannelInput (σ : Type)
  | receive (bytes : List UInt8) (fds : List RawFd)
  | batch
  | context (ctx : σ)

/-- The batch that is run next. -/
def Channel.start (c : Channel σ) : Batch σ :=
  { ctx := H.reapClipboardPumps c.ctx
    ambiguousUntrackedFd := c.conn.ambiguousUntrackedFd
    buf := c.conn.readBuf
    fds := c.conn.readFds
    outBuffer := []
    outFds := []
    processedMessages := 0 }

/-- The deliveries of the channel, with those of the batch that is run next. -/
def Channel.deliveries (c : Channel σ) : List (Delivery σ) :=
  c.delivered ++ batchDeliveries H o d maxMessagesPerBatch (c.start H)

/-- The channel of one direction; `none` ends the session. -/
def channel (ctx : σ) : TransitionSystem (Channel σ) (ChannelInput σ) where
  init c := c = { ctx, conn := .new, received := ([], []), delivered := [] }
  step c input := match input with
    | .receive bytes fds =>
      some { c with
        conn := c.conn.extend bytes fds
        received := (c.received.1 ++ bytes, c.received.2 ++ fds) }
    | .batch =>
      match batchLoop H o d maxMessagesPerBatch (c.start H) with
      | none => none
      | some b => some { c with
          ctx := b.ctx
          conn :=
            { readBuf := b.buf, readFds := b.fds, ambiguousUntrackedFd := b.ambiguousUntrackedFd }
          delivered := c.deliveries H o d }
    | .context ctx => some { c with ctx }

end

/-! ## Sessions run channels -/

section
variable {H : Handlers σ} {o : ByteOrder} {d : Direction}

/-- The state of a session as seen by one direction. -/
def Client.channel (c : Client σ) (d : Direction) (received : Packet)
    (delivered : List (Delivery σ)) : Channel σ :=
  { ctx := c.ctx, conn := c.connection d, received, delivered }

/-- A batch of the direction is a batch of its channel, a batch of the other direction only
changes the context. -/
theorem exists_run_of_dispatchDirection (ctx : σ) {sends : Sends} {e : Direction} {c : Client σ}
    {s : Session σ} (h : dispatchDirection H o sends e c = some s) (received : Packet)
    (delivered : List (Delivery σ)) :
    ∃ is delivered', (channel H o d ctx).run (c.channel d received delivered) is =
      some (s.client.channel d received delivered') := by
  unfold dispatchDirection at h
  split at h
  · contradiction
  · next handled hhandled =>
    split_ifs at h
    obtain rfl := Option.some.inj h
    unfold handleMsgs at hhandled
    split at hhandled
    · contradiction
    · next b hb =>
      obtain rfl := Option.some.inj hhandled
      by_cases hed : e = d
      · subst hed
        have hstart : (c.channel e received delivered).start H = startBatch H e c := rfl
        refine ⟨[.batch, .context (H.takeQueue e.reverse (H.clearFeedbackRefreshPending b.ctx)).2],
          (c.channel e received delivered).deliveries H o e, ?_⟩
        simp only [TransitionSystem.run_cons, TransitionSystem.run_nil, Sommelier.channel, hstart,
          hb, Option.bind_some, Option.some.injEq]
        simp [Client.channel]
        cases e <;> rfl
      · refine ⟨[.context (H.takeQueue e.reverse (H.clearFeedbackRefreshPending b.ctx)).2],
          delivered, ?_⟩
        simp only [TransitionSystem.run_cons, TransitionSystem.run_nil, Sommelier.channel,
          Option.bind_some, Option.some.injEq]
        have hne : d ≠ e := fun heq => hed heq.symm
        simp [Client.channel]
        cases e <;> cases d <;> first | rfl | exact absurd rfl hne

/-- A receive on a connection is a receive of its channel. -/
theorem exists_run_of_extend (ctx : σ) (e : Direction) (c : Client σ) (bytes : List UInt8)
    (fds : List RawFd) (received : Packet) (delivered : List (Delivery σ)) :
    ∃ is received', (channel H o d ctx).run (c.channel d received delivered) is =
      some ((c.setConnection e ((c.connection e).extend bytes fds)).channel d received'
        delivered) := by
  by_cases hed : d = e
  · subst hed
    refine ⟨[.receive bytes fds], (received.1 ++ bytes, received.2 ++ fds), ?_⟩
    simp [Sommelier.channel, Client.channel]
  · refine ⟨[], received, ?_⟩
    simp [Client.channel, Client.connection_setConnection_ne c hed]

/-- A turn of the event loop is a run of each of its channels. -/
theorem exists_run_of_iterate (ctx : σ) {s s' : Session σ} {turn : Turn}
    (h : iterate H o s turn = some s') (received : Packet) (delivered : List (Delivery σ)) :
    ∃ is received' delivered', (channel H o d ctx).run (s.client.channel d received delivered)
      is = some (s'.client.channel d received' delivered') := by
  -- A receive followed by the batch of a direction.
  have hreceive : ∀ {e e' : Direction} {bytes : List UInt8} {fds : List RawFd},
      dispatchDirection H o turn.sends e'
        (s.client.setConnection e ((s.client.connection e).extend bytes fds)) = some s' →
      ∃ is received' delivered', (channel H o d ctx).run
        (s.client.channel d received delivered) is =
          some (s'.client.channel d received' delivered') := by
    intro e e' bytes fds h
    obtain ⟨is, received', hrun⟩ := exists_run_of_extend (H := H) (o := o) (d := d) ctx
      e s.client bytes fds received delivered
    obtain ⟨js, delivered', hrun'⟩ :=
      exists_run_of_dispatchDirection (d := d) ctx h received' delivered
    refine ⟨is ++ js, received', delivered', ?_⟩
    rw [TransitionSystem.run_append, hrun, Option.bind_some, hrun']
  have hbatch : ∀ {e : Direction}, dispatchDirection H o turn.sends e s.client = some s' →
      ∃ is received' delivered', (channel H o d ctx).run
        (s.client.channel d received delivered) is =
          some (s'.client.channel d received' delivered') := by
    intro e h
    obtain ⟨is, delivered', hrun⟩ :=
      exists_run_of_dispatchDirection (d := d) ctx h received delivered
    exact ⟨is, received, delivered', hrun⟩
  unfold iterate nextBufferedDirection at h
  dsimp only at h
  by_cases hpref : (s.client.connection (preferredDirection s.preferHost)).hasCompleteMessage o
      = true
  · simp only [hpref, if_true] at h
    exact hbatch h
  by_cases hfall : (s.client.connection
      (preferredDirection s.preferHost).reverse).hasCompleteMessage o = true
  · simp only [hpref, hfall] at h
    cases hprobe : turn.probe with
    | wouldBlock =>
      simp only [hprobe] at h
      exact hbatch h
    | failed => simp [hprobe] at h
    | data bytes fds =>
      cases bytes with
      | nil => simp [hprobe] at h
      | cons byte bytes =>
        simp only [hprobe, Bool.not_true, Bool.false_eq_true, if_false] at h
        split_ifs at h with hext
        · exact hreceive h
        · exact hreceive h
  · simp only [hpref, hfall, Bool.not_false, if_true, Bool.false_eq_true, if_false] at h
    split at h
    · contradiction
    · contradiction
    · exact hreceive h

/-- Every direction of a reachable session is a reachable channel. -/
theorem exists_reachable_channel {ctx : σ} {s : Session σ} (h : (session H o ctx).Reachable s)
    (d : Direction) : ∃ received delivered,
      (channel H o d ctx).Reachable (s.client.channel d received delivered) := by
  induction h with
  | init hs =>
    obtain rfl := hs
    exact ⟨([], []), [], .init (by cases d <;> rfl)⟩
  | step _ _ hstep ih =>
    obtain ⟨received, delivered, hc⟩ := ih
    obtain ⟨is, received', delivered', hrun⟩ :=
      exists_run_of_iterate (d := d) ctx hstep received delivered
    exact ⟨received', delivered', hc.run hrun⟩

end
/-! ## What is sent and what is delivered -/

/-- A message as its sender sees it: framed by its own bytes, on an object of `interface`,
with one descriptor for each descriptor argument. -/
structure SentMessage (o : ByteOrder) (H : SommelierHandler σ) (d : Direction) where
  header : Header
  bytes : List UInt8
  fds : List RawFd
  interface : String
  framed : ∀ rest, frame o (bytes ++ rest) = .message header
  len_eq : header.len = bytes.length
  fds_length : fds.length = H.fdCount d interface header.opcode

/-- A delivery that got its own: the message at this position of the stream was taken off
the buffer, and if it is dispatched, the descriptor queue starts with its own descriptors,
the dispatch is what these descriptors alone make it, and it takes exactly these. -/
structure Attributed {o : ByteOrder} {H : SommelierHandler σ} {d : Direction}
    (S : List (SentMessage o H d)) (receivedFds : List RawFd) (k : ℕ) (e : Delivery σ)
    (m : SentMessage o H d) : Prop where
  header : e.header = m.header
  payload : e.payload = m.bytes.drop 8
  position : ∀ i, e.interface = some i →
    ∃ behind, e.queued = m.fds ++ behind ∧
      (S.take k).flatMap SentMessage.fds ++ e.queued <+: receivedFds
  outcome : ∀ i, e.interface = some i →
    e.outcome (H.handlers o) d i e.queued = e.outcome (H.handlers o) d i m.fds
  taken : ∀ i out, e.interface = some i →
    (e.outcome (H.handlers o) d i e.queued).result = .ok out →
    (e.outcome (H.handlers o) d i e.queued).fdOffset = m.fds.length

section
variable {o : ByteOrder} {d : Direction}

theorem parseHeader_append {buf : List UInt8} (h : 8 ≤ buf.length) (rest : List UInt8) :
    parseHeader o (buf ++ rest) = parseHeader o buf := by
  obtain ⟨s₀, s₁, s₂, s₃, a, b, c, d, tail, rfl⟩ := exists_header_bytes h
  rfl

/-- A proper prefix of a message is not taken for a message. -/
theorem frame_eq_incomplete_of_isPrefix {buf bytes rest : List UInt8} {header : Header}
    (hframe : frame o (bytes ++ rest) = .message header) (hlen : header.len = bytes.length)
    (hinit : buf <+: bytes ++ rest) (hlt : buf.length < bytes.length) :
    frame o buf = .incomplete := by
  rw [frame_eq_incomplete_iff]
  by_cases h8 : buf.length < 8
  · exact .inl h8
  · obtain ⟨hheader, hvalid, -⟩ := (frame_eq_message_iff o _ _).mp hframe
    obtain ⟨hlow, -, hmod⟩ := validMessageLength_iff.mp hvalid
    obtain ⟨tail, htail⟩ := hinit
    have hparse : parseHeader o buf = header := by
      rw [hheader, ← htail, parseHeader_append (Nat.le_of_not_lt h8)]
    rw [hparse]
    exact .inr ⟨hlow, hmod, hlen ▸ hlt⟩

theorem SentMessage.eight_le {H : SommelierHandler σ} (m : SentMessage o H d) :
    8 ≤ m.bytes.length := by
  obtain ⟨-, hvalid, -⟩ := (frame_eq_message_iff o _ _).mp (m.framed [])
  exact m.len_eq ▸ (validMessageLength_iff.mp hvalid).1

variable {H : SommelierHandler σ} {S : List (SentMessage o H d)} {received : Packet} {n : ℕ}

/-- The message at the front of the buffer is the next one of the stream. -/
theorem next_of_frame {buf : List UInt8} {fds : List RawFd}
    (ht : Taken SentMessage.bytes SentMessage.fds S n received buf fds)
    (hd : Delivered SentMessage.bytes SentMessage.fds S received.1 received.2)
    {header : Header} (hframe : frame o buf = .message header) :
    ∃ m buf' fds', S[n]? = some m ∧ header = m.header ∧ buf = m.bytes ++ buf' ∧
      fds = m.fds ++ fds' ∧
      Taken SentMessage.bytes SentMessage.fds S (n + 1) received buf' fds' := by
  have hinit := ht.units_prefix hd
  cases hm : S[n]? with
  | none =>
    rw [List.drop_eq_nil_of_le (List.getElem?_eq_none_iff.mp hm), List.flatMap_nil,
      List.prefix_nil] at hinit
    rw [hinit] at hframe
    cases hframe
  | some m =>
    obtain ⟨hlt, hget⟩ := List.getElem?_eq_some_iff.mp hm
    rw [List.drop_eq_getElem_cons hlt, hget, List.flatMap_cons] at hinit
    by_cases hlen : buf.length < m.bytes.length
    · rw [frame_eq_incomplete_of_isPrefix (m.framed _) m.len_eq hinit hlen] at hframe
      cases hframe
    · obtain ⟨buf', fds', rfl, rfl, hnext⟩ := ht.next hd hm (Nat.le_of_not_lt hlen)
      refine ⟨m, buf', fds', rfl, ?_, rfl, rfl, hnext⟩
      exact Frame.message.inj (hframe.symm.trans (m.framed buf'))

/-- The sender of a tracked event is known to the generated code. -/
theorem isEventSenderKnown_of_interface {header : Header} {b : Batch σ} {i : String}
    (h : (frontDelivery (H.handlers o) .hostToClient header b).interface = some i) :
    (H.shadowTable b.ctx).isEventSenderKnown header.senderId = true := by
  simp only [frontDelivery, senderGuestId, SommelierHandler.handlers] at h
  unfold ShadowTable.isEventSenderKnown
  cases hi : (H.shadowTable b.ctx).hostInterfaces.get header.senderId with
  | some i => simp
  | none =>
    cases hg : (H.shadowTable b.ctx).hostToGuest.get header.senderId with
    | some g => simp
    | none => simp [ShadowTable.getHostInterface, ShadowTable.getGuestId, hi, hg] at h

/-- What a turn of the loop on a delivery does to the queues. -/
theorem dispatchMessage_frontDelivery {H : Handlers σ} {header : Header} {b b' : Batch σ}
    (h : dispatchMessage H o d header b = some b') :
    match (frontDelivery H d header b).interface with
    | none => b'.fds = b.fds ∧
        b'.ambiguousUntrackedFd = (b.ambiguousUntrackedFd || !b.fds.isEmpty)
    | some i => b'.ambiguousUntrackedFd = b.ambiguousUntrackedFd ∧ ∃ out,
        ((frontDelivery H d header b).outcome H d i b.fds).result = .ok out ∧
        b'.fds = b.fds.drop ((frontDelivery H d header b).outcome H d i b.fds).fdOffset := by
  simp only [dispatchMessage] at h
  split at h
  · contradiction
  · next res ambiguous hdispatched =>
    split at h
    · contradiction
    · next out hout =>
      split_ifs at h
      obtain rfl := Option.some.inj h
      cases hi : (frontDelivery H d header b).interface with
      | none =>
        cases d with
        | clientToHost =>
          simp only [frontDelivery, senderGuestId] at hi
          simp [hi] at hdispatched
        | hostToClient =>
          simp only [frontDelivery, senderGuestId] at hi
          simp only [hi, Option.some.injEq, Prod.mk.injEq] at hdispatched
          obtain ⟨rfl, rfl⟩ := hdispatched
          exact ⟨rfl, rfl⟩
      | some i =>
        cases d <;>
        · simp only [frontDelivery, senderGuestId] at hi
          simp only [hi, Option.some.injEq, Prod.mk.injEq] at hdispatched
          obtain ⟨rfl, rfl⟩ := hdispatched
          exact ⟨rfl, out, hout, rfl⟩

/-- A turn of the loop appends the packets of the delivery, bytes and descriptors alike. -/
theorem dispatchMessage_packets {H : Handlers σ} {header : Header} {b b' : Batch σ}
    (h : dispatchMessage H o d header b = some b') :
    b'.outBuffer = b.outBuffer ++
        (((frontDelivery H d header b).packets H o d).map Prod.fst).flatten ∧
      b'.outFds = b.outFds ++
        (((frontDelivery H d header b).packets H o d).map Prod.snd).flatten := by
  simp only [dispatchMessage] at h
  split at h
  · contradiction
  · next res ambiguous hdispatched =>
    split at h
    · contradiction
    · next out hout =>
      split_ifs at h
      obtain rfl := Option.some.inj h
      have hpackets : (frontDelivery H d header b).packets H o d =
          (patchSenderId o (senderGuestId H d b.ctx header.senderId)
            (translatedSenderId H d b.ctx header.senderId) (out.getD ([], [])).1,
            (out.getD ([], [])).2) :: (H.takeQueue d res.ctx).1 := by
        unfold Delivery.packets
        cases hi : (frontDelivery H d header b).interface with
        | none =>
          cases d with
          | clientToHost =>
            simp only [frontDelivery, senderGuestId] at hi
            simp [hi] at hdispatched
          | hostToClient =>
            simp only [frontDelivery, senderGuestId] at hi
            simp only [hi, Option.some.injEq, Prod.mk.injEq] at hdispatched
            obtain ⟨rfl, rfl⟩ := hdispatched
            obtain rfl : none = out := Except.ok.inj hout
            rfl
        | some i =>
          have hres : (frontDelivery H d header b).outcome H d i
              (frontDelivery H d header b).queued = res := by
            cases d <;>
            · simp only [frontDelivery, senderGuestId] at hi
              simp only [hi, Option.some.injEq, Prod.mk.injEq] at hdispatched
              exact hdispatched.1
          simp only [hres, hout]
          rfl
      rw [hpackets, List.map_cons, List.map_cons, List.flatten_cons, List.flatten_cons,
        ← List.append_assoc, ← List.append_assoc]
      cases d <;> exact ⟨rfl, rfl⟩

/-- A batch sends on the packets of its deliveries, in their order. -/
theorem batchLoop_packets {H : Handlers σ} {quantum : ℕ} {b b' : Batch σ}
    (h : batchLoop H o d quantum b = some b') :
    b'.outBuffer = b.outBuffer ++ (((batchDeliveries H o d quantum b).flatMap
        (Delivery.packets H o d)).map Prod.fst).flatten ∧
      b'.outFds = b.outFds ++ (((batchDeliveries H o d quantum b).flatMap
        (Delivery.packets H o d)).map Prod.snd).flatten := by
  induction quantum generalizing b with
  | zero =>
    obtain rfl := Option.some.inj h
    simp [batchDeliveries]
  | succ quantum ih =>
    cases hframe : frame o b.buf with
    | incomplete =>
      simp only [batchLoop, hframe, Option.some.injEq] at h
      subst h
      simp [batchDeliveries, hframe]
    | invalidLength len => simp [batchLoop, hframe] at h
    | message header =>
      simp only [batchLoop, batchDeliveries, hframe] at h ⊢
      split_ifs at h ⊢ with hclear
      cases hdispatch : dispatchMessage H o d header b with
      | none => simp [hdispatch] at h
      | some b₁ =>
        obtain ⟨hbytes, hfds⟩ := dispatchMessage_packets hdispatch
        simp only [hdispatch] at h ⊢
        split_ifs at h ⊢ with hfatal
        · obtain rfl := Option.some.inj h
          simpa using And.intro hbytes hfds
        · obtain ⟨hbytes', hfds'⟩ := ih h
          rw [hbytes', hfds', hbytes, hfds]
          simp

/-- A connection whose descriptors cannot be attributed delivers nothing more. -/
theorem batchLoop_ambiguous {H : Handlers σ} (quantum : ℕ) {b : Batch σ}
    (h : b.ambiguousUntrackedFd = true) : batchDeliveries H o d quantum b = [] ∧
      ∀ b', batchLoop H o d quantum b = some b' → b' = b := by
  cases quantum with
  | zero => exact ⟨rfl, fun b' hb => (Option.some.inj hb).symm⟩
  | succ quantum =>
    cases hframe : frame o b.buf with
    | incomplete => simp [batchDeliveries, batchLoop, hframe]
    | invalidLength len => simp [batchDeliveries, batchLoop, hframe]
    | message header => simp [batchDeliveries, batchLoop, hframe, h]

/-- The interfaces the table records for the delivered messages, the first of which is the
`n`-th of the stream, are those of the sender. -/
def Agree (S : List (SentMessage o H d)) (n : ℕ) (es : List (Delivery σ)) : Prop :=
  ∀ (j : ℕ) (e : Delivery σ) (m : SentMessage o H d) (i : String), es[j]? = some e →
    S[n + j]? = some m → e.interface = some i → i = m.interface

theorem Agree.tail {e : Delivery σ} {es : List (Delivery σ)} (h : Agree S n (e :: es)) :
    Agree S (n + 1) es := by
  intro j e' m i he' hm hi
  exact h (j + 1) e' m i (by simpa using he')
    (by rwa [Nat.add_right_comm, Nat.add_assoc] at hm) hi

/-- The delivery of the next message of the stream. -/
theorem attributed_frontDelivery {b : Batch σ} {m : SentMessage o H d} {buf' : List UInt8}
    {fds' : List RawFd}
    (ht : Taken SentMessage.bytes SentMessage.fds S n received b.buf b.fds)
    (hbuf : b.buf = m.bytes ++ buf') (hfds : b.fds = m.fds ++ fds')
    (hagree : ∀ i, (frontDelivery (H.handlers o) d m.header b).interface = some i →
      i = m.interface) :
    Attributed S received.2 n (frontDelivery (H.handlers o) d m.header b) m := by
  have hown : ∀ i, (frontDelivery (H.handlers o) d m.header b).interface = some i →
      m.fds.length = H.fdCount d i m.header.opcode :=
    fun i hi => (hagree i hi).symm ▸ m.fds_length
  have hdispatch : ∀ i (hi : (frontDelivery (H.handlers o) d m.header b).interface = some i), _ :=
    fun i hi => SommelierHandler.dispatchTracked_append_fds (H := H) (o := o) (d := d)
      b.ctx i ((frontDelivery (H.handlers o) d m.header b).msg b.fds)
      (frontDelivery (H.handlers o) d m.header b).stale
      (fun hd => by
        subst hd
        exact isEventSenderKnown_of_interface hi) (hown i hi) fds'
  constructor
  · rfl
  · simp only [frontDelivery]
    rw [hbuf, m.len_eq, List.take_left]
  · intro i hi
    exact ⟨fds', hfds, ht.tokens_eq ▸ List.prefix_refl _⟩
  · intro i hi
    have h := (hdispatch i hi).1
    rw [← hfds] at h
    exact h
  · intro i out hi hout
    have h := hdispatch i hi
    rw [← hfds] at h
    have heq : (frontDelivery (H.handlers o) d m.header b).outcome (H.handlers o) d i b.fds =
        (frontDelivery (H.handlers o) d m.header b).outcome (H.handlers o) d i m.fds := h.1
    rw [show (frontDelivery (H.handlers o) d m.header b).queued = b.fds from rfl, heq] at hout ⊢
    exact h.2 out hout

/-- After a delivery that leaves nothing ambiguous, both queues start behind its message. -/
theorem queues_of_dispatchMessage {b b' : Batch σ} {m : SentMessage o H d} {buf' : List UInt8}
    {fds' : List RawFd} (hclear : b.ambiguousUntrackedFd = false)
    (hbuf : b.buf = m.bytes ++ buf') (hfds : b.fds = m.fds ++ fds')
    (hat : Attributed S received.2 n (frontDelivery (H.handlers o) d m.header b) m)
    (h : dispatchMessage (H.handlers o) o d m.header b = some b') :
    b'.buf = buf' ∧ (b'.ambiguousUntrackedFd = false → b'.fds = fds') := by
  obtain ⟨hbuf', -⟩ := dispatchMessage_eq_some h
  refine ⟨by rw [hbuf', hbuf, m.len_eq, List.drop_left], fun hclear' => ?_⟩
  have hqueues := dispatchMessage_frontDelivery h
  cases hi : (frontDelivery (H.handlers o) d m.header b).interface with
  | none =>
    simp only [hi] at hqueues
    obtain ⟨hsame, hambiguous⟩ := hqueues
    -- Nothing was queued, so the skipped message had no descriptors.
    have hnil : b.fds = [] := by simpa [hclear, hclear'] using hambiguous
    rw [hsame, hnil]
    rw [hnil] at hfds
    exact (List.append_eq_nil_iff.mp hfds.symm).2.symm
  | some i =>
    simp only [hi] at hqueues
    obtain ⟨-, out, hout, hrest⟩ := hqueues
    have htaken : ((frontDelivery (H.handlers o) d m.header b).outcome (H.handlers o) d i
        b.fds).fdOffset = m.fds.length := hat.taken i out hi hout
    rw [hrest, htaken, hfds, List.drop_left]

/-- A batch attributes the descriptors of everything it takes off the buffer, and leaves the
two queues in step unless a skipped message left them ambiguous. -/
theorem attributed_batchDeliveries {quantum : ℕ} {b : Batch σ}
    (hd : Delivered SentMessage.bytes SentMessage.fds S received.1 received.2)
    (ht : Taken SentMessage.bytes SentMessage.fds S n received b.buf b.fds)
    (hclear : b.ambiguousUntrackedFd = false)
    (hagree : Agree S n (batchDeliveries (H.handlers o) o d quantum b)) :
    (∀ j e, (batchDeliveries (H.handlers o) o d quantum b)[j]? = some e →
      ∃ m, S[n + j]? = some m ∧ Attributed S received.2 (n + j) e m) ∧
    ∀ b', batchLoop (H.handlers o) o d quantum b = some b' → b'.ambiguousUntrackedFd = false →
      Taken SentMessage.bytes SentMessage.fds S
        (n + (batchDeliveries (H.handlers o) o d quantum b).length) received b'.buf b'.fds := by
  induction quantum generalizing b n with
  | zero =>
    refine ⟨fun j e he => by simp [batchDeliveries] at he, fun b' hb _ => ?_⟩
    obtain rfl := Option.some.inj hb
    exact ht
  | succ quantum ih =>
    cases hframe : frame o b.buf with
    | incomplete =>
      refine ⟨fun j e he => by simp [batchDeliveries, hframe] at he, fun b' hb _ => ?_⟩
      simp only [batchLoop, hframe, Option.some.injEq] at hb
      simpa [batchDeliveries, hframe] using hb ▸ ht
    | invalidLength len =>
      refine ⟨fun j e he => by simp [batchDeliveries, hframe] at he, fun b' hb _ => ?_⟩
      simp [batchLoop, hframe] at hb
    | message header =>
      obtain ⟨m, buf', fds', hm, rfl, hbuf, hfds, hnext⟩ := next_of_frame ht hd hframe
      simp only [batchDeliveries, batchLoop, hframe, hclear, Bool.false_eq_true, if_false]
        at hagree ⊢
      have hat := attributed_frontDelivery ht hbuf hfds fun i hi => hagree 0 _ m i rfl hm hi
      have hhead : ∀ es j e, (frontDelivery (H.handlers o) d m.header b :: es)[j]? = some e →
          (∀ j e, es[j]? = some e →
            ∃ m, S[n + 1 + j]? = some m ∧ Attributed S received.2 (n + 1 + j) e m) →
          ∃ m, S[n + j]? = some m ∧ Attributed S received.2 (n + j) e m := by
        intro es j e he hes
        cases j with
        | zero =>
          obtain rfl : frontDelivery (H.handlers o) d m.header b = e := by simpa using he
          exact ⟨m, hm, hat⟩
        | succ j =>
          rw [Nat.add_comm j 1, ← Nat.add_assoc]
          exact hes j e (by simpa using he)
      cases hdispatch : dispatchMessage (H.handlers o) o d m.header b with
      | none =>
        refine ⟨fun j e he => hhead [] j e (by simpa [hdispatch] using he) (by simp), ?_⟩
        simp
      | some b₁ =>
        obtain ⟨hbuf₁, hfds₁⟩ := queues_of_dispatchMessage hclear hbuf hfds hat hdispatch
        simp only [hdispatch] at hagree ⊢
        split_ifs at hagree ⊢ with hfatal
        · refine ⟨fun j e he => hhead [] j e he (by simp), fun b' hb hclear' => ?_⟩
          obtain rfl := Option.some.inj hb
          rw [hbuf₁, hfds₁ hclear']
          exact hnext
        · by_cases hclear₁ : b₁.ambiguousUntrackedFd = false
          · have hnext₁ : Taken SentMessage.bytes SentMessage.fds S (n + 1) received b₁.buf
                b₁.fds := by
              rw [hbuf₁, hfds₁ hclear₁]
              exact hnext
            obtain ⟨hrest, hqueues⟩ := ih hnext₁ hclear₁ hagree.tail
            refine ⟨fun j e he => hhead _ j e he hrest, fun b' hb hclear' => ?_⟩
            rw [List.length_cons, Nat.add_comm _ 1, ← Nat.add_assoc]
            exact hqueues b' hb hclear'
          · obtain ⟨hnil, hkeep⟩ := batchLoop_ambiguous (H := H.handlers o) (o := o) (d := d)
              quantum (Bool.not_eq_false _ ▸ hclear₁)
            rw [hnil]
            refine ⟨fun j e he => hhead [] j e he (by simp), fun b' hb hclear' => ?_⟩
            exact absurd (hkeep b' hb ▸ hclear') hclear₁

theorem Attributed.mono {fds fds' : List RawFd} {k : ℕ} {e : Delivery σ} {m : SentMessage o H d}
    (h : Attributed S fds k e m) (hinit : fds <+: fds') : Attributed S fds' k e m :=
  { h with
    position := fun i hi =>
      let ⟨behind, hqueued, hpos⟩ := h.position i hi
      ⟨behind, hqueued, hpos.trans hinit⟩ }

/-- A skipped message with descriptors queued is the last one of its batch, and the batch
leaves its connection ambiguous. -/
theorem last_of_ambiguous {H : Handlers σ} {quantum : ℕ} {b : Batch σ} {j : ℕ} {e : Delivery σ}
    (he : (batchDeliveries H o d quantum b)[j]? = some e) (hskip : e.Ambiguous) :
    j + 1 = (batchDeliveries H o d quantum b).length ∧
      ∀ b', batchLoop H o d quantum b = some b' → b'.ambiguousUntrackedFd = true := by
  induction quantum generalizing b j with
  | zero => simp [batchDeliveries] at he
  | succ quantum ih =>
    cases hframe : frame o b.buf with
    | incomplete => simp [batchDeliveries, hframe] at he
    | invalidLength len => simp [batchDeliveries, hframe] at he
    | message header =>
      simp only [batchDeliveries, batchLoop, hframe] at he ⊢
      split_ifs at he ⊢ with hclear
      · simp at he
      cases hdispatch : dispatchMessage H o d header b with
      | none =>
        simp only [hdispatch] at he ⊢
        cases j with
        | zero => simp
        | succ j => simp at he
      | some b₁ =>
        simp only [hdispatch] at he ⊢
        cases j with
        | zero =>
          obtain rfl : frontDelivery H d header b = e := by simpa using he
          have hqueues := dispatchMessage_frontDelivery hdispatch
          simp only [hskip.1] at hqueues
          have hqueued : b.fds ≠ [] := hskip.2
          have hambiguous : b₁.ambiguousUntrackedFd = true := by simp [hqueues.2, hqueued]
          obtain ⟨hnil, hkeep⟩ :=
            batchLoop_ambiguous (H := H) (o := o) (d := d) quantum hambiguous
          split_ifs with hfatal
          · exact ⟨rfl, fun b' hb => Option.some.inj hb ▸ hambiguous⟩
          · exact ⟨by simp [hnil], fun b' hb => hkeep b' hb ▸ hambiguous⟩
        | succ j =>
          split_ifs at he ⊢ with hfatal
          · simp at he
          · obtain ⟨hlast, hkeep⟩ := ih (by simpa using he)
            exact ⟨by simpa using hlast, hkeep⟩

end

/-! ## Runs -/

section
variable (H : SommelierHandler σ) (o : ByteOrder) (d : Direction)

/-- The steps of a channel whose peer sends the stream `S`: every message's descriptors
arrive no later than its last byte, and the table records the interfaces of the peer. -/
def Conforming (S : List (SentMessage o H d)) (c : Channel σ) : ChannelInput σ → Prop
  | .receive bytes fds => Delivered SentMessage.bytes SentMessage.fds S (c.received.1 ++ bytes)
      (c.received.2 ++ fds)
  | .batch => Agree S c.delivered.length
      (batchDeliveries (H.handlers o) o d maxMessagesPerBatch (c.start (H.handlers o)))
  | .context _ => True

variable {H o d} {S : List (SentMessage o H d)}

/-- What a conforming run keeps. While nothing is ambiguous, both queues start behind the
messages delivered so far. -/
structure InStep (S : List (SentMessage o H d)) (c : Channel σ) : Prop where
  delivered : Delivered SentMessage.bytes SentMessage.fds S c.received.1 c.received.2
  attributed : ∀ k e, c.delivered[k]? = some e →
    ∃ m, S[k]? = some m ∧ Attributed S c.received.2 k e m
  taken : c.conn.ambiguousUntrackedFd = false →
    Taken SentMessage.bytes SentMessage.fds S c.delivered.length c.received c.conn.readBuf
      c.conn.readFds

/-- The next batch attributes its descriptors as well. -/
theorem InStep.deliveries {c : Channel σ} (h : InStep S c) (hagree : Conforming H o d S c .batch) :
    ∀ k e, (c.deliveries (H.handlers o) o d)[k]? = some e →
      ∃ m, S[k]? = some m ∧ Attributed S c.received.2 k e m := by
  intro k e he
  unfold Channel.deliveries at he
  by_cases hk : k < c.delivered.length
  · rw [List.getElem?_append_left hk] at he
    exact h.attributed k e he
  · obtain ⟨j, rfl⟩ := Nat.exists_eq_add_of_le (Nat.le_of_not_lt hk)
    rw [List.getElem?_append_right (Nat.le_add_right _ _), Nat.add_sub_cancel_left] at he
    by_cases hclear : c.conn.ambiguousUntrackedFd = false
    · exact (attributed_batchDeliveries (b := c.start (H.handlers o)) h.delivered
        (h.taken hclear) hclear hagree).1 j e he
    · have hnil := (batchLoop_ambiguous (H := H.handlers o) (o := o) (d := d)
        maxMessagesPerBatch (b := c.start (H.handlers o))
        (Bool.not_eq_false _ ▸ hclear)).1
      simp [hnil] at he

theorem InStep.step {ctx : σ} {c c' : Channel σ} {input : ChannelInput σ} (h : InStep S c)
    (hconf : Conforming H o d S c input)
    (hstep : (channel (H.handlers o) o d ctx).step c input = some c') : InStep S c' := by
  cases input with
  | receive bytes fds =>
    obtain rfl := Option.some.inj hstep
    refine ⟨hconf, fun k e he => ?_, fun hclear => (h.taken hclear).receive bytes fds⟩
    obtain ⟨m, hm, hat⟩ := h.attributed k e he
    exact ⟨m, hm, hat.mono (List.prefix_append _ _)⟩
  | context ctx' =>
    obtain rfl := Option.some.inj hstep
    exact ⟨h.delivered, h.attributed, h.taken⟩
  | batch =>
    simp only [channel] at hstep
    split at hstep
    · contradiction
    · next b hb =>
      obtain rfl := Option.some.inj hstep
      refine ⟨h.delivered, h.deliveries hconf, fun hclear' => ?_⟩
      by_cases hclear : c.conn.ambiguousUntrackedFd = false
      · have hqueues := (attributed_batchDeliveries (b := c.start (H.handlers o)) h.delivered
          (h.taken hclear) hclear hconf).2 b hb hclear'
        simpa [Channel.deliveries] using hqueues
      · have hkeep := (batchLoop_ambiguous (H := H.handlers o) (o := o) (d := d)
          maxMessagesPerBatch (b := c.start (H.handlers o))
          (Bool.not_eq_false _ ▸ hclear)).2 b hb
        have hambiguous : b.ambiguousUntrackedFd = c.conn.ambiguousUntrackedFd := by rw [hkeep]; rfl
        exact absurd (hambiguous ▸ hclear') hclear

/-- Only the last delivery can be ambiguous, and it leaves its connection ambiguous. -/
def LastAmbiguous (c : Channel σ) : Prop :=
  ∀ k e, c.delivered[k]? = some e → e.Ambiguous →
    k + 1 = c.delivered.length ∧ c.conn.ambiguousUntrackedFd = true

theorem LastAmbiguous.deliveries {H : Handlers σ} {c : Channel σ} (h : LastAmbiguous c) :
    ∀ k e, (c.deliveries H o d)[k]? = some e → e.Ambiguous →
      k + 1 = (c.deliveries H o d).length ∧
      ∀ b, batchLoop H o d maxMessagesPerBatch (c.start H) = some b →
        b.ambiguousUntrackedFd = true := by
  intro k e he hskip
  unfold Channel.deliveries at he ⊢
  rw [List.length_append]
  by_cases hk : k < c.delivered.length
  · rw [List.getElem?_append_left hk] at he
    obtain ⟨hlast, hambiguous⟩ := h k e he hskip
    obtain ⟨hnil, hkeep⟩ := batchLoop_ambiguous (H := H) (o := o) (d := d)
      maxMessagesPerBatch (b := c.start H) hambiguous
    exact ⟨by simp [hnil, hlast], fun b hb => hkeep b hb ▸ hambiguous⟩
  · obtain ⟨j, rfl⟩ := Nat.exists_eq_add_of_le (Nat.le_of_not_lt hk)
    rw [List.getElem?_append_right (Nat.le_add_right _ _), Nat.add_sub_cancel_left] at he
    obtain ⟨hlast, hkeep⟩ := last_of_ambiguous he hskip
    exact ⟨by omega, hkeep⟩

theorem LastAmbiguous.step {H : Handlers σ} {ctx : σ} {c c' : Channel σ}
    {input : ChannelInput σ} (h : LastAmbiguous c)
    (hstep : (channel H o d ctx).step c input = some c') : LastAmbiguous c' := by
  cases input with
  | receive bytes fds =>
    obtain rfl := Option.some.inj hstep
    exact h
  | context ctx' =>
    obtain rfl := Option.some.inj hstep
    exact h
  | batch =>
    simp only [channel] at hstep
    split at hstep
    · contradiction
    · next b hb =>
      obtain rfl := Option.some.inj hstep
      intro k e he hskip
      obtain ⟨hlast, hambiguous⟩ := h.deliveries k e he hskip
      exact ⟨hlast, hambiguous b hb⟩

end

/-- In every run of a channel whose peer's descriptors arrive in time, in pieces of any size,
every message is dispatched with its own descriptors at the front of the queue, exactly as if
no others were queued, and takes just these. In every run, a skipped message with descriptors
queued is the last complete message that is taken off the buffer, and a batch sends on the
packets of its messages in one order for bytes and descriptors. -/
theorem descriptor_attribution (H : SommelierHandler σ) (o : ByteOrder) (d : Direction)
    (ctx : σ) :
    (∀ (S : List (SentMessage o H d)) (c : Channel σ),
      (channel (H.handlers o) o d ctx).ReachableWhile (Conforming H o d S) c →
      Conforming H o d S c .batch →
      ∀ k e, (c.deliveries (H.handlers o) o d)[k]? = some e →
        ∃ m, S[k]? = some m ∧ Attributed S c.received.2 k e m) ∧
    (∀ c : Channel σ, (channel (H.handlers o) o d ctx).Reachable c →
      ∀ k e, (c.deliveries (H.handlers o) o d)[k]? = some e → e.Ambiguous →
        k + 1 = (c.deliveries (H.handlers o) o d).length) ∧
    ∀ (c : Channel σ) (b : Batch σ),
      batchLoop (H.handlers o) o d maxMessagesPerBatch (c.start (H.handlers o)) = some b →
      (b.outBuffer, b.outFds) =
        ((((batchDeliveries (H.handlers o) o d maxMessagesPerBatch
            (c.start (H.handlers o))).flatMap
              (Delivery.packets (H.handlers o) o d)).map Prod.fst).flatten,
          (((batchDeliveries (H.handlers o) o d maxMessagesPerBatch
            (c.start (H.handlers o))).flatMap
              (Delivery.packets (H.handlers o) o d)).map Prod.snd).flatten) := by
  refine ⟨fun S c hc hconf => ?_, fun c hc k e he hskip => ?_, fun c b hb => ?_⟩
  · have hstep : InStep S c := by
      refine hc.invariant (fun c hinit => ?_) fun c input c' _ h hG hstep => h.step hG hstep
      obtain rfl := hinit
      refine ⟨.nil fun m _ hnil => ?_, by simp, fun _ => .zero _⟩
      simpa [hnil] using m.eight_le
    exact hstep.deliveries hconf
  · have hlast : LastAmbiguous c := by
      refine hc.invariant (fun c hinit => ?_) fun c input c' _ h _ hstep => h.step hstep
      obtain rfl := hinit
      simp [LastAmbiguous]
    exact (hlast.deliveries k e he hskip).1
  · obtain ⟨hbytes, hfds⟩ := batchLoop_packets hb
    exact Prod.ext hbytes hfds

/-! ## Two pools whose requests arrive in pieces -/

/-- Handlers that forward nothing, with `create_pool` as the only request there is. -/
def poolHandler : SommelierHandler ShadowTable where
  shadowTable t := t
  interfaceName _ := "wl_shm"
  classifyInterface _ := some
    { schema := ⟨[⟨none, [.newId .wlShmPool, .fd, .int], false⟩], []⟩
      aura := false
      aura_fdCount := by simp }
  on _ t _ _ _ _ := (t, .ok none)
  pendingHostEventIsStale _ _ _ _ := false
  setLastSenderId t _ := t
  fatalProtocolError _ := false
  takeQueue _ t := ([], t)
  reapClipboardPumps t := t
  clearFeedbackRefreshPending t := t
  shadowTable_setLastSenderId _ _ := rfl

/-- A request for a pool of 4096 bytes. -/
def poolRequest (id : UInt8) (fd : RawFd) : SentMessage .little poolHandler .clientToHost where
  header := ⟨3, 16, 0⟩
  bytes := [3, 0, 0, 0, 0, 0, 16, 0, id, 0, 0, 0, 0, 16, 0, 0]
  fds := [fd]
  interface := "wl_shm"
  framed rest := by
    have hheader : parseHeader .little
        ([3, 0, 0, 0, 0, 0, 16, 0] ++ ([id, 0, 0, 0, 0, 16, 0, 0] ++ rest)) = ⟨3, 16, 0⟩ := by
      rw [parseHeader_append (by decide)]
      decide
    rw [frame_eq_message_iff, List.length_append]
    exact ⟨hheader.symm, by decide, Nat.le_add_right _ _⟩
  len_eq := rfl
  fds_length := rfl

def poolRequests : List (SentMessage .little poolHandler .clientToHost) :=
  [poolRequest 7 9, poolRequest 8 10]

/-- The state after `bytes` and `fds` were received and before anything is dispatched. -/
def poolChannel (bytes : List UInt8) (fds : List RawFd) : Channel ShadowTable where
  ctx := ShadowTable.new.trackInterfaceWithVersion 3 .wlShm 1
  conn := ⟨bytes, fds, false⟩
  received := (bytes, fds)
  delivered := []

/-- One request was dispatched, and the rest of the other arrived afterwards. -/
def poolsArrived : Channel ShadowTable where
  ctx := ShadowTable.new.trackInterfaceWithVersion 3 .wlShm 1
  conn := ⟨(poolRequest 8 10).bytes, [10], false⟩
  received := (poolRequests.flatMap SentMessage.bytes, [9, 10])
  delivered := [frontDelivery (poolHandler.handlers .little) .clientToHost ⟨3, 16, 0⟩
    ((poolChannel ((poolRequests.flatMap SentMessage.bytes).take 21) [9, 10]).start
      (poolHandler.handlers .little))]

theorem delivered_poolRequests (n : ℕ) {fds : List RawFd} (hfds : fds <+: [9, 10])
    (hfirst : 16 ≤ n → 1 ≤ fds.length) (hsecond : 32 ≤ n → 2 ≤ fds.length) :
    Delivered SentMessage.bytes SentMessage.fds poolRequests
      ((poolRequests.flatMap SentMessage.bytes).take n) fds := by
  refine ⟨List.take_prefix _ _, hfds, fun k hk => ?_⟩
  rw [List.length_take] at hk
  have hn := hk.trans (Nat.min_le_left _ _)
  match k with
  | 0 => exact Nat.zero_le _
  | 1 => exact hfirst hn
  | k + 2 =>
    simp only [poolRequests, poolRequest, List.take_succ_cons, List.take_nil, List.flatMap_cons,
      List.flatMap_nil, List.append_nil] at hn ⊢
    exact hsecond hn

theorem agree_poolRequests (n : ℕ) {es : List (Delivery ShadowTable)}
    (h : ∀ e ∈ es, e.interface = some "wl_shm") : Agree poolRequests n es := by
  intro j e m i he hm hi
  have hshm : m.interface = "wl_shm" := by
    have hmem := List.mem_of_getElem? hm
    rw [poolRequests, List.mem_cons, List.mem_singleton] at hmem
    rcases hmem with rfl | rfl <;> rfl
  rw [hshm]
  exact Option.some.inj (hi.symm.trans (h e (List.mem_of_getElem? he)))

theorem descriptor_attribution_createPool :
    (poolsArrived.deliveries (poolHandler.handlers .little) .little .clientToHost).length = 2 ∧
    ∀ k e, (poolsArrived.deliveries (poolHandler.handlers .little) .little .clientToHost)[k]? =
      some e → ∃ m, poolRequests[k]? = some m ∧
        Attributed poolRequests poolsArrived.received.2 k e m := by
  have harriving : (channel (poolHandler.handlers .little) .little .clientToHost
      (poolChannel [] []).ctx).ReachableWhile (Conforming poolHandler .little .clientToHost
        poolRequests) (poolChannel ((poolRequests.flatMap SentMessage.bytes).take 5) [9]) :=
    .step (i := .receive ((poolRequests.flatMap SentMessage.bytes).take 5) [9]) (.init rfl)
      (delivered_poolRequests 5 ⟨_, rfl⟩ (by simp) (by simp)) rfl
  have hbuffered : (channel (poolHandler.handlers .little) .little .clientToHost
      (poolChannel [] []).ctx).ReachableWhile (Conforming poolHandler .little .clientToHost
        poolRequests) (poolChannel ((poolRequests.flatMap SentMessage.bytes).take 21) [9, 10]) :=
    .step (i := .receive (((poolRequests.flatMap SentMessage.bytes).take 21).drop 5) [10])
      harriving (delivered_poolRequests 21 ⟨_, rfl⟩ (by simp) (by simp)) rfl
  refine ⟨rfl, (descriptor_attribution poolHandler .little .clientToHost
    (poolChannel [] []).ctx).1 poolRequests poolsArrived ?_ ?_⟩
  · -- The descriptor of the second pool waits while the first one is dispatched.
    refine .step (i := .receive ((poolRequests.flatMap SentMessage.bytes).drop 21) [])
      (.step (i := .batch) hbuffered (agree_poolRequests 0 ?_) rfl)
      (delivered_poolRequests 32 (List.prefix_refl [9, 10]) (fun _ => Nat.le_add_left 1 1)
        fun _ => Nat.le_refl 2) rfl
    exact List.forall_mem_singleton.mpr rfl
  · exact agree_poolRequests 1 (List.forall_mem_singleton.mpr rfl)

end Sommelier
