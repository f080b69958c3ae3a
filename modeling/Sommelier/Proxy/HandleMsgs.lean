import Sommelier.Connection

/-!
# Message batches

One batch of the proxy in one direction: the complete messages at the front of a read
buffer are dispatched in order, at most thirty-two of them, and what the handlers
produce is sent on. The handlers, the object tables and the generated dispatch code are
behind `Handlers`, over any context type.

## Main definitions

* `Handlers`: what a batch asks of the context.
* `dispatchMessage`, `batchLoop`: one turn of the framing loop and the loop.
* `handleMsgs`: a whole batch, with its sends.
-/
namespace Sommelier

inductive Direction
  | clientToHost
  | hostToClient
  deriving DecidableEq, Repr

/-- Bytes with the descriptors sent along. -/
abbrev Packet := List UInt8 × List RawFd

/-- A framed message with the descriptors still queued on its stream. -/
structure WireMessage where
  senderId : ℕ
  opcode : ℕ
  payload : List UInt8
  fds : List RawFd
  deriving DecidableEq, Repr

/-- The outcome of one dispatch: the new context, how much of the payload and of the
descriptor queue was read, and the translated message, if any. -/
structure Dispatched (σ : Type) where
  ctx : σ
  offset : ℕ
  fdOffset : ℕ
  result : Except ProtocolError (Option Packet)

/-- How much of a suppressed event was decoded, and whether that succeeded. -/
structure Consumed where
  offset : ℕ
  fdOffset : ℕ
  result : Except ProtocolError Unit

/-- The context operations a batch performs. `takeQueue d` empties the queue of
messages that handlers made for the receiver of direction `d`. -/
structure Handlers (σ : Type) where
  getGuestId : σ → ℕ → Option ℕ
  getHostId : σ → ℕ → Option ℕ
  getInterface : σ → ℕ → Option String
  getHostInterface : σ → ℕ → Option String
  pendingHostEventIsStale : σ → ℕ → ℕ → Option ℕ → Bool
  dispatchRequest : σ → String → WireMessage → Dispatched σ
  dispatchEvent : σ → String → WireMessage → Dispatched σ
  consumeEvent : String → WireMessage → Consumed
  setLastSenderId : σ → ℕ → σ
  fatalProtocolError : σ → Bool
  takeQueue : Direction → σ → List Packet × σ
  reapClipboardPumps : σ → σ
  clearFeedbackRefreshPending : σ → σ

/-- The fairness quantum of one batch. -/
def maxMessagesPerBatch : ℕ := 32

/-- The state of a running batch. `buf` and `fds` are what is left of the read buffers. -/
structure Batch (σ : Type) where
  ctx : σ
  ambiguousUntrackedFd : Bool
  buf : List UInt8
  fds : List RawFd
  outBuffer : List UInt8
  outFds : List RawFd
  processedMessages : ℕ

section
variable {σ : Type} (H : Handlers σ) (o : ByteOrder) (d : Direction)

def translatedSenderId (ctx : σ) (senderId : ℕ) : Option ℕ :=
  match d with
  | .clientToHost => H.getHostId ctx senderId
  | .hostToClient => H.getGuestId ctx senderId

/-- Overwrite the sender word of a translated message. -/
def patchSenderId (guestId targetSenderId : Option ℕ) (data : List UInt8) : List UInt8 :=
  match guestId, targetSenderId with
  | some _, some tid => if 4 ≤ data.length then o.toNeBytes tid ++ data.drop 4 else data
  | _, _ => data

/-- Dispatch a framed message to the handlers of its interface. A payload that was not
read to its end is an error whatever the handler returned. -/
def dispatchTracked (ctx : σ) (interface : String) (suppressHostEvent : Bool)
    (msg : WireMessage) : Dispatched σ :=
  let ctx := H.setLastSenderId ctx msg.senderId
  let res := match d with
    | .clientToHost => H.dispatchRequest ctx interface msg
    | .hostToClient =>
      if suppressHostEvent then
        -- The payload and descriptors of a stale event are read, no handler runs.
        let res := H.consumeEvent interface msg
        { ctx, offset := res.offset, fdOffset := res.fdOffset,
          result := res.result.map fun _ => none }
      else H.dispatchEvent ctx interface msg
  if res.offset = msg.payload.length then res
  else { res with result := .error .trailingData }

/-- One turn of the framing loop on a complete message; `none` rejects the session. -/
def dispatchMessage (header : Header) (b : Batch σ) : Option (Batch σ) :=
  let senderId := header.senderId
  let guestId := match d with
    | .clientToHost => some senderId
    | .hostToClient => H.getGuestId b.ctx senderId
  let targetSenderId := translatedSenderId H d b.ctx senderId
  let suppressHostEvent := d == .hostToClient &&
    H.pendingHostEventIsStale b.ctx senderId header.opcode guestId
  let interface := match d with
    | .clientToHost => H.getInterface b.ctx senderId
    | .hostToClient =>
      (H.getHostInterface b.ctx senderId).or (guestId.bind (H.getInterface b.ctx))
  let msg : WireMessage :=
    { senderId, opcode := header.opcode, payload := (b.buf.take header.len).drop 8,
      fds := b.fds }
  -- A complete message of an untracked host object is skipped; descriptors queued behind
  -- it can no longer be attributed.
  let dispatched : Option (Dispatched σ × Bool) := match interface, d with
    | some interface, _ =>
      some (dispatchTracked H d b.ctx interface suppressHostEvent msg, b.ambiguousUntrackedFd)
    | none, .clientToHost => none
    | none, .hostToClient =>
      some ({ ctx := b.ctx, offset := 0, fdOffset := 0, result := .ok none },
        b.ambiguousUntrackedFd || !b.fds.isEmpty)
  match dispatched with
  | none => none
  | some (res, ambiguousUntrackedFd) =>
    match res.result with
    | .error _ => none
    | .ok out =>
      if b.fds.length < res.fdOffset then none
      else
        let (data, fds) := out.getD ([], [])
        let (queued, ctx) := H.takeQueue d res.ctx
        some
          { ctx
            ambiguousUntrackedFd
            buf := b.buf.drop header.len
            fds := b.fds.drop res.fdOffset
            outBuffer := b.outBuffer ++ patchSenderId o guestId targetSenderId data ++
              (queued.map Prod.fst).flatten
            outFds := b.outFds ++ fds ++ (queued.map Prod.snd).flatten
            processedMessages := b.processedMessages + 1 }

/-- The framing loop with the messages left in its quantum; `none` rejects the session. -/
def batchLoop : ℕ → Batch σ → Option (Batch σ)
  | 0, b => some b
  | quantum + 1, b =>
    match frame o b.buf with
    | .incomplete => some b
    | .invalidLength _ => none
    | .message header =>
      if b.ambiguousUntrackedFd then none
      else
        match dispatchMessage H o d header b with
        | none => none
        | some b' => if H.fatalProtocolError b'.ctx then some b' else batchLoop quantum b'

end

/-- Both connections of a session and its context. -/
structure Client (σ : Type) where
  clientConn : WaylandConnection
  hostConn : WaylandConnection
  ctx : σ

namespace Client
variable {σ : Type}

def connection (c : Client σ) : Direction → WaylandConnection
  | .clientToHost => c.clientConn
  | .hostToClient => c.hostConn

def setConnection (c : Client σ) (d : Direction) (conn : WaylandConnection) : Client σ :=
  match d with
  | .clientToHost => { c with clientConn := conn }
  | .hostToClient => { c with hostConn := conn }

@[simp] theorem connection_setConnection (c : Client σ) (d : Direction)
    (conn : WaylandConnection) : (c.setConnection d conn).connection d = conn := by
  cases d <;> rfl

@[simp] theorem ctx_setConnection (c : Client σ) (d : Direction) (conn : WaylandConnection) :
    (c.setConnection d conn).ctx = c.ctx := by
  cases d <;> rfl

theorem connection_setConnection_ne (c : Client σ) {d d' : Direction} (h : d' ≠ d)
    (conn : WaylandConnection) : (c.setConnection d conn).connection d' = c.connection d' := by
  cases d <;> cases d' <;> first | rfl | exact absurd rfl h

end Client

/-- The opposite direction. -/
def Direction.reverse : Direction → Direction
  | .clientToHost => .hostToClient
  | .hostToClient => .clientToHost

/-- Whether the forward and the reverse send of a batch go through. -/
structure Sends where
  forward : Bool
  reverse : Bool
  deriving DecidableEq, Repr

/-- A finished batch: the session state, the packets handed to the two transports and
whether the session goes on. -/
structure Handled (σ : Type) where
  client : Client σ
  sent : Packet
  reverseSent : Packet
  success : Bool

section
variable {σ : Type} (H : Handlers σ) (o : ByteOrder) (d : Direction)

def startBatch (c : Client σ) : Batch σ :=
  { ctx := H.reapClipboardPumps c.ctx
    ambiguousUntrackedFd := (c.connection d).ambiguousUntrackedFd
    buf := (c.connection d).readBuf
    fds := (c.connection d).readFds
    outBuffer := []
    outFds := []
    processedMessages := 0 }

/-- A batch and its sends; `none` when a message is rejected, which drops the session. -/
def handleMsgs (sends : Sends) (c : Client σ) : Option (Handled σ) :=
  match batchLoop H o d maxMessagesPerBatch (startBatch H d c) with
  | none => none
  | some b =>
    let ctx := H.clearFeedbackRefreshPending b.ctx
    let (reverseQueue, ctx) := H.takeQueue d.reverse ctx
    let reverseOutBuf := (reverseQueue.map Prod.fst).flatten
    let reverseOutFds := (reverseQueue.map Prod.snd).flatten
    let conn : WaylandConnection :=
      { readBuf := b.buf, readFds := b.fds, ambiguousUntrackedFd := b.ambiguousUntrackedFd }
    some
      { client := { c.setConnection d conn with ctx }
        sent := if b.outBuffer.isEmpty then ([], []) else (b.outBuffer, b.outFds)
        reverseSent := if reverseOutBuf.isEmpty then ([], []) else (reverseOutBuf, reverseOutFds)
        success := (b.outBuffer.isEmpty || sends.forward) &&
          (reverseOutBuf.isEmpty || sends.reverse) && !H.fatalProtocolError ctx }

end
end Sommelier
