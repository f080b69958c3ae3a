import Mathlib.Algebra.Ring.Nat
import Sommelier.Lib.Interruption
import Sommelier.Proxy.TextInputRequests

/-!
# Chunks of a byte stream

A stream without descriptors arrives in pieces of any size and is taken off its buffer in
batches of at most thirty-two messages, between which messages of the other direction are
handled. Which messages are dispatched, where the session ends and what is left depends on the
stream and on the positions of the other messages alone.

## Main definitions

* `Stream`, `Stream.run`: one direction of a session and its runs.
* `streamMachine`: the same direction without chunks and batches.
* `chunking_invariance`: two runs over one stream agree.
-/
namespace Sommelier
variable {σ τ : Type}

/-! ## Runs of one direction -/

/-- A dispatched message. -/
structure TakenMessage where
  senderId : ℕ
  opcode : ℕ
  payload : List UInt8
  deriving DecidableEq, Repr

def Delivery.taken (e : Delivery σ) : TakenMessage :=
  { senderId := e.header.senderId, opcode := e.header.opcode, payload := e.payload }

/-- The bytes of messages in the stream. -/
def takenLength (ms : List TakenMessage) : ℕ := (ms.map fun m => m.payload.length + 8).sum

/-- A message of the other direction, with its descriptors. -/
structure OtherMessage where
  header : Header
  bytes : List UInt8
  fds : List RawFd
  deriving DecidableEq, Repr

/-- The direction goes on, one of its messages was rejected, or the session was closed. -/
inductive StreamStatus
  | running
  | rejected
  | closed
  deriving DecidableEq, Repr

/-- What arrives, one batch of the direction, and a batch of the other direction. -/
inductive StreamInput
  | receive (bytes : List UInt8)
  | batch
  | other (ms : List OtherMessage)

/-- A session as seen by one direction: the messages dispatched so far, and those of the other
direction with the number of messages dispatched before them. -/
structure Stream (σ : Type) where
  client : Client σ
  taken : List TakenMessage
  others : List (ℕ × OtherMessage)
  status : StreamStatus

/-- The stream that the inputs carry. -/
def received : List StreamInput → List UInt8
  | [] => []
  | .receive bytes :: inputs => bytes ++ received inputs
  | _ :: inputs => received inputs

section
variable (H : Handlers σ) (o : ByteOrder) (d : Direction)

/-- A session with a fatal error is closed after the batch. -/
def statusOf (ctx : σ) : StreamStatus :=
  if H.fatalProtocolError ctx then .closed else .running

/-- Handle a message of the other direction; `none` when it is rejected. -/
def handleOther (m : OtherMessage) (ctx : σ) : Option σ :=
  (dispatchMessage H o d.reverse m.header
    { ctx, ambiguousUntrackedFd := false, buf := m.bytes, fds := m.fds
      outBuffer := [], outFds := [], processedMessages := 0 }).map Batch.ctx

/-- Handle messages of the other direction until one ends the session. -/
def handleOthers : List OtherMessage → σ → List OtherMessage × σ × StreamStatus
  | [], ctx => ([], ctx, .running)
  | m :: ms, ctx =>
    match handleOther H o d m ctx with
    | none => ([m], ctx, .closed)
    | some ctx =>
      if H.fatalProtocolError ctx then ([m], ctx, .closed)
      else
        let (handled, ctx, status) := handleOthers ms ctx
        (m :: handled, ctx, status)

namespace Stream

def start (ctx : σ) : Stream σ :=
  { client := ⟨.new, .new, ctx⟩, taken := [], others := [], status := statusOf H ctx }

def buf (s : Stream σ) : List UInt8 := (s.client.connection d).readBuf

/-- One batch, whose sends go through. A rejected message is the last one that is read. -/
def batch (s : Stream σ) : Stream σ :=
  let taken := (batchDeliveries H o d maxMessagesPerBatch (startBatch H d s.client)).map
    Delivery.taken
  match handleMsgs H o d ⟨true, true⟩ s.client with
  | none =>
    { s with
      client := s.client.setConnection d { s.client.connection d with
        readBuf := (s.buf d).drop (takenLength taken) }
      taken := s.taken ++ taken
      status := .rejected }
  | some handled =>
    { s with
      client := handled.client
      taken := s.taken ++ taken
      status := if handled.success then .running else .closed }

def other (s : Stream σ) (ms : List OtherMessage) : Stream σ :=
  let (handled, ctx, status) := handleOthers H o d ms (H.reapClipboardPumps s.client.ctx)
  { s with
    client := { s.client with ctx := (H.takeQueue d (H.clearFeedbackRefreshPending ctx)).2 }
    others := s.others ++ handled.map fun m => (s.taken.length, m)
    status }

/-- Nothing is dispatched any more once the session has ended. -/
def step (s : Stream σ) : StreamInput → Stream σ
  | .receive bytes =>
    { s with client := s.client.setConnection d ((s.client.connection d).extend bytes []) }
  | .batch => if s.status = .running then s.batch H o d else s
  | .other ms => if s.status = .running then s.other H o d ms else s

def run (ctx : σ) (inputs : List StreamInput) : Stream σ :=
  inputs.foldl (step H o d) (start H ctx)

/-- Every complete message was dispatched, or the session has ended. -/
def Done (s : Stream σ) : Prop := s.status ≠ .running ∨ frame o (s.buf d) = .incomplete

end Stream

/-! ## The direction without chunks -/

/-- A stream whose bytes are all there. -/
structure WholeStream (σ : Type) where
  ctx : σ
  rest : List UInt8
  taken : List TakenMessage
  status : StreamStatus

namespace WholeStream

def batch (s : WholeStream σ) : Batch σ :=
  { ctx := s.ctx, ambiguousUntrackedFd := false, buf := s.rest, fds := []
    outBuffer := [], outFds := [], processedMessages := 0 }

/-- Dispatch the next message of the stream. -/
def advance (s : WholeStream σ) : Option (WholeStream σ) :=
  if s.status = .running then
    match frame o s.rest with
    | .incomplete => none
    | .invalidLength _ => some { s with status := .rejected }
    | .message header =>
      let taken := s.taken ++ [(frontDelivery H d header s.batch).taken]
      match dispatchMessage H o d header s.batch with
      | none => some { s with rest := s.rest.drop header.len, taken, status := .rejected }
      | some b => some { ctx := b.ctx, rest := b.buf, taken, status := statusOf H b.ctx }
  else none

def interrupt (m : OtherMessage) (s : WholeStream σ) : WholeStream σ :=
  match handleOther H o d m s.ctx with
  | none => { s with status := .closed }
  | some ctx => { s with ctx, status := statusOf H ctx }

end WholeStream

/-- The messages of a stream one by one, interrupted by those of the other direction. -/
def streamMachine : Interruptible (WholeStream σ) OtherMessage where
  Running s := s.status = .running
  position s := s.taken.length
  advance := WholeStream.advance H o d
  interrupt := WholeStream.interrupt H o d
  running_of_advance h := by
    unfold WholeStream.advance at h
    split_ifs at h with hrunning
    exact hrunning
  position_lt h hrunning := by
    unfold WholeStream.advance at h
    split_ifs at h
    split at h
    · cases h
    · cases h
      cases hrunning
    · dsimp only at h
      split at h
      · cases h
        cases hrunning
      · cases h
        simp

end

section
variable {H : Handlers σ} {o : ByteOrder} {d : Direction} {visible : σ → τ} {b b' : Batch σ}
  {c c' : σ}

/-! ## Messages and batches of a blind session -/

/-- Batches that the handlers cannot tell apart. -/
structure Batch.Agrees (visible : σ → τ) (b b' : Batch σ) : Prop where
  ctx : visible b.ctx = visible b'.ctx
  fds : b.fds = b'.fds
  ambiguous : b.ambiguousUntrackedFd = b'.ambiguousUntrackedFd

theorem Handlers.Blind.dispatchMessage (hb : H.Blind visible) {header : Header}
    (h : b.Agrees visible b') (hbuf : b.buf.take header.len = b'.buf.take header.len) :
    Option.Rel (Batch.Agrees visible) (dispatchMessage H o d header b)
      (dispatchMessage H o d header b') := by
  unfold Sommelier.dispatchMessage
  simp only [hb.getGuestId h.ctx, hb.getInterface h.ctx, hb.getHostInterface h.ctx,
    hb.stale h.ctx, hbuf, h.fds, h.ambiguous]
  cases d with
  | clientToHost =>
    cases H.getInterface b'.ctx header.senderId with
    | none => exact .none
    | some i =>
      obtain ⟨hctx, -, hfd, hresult⟩ := hb.dispatchTracked (d := .clientToHost) h.ctx i
        (Direction.clientToHost == .hostToClient && H.pendingHostEventIsStale b'.ctx
          header.senderId header.opcode (some header.senderId))
        ⟨header.senderId, header.opcode, (b'.buf.take header.len).drop 8, b'.fds⟩
      dsimp only
      rw [hresult, hfd]
      split
      · exact .none
      · split_ifs
        · exact .none
        · exact .some ⟨((hb.takeQueue _ _).trans hctx).trans (hb.takeQueue _ _).symm, rfl, rfl⟩
  | hostToClient =>
    generalize (H.getHostInterface b'.ctx header.senderId).or
      ((H.getGuestId b'.ctx header.senderId).bind (H.getInterface b'.ctx)) = interface
    cases interface with
    | none =>
      dsimp only
      split_ifs
      · exact .none
      · exact .some ⟨((hb.takeQueue _ _).trans h.ctx).trans (hb.takeQueue _ _).symm, rfl, rfl⟩
    | some i =>
      obtain ⟨hctx, -, hfd, hresult⟩ := hb.dispatchTracked (d := .hostToClient) h.ctx i
        (Direction.hostToClient == .hostToClient && H.pendingHostEventIsStale b'.ctx
          header.senderId header.opcode (H.getGuestId b'.ctx header.senderId))
        ⟨header.senderId, header.opcode, (b'.buf.take header.len).drop 8, b'.fds⟩
      dsimp only
      rw [hresult, hfd]
      split
      · exact .none
      · split_ifs
        · exact .none
        · exact .some ⟨((hb.takeQueue _ _).trans hctx).trans (hb.takeQueue _ _).symm, rfl, rfl⟩

/-- Without descriptors nothing becomes ambiguous. -/
theorem dispatchMessage_quiet {header : Header} (hfds : b.fds = [])
    (hclear : b.ambiguousUntrackedFd = false) (h : dispatchMessage H o d header b = some b') :
    b'.fds = [] ∧ b'.ambiguousUntrackedFd = false := by
  have hqueues := dispatchMessage_frontDelivery h
  split at hqueues
  · exact ⟨hqueues.1.trans hfds, by simp [hqueues.2, hclear, hfds]⟩
  · obtain ⟨hsame, out, -, hdrop⟩ := hqueues
    exact ⟨by simp [hdrop, hfds], hsame.trans hclear⟩

theorem map_eq_of_rel {r r' : Option (Batch σ)} (h : Option.Rel (Batch.Agrees visible) r r') :
    (r.map Batch.ctx).map visible = (r'.map Batch.ctx).map visible := by
  cases h with
  | none => rfl
  | some hagree => exact congrArg some hagree.ctx

theorem Handlers.Blind.handleOther (hb : H.Blind visible) (h : visible c = visible c')
    (m : OtherMessage) :
    (handleOther H o d m c).map visible = (handleOther H o d m c').map visible :=
  map_eq_of_rel (hb.dispatchMessage ⟨h, rfl, rfl⟩ rfl)

/-! ## Batches take the messages of the stream -/

theorem frame_append_message {buf : List UInt8} {header : Header}
    (h : frame o buf = .message header) (rest : List UInt8) :
    frame o (buf ++ rest) = .message header := by
  obtain ⟨hheader, hvalid, hlen⟩ := (frame_eq_message_iff o _ _).mp h
  have h8 := (validMessageLength_iff.mp hvalid).1
  rw [frame_eq_message_iff, parseHeader_append (h8.trans hlen), List.length_append]
  exact ⟨hheader, hvalid, hlen.trans (Nat.le_add_right _ _)⟩

theorem frame_append_invalid {buf : List UInt8} {len : ℕ} (h : frame o buf = .invalidLength len)
    (rest : List UInt8) : ∃ len', frame o (buf ++ rest) = .invalidLength len' := by
  unfold frame at h ⊢
  dsimp only at h ⊢
  split_ifs at h with h8 hvalid hshort
  have h8' : ¬ (buf ++ rest).length < 8 := by
    rw [List.length_append]
    omega
  rw [if_neg h8', parseHeader_append (Nat.le_of_not_lt h8), if_pos hvalid]
  exact ⟨_, rfl⟩

theorem length_frontDelivery {header : Header} (hframe : frame o b.buf = .message header) :
    (frontDelivery H d header b).taken.payload.length + 8 = header.len := by
  obtain ⟨-, hvalid, hlen⟩ := (frame_eq_message_iff o _ _).mp hframe
  have h8 := (validMessageLength_iff.mp hvalid).1
  simp only [Delivery.taken, frontDelivery, List.length_drop, List.length_take]
  omega

/-- The delivery of a message does not depend on the bytes behind it. -/
theorem taken_frontDelivery {header : Header}
    (hbuf : b.buf.take header.len = b'.buf.take header.len) :
    (frontDelivery H d header b).taken = (frontDelivery H d header b').taken := by
  simp [Delivery.taken, frontDelivery, hbuf]

/-- A batch is a run of the machine on the whole stream, of which `unread` has not arrived. -/
theorem run_batchLoop (hb : H.Blind visible) (quantum : ℕ) {b : Batch σ} {unread : List UInt8}
    {w : WholeStream σ} (hctx : visible b.ctx = visible w.ctx) (hfds : b.fds = [])
    (hclear : b.ambiguousUntrackedFd = false) (hrest : w.rest = b.buf ++ unread)
    (hrunning : w.status = .running) (hlive : H.fatalProtocolError b.ctx = false) :
    ∃ w', (streamMachine H o d).Run w [] w' ∧
      w'.taken = w.taken ++ (batchDeliveries H o d quantum b).map Delivery.taken ∧
      match batchLoop H o d quantum b with
      | none => w'.status = .rejected ∧ w'.rest = b.buf.drop (takenLength
          ((batchDeliveries H o d quantum b).map Delivery.taken)) ++ unread
      | some b' => visible b'.ctx = visible w'.ctx ∧ b'.fds = [] ∧
          b'.ambiguousUntrackedFd = false ∧ w'.rest = b'.buf ++ unread ∧
          w'.status = statusOf H b'.ctx := by
  induction quantum generalizing b w with
  | zero =>
    refine ⟨w, .refl w, by simp [batchDeliveries], hctx, hfds, hclear, hrest, ?_⟩
    simp [hrunning, statusOf, hlive]
  | succ quantum ih =>
    cases hframe : frame o b.buf with
    | incomplete =>
      refine ⟨w, .refl w, by simp [batchDeliveries, hframe], ?_⟩
      simp only [batchLoop, hframe]
      exact ⟨hctx, hfds, hclear, hrest, by simp [hrunning, statusOf, hlive]⟩
    | invalidLength len =>
      obtain ⟨len', hframe'⟩ := frame_append_invalid hframe unread
      rw [← hrest] at hframe'
      refine ⟨{ w with status := .rejected }, .advance ?_ (.refl _), ?_, ?_⟩
      · simp [streamMachine, WholeStream.advance, hrunning, hframe']
      · simp [batchDeliveries, hframe]
      · simp only [batchLoop, batchDeliveries, hframe]
        exact ⟨trivial, hrest⟩
    | message header =>
      have hframe' := frame_append_message hframe unread
      rw [← hrest] at hframe'
      obtain ⟨-, -, hlen⟩ := (frame_eq_message_iff o _ _).mp hframe
      have hbuf : b.buf.take header.len = w.batch.buf.take header.len := by
        rw [WholeStream.batch, hrest, List.take_append_of_le_length hlen]
      have hdrop : w.rest.drop header.len = b.buf.drop header.len ++ unread := by
        rw [hrest, List.drop_append_of_le_length hlen]
      have htaken := taken_frontDelivery (H := H) (d := d) hbuf
      have hlength := length_frontDelivery (H := H) (d := d) hframe
      have hagrees : b.Agrees visible w.batch := ⟨hctx, hfds, hclear⟩
      have hrel := hb.dispatchMessage (o := o) (d := d) hagrees hbuf
      simp only [batchLoop, batchDeliveries, hframe, hclear, Bool.false_eq_true, if_false]
      have hadvance : (streamMachine H o d).advance w =
          match dispatchMessage H o d header w.batch with
          | none => some { w with
              rest := w.rest.drop header.len
              taken := w.taken ++ [(frontDelivery H d header w.batch).taken]
              status := .rejected }
          | some b => some
              { ctx := b.ctx, rest := b.buf
                taken := w.taken ++ [(frontDelivery H d header w.batch).taken]
                status := statusOf H b.ctx } := by
        simp only [streamMachine, WholeStream.advance, hrunning, if_true, hframe']
      cases hdispatch : dispatchMessage H o d header b with
      | none =>
        cases hdispatch' : dispatchMessage H o d header w.batch with
        | some b₂ => simp [hdispatch, hdispatch'] at hrel
        | none =>
          simp only [hdispatch'] at hadvance
          refine ⟨_, .advance hadvance (.refl _), by simp [htaken], rfl, ?_⟩
          simpa [takenLength, hlength] using hdrop
      | some b₁ =>
        cases hdispatch' : dispatchMessage H o d header w.batch with
        | none => simp [hdispatch, hdispatch'] at hrel
        | some b₂ =>
          simp only [hdispatch, hdispatch', Option.rel_some_some] at hrel
          simp only [hdispatch'] at hadvance
          obtain ⟨hfds₁, hclear₁⟩ := dispatchMessage_quiet hfds hclear hdispatch
          obtain ⟨hbuf₁, -⟩ := dispatchMessage_eq_some hdispatch
          obtain ⟨hbuf₂, -⟩ := dispatchMessage_eq_some hdispatch'
          have hrest₂ : b₂.buf = b₁.buf ++ unread := by
            rw [hbuf₂, hbuf₁]
            exact hdrop
          have hstatus : statusOf H b₂.ctx = statusOf H b₁.ctx := by
            rw [statusOf, ← hb.fatal hrel.ctx, statusOf]
          by_cases hfatal : H.fatalProtocolError b₁.ctx = true
          · simp only [hfatal, if_true]
            exact ⟨_, .advance hadvance (.refl _), by simp [htaken], hrel.ctx, hfds₁, hclear₁,
              hrest₂, hstatus⟩
          · have hlive₁ := Bool.eq_false_iff.mpr hfatal
            obtain ⟨w', hrun, htaken', hresult⟩ := ih (b := b₁)
              (w := { ctx := b₂.ctx, rest := b₂.buf
                      taken := w.taken ++ [(frontDelivery H d header w.batch).taken]
                      status := statusOf H b₂.ctx })
              hrel.ctx hfds₁ hclear₁ hrest₂ (hstatus.trans (by simp [statusOf, hlive₁])) hlive₁
            simp only [hlive₁, Bool.false_eq_true, if_false]
            refine ⟨w', .advance hadvance hrun, by simp [htaken', htaken], ?_⟩
            cases hloop : batchLoop H o d quantum b₁ with
            | none =>
              simp only [hloop] at hresult ⊢
              refine ⟨hresult.1, hresult.2.trans ?_⟩
              simp [takenLength, hlength, hbuf₁, List.drop_drop]
            | some b' =>
              simpa only [hloop] using hresult

/-- Messages of the other direction interrupt the machine where it stands. -/
theorem run_handleOthers (hb : H.Blind visible) (ms : List OtherMessage) {c : σ}
    {w : WholeStream σ} (hctx : visible c = visible w.ctx) (hrunning : w.status = .running)
    (hlive : H.fatalProtocolError c = false) :
    ∃ w', (streamMachine H o d).Run w
        ((handleOthers H o d ms c).1.map fun m => (w.taken.length, m)) w' ∧
      w'.rest = w.rest ∧ w'.taken = w.taken ∧ w'.status = (handleOthers H o d ms c).2.2 ∧
      (w'.status = .running → visible (handleOthers H o d ms c).2.1 = visible w'.ctx ∧
        H.fatalProtocolError (handleOthers H o d ms c).2.1 = false) := by
  induction ms generalizing c w with
  | nil => exact ⟨w, .refl w, rfl, rfl, hrunning, fun _ => ⟨hctx, hlive⟩⟩
  | cons m ms ih =>
    have hother := hb.handleOther (o := o) (d := d) hctx m
    simp only [handleOthers]
    cases hhandled : handleOther H o d m c with
    | none =>
      rw [hhandled, Option.map_none, eq_comm, Option.map_eq_none_iff] at hother
      refine ⟨{ w with status := .closed }, .interrupt hrunning ?_, rfl, rfl, rfl, by simp⟩
      simpa only [streamMachine, WholeStream.interrupt, hother] using .refl _
    | some c₁ =>
      rw [hhandled, Option.map_some, eq_comm, Option.map_eq_some_iff] at hother
      obtain ⟨c₂, hhandled', hctx₁⟩ := hother
      have hfatal := hb.fatal hctx₁
      have hinterrupt : (streamMachine H o d).interrupt m w =
          { w with ctx := c₂, status := statusOf H c₂ } := by
        simp only [streamMachine, WholeStream.interrupt, hhandled']
      dsimp only
      split_ifs with hended
      · refine ⟨{ w with ctx := c₂, status := statusOf H c₂ }, .interrupt hrunning ?_, rfl, rfl,
          ?_, ?_⟩
        · exact hinterrupt ▸ .refl _
        · simp [statusOf, hfatal, hended]
        · simp [statusOf, hfatal, hended]
      · have hlive₁ := Bool.eq_false_iff.mpr hended
        obtain ⟨w', hrun, hrest, htaken, hstatus, hnext⟩ := ih (c := c₁)
          (w := { w with ctx := c₂, status := statusOf H c₂ }) hctx₁.symm
          (by simp [statusOf, hfatal, hlive₁]) hlive₁
        refine ⟨w', .interrupt hrunning ?_, hrest, htaken, hstatus, hnext⟩
        exact hinterrupt ▸ hrun

/-! ## Runs -/

theorem connection_withCtx (c : Client σ) (ctx : σ) (d : Direction) :
    Client.connection { c with ctx } d = c.connection d := by
  cases d <;> rfl

/-- The stream with the bytes that have not arrived is the whole stream of the machine. -/
structure Stream.Matches (H : Handlers σ) (d : Direction) (visible : σ → τ) (s : Stream σ)
    (unread : List UInt8) (w : WholeStream σ) : Prop where
  rest : w.rest = s.buf d ++ unread
  taken : w.taken = s.taken
  status : w.status = s.status
  fds : (s.client.connection d).readFds = []
  clear : (s.client.connection d).ambiguousUntrackedFd = false
  ctx : s.status = .running → visible s.client.ctx = visible w.ctx
  live : s.status = .running → H.fatalProtocolError s.client.ctx = false

theorem Stream.Matches.batch (hb : H.Blind visible) {s : Stream σ} {unread : List UInt8}
    {w : WholeStream σ} (h : s.Matches H d visible unread w) (hrunning : s.status = .running) :
    ∃ w', (streamMachine H o d).Run w [] w' ∧
      (s.batch H o d).Matches H d visible unread w' := by
  have hreap : visible (H.reapClipboardPumps s.client.ctx) = visible w.ctx :=
    (hb.reap _).trans (h.ctx hrunning)
  obtain ⟨w', hrun, htaken, hresult⟩ := run_batchLoop (o := o) (d := d) hb maxMessagesPerBatch
    (b := startBatch H d s.client) hreap h.fds h.clear h.rest (h.status.trans hrunning)
    ((hb.fatal (hb.reap _)).trans (h.live hrunning))
  refine ⟨w', hrun, ?_⟩
  unfold Stream.batch handleMsgs
  cases hloop : batchLoop H o d maxMessagesPerBatch (startBatch H d s.client) with
  | none =>
    simp only [hloop] at hresult
    obtain ⟨hrejected, hrest⟩ := hresult
    constructor
    · rw [Stream.buf, Client.connection_setConnection]
      exact hrest
    · simp [htaken, h.taken]
    · exact hrejected
    · simpa using h.fds
    · simpa using h.clear
    · simp
    · simp
  | some b =>
    simp only [hloop] at hresult
    obtain ⟨hctx, hfds, hclear, hrest, hstatus⟩ := hresult
    have hend : visible (H.takeQueue d.reverse (H.clearFeedbackRefreshPending b.ctx)).2 =
        visible b.ctx := (hb.takeQueue _ _).trans (hb.clear _)
    have hfatal := hb.fatal hend
    constructor
    · simpa only [Stream.buf, connection_withCtx, Client.connection_setConnection] using hrest
    · simp [htaken, h.taken]
    · rw [hstatus, statusOf]
      simp only [Bool.or_true, Bool.true_and, Bool.not_eq_true']
      rw [hfatal]
      cases H.fatalProtocolError b.ctx <;> rfl
    · simpa only [connection_withCtx, Client.connection_setConnection] using hfds
    · simpa only [connection_withCtx, Client.connection_setConnection] using hclear
    · exact fun _ => hend.trans hctx
    · simp only [Bool.or_true, Bool.true_and, Bool.not_eq_true']
      rw [hfatal]
      cases H.fatalProtocolError b.ctx <;> simp

theorem Stream.Matches.other (hb : H.Blind visible) {s : Stream σ} {unread : List UInt8}
    {w : WholeStream σ} (h : s.Matches H d visible unread w) (hrunning : s.status = .running)
    (ms : List OtherMessage) :
    ∃ w' log, (streamMachine H o d).Run w log w' ∧
      (s.other H o d ms).others = s.others ++ log ∧
      (s.other H o d ms).Matches H d visible unread w' := by
  have hreap : visible (H.reapClipboardPumps s.client.ctx) = visible w.ctx :=
    (hb.reap _).trans (h.ctx hrunning)
  obtain ⟨w', hrun, hrest, htaken, hstatus, hnext⟩ := run_handleOthers (o := o) (d := d) hb ms
    hreap (h.status.trans hrunning) ((hb.fatal (hb.reap _)).trans (h.live hrunning))
  refine ⟨w', _, hrun, by simp [Stream.other, h.taken], ?_⟩
  have hend : ∀ c, visible (H.takeQueue d (H.clearFeedbackRefreshPending c)).2 = visible c :=
    fun c => (hb.takeQueue _ _).trans (hb.clear _)
  constructor
  · simpa only [Stream.other, Stream.buf, connection_withCtx] using hrest.trans h.rest
  · exact htaken.trans h.taken
  · exact hstatus
  · simpa only [Stream.other, connection_withCtx] using h.fds
  · simpa only [Stream.other, connection_withCtx] using h.clear
  · exact fun hgoes => (hend _).trans (hnext (hstatus.trans hgoes)).1
  · exact fun hgoes => (hb.fatal (hend _)).trans (hnext (hstatus.trans hgoes)).2

theorem Stream.Matches.step (hb : H.Blind visible) {s : Stream σ} {unread : List UInt8}
    {w : WholeStream σ} {input : StreamInput}
    (h : s.Matches H d visible (received [input] ++ unread) w) :
    ∃ w' log, (streamMachine H o d).Run w log w' ∧
      (s.step H o d input).others = s.others ++ log ∧
      (s.step H o d input).Matches H d visible unread w' := by
  cases input with
  | receive bytes =>
    refine ⟨w, [], .refl w, (List.append_nil _).symm, ?_⟩
    constructor
    · simpa [Stream.step, Stream.buf, received, WaylandConnection.extend] using h.rest
    · exact h.taken
    · exact h.status
    · simpa [Stream.step, WaylandConnection.extend] using h.fds
    · simpa [Stream.step, WaylandConnection.extend] using h.clear
    · simpa [Stream.step] using h.ctx
    · simpa [Stream.step] using h.live
  | batch =>
    unfold Stream.step
    dsimp only
    split_ifs with hrunning
    · obtain ⟨w', hrun, hmatches⟩ := h.batch (o := o) hb hrunning
      refine ⟨w', [], hrun, ?_, hmatches⟩
      unfold Stream.batch
      split <;> exact (List.append_nil _).symm
    · exact ⟨w, [], .refl w, (List.append_nil _).symm, h⟩
  | other ms =>
    unfold Stream.step
    dsimp only
    split_ifs with hrunning
    · exact h.other hb hrunning ms
    · exact ⟨w, [], .refl w, (List.append_nil _).symm, h⟩

theorem Stream.Matches.run (hb : H.Blind visible) (inputs : List StreamInput) {s : Stream σ}
    {w : WholeStream σ} (h : s.Matches H d visible (received inputs) w) :
    ∃ w' log, (streamMachine H o d).Run w log w' ∧
      (inputs.foldl (Stream.step H o d) s).others = s.others ++ log ∧
      (inputs.foldl (Stream.step H o d) s).Matches H d visible [] w' := by
  induction inputs generalizing s w with
  | nil => exact ⟨w, [], .refl w, (List.append_nil _).symm, h⟩
  | cons input inputs ih =>
    have hreceived : received (input :: inputs) = received [input] ++ received inputs := by
      cases input <;> simp [received]
    rw [hreceived] at h
    obtain ⟨w₁, log₁, hrun₁, hothers₁, hmatches₁⟩ := h.step (o := o) hb
    obtain ⟨w₂, log₂, hrun₂, hothers₂, hmatches₂⟩ := ih hmatches₁
    exact ⟨w₂, log₁ ++ log₂, hrun₁.trans hrun₂, by rw [List.foldl_cons, hothers₂, hothers₁,
      List.append_assoc], hmatches₂⟩

end

/-- Two runs over one stream without descriptors, in which the same messages of the other
direction come at the same positions, agree once every complete message was dispatched or the
session has ended: on the messages dispatched, on the end of the session, and on what is left. -/
theorem chunking_invariance {H : Handlers σ} {visible : σ → τ} (hb : H.Blind visible)
    (o : ByteOrder) (d : Direction) (ctx : σ) {inputs inputs' : List StreamInput}
    (hstream : received inputs = received inputs')
    (hothers : (Stream.run H o d ctx inputs).others = (Stream.run H o d ctx inputs').others)
    (hdone : (Stream.run H o d ctx inputs).Done o d)
    (hdone' : (Stream.run H o d ctx inputs').Done o d) :
    (Stream.run H o d ctx inputs).taken = (Stream.run H o d ctx inputs').taken ∧
    (Stream.run H o d ctx inputs).status = (Stream.run H o d ctx inputs').status ∧
    (Stream.run H o d ctx inputs).buf d = (Stream.run H o d ctx inputs').buf d := by
  have hstart : ∀ stream, (Stream.start H ctx).Matches H d visible stream
      { ctx, rest := stream, taken := [], status := statusOf H ctx } := by
    intro stream
    constructor
    · cases d <;> rfl
    · rfl
    · rfl
    · cases d <;> rfl
    · cases d <;> rfl
    · exact fun _ => rfl
    · simp [Stream.start, statusOf]
  have hrest : ∀ {s : Stream σ} {w : WholeStream σ}, s.Matches H d visible [] w → s.Done o d →
      (streamMachine H o d).advance w = none := by
    intro s w hmatches hdone
    unfold streamMachine WholeStream.advance
    dsimp only
    split_ifs with hrunning
    · have hincomplete := hdone.resolve_left (not_not.mpr (hmatches.status.symm.trans hrunning))
      rw [hmatches.rest, List.append_nil, hincomplete]
    · rfl
  obtain ⟨w, log, hrun, hlog, hmatches⟩ := (hstart _).run (o := o) hb inputs
  obtain ⟨w', log', hrun', hlog', hmatches'⟩ := (hstart _).run (o := o) hb inputs'
  obtain rfl : log = log' := by
    rw [← List.nil_append log, ← List.nil_append log']
    exact hlog.symm.trans (hothers.trans hlog')
  rw [← hstream] at hrun'
  obtain rfl := hrun.unique hrun' (hrest hmatches hdone) (hrest hmatches' hdone')
  refine ⟨hmatches.taken.symm.trans hmatches'.taken, hmatches.status.symm.trans hmatches'.status,
    ?_⟩
  have hbuf := hmatches.rest.symm.trans hmatches'.rest
  rwa [List.append_nil, List.append_nil] at hbuf

/-- A session whose object 77 is the dma-buf object of the proxy, with a feedback object. -/
def reportingContext : AcceleratedContext :=
  ⟨{ GlobalContext.new ⟨true, true, none, false⟩ with
    shadowTable := ShadowTable.new.trackHostInterfaceWithVersion 77 .zwpLinuxDmabufV1 3
    hostDmabufId := some 77
    hostDmabufGeneration := some 1
    dmabufCapabilities := (∅ : Table ℕ _).set 1 { formatModifiers := [], ready := true }
    syntheticFeedbackObjects := (∅ : Table ℕ _).set 4 1 }, rfl⟩

/-- The host reports a modifier. -/
def modifierEvent (modifier : UInt8) : List UInt8 :=
  [77, 0, 0, 0, 1, 0, 20, 0, 0x58, 0x52, 0x32, 0x34, 0, 0, 0, 0, modifier, 0, 0, 0]

/-- A session whose text input 6 has the focus. -/
def focusedContext : InputContext :=
  { InputContext.new with
    shadowTable := ((ShadowTable.new.mapId 3 30).mapId 6 60).trackInterface 6 .zwpTextInputV3
    textInputs := (∅ : Table ℕ _).set 6 (.new 60 none 3 (some 4)) }

/-- Enable the text input, set its content type and commit. -/
def enableRequests : List UInt8 :=
  [6, 0, 0, 0, 1, 0, 8, 0, 6, 0, 0, 0, 5, 0, 16, 0, 2, 0, 0, 0, 1, 0, 0, 0,
    6, 0, 0, 0, 7, 0, 8, 0]

/-- Two reports and a half, and three requests, in one batch or in a batch each. -/
theorem chunking_invariance_reports :
    let H := (dmabufReports .little).handlers .little
    let s := Stream.run H .little .hostToClient reportingContext
      [.receive (modifierEvent 1 ++ modifierEvent 2 ++ partialEvent), .batch]
    let s' := Stream.run H .little .hostToClient reportingContext
      [.receive ((modifierEvent 1).take 10), .batch, .receive ((modifierEvent 1).drop 10), .batch,
        .receive (modifierEvent 2 ++ partialEvent), .batch]
    let G := (textInputRequests .little).handlers .little
    let r := Stream.run G .little .clientToHost focusedContext [.receive enableRequests, .batch]
    let r' := Stream.run G .little .clientToHost focusedContext
      [.receive (enableRequests.take 20), .batch, .receive (enableRequests.drop 20), .batch]
    (s.taken = s'.taken ∧ s.status = s'.status ∧
      s.buf .hostToClient = s'.buf .hostToClient) ∧
    r.taken = r'.taken ∧ r.status = r'.status ∧
      r.buf .clientToHost = r'.buf .clientToHost := by
  refine ⟨?_, ?_⟩
  · exact chunking_invariance (dmabufReports_blind .little).handlers .little .hostToClient
      reportingContext (by decide) (by decide +kernel) (.inr (by decide +kernel))
      (.inr (by decide +kernel))
  · exact chunking_invariance (textInputRequests_blind .little).handlers .little .clientToHost
      focusedContext (by decide) (by decide +kernel) (.inr (by decide +kernel))
      (.inr (by decide +kernel))

end Sommelier
