import Sommelier.Lib.Transition
import Sommelier.Proxy.HandleMsgs

/-!
# The event loop

A session alternates between the buffered directions and polls the transports when
neither buffer is ready. Readiness is decided by `hasCompleteMessage`, dispatch by the
framing loop, and the two read the header independently.

## Main definitions

* `nextBufferedDirection`: the choice of a buffered direction, with its probe.
* `iterate`, `session`: one turn of the event loop, and the runs of it.
* `Progress`: a turn that dispatches consumes a message or ends the session, and a turn
  that polls leaves no complete message behind.
-/
namespace Sommelier

/-- The loop state between two turns. -/
structure Session (σ : Type) where
  client : Client σ
  preferHost : Bool

/-- What the transports do in one turn: the result of the fairness probe, the direction
a poll ends on with the bytes and descriptors it received, if it did not fail, and the
sends of the batch. -/
structure Turn where
  probe : Received
  polled : Direction × Option Packet
  sends : Sends

/-- The end of the session or the chosen direction, with the buffers after the probe. -/
inductive NextDirection (σ : Type)
  | closed
  | buffered (d : Direction) (client : Client σ)
  | poll

section
variable {σ : Type} (H : Handlers σ) (o : ByteOrder)

def preferredDirection (preferHost : Bool) : Direction :=
  if preferHost then .hostToClient else .clientToHost

/-- Choose the next buffered direction while probing the preferred transport. -/
def nextBufferedDirection (probe : Received) (preferHost : Bool) (c : Client σ) :
    NextDirection σ :=
  let preferred := preferredDirection preferHost
  let fallback := preferred.reverse
  if (c.connection preferred).hasCompleteMessage o then .buffered preferred c
  else if !(c.connection fallback).hasCompleteMessage o then .poll
  else
    match probe with
    | .failed => .closed
    | .data [] _ => .closed
    | .wouldBlock => .buffered fallback c
    | .data bytes fds =>
      let conn := (c.connection preferred).extend bytes fds
      let c := c.setConnection preferred conn
      if conn.hasCompleteMessage o then .buffered preferred c else .buffered fallback c

/-- Dispatch a batch and prefer the other direction next. -/
def dispatchDirection (sends : Sends) (d : Direction) (c : Client σ) : Option (Session σ) :=
  match handleMsgs H o d sends c with
  | none => none
  | some handled =>
    if handled.success then some { client := handled.client, preferHost := d == .clientToHost }
    else none

/-- One turn of the event loop; `none` ends the session. -/
def iterate (s : Session σ) (turn : Turn) : Option (Session σ) :=
  match nextBufferedDirection o turn.probe s.preferHost s.client with
  | .closed => none
  | .buffered d c => dispatchDirection H o turn.sends d c
  | .poll =>
    match turn.polled with
    | (_, none) => none
    | (_, some ([], _)) => none
    | (d, some (bytes, fds)) =>
      dispatchDirection H o turn.sends d
        (s.client.setConnection d ((s.client.connection d).extend bytes fds))

/-- The event loop from a fresh context, with nothing received yet. -/
def session (ctx : σ) : TransitionSystem (Session σ) Turn where
  init s := s = ⟨⟨.new, .new, ctx⟩, true⟩
  step s turn := iterate H o s turn

/-- The batch loop gets past the front of its buffer: it rejects the session, or it
dispatches a message. -/
def LoopProgress (d : Direction) (b : Batch σ) : Prop :=
  ∀ b', batchLoop H o d maxMessagesPerBatch b = some b' →
    b.processedMessages < b'.processedMessages

/-- A turn on a buffered direction consumes the message at the front of its buffer or
ends the session, and a turn that polls finds no complete message in either buffer. -/
def Progress (s : Session σ) (turn : Turn) : Prop :=
  match nextBufferedDirection o turn.probe s.preferHost s.client with
  | .closed => True
  | .buffered d c => ∀ s', iterate H o s turn = some s' →
      ∃ header, frame o (c.connection d).readBuf = .message header ∧
        (s'.client.connection d).readBuf <:+ (c.connection d).readBuf.drop header.len
  | .poll => ∀ d, frame o (s.client.connection d).readBuf = .incomplete

/-- The headers read in one turn agree: the one at the front of the preferred buffer; if that
is a partial message, the one of the other buffer; and if a message is complete there, the one
of the preferred buffer once the probe has extended it. -/
def HeadersAgree (s : Session σ) (turn : Turn) : Prop :=
  let preferred := (s.client.connection (preferredDirection s.preferHost)).readBuf
  let fallback := (s.client.connection (preferredDirection s.preferHost).reverse).readBuf
  HeaderAgrees o preferred ∧ (frame o preferred = .incomplete →
    HeaderAgrees o fallback ∧ (frame o fallback ≠ .incomplete →
      ∀ bytes fds, turn.probe = .data bytes fds → HeaderAgrees o (preferred ++ bytes)))

end

/-! ## Batches -/

section
variable {σ : Type} {H : Handlers σ} {o : ByteOrder} {d : Direction}

/-- A dispatched message is taken off the front of the buffer. -/
theorem dispatchMessage_eq_some {header : Header} {b b' : Batch σ}
    (h : dispatchMessage H o d header b = some b') :
    b'.buf = b.buf.drop header.len ∧ b'.processedMessages = b.processedMessages + 1 := by
  simp only [dispatchMessage] at h
  split at h
  · contradiction
  · split at h
    · contradiction
    · split_ifs at h with hfds
      obtain rfl := Option.some.inj h
      exact ⟨rfl, rfl⟩

/-- The loop leaves a suffix of the buffer and never forgets a dispatched message. -/
theorem batchLoop_suffix {quantum : ℕ} {b b' : Batch σ}
    (h : batchLoop H o d quantum b = some b') :
    b'.buf <:+ b.buf ∧ b.processedMessages ≤ b'.processedMessages := by
  induction quantum generalizing b with
  | zero =>
    obtain rfl := Option.some.inj h
    exact ⟨List.suffix_refl _, Nat.le_refl _⟩
  | succ quantum ih =>
    simp only [batchLoop] at h
    split at h
    · obtain rfl := Option.some.inj h
      exact ⟨List.suffix_refl _, Nat.le_refl _⟩
    · contradiction
    · rename_i header hframe
      split_ifs at h with hamb
      split at h
      · contradiction
      · rename_i next hnext
        obtain ⟨hbuf, hcount⟩ := dispatchMessage_eq_some hnext
        have hsuffix : next.buf <:+ b.buf := hbuf ▸ List.drop_suffix header.len b.buf
        split_ifs at h with hfatal
        · obtain rfl := Option.some.inj h
          exact ⟨hsuffix, by omega⟩
        · obtain ⟨hrest, hle⟩ := ih h
          exact ⟨hrest.trans hsuffix, by omega⟩

/-- A loop that starts at a framed message and does not reject it consumes it. -/
theorem batchLoop_message {quantum : ℕ} {b b' : Batch σ} {header : Header}
    (hframe : frame o b.buf = .message header)
    (h : batchLoop H o d (quantum + 1) b = some b') :
    b'.buf <:+ b.buf.drop header.len ∧ b.processedMessages < b'.processedMessages := by
  simp only [batchLoop, hframe] at h
  split_ifs at h with hamb
  split at h
  · contradiction
  · rename_i next hnext
    obtain ⟨hbuf, hcount⟩ := dispatchMessage_eq_some hnext
    rw [← hbuf]
    split_ifs at h with hfatal
    · obtain rfl := Option.some.inj h
      exact ⟨List.suffix_refl _, by omega⟩
    · obtain ⟨hrest, hle⟩ := batchLoop_suffix h
      exact ⟨hrest, by omega⟩

theorem batchLoop_incomplete {quantum : ℕ} {b : Batch σ}
    (hframe : frame o b.buf = .incomplete) : batchLoop H o d quantum b = some b := by
  cases quantum with
  | zero => rfl
  | succ quantum => simp only [batchLoop, hframe]

/-- The loop makes progress exactly when its buffer does not start with a partial message. -/
theorem loopProgress_iff {b : Batch σ} : LoopProgress H o d b ↔ frame o b.buf ≠ .incomplete := by
  constructor
  · intro h hframe
    exact absurd (h b (batchLoop_incomplete hframe)) (Nat.lt_irrefl _)
  · intro hframe b' h
    cases hb : frame o b.buf with
    | incomplete => exact absurd hb hframe
    | invalidLength len => simp [maxMessagesPerBatch, batchLoop, hb] at h
    | message header => exact (batchLoop_message hb h).2

/-! ## Turns of the event loop -/

theorem handleMsgs_eq_some {sends : Sends} {c : Client σ} {handled : Handled σ}
    (h : handleMsgs H o d sends c = some handled) :
    ∃ b, batchLoop H o d maxMessagesPerBatch (startBatch H d c) = some b ∧
      (handled.client.connection d).readBuf = b.buf := by
  simp only [handleMsgs] at h
  split at h
  · contradiction
  · rename_i b hb
    obtain rfl := Option.some.inj h
    exact ⟨b, hb, by cases d <;> rfl⟩

theorem dispatchDirection_eq_some {sends : Sends} {c : Client σ} {s' : Session σ}
    (h : dispatchDirection H o sends d c = some s') :
    ∃ b, batchLoop H o d maxMessagesPerBatch (startBatch H d c) = some b ∧
      (s'.client.connection d).readBuf = b.buf := by
  simp only [dispatchDirection] at h
  split at h
  · contradiction
  · rename_i handled hhandled
    split_ifs at h
    obtain rfl := Option.some.inj h
    exact handleMsgs_eq_some hhandled

theorem iterate_buffered {s s' : Session σ} {turn : Turn} {c : Client σ}
    (hnext : nextBufferedDirection o turn.probe s.preferHost s.client = .buffered d c)
    (h : iterate H o s turn = some s') :
    ∃ b, batchLoop H o d maxMessagesPerBatch (startBatch H d c) = some b ∧
      (s'.client.connection d).readBuf = b.buf := by
  simp only [iterate, hnext] at h
  exact dispatchDirection_eq_some h

/-- A turn on a direction whose buffer starts with a partial message leaves it as it is. -/
theorem iterate_spins {s s' : Session σ} {turn : Turn} {c : Client σ}
    (hnext : nextBufferedDirection o turn.probe s.preferHost s.client = .buffered d c)
    (hframe : frame o (c.connection d).readBuf = .incomplete)
    (h : iterate H o s turn = some s') :
    (s'.client.connection d).readBuf = (c.connection d).readBuf := by
  obtain ⟨b, hloop, hbuf⟩ := iterate_buffered hnext h
  have hstart : frame o (startBatch H d c).buf = .incomplete := hframe
  rw [batchLoop_incomplete hstart, Option.some.injEq] at hloop
  rw [hbuf, ← hloop]
  rfl

/-- What each choice of the loop says about the readiness of the buffers. The preferred one is
chosen as it is, or after the probe if it was not ready and the other one was. -/
theorem nextBufferedDirection_spec (probe : Received) (s : Session σ) :
    let preferred := preferredDirection s.preferHost
    let ready := fun d => (s.client.connection d).hasCompleteMessage o
    match nextBufferedDirection o probe s.preferHost s.client with
    | .closed => True
    | .buffered d c => (c.connection d).hasCompleteMessage o = true ∧
        ((c.connection d).readBuf = (s.client.connection d).readBuf ∧
            (d = preferred ∨ d = preferred.reverse ∧ ready preferred = false) ∨
          ready preferred = false ∧ ready preferred.reverse = true ∧
            ∃ bytes fds, probe = .data bytes fds ∧ d = preferred ∧
              (c.connection d).readBuf = (s.client.connection d).readBuf ++ bytes)
    | .poll => ∀ d, ready d = false := by
  dsimp only
  set p := preferredDirection s.preferHost with hp
  have hrev : p.reverse ≠ p := by cases p <;> simp [Direction.reverse]
  simp only [nextBufferedDirection, ← hp]
  by_cases hpref : (s.client.connection p).hasCompleteMessage o = true
  · simp [hpref]
  by_cases hfall : (s.client.connection p.reverse).hasCompleteMessage o = true
  · simp only [hpref, hfall]
    cases probe with
    | wouldBlock => simp [hfall]
    | failed => simp
    | data bytes fds =>
      cases bytes with
      | nil => simp
      | cons byte bytes =>
        simp only [Bool.false_eq_true, if_false, Bool.not_true]
        split_ifs with hext
        · exact ⟨by simpa using hext, .inr ⟨trivial, trivial, _, _, rfl, rfl, by
            simp [WaylandConnection.extend]⟩⟩
        · have hkeep := Client.connection_setConnection_ne s.client hrev
            ((s.client.connection p).extend (byte :: bytes) fds)
          exact ⟨by rw [hkeep]; exact hfall, .inl ⟨by rw [hkeep], .inr ⟨rfl, trivial⟩⟩⟩
  · simp only [hpref, hfall]
    simp only [Bool.false_eq_true, if_false, Bool.not_false, if_true]
    intro d
    have hd : d = p ∨ d = p.reverse := by cases d <;> cases p <;> simp [Direction.reverse]
    rcases hd with rfl | rfl
    · simpa using hpref
    · simpa using hfall

/-- A buffer whose header agrees is not ready exactly while its message is partial. -/
theorem frame_of_headerAgrees {conn : WaylandConnection} (h : HeaderAgrees o conn.readBuf) :
    conn.hasCompleteMessage o = false ↔ frame o conn.readBuf = .incomplete := by
  have hagree := (WaylandConnection.hasCompleteMessage_eq_frame_iff o conn).mpr h
  rw [← Bool.not_eq_true, hagree, not_ne_iff]

/-- Where the headers agree, a turn makes progress. -/
theorem progress_of_headersAgree {s : Session σ} {turn : Turn} (h : HeadersAgree o s turn) :
    Progress H o s turn := by
  obtain ⟨hpreferred, hrest⟩ := h
  have hspec := nextBufferedDirection_spec (o := o) turn.probe s
  unfold Progress
  cases hnext : nextBufferedDirection o turn.probe s.preferHost s.client with
  | closed => trivial
  | poll =>
    simp only [hnext] at hspec
    have hpartial := (frame_of_headerAgrees hpreferred).mp (hspec _)
    intro d
    have hd : d = preferredDirection s.preferHost ∨
        d = (preferredDirection s.preferHost).reverse := by
      cases d <;> cases s.preferHost <;> simp [preferredDirection, Direction.reverse]
    rcases hd with rfl | rfl
    · exact hpartial
    · exact (frame_of_headerAgrees (hrest hpartial).1).mp (hspec _)
  | buffered d c =>
    simp only [hnext] at hspec
    obtain ⟨hready, hbuf⟩ := hspec
    have hagree : HeaderAgrees o (c.connection d).readBuf := by
      rcases hbuf with ⟨hbuf, rfl | ⟨rfl, hpref⟩⟩ | ⟨hpref, hfall, bytes, fds, hprobe, rfl, hbuf⟩
      · rwa [hbuf]
      · rw [hbuf]
        exact (hrest ((frame_of_headerAgrees hpreferred).mp hpref)).1
      · rw [hbuf]
        obtain ⟨hfallback, hextended⟩ := hrest ((frame_of_headerAgrees hpreferred).mp hpref)
        refine hextended ?_ bytes fds hprobe
        rwa [ne_eq, ← frame_of_headerAgrees hfallback, Bool.not_eq_false]
    have hframe : frame o (c.connection d).readBuf ≠ .incomplete :=
      ((WaylandConnection.hasCompleteMessage_eq_frame_iff o _).mpr hagree).mp hready
    intro s' hs'
    obtain ⟨b, hloop, hb⟩ := iterate_buffered hnext hs'
    cases hhead : frame o (c.connection d).readBuf with
    | incomplete => exact absurd hhead hframe
    | invalidLength len =>
      have hstart : frame o (startBatch H d c).buf = .invalidLength len := hhead
      simp [maxMessagesPerBatch, batchLoop, hstart] at hloop
    | message header =>
      have hstart : frame o (startBatch H d c).buf = .message header := hhead
      exact ⟨header, rfl, hb ▸ (batchLoop_message hstart hloop).1⟩

end

/-- The readiness test and the framing loop agree on a buffer exactly when its opcode
and its length do; in every reachable state, a turn whose headers agree does not spin and
leaves no complete message waiting in a poll. -/
theorem readiness_and_progress {σ : Type} (H : Handlers σ) (o : ByteOrder) :
    (∀ (d : Direction) (conn : WaylandConnection) (b : Batch σ), b.buf = conn.readBuf →
      ((conn.hasCompleteMessage o = true ↔ LoopProgress H o d b) ↔
        HeaderAgrees o conn.readBuf)) ∧
    ∀ (ctx : σ) (s : Session σ) (turn : Turn),
      (session H o ctx).Reachable s → HeadersAgree o s turn → Progress H o s turn := by
  refine ⟨fun d conn b hb => ?_, fun ctx s turn _ h => progress_of_headersAgree h⟩
  rw [loopProgress_iff, hb]
  exact WaylandConnection.hasCompleteMessage_eq_frame_iff o conn

/-! ## A context without objects -/

/-- A context that tracks no object: requests are rejected, events are skipped. -/
def untracked : Handlers Unit where
  getGuestId _ _ := none
  getHostId _ _ := none
  getInterface _ _ := none
  getHostInterface _ _ := none
  pendingHostEventIsStale _ _ _ _ := false
  dispatchRequest ctx _ _ := { ctx, offset := 0, fdOffset := 0, result := .ok none }
  dispatchEvent ctx _ _ := { ctx, offset := 0, fdOffset := 0, result := .ok none }
  consumeEvent _ _ := { offset := 0, fdOffset := 0, result := .ok () }
  setLastSenderId ctx _ := ctx
  fatalProtocolError _ := false
  takeQueue _ ctx := ([], ctx)
  reapClipboardPumps ctx := ctx
  clearFeedbackRefreshPending ctx := ctx

/-- A session whose host buffer holds `bytes` after a poll of the host. -/
def bufferedEvent (bytes : List UInt8) : Session Unit :=
  ⟨⟨.new, { WaylandConnection.new with readBuf := bytes }, ()⟩, false⟩

/-- A turn in which only a poll of the host receives anything. -/
def hostTurn (bytes : List UInt8) : Turn :=
  ⟨.wouldBlock, (.hostToClient, some (bytes, [])), ⟨true, true⟩⟩

/-- Eight bytes of a twelve-byte event with opcode zero. -/
def partialEvent : List UInt8 := [77, 0, 0, 0, 0, 0, 12, 0]

/-- A whole eight-byte event with opcode twelve. -/
def completeEvent : List UInt8 := [77, 0, 0, 0, 12, 0, 8, 0]

theorem readiness_and_progress_big_endian :
    ((bufferedEvent partialEvent).client.hostConn.hasCompleteMessage .big = true ↔
      LoopProgress untracked .big .hostToClient
        (startBatch untracked .hostToClient (bufferedEvent partialEvent).client)) ∧
    Progress untracked .big ⟨⟨.new, .new, ()⟩, true⟩ (hostTurn partialEvent) := by
  refine ⟨((readiness_and_progress untracked .big).1 .hostToClient
    (bufferedEvent partialEvent).client.hostConn _ rfl).mpr (.inl rfl), ?_⟩
  exact (readiness_and_progress untracked .big).2 () _ (hostTurn partialEvent) (.init rfl)
    ⟨.inl rfl, fun _ => ⟨.inl rfl, fun _ _ _ _ => .inl rfl⟩⟩

/-- A partial message with opcode zero is taken for complete, and a turn in the state it
leaves makes no progress; a complete message with opcode twelve is taken for partial. -/
theorem readiness_misreads_opcode :
    (session untracked .little ()).Reachable (bufferedEvent partialEvent) ∧
    ¬ Progress untracked .little (bufferedEvent partialEvent) (hostTurn []) ∧
    iterate untracked .little (bufferedEvent partialEvent) (hostTurn []) =
      some (bufferedEvent partialEvent) ∧
    (¬ ((bufferedEvent partialEvent).client.hostConn.hasCompleteMessage .little = true ↔
      LoopProgress untracked .little .hostToClient
        (startBatch untracked .hostToClient (bufferedEvent partialEvent).client))) ∧
    ¬ ((bufferedEvent completeEvent).client.hostConn.hasCompleteMessage .little = true ↔
      LoopProgress untracked .little .hostToClient
        (startBatch untracked .hostToClient (bufferedEvent completeEvent).client)) := by
  have hreach : (session untracked .little ()).Reachable (bufferedEvent partialEvent) :=
    .step (i := hostTurn partialEvent) (.init rfl) trivial rfl
  have hpartial : frame .little partialEvent = .incomplete := by decide
  have hspin : iterate untracked .little (bufferedEvent partialEvent) (hostTurn []) =
      some (bufferedEvent partialEvent) := rfl
  refine ⟨hreach, ?_, hspin, ?_, ?_⟩
  · intro h
    obtain ⟨header, hmsg, -⟩ := h _ hspin
    have : Frame.incomplete = .message header := hpartial.symm.trans hmsg
    contradiction
  · rw [loopProgress_iff]
    exact fun h => h.mp (by decide) hpartial
  · rw [loopProgress_iff]
    have hcomplete : frame .little completeEvent ≠ .incomplete := by decide
    intro h
    exact absurd (h.mpr hcomplete) (by decide)

end Sommelier
