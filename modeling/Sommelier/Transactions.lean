import Mathlib.Data.List.Nodup
import Sommelier.Connection
import Sommelier.Lib.Transition
import Sommelier.Transport

/-!
# VirtWL transactions

The receiving side of a VirtWL channel, and the channel as a whole. The device is not trusted: a
transaction it hands over may be too large, and its descriptors may be malformed. Whatever it
returns is owned or closed.

## Main definitions

* `ownedFdsFromTxn`, `recvMessage`: take over what the device hands over.
* `ioctlNew`: take over a descriptor the device made.
* `virtwlLink`: one side sends, the device numbers the descriptors anew, the other side receives.

## Main results

* `txn_custody`: a descriptor is owned or closed once, and only packed arrays are accepted.
* `virtwl_stream`: the bytes and descriptors arrive as they were sent, and no byte of a buffer
  arrives before the descriptors of that buffer.
-/
namespace Sommelier

/-! ## Receiving -/

/-- The numbers that are closed of a transaction, each once. -/
def closeRawFds (fds : List RawFd) : List RawFd := closeReceivedFds [] fds

/-- The loop of `ownedFdsFromTxn`; the received descriptors are also those seen. -/
def ownedFdsLoop (rawFds : List RawFd) : Bool → List RawFd → List RawFd → ControlResult
  | _, received, [] => ⟨[], .ok received⟩
  | packed, received, fd :: fds =>
    if fd = -1 then ownedFdsLoop rawFds false received fds
    else if fd < -1 then
      ⟨closeRawFds rawFds, .error (.invalidData "invalid negative virtwl file descriptor")⟩
    else if !packed || decide (fd ∈ received) then
      ⟨closeRawFds rawFds, .error (.invalidData "malformed virtwl file descriptor array")⟩
    else ownedFdsLoop rawFds packed (received ++ [fd]) fds

def ownedFdsFromTxn (rawFds : List RawFd) : ControlResult := ownedFdsLoop rawFds true [] rawFds

/-- What comes of asking the device for a transaction. It may have written descriptors although
it failed. -/
inductive RecvResult
  | failed (e : IoError) (fds : List RawFd)
  | received (txn : Txn)
  deriving DecidableEq, Repr

/-- The descriptors the device wrote. -/
def RecvResult.fds : RecvResult → List RawFd
  | failed _ fds => fds
  | received txn => txn.fds

/-- The descriptors that were closed, and the chunk or the error. The buffer behind the header is
zero where the device wrote nothing. -/
def recvMessage : RecvResult → List RawFd × Except IoError Chunk
  | .failed e fds => (closeRawFds fds, .error e)
  | .received txn =>
    if maxSendSize < txn.len then
      (closeRawFds txn.fds, .error (.invalidData "Received data too large"))
    else
      let buffer := txn.data ++ List.replicate (maxSendSize - txn.data.length) 0
      match ownedFdsFromTxn txn.fds with
      | ⟨closed, .error e⟩ => (closed, .error e)
      | ⟨closed, .ok fds⟩ => (closed, .ok ⟨buffer.take txn.len, fds⟩)

/-- The descriptors at the front of the array, each once, and -1 behind them. -/
def Packed (fds rawFds : List RawFd) : Prop :=
  (∃ k, rawFds = fds ++ List.replicate k (-1)) ∧ fds.Nodup ∧ ∀ fd ∈ fds, 0 ≤ fd

variable {rawFds fds : List RawFd}

/-- Behind the descriptors nothing but -1 is accepted. -/
theorem ownedFdsLoop_unpacked (rawFds received fds : List RawFd) :
    (∃ k, fds = List.replicate k (-1)) ∧
      ownedFdsLoop rawFds false received fds = ⟨[], .ok received⟩ ∨
    (∀ k, fds ≠ List.replicate k (-1)) ∧
      ∃ e, ownedFdsLoop rawFds false received fds = ⟨closeRawFds rawFds, .error e⟩ := by
  induction fds with
  | nil => exact .inl ⟨⟨0, rfl⟩, rfl⟩
  | cons fd fds ih =>
    unfold ownedFdsLoop
    by_cases hfd : fd = -1
    · subst hfd
      rw [if_pos rfl]
      rcases ih with ⟨⟨k, rfl⟩, hok⟩ | ⟨hnot, herror⟩
      · exact .inl ⟨⟨k + 1, rfl⟩, hok⟩
      · refine .inr ⟨fun k hk => ?_, herror⟩
        cases k with
        | zero => simp at hk
        | succ k => exact hnot k (List.cons.inj hk).2
    · rw [if_neg hfd]
      refine .inr ⟨fun k hk => ?_, ?_⟩
      · cases k with
        | zero => simp at hk
        | succ k => exact hfd (List.cons.inj hk).1
      · by_cases hneg : fd < -1
        · exact ⟨_, if_pos hneg⟩
        · rw [if_neg hneg]
          exact ⟨_, rfl⟩

/-- What is not a descriptor of a packed array is -1. -/
theorem Packed.filter_eq (h : Packed fds rawFds) : rawFds.filter (0 ≤ ·) = fds := by
  obtain ⟨⟨k, rfl⟩, -, hpos⟩ := h
  rw [List.filter_append, List.filter_eq_self.mpr (by simpa using hpos)]
  simp

theorem Packed.of_mem (h : Packed fds rawFds) (fd : RawFd) (hfd : fd ∈ rawFds) :
    0 ≤ fd ∨ fd = -1 := by
  obtain ⟨⟨k, rfl⟩, -, hpos⟩ := h
  rcases List.mem_append.mp hfd with hfd | hfd
  · exact .inl (hpos fd hfd)
  · exact .inr (List.eq_of_mem_replicate hfd)

theorem nonneg_iff {n : ℤ} (hend : n ≠ -1) : 0 ≤ n ↔ ¬ n < -1 := by omega

/-- The array is packed and its descriptors are taken over, or all of them are closed. -/
theorem ownedFdsLoop_packed (rawFds received fds : List RawFd) (hnodup : received.Nodup)
    (hpos : ∀ fd ∈ received, 0 ≤ fd) :
    (∃ owned, Packed owned (received ++ fds) ∧
      ownedFdsLoop rawFds true received fds = ⟨[], .ok owned⟩) ∨
    (∀ owned, ¬ Packed owned (received ++ fds)) ∧
      ∃ e, ownedFdsLoop rawFds true received fds = ⟨closeRawFds rawFds, .error e⟩ := by
  induction fds generalizing received with
  | nil => exact .inl ⟨received, ⟨⟨0, by simp⟩, hnodup, hpos⟩, rfl⟩
  | cons fd fds ih =>
    unfold ownedFdsLoop
    by_cases hend : fd = -1
    · subst hend
      rw [if_pos rfl]
      rcases ownedFdsLoop_unpacked rawFds received fds with ⟨⟨k, rfl⟩, hok⟩ | ⟨hnot, herror⟩
      · exact .inl ⟨received, ⟨⟨k + 1, rfl⟩, hnodup, hpos⟩, hok⟩
      · refine .inr ⟨fun owned hpacked => ?_, herror⟩
        have hfilter := hpacked.filter_eq
        obtain ⟨⟨k, hk⟩, -, -⟩ := hpacked
        rw [List.filter_append, List.filter_eq_self.mpr (by simpa using hpos)] at hfilter
        rw [← hfilter, List.append_assoc, List.append_cancel_left_eq] at hk
        -- the array goes on with -1, so that no descriptor is behind it
        cases hrest : ((-1 :: fds).filter (0 ≤ ·) : List RawFd) with
        | nil =>
          rw [hrest, List.nil_append] at hk
          cases k with
          | zero => simp at hk
          | succ k => exact hnot k (List.cons.inj hk).2
        | cons fd rest =>
          rw [hrest] at hk
          have hmem : fd ∈ (-1 :: fds).filter (0 ≤ ·) := by simp [hrest]
          rw [← (List.cons.inj hk).1] at hmem
          simp at hmem
    · rw [if_neg hend]
      by_cases hneg : fd < -1
      · rw [if_pos hneg]
        refine .inr ⟨fun owned hpacked => ?_, _, rfl⟩
        rcases hpacked.of_mem fd (by simp) with hfd | hfd
        · exact (nonneg_iff hend).mp hfd hneg
        · exact hend hfd
      · rw [if_neg hneg]
        by_cases hseen : fd ∈ received
        · rw [if_pos (by simp [hseen])]
          refine .inr ⟨fun owned hpacked => ?_, _, rfl⟩
          have hfilter := hpacked.filter_eq
          have hdup := hpacked.2.1
          rw [← hfilter, List.filter_append, List.nodup_append] at hdup
          have hfd := hpos fd hseen
          exact hdup.2.2 fd (by simp [hseen, hfd]) fd (by simp [hfd]) rfl
        · rw [if_neg (by simp [hseen])]
          have hnodup' : (received ++ [fd]).Nodup := by
            rw [List.nodup_append]
            exact ⟨hnodup, by simp, fun a ha b hb => by
              rw [List.mem_singleton.mp hb]
              exact fun heq => hseen (heq ▸ ha)⟩
          have hpos' : ∀ fd' ∈ received ++ [fd], 0 ≤ fd' := by
            intro fd' hfd'
            rcases List.mem_append.mp hfd' with hfd' | hfd'
            · exact hpos fd' hfd'
            · rw [List.mem_singleton.mp hfd']
              exact (nonneg_iff hend).mpr hneg
          simpa using ih (received ++ [fd]) hnodup' hpos'

theorem ownedFdsFromTxn_cases (rawFds : List RawFd) :
    (∃ owned, Packed owned rawFds ∧ ownedFdsFromTxn rawFds = ⟨[], .ok owned⟩) ∨
    (∀ owned, ¬ Packed owned rawFds) ∧
      ∃ e, ownedFdsFromTxn rawFds = ⟨closeRawFds rawFds, .error e⟩ := by
  simpa [ownedFdsFromTxn] using ownedFdsLoop_packed rawFds [] rawFds (by simp) (by simp)

/-- A received transaction is within the limits and its descriptors are owned, or every descriptor
that was written is closed, once. -/
theorem recvMessage_cases (r : RecvResult) :
    (∃ txn owned, r = .received txn ∧ txn.len ≤ maxSendSize ∧ Packed owned txn.fds ∧
      recvMessage r = ([], .ok ⟨(txn.data ++ List.replicate (maxSendSize - txn.data.length)
        0).take txn.len, owned⟩)) ∨
    (∀ txn owned, r = .received txn → txn.len ≤ maxSendSize → ¬ Packed owned txn.fds) ∧
      ∃ e, recvMessage r = (closeRawFds r.fds, .error e) := by
  cases r with
  | failed e fds => exact .inr ⟨by simp, e, rfl⟩
  | received txn =>
    by_cases hlen : maxSendSize < txn.len
    · refine .inr ⟨?_, _, if_pos hlen⟩
      rintro txn' owned heq hle
      obtain rfl := RecvResult.received.inj heq
      omega
    · rcases ownedFdsFromTxn_cases txn.fds with ⟨owned, hpacked, hok⟩ | ⟨hnot, e, herror⟩
      · refine .inl ⟨txn, owned, rfl, Nat.le_of_not_lt hlen, hpacked, ?_⟩
        simp only [recvMessage, if_neg hlen, hok]
      · refine .inr ⟨?_, e, ?_⟩
        · rintro txn' owned heq -
          obtain rfl := RecvResult.received.inj heq
          exact hnot owned
        · simp only [recvMessage, if_neg hlen, herror]
          rfl

/-! ## New objects -/

/-- What the allocating calls report. -/
inductive AllocError
  | io (e : IoError)
  | other (message : String)
  deriving DecidableEq, Repr

/-- `virtwl_ioctl_new` as the device left it. It may have made a descriptor although it failed. -/
structure NewIoctl where
  outcome : Except IoError Unit
  fd : RawFd
  stride0 : ℕ

/-- The descriptor the device made, if it made one. -/
def NewIoctl.made (r : NewIoctl) : List RawFd := if 0 ≤ r.fd then [r.fd] else []

/-- The call succeeded and returned a descriptor. -/
def NewIoctl.usable (r : NewIoctl) : Bool :=
  match r.outcome with
  | .ok () => decide (0 ≤ r.fd)
  | .error _ => false

/-- The numbers that are closed of a returned descriptor. -/
def closeReturnedFd (fd : RawFd) : List RawFd := if 0 ≤ fd then [fd] else []

namespace VirtWaylandChannel

/-- Take over the descriptor of a new object: what is closed, and the owned one. -/
def ioctlNew (r : NewIoctl) (invalidFd : String) : List RawFd × Except AllocError RawFd :=
  match r.outcome with
  | .error e => (closeReturnedFd r.fd, .error (.io e))
  | .ok () => if r.fd < 0 then ([], .error (.other invalidFd)) else ([], .ok r.fd)

def allocate (r : NewIoctl) : List RawFd × Except AllocError RawFd :=
  ioctlNew r "Invalid fd returned from VIRTWL_IOCTL_NEW_ALLOC"

def createPipe (r : NewIoctl) : List RawFd × Except AllocError RawFd :=
  ioctlNew r "Invalid fd returned from VIRTWL_IOCTL_NEW_PIPE"

/-- A new dma-buf of which the device returned no usable layout is closed. -/
def allocateDmabuf (width height : ℕ) (r : NewIoctl) : List RawFd × Except AllocError RawFd :=
  if width = 0 ∨ height = 0 then
    ([], .error (.io (.invalidInput "VirtWL dma-buf dimensions must be non-zero")))
  else
    match ioctlNew r "Invalid fd returned from VIRTWL_IOCTL_NEW_DMABUF" with
    | (closed, .error e) => (closed, .error e)
    | (closed, .ok fd) =>
      if r.stride0 = 0 then
        (closed ++ closeReturnedFd fd,
          .error (.io (.invalidData "VirtWL dma-buf returned a zero plane-0 stride")))
      else (closed, .ok fd)

/-- `ENOTTY` -/
def enotty : ℕ := 25

def dmabufProbeSupported (errno : ℕ) : Bool := errno != enotty

/-- The channel: its context and whether it can allocate dma-bufs. The descriptor of the probe is
closed; `flags` is what comes of making the context not block. -/
def new (ctx probe : NewIoctl) (flags : Except IoError Unit) :
    List RawFd × Except AllocError (RawFd × Bool) :=
  match ioctlNew ctx "Invalid fd returned from VIRTWL_IOCTL_NEW_CTX" with
  | (closed, .error e) => (closed, .error e)
  | (closed, .ok ctxFd) =>
    let supportsDmabuf := match probe.outcome with
      | .ok () => decide (0 ≤ probe.fd)
      | .error (.os errno) => dmabufProbeSupported errno
      | .error _ => true
    let closed := closed ++ closeReturnedFd probe.fd
    match flags with
    | .error e => (closed ++ [ctxFd], .error (.io e))
    | .ok () => (closed, .ok (ctxFd, supportsDmabuf))

/-- The descriptor that is owned. -/
def ownedFd : Except AllocError RawFd → List RawFd
  | .ok fd => [fd]
  | .error _ => []

/-- The descriptors of a channel that is made. -/
def owned : Except AllocError (RawFd × Bool) → List RawFd
  | .ok (fd, _) => [fd]
  | .error _ => []

/-- What is owned and what is closed of a call, in the two ways it can end. -/
theorem ioctlNew_cases (r : NewIoctl) (invalidFd : String) :
    (r.usable = true ∧ r.made = [r.fd] ∧ ioctlNew r invalidFd = ([], .ok r.fd)) ∨
      r.usable = false ∧ ∃ e, ioctlNew r invalidFd = (r.made, .error e) := by
  unfold ioctlNew NewIoctl.made NewIoctl.usable
  cases r.outcome with
  | error e => exact .inr ⟨rfl, _, rfl⟩
  | ok _ =>
    dsimp only
    by_cases hfd : r.fd < 0
    · rw [if_pos hfd, if_neg (Int.not_le.mpr hfd)]
      exact .inr ⟨decide_eq_false (Int.not_le.mpr hfd), _, rfl⟩
    · rw [if_neg hfd, if_pos (Int.not_lt.mp hfd)]
      exact .inl ⟨decide_eq_true (Int.not_lt.mp hfd), rfl, rfl⟩

theorem ioctlNew_made (r : NewIoctl) (invalidFd : String) :
    (ioctlNew r invalidFd).1 ++ ownedFd (ioctlNew r invalidFd).2 = r.made := by
  rcases ioctlNew_cases r invalidFd with ⟨-, hmade, hok⟩ | ⟨-, e, herror⟩
  · rw [hok, hmade]
    rfl
  · rw [herror]
    exact List.append_nil _

theorem allocateDmabuf_made (width height : ℕ) (r : NewIoctl) :
    (allocateDmabuf width height r).1 ++ ownedFd (allocateDmabuf width height r).2 =
      if width = 0 ∨ height = 0 then [] else r.made := by
  unfold allocateDmabuf
  by_cases hzero : width = 0 ∨ height = 0
  · rw [if_pos hzero, if_pos hzero]
    rfl
  · rw [if_neg hzero, if_neg hzero]
    rcases ioctlNew_cases r "Invalid fd returned from VIRTWL_IOCTL_NEW_DMABUF" with
      ⟨-, hmade, hok⟩ | ⟨-, e, herror⟩
    · simp only [hok]
      split_ifs
      · exact List.append_nil _
      · exact hmade.symm
    · rw [herror]
      exact List.append_nil _

/-- The descriptors of the channel: the probe is made only when there is a context. -/
theorem new_made (ctx probe : NewIoctl) (flags : Except IoError Unit) :
    ((new ctx probe flags).1 ++ owned (new ctx probe flags).2).Perm
      (ctx.made ++ if ctx.usable then probe.made else []) := by
  unfold new
  rcases ioctlNew_cases ctx "Invalid fd returned from VIRTWL_IOCTL_NEW_CTX" with
    ⟨husable, hmade, hok⟩ | ⟨husable, e, herror⟩
  · simp only [hok, husable, hmade, if_true]
    cases flags with
    | error e =>
      simp only [owned, List.append_nil, List.nil_append]
      exact List.perm_append_comm
    | ok _ => exact List.perm_append_comm
  · simp only [herror, husable]
    rfl

end VirtWaylandChannel

open VirtWaylandChannel

/-- Whatever the device returns, each descriptor it made is owned by one result or closed once. A
transaction is taken over exactly if it is within the limit of the buffer and its descriptors are
packed: then it keeps all of them, and otherwise none. -/
theorem txn_custody (r : RecvResult) (n probe : NewIoctl) (width height : ℕ)
    (flags : Except IoError Unit) :
    ((∃ chunk, (recvMessage r).2 = .ok chunk) ↔
      ∃ txn owned, r = .received txn ∧ txn.len ≤ maxSendSize ∧ Packed owned txn.fds) ∧
    (∀ chunk, (recvMessage r).2 = .ok chunk → (recvMessage r).1 = [] ∧
      Packed chunk.fds r.fds ∧ chunk.bytes.length ≤ maxSendSize) ∧
    (∀ e, (recvMessage r).2 = .error e → ClosedOnce (recvMessage r).1 r.fds) ∧
    (allocate n).1 ++ ownedFd (allocate n).2 = n.made ∧
    (createPipe n).1 ++ ownedFd (createPipe n).2 = n.made ∧
    (allocateDmabuf width height n).1 ++ ownedFd (allocateDmabuf width height n).2 =
      (if width = 0 ∨ height = 0 then [] else n.made) ∧
    ((VirtWaylandChannel.new n probe flags).1 ++
      owned (VirtWaylandChannel.new n probe flags).2).Perm
        (n.made ++ if n.usable then probe.made else []) := by
  refine ⟨?_, ?_, ?_, ioctlNew_made .., ioctlNew_made .., allocateDmabuf_made .., new_made ..⟩
  · rcases recvMessage_cases r with ⟨txn, owned, rfl, hlen, hpacked, hok⟩ | ⟨hnot, e, herror⟩
    · exact iff_of_true ⟨_, by rw [hok]⟩ ⟨txn, owned, rfl, hlen, hpacked⟩
    · refine iff_of_false (by simp [herror]) ?_
      rintro ⟨txn, owned, heq, hlen, hpacked⟩
      exact hnot txn owned heq hlen hpacked
  · intro chunk hchunk
    rcases recvMessage_cases r with ⟨txn, owned, rfl, hlen, hpacked, hok⟩ | ⟨-, e, herror⟩
    · rw [hok] at hchunk ⊢
      obtain rfl := Except.ok.inj hchunk
      refine ⟨rfl, hpacked, ?_⟩
      rw [List.length_take]
      exact Nat.le_trans (Nat.min_le_left ..) hlen
    · simp [herror] at hchunk
  · intro e he
    rcases recvMessage_cases r with ⟨txn, owned, rfl, hlen, hpacked, hok⟩ | ⟨-, e', herror⟩
    · simp [hok] at he
    · rw [herror]
      exact closedOnce_closeReceivedFds _

/-! ## The channel as a whole -/

/-- A transaction as the other side gets it: the device numbers the descriptors anew. -/
def Txn.renumber (numbers : RawFd → RawFd) (txn : Txn) : Txn :=
  { txn with fds := txn.fds.map fun fd => if fd = -1 then -1 else numbers fd }

/-- A sender, the device and a receiver that dispatches what it has received. A buffer that was
sent is recorded with the numbers its descriptors have at the receiver. -/
structure VirtwlLink where
  sent : List Chunk
  inFlight : List Txn
  receiver : WaylandConnection
  dispatched : Chunk

inductive LinkInput
  | send (buffer : Chunk) (numbers : RawFd → RawFd) (results : List IoctlResult)
  | recv
  | dispatch (bytes fds : ℕ)

namespace VirtwlLink

def new : VirtwlLink where
  sent := []
  inFlight := []
  receiver := .new
  dispatched := ⟨[], []⟩

/-- The session goes on unless a transport fails. -/
def step (l : VirtwlLink) : LinkInput → Option VirtwlLink
  | .send buffer numbers results =>
    match virtwlSend buffer.bytes buffer.fds results with
    | (some (.ok ()), txns) => some { l with
        sent := l.sent ++ [⟨buffer.bytes, buffer.fds.map numbers⟩]
        inFlight := l.inFlight ++ txns.map (Txn.renumber numbers) }
    | _ => none
  | .recv =>
    match l.inFlight with
    | [] => some l
    | txn :: inFlight =>
      match recvMessage (.received txn) with
      | (_, .error _) => none
      | (_, .ok chunk) => some { l with
          inFlight
          receiver := l.receiver.extend chunk.bytes chunk.fds }
  | .dispatch bytes fds => some { l with
      receiver := { l.receiver with
        readBuf := l.receiver.readBuf.drop bytes
        readFds := l.receiver.readFds.drop fds }
      dispatched := ⟨l.dispatched.bytes ++ l.receiver.readBuf.take bytes,
        l.dispatched.fds ++ l.receiver.readFds.take fds⟩ }

/-- All bytes and descriptors that have arrived. -/
def arrived (l : VirtwlLink) : Chunk :=
  ⟨l.dispatched.bytes ++ l.receiver.readBuf, l.dispatched.fds ++ l.receiver.readFds⟩

end VirtwlLink

/-- The buffers have descriptors, and the receiver gets descriptors. -/
def LinkInput.HasFds : LinkInput → Prop
  | .send buffer numbers _ => (∀ fd ∈ buffer.fds, 0 ≤ fd ∧ 0 ≤ numbers fd) ∧
      (buffer.fds.map numbers).Nodup
  | _ => True

def virtwlLink : TransitionSystem VirtwlLink LinkInput where
  init l := l = .new
  step := VirtwlLink.step

/-! ### Chunks -/

/-- A chunk the device can carry. -/
def Chunk.Carried (c : Chunk) : Prop :=
  c.bytes.length ≤ maxSendSize ∧ c.fds.length ≤ virtwlSendMaxAllocs ∧ c.fds.Nodup ∧
    ∀ fd ∈ c.fds, 0 ≤ fd

/-- A chunk arrives as it was handed over. -/
theorem recvMessage_txnOf {c : Chunk} (hc : c.Carried) :
    recvMessage (.received (txnOf c)) = ([], .ok c) := by
  obtain ⟨hbytes, hcount, hnodup, hpos⟩ := hc
  have hlen : (txnOf c).len = c.bytes.length := by
    have hsmall : maxSendSize < 2 ^ 32 := by decide
    exact Nat.mod_eq_of_lt (Nat.lt_of_le_of_lt hbytes hsmall)
  have hpacked : Packed c.fds (txnOf c).fds := ⟨⟨_, rfl⟩, hnodup, hpos⟩
  rcases recvMessage_cases (.received (txnOf c)) with
    ⟨txn, owned, heq, -, howned, hok⟩ | ⟨hnot, -⟩
  · obtain rfl := RecvResult.received.inj heq
    rw [hok, hlen, ← howned.filter_eq, hpacked.filter_eq]
    simp [txnOf]
  · exact absurd hpacked (hnot _ _ rfl (hlen ▸ hbytes))

theorem renumber_txnOf (numbers : RawFd → RawFd) {c : Chunk} (hpos : ∀ fd ∈ c.fds, 0 ≤ fd) :
    (txnOf c).renumber numbers = txnOf ⟨c.bytes, c.fds.map numbers⟩ := by
  have hfds : (c.fds.map fun fd => if fd = -1 then -1 else numbers fd) = c.fds.map numbers := by
    refine List.map_congr_left fun fd hfd => if_neg ?_
    rintro rfl
    exact absurd (hpos _ hfd) (by decide)
  simp [Txn.renumber, txnOf, hfds]

/-- The pieces of a buffer whose descriptors have other numbers. -/
theorem virtwlChunks_map (numbers : RawFd → RawFd) (data : List UInt8) (fds : List RawFd) :
    virtwlChunks data (fds.map numbers) =
      (virtwlChunks data fds).map fun c => ⟨c.bytes, c.fds.map numbers⟩ := by
  unfold virtwlChunks
  rw [List.map_map]
  refine List.map_congr_left fun piece _ => ?_
  by_cases hfirst : piece.2 = 0 <;> simp [hfirst]

theorem carried_virtwlChunks (data : List UInt8) (hcount : fds.length ≤ virtwlSendMaxAllocs)
    (hnodup : fds.Nodup) (hpos : ∀ fd ∈ fds, 0 ≤ fd) : ∀ c ∈ virtwlChunks data fds, c.Carried := by
  intro c hc
  refine ⟨length_bytes_virtwlChunks hc, ?_⟩
  obtain ⟨piece, -, rfl⟩ := List.mem_map.mp hc
  by_cases hfirst : piece.2 = 0
  · simpa [hfirst] using ⟨hcount, hnodup, hpos⟩
  · simp [hfirst]

/-! ### Runs -/

namespace VirtwlLink
variable {l l' : VirtwlLink}

/-- All pieces that were handed over, in order. -/
def pieces (l : VirtwlLink) : List Chunk := l.sent.flatMap fun b => virtwlChunks b.bytes b.fds

/-- The first pieces have arrived, and the device has the others. -/
structure Carries (l : VirtwlLink) (done left : List Chunk) : Prop where
  pieces : l.pieces = done ++ left
  bytes : l.arrived.bytes = done.flatMap Chunk.bytes
  fds : l.arrived.fds = done.flatMap Chunk.fds
  inFlight : l.inFlight = left.map txnOf
  carried : ∀ c ∈ left, c.Carried

theorem carries_new : new.Carries [] [] := ⟨rfl, rfl, rfl, rfl, by simp⟩

/-- A send that succeeds has handed over every piece. -/
theorem virtwlSend_ok {data : List UInt8} {results : List IoctlResult} {txns : List Txn}
    (h : virtwlSend data fds results = (some (.ok ()), txns)) :
    fds.length ≤ virtwlSendMaxAllocs ∧ txns = (virtwlChunks data fds).map txnOf := by
  unfold virtwlSend at h
  by_cases hmany : fds.length > virtwlSendMaxAllocs
  · rw [if_pos hmany] at h
    simp at h
  · rw [if_neg hmany] at h
    have hspec := (sendChunks_spec (virtwlChunks data fds) results).2
    rw [h] at hspec
    exact ⟨Nat.le_of_not_lt hmany, hspec rfl⟩

/-- One input carries pieces on. -/
theorem Carries.step {done left : List Chunk} {i : LinkInput} (hl : l.Carries done left)
    (hi : i.HasFds) (h' : l.step i = some l') :
    ∃ done' left', l'.Carries done' left' := by
  cases i with
  | send buffer numbers results =>
    obtain ⟨hpos, hnodup⟩ := hi
    unfold VirtwlLink.step at h'
    dsimp only at h'
    rcases hsend : virtwlSend buffer.bytes buffer.fds results with ⟨_ | ⟨_ | _⟩, txns⟩
    · simp [hsend] at h'
    · simp [hsend] at h'
    · obtain ⟨hcount, htxns⟩ := virtwlSend_ok hsend
      simp only [hsend, Option.some.injEq] at h'
      subst h'
      have hnumbers : ∀ fd ∈ buffer.fds.map numbers, 0 ≤ fd := by
        intro fd hfd
        obtain ⟨fd', hfd', rfl⟩ := List.mem_map.mp hfd
        exact (hpos fd' hfd').2
      refine ⟨done, left ++ virtwlChunks buffer.bytes (buffer.fds.map numbers), ?_, hl.bytes,
        hl.fds, ?_, ?_⟩
      · have hpieces := hl.pieces
        simp only [VirtwlLink.pieces, List.flatMap_append, List.flatMap_singleton] at hpieces ⊢
        rw [hpieces, List.append_assoc]
      · dsimp only
        rw [hl.inFlight, htxns, virtwlChunks_map, List.map_append, List.map_map, List.map_map]
        congr 1
        have hcarried := carried_virtwlChunks buffer.bytes hcount
          (List.Nodup.of_map _ hnodup) fun fd hfd => (hpos fd hfd).1
        exact List.map_congr_left fun c hc => renumber_txnOf numbers (hcarried c hc).2.2.2
      · intro c hc
        rcases List.mem_append.mp hc with hc | hc
        · exact hl.carried c hc
        · exact carried_virtwlChunks _ (by simpa using hcount) hnodup hnumbers c hc
  | recv =>
    unfold VirtwlLink.step at h'
    have hflight := hl.inFlight
    cases left with
    | nil =>
      simp only [hflight, List.map_nil, Option.some.injEq] at h'
      exact ⟨done, [], h' ▸ hl⟩
    | cons c left =>
      have hcarried := hl.carried c (by simp)
      simp only [hflight, List.map_cons, recvMessage_txnOf hcarried, Option.some.injEq] at h'
      subst h'
      refine ⟨done ++ [c], left, ?_, ?_, ?_, rfl, fun c' hc' => hl.carried c' (by simp [hc'])⟩
      · rw [List.append_assoc]
        exact hl.pieces
      · have hbytes := hl.bytes
        simp only [arrived, WaylandConnection.extend, List.flatMap_append,
          List.flatMap_singleton] at hbytes ⊢
        rw [← hbytes, List.append_assoc]
      · have hfds := hl.fds
        simp only [arrived, WaylandConnection.extend, List.flatMap_append,
          List.flatMap_singleton] at hfds ⊢
        rw [← hfds, List.append_assoc]
  | dispatch bytes fds =>
    obtain rfl := Option.some.inj h'
    refine ⟨done, left, hl.pieces, ?_, ?_, hl.inFlight, hl.carried⟩
    · have hbytes := hl.bytes
      simp only [arrived] at hbytes ⊢
      rw [List.append_assoc, List.take_append_drop, hbytes]
    · have hfds := hl.fds
      simp only [arrived] at hfds ⊢
      rw [List.append_assoc, List.take_append_drop, hfds]

theorem carries_of_reachable (hl : virtwlLink.ReachableWhile (fun _ i => i.HasFds) l) :
    ∃ done left, l.Carries done left := by
  refine hl.invariant (I := fun l => ∃ done left, l.Carries done left) ?_ ?_
  · rintro l rfl
    exact ⟨[], [], carries_new⟩
  · rintro l i l' - ⟨done, left, hl⟩ hi h'
    exact hl.step hi h'

end VirtwlLink

/-- The descriptors of a buffer are those of its pieces. -/
theorem flatMap_fds_virtwlChunks (data : List UInt8) (fds : List RawFd) :
    (virtwlChunks data fds).flatMap Chunk.fds = fds := by
  have hattached := attachedFirst_virtwlChunks data fds
  cases hchunks : virtwlChunks data fds with
  | nil =>
    rw [hchunks] at hattached
    exact hattached.symm
  | cons c cs =>
    rw [hchunks] at hattached
    obtain ⟨hfirst, hlater⟩ := hattached
    rw [List.flatMap_cons, hfirst, List.flatMap_eq_nil_iff.mpr hlater, List.append_nil]

/-- A buffer has a first piece, which has its descriptors. -/
theorem virtwlChunks_eq_cons (data : List UInt8) (fds : List RawFd) :
    ∃ c cs, virtwlChunks data fds = c :: cs ∧ c.fds = fds := by
  have hattached := attachedFirst_virtwlChunks data fds
  cases hchunks : virtwlChunks data fds with
  | nil =>
    have hbytes := map_bytes_virtwlChunks data fds
    rw [hchunks] at hbytes
    cases data with
    | nil => simp at hbytes
    | cons b bs => simp [chunksOf] at hbytes
  | cons c cs =>
    rw [hchunks] at hattached
    exact ⟨c, cs, rfl, hattached.1⟩

theorem flatMap_pieces (buffers : List Chunk) :
    (buffers.flatMap fun b => virtwlChunks b.bytes b.fds).flatMap Chunk.bytes =
      buffers.flatMap Chunk.bytes ∧
    (buffers.flatMap fun b => virtwlChunks b.bytes b.fds).flatMap Chunk.fds =
      buffers.flatMap Chunk.fds := by
  simp [List.flatMap_assoc, flatMap_bytes_virtwlChunks, flatMap_fds_virtwlChunks]

/-- Whatever the order of sends, receives and dispatches, the bytes and the descriptors come out as
they went in: nothing is lost, doubled or reordered. No byte of a buffer arrives before all
descriptors of that buffer, and a receive never fails. -/
theorem virtwl_stream {l : VirtwlLink}
    (hl : virtwlLink.ReachableWhile (fun _ i => i.HasFds) l) :
    l.arrived.bytes ++ l.inFlight.flatMap Txn.data = l.sent.flatMap Chunk.bytes ∧
    l.arrived.fds ++ l.inFlight.flatMap (fun txn => txn.fds.filter (0 ≤ ·)) =
      l.sent.flatMap Chunk.fds ∧
    (∀ before buffer after, l.sent = before ++ buffer :: after →
      (before.flatMap Chunk.bytes).length < l.arrived.bytes.length →
        before.flatMap Chunk.fds ++ buffer.fds <+: l.arrived.fds) ∧
    (l.step .recv).isSome = true := by
  obtain ⟨done, left, hcarries⟩ := VirtwlLink.carries_of_reachable hl
  obtain ⟨hpieces, hbytes, hfds, hflight, hcarried⟩ := hcarries
  have hsum := flatMap_pieces l.sent
  rw [← VirtwlLink.pieces, hpieces, List.flatMap_append, List.flatMap_append] at hsum
  refine ⟨?_, ?_, ?_, ?_⟩
  · rw [hbytes, hflight, List.flatMap_map, ← hsum.1]
    rfl
  · rw [hfds, hflight, List.flatMap_map, ← hsum.2]
    congr 1
    refine List.flatMap_congr fun c hc => ?_
    obtain ⟨-, -, hnodup, hpos⟩ := hcarried c hc
    exact Packed.filter_eq ⟨⟨_, rfl⟩, hnodup, hpos⟩
  · intro before buffer after hsent hlonger
    obtain ⟨c, cs, hchunks, hc⟩ := virtwlChunks_eq_cons buffer.bytes buffer.fds
    obtain ⟨hbefore, hbeforeFds⟩ := flatMap_pieces before
    rw [VirtwlLink.pieces, hsent, List.flatMap_append, List.flatMap_cons, hchunks] at hpieces
    rw [hbytes, ← hbefore] at hlonger
    rw [hfds, ← hbeforeFds, ← hc]
    generalize (before.flatMap fun b => virtwlChunks b.bytes b.fds) = earlier at hpieces hlonger ⊢
    -- the pieces before the buffer have all arrived, and one more, which is the first of the buffer
    have hlong : earlier.length < done.length := by
      by_contra hle
      have hprefix : done <+: earlier := by
        refine List.prefix_of_prefix_length_le ⟨left, hpieces.symm⟩ ?_ (Nat.le_of_not_lt hle)
        exact List.prefix_append ..
      obtain ⟨late, rfl⟩ := hprefix
      rw [List.flatMap_append, List.length_append] at hlonger
      omega
    have hone : earlier ++ [c] <+: done ++ left := by
      refine ⟨cs ++ after.flatMap fun b => virtwlChunks b.bytes b.fds, ?_⟩
      rw [List.append_assoc, ← hpieces]
      rfl
    obtain ⟨late, hlate⟩ : earlier ++ [c] <+: done := by
      refine List.prefix_of_prefix_length_le hone (List.prefix_append ..) ?_
      rw [List.length_append]
      exact hlong
    exact ⟨late.flatMap Chunk.fds, by simp [← hlate]⟩
  · unfold VirtwlLink.step
    rw [hflight]
    cases left with
    | nil => rfl
    | cons c left =>
      simp only [List.map_cons, recvMessage_txnOf (hcarried c (by simp)), Option.isSome_some]

theorem virtwl_stream_piece : ∃ l, virtwlLink.run .new
    [.send ⟨[1, 2, 3], [9]⟩ (· + 31) [.wouldBlock, .done], .recv, .dispatch 2 0] = some l ∧
    l.receiver.readBuf = [3] ∧ l.receiver.readFds = [40] ∧
    l.arrived.bytes ++ l.inFlight.flatMap Txn.data = l.sent.flatMap Chunk.bytes := by
  have hrun : (virtwlLink.run .new [.send ⟨[1, 2, 3], [9]⟩ (· + 31) [.wouldBlock, .done], .recv,
      .dispatch 2 0]).map (fun l => (l.receiver.readBuf, l.receiver.readFds)) =
      some ([3], [40]) := by decide +kernel
  obtain ⟨l, hl, heq⟩ := Option.map_eq_some_iff.mp hrun
  obtain ⟨hbuf, hfds⟩ := Prod.mk.inj heq
  have hreach : virtwlLink.ReachableWhile (fun _ i => i.HasFds) l :=
    .run (.init rfl) (by simp [LinkInput.HasFds]) hl
  exact ⟨l, hl, hbuf, hfds, (virtwl_stream hreach).1⟩

end Sommelier
