import Sommelier.ControlMessages

/-!
# Sending

The two transports of a connection. A socket takes any part of what it is given, or nothing
while it would block; the descriptors go with the first bytes it takes, and without a byte they
are lost. A VirtWL channel takes whole transactions of bounded size, and the descriptors go with
the first of them. A send that succeeds has delivered the buffer, with the descriptors once,
unless it sends descriptors alone over a socket.

## Main definitions

* `send`: the socket, for every sequence of its results.
* `virtwlSend`: the channel, likewise.
* `AttachedFirst`: the descriptors travel with the first piece only.
-/
namespace Sommelier

/-- A piece of a stream, with the descriptors that travel with it. -/
structure Chunk where
  bytes : List UInt8
  fds : List RawFd
  deriving DecidableEq, Repr

/-- The descriptors travel with the first piece, if there are any. -/
def AttachedFirst (fds : List RawFd) : List Chunk → Prop
  | [] => fds = []
  | c :: cs => c.fds = fds ∧ ∀ c' ∈ cs, c'.fds = []

/-! ## The socket -/

/-- What comes of an attempt to write: a number of bytes, of which no more are taken than
were offered, nothing while the socket would block, or an error. -/
inductive SendResult
  | sent (bytes : ℕ)
  | wouldBlock
  | failed (e : IoError)
  deriving DecidableEq, Repr

/-- The variables of the loop. -/
structure Sending where
  dataOffset : ℕ
  fdsToSend : List RawFd
  deriving DecidableEq, Repr

variable (data : List UInt8)

/-- The condition of the loop. -/
def Sending.Unfinished (s : Sending) : Prop :=
  s.dataOffset < data.length ∨ s.fdsToSend ≠ []

instance (s : Sending) : Decidable (s.Unfinished data) := inferInstanceAs (Decidable (_ ∨ _))

/-- What a successful `sendmsg` delivers on a stream socket: descriptors arrive with the first of
the bytes, so none do without bytes. -/
def delivered (taken : List UInt8) (fds : List RawFd) : List Chunk :=
  if taken = [] then [] else [⟨taken, fds⟩]

/-- One round of the loop, with what it delivers. It takes the descriptors of a successful
`sendmsg` for sent. -/
def sendRound (s : Sending) : SendResult → Except IoError Sending × List Chunk
  | .sent bytes =>
    let remainingData := data.drop s.dataOffset
    let taken := remainingData.take bytes
    (if taken.length = 0 ∧ remainingData ≠ [] then
      .error (.writeZero "failed to write whole buffer")
    else .ok { dataOffset := s.dataOffset + taken.length, fdsToSend := [] },
    delivered taken s.fdsToSend)
  | .wouldBlock => (.ok s, [])
  | .failed e => (.error e, [])

/-- The loop; without a result it waits for the socket. -/
def sendLoop : List SendResult → Sending → Option (Except IoError Unit) × List Chunk
  | [], s => (if s.Unfinished data then none else some (.ok ()), [])
  | result :: results, s =>
    if s.Unfinished data then
      match sendRound data s result with
      | (.error e, chunks) => (some (.error e), chunks)
      | (.ok s, chunks) =>
        let (outcome, rest) := sendLoop results s
        (outcome, chunks ++ rest)
    else (some (.ok ()), [])

def send (fds : List RawFd) (results : List SendResult) :
    Option (Except IoError Unit) × List Chunk :=
  if data.isEmpty && fds.isEmpty then (some (.ok ()), [])
  else sendLoop data results { dataOffset := 0, fdsToSend := fds }

/-- What is left to do: the bytes, and the descriptors as one more. -/
def Sending.left (s : Sending) : ℕ :=
  data.length - s.dataOffset + if s.fdsToSend = [] then 0 else 1

variable {data} {s s' : Sending} {result : SendResult} {chunks : List Chunk}

theorem unfinished_iff : s.Unfinished data ↔ 0 < s.left data := by
  unfold Sending.Unfinished Sending.left
  split_ifs with hfds
  · simp only [hfds, ne_eq, not_true, or_false]
    omega
  · simp [hfds]

theorem of_not_unfinished (h : ¬ s.Unfinished data) :
    data.drop s.dataOffset = [] ∧ s.fdsToSend = [] := by
  obtain ⟨hoffset, hfds⟩ := not_or.mp h
  exact ⟨List.drop_eq_nil_of_le (Nat.le_of_not_lt hoffset), Decidable.not_not.mp hfds⟩

theorem AttachedFirst.nil_fds (h : AttachedFirst [] chunks) : ∀ c ∈ chunks, c.fds = [] := by
  cases chunks with
  | nil => simp
  | cons first rest => exact List.forall_mem_cons.mpr h

@[simp] theorem flatMap_bytes_delivered (taken : List UInt8) (fds : List RawFd) :
    (delivered taken fds).flatMap Chunk.bytes = taken := by
  unfold delivered
  split_ifs with hnone <;> simp [hnone]

/-- A round that goes on has delivered the next bytes with all descriptors, or nothing. Without
bytes it goes on only at the end of the buffer. -/
theorem sendRound_ok (h : sendRound data s result = (.ok s', chunks)) :
    (result = .wouldBlock ∧ s' = s ∧ chunks = []) ∨
      (s'.fdsToSend = [] ∧ s.dataOffset ≤ s'.dataOffset ∧
        (s.Unfinished data → s'.left data < s.left data) ∧
        ∃ taken, chunks = delivered taken s.fdsToSend ∧
          data.drop s.dataOffset = taken ++ data.drop s'.dataOffset ∧
          (taken = [] → data.drop s.dataOffset = [])) := by
  cases result with
  | wouldBlock =>
    obtain ⟨hs, rfl⟩ := Prod.mk.inj h
    exact .inl ⟨rfl, (Except.ok.inj hs).symm, rfl⟩
  | failed e => simp [sendRound] at h
  | sent bytes =>
    simp only [sendRound, Prod.mk.injEq] at h
    obtain ⟨hs, rfl⟩ := h
    split_ifs at hs with hzero
    obtain rfl := Except.ok.inj hs
    set taken := (data.drop s.dataOffset).take bytes with htaken
    have hsplit : data.drop s.dataOffset = taken ++ data.drop (s.dataOffset + taken.length) := by
      have hdrop : (data.drop s.dataOffset).drop taken.length =
          (data.drop s.dataOffset).drop bytes := by
        rw [htaken, List.length_take, ← List.drop_eq_drop_min]
      rw [← List.drop_drop, hdrop, htaken, List.take_append_drop]
    have hlast : taken = [] → data.drop s.dataOffset = [] := by
      intro hnone
      by_contra hmore
      exact hzero ⟨by rw [hnone, List.length_nil], hmore⟩
    refine .inr ⟨rfl, Nat.le_add_right .., fun hunfinished => ?_, taken, rfl, hsplit, hlast⟩
    have hle : taken.length ≤ data.length - s.dataOffset := by
      rw [← List.length_drop, htaken]
      exact List.length_take_le' ..
    have hprogress : taken.length = 0 → data.length ≤ s.dataOffset := fun hnone =>
      List.drop_eq_nil_iff.mp (hlast (List.length_eq_zero_iff.mp hnone))
    have hdone : Sending.left data ⟨s.dataOffset + taken.length, []⟩ =
        data.length - (s.dataOffset + taken.length) := rfl
    rw [hdone, Sending.left]
    split_ifs with hfds
    · have hlt : s.dataOffset < data.length := hunfinished.resolve_right fun h => h hfds
      omega
    · omega

/-- A round that would not block ends the loop or leaves less to do. -/
theorem sendRound_progress (hunfinished : s.Unfinished data) (hresult : result ≠ .wouldBlock) :
    (∃ e, (sendRound data s result).1 = .error e) ∨
      ∃ s', (sendRound data s result).1 = .ok s' ∧ s'.left data < s.left data := by
  cases hround : sendRound data s result with
  | mk outcome chunks =>
    cases outcome with
    | error e => exact .inl ⟨e, rfl⟩
    | ok s' =>
      rcases sendRound_ok hround with ⟨hblock, -⟩ | ⟨-, -, hless, -⟩
      · exact absurd hblock hresult
      · exact .inr ⟨s', rfl, hless hunfinished⟩

/-- The loop ends before it has met as many results as there were bytes, and one more. -/
theorem sendLoop_isSome {results : List SendResult}
    (h : s.left data ≤ (results.filter (· ≠ .wouldBlock)).length) :
    (sendLoop data results s).1.isSome = true := by
  induction results generalizing s with
  | nil =>
    have hdone : ¬ s.Unfinished data := by
      rw [unfinished_iff]
      simpa using h
    simp [sendLoop, hdone]
  | cons result results ih =>
    rw [sendLoop]
    split_ifs with hunfinished
    · by_cases hblock : result = .wouldBlock
      · subst hblock
        exact ih (by simpa using h)
      · rw [List.filter_cons_of_pos (by simpa using hblock), List.length_cons] at h
        rcases sendRound_progress hunfinished hblock with ⟨e, he⟩ | ⟨s', hs', hless⟩
        · cases hround : sendRound data s result with
          | mk outcome chunks =>
            rw [hround] at he
            subst he
            rfl
        · cases hround : sendRound data s result with
          | mk outcome chunks =>
            rw [hround] at hs'
            subst hs'
            exact ih (by omega)
    · rfl

/-- A loop that succeeds has delivered what was left of the buffer, with the descriptors on
the first piece if a piece was left. -/
theorem sendLoop_ok {results : List SendResult}
    (h : sendLoop data results s = (some (.ok ()), chunks))
    (hpiece : data.drop s.dataOffset ≠ [] ∨ s.fdsToSend = []) :
    chunks.flatMap Chunk.bytes = data.drop s.dataOffset ∧ AttachedFirst s.fdsToSend chunks := by
  induction results generalizing s chunks with
  | nil =>
    simp only [sendLoop, Prod.mk.injEq] at h
    obtain ⟨hdone, rfl⟩ := h
    split_ifs at hdone with hunfinished
    obtain ⟨hdata, hfds⟩ := of_not_unfinished hunfinished
    exact ⟨hdata.symm, hfds⟩
  | cons result results ih =>
    rw [sendLoop] at h
    split_ifs at h with hunfinished
    · cases hround : sendRound data s result with
      | mk outcome first =>
        cases outcome with
        | error e => simp [hround] at h
        | ok s' =>
          simp only [hround, Prod.mk.injEq] at h
          obtain ⟨hloop, rfl⟩ := h
          rcases sendRound_ok hround with
            ⟨-, rfl, rfl⟩ | ⟨hfds, -, -, taken, rfl, hsplit, hlast⟩
          · exact ih (Prod.ext hloop rfl) hpiece
          · have hrest := ih (Prod.ext hloop rfl) (.inr hfds)
            rw [hfds] at hrest
            refine ⟨?_, ?_⟩
            · rw [List.flatMap_append, hrest.1, flatMap_bytes_delivered, hsplit]
            · unfold delivered
              split_ifs with hnone
              · rw [hpiece.resolve_left (not_not.mpr (hlast hnone))]
                exact hrest.2
              · exact ⟨rfl, hrest.2.nil_fds⟩
    · obtain ⟨hdata, hfds⟩ := of_not_unfinished hunfinished
      obtain rfl := (Prod.mk.inj h).2
      exact ⟨hdata.symm, hfds⟩

/-- Descriptors alone are lost: the loop takes the `sendmsg` of no bytes for a success. -/
theorem send_fds_alone {fds : List RawFd} (hfds : fds ≠ []) :
    send [] fds [.sent 0] = (some (.ok ()), []) := by
  simp [send, sendLoop, sendRound, delivered, Sending.Unfinished, hfds]

/-! ## The channel -/

/-- `virtwl_ioctl_txn` with the data behind it. -/
structure Txn where
  fds : List RawFd
  len : ℕ
  data : List UInt8
  deriving DecidableEq, Repr

/-- Descriptors of a transaction. -/
def virtwlSendMaxAllocs : ℕ := 28

/-- `size_of::<virtwl_ioctl_txn>()`: the descriptors and the length. -/
def txnHeaderSize : ℕ := virtwlSendMaxAllocs * 4 + 4

def defaultBufferSize : ℕ := 4096
def maxSendSize : ℕ := defaultBufferSize - txnHeaderSize

/-- What comes of handing a transaction to the device. -/
inductive IoctlResult
  | done
  | wouldBlock
  | failed (e : IoError)
  deriving DecidableEq, Repr

/-- The transaction of a chunk: the unused descriptors are filled with -1. -/
def txnOf (c : Chunk) : Txn where
  fds := c.fds ++ List.replicate (virtwlSendMaxAllocs - c.fds.length) (-1)
  len := c.bytes.length % 2 ^ 32
  data := c.bytes

/-- Hand over one transaction, with the results that are left for the next. -/
def sendChunk : List IoctlResult → Option (Except IoError Unit) × List IoctlResult
  | [] => (none, [])
  | .done :: results => (some (.ok ()), results)
  | .failed e :: results => (some (.error e), results)
  | .wouldBlock :: results => sendChunk results

/-- `chunks` of a slice; the last one may be shorter. -/
def chunksOf (size : ℕ) : List UInt8 → List (List UInt8)
  | [] => []
  | b :: bs => (b :: bs.take (size - 1)) :: chunksOf size (bs.drop (size - 1))
termination_by bs => bs.length
decreasing_by
  rw [List.length_drop, List.length_cons]
  omega

/-- The pieces of a buffer, of which the first gets the descriptors. -/
def virtwlChunks (data : List UInt8) (fds : List RawFd) : List Chunk :=
  (if data.isEmpty then [data] else chunksOf maxSendSize data).zipIdx.map fun (chunk, index) =>
    ⟨chunk, if index = 0 then fds else []⟩

def sendChunks : List Chunk → List IoctlResult → Option (Except IoError Unit) × List Txn
  | [], _ => (some (.ok ()), [])
  | chunk :: chunks, results =>
    match sendChunk results with
    | (some (.ok ()), results) =>
      let (outcome, txns) := sendChunks chunks results
      (outcome, txnOf chunk :: txns)
    | (outcome, _) => (outcome, [])

def virtwlSend (data : List UInt8) (fds : List RawFd) (results : List IoctlResult) :
    Option (Except IoError Unit) × List Txn :=
  if fds.length > virtwlSendMaxAllocs then
    (some (.error (.invalidInput "Too many file descriptors to send")), [])
  else sendChunks (virtwlChunks data fds) results

theorem chunksOf_spec {size : ℕ} (hsize : 0 < size) (bs : List UInt8) :
    (chunksOf size bs).flatten = bs ∧ ∀ chunk ∈ chunksOf size bs, chunk.length ≤ size := by
  fun_induction chunksOf size bs with
  | case1 => simp
  | case2 b bs ih =>
    refine ⟨?_, List.forall_mem_cons.mpr ⟨?_, ih.2⟩⟩
    · rw [List.flatten_cons, ih.1, List.cons_append, List.take_append_drop]
    · rw [List.length_cons, List.length_take]
      omega

theorem map_bytes_virtwlChunks (data : List UInt8) (fds : List RawFd) :
    (virtwlChunks data fds).map Chunk.bytes =
      if data.isEmpty then [data] else chunksOf maxSendSize data := by
  rw [virtwlChunks, List.map_map]
  exact List.zipIdx_map_fst 0 _

theorem flatMap_bytes_virtwlChunks (data : List UInt8) (fds : List RawFd) :
    (virtwlChunks data fds).flatMap Chunk.bytes = data := by
  rw [List.flatMap_def, map_bytes_virtwlChunks]
  cases data with
  | nil => rfl
  | cons b bs => exact (chunksOf_spec (by decide) _).1

theorem length_bytes_virtwlChunks {c : Chunk} (h : c ∈ virtwlChunks data fds) :
    c.bytes.length ≤ maxSendSize := by
  have hmem := List.mem_map_of_mem (f := Chunk.bytes) h
  rw [map_bytes_virtwlChunks] at hmem
  cases data with
  | nil =>
    obtain hnil : c.bytes = [] := by simpa using hmem
    simp [hnil]
  | cons b bs => exact (chunksOf_spec (by decide) _).2 _ hmem

theorem attachedFirst_virtwlChunks (data : List UInt8) (fds : List RawFd) :
    AttachedFirst fds (virtwlChunks data fds) := by
  have hlater : ∀ (chunks : List (List UInt8)),
      ∀ c ∈ (chunks.zipIdx 1).map fun (chunk, index) =>
        (⟨chunk, if index = 0 then fds else []⟩ : Chunk), c.fds = [] := by
    intro chunks c hc
    obtain ⟨⟨chunk, index⟩, hmem, rfl⟩ := List.mem_map.mp hc
    have hpos : 1 ≤ index := List.le_snd_of_mem_zipIdx hmem
    exact if_neg (by omega)
  cases data with
  | nil => exact ⟨rfl, by simp⟩
  | cons b bs =>
    rw [virtwlChunks, List.isEmpty_cons, if_neg (by simp), chunksOf, List.zipIdx_cons,
      List.map_cons]
    exact ⟨rfl, hlater _⟩

/-- The transactions of the chunks are handed over in order; a send that succeeds has handed
over all of them. -/
theorem sendChunks_spec (chunks : List Chunk) (results : List IoctlResult) :
    (sendChunks chunks results).2 <+: chunks.map txnOf ∧
      ((sendChunks chunks results).1 = some (.ok ()) →
        (sendChunks chunks results).2 = chunks.map txnOf) := by
  induction chunks generalizing results with
  | nil => exact ⟨List.prefix_rfl, fun _ => rfl⟩
  | cons chunk chunks ih =>
    rw [sendChunks]
    match sendChunk results with
    | (some (.ok ()), rest) =>
      have hrest := ih rest
      refine ⟨List.prefix_cons_inj _ |>.mpr hrest.1, fun hok => ?_⟩
      rw [List.map_cons, ← hrest.2 hok]
    | (some (.error e), _) => exact ⟨List.nil_prefix, fun hok => by simp at hok⟩
    | (none, _) => exact ⟨List.nil_prefix, fun hok => by simp at hok⟩

/-- A send over the socket that succeeds has delivered the buffer, with the descriptors on
the first piece only, exactly unless it sends descriptors without a byte; each result that does
not block brings it nearer to its end. A send over the channel hands over the transactions of
pieces within the limit of the device, which make up the buffer and of which only the first has
the descriptors. -/
theorem transport_send (data : List UInt8) (fds : List RawFd) :
    ((∀ results chunks, send data fds results = (some (.ok ()), chunks) →
      chunks.flatMap Chunk.bytes = data ∧ AttachedFirst fds chunks) ↔ data ≠ [] ∨ fds = []) ∧
    (∀ s : Sending, s.Unfinished data → sendRound data s .wouldBlock = (.ok s, []) ∧
      ∀ result, result ≠ .wouldBlock → (∃ e, (sendRound data s result).1 = .error e) ∨
        ∃ s', (sendRound data s result).1 = .ok s' ∧ s'.left data < s.left data) ∧
    (∀ results, data.length + 1 ≤ (results.filter (· ≠ SendResult.wouldBlock)).length →
      (send data fds results).1.isSome = true) ∧
    ((virtwlChunks data fds).flatMap Chunk.bytes = data ∧
      AttachedFirst fds (virtwlChunks data fds) ∧
      ∀ c ∈ virtwlChunks data fds, txnHeaderSize + c.bytes.length ≤ defaultBufferSize) ∧
    ∀ results, (virtwlSend data fds results).2 <+: (virtwlChunks data fds).map txnOf ∧
      ((virtwlSend data fds results).1 = some (.ok ()) →
        (virtwlSend data fds results).2 = (virtwlChunks data fds).map txnOf) := by
  refine ⟨⟨fun hdelivers => ?_, fun hpiece results chunks h => ?_⟩, ?_, ?_, ?_, ?_⟩
  · by_contra halone
    obtain ⟨hdata, hfds⟩ := not_or.mp halone
    obtain rfl := not_not.mp hdata
    exact hfds (hdelivers _ _ (send_fds_alone hfds)).2
  · unfold send at h
    split_ifs at h with hempty
    · obtain rfl := (Prod.mk.inj h).2
      simp only [Bool.and_eq_true, List.isEmpty_iff] at hempty
      exact ⟨hempty.1.symm, hempty.2⟩
    · exact sendLoop_ok h hpiece
  · exact fun s hunfinished => ⟨rfl, fun result hresult => sendRound_progress hunfinished hresult⟩
  · intro results h
    unfold send
    split_ifs with hempty
    · rfl
    · refine sendLoop_isSome (Nat.le_trans ?_ h)
      unfold Sending.left
      split_ifs <;> omega
  · refine ⟨flatMap_bytes_virtwlChunks data fds, attachedFirst_virtwlChunks data fds, ?_⟩
    intro c hc
    have hle : c.bytes.length ≤ 3980 := length_bytes_virtwlChunks hc
    exact Nat.add_le_add_left hle txnHeaderSize
  · intro results
    unfold virtwlSend
    split_ifs with hmany
    · exact ⟨List.nil_prefix, fun hok => by simp at hok⟩
    · exact sendChunks_spec _ results

/-- A first attempt that blocks, a short write and the rest. -/
theorem transport_send_short :
    ([⟨[1, 2], [9]⟩, ⟨[3], []⟩] : List Chunk).flatMap Chunk.bytes = [1, 2, 3] ∧
      AttachedFirst [9] [⟨[1, 2], [9]⟩, ⟨[3], []⟩] :=
  (transport_send [1, 2, 3] [9]).1.mpr (.inl (by simp))
    [.wouldBlock, .sent 2, .wouldBlock, .sent 1] _ (by decide)

/-- One descriptor without a byte: the send succeeds, and the descriptor is nowhere. -/
theorem send_loses_descriptor : ¬ ∀ data fds results chunks,
    send data fds results = (some (.ok ()), chunks) →
      chunks.flatMap Chunk.bytes = data ∧ AttachedFirst fds chunks := by
  intro hdelivers
  have hattached := (hdelivers [] [9] [.sent 0] [] (by decide)).2
  exact absurd hattached (by simp [AttachedFirst])

end Sommelier
