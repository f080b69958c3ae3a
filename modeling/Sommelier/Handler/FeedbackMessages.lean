import Sommelier.ControlMessages
import Sommelier.Handler.DmabufFeedback
import Sommelier.WireFields

/-!
# Messages of a feedback object

A feedback object that the proxy makes up lists its formats in a table that the client maps,
and refers to the entries of the table by index. The indices of a large table need several
events. The messages are queued together once all of them are built; a failure on the way
closes the table.

## Main definitions

* `createFeedbackFormatTable`: the table, with the descriptors opened and closed.
* `buildSyntheticFeedbackMessages`: the messages of one object.
* `FeedbackEvent.decode`: what a client reads from a message.
-/
namespace Sommelier

/-! ## Words of other sizes -/

namespace ByteOrder
variable (o : ByteOrder)

/-- `to_ne_bytes` of a 16-bit word. -/
def toNeBytes16 (n : ℕ) : List UInt8 :=
  let bytes := [UInt8.ofNat n, UInt8.ofNat (n / 256)]
  match o with
  | little => bytes
  | big => bytes.reverse

/-- `to_ne_bytes` of a 64-bit word. -/
def toNeBytes64 (n : ℕ) : List UInt8 :=
  match o with
  | little => o.toNeBytes n ++ o.toNeBytes (n / 2 ^ 32)
  | big => o.toNeBytes (n / 2 ^ 32) ++ o.toNeBytes n

theorem fromNeBytes_toNeBytes16 {n : ℕ} (hn : n < 2 ^ 16) :
    o.fromNeBytes (o.toNeBytes16 n) = n := by
  cases o <;> simp [fromNeBytes, toNeBytes16] <;> omega

@[simp] theorem length_toNeBytes64 (n : ℕ) : (o.toNeBytes64 n).length = 8 := by
  cases o <;> simp [toNeBytes64]

theorem fromNeBytes_toNeBytes64 {n : ℕ} (hn : n < 2 ^ 64) :
    o.fromNeBytes (o.toNeBytes64 n) = n := by
  cases o <;> simp [fromNeBytes, toNeBytes64, toNeBytes] <;> omega

end ByteOrder

/-! ## The table -/

/-- What the system calls return; `errno` explains a negative result. -/
structure TableCalls where
  memfdCreate : RawFd
  setLen : Except IoError Unit
  writeAll : Except IoError Unit
  addSeals : ℤ
  errno : ℕ

/-- A result, with the descriptors that were opened and closed on the way to it. -/
structure Made (α : Type) where
  opened : List RawFd
  closed : List RawFd
  result : Except IoError α

/-- The descriptor of a table, its size and the contents of the file. -/
structure FormatTable where
  fd : RawFd
  size : ℕ
  contents : List UInt8
  deriving DecidableEq, Repr

variable (o : ByteOrder)

/-- An entry of the table: the format, padding and the modifier. -/
def tableEntryBytes (pair : ℕ × ℕ) : List UInt8 :=
  o.toNeBytes pair.1 ++ o.toNeBytes 0 ++ o.toNeBytes64 pair.2

/-- The file after `set_len` and `write_all` from its start. -/
def writtenFile (size : ℕ) (table : List UInt8) : List UInt8 :=
  table ++ (List.replicate size 0).drop table.length

/-- The file owns its descriptor: an error drops the file, which closes it. -/
def createFeedbackFormatTable (calls : TableCalls) (pairs : List (ℕ × ℕ)) :
    Made FormatTable :=
  if pairs.isEmpty || decide (maxFeedbackFormats < pairs.length) then
    ⟨[], [], .error (.invalidInput "invalid synthetic feedback table length")⟩
  else
    match checkedMul pairs.length 16 with
    | none => ⟨[], [], .error (.invalidInput "format table overflow")⟩
    | some size =>
      let fd := calls.memfdCreate
      if fd < 0 then ⟨[], [], .error (.os calls.errno)⟩
      else
        match calls.setLen, calls.writeAll with
        | .error e, _ => ⟨[fd], [fd], .error e⟩
        | .ok (), .error e => ⟨[fd], [fd], .error e⟩
        | .ok (), .ok () =>
          if calls.addSeals < 0 then ⟨[fd], [fd], .error (.os calls.errno)⟩
          else
            let table := pairs.flatMap (tableEntryBytes o)
            ⟨[fd], [], .ok ⟨fd, size % 2 ^ 32, writtenFile size table⟩⟩

/-! ## The messages -/

/-- The events of a feedback object. -/
inductive FeedbackEvent
  | done
  | formatTable (fd : RawFd) (size : ℕ)
  | mainDevice (device : List UInt8)
  | trancheDone
  | trancheTargetDevice (device : List UInt8)
  | trancheFormats (indices : List ℕ)
  | trancheFlags (flags : ℕ)
  deriving DecidableEq, Repr

namespace FeedbackEvent

def opcode : FeedbackEvent → ℕ
  | done => 0
  | formatTable _ _ => 1
  | mainDevice _ => 2
  | trancheDone => 3
  | trancheTargetDevice _ => 4
  | trancheFormats _ => 5
  | trancheFlags _ => 6

def builder : FeedbackEvent → MessageBuilder
  | done => .new
  | formatTable _ size => MessageBuilder.new.writeU32 o size
  | mainDevice device => MessageBuilder.new.writeArray o device
  | trancheDone => .new
  | trancheTargetDevice device => MessageBuilder.new.writeArray o device
  | trancheFormats indices => MessageBuilder.new.writeArray o (indices.flatMap o.toNeBytes16)
  | trancheFlags flags => MessageBuilder.new.writeU32 o flags

def fds : FeedbackEvent → List RawFd
  | formatTable fd _ => [fd]
  | _ => []

end FeedbackEvent

/-- Indices that fit an event, whose array has to fill whole words. -/
def maxTrancheIndicesPerEvent : ℕ := (65532 - 8 - 4) / 2

/-- The indices of a table, event by event. -/
def trancheIndices (count : ℕ) : List (List ℕ) :=
  (List.range ((count + (maxTrancheIndicesPerEvent - 1)) / maxTrancheIndicesPerEvent)).map
    fun event =>
      let start := event * maxTrancheIndicesPerEvent
      List.range' start (min count (start + maxTrancheIndicesPerEvent) - start)

/-- The events of a table in the order they are sent. -/
def syntheticFeedbackEvents (tableFd : RawFd) (tableSize count : ℕ) (device : List UInt8) :
    List FeedbackEvent :=
  [.formatTable tableFd tableSize, .mainDevice device, .trancheTargetDevice device,
    .trancheFlags 0] ++ (trancheIndices count).map .trancheFormats ++ [.trancheDone, .done]

/-- Messages with their descriptors. -/
abbrev MessageQueue : Type := List (List UInt8 × List RawFd)

def openFds (fds : List RawFd) : List RawFd := fds.filter (0 ≤ ·)

/-- Queue a message; one that is too long is dropped and its descriptors are closed. -/
def queueMessage (queue : MessageQueue) (senderId opcode : ℕ) (builder : MessageBuilder)
    (fds : List RawFd) : Except (List RawFd) MessageQueue :=
  match tryBuildMessage o builder.payload senderId opcode with
  | .ok message => .ok (queue ++ [(message, fds)])
  | .error _ => .error (openFds fds)

def closeQueuedFds (queue : MessageQueue) : List RawFd :=
  queue.flatMap fun (_, fds) => openFds fds

/-- Queue the events; the first that fails closes what is queued. -/
def queueEvents (guestId : ℕ) :
    List FeedbackEvent → MessageQueue → Except (List RawFd) MessageQueue
  | [], pending => .ok pending
  | event :: events, pending =>
    match queueMessage o pending guestId event.opcode (event.builder o) event.fds with
    | .ok pending => queueEvents guestId events pending
    | .error closed => .error (closed ++ closeQueuedFds pending)

def buildSyntheticFeedbackMessages (calls : TableCalls) (guestId : ℕ) (pairs : List (ℕ × ℕ))
    (device : List UInt8) : Made MessageQueue :=
  let made := createFeedbackFormatTable o calls pairs
  match made.result with
  | .error e => ⟨made.opened, made.closed, .error e⟩
  | .ok table =>
    let events := syntheticFeedbackEvents table.fd table.size pairs.length device
    match queueEvents o guestId events [] with
    | .ok pending => ⟨made.opened, made.closed, .ok pending⟩
    | .error closed => ⟨made.opened, made.closed ++ closed, .error (.invalidData
        "synthetic dmabuf feedback event exceeds Wayland wire limits")⟩

/-- Publish the messages of an object as a whole. The device comes from the allocator. -/
def publishSyntheticFeedback (calls : TableCalls) (queue : MessageQueue) (guestId : ℕ)
    (pairs : List (ℕ × ℕ)) (device : Except IoError (List UInt8)) : Made Unit × MessageQueue :=
  match device with
  | .error e => (⟨[], [], .error e⟩, queue)
  | .ok device =>
    let made := buildSyntheticFeedbackMessages o calls guestId pairs device
    match made.result with
    | .ok pending => (⟨made.opened, made.closed, .ok ()⟩, queue ++ pending)
    | .error e => (⟨made.opened, made.closed, .error e⟩, queue)

/-! ## The client -/

/-- The words of an array of indices. -/
def indicesOf : List UInt8 → List ℕ
  | a :: b :: rest => o.fromNeBytes [a, b] :: indicesOf rest
  | _ => []

/-- The entry of a table with an index. -/
def tableEntry (table : List UInt8) (index : ℕ) : ℕ × ℕ :=
  (o.fromNeBytes ((table.drop (16 * index)).take 4),
    o.fromNeBytes ((table.drop (16 * index + 8)).take 8))

/-- The only field of a payload. -/
def fieldOf (k : FieldKind) (payload : List UInt8) : Option k.Value :=
  match readFields o [k] (.new payload []) with
  | some (.ok (v, _), m) => if m.isPayloadConsumed then some v else none
  | _ => none

namespace FeedbackEvent

/-- An event from the opcode, the payload and the descriptors of its message. -/
def ofPayload (opcode : ℕ) (payload : List UInt8) (fds : List RawFd) : Option FeedbackEvent :=
  match opcode, fds with
  | 0, [] => if payload.isEmpty then some done else none
  | 1, [fd] => (fieldOf o .u32 payload).map (formatTable fd)
  | 2, [] => (fieldOf o .array payload).map mainDevice
  | 3, [] => if payload.isEmpty then some trancheDone else none
  | 4, [] => (fieldOf o .array payload).map trancheTargetDevice
  | 5, [] => (fieldOf o .array payload).map fun indices => trancheFormats (indicesOf o indices)
  | 6, [] => (fieldOf o .u32 payload).map trancheFlags
  | _, _ => none

/-- An event of the object, framed as one message within the length of the wire. -/
def decode (guestId : ℕ) (message : List UInt8 × List RawFd) : Option FeedbackEvent :=
  match frame o message.1 with
  | .message header =>
    if header.senderId = guestId ∧ header.len = message.1.length then
      ofPayload o header.opcode (message.1.drop 8) message.2
    else none
  | _ => none

end FeedbackEvent

variable {o}

/-! ## Reading the table -/

theorem length_tableEntryBytes (pair : ℕ × ℕ) : (tableEntryBytes o pair).length = 16 := by
  simp [tableEntryBytes]

theorem length_flatMap_tableEntryBytes (pairs : List (ℕ × ℕ)) :
    (pairs.flatMap (tableEntryBytes o)).length = 16 * pairs.length := by
  induction pairs with
  | nil => rfl
  | cons pair pairs ih =>
    rw [List.flatMap_cons, List.length_append, length_tableEntryBytes, ih, List.length_cons]
    omega

/-- The entries of a table are its pairs. -/
theorem tableEntry_flatMap {pairs : List (ℕ × ℕ)}
    (hpairs : ∀ pair ∈ pairs, pair.1 < 2 ^ 32 ∧ pair.2 < 2 ^ 64) {index : ℕ}
    (hindex : index < pairs.length) :
    tableEntry o (pairs.flatMap (tableEntryBytes o)) index = pairs[index] := by
  induction pairs generalizing index with
  | nil => simp at hindex
  | cons pair pairs ih =>
    obtain ⟨⟨hformat, hmodifier⟩, hrest⟩ := List.forall_mem_cons.mp hpairs
    have hentry : (tableEntryBytes o pair).length = 16 := length_tableEntryBytes pair
    cases index with
    | zero =>
      have h4 : (o.toNeBytes pair.1).length = 4 := o.length_toNeBytes _
      have h8 : (o.toNeBytes pair.1 ++ o.toNeBytes 0).length = 8 := by simp
      have hfirst : o.fromNeBytes (((pair :: pairs).flatMap (tableEntryBytes o)).take 4) =
          pair.1 := by
        rw [List.flatMap_cons, tableEntryBytes, List.append_assoc, List.append_assoc,
          List.take_left' h4, o.fromNeBytes_toNeBytes hformat]
      have hsecond : o.fromNeBytes ((((pair :: pairs).flatMap (tableEntryBytes o)).drop 8).take
          8) = pair.2 := by
        rw [List.flatMap_cons, tableEntryBytes, List.append_assoc, List.drop_left' h8,
          List.take_left' (o.length_toNeBytes64 _), o.fromNeBytes_toNeBytes64 hmodifier]
      exact Prod.ext hfirst hsecond
    | succ index =>
      have hshift : ∀ k, ((pair :: pairs).flatMap (tableEntryBytes o)).drop
          (16 * (index + 1) + k) = (pairs.flatMap (tableEntryBytes o)).drop (16 * index + k) := by
        intro k
        have hsum : 16 * (index + 1) + k = 16 + (16 * index + k) := by omega
        rw [hsum, ← List.drop_drop, List.flatMap_cons, List.drop_left' hentry]
      have htail : tableEntry o ((pair :: pairs).flatMap (tableEntryBytes o)) (index + 1) =
          tableEntry o (pairs.flatMap (tableEntryBytes o)) index := by
        have hstart : ((pair :: pairs).flatMap (tableEntryBytes o)).drop (16 * (index + 1)) =
            (pairs.flatMap (tableEntryBytes o)).drop (16 * index) := hshift 0
        rw [tableEntry, tableEntry, hstart, hshift 8]
      rw [htail, List.getElem_cons_succ]
      exact ih hrest (Nat.lt_of_succ_lt_succ hindex)

theorem map_tableEntry_range {pairs : List (ℕ × ℕ)}
    (hpairs : ∀ pair ∈ pairs, pair.1 < 2 ^ 32 ∧ pair.2 < 2 ^ 64) :
    (List.range pairs.length).map (tableEntry o (pairs.flatMap (tableEntryBytes o))) = pairs := by
  refine List.ext_getElem (by simp) fun index h _ => ?_
  rw [List.length_map, List.length_range] at h
  rw [List.getElem_map, List.getElem_range, tableEntry_flatMap hpairs h]

/-- Writing a table of the size of the file leaves the table. -/
theorem writtenFile_eq {size : ℕ} {table : List UInt8} (h : table.length = size) :
    writtenFile size table = table := by
  rw [writtenFile, h, List.drop_eq_nil_of_le (by simp), List.append_nil]

/-! ## The indices -/

theorem indicesOf_flatMap {indices : List ℕ} (h : ∀ index ∈ indices, index < 2 ^ 16) :
    indicesOf o (indices.flatMap o.toNeBytes16) = indices := by
  induction indices with
  | nil => rfl
  | cons index indices ih =>
    obtain ⟨hindex, hrest⟩ := List.forall_mem_cons.mp h
    obtain ⟨a, b, hword⟩ : ∃ a b, o.toNeBytes16 index = [a, b] := by
      cases o <;> exact ⟨_, _, rfl⟩
    rw [List.flatMap_cons, hword, List.cons_append, List.cons_append, List.nil_append, indicesOf,
      ih hrest, ← hword, o.fromNeBytes_toNeBytes16 hindex]

/-- Consecutive blocks of a range make up the range. -/
theorem flatten_blocks (count size blocks : ℕ) :
    ((List.range blocks).map fun block =>
      List.range' (block * size) (min count (block * size + size) - block * size)).flatten =
        List.range (min count (blocks * size)) := by
  induction blocks with
  | zero => simp
  | succ blocks ih =>
    rw [List.range_succ, List.map_append, List.flatten_append, ih, List.map_singleton,
      List.flatten_singleton, Nat.succ_mul]
    rcases Nat.le_total count (blocks * size) with hle | hle
    · rw [Nat.min_eq_left hle, Nat.min_eq_left (by omega), Nat.sub_eq_zero_of_le hle]
      simp
    · rw [Nat.min_eq_right hle, List.range_eq_range', List.range_eq_range']
      have hsum : min count (blocks * size + size) =
          blocks * size + (min count (blocks * size + size) - blocks * size) := by omega
      conv_rhs => rw [hsum, List.range'_append_1.symm]
      simp

theorem flatten_trancheIndices (count : ℕ) : (trancheIndices count).flatten = List.range count := by
  have hcover : min count ((count + (maxTrancheIndicesPerEvent - 1)) /
      maxTrancheIndicesPerEvent * maxTrancheIndicesPerEvent) = count := by
    unfold maxTrancheIndicesPerEvent
    omega
  rw [trancheIndices, flatten_blocks, hcover]

/-! ## Reading the messages -/

theorem fieldOf_write {k : FieldKind} {v : k.Value} (hv : k.Typed v)
    (hlen : (k.write o v .new).payload.length < 2 ^ 32) :
    fieldOf o k (k.write o v .new).payload = some v := by
  have hsize : k.argType.size v < 2 ^ 32 := FieldKind.length_write o v ▸ hlen
  have hvalid : (fieldCodec o).ValidSeq [k] (v, ⟨⟩) := ⟨FieldKind.valid_of_typed hv hsize, trivial⟩
  have hfit : (encodeFields o [k] (v, ⟨⟩)).length < 2 ^ 64 := Nat.lt_trans hlen (by decide)
  obtain ⟨m, hread, hconsumed⟩ := readFields_encodeFields hvalid hfit []
  have hread : readFields o [k] (.new (k.write o v .new).payload []) =
      some (.ok (v, ⟨⟩), m) := hread
  rw [fieldOf, hread]
  exact if_pos hconsumed

theorem length_of_tryBuildMessage {payload bytes : List UInt8} {senderId opcode : ℕ}
    (h : tryBuildMessage o payload senderId opcode = .ok bytes) :
    bytes.drop 8 = payload ∧ bytes.length = payload.length + 8 ∧ bytes.length ≤ 0xffff := by
  simp only [tryBuildMessage] at h
  split_ifs at h with hlarge hmod
  obtain rfl := Except.ok.inj h
  refine ⟨List.drop_left' (by simp), ?_, ?_⟩ <;>
  · simp only [List.length_append, ByteOrder.length_toNeBytes]
    omega

namespace FeedbackEvent

/-- The numbers of the event fit the words they are sent in. -/
def InRange : FeedbackEvent → Prop
  | formatTable _ size => size < 2 ^ 32
  | trancheFormats indices => ∀ index ∈ indices, index < 2 ^ 16
  | trancheFlags flags => flags < 2 ^ 32
  | _ => True

theorem ofPayload_builder {event : FeedbackEvent} (h : event.InRange)
    (hlen : (event.builder o).payload.length < 2 ^ 32) :
    ofPayload o event.opcode (event.builder o).payload event.fds = some event := by
  cases event with
  | done => rfl
  | trancheDone => rfl
  | formatTable fd size =>
    have hfield := fieldOf_write (o := o) (k := .u32) (v := size) h hlen
    exact congrArg (Option.map (formatTable fd)) hfield
  | mainDevice device =>
    have hfield := fieldOf_write (o := o) (k := .array) (v := device) trivial hlen
    exact congrArg (Option.map mainDevice) hfield
  | trancheTargetDevice device =>
    have hfield := fieldOf_write (o := o) (k := .array) (v := device) trivial hlen
    exact congrArg (Option.map trancheTargetDevice) hfield
  | trancheFormats indices =>
    have hfield := fieldOf_write (o := o) (k := .array) (v := indices.flatMap o.toNeBytes16)
      trivial hlen
    have hindices := congrArg trancheFormats (indicesOf_flatMap (o := o) h)
    exact (congrArg (Option.map fun bytes => trancheFormats (indicesOf o bytes)) hfield).trans
      (congrArg some hindices)
  | trancheFlags flags =>
    have hfield := fieldOf_write (o := o) (k := .u32) (v := flags) h hlen
    exact congrArg (Option.map trancheFlags) hfield

/-- A client reads the event that a message was built for. -/
theorem decode_tryBuildMessage {event : FeedbackEvent} (h : event.InRange) {guestId : ℕ}
    (hid : guestId < 2 ^ 32) {bytes : List UInt8}
    (hbuild : tryBuildMessage o (event.builder o).payload guestId event.opcode = .ok bytes) :
    decode o guestId (bytes, event.fds) = some event := by
  have hopcode : event.opcode < 2 ^ 16 := by
    cases event <;> simp [opcode]
  obtain ⟨hdrop, hlen, hle⟩ := length_of_tryBuildMessage hbuild
  have hframe := frame_tryBuildMessage o hid hopcode hbuild []
  rw [List.append_nil] at hframe
  rw [decode, hframe]
  dsimp only
  rw [if_pos ⟨rfl, rfl⟩, hdrop, ofPayload_builder h (by omega)]

end FeedbackEvent

theorem queueEvents_cons {guestId : ℕ} {event : FeedbackEvent} {events : List FeedbackEvent}
    {pending : MessageQueue} {bytes : List UInt8}
    (h : tryBuildMessage o (event.builder o).payload guestId event.opcode = .ok bytes) :
    queueEvents o guestId (event :: events) pending =
      queueEvents o guestId events (pending ++ [(bytes, event.fds)]) := by
  simp only [queueEvents, queueMessage, h]

/-- What was queued is read back as the events, in messages within the limit. -/
theorem queueEvents_ok {guestId : ℕ} (hid : guestId < 2 ^ 32) {events : List FeedbackEvent}
    (hevents : ∀ event ∈ events, event.InRange) {pending queue : MessageQueue}
    (h : queueEvents o guestId events pending = .ok queue) :
    ∃ messages, queue = pending ++ messages ∧
      messages.map (FeedbackEvent.decode o guestId) = events.map some ∧
      ∀ message ∈ messages, message.1.length ≤ 0xffff := by
  induction events generalizing pending with
  | nil =>
    obtain rfl := Except.ok.inj h
    exact ⟨[], by simp, rfl, by simp⟩
  | cons event events ih =>
    obtain ⟨hevent, hrest⟩ := List.forall_mem_cons.mp hevents
    rw [queueEvents, queueMessage] at h
    cases hbuild : tryBuildMessage o (event.builder o).payload guestId event.opcode with
    | error e => simp [hbuild] at h
    | ok bytes =>
      simp only [hbuild] at h
      obtain ⟨messages, rfl, hdecode, hlen⟩ := ih hrest h
      refine ⟨(bytes, event.fds) :: messages, by simp, ?_, List.forall_mem_cons.mpr ⟨?_, hlen⟩⟩
      · rw [List.map_cons, List.map_cons, hdecode,
          FeedbackEvent.decode_tryBuildMessage hevent hid hbuild]
      · exact (length_of_tryBuildMessage hbuild).2.2

/-- Events without descriptors that fail close what was queued before them. -/
theorem queueEvents_error {guestId : ℕ} {events : List FeedbackEvent}
    (hevents : ∀ event ∈ events, event.fds = []) {pending : MessageQueue}
    {closed : List RawFd} (h : queueEvents o guestId events pending = .error closed) :
    closed = closeQueuedFds pending := by
  induction events generalizing pending with
  | nil => simp [queueEvents] at h
  | cons event events ih =>
    obtain ⟨hevent, hrest⟩ := List.forall_mem_cons.mp hevents
    rw [queueEvents, queueMessage, hevent] at h
    cases hbuild : tryBuildMessage o (event.builder o).payload guestId event.opcode with
    | error e =>
      simp only [hbuild, Except.error.injEq] at h
      exact h.symm
    | ok bytes =>
      simp only [hbuild] at h
      rw [ih hrest h]
      simp [closeQueuedFds, openFds]

/-! ## Synthetic feedback -/

theorem inRange_syntheticFeedbackEvents {tableFd : RawFd} {tableSize count : ℕ}
    {device : List UInt8} (hsize : tableSize < 2 ^ 32) (hcount : count ≤ maxFeedbackFormats) :
    ∀ event ∈ syntheticFeedbackEvents tableFd tableSize count device, event.InRange := by
  have hindices : ∀ indices ∈ trancheIndices count, ∀ index ∈ indices, index < 2 ^ 16 := by
    intro indices hin index hindex
    have hmem : index ∈ (trancheIndices count).flatten := List.mem_flatten.mpr ⟨_, hin, hindex⟩
    rw [flatten_trancheIndices, List.mem_range] at hmem
    exact Nat.lt_of_lt_of_le hmem hcount
  intro event hevent
  simp only [syntheticFeedbackEvents, List.mem_append, List.mem_cons, List.not_mem_nil, or_false,
    List.mem_map] at hevent
  rcases hevent with ((rfl | rfl | rfl | rfl) | ⟨indices, hin, rfl⟩) | rfl | rfl
  · exact hsize
  · trivial
  · trivial
  · exact (by decide : 0 < 2 ^ 32)
  · exact hindices indices hin
  · trivial
  · trivial

/-- The table is there with all pairs, or whatever was opened for it is closed. -/
theorem createFeedbackFormatTable_cases (calls : TableCalls) (pairs : List (ℕ × ℕ)) :
    let made := createFeedbackFormatTable o calls pairs
    (∃ table, made = ⟨[table.fd], [], .ok table⟩ ∧ 0 ≤ table.fd ∧
      pairs.length ≤ maxFeedbackFormats ∧ table.size = 16 * pairs.length ∧
      table.contents = pairs.flatMap (tableEntryBytes o)) ∨
    ∃ opened e, made = ⟨opened, opened, .error e⟩ := by
  dsimp only
  unfold createFeedbackFormatTable
  by_cases hlength : (pairs.isEmpty || decide (maxFeedbackFormats < pairs.length)) = true
  · exact .inr ⟨[], _, if_pos hlength⟩
  · rw [if_neg hlength]
    simp only [Bool.or_eq_true, decide_eq_true_eq, not_or, Nat.not_lt] at hlength
    have hle : pairs.length ≤ 65536 := hlength.2
    rw [checkedMul_of_lt (by omega)]
    dsimp only
    by_cases hfd : calls.memfdCreate < 0
    · exact .inr ⟨[], _, if_pos hfd⟩
    · rw [if_neg hfd]
      match calls.setLen, calls.writeAll with
      | .error e, _ => exact .inr ⟨_, e, rfl⟩
      | .ok (), .error e => exact .inr ⟨_, e, rfl⟩
      | .ok (), .ok () =>
        dsimp only
        by_cases hseals : calls.addSeals < 0
        · exact .inr ⟨_, _, if_pos hseals⟩
        · have hsize : (pairs.flatMap (tableEntryBytes o)).length = pairs.length * 16 := by
            rw [length_flatMap_tableEntryBytes, Nat.mul_comm]
          have hround : pairs.length * 16 % 2 ^ 32 = 16 * pairs.length := by omega
          exact .inl ⟨⟨calls.memfdCreate, _, writtenFile _ _⟩, if_neg hseals, Int.not_lt.mp hfd,
            hlength.2, hround, writtenFile_eq hsize⟩

/-- Building the messages succeeds, or closes what was opened. -/
theorem buildSyntheticFeedbackMessages_error {calls : TableCalls} {guestId : ℕ}
    {pairs : List (ℕ × ℕ)} {device : List UInt8} {e : IoError}
    (h : (buildSyntheticFeedbackMessages o calls guestId pairs device).result = .error e) :
    (buildSyntheticFeedbackMessages o calls guestId pairs device).closed =
      (buildSyntheticFeedbackMessages o calls guestId pairs device).opened := by
  rcases createFeedbackFormatTable_cases (o := o) calls pairs with
    ⟨table, hmade, hfd, -⟩ | ⟨opened, e', hmade⟩
  · simp only [buildSyntheticFeedbackMessages, hmade] at h ⊢
    cases hqueue : queueEvents o guestId
        (syntheticFeedbackEvents table.fd table.size pairs.length device) [] with
    | ok queue => simp [hqueue] at h
    | error closed =>
      -- The first event is short enough, and the later ones carry no descriptor.
      have hlen : ((FeedbackEvent.formatTable table.fd table.size).builder o).payload.length =
          4 := o.length_toNeBytes _
      obtain ⟨bytes, hfirst, -⟩ := exists_tryBuildMessage (o := o) (by rw [hlen]; decide)
        (by rw [hlen]) guestId 1
      have hsplit : syntheticFeedbackEvents table.fd table.size pairs.length device =
          .formatTable table.fd table.size ::
            (syntheticFeedbackEvents table.fd table.size pairs.length device).tail := rfl
      have hrest : ∀ event ∈
          (syntheticFeedbackEvents table.fd table.size pairs.length device).tail,
          event.fds = [] := by
        intro event hevent
        simp only [syntheticFeedbackEvents, List.cons_append, List.nil_append, List.tail_cons,
          List.mem_append, List.mem_cons, List.mem_map, List.not_mem_nil, or_false] at hevent
        rcases hevent with rfl | rfl | rfl | ⟨indices, -, rfl⟩ | rfl | rfl <;> rfl
      rw [hsplit, queueEvents_cons hfirst] at hqueue
      simp [queueEvents_error hrest hqueue, closeQueuedFds, openFds, FeedbackEvent.fds, hfd]
  · simp only [buildSyntheticFeedbackMessages, hmade]

/-- Synthetic feedback is published whole or not at all. A client that reads the messages
gets the table, the device and one tranche with all indices in order, each message within
the limit, and the indices lead it to the pairs. A failure leaves the queue as it was and
nothing open. -/
theorem synthetic_feedback (o : ByteOrder) (calls : TableCalls) (guestId : ℕ)
    (pairs : List (ℕ × ℕ)) (hid : guestId < 2 ^ 32)
    (hpairs : ∀ pair ∈ pairs, pair.1 < 2 ^ 32 ∧ pair.2 < 2 ^ 64) :
    (∀ device pending,
      (buildSyntheticFeedbackMessages o calls guestId pairs device).result = .ok pending →
      ∃ (table : FormatTable) (tranches : List (List ℕ)),
        (createFeedbackFormatTable o calls pairs).result = .ok table ∧
        table.contents.length = 16 * pairs.length ∧
        (List.range pairs.length).map (tableEntry o table.contents) = pairs ∧
        pending.map (FeedbackEvent.decode o guestId) =
          ([FeedbackEvent.formatTable table.fd (16 * pairs.length), .mainDevice device,
            .trancheTargetDevice device, .trancheFlags 0] ++
            tranches.map FeedbackEvent.trancheFormats ++
            [FeedbackEvent.trancheDone, FeedbackEvent.done]).map some ∧
        tranches.flatten = List.range pairs.length ∧
        tranches.flatten.map (tableEntry o table.contents) = pairs ∧
        ∀ message ∈ pending, message.1.length ≤ 0xffff) ∧
    ∀ queue device e, (publishSyntheticFeedback o calls queue guestId pairs device).1.result =
        .error e →
      (publishSyntheticFeedback o calls queue guestId pairs device).2 = queue ∧
      (publishSyntheticFeedback o calls queue guestId pairs device).1.closed =
        (publishSyntheticFeedback o calls queue guestId pairs device).1.opened := by
  constructor
  · intro device pending h
    rcases createFeedbackFormatTable_cases (o := o) calls pairs with
      ⟨table, hmade, -, hcount, hsize, hcontents⟩ | ⟨opened, e, hmade⟩
    · simp only [buildSyntheticFeedbackMessages, hmade] at h
      have hsize32 : table.size < 2 ^ 32 := by
        unfold maxFeedbackFormats at hcount
        omega
      cases hqueue : queueEvents o guestId
          (syntheticFeedbackEvents table.fd table.size pairs.length device) [] with
      | error closed => simp [hqueue] at h
      | ok queue =>
        simp only [hqueue, Except.ok.injEq] at h
        obtain ⟨messages, rfl, hdecode, hlen⟩ :=
          queueEvents_ok hid (inRange_syntheticFeedbackEvents hsize32 hcount) hqueue
        obtain rfl : queue = pending := h
        have hentries := map_tableEntry_range (o := o) hpairs
        rw [← hcontents] at hentries
        refine ⟨table, trancheIndices pairs.length, by rw [hmade], ?_, hentries, ?_,
          flatten_trancheIndices _, ?_, hlen⟩
        · rw [hcontents, length_flatMap_tableEntryBytes]
        · rw [hdecode, syntheticFeedbackEvents, hsize]
        · rw [flatten_trancheIndices, hentries]
    · simp [buildSyntheticFeedbackMessages, hmade] at h
  · intro queue device e h
    cases device with
    | error e' => exact ⟨rfl, rfl⟩
    | ok device =>
      cases hresult : (buildSyntheticFeedbackMessages o calls guestId pairs device).result with
      | ok pending => simp [publishSyntheticFeedback, hresult] at h
      | error e' =>
        simp only [publishSyntheticFeedback, hresult]
        exact ⟨trivial, buildSyntheticFeedbackMessages_error hresult⟩

/-- A table of two pairs. -/
theorem synthetic_feedback_two :
    ∃ pending, (buildSyntheticFeedbackMessages .little ⟨5, .ok (), .ok (), 0, 0⟩ 77
        [(0x34325258, 0), (0x34324152, 1)] [226, 0, 0, 0, 0, 0, 0, 0]).result = .ok pending ∧
      ∃ tranches : List (List ℕ), tranches.flatten = [0, 1] ∧
        pending.map (FeedbackEvent.decode .little 77) =
          ([FeedbackEvent.formatTable 5 32, .mainDevice [226, 0, 0, 0, 0, 0, 0, 0],
            .trancheTargetDevice [226, 0, 0, 0, 0, 0, 0, 0], .trancheFlags 0] ++
            tranches.map FeedbackEvent.trancheFormats ++
            [FeedbackEvent.trancheDone, FeedbackEvent.done]).map some := by
  obtain ⟨hbuild, -⟩ := synthetic_feedback .little ⟨5, .ok (), .ok (), 0, 0⟩ 77
    [(0x34325258, 0), (0x34324152, 1)] (by decide) (by decide)
  refine ⟨_, rfl, ?_⟩
  obtain ⟨table, tranches, htable, -, -, hdecode, hindices, -⟩ :=
    hbuild [226, 0, 0, 0, 0, 0, 0, 0] _ rfl
  obtain rfl := Except.ok.inj htable
  exact ⟨tranches, hindices, hdecode⟩

end Sommelier
