import Sommelier.Usize
import Sommelier.Wire

/-!
# Control messages

The descriptors that arrive beside the bytes of a Unix socket. The control buffer is a chain
of records, each linked to the next by its length; the decoder walks the addresses of their
headers. It cannot trust the lengths, and whatever descriptors it has collected are closed
when the chain turns out to be malformed or cut off.

## Main definitions

* `decodeUnixControlFds`: the decoder, a walk of `controlStep` over the headers.
* `closeReceivedFds`: the descriptors that a failure closes.
* `Records`: a buffer starts with these records; `ControlChain`: and holds no more.
-/
namespace Sommelier

/-- What the transports report. -/
inductive IoError
  | invalidData (message : String)
  | invalidInput (message : String)
  | writeZero (message : String)
  | os (errno : ℕ)
  deriving DecidableEq, Repr

/-- The part of a received `msghdr` that the decoder reads: the address of the control
buffer, which may be null, its bytes and the flags. -/
structure Msghdr where
  control : ℕ
  bytes : List UInt8
  flags : ℕ
  deriving DecidableEq, Repr

/-- `size_of::<cmsghdr>()`: the length, the level and the type. -/
def controlHeaderSize : ℕ := 16

def solSocket : ℤ := 1
def scmRights : ℤ := 1
def msgCtrunc : ℕ := 8

/-- The numbers that are closed, in this order; `seen` are the ones met before. -/
def closeReceivedFds (seen : List RawFd) : List RawFd → List RawFd
  | [] => []
  | fd :: fds =>
    if 0 ≤ fd ∧ fd ∉ seen then fd :: closeReceivedFds (fd :: seen) fds
    else closeReceivedFds seen fds

/-- The end of the decoder: the descriptors it closed, and its result. -/
structure ControlResult where
  closed : List RawFd
  result : Except IoError (List RawFd)

/-- Close what was collected and report malformed data. -/
def failDecoding (fds : List RawFd) (message : String) : ControlResult :=
  ⟨closeReceivedFds [] fds, .error (.invalidData message)⟩

/-- A word as the signed number it stands for. -/
def asI32 (n : ℕ) : ℤ := if n < 2 ^ 31 then n else n - 2 ^ 32

variable (o : ByteOrder)

/-- The bytes at an address; `none` is a read outside the control buffer. -/
def Msghdr.read (msg : Msghdr) (addr len : ℕ) : Option (List UInt8) :=
  (checkedSub addr msg.control).bind fun offset => slice msg.bytes offset (offset + len)

def Msghdr.readI32 (msg : Msghdr) (addr : ℕ) : Option ℤ :=
  (msg.read addr 4).map fun bytes => asI32 (o.fromNeBytes bytes)

/-- Collect the descriptors of the record at an address. -/
def readRights (msg : Msghdr) (currentAddr cmsgLen : ℕ) (fds : List RawFd) :
    Option (Except ControlResult (List RawFd)) :=
  let payloadLen := cmsgLen - controlHeaderSize
  if payloadLen % 4 ≠ 0 then
    some (.error (failDecoding fds "SCM_RIGHTS payload is not fd-aligned"))
  else
    match checkedAdd currentAddr controlHeaderSize with
    | none => some (.error (failDecoding fds "SCM_RIGHTS payload address overflows"))
    | some dataAddr =>
      match checkedAdd dataAddr payloadLen, checkedAdd currentAddr cmsgLen with
      | none, _ => some (.error (failDecoding fds "SCM_RIGHTS payload end overflows"))
      | _, none => some (.error (failDecoding fds "SCM_RIGHTS message end overflows"))
      | some dataEnd, some messageEnd =>
        if messageEnd < dataEnd then
          some (.error (failDecoding fds "SCM_RIGHTS payload exceeds control message"))
        else
          ((List.range (payloadLen / 4)).mapM fun index =>
            msg.readI32 o (dataAddr + index * 4)).map fun new => .ok (fds ++ new)

/-- The address of the next header, when the buffer has room for one. -/
def nextHeader (controlEnd currentAddr cmsgLen : ℕ) (fds : List RawFd) :
    Except ControlResult (Option ℕ) :=
  match (checkedAdd cmsgLen 7).map fun len => len / 8 * 8 with
  | none => .error (failDecoding fds "SCM_RIGHTS control alignment overflows")
  | some alignedLen =>
    match checkedAdd currentAddr alignedLen with
    | none => .error (failDecoding fds "SCM_RIGHTS control chain overflows")
    | some nextAddr =>
      if controlEnd ≤ nextAddr ∨ controlEnd - nextAddr < controlHeaderSize then .ok none
      else .ok (some nextAddr)

/-- One round of the loop: the record at an address, and the address of the next. -/
def controlStep (msg : Msghdr) (controlEnd currentAddr : ℕ) (fds : List RawFd) :
    Option (Except ControlResult (Option ℕ × List RawFd)) :=
  let controlLen := msg.bytes.length
  match checkedSub currentAddr msg.control with
  | none =>
    some (.error (failDecoding fds "SCM_RIGHTS header lies outside the control buffer"))
  | some currentOffset =>
    if controlLen < currentOffset ∨ controlLen - currentOffset < controlHeaderSize then
      some (.error (failDecoding fds "truncated SCM_RIGHTS control header"))
    else
      (msg.read currentAddr 8).bind fun lenBytes =>
        let cmsgLen := o.fromNeBytes lenBytes
        if cmsgLen < controlHeaderSize ∨ controlEnd - currentAddr < cmsgLen then
          some (.error (failDecoding fds "invalid SCM_RIGHTS control length"))
        else
          (msg.readI32 o (currentAddr + 8)).bind fun cmsgLevel =>
            (msg.readI32 o (currentAddr + 12)).bind fun cmsgType =>
              (if cmsgLevel = solSocket ∧ cmsgType = scmRights then
                readRights o msg currentAddr cmsgLen fds
              else some (.ok fds)).map fun collected =>
                collected.bind fun fds =>
                  (nextHeader controlEnd currentAddr cmsgLen fds).map fun next => (next, fds)

/-- The loop; `none` is a read outside the buffer, or a walk that has not ended. -/
def controlLoop (msg : Msghdr) (controlEnd : ℕ) :
    ℕ → Option ℕ → List RawFd → Option (Except ControlResult (List RawFd))
  | _, none, fds => some (.ok fds)
  | 0, some _, _ => none
  | fuel + 1, some current, fds =>
    (controlStep o msg controlEnd current fds).bind fun result =>
      match result with
      | .error d => some (.error d)
      | .ok (next, fds) => controlLoop msg controlEnd fuel next fds

def decodeUnixControlFds (fuel : ℕ) (msg : Msghdr) : Option ControlResult :=
  match checkedAdd msg.control msg.bytes.length with
  | none =>
    some ⟨[], .error (.invalidData "SCM_RIGHTS control buffer address overflows")⟩
  | some controlEnd =>
    let first := if controlHeaderSize ≤ msg.bytes.length ∧ msg.control ≠ 0 then
      some msg.control else none
    (controlLoop o msg controlEnd fuel first []).map fun result =>
      match result with
      | .error d => d
      | .ok fds =>
        if msg.flags &&& msgCtrunc ≠ 0 then
          failDecoding fds "truncated SCM_RIGHTS ancillary data"
        else ⟨[], .ok fds⟩

/-! ## Chains of records -/

/-- A record of a control buffer. -/
structure ControlMessage where
  level : ℤ
  type : ℤ
  data : List UInt8
  deriving DecidableEq, Repr

/-- The descriptors in the data of a record. -/
def fdsOfBytes : List UInt8 → List RawFd
  | a :: b :: c :: d :: rest => asI32 (o.fromNeBytes [a, b, c, d]) :: fdsOfBytes rest
  | _ => []

namespace ControlMessage

def IsRights (m : ControlMessage) : Prop := m.level = solSocket ∧ m.type = scmRights

instance (m : ControlMessage) : Decidable m.IsRights := inferInstanceAs (Decidable (_ ∧ _))

def len (m : ControlMessage) : ℕ := controlHeaderSize + m.data.length

/-- The distance to the next record. -/
def alignedLen (m : ControlMessage) : ℕ := (m.len + 7) / 8 * 8

def descriptors (m : ControlMessage) : List RawFd :=
  if m.IsRights then fdsOfBytes o m.data else []

/-- The buffer starts with the header of the record and its data. -/
structure HeaderAt (m : ControlMessage) (bytes : List UInt8) : Prop where
  fits : controlHeaderSize ≤ bytes.length
  len : o.fromNeBytes (bytes.take 8) = m.len
  level : asI32 (o.fromNeBytes ((bytes.drop 8).take 4)) = m.level
  type : asI32 (o.fromNeBytes ((bytes.drop 12).take 4)) = m.type
  data : m.data <+: bytes.drop controlHeaderSize

/-- The buffer starts with the record, which consists of whole descriptors if of any. -/
def WellFormedAt (m : ControlMessage) (bytes : List UInt8) : Prop :=
  m.HeaderAt o bytes ∧ (m.IsRights → m.data.length % 4 = 0)

end ControlMessage

/-- A buffer is a chain of these records and a rest behind them. -/
def Records : List ControlMessage → List UInt8 → List UInt8 → Prop
  | [], bytes, rest => bytes = rest
  | m :: ms, bytes, rest => m.WellFormedAt o bytes ∧ Records ms (bytes.drop m.alignedLen) rest

/-- A well-formed chain ends where no header fits. -/
def ControlChain (ms : List ControlMessage) (bytes : List UInt8) : Prop :=
  ∃ rest, Records o ms bytes rest ∧ rest.length < controlHeaderSize

/-- The buffer exists, and so do the addresses of the padding behind it. -/
def Msghdr.Addressable (msg : Msghdr) : Prop :=
  msg.control ≠ 0 ∧ msg.control + msg.bytes.length + 7 < 2 ^ 64

variable {o} {msg : Msghdr} {m m' : ControlMessage}

/-- The header and the length determine the record. -/
theorem ControlMessage.HeaderAt.unique {bytes : List UInt8} (h : m.HeaderAt o bytes)
    (h' : m'.HeaderAt o bytes) : m = m' := by
  have hlen : m.data.length = m'.data.length := by
    have heq : m.len = m'.len := h.len.symm.trans h'.len
    unfold ControlMessage.len at heq
    omega
  have hdata : m.data = m'.data := by
    rw [List.prefix_iff_eq_take.mp h.data, List.prefix_iff_eq_take.mp h'.data, hlen]
  have hlevel := h.level.symm.trans h'.level
  have htype := h.type.symm.trans h'.type
  cases m
  cases m'
  simp_all

theorem Msghdr.read_of_le {k len : ℕ} (h : k + len ≤ msg.bytes.length) :
    msg.read (msg.control + k) len = some ((msg.bytes.drop k).take len) := by
  have hle : msg.control ≤ msg.control + k := Nat.le_add_right ..
  rw [Msghdr.read, checkedSub, if_pos hle, Option.bind_some, Nat.add_sub_cancel_left,
    slice_of_le (Nat.le_add_right ..) h, Nat.add_sub_cancel_left]

theorem Msghdr.readI32_of_le {k : ℕ} (h : k + 4 ≤ msg.bytes.length) :
    msg.readI32 o (msg.control + k) =
      some (asI32 (o.fromNeBytes ((msg.bytes.drop k).take 4))) := by
  rw [Msghdr.readI32, Msghdr.read_of_le h, Option.map_some]

/-- The loop over the data of a record reads its descriptors in order. -/
theorem mapM_readI32 {n k : ℕ} (h : k + 4 * n ≤ msg.bytes.length) :
    ((List.range n).mapM fun index => msg.readI32 o (msg.control + k + index * 4)) =
      some (fdsOfBytes o ((msg.bytes.drop k).take (4 * n))) := by
  induction n generalizing k with
  | zero => rfl
  | succ n ih =>
    have hshift : ∀ index,
        msg.control + k + (index + 1) * 4 = msg.control + (k + 4) + index * 4 := by
      intro index
      omega
    have hrest := ih (k := k + 4) (by omega)
    rw [List.range_succ_eq_map, List.mapM_cons, Nat.zero_mul, Nat.add_zero,
      Msghdr.readI32_of_le (by omega), List.mapM_map]
    simp only [Function.comp_def, Nat.succ_eq_add_one, hshift, hrest]
    match hdrop : msg.bytes.drop k with
    | a :: b :: c :: d :: rest =>
      have hdrop4 : msg.bytes.drop (k + 4) = rest := by
        rw [← List.drop_drop, hdrop]
        rfl
      rw [hdrop4, Nat.mul_succ]
      rfl
    | [] | [_] | [_, _] | [_, _, _] =>
      have hlen := congrArg List.length hdrop
      simp only [List.length_drop, List.length_cons, List.length_nil] at hlen
      omega

/-- Collecting the descriptors of a record that lies in the buffer. -/
theorem readRights_eq {k : ℕ} (hend : msg.control + msg.bytes.length < 2 ^ 64)
    (hm : m.HeaderAt o (msg.bytes.drop k)) (hfit : k + m.len ≤ msg.bytes.length)
    (fds : List RawFd) :
    readRights o msg (msg.control + k) m.len fds =
      if m.data.length % 4 = 0 then some (.ok (fds ++ fdsOfBytes o m.data))
      else some (.error (failDecoding fds "SCM_RIGHTS payload is not fd-aligned")) := by
  have hlen : m.len = 16 + m.data.length := rfl
  have hpayload : m.len - controlHeaderSize = m.data.length := Nat.add_sub_cancel_left ..
  unfold readRights
  simp only [hpayload]
  by_cases hmod : m.data.length % 4 = 0
  · have hdata : (msg.bytes.drop (k + 16)).take m.data.length = m.data := by
      rw [← List.drop_drop]
      exact (List.prefix_iff_eq_take.mp hm.data).symm
    have hread : ((List.range (m.data.length / 4)).mapM fun index =>
        msg.readI32 o (msg.control + (k + 16) + index * 4)) =
          some (fdsOfBytes o ((msg.bytes.drop (k + 16)).take (4 * (m.data.length / 4)))) :=
      mapM_readI32 (by omega)
    have hdataAddr : checkedAdd (msg.control + k) controlHeaderSize =
        some (msg.control + (k + 16)) := checkedAdd_of_lt (by unfold controlHeaderSize; omega)
    have hdataEnd : checkedAdd (msg.control + (k + 16)) m.data.length =
        some (msg.control + (k + 16) + m.data.length) := checkedAdd_of_lt (by omega)
    have hmessageEnd : checkedAdd (msg.control + k) m.len = some (msg.control + k + m.len) :=
      checkedAdd_of_lt (by omega)
    have horder : ¬ msg.control + k + m.len < msg.control + (k + 16) + m.data.length := by
      omega
    rw [Nat.mul_div_cancel' (Nat.dvd_of_mod_eq_zero hmod), hdata] at hread
    simp only [hmod, hdataAddr, hdataEnd, hmessageEnd, horder, hread, ne_eq, not_true, if_false,
      if_true, Option.map_some]
  · rw [if_pos hmod, if_neg hmod]

/-- The next header lies in the buffer, or the buffer has no room for it. Only the padding
behind the buffer may lie outside the address space. -/
theorem nextHeader_cases {k : ℕ} (hfit : k + m.len ≤ msg.bytes.length) (fds : List RawFd) :
    let next := nextHeader (msg.control + msg.bytes.length) (msg.control + k) m.len fds
    (¬ msg.Addressable ∧ ∃ message, next = .error (failDecoding fds message)) ∨
      (next = .ok none ∧ (msg.bytes.drop (k + m.alignedLen)).length < controlHeaderSize) ∨
      (next = .ok (some (msg.control + (k + m.alignedLen))) ∧
        controlHeaderSize ≤ (msg.bytes.drop (k + m.alignedLen)).length) := by
  have haligned : m.alignedLen = (m.len + 7) / 8 * 8 := rfl
  have hheader : controlHeaderSize = 16 := rfl
  have hlen : m.len = 16 + m.data.length := rfl
  intro next
  rw [List.length_drop]
  by_cases hround : m.len + 7 < 2 ^ 64
  · have hlen7 : checkedAdd m.len 7 = some (m.len + 7) := checkedAdd_of_lt hround
    by_cases hsum : msg.control + k + m.alignedLen < 2 ^ 64
    · have hnext : checkedAdd (msg.control + k) m.alignedLen =
          some (msg.control + (k + m.alignedLen)) := by
        rw [checkedAdd_of_lt hsum, Nat.add_assoc]
      have heq : next = if msg.control + msg.bytes.length ≤ msg.control + (k + m.alignedLen) ∨
          msg.control + msg.bytes.length - (msg.control + (k + m.alignedLen)) <
            controlHeaderSize then .ok none
          else .ok (some (msg.control + (k + m.alignedLen))) := by
        simp only [next, nextHeader, hlen7, Option.map_some, ← haligned, hnext]
      rw [heq]
      split_ifs with hroom
      · exact .inr (.inl ⟨rfl, by omega⟩)
      · exact .inr (.inr ⟨rfl, by omega⟩)
    · have hnext : checkedAdd (msg.control + k) m.alignedLen = none := if_neg hsum
      refine .inl ⟨fun haddr => ?_, "SCM_RIGHTS control chain overflows", ?_⟩
      · have hend := haddr.2
        omega
      · simp only [next, nextHeader, hlen7, Option.map_some, ← haligned, hnext]
  · have hlen7 : checkedAdd m.len 7 = none := if_neg hround
    refine .inl ⟨fun haddr => ?_, "SCM_RIGHTS control alignment overflows", ?_⟩
    · have hend := haddr.2
      omega
    · simp only [next, nextHeader, hlen7, Option.map_none]

/-- A round reads a well-formed record, or fails because there is none. -/
theorem controlStep_cases {k : ℕ} (hend : msg.control + msg.bytes.length < 2 ^ 64)
    (hk : controlHeaderSize ≤ (msg.bytes.drop k).length) (fds : List RawFd) :
    let step := controlStep o msg (msg.control + msg.bytes.length) (msg.control + k) fds
    (∃ m : ControlMessage, m.WellFormedAt o (msg.bytes.drop k) ∧ k + m.len ≤ msg.bytes.length ∧
      step = some ((nextHeader (msg.control + msg.bytes.length) (msg.control + k) m.len
        (fds ++ m.descriptors o)).map fun next => (next, fds ++ m.descriptors o))) ∨
    ((∀ m : ControlMessage, ¬ m.WellFormedAt o (msg.bytes.drop k)) ∧
      ∃ message, step = some (.error (failDecoding fds message))) := by
  have hheader : controlHeaderSize = 16 := rfl
  intro step
  rw [List.length_drop] at hk
  have hoffset : checkedSub (msg.control + k) msg.control = some k := by
    rw [checkedSub, if_pos (Nat.le_add_right ..), Nat.add_sub_cancel_left]
  have hinside : ¬ (msg.bytes.length < k ∨ msg.bytes.length - k < controlHeaderSize) := by
    omega
  have hremaining : msg.control + msg.bytes.length - (msg.control + k) =
      msg.bytes.length - k := Nat.add_sub_add_left ..
  set rest := msg.bytes.drop k with hrest
  set cmsgLen := o.fromNeBytes (rest.take 8) with hcmsgLen
  have hstep : step = if cmsgLen < controlHeaderSize ∨ msg.bytes.length - k < cmsgLen then
      some (.error (failDecoding fds "invalid SCM_RIGHTS control length"))
      else (if asI32 (o.fromNeBytes ((rest.drop 8).take 4)) = solSocket ∧
          asI32 (o.fromNeBytes ((rest.drop 12).take 4)) = scmRights then
        readRights o msg (msg.control + k) cmsgLen fds
      else some (.ok fds)).map fun collected => collected.bind fun fds =>
        (nextHeader (msg.control + msg.bytes.length) (msg.control + k) cmsgLen fds).map
          fun next => (next, fds) := by
    simp only [step, controlStep, hoffset, hinside, if_false, hremaining]
    rw [Msghdr.read_of_le (by omega), Option.bind_some, Nat.add_assoc, Nat.add_assoc,
      Msghdr.readI32_of_le (by omega), Msghdr.readI32_of_le (by omega), ← List.drop_drop,
      ← List.drop_drop]
    rfl
  rw [hstep]
  by_cases hlen : cmsgLen < controlHeaderSize ∨ msg.bytes.length - k < cmsgLen
  · refine .inr ⟨fun m hm => ?_, _, if_pos hlen⟩
    have heq : cmsgLen = 16 + m.data.length := hm.1.len
    have hle := hm.1.data.length_le
    rw [List.length_drop, hrest, List.length_drop] at hle
    omega
  · have hdata : ((rest.drop controlHeaderSize).take (cmsgLen - controlHeaderSize)).length =
        cmsgLen - controlHeaderSize := by
      rw [List.length_take, List.length_drop, hrest, List.length_drop]
      omega
    let m : ControlMessage := {
      level := asI32 (o.fromNeBytes ((rest.drop 8).take 4))
      type := asI32 (o.fromNeBytes ((rest.drop 12).take 4))
      data := (rest.drop controlHeaderSize).take (cmsgLen - controlHeaderSize) }
    have hmlen : m.len = cmsgLen := by
      rw [ControlMessage.len, hdata]
      omega
    have hm : m.HeaderAt o rest := {
      fits := by
        rw [hrest, List.length_drop]
        exact hk
      len := hmlen.symm
      level := rfl
      type := rfl
      data := List.take_prefix _ _ }
    have hfit : k + m.len ≤ msg.bytes.length := by
      rw [hmlen]
      omega
    rw [if_neg hlen, ← hmlen]
    by_cases hrights : m.IsRights
    · have hdescriptors : m.descriptors o = fdsOfBytes o m.data := if_pos hrights
      rw [if_pos (by exact hrights), readRights_eq hend hm hfit]
      by_cases hmod : m.data.length % 4 = 0
      · refine .inl ⟨m, ⟨hm, fun _ => hmod⟩, hfit, ?_⟩
        rw [if_pos hmod, hdescriptors]
        rfl
      · refine .inr ⟨fun m' hm' => ?_, _, congrArg _ (if_neg hmod)⟩
        obtain rfl := hm.unique hm'.1
        exact hmod (hm'.2 hrights)
    · have hdescriptors : m.descriptors o = [] := if_neg hrights
      refine .inl ⟨m, ⟨hm, fun h => absurd h hrights⟩, hfit, ?_⟩
      rw [if_neg (by exact hrights), hdescriptors, List.append_nil]
      rfl

/-! ## The walk -/

variable (o) in
/-- The buffer has room for a header, but no record is there. -/
def Stuck (bytes : List UInt8) : Prop :=
  controlHeaderSize ≤ bytes.length ∧ ∀ m : ControlMessage, ¬ m.WellFormedAt o bytes

theorem controlChain_cons {ms : List ControlMessage} {bytes : List UInt8}
    (hm : m.WellFormedAt o bytes) (hms : ControlChain o ms (bytes.drop m.alignedLen)) :
    ControlChain o (m :: ms) bytes := by
  obtain ⟨rest, hrecords, hshort⟩ := hms
  exact ⟨rest, ⟨hm, hrecords⟩, hshort⟩

theorem ControlChain.not_stuck {ms ms' : List ControlMessage} {bytes rest : List UInt8}
    (h : ControlChain o ms bytes) (h' : Records o ms' bytes rest) : ¬ Stuck o rest := by
  rintro ⟨hroom, hstuck⟩
  obtain ⟨last, hrecords, hshort⟩ := h
  induction ms' generalizing ms bytes with
  | nil =>
    obtain rfl : bytes = rest := h'
    cases ms with
    | nil =>
      obtain rfl : bytes = last := hrecords
      omega
    | cons m ms => exact hstuck m hrecords.1
  | cons m' ms' ih =>
    cases ms with
    | nil =>
      obtain rfl : bytes = last := hrecords
      have hfits := h'.1.1.fits
      omega
    | cons m ms =>
      obtain rfl := hrecords.1.1.unique h'.1.1
      exact ih h'.2 hrecords.2

theorem ControlChain.unique {ms ms' : List ControlMessage} {bytes : List UInt8}
    (h : ControlChain o ms bytes) (h' : ControlChain o ms' bytes) : ms = ms' := by
  obtain ⟨rest, hrecords, hshort⟩ := h
  obtain ⟨rest', hrecords', hshort'⟩ := h'
  induction ms generalizing ms' bytes with
  | nil =>
    obtain rfl : bytes = rest := hrecords
    cases ms' with
    | nil => rfl
    | cons m' ms' =>
      have hfits := hrecords'.1.1.fits
      omega
  | cons m ms ih =>
    cases ms' with
    | nil =>
      obtain rfl : bytes = rest' := hrecords'
      have hfits := hrecords.1.1.fits
      omega
    | cons m' ms' =>
      obtain rfl := hrecords.1.1.unique hrecords'.1.1
      rw [ih hrecords.2 hrecords'.2]

variable (o) in
/-- The descriptors of the records, in order. -/
def allDescriptors (ms : List ControlMessage) : List RawFd :=
  ms.flatMap fun m => m.descriptors o

/-- The walk ends at the end of a chain, or at the first place where the chain breaks. Each
round moves past a header, so the fuel that covers the buffer suffices. -/
theorem controlLoop_cases (hend : msg.control + msg.bytes.length < 2 ^ 64) {fuel k : ℕ}
    (hk : controlHeaderSize ≤ (msg.bytes.drop k).length)
    (hfuel : (msg.bytes.drop k).length < controlHeaderSize * fuel) (fds : List RawFd) :
    let loop := controlLoop o msg (msg.control + msg.bytes.length) fuel
      (some (msg.control + k)) fds
    (∃ ms, ControlChain o ms (msg.bytes.drop k) ∧
      loop = some (.ok (fds ++ allDescriptors o ms))) ∨
    ∃ ms rest message, Records o ms (msg.bytes.drop k) rest ∧
      (msg.Addressable → Stuck o rest) ∧
      loop = some (.error (failDecoding (fds ++ allDescriptors o ms) message)) := by
  induction fuel generalizing k fds with
  | zero => omega
  | succ fuel ih =>
    intro loop
    rcases controlStep_cases (o := o) hend hk fds with
      ⟨m, hm, hfit, hstep⟩ | ⟨hnone, message, hstep⟩
    · have hpast : controlHeaderSize ≤ m.alignedLen := by
        have hlen : m.len = 16 + m.data.length := rfl
        unfold ControlMessage.alignedLen controlHeaderSize
        omega
      have hloop : loop = (controlStep o msg (msg.control + msg.bytes.length)
          (msg.control + k) fds).bind _ := rfl
      rw [hstep, Option.bind_some] at hloop
      rcases nextHeader_cases hfit (fds ++ m.descriptors o) with
        ⟨hfar, message, hnext⟩ | ⟨hnext, hshort⟩ | ⟨hnext, hroom⟩
      · refine .inr ⟨[m], _, message, ⟨hm, rfl⟩, fun h => absurd h hfar, ?_⟩
        rw [hloop, hnext]
        simp [Except.map, allDescriptors]
      · rw [← List.drop_drop] at hshort
        refine .inl ⟨[m], controlChain_cons hm ⟨_, rfl, hshort⟩, ?_⟩
        rw [hloop, hnext]
        simp [Except.map, controlLoop, allDescriptors]
      · have hdrop : (msg.bytes.drop k).drop m.alignedLen =
            msg.bytes.drop (k + m.alignedLen) := List.drop_drop
        have hless : (msg.bytes.drop (k + m.alignedLen)).length < controlHeaderSize * fuel := by
          have hlength := congrArg List.length hdrop
          rw [List.length_drop] at hlength
          rw [Nat.mul_succ] at hfuel
          omega
        have happend : ∀ ms, fds ++ m.descriptors o ++ allDescriptors o ms =
            fds ++ allDescriptors o (m :: ms) := by
          intro ms
          simp [allDescriptors]
        rw [hnext] at hloop
        rcases ih hroom hless (fds ++ m.descriptors o) with
          ⟨ms, hchain, hrest⟩ | ⟨ms, rest, message, hrecords, hstuck, hrest⟩
        · rw [← hdrop] at hchain
          exact .inl ⟨m :: ms, controlChain_cons hm hchain,
            hloop.trans (hrest.trans (by rw [happend]))⟩
        · rw [← hdrop] at hrecords
          exact .inr ⟨m :: ms, rest, message, ⟨hm, hrecords⟩, hstuck,
            hloop.trans (hrest.trans (by rw [happend]))⟩
    · refine .inr ⟨[], _, message, rfl, fun _ => ⟨hk, hnone⟩, ?_⟩
      have hloop : loop = (controlStep o msg (msg.control + msg.bytes.length)
          (msg.control + k) fds).bind _ := rfl
      rw [hloop, hstep]
      simp [allDescriptors]

/-- More fuel changes nothing once the walk has ended. -/
theorem controlLoop_mono {controlEnd fuel fuel' : ℕ} {next : Option ℕ} {fds : List RawFd}
    {result : Except ControlResult (List RawFd)} (hle : fuel ≤ fuel')
    (h : controlLoop o msg controlEnd fuel next fds = some result) :
    controlLoop o msg controlEnd fuel' next fds = some result := by
  induction fuel generalizing fuel' next fds with
  | zero =>
    cases next with
    | none => cases fuel' <;> exact h
    | some current => simp [controlLoop] at h
  | succ fuel ih =>
    cases next with
    | none => cases fuel' <;> exact h
    | some current =>
      obtain ⟨fuel', rfl⟩ : ∃ n, fuel' = n + 1 := ⟨fuel' - 1, by omega⟩
      obtain ⟨step, hstep, hrest⟩ := Option.bind_eq_some_iff.mp h
      rw [controlLoop, hstep]
      match step, hrest with
      | .error d, hrest => exact hrest
      | .ok (next, fds), hrest => exact ih (by omega) hrest

theorem decodeUnixControlFds_mono {fuel fuel' : ℕ} {d : ControlResult} (hle : fuel ≤ fuel')
    (h : decodeUnixControlFds o fuel msg = some d) :
    decodeUnixControlFds o fuel' msg = some d := by
  unfold decodeUnixControlFds at h ⊢
  cases hend : checkedAdd msg.control msg.bytes.length with
  | none => simpa [hend] using h
  | some controlEnd =>
    simp only [hend] at h ⊢
    obtain ⟨result, hloop, hd⟩ := Option.map_eq_some_iff.mp h
    rw [controlLoop_mono hle hloop, Option.map_some, hd]

/-! ## Closing -/

theorem mem_closeReceivedFds {seen fds : List RawFd} {fd : RawFd} :
    fd ∈ closeReceivedFds seen fds ↔ fd ∈ fds ∧ 0 ≤ fd ∧ fd ∉ seen := by
  induction fds generalizing seen with
  | nil => simp [closeReceivedFds]
  | cons first fds ih =>
    unfold closeReceivedFds
    split_ifs with hfirst
    · simp only [List.mem_cons, ih, not_or]
      grind
    · simp only [List.mem_cons, ih]
      grind

theorem nodup_closeReceivedFds (seen fds : List RawFd) : (closeReceivedFds seen fds).Nodup := by
  induction fds generalizing seen with
  | nil => exact List.nodup_nil
  | cons first fds ih =>
    unfold closeReceivedFds
    split_ifs with hfirst
    · refine List.nodup_cons.mpr ⟨fun hin => ?_, ih _⟩
      exact (mem_closeReceivedFds.mp hin).2.2 List.mem_cons_self
    · exact ih _

/-- Every descriptor among the numbers is closed, and closed once. -/
def ClosedOnce (closed fds : List RawFd) : Prop :=
  closed.Nodup ∧ ∀ fd, fd ∈ closed ↔ 0 ≤ fd ∧ fd ∈ fds

theorem closedOnce_closeReceivedFds (fds : List RawFd) :
    ClosedOnce (closeReceivedFds [] fds) fds := by
  refine ⟨nodup_closeReceivedFds [] fds, fun fd => ?_⟩
  simp [mem_closeReceivedFds, and_comm]

/-- The end of the decoder in terms of the records of the buffer: a chain that is complete
and was not cut off, or the closing of all descriptors before the place of the failure. -/
theorem decodeUnixControlFds_cases {fuel : ℕ}
    (hfuel : msg.bytes.length < controlHeaderSize * fuel) :
    (∃ fds, decodeUnixControlFds o fuel msg = some ⟨[], .ok fds⟩ ∧
      (msg.Addressable → ∃ ms, ControlChain o ms msg.bytes ∧ fds = allDescriptors o ms)) ∨
    ∃ ms rest e closed, decodeUnixControlFds o fuel msg = some ⟨closed, .error e⟩ ∧
      Records o ms msg.bytes rest ∧ ClosedOnce closed (allDescriptors o ms) ∧
      (msg.Addressable → Stuck o rest ∨
        ControlChain o ms msg.bytes ∧ msg.flags &&& msgCtrunc ≠ 0) := by
  have hnothing : ClosedOnce [] (allDescriptors o []) := ⟨List.nodup_nil, by simp [allDescriptors]⟩
  unfold decodeUnixControlFds
  by_cases hend : msg.control + msg.bytes.length < 2 ^ 64
  · rw [checkedAdd_of_lt hend]
    dsimp only
    by_cases hfirst : controlHeaderSize ≤ msg.bytes.length ∧ msg.control ≠ 0
    · rw [if_pos hfirst]
      rcases controlLoop_cases (o := o) (k := 0) hend hfirst.1 hfuel [] with
        ⟨ms, hchain, hloop⟩ | ⟨ms, rest, message, hrecords, hstuck, hloop⟩
      · rw [Nat.add_zero] at hloop
        rw [hloop, Option.map_some]
        dsimp only
        split_ifs with hflags
        · obtain ⟨rest, hrecords, hshort⟩ := hchain
          exact .inr ⟨ms, rest, _, _, rfl, hrecords, closedOnce_closeReceivedFds _,
            fun _ => .inr ⟨⟨rest, hrecords, hshort⟩, hflags⟩⟩
        · exact .inl ⟨_, rfl, fun _ => ⟨ms, hchain, rfl⟩⟩
      · rw [Nat.add_zero] at hloop
        rw [hloop, Option.map_some]
        exact .inr ⟨ms, rest, _, _, rfl, hrecords, closedOnce_closeReceivedFds _,
          fun haddr => .inl (hstuck haddr)⟩
    · have hempty : msg.Addressable → ControlChain o [] msg.bytes := fun haddr =>
        ⟨msg.bytes, rfl, by
          by_contra hroom
          exact hfirst ⟨Nat.le_of_not_lt hroom, haddr.1⟩⟩
      have hloop : controlLoop o msg (msg.control + msg.bytes.length) fuel none [] =
          some (.ok []) := by
        cases fuel <;> rfl
      rw [if_neg hfirst, hloop, Option.map_some]
      dsimp only
      split_ifs with hflags
      · exact .inr ⟨[], msg.bytes, _, _, rfl, rfl, hnothing,
          fun haddr => .inr ⟨hempty haddr, hflags⟩⟩
      · exact .inl ⟨[], rfl, fun haddr => ⟨[], hempty haddr, rfl⟩⟩
  · have hnone : checkedAdd msg.control msg.bytes.length = none := if_neg hend
    rw [hnone]
    refine .inr ⟨[], msg.bytes, _, _, rfl, rfl, hnothing, fun haddr => ?_⟩
    have hlt := haddr.2
    omega

/-- The decoder ends on every control buffer, without a read outside it. A well-formed chain
that was not cut off gives exactly the descriptors of its records, in order. A failure
closes every descriptor of the records before it once, and returns none. -/
theorem decode_control_fds (o : ByteOrder) (msg : Msghdr) :
    ∃ d, (∀ fuel, msg.bytes.length < controlHeaderSize * fuel →
        decodeUnixControlFds o fuel msg = some d) ∧
      (∀ ms, msg.Addressable → ControlChain o ms msg.bytes → msg.flags &&& msgCtrunc = 0 →
        d.result = .ok (allDescriptors o ms) ∧ d.closed = []) ∧
      ∀ e, d.result = .error e → ∃ ms rest, Records o ms msg.bytes rest ∧
        ClosedOnce d.closed (allDescriptors o ms) ∧
        (msg.Addressable → Stuck o rest ∨
          ControlChain o ms msg.bytes ∧ msg.flags &&& msgCtrunc ≠ 0) := by
  set fuel := msg.bytes.length / 16 + 1 with hdef
  have hfuel : msg.bytes.length < controlHeaderSize * fuel := by
    unfold controlHeaderSize
    omega
  have henough : ∀ {d}, decodeUnixControlFds o fuel msg = some d → ∀ fuel',
      msg.bytes.length < controlHeaderSize * fuel' →
        decodeUnixControlFds o fuel' msg = some d := by
    intro d hd fuel' hfuel'
    unfold controlHeaderSize at hfuel'
    exact decodeUnixControlFds_mono (by omega) hd
  rcases decodeUnixControlFds_cases (o := o) hfuel with
    ⟨fds, hd, hfds⟩ | ⟨ms, rest, e, closed, hd, hrecords, hclosed, hwhere⟩
  · refine ⟨_, henough hd, fun ms haddr hchain _ => ⟨?_, rfl⟩, fun e he => by simp at he⟩
    obtain ⟨ms', hchain', rfl⟩ := hfds haddr
    rw [hchain.unique hchain']
  · refine ⟨_, henough hd, fun ms' haddr hchain hflags => ?_, fun _ _ =>
      ⟨ms, rest, hrecords, hclosed, hwhere⟩⟩
    rcases hwhere haddr with hstuck | ⟨-, hcut⟩
    · exact absurd hstuck (hchain.not_stuck hrecords)
    · exact absurd hflags hcut

/-- Two descriptors in one record. -/
theorem decode_control_fds_pair :
    ∃ d, decodeUnixControlFds .little 2 ⟨4096, [24, 0, 0, 0, 0, 0, 0, 0, 1, 0, 0, 0, 1, 0, 0, 0,
        5, 0, 0, 0, 6, 0, 0, 0], 0⟩ = some d ∧ d.result = .ok [5, 6] ∧ d.closed = [] := by
  obtain ⟨d, hd, hok, -⟩ := decode_control_fds .little ⟨4096, [24, 0, 0, 0, 0, 0, 0, 0, 1, 0, 0, 0,
    1, 0, 0, 0, 5, 0, 0, 0, 6, 0, 0, 0], 0⟩
  have hheader : ControlMessage.HeaderAt .little ⟨1, 1, [5, 0, 0, 0, 6, 0, 0, 0]⟩
      [24, 0, 0, 0, 0, 0, 0, 0, 1, 0, 0, 0, 1, 0, 0, 0, 5, 0, 0, 0, 6, 0, 0, 0] :=
    ⟨by decide, by decide, by decide, by decide, by decide⟩
  refine ⟨d, hd 2 (by decide), hok [⟨1, 1, [5, 0, 0, 0, 6, 0, 0, 0]⟩] ⟨by decide, by decide⟩ ?_ rfl⟩
  exact ⟨[], ⟨⟨hheader, fun _ => rfl⟩, rfl⟩, by decide⟩

end Sommelier
