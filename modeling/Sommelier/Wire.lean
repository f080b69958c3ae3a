import Mathlib.Algebra.Group.Nat.Defs
import Mathlib.Algebra.Group.Int.Defs
import Mathlib.Tactic.Common

/-!
# Wire format

Messages are framed in the byte order of the machine: a word with the sender, a word
with the total length in its upper and the opcode in its lower half, then the payload.
`frame` is the header test at the top of the dispatch loop, and `tryBuildMessage` the
encoder; the encoder's messages are framed back whole.

## Main definitions

* `ByteOrder`: the byte order, with integers read (`fromNeBytes`) and written (`toNeBytes`).
* `parseHeader`, `frame`: the header of a buffered message and what the loop makes of it.
* `tryBuildMessage`: a complete message, or the reason it does not fit.
-/
namespace Sommelier

/-- Byte order of the machine; the wire format is the native one. -/
inductive ByteOrder
  | little
  | big
  deriving DecidableEq, Repr

/-- A file descriptor number. -/
abbrev RawFd := ℤ

/-- Errors of the message readers, the builder and the generated dispatch. -/
inductive ProtocolError
  | insufficientData
  | invalidString
  | missingFd
  | invalidObjectId (id : ℕ)
  | unsupportedVersion (objectId required actual : ℕ)
  | messageTooLarge (length : ℕ)
  | invalidMessageLength (length : ℕ)
  | trailingData
  | unknownOpcode (opcode : ℕ)
  deriving DecidableEq, Repr

namespace ByteOrder

/-- `from_ne_bytes` at any width. -/
def fromNeBytes : ByteOrder → List UInt8 → ℕ
  | little, bs => bs.foldr (fun b n => b.toNat + 256 * n) 0
  | big, bs => bs.foldl (fun n b => 256 * n + b.toNat) 0

/-- `to_ne_bytes` of a 32-bit word. -/
def toNeBytes (o : ByteOrder) (n : ℕ) : List UInt8 :=
  let bytes := [UInt8.ofNat n, UInt8.ofNat (n / 256), UInt8.ofNat (n / 65536),
    UInt8.ofNat (n / 16777216)]
  match o with
  | little => bytes
  | big => bytes.reverse

@[simp] theorem length_toNeBytes (o : ByteOrder) (n : ℕ) : (o.toNeBytes n).length = 4 := by
  cases o <;> rfl

theorem fromNeBytes_toNeBytes (o : ByteOrder) {n : ℕ} (hn : n < 2 ^ 32) :
    o.fromNeBytes (o.toNeBytes n) = n := by
  cases o <;> simp [fromNeBytes, toNeBytes] <;> omega

theorem toNeBytes_fromNeBytes (o : ByteOrder) {bs : List UInt8} (h : bs.length = 4) :
    o.toNeBytes (o.fromNeBytes bs) = bs := by
  match bs, h with
  | [a, b, c, d], _ =>
    have ha := a.toNat_lt
    have hb := b.toNat_lt
    have hc := c.toNat_lt
    have hd := d.toNat_lt
    cases o <;> simp [fromNeBytes, toNeBytes, ← UInt8.toNat_inj] <;> omega

/-- The bytes of a big-endian word start with its upper half. -/
theorem fromNeBytes_big_upper (a b c d : UInt8) :
    big.fromNeBytes [a, b, c, d] >>> 16 = big.fromNeBytes [a, b] := by
  have hc := c.toNat_lt
  have hd := d.toNat_lt
  simp only [fromNeBytes, List.foldl, Nat.shiftRight_eq_div_pow]
  omega

/-- The bytes of a little-endian word start with its lower half. -/
theorem fromNeBytes_little_lower (a b c d : UInt8) :
    little.fromNeBytes [a, b, c, d] &&& 0xffff = little.fromNeBytes [a, b] := by
  have ha := a.toNat_lt
  have hb := b.toNat_lt
  rw [show (0xffff : ℕ) = 2 ^ 16 - 1 from rfl, Nat.and_two_pow_sub_one_eq_mod]
  simp only [fromNeBytes, List.foldr]
  omega

theorem fromNeBytes_word_lt (o : ByteOrder) (a b c d : UInt8) :
    o.fromNeBytes [a, b, c, d] < 2 ^ 32 := by
  have ha := a.toNat_lt
  have hb := b.toNat_lt
  have hc := c.toNat_lt
  have hd := d.toNat_lt
  cases o <;> simp only [fromNeBytes, List.foldl, List.foldr] <;> omega

end ByteOrder

/-- The two header words of a message. -/
structure Header where
  senderId : ℕ
  len : ℕ
  opcode : ℕ
  deriving DecidableEq, Repr

def parseHeader (o : ByteOrder) (buf : List UInt8) : Header :=
  let word2 := o.fromNeBytes ((buf.drop 4).take 4)
  { senderId := o.fromNeBytes (buf.take 4)
    len := word2 >>> 16
    opcode := word2 &&& 0xffff }

def validMessageLength (length : ℕ) : Bool :=
  decide (8 ≤ length) && decide (length ≤ 0xffff) && length % 4 == 0

@[simp] theorem validMessageLength_iff {length : ℕ} :
    validMessageLength length = true ↔ 8 ≤ length ∧ length ≤ 0xffff ∧ length % 4 = 0 := by
  simp [validMessageLength, and_assoc]

/-- What the dispatch loop makes of the bytes not yet dispatched. -/
inductive Frame
  | incomplete
  | invalidLength (len : ℕ)
  | message (header : Header)
  deriving DecidableEq, Repr

def frame (o : ByteOrder) (buf : List UInt8) : Frame :=
  if buf.length < 8 then .incomplete
  else
    let header := parseHeader o buf
    if !validMessageLength header.len then .invalidLength header.len
    else if buf.length < header.len then .incomplete
    else .message header

/-- `n` is a well-formed message length of which `buf` holds only a part. -/
def Awaits (buf : List UInt8) (n : ℕ) : Prop :=
  8 ≤ n ∧ n % 4 = 0 ∧ buf.length < n

instance (buf : List UInt8) (n : ℕ) : Decidable (Awaits buf n) :=
  inferInstanceAs (Decidable (_ ∧ _ ∧ _))

/-- A buffer with a header holds its eight bytes. -/
theorem exists_header_bytes {buf : List UInt8} (h : 8 ≤ buf.length) :
    ∃ s₀ s₁ s₂ s₃ a b c d rest, buf = s₀ :: s₁ :: s₂ :: s₃ :: a :: b :: c :: d :: rest := by
  match buf, h with
  | s₀ :: s₁ :: s₂ :: s₃ :: a :: b :: c :: d :: rest, _ =>
    exact ⟨s₀, s₁, s₂, s₃, a, b, c, d, rest, rfl⟩

theorem parseHeader_len_le (o : ByteOrder) {buf : List UInt8} (h : 8 ≤ buf.length) :
    (parseHeader o buf).len ≤ 0xffff := by
  obtain ⟨s₀, s₁, s₂, s₃, a, b, c, d, rest, rfl⟩ := exists_header_bytes h
  have hw := o.fromNeBytes_word_lt a b c d
  simp only [parseHeader, List.drop, List.take, Nat.shiftRight_eq_div_pow]
  omega

/-- The loop waits for more bytes exactly at a partial header or a partial message. -/
theorem frame_eq_incomplete_iff (o : ByteOrder) (buf : List UInt8) :
    frame o buf = .incomplete ↔ buf.length < 8 ∨ Awaits buf (parseHeader o buf).len := by
  by_cases h8 : buf.length < 8
  · simp [frame, h8]
  · have hle := parseHeader_len_le o (Nat.le_of_not_lt h8)
    by_cases hv : validMessageLength (parseHeader o buf).len = true
    · obtain ⟨hlow, -, hmod⟩ := validMessageLength_iff.mp hv
      by_cases hlen : buf.length < (parseHeader o buf).len <;>
        simp [frame, h8, hv, hlen, Awaits, hlow, hmod]
    · have hna : ¬ Awaits buf (parseHeader o buf).len := fun ⟨hlow, hmod, _⟩ =>
        hv (validMessageLength_iff.mpr ⟨hlow, hle, hmod⟩)
      simp [frame, h8, hv, hna]

/-- A framed message is the buffered header with all of its bytes behind it. -/
theorem frame_eq_message_iff (o : ByteOrder) (buf : List UInt8) (header : Header) :
    frame o buf = .message header ↔
      header = parseHeader o buf ∧ validMessageLength header.len = true ∧
        header.len ≤ buf.length := by
  constructor
  · intro h
    simp only [frame] at h
    split_ifs at h with h8 hv hlen
    obtain rfl : parseHeader o buf = header := by simpa using h
    exact ⟨rfl, by simpa using hv, Nat.le_of_not_lt hlen⟩
  · rintro ⟨rfl, hv, hlen⟩
    have h8 : ¬ buf.length < 8 := by
      have hlow := (validMessageLength_iff.mp hv).1
      omega
    simp [frame, h8, hv, Nat.not_lt.mpr hlen]

/-- Assemble a complete message, or report why its length does not fit the header. -/
def tryBuildMessage (o : ByteOrder) (payload : List UInt8) (senderId opcode : ℕ) :
    Except ProtocolError (List UInt8) :=
  let totalLen := payload.length + 8
  if totalLen > 0xffff then .error (.messageTooLarge totalLen)
  else if totalLen % 4 ≠ 0 then .error (.invalidMessageLength totalLen)
  else .ok (o.toNeBytes senderId ++ o.toNeBytes (totalLen <<< 16 ||| opcode) ++ payload)

theorem parseHeader_words (o : ByteOrder) {s w : ℕ} (hs : s < 2 ^ 32) (hw : w < 2 ^ 32)
    (rest : List UInt8) : parseHeader o (o.toNeBytes s ++ (o.toNeBytes w ++ rest)) =
      { senderId := s, len := w >>> 16, opcode := w &&& 0xffff } := by
  have h4 : (o.toNeBytes s).length = 4 := o.length_toNeBytes s
  have h4' : (o.toNeBytes w).length = 4 := o.length_toNeBytes w
  have hword : (o.toNeBytes w ++ rest).take 4 = o.toNeBytes w := List.take_left' h4'
  simp only [parseHeader, List.take_left' h4, List.drop_left' h4, hword,
    ByteOrder.fromNeBytes_toNeBytes o hs, ByteOrder.fromNeBytes_toNeBytes o hw]

/-- What the builder assembles is framed as one whole message, whatever follows it. -/
theorem frame_tryBuildMessage (o : ByteOrder) {payload bytes : List UInt8}
    {senderId opcode : ℕ} (hs : senderId < 2 ^ 32) (hop : opcode < 2 ^ 16)
    (h : tryBuildMessage o payload senderId opcode = .ok bytes) (rest : List UInt8) :
    frame o (bytes ++ rest) = .message { senderId, len := bytes.length, opcode } := by
  simp only [tryBuildMessage] at h
  split_ifs at h with hlarge hmod
  obtain rfl := Except.ok.inj h
  set total := payload.length + 8 with htotal
  have hword : total <<< 16 ||| opcode = total * 65536 + opcode := by
    rw [← Nat.shiftLeft_add_eq_or_of_lt hop, Nat.shiftLeft_eq]
  have hparse : parseHeader o
      (o.toNeBytes senderId ++ o.toNeBytes (total <<< 16 ||| opcode) ++ payload ++ rest) =
      { senderId, len := total, opcode } := by
    have hlt : total * 65536 + opcode < 2 ^ 32 := by omega
    rw [List.append_assoc, List.append_assoc, hword, parseHeader_words o hs hlt]
    simp only [Header.mk.injEq, true_and]
    rw [Nat.shiftRight_eq_div_pow, show (0xffff : ℕ) = 2 ^ 16 - 1 from rfl,
      Nat.and_two_pow_sub_one_eq_mod]
    omega
  rw [frame_eq_message_iff, hparse]
  simp only [List.length_append, ByteOrder.length_toNeBytes, validMessageLength_iff]
  exact ⟨by simp only [Header.mk.injEq, true_and, and_true]; omega, by omega, by omega⟩

end Sommelier
