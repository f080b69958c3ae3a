import Mathlib.Data.List.TakeWhile
import Sommelier.Wire

/-!
# Values on the wire

The readers of a received message and the writers of the message builder. Strings carry
their terminating zero in their length and, like arrays, are padded to whole words;
descriptors travel beside the payload, in order. Every writer's output is read back by its
reader, whatever follows it.

## Main definitions

* `Cursor`: what is left of a message, with a reader for each kind of value.
* `MessageBuilder`: what was written of a message, with the writers.
* `MessageBuilder.before`: an input that starts with what was written.
-/
namespace Sommelier

/-- Length of a string or an array with its padding. -/
def paddedLen (len : ℕ) : ℕ := (len + 3) / 4 * 4

theorem le_paddedLen (len : ℕ) : len ≤ paddedLen len := by
  unfold paddedLen
  omega

theorem paddedLen_mod (len : ℕ) : paddedLen len % 4 = 0 := Nat.mul_mod_left ..

/-- `as_bytes` of a string. -/
def asBytes (s : String) : List UInt8 := s.toByteArray.data.toList

/-- `from_utf8` of a slice. -/
def fromUtf8 (bs : List UInt8) : Option String := String.fromUTF8? ⟨bs.toArray⟩

/-- What is left to read of a message. -/
@[ext] structure Cursor where
  payload : List UInt8
  fds : List RawFd
  deriving DecidableEq, Repr

namespace Cursor
variable (o : ByteOrder)

def readU32 (c : Cursor) : Except ProtocolError (ℕ × Cursor) :=
  if c.payload.length < 4 then .error .insufficientData
  else .ok (o.fromNeBytes (c.payload.take 4), { c with payload := c.payload.drop 4 })

def readI32 (c : Cursor) : Except ProtocolError (ℤ × Cursor) :=
  (c.readU32 o).map fun (v, c) => (if v < 2 ^ 31 then (v : ℤ) else v - 2 ^ 32, c)

/-- Fixed-point values keep their raw representation. -/
def readFixed (c : Cursor) : Except ProtocolError (ℤ × Cursor) := c.readI32 o

def readStringValue (nullable : Bool) (c : Cursor) :
    Except ProtocolError (Option String × Cursor) :=
  (c.readU32 o).bind fun (len, c) =>
    if len = 0 then if nullable then .ok (none, c) else .error .invalidString
    else if c.payload.length < paddedLen len then .error .insufficientData
    else
      let bytes := c.payload.take len
      if bytes.getLast? ≠ some 0 then .error .invalidString
      else
        -- The string ends at its first zero.
        match fromUtf8 (bytes.takeWhile (· != 0)) with
        | none => .error .invalidString
        | some s => .ok (some s, { c with payload := c.payload.drop (paddedLen len) })

def readString (c : Cursor) : Except ProtocolError (String × Cursor) :=
  (c.readStringValue o false).bind fun (s, c) =>
    match s with
    | some s => .ok (s, c)
    | none => .error .invalidString

def readNullableString (c : Cursor) : Except ProtocolError (Option String × Cursor) :=
  c.readStringValue o true

def readArray (c : Cursor) : Except ProtocolError (List UInt8 × Cursor) :=
  (c.readU32 o).bind fun (len, c) =>
    if c.payload.length < paddedLen len then .error .insufficientData
    else .ok (c.payload.take len, { c with payload := c.payload.drop (paddedLen len) })

def readFd (c : Cursor) : Except ProtocolError (RawFd × Cursor) :=
  match c.fds with
  | [] => .error .missingFd
  | fd :: fds => .ok (fd, { c with fds })

end Cursor

/-- What was written of a message. -/
@[ext] structure MessageBuilder where
  payload : List UInt8
  fds : List RawFd
  deriving DecidableEq, Repr

namespace MessageBuilder
variable (o : ByteOrder)

def new : MessageBuilder := ⟨[], []⟩

def writeU32 (val : ℕ) (b : MessageBuilder) : MessageBuilder :=
  { b with payload := b.payload ++ o.toNeBytes val }

def writeI32 (val : ℤ) (b : MessageBuilder) : MessageBuilder :=
  b.writeU32 o (val % 2 ^ 32).toNat

def writeFixed (val : ℤ) (b : MessageBuilder) : MessageBuilder := b.writeI32 o val

/-- Bytes, with the padding that completes their last word. -/
def writePadded (bytes : List UInt8) (b : MessageBuilder) : MessageBuilder :=
  let len := bytes.length
  { b with payload := b.payload ++ bytes ++ List.replicate (paddedLen len - len) 0 }

def writeString (val : String) (b : MessageBuilder) : MessageBuilder :=
  (b.writeU32 o ((asBytes val).length + 1)).writePadded (asBytes val ++ [0])

def writeNullableString (val : Option String) (b : MessageBuilder) : MessageBuilder :=
  match val with
  | some value => b.writeString o value
  | none => b.writeU32 o 0

def writeArray (val : List UInt8) (b : MessageBuilder) : MessageBuilder :=
  (b.writeU32 o val.length).writePadded val

def writeFd (fd : RawFd) (b : MessageBuilder) : MessageBuilder := { b with fds := b.fds ++ [fd] }

/-- An input that starts with what was written. -/
def before (b : MessageBuilder) (c : Cursor) : Cursor :=
  ⟨b.payload ++ c.payload, b.fds ++ c.fds⟩

@[simp] theorem new_before (c : Cursor) : new.before c = c := rfl

/-! Writing after a prefix is writing in front of what follows it. -/

variable (b : MessageBuilder) (c : Cursor)

theorem writeU32_before (val : ℕ) :
    (b.writeU32 o val).before c = b.before ((new.writeU32 o val).before c) := by
  simp [before, writeU32, new]

theorem writePadded_before (bytes : List UInt8) :
    (b.writePadded bytes).before c = b.before ((new.writePadded bytes).before c) := by
  simp [before, writePadded, new]

theorem writeFd_before (fd : RawFd) :
    (b.writeFd fd).before c = b.before ((new.writeFd fd).before c) := by
  simp [before, writeFd, new]

theorem writeString_before (val : String) :
    (b.writeString o val).before c = b.before ((new.writeString o val).before c) := by
  simp only [writeString]
  rw [writePadded_before, writeU32_before, ← writePadded_before (new.writeU32 o _)]

theorem writeArray_before (val : List UInt8) :
    (b.writeArray o val).before c = b.before ((new.writeArray o val).before c) := by
  simp only [writeArray]
  rw [writePadded_before, writeU32_before, ← writePadded_before (new.writeU32 o _)]

theorem writeNullableString_before (val : Option String) :
    (b.writeNullableString o val).before c =
      b.before ((new.writeNullableString o val).before c) := by
  cases val with
  | none => exact writeU32_before o b c 0
  | some value => exact writeString_before o b c value

/-! How much longer the payload becomes. -/

theorem length_writeU32 (val : ℕ) :
    (b.writeU32 o val).payload.length = b.payload.length + 4 := by
  simp [writeU32, o.length_toNeBytes]

theorem length_writePadded (bytes : List UInt8) :
    (b.writePadded bytes).payload.length = b.payload.length + paddedLen bytes.length := by
  have hle := le_paddedLen bytes.length
  simp only [writePadded, List.length_append, List.length_replicate]
  omega

theorem length_writeString (val : String) :
    (b.writeString o val).payload.length =
      b.payload.length + (4 + paddedLen ((asBytes val).length + 1)) := by
  rw [writeString, length_writePadded, length_writeU32, Nat.add_assoc]
  simp

theorem length_writeArray (val : List UInt8) :
    (b.writeArray o val).payload.length = b.payload.length + (4 + paddedLen val.length) := by
  rw [writeArray, length_writePadded, length_writeU32, Nat.add_assoc]

end MessageBuilder

/-! ## Round trips -/

namespace Cursor
open MessageBuilder
variable {o : ByteOrder} {c c' : Cursor}

/-- The values of a 32-bit word. -/
def IsU32 (n : ℕ) : Prop := n < 2 ^ 32

theorem isU32_of_readU32 {n : ℕ} (h : c.readU32 o = .ok (n, c')) : IsU32 n := by
  unfold readU32 at h
  split_ifs at h with hlen
  obtain ⟨rfl, -⟩ := Prod.mk.inj (Except.ok.inj h)
  match hp : c.payload, Nat.le_of_not_lt hlen with
  | a₀ :: a₁ :: a₂ :: a₃ :: rest, _ =>
    simpa [IsU32] using o.fromNeBytes_word_lt a₀ a₁ a₂ a₃

theorem readU32_writeU32 {n : ℕ} (hn : IsU32 n) (c : Cursor) :
    ((new.writeU32 o n).before c).readU32 o = .ok (n, c) := by
  have h4 : (o.toNeBytes n).length = 4 := o.length_toNeBytes n
  simp [readU32, before, writeU32, new, h4, List.take_left' h4, List.drop_left' h4,
    ByteOrder.fromNeBytes_toNeBytes o hn]

/-- The values of a signed 32-bit word. -/
def IsI32 (v : ℤ) : Prop := -2 ^ 31 ≤ v ∧ v < 2 ^ 31

theorem isI32_of_readI32 {v : ℤ} (h : c.readI32 o = .ok (v, c')) : IsI32 v := by
  unfold readI32 at h
  cases hr : c.readU32 o with
  | error e => simp [hr, Except.map] at h
  | ok r =>
    have hlt : _ < 2 ^ 32 := isU32_of_readU32 hr
    simp only [hr, Except.map, Except.ok.injEq, Prod.mk.injEq] at h
    obtain ⟨rfl, -⟩ := h
    unfold IsI32
    split_ifs <;> omega

theorem readI32_writeI32 {v : ℤ} (hv : IsI32 v) (c : Cursor) :
    ((new.writeI32 o v).before c).readI32 o = .ok (v, c) := by
  unfold IsI32 at hv
  have hlt : (v % 2 ^ 32).toNat < 2 ^ 32 := by omega
  rw [readI32, writeI32, readU32_writeU32 hlt]
  simp only [Except.map, Except.ok.injEq, Prod.mk.injEq, and_true]
  split_ifs <;> omega

/-- A padded block is read up to its length and skipped up to its padding. -/
theorem exists_writePadded_before (bytes : List UInt8) (c : Cursor) :
    ∃ p, (new.writePadded bytes).before c = ⟨p, c.fds⟩ ∧ p.take bytes.length = bytes ∧
      p.drop (paddedLen bytes.length) = c.payload ∧ paddedLen bytes.length ≤ p.length := by
  have hle : bytes.length ≤ paddedLen bytes.length := by
    unfold paddedLen
    omega
  set block := bytes ++ List.replicate (paddedLen bytes.length - bytes.length) 0 with hblock
  have hlen : block.length = paddedLen bytes.length := by
    rw [hblock, List.length_append, List.length_replicate]
    omega
  refine ⟨block ++ c.payload, rfl, ?_, List.drop_left' hlen, ?_⟩
  · rw [hblock, List.append_assoc, List.take_left]
  · rw [List.length_append, hlen]
    omega

/-- Strings the readers return: no zero inside, and a length that fits the prefix. -/
def IsWireString (s : String) : Prop := 0 ∉ asBytes s ∧ (asBytes s).length + 1 < 2 ^ 32

theorem fromUtf8_asBytes (s : String) : fromUtf8 (asBytes s) = some s := by
  have hbytes : (⟨(asBytes s).toArray⟩ : ByteArray) = s.toByteArray := by simp [asBytes]
  rw [fromUtf8, hbytes, String.fromUTF8?, dif_pos s.isValidUTF8]
  rfl

theorem asBytes_of_fromUtf8 {bs : List UInt8} {s : String} (h : fromUtf8 bs = some s) :
    asBytes s = bs := by
  unfold fromUtf8 String.fromUTF8? at h
  split_ifs at h with hvalid
  obtain rfl := Option.some.inj h
  simp [asBytes, String.fromUTF8]

theorem readStringValue_writeString {s : String} (hs : IsWireString s) (nullable : Bool)
    (c : Cursor) :
    ((new.writeString o s).before c).readStringValue o nullable = .ok (some s, c) := by
  have hlen : (asBytes s ++ [0]).length = (asBytes s).length + 1 := by simp
  obtain ⟨p, hp, htake, hdrop, hle⟩ := exists_writePadded_before (asBytes s ++ [0]) c
  rw [hlen] at htake hdrop hle
  have hstop : (asBytes s ++ [0]).takeWhile (· != 0) = asBytes s := by
    rw [List.takeWhile_append_of_pos fun b hb => by
      simpa using fun heq : b = 0 => hs.1 (heq ▸ hb)]
    simp
  rw [writeString, writePadded_before, readStringValue, readU32_writeU32 hs.2, hp]
  simp [Except.bind, Nat.not_lt.mpr hle, htake, hstop, hdrop, fromUtf8_asBytes]

theorem readString_writeString {s : String} (hs : IsWireString s) (c : Cursor) :
    ((new.writeString o s).before c).readString o = .ok (s, c) := by
  rw [readString, readStringValue_writeString hs]
  rfl

theorem readNullableString_writeNullableString {s : Option String}
    (hs : ∀ value ∈ s, IsWireString value) (c : Cursor) :
    ((new.writeNullableString o s).before c).readNullableString o = .ok (s, c) := by
  cases s with
  | none =>
    rw [readNullableString, writeNullableString, readStringValue,
      readU32_writeU32 (Nat.two_pow_pos 32)]
    rfl
  | some value => exact readStringValue_writeString (hs value rfl) true c

/-- The terminating zero is not part of a string. -/
theorem length_takeWhile_lt {bytes : List UInt8} (hlast : bytes.getLast? = some 0) :
    (bytes.takeWhile (· != 0)).length < bytes.length := by
  have hinit : bytes.takeWhile (· != 0) <+: bytes := List.takeWhile_prefix (· != 0)
  refine lt_of_le_of_ne hinit.length_le fun heq => ?_
  have hall := List.takeWhile_eq_self_iff.mp (hinit.eq_of_length heq)
  simpa using hall 0 (List.mem_of_getLast? hlast)

theorem isWireString_of_readStringValue {nullable : Bool} {s : Option String}
    (h : c.readStringValue o nullable = .ok (s, c')) : ∀ value ∈ s, IsWireString value := by
  unfold readStringValue at h
  cases hr : c.readU32 o with
  | error e => simp [hr, Except.bind] at h
  | ok r =>
    obtain ⟨len, c₁⟩ := r
    have hlt : len < 2 ^ 32 := isU32_of_readU32 hr
    simp only [hr, Except.bind] at h
    split_ifs at h with hzero hnull hshort hlast
    · obtain ⟨rfl, -⟩ := Prod.mk.inj (Except.ok.inj h)
      simp
    · cases hutf : fromUtf8 ((c₁.payload.take len).takeWhile (· != 0)) with
      | none => simp [hutf] at h
      | some value =>
        simp only [hutf, Except.ok.injEq, Prod.mk.injEq] at h
        obtain ⟨rfl, -⟩ := h
        simp only [Option.mem_some_iff, forall_eq', IsWireString, asBytes_of_fromUtf8 hutf]
        refine ⟨fun hin => by simpa using List.mem_takeWhile_imp hin, ?_⟩
        have hproper := length_takeWhile_lt (Decidable.not_not.mp hlast)
        rw [List.length_take] at hproper
        omega

theorem readString_eq_ok {s : String} (h : c.readString o = .ok (s, c')) :
    c.readStringValue o false = .ok (some s, c') := by
  unfold readString at h
  cases hr : c.readStringValue o false with
  | error e => simp [hr, Except.bind] at h
  | ok r =>
    obtain ⟨value, c₁⟩ := r
    cases value <;> simp_all [Except.bind]

theorem readArray_writeArray {bs : List UInt8} (hbs : bs.length < 2 ^ 32) (c : Cursor) :
    ((new.writeArray o bs).before c).readArray o = .ok (bs, c) := by
  obtain ⟨p, hp, htake, hdrop, hle⟩ := exists_writePadded_before bs c
  rw [writeArray, writePadded_before, readArray, readU32_writeU32 hbs, hp]
  simp [Except.bind, Nat.not_lt.mpr hle, htake, hdrop]

theorem length_lt_of_readArray {bs : List UInt8} (h : c.readArray o = .ok (bs, c')) :
    bs.length < 2 ^ 32 := by
  unfold readArray at h
  cases hr : c.readU32 o with
  | error e => simp [hr, Except.bind] at h
  | ok r =>
    have hlt : _ < 2 ^ 32 := isU32_of_readU32 hr
    simp only [hr, Except.bind] at h
    split_ifs at h
    obtain ⟨rfl, -⟩ := Prod.mk.inj (Except.ok.inj h)
    rw [List.length_take]
    omega

theorem readFd_writeFd (fd : RawFd) (c : Cursor) :
    ((new.writeFd fd).before c).readFd = .ok (fd, c) := rfl

/-! ## Readers that leave the descriptors alone -/

/-- The reader neither looks at the queued descriptors nor takes one. -/
def IgnoresFds {α : Type} (read : Cursor → Except ProtocolError (α × Cursor)) : Prop :=
  ∀ p fds fds', read ⟨p, fds⟩ = (read ⟨p, fds'⟩).map fun (v, c) => (v, ⟨c.payload, fds⟩)

theorem IgnoresFds.bind {α β : Type} {read : Cursor → Except ProtocolError (α × Cursor)}
    {f : α × Cursor → Except ProtocolError (β × Cursor)} (hread : IgnoresFds read)
    (hf : ∀ v, IgnoresFds fun c => f (v, c)) : IgnoresFds fun c => (read c).bind f := by
  intro p fds fds'
  simp only
  rw [hread p fds fds']
  cases hr : read ⟨p, fds'⟩ with
  | error e => rfl
  | ok r =>
    obtain ⟨v, c⟩ := r
    exact hf v c.payload fds c.fds

theorem ignoresFds_ok {α : Type} (v : α) : IgnoresFds fun c => .ok (v, c) := fun _ _ _ => rfl

theorem ignoresFds_error {α : Type} (e : ProtocolError) :
    IgnoresFds (α := α) fun _ => .error e := fun _ _ _ => rfl

theorem ignoresFds_readU32 (o : ByteOrder) : IgnoresFds (readU32 o) := by
  intro p fds fds'
  simp only [readU32]
  split_ifs <;> rfl

theorem ignoresFds_readI32 (o : ByteOrder) : IgnoresFds (readI32 o) := by
  intro p fds fds'
  simp only [readI32, ignoresFds_readU32 o p fds fds']
  cases readU32 o ⟨p, fds'⟩ <;> rfl

theorem ignoresFds_readStringValue (o : ByteOrder) (nullable : Bool) :
    IgnoresFds (readStringValue o nullable) := by
  refine IgnoresFds.bind (ignoresFds_readU32 o) fun len p fds fds' => ?_
  simp only
  split_ifs <;> first
    | rfl
    | (split <;> rfl)

theorem ignoresFds_readString (o : ByteOrder) : IgnoresFds (readString o) := by
  refine IgnoresFds.bind (ignoresFds_readStringValue o false) fun s => ?_
  cases s with
  | none => exact ignoresFds_error _
  | some s => exact ignoresFds_ok s

theorem ignoresFds_readArray (o : ByteOrder) : IgnoresFds (readArray o) := by
  refine IgnoresFds.bind (ignoresFds_readU32 o) fun len p fds fds' => ?_
  simp only
  split_ifs <;> rfl

end Cursor
end Sommelier
