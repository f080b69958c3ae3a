import Sommelier.Generated.Schema
import Sommelier.WireReader

/-!
# Fields of a message

Messages as sequences of fields, written with the builder and read back with the readers.
What was written is read back and consumed whole. The other way a payload need not be the
encoding of what is read from it: padding may hold anything, and a string may have bytes
behind its first zero, which are dropped along with their part of the length.

## Main definitions

* `FieldKind`: the kinds of values that travel in the payload, with their reads and writes.
* `fieldCodec`: the codec of the fields.
* `Recoded`: bytes that a field was read from, and the bytes it is written as.
-/
namespace Sommelier

/-- The kinds of values that travel in the payload. -/
inductive FieldKind
  | u32
  | i32
  | fixed
  | string
  | nullableString
  | array
  deriving DecidableEq, Repr

namespace FieldKind

/-- The argument type whose values the kind carries. -/
def argType : FieldKind → ArgType .clientToHost
  | u32 => .uint
  | i32 => .int
  | fixed => .fixed
  | string => .string false
  | nullableString => .string true
  | array => .array

abbrev Value (k : FieldKind) : Type := k.argType.Value

/-- The values of the type of a field, and of these the strings without a zero. -/
def Typed : (k : FieldKind) → k.Value → Prop
  | u32, v => Cursor.IsU32 v
  | i32, v => Cursor.IsI32 v
  | fixed, v => Cursor.IsI32 v
  | string, s => 0 ∉ asBytes s
  | nullableString, s => ∀ value, s = some value → 0 ∉ asBytes value
  | array, _ => True

variable (o : ByteOrder)

def read : (k : FieldKind) → WireReader.Read k.Value
  | u32 => WireReader.readU32 o
  | i32 => WireReader.readI32 o
  | fixed => WireReader.readFixed o
  | string => WireReader.readString o
  | nullableString => WireReader.readNullableString o
  | array => WireReader.readArray o

def write (k : FieldKind) (v : k.Value) (b : MessageBuilder) : MessageBuilder :=
  k.argType.write o v b

theorem refines_read (k : FieldKind) : WireReader.Refines (k.read o) (k.argType.read o) := by
  cases k with
  | u32 => exact WireReader.refines_readU32
  | i32 => exact WireReader.refines_readI32
  | fixed => exact WireReader.refines_readI32
  | string => exact WireReader.refines_readString
  | nullableString => exact WireReader.refines_readStringValue true
  | array => exact WireReader.refines_readArray

variable {k : FieldKind}

theorem fds_write (v : k.Value) (b : MessageBuilder) : (k.write o v b).fds = b.fds := by
  cases k with
  | nullableString => cases v <;> rfl
  | _ => rfl

theorem length_write (v : k.Value) : (k.write o v .new).payload.length = k.argType.size v :=
  (ArgType.length_write o k.argType v .new).trans (Nat.zero_add _)

/-- A field of its type that is not too long for a length word can be read back. -/
theorem valid_of_typed {v : k.Value} (hv : k.Typed v) (hsize : k.argType.size v < 2 ^ 32) :
    k.argType.Valid v := by
  have hlen : ∀ len, 4 + paddedLen len < 2 ^ 32 → len < 2 ^ 32 := by
    intro len hlt
    have hle := le_paddedLen len
    omega
  cases k with
  | string => exact ⟨hv, hlen _ hsize⟩
  | nullableString =>
    rintro value rfl
    exact ⟨hv value rfl, hlen _ hsize⟩
  | array => exact hlen _ hsize
  | _ => exact hv

end FieldKind

/-- The codec of the fields. -/
def fieldCodec (o : ByteOrder) : Codec FieldKind FieldKind.Value Cursor ProtocolError where
  read k := k.argType.read o
  prepend k v c := (k.write o v .new).before c
  Valid k := k.argType.Valid
  valid_of_read := ArgType.valid_of_read o
  read_prepend := ArgType.read_write o

/-- The values of a sequence of fields. -/
abbrev FieldValues (ks : List FieldKind) : Type := ks.TProd FieldKind.Value

def readFields (o : ByteOrder) : (ks : List FieldKind) → WireReader.Read (FieldValues ks)
  | [] => fun m => some (.ok ⟨⟩, m)
  | k :: ks => (k.read o).bind fun v => (readFields o ks).map fun vs => (v, vs)

def writeFields (o : ByteOrder) :
    (ks : List FieldKind) → FieldValues ks → MessageBuilder → MessageBuilder
  | [], _, b => b
  | k :: ks, (v, vs), b => writeFields o ks vs (k.write o v b)

variable {o : ByteOrder} {ks : List FieldKind}

theorem refines_readFields (ks : List FieldKind) :
    WireReader.Refines (readFields o ks) ((fieldCodec o).readSeq ks) := by
  induction ks with
  | nil => exact WireReader.Refines.ok _
  | cons k ks ih =>
    refine WireReader.Refines.bind (k.refines_read o) fun v => ?_
    refine WireReader.Refines.bind ih fun vs => ?_
    exact WireReader.Refines.ok (v, vs)

theorem writeFields_before (vs : FieldValues ks) (b : MessageBuilder) (c : Cursor) :
    (writeFields o ks vs b).before c = b.before ((fieldCodec o).prependSeq ks vs c) := by
  induction ks generalizing b with
  | nil => rfl
  | cons k ks ih =>
    obtain ⟨v, vs⟩ := vs
    rw [writeFields, ih, FieldKind.write, ArgType.write_before]
    rfl

theorem fds_writeFields (vs : FieldValues ks) (b : MessageBuilder) :
    (writeFields o ks vs b).fds = b.fds := by
  induction ks generalizing b with
  | nil => rfl
  | cons k ks ih =>
    obtain ⟨v, vs⟩ := vs
    rw [writeFields, ih, FieldKind.fds_write]

/-- The payload of a message with the fields. -/
def encodeFields (o : ByteOrder) (ks : List FieldKind) (vs : FieldValues ks) : List UInt8 :=
  (writeFields o ks vs .new).payload

theorem prependSeq_fieldCodec (vs : FieldValues ks) (c : Cursor) :
    (fieldCodec o).prependSeq ks vs c = ⟨encodeFields o ks vs ++ c.payload, c.fds⟩ := by
  have h := writeFields_before (o := o) vs .new c
  rw [MessageBuilder.new_before, MessageBuilder.before, fds_writeFields] at h
  exact h.symm

theorem encodeFields_cons (k : FieldKind) (v : k.Value) (vs : FieldValues ks) :
    encodeFields o (k :: ks) (v, vs) = (k.write o v .new).payload ++ encodeFields o ks vs := by
  have h : (fieldCodec o).prependSeq (k :: ks) (v, vs) ⟨[], []⟩ =
      ⟨encodeFields o (k :: ks) (v, vs) ++ [], []⟩ := prependSeq_fieldCodec ..
  have htail := prependSeq_fieldCodec (o := o) vs ⟨[], []⟩
  simp only [List.append_nil] at h htail
  rw [Codec.prependSeq, htail] at h
  exact (congrArg Cursor.payload h).symm

/-! ## Writing, then reading -/

/-- Valid fields are read back from their encoding, which is consumed. -/
theorem readFields_encodeFields {vs : FieldValues ks} (hvs : (fieldCodec o).ValidSeq ks vs)
    (hlen : (encodeFields o ks vs).length < 2 ^ 64) (fds : List RawFd) :
    ∃ m, readFields o ks (.new (encodeFields o ks vs) fds) = some (.ok vs, m) ∧
      m.isPayloadConsumed = true := by
  set start := WireReader.new (encodeFields o ks vs) fds
  have hbounds : start.InBounds := ⟨Nat.zero_le _, hlen⟩
  have hspec : (fieldCodec o).readSeq ks start.cursor = .ok (vs, ⟨[], fds⟩) := by
    have hprepend := prependSeq_fieldCodec (o := o) vs ⟨[], fds⟩
    rw [List.append_nil] at hprepend
    rw [← Codec.readSeq_prependSeq hvs ⟨[], fds⟩, hprepend]
    rfl
  obtain ⟨m, hm⟩ := (refines_readFields ks).complete start vs _ hbounds hspec
  obtain ⟨hcursor, hpayload, hvalid⟩ := (refines_readFields ks).sound start vs m hm
  refine ⟨m, hm, ?_⟩
  rw [hspec, Except.ok.injEq, Prod.mk.injEq] at hcursor
  have hdrop : m.payload.drop m.offset = [] := (congrArg Cursor.payload hcursor.2).symm
  have hle := (hvalid hbounds.validOffset).1
  rw [WireReader.isPayloadConsumed, decide_eq_true_iff]
  exact le_antisymm hle (List.drop_eq_nil_iff.mp hdrop)

theorem validSeq_of_typed {vs : FieldValues ks}
    (hvs : EachValue FieldKind.Typed ks vs)
    (hlen : (encodeFields o ks vs).length < 2 ^ 32) : (fieldCodec o).ValidSeq ks vs := by
  induction ks with
  | nil => trivial
  | cons k ks ih =>
    obtain ⟨v, vs⟩ := vs
    rw [encodeFields_cons, List.length_append, FieldKind.length_write] at hlen
    exact ⟨FieldKind.valid_of_typed hvs.1 (by omega), ih hvs.2 (by omega)⟩

/-- Fields fill whole words. -/
theorem length_encodeFields_mod (vs : FieldValues ks) :
    (encodeFields o ks vs).length % 4 = 0 := by
  induction ks with
  | nil => rfl
  | cons k ks ih =>
    obtain ⟨v, vs⟩ := vs
    have hk := k.argType.size_mod v
    have htail := ih vs
    rw [encodeFields_cons, List.length_append, FieldKind.length_write]
    omega

/-! ## Reading, then writing -/

namespace Cursor
variable {c c' : Cursor}

theorem payload_of_readU32 {n : ℕ} (h : c.readU32 o = .ok (n, c')) :
    c.payload = o.toNeBytes n ++ c'.payload := by
  unfold readU32 at h
  split_ifs at h with hlen
  obtain ⟨rfl, rfl⟩ := Prod.mk.inj (Except.ok.inj h)
  have h4 : (c.payload.take 4).length = 4 := by
    rw [List.length_take]
    omega
  rw [o.toNeBytes_fromNeBytes h4, List.take_append_drop]

/-- Bytes that make a block of a length complete. -/
def IsPadding (len : ℕ) (pad : List UInt8) : Prop := pad.length = paddedLen len - len

theorem exists_padding {p : List UInt8} {len : ℕ} (h : ¬ p.length < paddedLen len) :
    ∃ pad, IsPadding len pad ∧ p = p.take len ++ (pad ++ p.drop (paddedLen len)) ∧
      (p.take len).length = len := by
  have hle := le_paddedLen len
  refine ⟨(p.drop len).take (paddedLen len - len), ?_, ?_, ?_⟩
  · rw [IsPadding, List.length_take, List.length_drop]
    omega
  · have hdrop : p.drop (paddedLen len) = (p.drop len).drop (paddedLen len - len) := by
      rw [List.drop_drop, Nat.add_sub_cancel' hle]
    rw [hdrop, List.take_append_drop, List.take_append_drop]
  · rw [List.length_take]
    omega

theorem payload_of_readArray {bytes : List UInt8} (h : c.readArray o = .ok (bytes, c')) :
    ∃ pad, IsPadding bytes.length pad ∧
      c.payload = o.toNeBytes bytes.length ++ bytes ++ pad ++ c'.payload := by
  obtain ⟨⟨len, c₁⟩, hlen, h⟩ := Except.bind_eq_ok_iff.mp h
  dsimp only at h
  split_ifs at h with hshort
  obtain ⟨rfl, rfl⟩ := Prod.mk.inj (Except.ok.inj h)
  obtain ⟨pad, hpad, hsplit, htake⟩ := exists_padding hshort
  refine ⟨pad, by rwa [htake], ?_⟩
  rw [payload_of_readU32 hlen, htake, List.append_assoc, List.append_assoc, ← hsplit]

/-- A text that ends in a zero is what stands before its first zero, the zero and a tail. -/
theorem exists_tail {bytes : List UInt8} (hlast : bytes.getLast? = some 0) :
    ∃ tail, bytes = bytes.takeWhile (· != 0) ++ 0 :: tail := by
  have hmem : ∃ b ∈ bytes, ¬ (b != 0) = true := ⟨0, List.mem_of_getLast? hlast, by simp⟩
  have hne : bytes.dropWhile (· != 0) ≠ [] := by
    intro hnil
    obtain ⟨b, hb, hzero⟩ := hmem
    exact hzero (List.dropWhile_eq_nil_iff.mp hnil b hb)
  obtain ⟨b, tail, htail⟩ := List.exists_cons_of_ne_nil hne
  have hhead : b = 0 := by
    have hhead := List.head_dropWhile_not (· != (0 : UInt8)) hne
    simpa [htail] using hhead
  refine ⟨tail, ?_⟩
  conv_lhs => rw [← List.takeWhile_append_dropWhile (p := (· != (0 : UInt8))) (l := bytes)]
  rw [htail, hhead]

theorem payload_of_readStringValue {nullable : Bool} {s : Option String}
    (h : c.readStringValue o nullable = .ok (s, c')) :
    match s with
    | none => c.payload = o.toNeBytes 0 ++ c'.payload
    | some s => ∃ tail pad, IsPadding ((asBytes s).length + 1 + tail.length) pad ∧
        c.payload = o.toNeBytes ((asBytes s).length + 1 + tail.length) ++ asBytes s ++
          0 :: tail ++ pad ++ c'.payload := by
  obtain ⟨⟨len, c₁⟩, hlen, h⟩ := Except.bind_eq_ok_iff.mp h
  dsimp only at h
  split_ifs at h with hzero hnull hshort hlast
  · obtain ⟨rfl, rfl⟩ := Prod.mk.inj (Except.ok.inj h)
    rw [payload_of_readU32 hlen, hzero]
  · cases hutf : fromUtf8 ((c₁.payload.take len).takeWhile (· != 0)) with
    | none => simp [hutf] at h
    | some text =>
      simp only [hutf, Except.ok.injEq, Prod.mk.injEq] at h
      obtain ⟨rfl, rfl⟩ := h
      obtain ⟨pad, hpad, hsplit, htake⟩ := exists_padding hshort
      obtain ⟨tail, htail⟩ := exists_tail (Decidable.not_not.mp hlast)
      rw [← asBytes_of_fromUtf8 hutf] at htail
      have hlength : (asBytes text).length + 1 + tail.length = len := by
        rw [← htake, htail, List.length_append, List.length_cons]
        omega
      refine ⟨tail, pad, by rwa [hlength], ?_⟩
      rw [htail] at hsplit
      rw [payload_of_readU32 hlen, hlength]
      conv_lhs => rw [hsplit]
      simp only [List.append_assoc, List.cons_append]

end Cursor

open Cursor (IsPadding)

/-- Bytes that a string was read from and the bytes it is written as: the tail behind its
first zero is dropped, and its length is no longer counted. -/
def TailDropped (o : ByteOrder) (s : String) (bs bs' : List UInt8) : Prop :=
  ∃ tail pad pad', IsPadding ((asBytes s).length + 1 + tail.length) pad ∧
    IsPadding ((asBytes s).length + 1) pad' ∧
    bs = o.toNeBytes ((asBytes s).length + 1 + tail.length) ++ asBytes s ++ 0 :: tail ++ pad ∧
    bs' = o.toNeBytes ((asBytes s).length + 1) ++ asBytes s ++ 0 :: pad'

/-- Two encodings of a string that differ only behind its first zero. -/
def SameUpToNul (s : String) (bs bs' : List UInt8) : Prop :=
  ∃ word tail tail', word.length = 4 ∧ bs = word ++ asBytes s ++ 0 :: tail ∧
    bs' = word ++ asBytes s ++ 0 :: tail'

/-- Two encodings of an array that differ only in its padding. -/
def PaddingChanged (v bs bs' : List UInt8) : Prop :=
  ∃ word pad pad', IsPadding v.length pad ∧ IsPadding v.length pad' ∧
    bs = word ++ v ++ pad ∧ bs' = word ++ v ++ pad'

/-- Bytes that a field was read from and the bytes it is written as, given what may happen
to a string. -/
def FieldKind.Recoded (Text : String → List UInt8 → List UInt8 → Prop) :
    (k : FieldKind) → k.Value → List UInt8 → List UInt8 → Prop
  | u32, _, bs, bs' => bs = bs'
  | i32, _, bs, bs' => bs = bs'
  | fixed, _, bs, bs' => bs = bs'
  | string, s, bs, bs' => Text s bs bs'
  | nullableString, none, bs, bs' => bs = bs'
  | nullableString, some s, bs, bs' => Text s bs bs'
  | array, v, bs, bs' => PaddingChanged v bs bs'

/-- Payloads that consist of such bytes, field by field. -/
def RecodedSeq (Text : String → List UInt8 → List UInt8 → Prop) :
    (ks : List FieldKind) → FieldValues ks → List UInt8 → List UInt8 → Prop
  | [], _, p, p' => p = [] ∧ p' = []
  | k :: ks, (v, vs), p, p' => ∃ bs bs' rest rest', p = bs ++ rest ∧ p' = bs' ++ rest' ∧
      k.Recoded Text v bs bs' ∧ RecodedSeq Text ks vs rest rest'

theorem tailDropped_writeString (s : String) (tail pad : List UInt8)
    (hpad : IsPadding ((asBytes s).length + 1 + tail.length) pad) :
    TailDropped o s
      (o.toNeBytes ((asBytes s).length + 1 + tail.length) ++ asBytes s ++ 0 :: tail ++ pad)
      (MessageBuilder.new.writeString o s).payload := by
  refine ⟨tail, pad, List.replicate (paddedLen ((asBytes s).length + 1) -
    ((asBytes s).length + 1)) 0, hpad, List.length_replicate, rfl, ?_⟩
  simp [MessageBuilder.writeString, MessageBuilder.writePadded, MessageBuilder.writeU32,
    MessageBuilder.new]

theorem recoded_of_read {k : FieldKind} {v : k.Value} {c c' : Cursor}
    (h : k.argType.read o c = .ok (v, c')) :
    ∃ bs, c.payload = bs ++ c'.payload ∧
      k.Recoded (TailDropped o) v bs (k.write o v .new).payload := by
  have hword : ∀ {v : ℤ}, c.readI32 o = .ok (v, c') →
      c.payload = o.toNeBytes (v % 2 ^ 32).toNat ++ c'.payload := by
    intro v h
    unfold Cursor.readI32 at h
    cases hread : c.readU32 o with
    | error e => simp [hread, Except.map] at h
    | ok r =>
      have hlt : r.1 < 2 ^ 32 := Cursor.isU32_of_readU32 hread
      simp only [hread, Except.map, Except.ok.injEq, Prod.mk.injEq] at h
      obtain ⟨rfl, rfl⟩ := h
      have hsigned : ((if r.1 < 2 ^ 31 then (r.1 : ℤ) else r.1 - 2 ^ 32) % 2 ^ 32).toNat =
          r.1 := by
        split_ifs <;> omega
      rw [hsigned]
      exact Cursor.payload_of_readU32 hread
  cases k with
  | u32 => exact ⟨_, Cursor.payload_of_readU32 h, rfl⟩
  | i32 => exact ⟨_, hword h, rfl⟩
  | fixed => exact ⟨_, hword h, rfl⟩
  | string =>
    have hstring := Cursor.payload_of_readStringValue (Cursor.readString_eq_ok h)
    obtain ⟨tail, pad, hpad, hpayload⟩ := hstring
    exact ⟨_, hpayload, tailDropped_writeString v tail pad hpad⟩
  | nullableString =>
    have hstring := Cursor.payload_of_readStringValue h
    cases v with
    | none => exact ⟨_, hstring, rfl⟩
    | some s =>
      obtain ⟨tail, pad, hpad, hpayload⟩ := hstring
      exact ⟨_, hpayload, tailDropped_writeString s tail pad hpad⟩
  | array =>
    obtain ⟨pad, hpad, hpayload⟩ := Cursor.payload_of_readArray h
    exact ⟨_, hpayload, _, pad, _, hpad, List.length_replicate, rfl, rfl⟩

/-- What the readers took a payload apart into is written as that payload, but for padding
and the tails of strings. -/
theorem recodedSeq_of_readSeq {vs : FieldValues ks} {c c' : Cursor}
    (h : (fieldCodec o).readSeq ks c = .ok (vs, c')) :
    ∃ bs, c.payload = bs ++ c'.payload ∧
      RecodedSeq (TailDropped o) ks vs bs (encodeFields o ks vs) := by
  induction ks generalizing c with
  | nil =>
    obtain ⟨-, rfl⟩ := Prod.mk.inj (Except.ok.inj h)
    exact ⟨[], rfl, rfl, rfl⟩
  | cons k ks ih =>
    obtain ⟨v, vs⟩ := vs
    obtain ⟨c₁, hread, hrest⟩ := Codec.readSeq_cons_eq_ok.mp h
    obtain ⟨bs, hbs, hrecoded⟩ := recoded_of_read hread
    obtain ⟨rest, hpayload, hseq⟩ := ih hrest
    refine ⟨bs ++ rest, ?_, bs, _, rest, _, rfl, encodeFields_cons k v vs, hrecoded, hseq⟩
    rw [hbs, hpayload, List.append_assoc]

theorem length_le_of_recoded {k : FieldKind} {v : k.Value} {bs bs' : List UInt8}
    (h : k.Recoded (TailDropped o) v bs bs') : bs'.length ≤ bs.length := by
  have hmono : ∀ {s bs bs'}, TailDropped o s bs bs' → bs'.length ≤ bs.length := by
    rintro s bs bs' ⟨tail, pad, pad', hpad, hpad', rfl, rfl⟩
    have hle := le_paddedLen ((asBytes s).length + 1 + tail.length)
    unfold IsPadding paddedLen at *
    simp only [List.length_append, List.length_cons, ByteOrder.length_toNeBytes]
    omega
  cases k with
  | string => exact hmono h
  | nullableString =>
    cases v with
    | none => exact (congrArg List.length h).ge
    | some s => exact hmono h
  | array =>
    obtain ⟨word, pad, pad', hpad, hpad', rfl, rfl⟩ := h
    rw [List.length_append, List.length_append, hpad, hpad']
  | _ => exact (congrArg List.length h).ge

theorem length_le_of_recodedSeq {vs : FieldValues ks} {p p' : List UInt8}
    (h : RecodedSeq (TailDropped o) ks vs p p') : p'.length ≤ p.length := by
  induction ks generalizing p p' with
  | nil => simp [h.2]
  | cons k ks ih =>
    obtain ⟨bs, bs', rest, rest', rfl, rfl, hk, hks⟩ := h
    have hfirst := length_le_of_recoded hk
    have hrest := ih hks
    rw [List.length_append, List.length_append]
    omega

/-- A payload that the fields were read from and that is consumed. -/
theorem recodedSeq_of_readFields {payload : List UInt8} {fds : List RawFd}
    {vs : FieldValues ks} {m : WireReader}
    (hread : readFields o ks (.new payload fds) = some (.ok vs, m))
    (hconsumed : m.isPayloadConsumed = true) :
    RecodedSeq (TailDropped o) ks vs payload (encodeFields o ks vs) ∧
      (fieldCodec o).ValidSeq ks vs ∧ payload.length < 2 ^ 64 := by
  obtain ⟨hspec, hpayload, hvalid⟩ := (refines_readFields ks).sound _ vs m hread
  have hlen : m.offset = payload.length := by
    rw [WireReader.isPayloadConsumed, decide_eq_true_iff, hpayload] at hconsumed
    exact hconsumed
  obtain ⟨bs, hbs, hrecoded⟩ := recodedSeq_of_readSeq hspec
  have hnil : m.cursor.payload = [] := by
    rw [WireReader.cursor, hpayload]
    exact List.drop_eq_nil_of_le hlen.ge
  rw [hnil, List.append_nil] at hbs
  obtain rfl : payload = bs := hbs
  exact ⟨hrecoded, Codec.validSeq_of_readSeq hspec,
    hlen ▸ (hvalid ⟨Nat.zero_le _, Nat.two_pow_pos 64⟩).2⟩

theorem exists_tryBuildMessage {payload : List UInt8} (hfit : payload.length + 8 ≤ 0xffff)
    (hmod : payload.length % 4 = 0) (senderId opcode : ℕ) :
    ∃ bytes, tryBuildMessage o payload senderId opcode = .ok bytes ∧
      bytes.drop 8 = payload := by
  refine ⟨o.toNeBytes senderId ++ o.toNeBytes ((payload.length + 8) <<< 16 ||| opcode) ++
    payload, ?_, List.drop_left' (by simp)⟩
  rw [tryBuildMessage, if_neg (by omega), if_neg (by omega)]

/-- Fields that fit a message are read back from it, and what is read back is written as the
payload it came from, but for padding and the tails of strings. The header is framed as it
was built, and no reader panics on any payload. -/
theorem wire_round_trip (o : ByteOrder) (ks : List FieldKind) :
    (∀ (vs : FieldValues ks) (fds : List RawFd) (senderId opcode : ℕ),
      EachValue FieldKind.Typed ks vs →
      (encodeFields o ks vs).length + 8 ≤ 0xffff →
      (∃ bytes, tryBuildMessage o (encodeFields o ks vs) senderId opcode = .ok bytes ∧
        bytes.drop 8 = encodeFields o ks vs) ∧
      ∃ m, readFields o ks (.new (encodeFields o ks vs) fds) = some (.ok vs, m) ∧
        m.isPayloadConsumed = true) ∧
    (∀ (payload : List UInt8) (fds : List RawFd) (vs : FieldValues ks) (m : WireReader),
      readFields o ks (.new payload fds) = some (.ok vs, m) → m.isPayloadConsumed = true →
      RecodedSeq (TailDropped o) ks vs payload (encodeFields o ks vs) ∧
      ∃ m', readFields o ks (.new (encodeFields o ks vs) fds) = some (.ok vs, m') ∧
        m'.isPayloadConsumed = true) ∧
    (∀ (payload bytes rest : List UInt8) (senderId opcode : ℕ),
      senderId < 2 ^ 32 → opcode < 2 ^ 16 →
      tryBuildMessage o payload senderId opcode = .ok bytes →
      frame o (bytes ++ rest) = .message { senderId, len := bytes.length, opcode }) ∧
    (∀ m, (readFields o ks m).isSome = true) ∧ ∀ m, (WireReader.readFd m).isSome = true := by
  refine ⟨?_, ?_, ?_, (refines_readFields ks).runs, WireReader.refines_readFd.runs⟩
  · intro vs fds senderId opcode hvs hfit
    have hmod := length_encodeFields_mod (o := o) vs
    have hvalid := validSeq_of_typed (o := o) hvs (by omega)
    exact ⟨exists_tryBuildMessage hfit hmod senderId opcode,
      readFields_encodeFields hvalid (by omega) fds⟩
  · intro payload fds vs m hread hconsumed
    obtain ⟨hrecoded, hvalid, hlt⟩ := recodedSeq_of_readFields hread hconsumed
    have hle := length_le_of_recodedSeq hrecoded
    exact ⟨hrecoded, readFields_encodeFields hvalid (lt_of_le_of_lt hle hlt) fds⟩
  · intro payload bytes rest senderId opcode hsender hopcode hbuild
    exact frame_tryBuildMessage o hsender hopcode hbuild rest

/-- A name with a zero inside, as a client may send it: what is read is written back with a
shorter length and without what follows the zero. -/
theorem wire_round_trip_cut :
    (∃ m, readFields .little [.string, .u32] (.new (encodeFields .little [.string, .u32]
      ("a", (7 : ℕ), ⟨⟩)) []) = some (.ok ("a", (7 : ℕ), ⟨⟩), m) ∧ m.isPayloadConsumed = true) ∧
    RecodedSeq (TailDropped .little) [.string, .u32] ("a", (7 : ℕ), ⟨⟩)
      [4, 0, 0, 0, 97, 0, 98, 0, 7, 0, 0, 0] [2, 0, 0, 0, 97, 0, 0, 0, 7, 0, 0, 0] ∧
    frame .little [1, 0, 0, 0, 2, 0, 12, 0, 7, 0, 0, 0] = .message ⟨1, 12, 2⟩ := by
  obtain ⟨hwrite, hread, hframe, -⟩ := wire_round_trip .little [.string, .u32]
  have htext : 0 ∉ asBytes "a" := by decide
  have hword : Cursor.IsU32 7 := show 7 < 2 ^ 32 by decide
  refine ⟨(hwrite ("a", (7 : ℕ), ⟨⟩) [] 1 2 ⟨htext, hword, trivial⟩ (by decide)).2, ?_, ?_⟩
  · exact (hread [4, 0, 0, 0, 97, 0, 98, 0, 7, 0, 0, 0] [] ("a", (7 : ℕ), ⟨⟩) _ rfl rfl).1
  · exact hframe [7, 0, 0, 0] _ [] 1 2 (by decide) (by decide) rfl

/-- Re-encoding does not keep what stands before the first zero: the length changes. -/
theorem interior_zero_changes_length :
    ¬ ∀ (payload : List UInt8) (vs : FieldValues [.string]) (m : WireReader),
      readFields .little [.string] (.new payload []) = some (.ok vs, m) →
      m.isPayloadConsumed = true →
      RecodedSeq SameUpToNul [.string] vs payload (encodeFields .little [.string] vs) := by
  intro h
  obtain ⟨bs, bs', rest, rest', hp, hp', ⟨word, tail, tail', hword, rfl, rfl⟩, -⟩ :=
    h [4, 0, 0, 0, 97, 0, 98, 0] ("a", ⟨⟩) _ rfl rfl
  have htake := congrArg (List.take 4) hp
  have htake' := congrArg (List.take 4) hp'
  rw [List.append_assoc, List.append_assoc, List.take_left' hword] at htake htake'
  exact absurd (htake.trans htake'.symm) (by decide)

end Sommelier
