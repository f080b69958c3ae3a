import Sommelier.Lib.Codec
import Sommelier.Proxy.HandleMsgs
import Sommelier.State.ShadowTable
import Sommelier.WireValues

/-!
# Message schemas

The argument types of the protocol files, the values they carry and the reads and writes
the generator emits for them. Only a request may carry an interface-less new ID, so the
argument types are indexed by the direction of the message.

## Main definitions

* `ArgType`, `ArgType.Value`: the argument types and their values.
* `ArgType.read`, `ArgType.write`, `argCodec`: reads and writes, and the codec they form.
* `MessageSchema`, `fromWire`: a message of an interface and its decoder.
-/
namespace Sommelier

/-- Argument types of a message. Object and new-ID arguments may name an interface. -/
inductive ArgType : Direction → Type
  | int {d : Direction} : ArgType d
  | uint {d : Direction} : ArgType d
  | fixed {d : Direction} : ArgType d
  | string {d : Direction} (allowNull : Bool) : ArgType d
  | array {d : Direction} : ArgType d
  | fd {d : Direction} : ArgType d
  | object {d : Direction} (interface : Option Interface) (allowNull : Bool) : ArgType d
  | newId {d : Direction} (interface : Interface) : ArgType d
  /-- A new ID that travels with the name and the version of its interface. -/
  | newIdAny : ArgType .clientToHost
  deriving DecidableEq

namespace ArgType
variable {d : Direction} (o : ByteOrder)

/-- What an argument carries. -/
def Value : ArgType d → Type
  | int => ℤ
  | uint => ℕ
  | fixed => ℤ
  | string false => String
  | string true => Option String
  | array => List UInt8
  | fd => RawFd
  | object _ _ => ℕ
  | newId _ => ℕ
  | newIdAny => String × ℕ × ℕ

def read : (a : ArgType d) → Cursor → Except ProtocolError (a.Value × Cursor)
  | int, c => c.readI32 o
  | uint, c => c.readU32 o
  | fixed, c => c.readFixed o
  | string false, c => c.readString o
  | string true, c => c.readNullableString o
  | array, c => c.readArray o
  | fd, c => c.readFd
  | object _ _, c => c.readU32 o
  | newId _, c => c.readU32 o
  | newIdAny, c =>
    (c.readString o).bind fun (name, c) => (c.readU32 o).bind fun (version, c) =>
      (c.readU32 o).bind fun (id, c) => .ok ((name, version, id), c)

def write : (a : ArgType d) → a.Value → MessageBuilder → MessageBuilder
  | int, v, b => b.writeI32 o v
  | uint, v, b => b.writeU32 o v
  | fixed, v, b => b.writeFixed o v
  | string false, v, b => b.writeString o v
  | string true, v, b => b.writeNullableString o v
  | array, v, b => b.writeArray o v
  | fd, v, b => b.writeFd v
  | object _ _, v, b => b.writeU32 o v
  | newId _, v, b => b.writeU32 o v
  | newIdAny, (name, version, id), b =>
    ((b.writeString o name).writeU32 o version).writeU32 o id

/-- Values the wire can carry. -/
def Valid : (a : ArgType d) → a.Value → Prop
  | int, v => Cursor.IsI32 v
  | uint, v => Cursor.IsU32 v
  | fixed, v => Cursor.IsI32 v
  | string false, v => Cursor.IsWireString v
  | string true, v => ∀ value, v = some value → Cursor.IsWireString value
  | array, v => Cursor.IsU32 (List.length v)
  | fd, _ => True
  | object _ _, v => Cursor.IsU32 v
  | newId _, v => Cursor.IsU32 v
  | newIdAny, (name, version, id) =>
    Cursor.IsWireString name ∧ Cursor.IsU32 version ∧ Cursor.IsU32 id

theorem write_before (a : ArgType d) (v : a.Value) (b : MessageBuilder) (c : Cursor) :
    (a.write o v b).before c = b.before ((a.write o v .new).before c) := by
  cases a with
  | int => exact b.writeU32_before o c _
  | uint => exact b.writeU32_before o c _
  | fixed => exact b.writeU32_before o c _
  | string allowNull =>
    cases allowNull with
    | false => exact b.writeString_before o c v
    | true => exact b.writeNullableString_before o c v
  | array => exact b.writeArray_before o c v
  | fd => exact b.writeFd_before c v
  | object interface allowNull => exact b.writeU32_before o c v
  | newId interface => exact b.writeU32_before o c v
  | newIdAny =>
    obtain ⟨name, version, id⟩ := v
    simp only [write]
    rw [MessageBuilder.writeU32_before, MessageBuilder.writeU32_before,
      MessageBuilder.writeString_before,
      MessageBuilder.writeU32_before o ((MessageBuilder.new.writeString o name).writeU32 o _),
      MessageBuilder.writeU32_before o (MessageBuilder.new.writeString o name)]

theorem valid_of_read {a : ArgType d} {c c' : Cursor} {v : a.Value}
    (h : a.read o c = .ok (v, c')) : a.Valid v := by
  cases a with
  | int => exact Cursor.isI32_of_readI32 h
  | uint => exact Cursor.isU32_of_readU32 h
  | fixed => exact Cursor.isI32_of_readI32 h
  | string allowNull =>
    cases allowNull with
    | false => exact Cursor.isWireString_of_readStringValue (Cursor.readString_eq_ok h) _ rfl
    | true => exact Cursor.isWireString_of_readStringValue h
  | array => exact Cursor.length_lt_of_readArray h
  | fd => trivial
  | object interface allowNull => exact Cursor.isU32_of_readU32 h
  | newId interface => exact Cursor.isU32_of_readU32 h
  | newIdAny =>
    simp only [read, Except.bind_eq_ok_iff, Except.ok.injEq, Prod.exists] at h
    obtain ⟨name, c₁, hname, version, c₂, hversion, id, c₃, hid, heq⟩ := h
    cases heq
    exact ⟨Cursor.isWireString_of_readStringValue (Cursor.readString_eq_ok hname) _ rfl,
      Cursor.isU32_of_readU32 hversion, Cursor.isU32_of_readU32 hid⟩

theorem read_write {a : ArgType d} {v : a.Value} (h : a.Valid v) (c : Cursor) :
    a.read o ((a.write o v .new).before c) = .ok (v, c) := by
  cases a with
  | int => exact Cursor.readI32_writeI32 h c
  | uint => exact Cursor.readU32_writeU32 h c
  | fixed => exact Cursor.readI32_writeI32 h c
  | string allowNull =>
    cases allowNull with
    | false => exact Cursor.readString_writeString h c
    | true => exact Cursor.readNullableString_writeNullableString h c
  | array => exact Cursor.readArray_writeArray h c
  | fd => exact Cursor.readFd_writeFd v c
  | object interface allowNull => exact Cursor.readU32_writeU32 h c
  | newId interface => exact Cursor.readU32_writeU32 h c
  | newIdAny =>
    obtain ⟨name, version, id⟩ := v
    obtain ⟨hname, hversion, hid⟩ := h
    simp only [read, write]
    rw [MessageBuilder.writeU32_before, MessageBuilder.writeU32_before,
      Cursor.readString_writeString hname]
    simp only [Except.bind, Cursor.readU32_writeU32 hversion, Cursor.readU32_writeU32 hid]

/-- The bytes an argument takes in a message. -/
def size : (a : ArgType d) → a.Value → ℕ
  | int, _ => 4
  | uint, _ => 4
  | fixed, _ => 4
  | string false, v => 4 + paddedLen ((asBytes v).length + 1)
  | string true, v => 4 + Option.elim v 0 fun value => paddedLen ((asBytes value).length + 1)
  | array, v => 4 + paddedLen (List.length v)
  | fd, _ => 0
  | object _ _, _ => 4
  | newId _, _ => 4
  | newIdAny, (name, _, _) => 12 + paddedLen ((asBytes name).length + 1)

theorem length_write (a : ArgType d) (v : a.Value) (b : MessageBuilder) :
    (a.write o v b).payload.length = b.payload.length + a.size v := by
  cases a with
  | int | fixed => exact b.length_writeU32 o _
  | uint | object | newId => exact b.length_writeU32 o v
  | string allowNull =>
    cases allowNull with
    | false => exact b.length_writeString o v
    | true =>
      cases v with
      | none => exact b.length_writeU32 o 0
      | some value => exact b.length_writeString o value
  | array => exact b.length_writeArray o v
  | fd => rfl
  | newIdAny =>
    obtain ⟨name, version, id⟩ := v
    simp only [write, size, MessageBuilder.length_writeU32, MessageBuilder.length_writeString]
    omega

theorem size_mod (a : ArgType d) (v : a.Value) : a.size v % 4 = 0 := by
  cases a with
  | string allowNull =>
    cases allowNull with
    | false => simp only [size, Nat.add_mod_left, paddedLen_mod]
    | true => cases v <;> simp [size, paddedLen_mod]
  | array => simp only [size, Nat.add_mod_left, paddedLen_mod]
  | newIdAny =>
    obtain ⟨name, version, id⟩ := v
    have h := paddedLen_mod ((asBytes name).length + 1)
    simp only [size]
    omega
  | int | uint | fixed | fd | object | newId => simp [size]

end ArgType

/-- The codec of the arguments of one direction. -/
def argCodec (o : ByteOrder) (d : Direction) :
    Codec (ArgType d) ArgType.Value Cursor ProtocolError where
  read := ArgType.read o
  prepend a v c := (a.write o v .new).before c
  Valid := ArgType.Valid
  valid_of_read := ArgType.valid_of_read o
  read_prepend := ArgType.read_write o

/-- The values of a list of arguments. -/
abbrev ArgValues {d : Direction} (args : List (ArgType d)) : Type := args.TProd ArgType.Value

/-- Write the arguments one after the other. -/
def writeArgs (o : ByteOrder) {d : Direction} :
    (args : List (ArgType d)) → ArgValues args → MessageBuilder → MessageBuilder
  | [], _, b => b
  | a :: args, (v, vs), b => writeArgs o args vs (a.write o v b)

/-- What the writers build is the encoding of the codec. -/
theorem writeArgs_before (o : ByteOrder) {d : Direction} (args : List (ArgType d))
    (vs : ArgValues args) (b : MessageBuilder) (c : Cursor) :
    (writeArgs o args vs b).before c = b.before ((argCodec o d).seq.prepend args vs c) := by
  induction args generalizing b with
  | nil => rfl
  | cons a args ih =>
    obtain ⟨v, vs⟩ := vs
    rw [writeArgs, ih, ArgType.write_before]
    rfl

/-- A request or an event of an interface. -/
structure MessageSchema (d : Direction) where
  since : Option ℕ
  args : List (ArgType d)
  destructor : Bool

/-- The arguments of a decoded message, with the message they belong to. -/
abbrev Decoded (d : Direction) := (s : MessageSchema d) × ArgValues s.args

def WireMessage.cursor (msg : WireMessage) : Cursor := ⟨msg.payload, msg.fds⟩

/-- `from_wire`: the opcode is the position of the message in its interface. -/
def fromWire (o : ByteOrder) {d : Direction} (messages : List (MessageSchema d))
    (msg : WireMessage) : Except ProtocolError (Decoded d × Cursor) :=
  match messages[msg.opcode]? with
  | none => .error (.unknownOpcode msg.opcode)
  | some s => ((argCodec o d).seq.read s.args msg.cursor).map fun (vs, c) => (⟨s, vs⟩, c)

end Sommelier
