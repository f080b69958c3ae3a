import Sommelier.Generated.Dispatch

/-!
# Sizes of messages

How long the encoding of a message is. It depends on the arguments only, it fits the length
field or is refused, and it is never longer than the message the arguments were read from.

## Main definitions

* `argsSize`: the bytes of the arguments of a message.
-/
namespace Sommelier
variable {d : Direction} {o : ByteOrder} {senderId : ℕ}

/-! ## Sizes of what is written -/

/-- The bytes the arguments of a message take. -/
def argsSize : (args : List (ArgType d)) → ArgValues args → ℕ
  | [], _ => 0
  | a :: args, (v, vs) => a.size v + argsSize args vs

/-- The arguments are written one behind the other. -/
theorem length_writeArgs (args : List (ArgType d)) (vs : ArgValues args) (b : MessageBuilder) :
    (writeArgs o args vs b).payload.length = b.payload.length + argsSize args vs := by
  induction args generalizing b with
  | nil => rfl
  | cons a args ih =>
    obtain ⟨v, vs⟩ := vs
    rw [writeArgs, ih, ArgType.length_write, argsSize, Nat.add_assoc]

/-- Arguments fill whole words, so that no message is refused for its alignment. -/
theorem argsSize_mod (args : List (ArgType d)) (vs : ArgValues args) :
    argsSize args vs % 4 = 0 := by
  induction args with
  | nil => rfl
  | cons a args ih =>
    obtain ⟨v, vs⟩ := vs
    have ha := a.size_mod v
    have hargs := ih vs
    simp only [argsSize]
    omega

/-- Arguments are encoded unless they outgrow the length field. -/
theorem buildMessage_error_iff {args : List (ArgType d)} {vs : ArgValues args} {opcode : ℕ} :
    (∃ e, buildMessage o args vs senderId opcode = .error e) ↔ 0xffff < argsSize args vs + 8 := by
  have hlen : (writeArgs o args vs .new).payload.length = argsSize args vs := by
    rw [length_writeArgs]
    exact Nat.zero_add _
  have hmod := argsSize_mod args vs
  unfold buildMessage tryBuildMessage
  dsimp only
  rw [hlen]
  split_ifs with hlong hodd
  · simp [Except.map, hlong]
  · omega
  · simp only [Except.map, reduceCtorEq, exists_false, false_iff]
    exact hlong

/-! ## Sizes of what was read -/

section
variable {c c' : Cursor}

/-- A word is taken off the payload. -/
theorem length_of_readU32 {n : ℕ} (h : c.readU32 o = .ok (n, c')) :
    4 + c'.payload.length = c.payload.length := by
  unfold Cursor.readU32 at h
  split_ifs at h with hlen
  cases h
  simp only [List.length_drop]
  omega

/-- A string may be cut at a zero, its encoding then is shorter than what was read. -/
theorem length_of_readStringValue {nullable : Bool} {s : Option String}
    (h : c.readStringValue o nullable = .ok (s, c')) :
    4 + (s.elim 0 fun value => paddedLen ((asBytes value).length + 1)) + c'.payload.length ≤
      c.payload.length := by
  unfold Cursor.readStringValue at h
  cases hr : c.readU32 o with
  | error e => simp [hr, Except.bind] at h
  | ok r =>
    obtain ⟨len, c₁⟩ := r
    have hword := length_of_readU32 hr
    simp only [hr, Except.bind] at h
    split_ifs at h with hzero hnull hshort hlast
    · cases h
      simp only [Option.elim_none]
      omega
    · cases hutf : fromUtf8 ((c₁.payload.take len).takeWhile (· != 0)) with
      | none => simp [hutf] at h
      | some value =>
        simp only [hutf, Except.ok.injEq, Prod.mk.injEq] at h
        obtain ⟨rfl, rfl⟩ := h
        have hproper : (asBytes value).length + 1 ≤ len := by
          have hlt := Cursor.length_takeWhile_lt (Decidable.not_not.mp hlast)
          rw [List.length_take] at hlt
          rw [Cursor.asBytes_of_fromUtf8 hutf]
          omega
        simp only [Option.elim_some, List.length_drop]
        unfold paddedLen at hshort ⊢
        omega

theorem length_of_readI32 {v : ℤ} (h : c.readI32 o = .ok (v, c')) :
    4 + c'.payload.length = c.payload.length := by
  unfold Cursor.readI32 at h
  cases hr : c.readU32 o with
  | error e => simp [hr, Except.map] at h
  | ok r =>
    obtain ⟨n, c₁⟩ := r
    simp only [hr, Except.map] at h
    cases h
    exact length_of_readU32 hr

/-- An array is read with its padding. -/
theorem length_of_readArray {bytes : List UInt8} (h : c.readArray o = .ok (bytes, c')) :
    4 + paddedLen bytes.length + c'.payload.length ≤ c.payload.length := by
  unfold Cursor.readArray at h
  cases hr : c.readU32 o with
  | error e => simp [hr, Except.bind] at h
  | ok r =>
    obtain ⟨len, c₁⟩ := r
    have hword := length_of_readU32 hr
    simp only [hr, Except.bind] at h
    split_ifs at h with hshort
    cases h
    unfold paddedLen at hshort ⊢
    simp only [List.length_take, List.length_drop]
    omega

/-- A descriptor takes no payload. -/
theorem length_of_readFd {fd : RawFd} (h : c.readFd = .ok (fd, c')) :
    c'.payload.length = c.payload.length := by
  unfold Cursor.readFd at h
  split at h
  · cases h
  · cases h
    rfl

/-- What was read of an argument is at least its encoding. -/
theorem ArgType.size_le_of_read {a : ArgType d} {v : a.Value} (h : a.read o c = .ok (v, c')) :
    a.size v + c'.payload.length ≤ c.payload.length := by
  cases a with
  | uint | object | newId => exact (length_of_readU32 h).le
  | int | fixed => exact (length_of_readI32 h).le
  | string allowNull =>
    cases allowNull with
    | false => exact length_of_readStringValue (Cursor.readString_eq_ok h)
    | true => exact length_of_readStringValue h
  | array => exact length_of_readArray h
  | fd =>
    rw [← length_of_readFd h]
    exact (Nat.zero_add _).le
  | newIdAny =>
    simp only [ArgType.read, Except.bind_eq_ok_iff, Except.ok.injEq, Prod.exists] at h
    obtain ⟨name, c₁, hname, version, c₂, hversion, id, c₃, hid, heq⟩ := h
    cases heq
    have h₁ := length_of_readStringValue (Cursor.readString_eq_ok hname)
    have h₂ := length_of_readU32 hversion
    have h₃ := length_of_readU32 hid
    simp only [Option.elim_some] at h₁
    simp only [ArgType.size]
    omega

theorem argsSize_le_of_read {args : List (ArgType d)} {vs : ArgValues args}
    (h : (argCodec o d).seq.read args c = .ok (vs, c')) :
    argsSize args vs + c'.payload.length ≤ c.payload.length := by
  induction args generalizing c with
  | nil =>
    cases h
    exact (Nat.zero_add _).le
  | cons a args ih =>
    obtain ⟨v, vs⟩ := vs
    obtain ⟨c₁, hv, hvs⟩ := Codec.readSeq_cons_eq_ok.mp h
    have h₁ := ArgType.size_le_of_read hv
    have h₂ := ih hvs
    simp only [argsSize]
    omega

/-- The encoding of a decoded message is not longer than the message. -/
theorem argsSize_le_of_fromWire {messages : List (MessageSchema d)} {msg : WireMessage}
    {s : MessageSchema d} {vs : ArgValues s.args} {rest : Cursor}
    (h : fromWire o messages msg = .ok (⟨s, vs⟩, rest)) :
    argsSize s.args vs ≤ msg.payload.length := by
  unfold fromWire at h
  split at h
  · cases h
  · next s' hs =>
    cases hread : (argCodec o d).seq.read s'.args msg.cursor with
    | error e => simp [hread, Except.map] at h
    | ok r =>
      simp only [hread, Except.map, Except.ok.injEq] at h
      cases h
      exact (Nat.le_add_right _ _).trans (argsSize_le_of_read hread)

end

end Sommelier
