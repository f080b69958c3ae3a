import Sommelier.Usize
import Sommelier.WireValues

/-!
# Reading at an offset

The readers of a received message as the code has them: an offset into a payload that stays
whole, checked arithmetic on it, and slices. The lengths come from the payload, so they may
be anything; no reader slices outside the payload, and each reads what the reader of `Cursor`
reads from what is left.

## Main definitions

* `WireReader`: a message while it is read, with a reader for each kind of value.
* `WireReader.cursor`: what is left to read.
* `WireReader.Refines`: the reader never panics and agrees with a reader of `Cursor`.
-/
namespace Sommelier

/-- A message while it is read. -/
structure WireReader where
  payload : List UInt8
  fds : List RawFd
  offset : ℕ
  fdOffset : ℕ
  deriving DecidableEq, Repr

namespace WireReader

def new (payload : List UInt8) (fds : List RawFd) : WireReader where
  payload
  fds
  offset := 0
  fdOffset := 0

/-- A read ends in a value or an error and moves the offsets; `none` is a panic. -/
abbrev Read (α : Type) : Type := WireReader → Option (Except ProtocolError α × WireReader)

/-- A read whose errors end the reading. -/
def Read.bind {α β : Type} (read : Read α) (f : α → Read β) : Read β := fun m =>
  (read m).bind fun (result, m) =>
    match result with
    | .error e => some (.error e, m)
    | .ok a => f a m

def Read.map {α β : Type} (f : α → β) (read : Read α) : Read β :=
  read.bind fun a m => some (.ok (f a), m)

variable (o : ByteOrder)

def readU32 : Read ℕ := fun m =>
  match checkedAdd m.offset 4 with
  | none => some (.error .insufficientData, m)
  | some stop =>
    if m.payload.length < stop then some (.error .insufficientData, m)
    else (slice m.payload m.offset stop).map fun bytes =>
      (.ok (o.fromNeBytes bytes), { m with offset := stop })

def readI32 : Read ℤ :=
  (readU32 o).map fun v : ℕ => if v < 2 ^ 31 then (v : ℤ) else v - 2 ^ 32

def readFixed : Read ℤ := readI32 o

/-- The end of a block with its padding, when it does not lie behind the payload. -/
def paddedEnd (m : WireReader) (len : ℕ) : Option ℕ :=
  (((checkedAdd len 3).map fun sum => sum / 4 * 4).bind (checkedAdd m.offset)).filter
    (decide <| · ≤ m.payload.length)

def readStringValue (nullable : Bool) : Read (Option String) :=
  (readU32 o).bind fun len m =>
    if len = 0 then some (if nullable then .ok none else .error .invalidString, m)
    else
      match m.paddedEnd len with
      | none => some (.error .insufficientData, m)
      | some stop =>
        match checkedAdd m.offset len with
        | none => some (.error .insufficientData, m)
        | some bytesEnd =>
          (slice m.payload m.offset bytesEnd).bind fun bytes =>
            if bytes.getLast? ≠ some 0 then some (.error .invalidString, m)
            else
              -- The string ends at its first zero.
              let nullPos := (bytes.findIdx? (· == 0)).getD (len - 1)
              (slice bytes 0 nullPos).map fun text =>
                match fromUtf8 text with
                | none => (.error .invalidString, m)
                | some s => (.ok (some s), { m with offset := stop })

def readString : Read String :=
  (readStringValue o false).bind fun s m =>
    some (match s with
      | some s => .ok s
      | none => .error .invalidString, m)

def readNullableString : Read (Option String) := readStringValue o true

def readArray : Read (List UInt8) :=
  (readU32 o).bind fun len m =>
    match m.paddedEnd len with
    | none => some (.error .insufficientData, m)
    | some stop =>
      match checkedAdd m.offset len with
      | none => some (.error .insufficientData, m)
      | some bytesEnd =>
        (slice m.payload m.offset bytesEnd).map fun bytes =>
          (.ok bytes, { m with offset := stop })

def readFd : Read RawFd := fun m =>
  if m.fdOffset < m.fds.length then
    m.fds[m.fdOffset]?.map fun fd => (.ok fd, { m with fdOffset := m.fdOffset + 1 })
  else some (.error .missingFd, m)

def isPayloadConsumed (m : WireReader) : Bool := decide (m.offset = m.payload.length)

/-! ## What is left to read -/

def cursor (m : WireReader) : Cursor := ⟨m.payload.drop m.offset, m.fds.drop m.fdOffset⟩

/-- The offset is a `usize` within the payload. -/
def ValidOffset (m : WireReader) : Prop := m.offset ≤ m.payload.length ∧ m.offset < 2 ^ 64

/-- The offset lies within the payload, whose length is a `usize`. -/
def InBounds (m : WireReader) : Prop :=
  m.offset ≤ m.payload.length ∧ m.payload.length < 2 ^ 64

theorem InBounds.validOffset {m : WireReader} (hm : m.InBounds) : m.ValidOffset :=
  ⟨hm.1, lt_of_le_of_lt hm.1 hm.2⟩

/-- The reader never panics, and reads what the other reads from what is left. -/
structure Refines {α : Type} (read : Read α)
    (spec : Cursor → Except ProtocolError (α × Cursor)) : Prop where
  runs : ∀ m, (read m).isSome = true
  sound : ∀ m a m', read m = some (.ok a, m') → spec m.cursor = .ok (a, m'.cursor) ∧
    m'.payload = m.payload ∧ (m.ValidOffset → m'.ValidOffset)
  complete : ∀ m a c, m.InBounds → spec m.cursor = .ok (a, c) → ∃ m', read m = some (.ok a, m')

variable {o : ByteOrder} {α β : Type}

namespace Refines

theorem bind {read : Read α} {spec : Cursor → Except ProtocolError (α × Cursor)}
    {f : α → Read β} {g : α × Cursor → Except ProtocolError (β × Cursor)}
    (hread : Refines read spec) (hf : ∀ a, Refines (f a) fun c => g (a, c)) :
    Refines (read.bind f) fun c => (spec c).bind g := by
  constructor
  · intro m
    obtain ⟨⟨result, m₁⟩, h₁⟩ := Option.isSome_iff_exists.mp (hread.runs m)
    simp only [Read.bind, h₁, Option.bind_some]
    cases result with
    | error e => rfl
    | ok a => exact (hf a).runs m₁
  · intro m b m' h
    obtain ⟨⟨result, m₁⟩, h₁, h⟩ := Option.bind_eq_some_iff.mp h
    cases result with
    | error e => simp at h
    | ok a =>
      obtain ⟨hspec, hpayload, hvalid⟩ := hread.sound m a m₁ h₁
      obtain ⟨hspec', hpayload', hvalid'⟩ := (hf a).sound m₁ b m' h
      refine ⟨?_, hpayload'.trans hpayload, fun hm => hvalid' (hvalid hm)⟩
      rw [hspec]
      exact hspec'
  · intro m b c hm h
    cases hspec : spec m.cursor with
    | error e => simp [hspec, Except.bind] at h
    | ok r =>
      obtain ⟨a, c₁⟩ := r
      obtain ⟨m₁, h₁⟩ := hread.complete m a c₁ hm hspec
      obtain ⟨hcursor, hpayload, hvalid⟩ := hread.sound m a m₁ h₁
      obtain rfl : m₁.cursor = c₁ := by
        rw [hspec] at hcursor
        exact (Prod.mk.inj (Except.ok.inj hcursor)).2.symm
      rw [hspec] at h
      have hm₁ : m₁.InBounds := ⟨(hvalid hm.validOffset).1, hpayload ▸ hm.2⟩
      obtain ⟨m', h'⟩ := (hf a).complete m₁ b c hm₁ h
      exact ⟨m', by rw [Read.bind, h₁]; exact h'⟩

theorem ok (a : α) : Refines (fun m => some (.ok a, m)) fun c => .ok (a, c) := by
  refine ⟨fun _ => rfl, fun m b m' h => ?_, fun m b c _ h => ⟨m, ?_⟩⟩
  · obtain ⟨hb, rfl⟩ := Prod.mk.inj (Option.some.inj h)
    obtain rfl := Except.ok.inj hb
    exact ⟨rfl, rfl, id⟩
  · obtain ⟨rfl, -⟩ := Prod.mk.inj (Except.ok.inj h)
    rfl

theorem error (e : ProtocolError) :
    Refines (α := α) (fun m => some (.error e, m)) fun _ => .error e :=
  ⟨fun _ => rfl, fun _ _ _ h => by simp at h, fun _ _ _ _ h => by simp at h⟩

end Refines

/-! ## The readers -/

theorem refines_readU32 : Refines (readU32 o) (Cursor.readU32 o) := by
  have hspec : ∀ m : WireReader, m.offset + 4 ≤ m.payload.length →
      Cursor.readU32 o m.cursor = .ok (o.fromNeBytes ((m.payload.drop m.offset).take 4),
        { m with offset := m.offset + 4 }.cursor) := by
    intro m hle
    have hlen : ¬ (m.payload.drop m.offset).length < 4 := by
      rw [List.length_drop]
      omega
    rw [Cursor.readU32, if_neg (by exact hlen)]
    simp [cursor, List.drop_drop]
  constructor
  · intro m
    unfold readU32
    cases hstop : checkedAdd m.offset 4 with
    | none => rfl
    | some stop =>
      obtain rfl := checkedAdd_eq_some hstop
      dsimp only
      split_ifs with hlen
      · rfl
      · rw [slice_of_le (by omega) (by omega)]
        rfl
  · intro m n m' h
    unfold readU32 at h
    cases hstop : checkedAdd m.offset 4 with
    | none => simp [hstop] at h
    | some stop =>
      obtain rfl := checkedAdd_eq_some hstop
      simp only [hstop] at h
      split_ifs at h with hlen
      · simp at h
      · rw [slice_of_le (by omega) (by omega), Option.map_some, Option.some.injEq,
          Prod.mk.injEq, Except.ok.injEq] at h
        obtain ⟨rfl, rfl⟩ := h
        rw [Nat.add_sub_cancel_left, hspec m (by omega)]
        exact ⟨rfl, rfl, fun _ => ⟨Nat.le_of_not_lt hlen, (checkedAdd_eq_some_iff.mp hstop).1⟩⟩
  · intro m n c hm h
    have hlen : m.offset + 4 ≤ m.payload.length := by
      by_contra hlt
      have hshort : (m.payload.drop m.offset).length < 4 := by
        rw [List.length_drop]
        omega
      rw [Cursor.readU32, if_pos (by exact hshort)] at h
      simp at h
    have hsum : m.offset + 4 < 2 ^ 64 := lt_of_le_of_lt hlen hm.2
    rw [hspec m hlen, Except.ok.injEq, Prod.mk.injEq] at h
    refine ⟨{ m with offset := m.offset + 4 }, ?_⟩
    rw [readU32, checkedAdd_of_lt hsum]
    simp only [Nat.not_lt.mpr hlen, if_false]
    rw [slice_of_le (by omega) hlen, Nat.add_sub_cancel_left, Option.map_some, h.1]

theorem Refines.map {read : Read α} {spec : Cursor → Except ProtocolError (α × Cursor)}
    (hread : Refines read spec) (f : α → β) :
    Refines (read.map f) fun c => (spec c).map fun (a, c) => (f a, c) := by
  have hbind := hread.bind (g := fun (a, c) => .ok (f a, c)) fun a => Refines.ok (f a)
  have heq : (fun c => (spec c).map fun (a, c) => (f a, c)) =
      fun c => (spec c).bind fun (a, c) => .ok (f a, c) := by
    funext c
    cases spec c <;> rfl
  exact heq ▸ hbind

theorem refines_readI32 : Refines (readI32 o) (Cursor.readI32 o) := refines_readU32.map _

/-- The end of a block exists exactly when the padded block is there. -/
theorem paddedEnd_eq_some {m : WireReader} {len stop : ℕ} (h : m.paddedEnd len = some stop) :
    stop = m.offset + paddedLen len ∧ stop ≤ m.payload.length ∧ stop < 2 ^ 64 := by
  obtain ⟨hstop, hle⟩ := Option.filter_eq_some_iff.mp h
  obtain ⟨padded, hpadded, hsum⟩ := Option.bind_eq_some_iff.mp hstop
  obtain ⟨n, hn, rfl⟩ := Option.map_eq_some_iff.mp hpadded
  obtain rfl := checkedAdd_eq_some hn
  obtain ⟨hlt, rfl⟩ := checkedAdd_eq_some_iff.mp hsum
  exact ⟨rfl, by simpa using hle, hlt⟩

theorem paddedEnd_of_le {m : WireReader} (hm : m.InBounds) {len : ℕ}
    (h : paddedLen len ≤ m.cursor.payload.length) :
    m.paddedEnd len = some (m.offset + paddedLen len) := by
  have hle : m.offset + paddedLen len ≤ m.payload.length := by
    have hoffset := hm.1
    rw [cursor, List.length_drop] at h
    omega
  have hsum : m.offset + paddedLen len < 2 ^ 64 := lt_of_le_of_lt hle hm.2
  have hlen : len + 3 < 2 ^ 64 := by
    unfold paddedLen at hsum
    omega
  rw [paddedEnd, checkedAdd_of_lt hlen, Option.map_some, Option.bind_some]
  rw [checkedAdd_of_lt (by simpa [paddedLen] using hsum)]
  simpa [Option.filter, paddedLen] using hle

/-- A block that ends in the payload is what the reader of `Cursor` takes. -/
theorem slice_block {m : WireReader} {len stop : ℕ} (h : m.paddedEnd len = some stop) :
    checkedAdd m.offset len = some (m.offset + len) ∧
      slice m.payload m.offset (m.offset + len) = some (m.cursor.payload.take len) ∧
      paddedLen len ≤ m.cursor.payload.length ∧
      { m with offset := stop }.cursor = { m.cursor with
        payload := m.cursor.payload.drop (paddedLen len) } := by
  obtain ⟨rfl, hle, hlt⟩ := paddedEnd_eq_some h
  have hlen := le_paddedLen len
  refine ⟨checkedAdd_of_lt (by omega), ?_, ?_, ?_⟩
  · rw [slice_of_le (by omega) (by omega), Nat.add_sub_cancel_left]
    rfl
  · rw [cursor, List.length_drop]
    omega
  · simp [cursor, List.drop_drop]

theorem refines_readArray : Refines (readArray o) (Cursor.readArray o) := by
  refine refines_readU32.bind fun len => ?_
  constructor
  · intro m
    cases hstop : m.paddedEnd len with
    | none => simp
    | some stop =>
      obtain ⟨hadd, hslice, -⟩ := slice_block hstop
      simp [hadd, hslice]
  · intro m bytes m' h
    cases hstop : m.paddedEnd len with
    | none => simp [hstop] at h
    | some stop =>
      obtain ⟨hadd, hslice, hle, hcursor⟩ := slice_block hstop
      simp only [hstop, hadd, hslice, Option.map_some, Option.some.injEq, Prod.mk.injEq,
        Except.ok.injEq] at h
      obtain ⟨rfl, rfl⟩ := h
      refine ⟨?_, rfl, fun _ => (paddedEnd_eq_some hstop).2⟩
      simp only [Nat.not_lt.mpr hle, if_false, hcursor]
  · intro m bytes c hm h
    by_cases hle : m.cursor.payload.length < paddedLen len
    · simp [hle] at h
    · have hstop := paddedEnd_of_le hm (Nat.le_of_not_lt hle)
      obtain ⟨hadd, hslice, -⟩ := slice_block hstop
      simp only [hle, if_false, Except.ok.injEq, Prod.mk.injEq] at h
      exact ⟨{ m with offset := m.offset + paddedLen len }, by
        simp only [hstop, hadd, hslice, Option.map_some, h.1]⟩

/-- A text that ends in a zero is cut at its first zero. -/
theorem slice_nullPos {bytes : List UInt8} (hlast : bytes.getLast? = some 0) (d : ℕ) :
    slice bytes 0 ((bytes.findIdx? (· == 0)).getD d) = some (bytes.takeWhile (· != 0)) := by
  have hmem : ∃ b ∈ bytes, (b == 0) = true := ⟨0, List.mem_of_getLast? hlast, by simp⟩
  have hlt := List.findIdx_lt_length_of_exists hmem
  have hindex : bytes.findIdx? (· == 0) = some (bytes.findIdx (· == 0)) :=
    List.findIdx?_eq_some_of_exists hmem
  have htake : bytes.takeWhile (· != 0) = bytes.take (bytes.findIdx fun b => !(b != 0)) :=
    List.takeWhile_eq_take_findIdx_not
  rw [hindex, Option.getD_some, slice_of_le (Nat.zero_le _) hlt.le, htake]
  simp [bne]

theorem refines_readStringValue (nullable : Bool) :
    Refines (readStringValue o nullable) (Cursor.readStringValue o nullable) := by
  refine refines_readU32.bind fun len => ?_
  by_cases hzero : len = 0
  · subst hzero
    cases nullable with
    | true => exact .ok none
    | false => exact .error .invalidString
  simp only [hzero, if_false]
  constructor
  · intro m
    cases hstop : m.paddedEnd len with
    | none => rfl
    | some stop =>
      obtain ⟨hadd, hslice, -⟩ := slice_block hstop
      simp only [hadd, hslice, Option.bind_some]
      split_ifs with hlast
      · rfl
      · rw [slice_nullPos (Decidable.not_not.mp hlast)]
        rfl
  · intro m s m' h
    cases hstop : m.paddedEnd len with
    | none => simp [hstop] at h
    | some stop =>
      obtain ⟨hadd, hslice, hle, hcursor⟩ := slice_block hstop
      simp only [hstop, hadd, hslice, Option.bind_some] at h
      split_ifs at h with hlast
      · simp at h
      · rw [slice_nullPos (Decidable.not_not.mp hlast), Option.map_some] at h
        cases hutf : fromUtf8 ((m.cursor.payload.take len).takeWhile (· != 0)) with
        | none => simp [hutf] at h
        | some text =>
          simp only [hutf, Option.some.injEq, Prod.mk.injEq, Except.ok.injEq] at h
          obtain ⟨rfl, rfl⟩ := h
          refine ⟨?_, rfl, fun _ => (paddedEnd_eq_some hstop).2⟩
          simp only [Nat.not_lt.mpr hle, if_false, hlast, hcursor]
  · intro m s c hm h
    by_cases hle : m.cursor.payload.length < paddedLen len
    · simp [hle] at h
    · have hstop := paddedEnd_of_le hm (Nat.le_of_not_lt hle)
      obtain ⟨hadd, hslice, -⟩ := slice_block hstop
      simp only [hle, if_false] at h
      split_ifs at h with hlast
      cases hutf : fromUtf8 ((m.cursor.payload.take len).takeWhile (· != 0)) with
      | none => simp [hutf] at h
      | some text =>
        simp only [hutf, Except.ok.injEq, Prod.mk.injEq] at h
        obtain ⟨rfl, -⟩ := h
        refine ⟨{ m with offset := m.offset + paddedLen len }, ?_⟩
        simp only [hstop, hadd, hslice, Option.bind_some, hlast, if_false,
          slice_nullPos (Decidable.not_not.mp hlast), Option.map_some, hutf]

theorem refines_readString : Refines (readString o) (Cursor.readString o) := by
  refine (refines_readStringValue false).bind fun s => ?_
  cases s with
  | none => exact .error .invalidString
  | some s => exact .ok s

theorem refines_readFd : Refines readFd Cursor.readFd := by
  have hspec : ∀ (m : WireReader) fd, m.fds[m.fdOffset]? = some fd →
      Cursor.readFd m.cursor = .ok (fd, { m with fdOffset := m.fdOffset + 1 }.cursor) := by
    intro m fd hfd
    obtain ⟨hlt, rfl⟩ := List.getElem?_eq_some_iff.mp hfd
    unfold Cursor.readFd cursor
    rw [List.drop_eq_getElem_cons hlt]
  constructor
  · intro m
    unfold readFd
    split_ifs with hlt
    · simp [List.getElem?_eq_getElem hlt]
    · rfl
  · intro m fd m' h
    unfold readFd at h
    split_ifs at h with hlt
    · obtain ⟨fd', hfd, heq⟩ := Option.map_eq_some_iff.mp h
      obtain ⟨hok, rfl⟩ := Prod.mk.inj heq
      obtain rfl := Except.ok.inj hok
      exact ⟨hspec m fd' hfd, rfl, id⟩
    · simp at h
  · intro m fd c _ h
    by_cases hlt : m.fdOffset < m.fds.length
    · have hfd := List.getElem?_eq_getElem hlt
      rw [hspec m _ hfd, Except.ok.injEq, Prod.mk.injEq] at h
      exact ⟨{ m with fdOffset := m.fdOffset + 1 }, by simp [readFd, hlt, h.1]⟩
    · simp [Cursor.readFd, cursor, List.drop_eq_nil_of_le (Nat.le_of_not_lt hlt)] at h

end WireReader
end Sommelier
