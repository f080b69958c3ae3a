import Sommelier.Wire

/-!
# Buffered connections

The bytes and descriptors received on one transport and not yet dispatched, and the
readiness test of the event loop. The test reads the two bytes at offset four as the
message length; on a little-endian machine these hold the opcode.

## Main definitions

* `WaylandConnection`, `Received`: the read buffers and the results of a receive.
* `WaylandConnection.hasCompleteMessage`: the readiness test.
* `HeaderAgrees`: the opcode, read as a length, is as complete as the length.
-/
namespace Sommelier

/-- The ordered read buffers of one transport. -/
structure WaylandConnection where
  readBuf : List UInt8
  readFds : List RawFd
  ambiguousUntrackedFd : Bool
  deriving DecidableEq, Repr

/-- What one receive attempt returns. An empty byte list is the end of the stream. -/
inductive Received
  | wouldBlock
  | failed
  | data (bytes : List UInt8) (fds : List RawFd)
  deriving DecidableEq, Repr

namespace WaylandConnection

def new : WaylandConnection := { readBuf := [], readFds := [], ambiguousUntrackedFd := false }

/-- Received bytes and descriptors join the ends of the ordered buffers. -/
def extend (c : WaylandConnection) (bytes : List UInt8) (fds : List RawFd) :
    WaylandConnection :=
  { c with readBuf := c.readBuf ++ bytes, readFds := c.readFds ++ fds }

/-- Whether the event loop takes the buffer for ready to be dispatched. -/
def hasCompleteMessage (o : ByteOrder) (c : WaylandConnection) : Bool :=
  if c.readBuf.length < 8 then false
  else
    let length := o.fromNeBytes ((c.readBuf.drop 4).take 2)
    decide (length < 8) || !(length % 4 == 0) || decide (length ≤ c.readBuf.length)

end WaylandConnection

/-- The opcode, read as a message length, leaves the buffer as complete or as partial
as the true length does; on a big-endian machine the right bytes are read. -/
def HeaderAgrees (o : ByteOrder) (buf : List UInt8) : Prop :=
  o = .big ∨ buf.length < 8 ∨
    (Awaits buf (parseHeader o buf).opcode ↔ Awaits buf (parseHeader o buf).len)

instance (o : ByteOrder) (buf : List UInt8) : Decidable (HeaderAgrees o buf) :=
  inferInstanceAs (Decidable (_ ∨ _ ∨ (_ ↔ _)))

namespace WaylandConnection

theorem hasCompleteMessage_iff (o : ByteOrder) (c : WaylandConnection) :
    c.hasCompleteMessage o = true ↔ 8 ≤ c.readBuf.length ∧
      ¬ Awaits c.readBuf (o.fromNeBytes ((c.readBuf.drop 4).take 2)) := by
  by_cases h8 : c.readBuf.length < 8
  · simp [hasCompleteMessage, h8, Nat.not_le.mpr h8]
  · simp only [hasCompleteMessage, h8, if_false, Nat.le_of_not_lt h8, true_and, Awaits,
      Bool.or_eq_true, decide_eq_true_eq, Bool.not_eq_true', beq_eq_false_iff_ne]
    omega

/-- The two bytes the test reads are the length on a big-endian machine only. -/
theorem readinessBytes_big {buf : List UInt8} (h : 8 ≤ buf.length) :
    ByteOrder.big.fromNeBytes ((buf.drop 4).take 2) = (parseHeader .big buf).len := by
  obtain ⟨s₀, s₁, s₂, s₃, a, b, c, d, rest, rfl⟩ := exists_header_bytes h
  exact (ByteOrder.fromNeBytes_big_upper a b c d).symm

theorem readinessBytes_little {buf : List UInt8} (h : 8 ≤ buf.length) :
    ByteOrder.little.fromNeBytes ((buf.drop 4).take 2) = (parseHeader .little buf).opcode := by
  obtain ⟨s₀, s₁, s₂, s₃, a, b, c, d, rest, rfl⟩ := exists_header_bytes h
  exact (ByteOrder.fromNeBytes_little_lower a b c d).symm

/-- The readiness test agrees with the framing of the buffer exactly when the opcode
and the length agree. -/
theorem hasCompleteMessage_eq_frame_iff (o : ByteOrder) (c : WaylandConnection) :
    (c.hasCompleteMessage o = true ↔ frame o c.readBuf ≠ .incomplete) ↔
      HeaderAgrees o c.readBuf := by
  rw [hasCompleteMessage_iff, ne_eq, frame_eq_incomplete_iff, HeaderAgrees]
  by_cases h8 : c.readBuf.length < 8
  · simp [h8, Nat.not_le.mpr h8]
  · have hle := Nat.le_of_not_lt h8
    cases o with
    | big => simp [h8, hle, readinessBytes_big hle]
    | little =>
      rw [readinessBytes_little hle]
      simp only [hle, h8, true_and, false_or, reduceCtorEq]
      tauto

end WaylandConnection
end Sommelier
