import Mathlib.Tactic.TypeStar

/-!
# Double-buffered state

A value that changes at commits only. One side keeps the change that waits for the next commit,
the other keeps the value before the commit and the value after it.

## Main definitions

* `Patched`, `Mirrored`: the two representations.
* `Patched.mirror`: the values a pending change stands for.
-/

/-- The current value and the change that waits for the next commit. -/
structure Patched (α : Type*) where
  current : α
  pending : Option α

/-- The current value and the value after the next commit. -/
structure Mirrored (α : Type*) where
  current : α
  next : α

namespace Mirrored
variable {α β : Type*}

def new (a : α) : Mirrored α := ⟨a, a⟩

def set (m : Mirrored α) (a : α) : Mirrored α := { m with next := a }

def commit (m : Mirrored α) : Mirrored α := ⟨m.next, m.next⟩

def map (f : α → β) (m : Mirrored α) : Mirrored β := ⟨f m.current, f m.next⟩

end Mirrored

namespace Patched
variable {α β : Type*}

def set (p : Patched α) (a : α) : Patched α := { p with pending := some a }

def commit (p : Patched α) : Patched α := ⟨p.pending.getD p.current, none⟩

def map (f : α → β) (p : Patched α) : Patched β := ⟨f p.current, p.pending.map f⟩

def mirror (p : Patched α) : Mirrored α := ⟨p.current, p.pending.getD p.current⟩

@[simp] theorem mirror_set (p : Patched α) (a : α) : (p.set a).mirror = p.mirror.set a := rfl

/-- The value after a commit is the current one and stays. -/
@[simp] theorem mirror_commit (p : Patched α) : p.commit.mirror = p.mirror.commit := rfl

@[simp] theorem mirror_map (f : α → β) (p : Patched α) : (p.map f).mirror = p.mirror.map f := by
  cases p with
  | mk current pending => cases pending <;> rfl

end Patched
