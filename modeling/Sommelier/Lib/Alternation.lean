import Mathlib.Data.List.Basic

/-!
# Alternating streams

Something enters and leaves by turns. A stream of such events is kept newest first, and starts
over at a reset, when the one who was told about the events is gone.

## Main definitions

* `Edge`: the events.
* `occupant`: what has entered and not left.
* `Alternates`: nothing enters while something is in, and only what is in leaves.
-/

/-- Events about one place. -/
inductive Edge (α : Type*)
  | enter (a : α)
  | leave (a : α)
  | reset
  deriving DecidableEq

section
variable {α : Type*}

/-- What has entered and not left, the newest event first. -/
def occupant : List (Edge α) → Option α
  | .enter a :: _ => some a
  | _ => none

/-- Enters and leaves by turns, starting with an enter; what leaves is what entered. -/
def Alternates : List (Edge α) → Prop
  | [] => True
  | .enter _ :: es => occupant es = none ∧ Alternates es
  | .leave a :: es => occupant es = some a ∧ Alternates es
  | .reset :: es => Alternates es

@[simp] theorem occupant_nil : occupant ([] : List (Edge α)) = none := rfl

@[simp] theorem occupant_enter (a : α) (es : List (Edge α)) :
    occupant (.enter a :: es) = some a := rfl

@[simp] theorem occupant_leave (a : α) (es : List (Edge α)) :
    occupant (.leave a :: es) = none := rfl

@[simp] theorem occupant_reset (es : List (Edge α)) : occupant (.reset :: es) = none := rfl

@[simp] theorem alternates_nil : Alternates ([] : List (Edge α)) := trivial

@[simp] theorem alternates_enter (a : α) (es : List (Edge α)) :
    Alternates (.enter a :: es) ↔ occupant es = none ∧ Alternates es := Iff.rfl

@[simp] theorem alternates_leave (a : α) (es : List (Edge α)) :
    Alternates (.leave a :: es) ↔ occupant es = some a ∧ Alternates es := Iff.rfl

@[simp] theorem alternates_reset (es : List (Edge α)) :
    Alternates (.reset :: es) ↔ Alternates es := Iff.rfl

end
