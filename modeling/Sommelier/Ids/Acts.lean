import Sommelier.Ids.Moves
import Sommelier.Ids.System

/-!
# Acts of the handlers

What the handlers do to the holders of IDs and to the ID state, as single acts. The host objects
of the proxy itself stand in slots: a handler binds one into a slot or drops one out of it.

## Main definitions

* `IdContext.Slot`, `IdContext.slot`: the places for host objects of the proxy.
* `IdContext.Promises`: what is promised about a run.
* `IdContext.Becomes`: the ID state and the slots after an act.
* `IdContext.Act`, `IdContext.Acts`: one act, and what a handler does.
-/
namespace Sommelier.IdContext

/-! ## Slots -/

/-- A place where the handlers keep a host object of the proxy itself. -/
inductive Slot
  | global (g : InternalGlobal)
  | extendedKeyboard (keyboard : ℕ)
  | zauraSurface (surface : ℕ)
  | dmabufCallback (callback : ℕ)
  | gtkShellCallback (callback : ℕ)
  | activationBarrier (callback : ℕ)
  | textInputExtension (textInput : ℕ)
  deriving DecidableEq

/-- The interface of the objects of a slot. -/
def Slot.interface : Slot → Interface
  | global g => g.interface
  | extendedKeyboard _ => .zcrExtendedKeyboardV1
  | zauraSurface _ => .zauraSurface
  | dmabufCallback _ | gtkShellCallback _ | activationBarrier _ => .wlCallback
  | textInputExtension _ => .zcrExtendedTextInputV1

/-- The host object in a slot. -/
def slot (c : IdContext) : Slot → Option ℕ
  | .global g => c.hostIds.get g
  | .extendedKeyboard keyboard => c.keyboardToExtendedKeyboard.get keyboard
  | .zauraSurface surface => c.wlSurfaceToZauraSurface.get surface
  | .dmabufCallback callback => (c.dmabufCapabilityCallbacks.get callback).map fun _ => callback
  | .gtkShellCallback callback =>
    (c.gtkShellCapabilityCallbacks.get callback).map fun _ => callback
  | .activationBarrier callback =>
    (c.textInputActivationBarriers.get callback).map fun _ => callback
  | .textInputExtension textInput => (c.textInputs.get textInput).bind (·.hostExtId)

/-! ## Acts -/

/-- What is promised about a run: its host follows the rules for object IDs, and no two host IDs
are searched for where only one is free. -/
structure Promises where
  lawful : Prop
  roomy : Prop

/-- The ID state and the slots of the next state, in the same batch. -/
structure Becomes (c c' : IdContext) (ids : IdState) (slots : Slot → Option ℕ) : Prop where
  ids : c'.toIdState = ids
  slots : c'.slot = slots
  batch : c'.batch = c.batch

/-- One act. A lawful host acknowledges only what the proxy created and announces nothing of it;
where there is room, the two host objects of a text input get two IDs. -/
inductive Act (p : Promises) (c : IdContext) : IdContext → Prop
  | note {c' : IdContext} (h : c.Becomes c' c.toIdState c.slot) : Act p c c'
  | move {c' : IdContext} {s : IdState} (hmove : c.toIdState.Move p.lawful s)
      (h : c.Becomes c' s c.slot) : Act p c c'
  | bind {c' : IdContext} {k : Slot} {x n version : ℕ} (hf : c.toIdState.Fresh x n)
      (h : c.Becomes c' (c.toIdState.bound x n k.interface version)
        (Function.update c.slot k (some x))) : Act p c c'
  | drop {c' : IdContext} {k : Slot} {x : ℕ} {s : IdState} (hx : c.slot k = some x)
      (hs : s = c.toIdState.destroyInternal x ∨ s = c.toIdState.retireInternal x)
      (h : c.Becomes c' s (Function.update c.slot k none)) : Act p c c'
  | createTextInput {c' : IdContext} {g h n : ℕ} {guestVersions hostVersions : Table ℕ ℕ}
      (hg : c.toIdState.Open g) (hf : c.toIdState.Fresh h n)
      (hc : c.Becomes c' (((c.toIdState.take h n).queueNewId h).pairTextInput g h none
        guestVersions hostVersions) (Function.update c.slot (.textInputExtension g) none)) :
      Act p c c'
  | createExtendedTextInput {c' : IdContext} {g h n h' n' : ℕ}
      {guestVersions hostVersions : Table ℕ ℕ} (hg : c.toIdState.Open g)
      (hf : c.toIdState.Fresh h n) (hf' : ((c.toIdState.take h n).queueNewId h).Fresh h' n')
      (hroom : p.roomy → c.shadowTable.RoomForTwo)
      (hc : c.Becomes c' (((((c.toIdState.take h n).queueNewId h).take h' n').queueNewId
        h').pairTextInput g h (some h') guestVersions hostVersions)
        (Function.update c.slot (.textInputExtension g) (some h'))) : Act p c c'
  | deleteId {h : ℕ} (hh : p.lawful → Outstanding c.hostTraffic h) : Act p c (c.onDeleteId h)

/-- What a handler does. -/
def Acts (p : Promises) : IdContext → IdContext → Prop := Relation.ReflTransGen (Act p)

namespace Acts
variable {p : Promises} {c c' c'' : IdContext}

theorem refl : Acts p c c := Relation.ReflTransGen.refl

theorem single (h : Act p c c') : Acts p c c' := Relation.ReflTransGen.single h

theorem trans (h : Acts p c c') (h' : Acts p c' c'') : Acts p c c'' :=
  Relation.ReflTransGen.trans h h'

/-- What holds of a state and survives every act holds after all acts of a handler. -/
theorem invariant {I : IdContext → Prop} (hstep : ∀ c c', I c → Act p c c' → I c')
    (hs : Acts p c c') (hi : I c) : I c' := by
  induction hs with
  | refl => exact hi
  | tail _ hact ih => exact hstep _ _ ih hact

end Acts
end Sommelier.IdContext
