import Mathlib.Data.List.Dedup
import Sommelier.Input.KeyAccounts
import Sommelier.Lib.Transition

/-!
# The ledger of the keys

Physical events, peeked events and keysyms report the same keys in any order. The ledger keeps
what the guest was told of each, over all operations of the registry.

## Main definitions

* `KeyLedger`, `keyLedger`: the registry with what the guest was told, over all its operations.

## Main results

* `keys_conserved`: the guest has as many open presses as the registry owes releases.
-/
namespace Sommelier

/-! ## The ledger -/

/-- The registry with the presses (`true`) and releases the guest was told of each key, since its
keyboard was cleared last. -/
structure KeyLedger where
  registry : KeyGenerationRegistry
  told : List (ℕ × ℕ × Bool)

/-- The operations of the handlers. Every release of the physical channels carries its serial. -/
inductive KeyOp
  | decide (keyboard key : ℕ) (event : GuestKeyEvent)
  | pendingRelease (keyboard key serial : ℕ)
  | physicalEvent (keyboard key state serial : ℕ)
  | peekPress (keyboard key serial time : ℕ) (eligible : Bool)
  | refreshPeek (keyboard key serial time : ℕ)
  | invalidatePeek (keyboard key : ℕ)
  | cancelBackspaceRepeat (keyboard backspace : ℕ)
  | cancelBackspaceRepeatForOwner (keyboard backspace guestTextInput : ℕ)
  | armImeRepeat (keyboard key guestTextInput : ℕ)
  | clearSuppressions (keyboard : ℕ)
  | noteAccelerator (keyboard key : ℕ)
  | recordLatestPeek (guestSeat : ℕ) (focusedSurface : Option ℕ) (keyboard sequence : ℕ)
  | clearWatermarksForSeat (guestSeat : ℕ)
  | clearWatermarksForSurface (guestSurface : ℕ)
  | clearKeyboard (keyboard : ℕ)
  | enterSnapshot (keyboard : ℕ) (keys : List ℕ)

namespace KeyLedger
variable {l l' : KeyLedger}

/-- How often the guest was told of a press, or of a release. -/
def count (l : KeyLedger) (keyboard key : ℕ) (pressed : Bool) : ℕ :=
  l.told.count (keyboard, key, pressed)

def tell (l : KeyLedger) (keyboard key : ℕ) (told : List Bool)
    (registry : KeyGenerationRegistry) : KeyLedger :=
  { registry, told := l.told ++ told.map (keyboard, key, ·) }

/-- The guest learns nothing of the operation. -/
def quietly (l : KeyLedger) (registry : KeyGenerationRegistry) : KeyLedger := { l with registry }

/-- The account of a keyboard starts with the presses of the keys that are down. -/
def restart (l : KeyLedger) (keyboard : ℕ) (keys : List ℕ) (registry : KeyGenerationRegistry) :
    KeyLedger :=
  { registry
    told := l.told.filter (·.1 != keyboard) ++ keys.dedup.map (keyboard, ·, true) }

def apply (l : KeyLedger) : KeyOp → KeyLedger
  | .decide keyboard key event =>
    let (decision, registry) := l.registry.transitionGuestKey keyboard key event
    l.tell keyboard key (KeyGenerationRegistry.toldOf event decision.delivery) registry
  | .pendingRelease keyboard key serial =>
    let (pending, registry) := l.registry.takePendingPhysicalRelease keyboard key serial
    l.tell keyboard key (if pending then [false] else []) registry
  | .physicalEvent keyboard key state serial =>
    l.quietly (l.registry.observePhysicalEvent keyboard key state (some serial))
  | .peekPress keyboard key serial time eligible =>
    l.quietly (l.registry.observePeekPress keyboard key serial time eligible).2
  | .refreshPeek keyboard key serial time =>
    l.quietly (l.registry.refreshPeek keyboard key serial time)
  | .invalidatePeek keyboard key => l.quietly (l.registry.invalidatePeek keyboard key)
  | .cancelBackspaceRepeat keyboard backspace =>
    l.quietly (l.registry.cancelBackspaceRepeat keyboard backspace)
  | .cancelBackspaceRepeatForOwner keyboard backspace guestTextInput =>
    l.quietly (l.registry.cancelBackspaceRepeatForOwner keyboard backspace guestTextInput)
  | .armImeRepeat keyboard key guestTextInput =>
    l.quietly (l.registry.armImeRepeat keyboard key guestTextInput)
  | .clearSuppressions keyboard => l.quietly (l.registry.clearAcceleratorSuppressions keyboard)
  | .noteAccelerator keyboard key => l.quietly (l.registry.noteAccelerator keyboard key)
  | .recordLatestPeek guestSeat focusedSurface keyboard sequence =>
    l.quietly (l.registry.recordLatestPeek guestSeat focusedSurface keyboard sequence)
  | .clearWatermarksForSeat guestSeat =>
    l.quietly (l.registry.clearPeekWatermarksForSeat guestSeat)
  | .clearWatermarksForSurface guestSurface =>
    l.quietly (l.registry.clearPeekWatermarksForSurface guestSurface)
  | .clearKeyboard keyboard => l.restart keyboard [] (l.registry.clearKeyboard keyboard)
  | .enterSnapshot keyboard keys =>
    l.restart keyboard keys (l.registry.installEnterSnapshot keyboard keys)

/-- The books balance: what the guest was told and not told yet is what is owed. -/
structure Balanced (l : KeyLedger) : Prop where
  accountable : l.registry.Accountable
  balance : ∀ keyboard key, l.count keyboard key true =
    l.count keyboard key false + l.registry.outstanding keyboard key

theorem count_tell {told : List Bool} {registry : KeyGenerationRegistry} {keyboard key : ℕ}
    (keyboard' key' : ℕ) (pressed : Bool) :
    (l.tell keyboard key told registry).count keyboard' key' pressed =
      l.count keyboard' key' pressed +
        if keyboard' = keyboard ∧ key' = key then told.count pressed else 0 := by
  have hmap : (told.map (keyboard, key, ·)).count (keyboard', key', pressed) =
      if keyboard' = keyboard ∧ key' = key then told.count pressed else 0 := by
    split_ifs with heq
    · obtain ⟨rfl, rfl⟩ := heq
      exact List.count_map_of_injective told (fun pressed => (keyboard', key', pressed))
        (fun _ _ h => by simpa using h) pressed
    · rw [List.count_eq_zero]
      simp only [List.mem_map, Prod.mk.injEq, not_exists, not_and]
      intro _ _ hkeyboard hkey
      exact absurd ⟨hkeyboard.symm, hkey.symm⟩ heq
  rw [count, tell, List.count_append, hmap, count]

theorem count_restart {registry : KeyGenerationRegistry} {keyboard : ℕ} {keys : List ℕ}
    (keyboard' key' : ℕ) (pressed : Bool) :
    (l.restart keyboard keys registry).count keyboard' key' pressed =
      if keyboard' = keyboard then (pressed && decide (key' ∈ keys)).toNat
      else l.count keyboard' key' pressed := by
  have hkept : (l.told.filter (·.1 != keyboard)).count (keyboard', key', pressed) =
      if keyboard' = keyboard then 0 else l.count keyboard' key' pressed := by
    split_ifs with heq
    · rw [List.count_eq_zero]
      simp [heq]
    · exact List.count_filter (by simpa using heq)
  have hdown : (keys.dedup.map (keyboard, ·, true)).count (keyboard', key', pressed) =
      if keyboard' = keyboard then (pressed && decide (key' ∈ keys)).toNat else 0 := by
    cases pressed with
    | false =>
      rw [List.count_eq_zero.mpr (by simp)]
      simp
    | true =>
      split_ifs with heq
      · subst heq
        rw [List.count_map_of_injective keys.dedup (fun key => (keyboard', key, true))
          (fun _ _ h => by simpa using h) key', List.count_dedup]
        by_cases hkey : key' ∈ keys <;> simp [hkey]
      · rw [List.count_eq_zero]
        simp only [List.mem_map, Prod.mk.injEq, not_exists, not_and]
        intro _ _ hkeyboard
        exact absurd hkeyboard.symm heq
  rw [count, restart, List.count_append, hkept, hdown]
  split_ifs <;> simp

/-- An operation that tells the guest of one key and owes it the difference. -/
theorem Balanced.tell {told : List Bool} {registry : KeyGenerationRegistry} {keyboard key : ℕ}
    (hl : l.Balanced) (h : KeyGenerationRegistry.Tells told keyboard key l.registry registry) :
    (l.tell keyboard key told registry).Balanced := by
  refine ⟨h.accountable hl.accountable, fun keyboard' key' => ?_⟩
  have hbalance := hl.balance keyboard' key'
  rw [count_tell, count_tell]
  change _ = _ + registry.outstanding keyboard' key'
  split_ifs with heq
  · obtain ⟨rfl, rfl⟩ := heq
    have htells := h.outstanding hl.accountable
    omega
  · have hothers := h.others hl.accountable keyboard' key' heq
    omega

theorem Balanced.quietly {registry : KeyGenerationRegistry} (hl : l.Balanced)
    (h : KeyGenerationRegistry.Keeps l.registry registry) : (l.quietly registry).Balanced := by
  refine ⟨h.accountable hl.accountable, fun keyboard key => ?_⟩
  exact (hl.balance keyboard key).trans
    (congrArg _ (h.outstanding hl.accountable keyboard key).symm)

theorem Balanced.restart {registry : KeyGenerationRegistry} {keyboard : ℕ} {keys : List ℕ}
    (hl : l.Balanced) (haccountable : registry.Accountable)
    (houtstanding : ∀ keyboard' key', registry.outstanding keyboard' key' =
      if keyboard' = keyboard then (decide (key' ∈ keys)).toNat
      else l.registry.outstanding keyboard' key') :
    (l.restart keyboard keys registry).Balanced := by
  refine ⟨haccountable, fun keyboard' key' => ?_⟩
  have hbalance := hl.balance keyboard' key'
  rw [count_restart, count_restart]
  change _ = _ + registry.outstanding keyboard' key'
  rw [houtstanding]
  split_ifs
  · simp
  · exact hbalance

theorem Balanced.apply (hl : l.Balanced) (op : KeyOp) : (l.apply op).Balanced := by
  cases op with
  | decide keyboard key event =>
    exact hl.tell (KeyGenerationRegistry.tells_transitionGuestKey hl.accountable ..)
  | pendingRelease keyboard key serial =>
    exact hl.tell (KeyGenerationRegistry.tells_takePendingPhysicalRelease ..)
  | physicalEvent keyboard key state serial =>
    exact hl.quietly (KeyGenerationRegistry.keeps_observePhysicalEvent ..)
  | peekPress keyboard key serial time eligible =>
    exact hl.quietly (KeyGenerationRegistry.keeps_observePeekPress ..)
  | refreshPeek keyboard key serial time =>
    exact hl.quietly (KeyGenerationRegistry.keeps_refreshPeek ..)
  | invalidatePeek keyboard key =>
    exact hl.quietly (KeyGenerationRegistry.keeps_invalidatePeek ..)
  | cancelBackspaceRepeat keyboard backspace =>
    exact hl.quietly (KeyGenerationRegistry.keeps_cancelBackspaceRepeat ..)
  | cancelBackspaceRepeatForOwner keyboard backspace guestTextInput =>
    exact hl.quietly (KeyGenerationRegistry.keeps_cancelBackspaceRepeatForOwner ..)
  | armImeRepeat keyboard key guestTextInput =>
    exact hl.quietly (KeyGenerationRegistry.keeps_armImeRepeat ..)
  | clearSuppressions keyboard =>
    exact hl.quietly (KeyGenerationRegistry.keeps_clearAcceleratorSuppressions ..)
  | noteAccelerator keyboard key =>
    exact hl.quietly (KeyGenerationRegistry.keeps_noteAccelerator ..)
  | recordLatestPeek guestSeat focusedSurface keyboard sequence =>
    exact hl.quietly (.of_entries rfl rfl)
  | clearWatermarksForSeat guestSeat => exact hl.quietly (.of_entries rfl rfl)
  | clearWatermarksForSurface guestSurface => exact hl.quietly (.of_entries rfl rfl)
  | clearKeyboard keyboard =>
    refine hl.restart (KeyGenerationRegistry.accountable_clearKeyboard hl.accountable)
      fun keyboard' key' => ?_
    rw [KeyGenerationRegistry.outstanding_clearKeyboard]
    simp
  | enterSnapshot keyboard keys =>
    exact hl.restart (KeyGenerationRegistry.accountable_installEnterSnapshot hl.accountable keys)
      (KeyGenerationRegistry.outstanding_installEnterSnapshot keys)

end KeyLedger

/-- Runs of the operations in any order, on any keys, from the registry of a new session. -/
def keyLedger : TransitionSystem KeyLedger KeyOp where
  init l := l = { registry := .new, told := [] }
  step l op := some (l.apply op)

namespace KeyLedger
variable {l : KeyLedger}

theorem balanced_of_reachable (hl : keyLedger.Reachable l) : l.Balanced := by
  refine hl.invariant (fun l hinit => ?_) fun l op l' _ hl _ hstep => ?_
  · obtain rfl : l = _ := hinit
    exact ⟨fun keyboard key g hg => by simp at hg, fun _ _ => rfl⟩
  · cases hstep
    exact hl.apply op

end KeyLedger

/-- Keys are conserved whatever the order of the channels: the guest was told of as many more
presses than releases of a key as releases are still to come for it, namely one if the owner of
its generation has a press and one for each generation that was replaced in time. A suppressed
generation has no press of the guest, which is not told of its release either. -/
theorem keys_conserved {l : KeyLedger} (hl : keyLedger.Reachable l) (keyboard key : ℕ) :
    l.count keyboard key true = l.count keyboard key false +
      ((l.registry.forwarded keyboard key).toNat + (l.registry.owed keyboard key).length) ∧
    (l.registry.hostAcceleratorSuppressed keyboard key = true →
      l.registry.forwarded keyboard key = false ∧
      (l.registry.transitionGuestKey keyboard key .physicalRelease).1.delivery = .drop) := by
  have hbalanced := KeyLedger.balanced_of_reachable hl
  refine ⟨hbalanced.balance keyboard key, fun hsuppressed => ⟨?_, ?_⟩⟩
  · obtain ⟨g, hg, hsuppressed⟩ := (Option.any_eq_true ..).mp hsuppressed
    have hforwarded := (hbalanced.accountable keyboard key g hg).suppressed hsuppressed
    simp [KeyGenerationRegistry.forwarded, hg, hforwarded]
  · simp [KeyGenerationRegistry.transitionGuestKey, KeyGenerationRegistry.physicalRelease,
      KeyGenerationRegistry.takeHostAcceleratorSuppression, hsuppressed]

/-- A key pressed again before the guest was told of its first release, whose release is still to
come, and a key of an accelerator of the host. -/
theorem keys_conserved_retired :
    ∃ l, keyLedger.run { registry := .new, told := [] }
        [.physicalEvent 50 30 1 100, .decide 50 30 (.physicalPress false false false),
          .physicalEvent 50 30 0 101, .peekPress 50 30 102 7 true,
          .decide 50 30 (.physicalPress false false false),
          .physicalEvent 50 31 1 103, .decide 50 31 (.physicalPress false true false)] = some l ∧
      l.count 50 30 true = 2 ∧
      l.count 50 30 true = l.count 50 30 false +
        ((l.registry.forwarded 50 30).toNat + (l.registry.owed 50 30).length) ∧
      l.registry.hostAcceleratorSuppressed 50 31 = true ∧
      l.registry.forwarded 50 31 = false ∧
      (l.registry.transitionGuestKey 50 31 .physicalRelease).1.delivery = .drop := by
  have hrun : (keyLedger.run { registry := .new, told := [] }
      [.physicalEvent 50 30 1 100, .decide 50 30 (.physicalPress false false false),
        .physicalEvent 50 30 0 101, .peekPress 50 30 102 7 true,
        .decide 50 30 (.physicalPress false false false), .physicalEvent 50 31 1 103,
        .decide 50 31 (.physicalPress false true false)]).map
          (fun l => (l.count 50 30 true, l.registry.hostAcceleratorSuppressed 50 31)) =
      some (2, true) := by decide +kernel
  obtain ⟨l, hl, heq⟩ := Option.map_eq_some_iff.mp hrun
  obtain ⟨hcount, hsuppressed⟩ := Prod.mk.inj heq
  have hreachable : keyLedger.Reachable l := .run (.init rfl) hl
  have hreleased := (keys_conserved hreachable 50 31).2 hsuppressed
  exact ⟨l, hl, hcount, (keys_conserved hreachable 50 30).1, hsuppressed, hreleased⟩

end Sommelier
