import Mathlib.Algebra.Group.Nat.Defs
import Mathlib.Tactic.Common
import Sommelier.Lib.Table

/-!
# Key generations

A key generation is the life of one key of one keyboard from a press to the next one. The host
reports it over three channels that may overtake each other: the keyboard, the peeked keys of
the keyboard extension, and the keysyms of a text input. The guest is to get one press and one
release for it, so a generation has at most one owner, and it stays after its release as long
as one of the channels may still report it.

## Main definitions

* `KeyGeneration`: the state of a generation.
* `KeyGenerationRegistry`: the generations by keyboard and key, the releases that are still to
  come for replaced ones, and the newest peeked generations.
* `KeyGenerationRegistry.transitionGuestKey`: the decision who delivers a key to the guest.
-/
namespace Sommelier

/-- Serials wrap around: the candidate is ahead by less than half of their range. -/
def serialIsAfter (candidate previous : ℕ) : Bool :=
  let distance := (candidate + (2 ^ 32 - previous % 2 ^ 32)) % 2 ^ 32
  distance != 0 && decide (distance < 2 ^ 31)

/-! ## Data -/

/-- What the peeked press of a generation said. -/
structure PeekKeyProvenance where
  serial : ℕ
  time : ℕ
  sequence : ℕ
  eligible : Bool
  deriving DecidableEq, Repr

/-- The newest peeked generation of a seat and focus. -/
structure PeekWatermark where
  keyboard : ℕ
  sequence : ℕ
  deriving DecidableEq, Repr

inductive GuestKeyOwner
  /-- a press of the keyboard awaits its release -/
  | physical
  /-- a press of a text input awaits its release -/
  | textInputKeysym
  /-- the guest got a press and its release; what else comes is suppressed -/
  | imeRecovery
  deriving DecidableEq, Repr

inductive GuestKeyEvent
  | physicalPress (repeated hostAccelerator imeRepeatActive : Bool)
  | physicalRelease
  | textInputPress (serial : ℕ)
  | textInputRepeat
  | textInputRelease (serial : ℕ)
  | recoverIme
  deriving DecidableEq, Repr

inductive GuestKeyDelivery
  | drop
  | forward
  | emitBalancedPair
  deriving DecidableEq, Repr

structure GuestKeyDecision where
  delivery : GuestKeyDelivery
  ackHandled : Option Bool
  endsRepeat : Bool
  deriving DecidableEq, Repr

/-- A press the guest got of a generation that was replaced before its release came. -/
structure RetiredGuestRelease where
  owner : GuestKeyOwner
  pressSerial : Option ℕ
  releaseSerial : Option ℕ
  nextPressSerial : Option ℕ
  deriving DecidableEq, Repr

inductive PhysicalKeyState
  | unseen
  | held
  | released
  deriving DecidableEq, Repr

/-- The state of a generation. The last field is history only, which no operation reads: the
key was found to be a host accelerator in this generation. -/
structure KeyGeneration where
  id : ℕ
  physicalState : PhysicalKeyState
  peek : Option PeekKeyProvenance
  peekPressSerial : Option ℕ
  physicalReleaseSerial : Option ℕ
  backspaceRepeatCancelled : Bool
  imeRepeatOwner : Option ℕ
  guestOwner : Option GuestKeyOwner
  guestPressSerial : Option ℕ
  hostAcceleratorSuppressed : Bool
  accelerator : Bool
  deriving DecidableEq, Repr

namespace KeyGeneration

def new (id : ℕ) : KeyGeneration where
  id
  physicalState := .unseen
  peek := none
  peekPressSerial := none
  physicalReleaseSerial := none
  backspaceRepeatCancelled := false
  imeRepeatOwner := none
  guestOwner := none
  guestPressSerial := none
  hostAcceleratorSuppressed := false
  accelerator := false

def isUnreferenced (g : KeyGeneration) : Bool :=
  g.physicalState != .held && g.peek.isNone && !g.backspaceRepeatCancelled &&
    g.imeRepeatOwner.isNone && g.guestOwner.isNone && !g.hostAcceleratorSuppressed

/-- The guest has a press of this generation and no release. -/
def forwarded (g : KeyGeneration) : Bool :=
  g.guestOwner == some .physical || g.guestOwner == some .textInputKeysym

/-- A release was seen on one of the physical channels. -/
def observeRelease (serial : Option ℕ) (g : KeyGeneration) : KeyGeneration :=
  { g with
    physicalState := .released
    physicalReleaseSerial := serial.or g.physicalReleaseSerial
    backspaceRepeatCancelled := false
    imeRepeatOwner := none }

/-- The release that is still to come for a generation that is replaced. -/
def retiredRelease (g : KeyGeneration) (nextPressSerial : Option ℕ) :
    Option RetiredGuestRelease :=
  match g.guestOwner with
  | some .physical =>
    g.physicalReleaseSerial.map fun releaseSerial =>
      { owner := .physical, pressSerial := g.guestPressSerial,
        releaseSerial := some releaseSerial, nextPressSerial }
  | some .textInputKeysym =>
    g.guestPressSerial.map fun pressSerial =>
      { owner := .textInputKeysym, pressSerial := some pressSerial, releaseSerial := none,
        nextPressSerial }
  | _ => none

/-- A keysym press with this serial belongs to the next generation. -/
def endsBefore (g : KeyGeneration) (serial : ℕ) : Bool :=
  let released := g.physicalState == .released
  let ownerCanStartNext := match g.guestOwner with
    | some .textInputKeysym => released
    | some .imeRecovery => g.physicalState == .unseen || released
    | _ => false
  ownerCanStartNext && g.guestPressSerial.all (serialIsAfter serial) &&
    (!released || g.physicalReleaseSerial.any (serialIsAfter serial))

end KeyGeneration

/-- The generations by keyboard and key, the releases to come for replaced ones, and the newest
peeked generations by seat and focus. -/
structure KeyGenerationRegistry where
  nextGeneration : ℕ
  entries : Table (ℕ × ℕ) KeyGeneration
  retiredGuestReleases : Table (ℕ × ℕ) (List RetiredGuestRelease)
  latestPeekSequences : Table (ℕ × Option ℕ) PeekWatermark

namespace KeyGenerationRegistry

def new : KeyGenerationRegistry :=
  { nextGeneration := 0, entries := ∅, retiredGuestReleases := ∅, latestPeekSequences := ∅ }

def generation (r : KeyGenerationRegistry) (keyboard key : ℕ) : Option KeyGeneration :=
  r.entries.get (keyboard, key)

/-- Update a generation, if the key has one. -/
def update (r : KeyGenerationRegistry) (keyboard key : ℕ) (f : KeyGeneration → KeyGeneration) :
    KeyGenerationRegistry :=
  { r with entries := r.entries.modify (keyboard, key) f }

def remove (r : KeyGenerationRegistry) (keyboard key : ℕ) : KeyGenerationRegistry :=
  { r with entries := r.entries.erase (keyboard, key) }

def ensureGeneration (r : KeyGenerationRegistry) (keyboard key : ℕ) : KeyGenerationRegistry :=
  match r.generation keyboard key with
  | some _ => r
  | none =>
    let id := max ((r.nextGeneration + 1) % 2 ^ 64) 1
    { r with nextGeneration := id, entries := r.entries.set (keyboard, key) (.new id) }

def pruneKey (r : KeyGenerationRegistry) (keyboard key : ℕ) : KeyGenerationRegistry :=
  if (r.generation keyboard key).any KeyGeneration.isUnreferenced then r.remove keyboard key else r

/-- `pruneKey` for every key of a keyboard. -/
def pruneKeyboard (r : KeyGenerationRegistry) (keyboard : ℕ) : KeyGenerationRegistry :=
  { r with entries := r.entries.retain fun k g => !(k.1 == keyboard && g.isUnreferenced) }

/-- Update every generation of a keyboard. -/
def updateKeyboard (r : KeyGenerationRegistry) (keyboard : ℕ)
    (f : KeyGeneration → KeyGeneration) : KeyGenerationRegistry :=
  { r with entries := r.entries.modifyWhere (fun k => k.1 == keyboard) f }

def clearKeyboard (r : KeyGenerationRegistry) (keyboard : ℕ) : KeyGenerationRegistry :=
  { r with
    entries := r.entries.retain fun k _ => k.1 != keyboard
    retiredGuestReleases := r.retiredGuestReleases.retain fun k _ => k.1 != keyboard
    latestPeekSequences := r.latestPeekSequences.retain fun _ watermark =>
      watermark.keyboard != keyboard }

/-! ## Watermarks -/

def recordLatestPeek (r : KeyGenerationRegistry) (guestSeat : ℕ) (focusedSurface : Option ℕ)
    (keyboard sequence : ℕ) : KeyGenerationRegistry :=
  { r with
    latestPeekSequences :=
      r.latestPeekSequences.set (guestSeat, focusedSurface) { keyboard, sequence } }

def latestPeekSequence (r : KeyGenerationRegistry) (guestSeat : ℕ)
    (focusedSurface : Option ℕ) : Option ℕ :=
  (r.latestPeekSequences.get (guestSeat, focusedSurface)).map (·.sequence)

def clearPeekWatermarksForSeat (r : KeyGenerationRegistry) (guestSeat : ℕ) :
    KeyGenerationRegistry :=
  { r with latestPeekSequences := r.latestPeekSequences.retain fun k _ => k.1 != guestSeat }

def clearPeekWatermarksForSurface (r : KeyGenerationRegistry) (guestSurface : ℕ) :
    KeyGenerationRegistry :=
  { r with
    latestPeekSequences := r.latestPeekSequences.retain fun k _ => k.2 != some guestSurface }

/-! ## What is known about a key -/

def physicallyHeld (r : KeyGenerationRegistry) (keyboard key : ℕ) : Bool :=
  (r.generation keyboard key).any fun g => g.physicalState == .held

def physicalReleased (r : KeyGenerationRegistry) (keyboard key : ℕ) : Bool :=
  (r.generation keyboard key).any fun g => g.physicalState == .released

def peekPressSerial (r : KeyGenerationRegistry) (keyboard key : ℕ) : Option ℕ :=
  (r.generation keyboard key).bind (·.peekPressSerial)

def physicalReleaseSerial (r : KeyGenerationRegistry) (keyboard key : ℕ) : Option ℕ :=
  (r.generation keyboard key).bind (·.physicalReleaseSerial)

def peek (r : KeyGenerationRegistry) (keyboard key : ℕ) : Option PeekKeyProvenance :=
  (r.generation keyboard key).bind (·.peek)

def guestOwner (r : KeyGenerationRegistry) (keyboard key : ℕ) : Option GuestKeyOwner :=
  (r.generation keyboard key).bind (·.guestOwner)

def guestPressSerial (r : KeyGenerationRegistry) (keyboard key : ℕ) : Option ℕ :=
  (r.generation keyboard key).bind (·.guestPressSerial)

/-- The guest has a press of the current generation and no release. -/
def forwarded (r : KeyGenerationRegistry) (keyboard key : ℕ) : Bool :=
  (r.generation keyboard key).any KeyGeneration.forwarded

def hostAcceleratorSuppressed (r : KeyGenerationRegistry) (keyboard key : ℕ) : Bool :=
  (r.generation keyboard key).any (·.hostAcceleratorSuppressed)

def backspaceRepeatCancelled (r : KeyGenerationRegistry) (keyboard backspace : ℕ) : Bool :=
  (r.generation keyboard backspace).any (·.backspaceRepeatCancelled)

def imeRepeatOwner (r : KeyGenerationRegistry) (keyboard key : ℕ) : Option ℕ :=
  (r.generation keyboard key).bind (·.imeRepeatOwner)

def imeRepeatActive (r : KeyGenerationRegistry) (keyboard key : ℕ) : Bool :=
  (r.imeRepeatOwner keyboard key).isSome

def anyPhysicallyHeld (r : KeyGenerationRegistry) (keyboard : ℕ) : Bool :=
  r.entries.any fun k g => k.1 == keyboard && g.physicalState == .held

/-- The peeked keys of a keyboard. -/
def peekKeys (r : KeyGenerationRegistry) (keyboard : ℕ) : List (ℕ × PeekKeyProvenance) :=
  r.entries.entries.filterMap fun e =>
    if e.1.1 == keyboard then e.2.peek.map fun press => (e.1.2, press) else none

/-! ## Releases of replaced generations -/

/-- Take the first of the releases to come that passes the test. -/
def takeRetiredGuestRelease (r : KeyGenerationRegistry) (keyboard key : ℕ)
    (predicate : RetiredGuestRelease → Bool) : Bool × KeyGenerationRegistry :=
  match r.retiredGuestReleases.get (keyboard, key) with
  | none => (false, r)
  | some releases =>
    if releases.any predicate then
      let rest := releases.eraseP predicate
      (true, { r with
        retiredGuestReleases :=
          if rest.isEmpty then r.retiredGuestReleases.erase (keyboard, key)
          else r.retiredGuestReleases.set (keyboard, key) rest })
    else (false, r)

def takePendingPhysicalRelease (r : KeyGenerationRegistry) (keyboard key serial : ℕ) :
    Bool × KeyGenerationRegistry :=
  r.takeRetiredGuestRelease keyboard key fun release =>
    release.owner == .physical && release.releaseSerial == some serial

def takePendingTextInputRelease (r : KeyGenerationRegistry) (keyboard key serial : ℕ) :
    Bool × KeyGenerationRegistry :=
  let currentPressSerial :=
    (r.generation keyboard key).bind fun g => g.guestPressSerial.or g.peekPressSerial
  r.takeRetiredGuestRelease keyboard key fun release =>
    release.owner == .textInputKeysym &&
      release.pressSerial.any (serialIsAfter serial) &&
      (release.nextPressSerial.or currentPressSerial).all fun currentSerial =>
        !serialIsAfter serial currentSerial

def retireReleasedGeneration (r : KeyGenerationRegistry) (keyboard key : ℕ)
    (nextPressSerial : Option ℕ) : KeyGenerationRegistry :=
  match r.generation keyboard key with
  | none => r
  | some g =>
    if g.physicalState = .released then
      let retired := match g.retiredRelease nextPressSerial with
        | none => r.retiredGuestReleases
        | some release =>
          r.retiredGuestReleases.set (keyboard, key)
            ((r.retiredGuestReleases.get (keyboard, key)).getD [] ++ [release])
      { r.remove keyboard key with retiredGuestReleases := retired }
    else r

/-! ## Physical events -/

def observePhysicalPress (r : KeyGenerationRegistry) (keyboard key : ℕ)
    (nextPressSerial : Option ℕ) : KeyGenerationRegistry :=
  ((r.retireReleasedGeneration keyboard key nextPressSerial).ensureGeneration keyboard key).update
    keyboard key fun g => { g with physicalState := .held }

/-- When no key of the keyboard is held any more, no peeked press is a candidate. -/
def observePhysicalRelease (r : KeyGenerationRegistry) (keyboard key : ℕ) (serial : Option ℕ) :
    KeyGenerationRegistry :=
  let r := r.update keyboard key (KeyGeneration.observeRelease serial)
  let r :=
    if r.anyPhysicallyHeld keyboard then r
    else (r.updateKeyboard keyboard fun g => { g with peek := none }).pruneKeyboard keyboard
  r.pruneKey keyboard key

def observePhysicalEvent (r : KeyGenerationRegistry) (keyboard key state : ℕ)
    (serial : Option ℕ) : KeyGenerationRegistry :=
  match state with
  | 1 => r.observePhysicalPress keyboard key none
  | 0 => r.observePhysicalRelease keyboard key serial
  -- A repeat is evidence of a generation that is held already.
  | _ => r

/-- The keys that are down when the keyboard enters a surface. -/
def installEnterSnapshot (r : KeyGenerationRegistry) (keyboard : ℕ) (keys : List ℕ) :
    KeyGenerationRegistry :=
  keys.foldl (fun r key => (r.ensureGeneration keyboard key).update keyboard key fun g =>
    { g with physicalState := .held, guestOwner := some .physical }) (r.clearKeyboard keyboard)

/-! ## Peeked events -/

/-- The number of the generation, which a peeked press has as its sequence number. -/
def observePeekPress (r : KeyGenerationRegistry) (keyboard key serial time : ℕ)
    (eligible : Bool) : ℕ × KeyGenerationRegistry :=
  let r := if r.physicallyHeld keyboard key then r
    else r.observePhysicalPress keyboard key (some serial)
  let r := r.ensureGeneration keyboard key
  (((r.generation keyboard key).map (·.id)).getD 0, r.update keyboard key fun g =>
    { g with
      peekPressSerial := some serial
      peek := some { serial, time, sequence := g.id, eligible } })

def refreshPeek (r : KeyGenerationRegistry) (keyboard key serial time : ℕ) :
    KeyGenerationRegistry :=
  r.update keyboard key fun g =>
    { g with
      peekPressSerial := some serial
      peek := g.peek.map fun press => { press with serial, time } }

def observePeekRelease (r : KeyGenerationRegistry) (keyboard key serial : ℕ) :
    KeyGenerationRegistry :=
  r.observePhysicalEvent keyboard key 0 (some serial)

def invalidatePeek (r : KeyGenerationRegistry) (keyboard key : ℕ) : KeyGenerationRegistry :=
  r.update keyboard key fun g =>
    { g with peek := g.peek.map fun press => { press with eligible := false } }

/-! ## Repeats of the input method -/

def cancelBackspaceRepeat (r : KeyGenerationRegistry) (keyboard backspace : ℕ) :
    KeyGenerationRegistry :=
  if r.physicallyHeld keyboard backspace then
    r.update keyboard backspace fun g =>
      { g with backspaceRepeatCancelled := true, imeRepeatOwner := none }
  else r

def cancelBackspaceRepeatForOwner (r : KeyGenerationRegistry)
    (keyboard backspace guestTextInput : ℕ) : KeyGenerationRegistry :=
  if r.imeRepeatOwner keyboard backspace = some guestTextInput then
    r.cancelBackspaceRepeat keyboard backspace
  else r

def armImeRepeat (r : KeyGenerationRegistry) (keyboard key guestTextInput : ℕ) :
    KeyGenerationRegistry :=
  r.update keyboard key fun g =>
    if g.physicalState == .held && !g.backspaceRepeatCancelled &&
        g.imeRepeatOwner.all (· == guestTextInput) then
      { g with imeRepeatOwner := some guestTextInput }
    else g

/-! ## Owners -/

def claimGuestOwner (r : KeyGenerationRegistry) (keyboard key : ℕ) (owner : GuestKeyOwner) :
    Bool × KeyGenerationRegistry :=
  let r := r.ensureGeneration keyboard key
  if (r.guestOwner keyboard key).isSome then (false, r)
  else (true, r.update keyboard key fun g => { g with guestOwner := some owner })

def claimTextInputOwner (r : KeyGenerationRegistry) (keyboard key serial : ℕ) :
    Bool × KeyGenerationRegistry :=
  let r :=
    if (r.generation keyboard key).any fun g => g.endsBefore serial then
      if r.physicalReleased keyboard key then
        r.retireReleasedGeneration keyboard key (some serial)
      else r.remove keyboard key
    else r
  let (claimed, r) := r.claimGuestOwner keyboard key .textInputKeysym
  (claimed,
    if claimed then r.update keyboard key fun g => { g with guestPressSerial := some serial }
    else r)

def takeGuestOwner (r : KeyGenerationRegistry) (keyboard key : ℕ) : KeyGenerationRegistry :=
  (r.update keyboard key fun g =>
    if g.guestOwner.isSome then { g with guestOwner := none, guestPressSerial := none }
    else g).pruneKey keyboard key

def completeGuestOwnerIf (r : KeyGenerationRegistry) (keyboard key : ℕ)
    (expected : GuestKeyOwner) : Bool × KeyGenerationRegistry :=
  if r.guestOwner keyboard key = some expected then
    (true, r.update keyboard key fun g => { g with guestOwner := some .imeRecovery })
  else (false, r)

/-! ## Host accelerators -/

def suppressHostAccelerator (r : KeyGenerationRegistry) (keyboard key : ℕ) :
    KeyGenerationRegistry :=
  (r.ensureGeneration keyboard key).update keyboard key fun g =>
    { g with hostAcceleratorSuppressed := true }

def takeHostAcceleratorSuppression (r : KeyGenerationRegistry) (keyboard key : ℕ) :
    Bool × KeyGenerationRegistry :=
  (r.hostAcceleratorSuppressed keyboard key,
    (r.update keyboard key fun g => { g with hostAcceleratorSuppressed := false }).pruneKey
      keyboard key)

def clearAcceleratorSuppressions (r : KeyGenerationRegistry) (keyboard : ℕ) :
    KeyGenerationRegistry :=
  (r.updateKeyboard keyboard fun g => { g with hostAcceleratorSuppressed := false }).pruneKeyboard
    keyboard

/-- Note in the history of a generation that its key is a host accelerator. -/
def noteAccelerator (r : KeyGenerationRegistry) (keyboard key : ℕ) : KeyGenerationRegistry :=
  r.update keyboard key fun g => { g with accelerator := true }

/-! ## Decisions -/

def physicalPress (r : KeyGenerationRegistry) (keyboard key : ℕ)
    (repeated hostAccelerator imeRepeatActive : Bool) :
    GuestKeyDecision × KeyGenerationRegistry :=
  let owner := r.guestOwner keyboard key
  let forwarded := r.forwarded keyboard key
  let suppressForIme := owner == some .imeRecovery || (imeRepeatActive && !forwarded)
  let r := if suppressForIme && owner.isNone then
    (r.claimGuestOwner keyboard key .imeRecovery).2 else r
  if r.hostAcceleratorSuppressed keyboard key || hostAccelerator then
    ({ delivery := .drop, ackHandled := some false, endsRepeat := false },
      if forwarded then r else r.suppressHostAccelerator keyboard key)
  else if suppressForIme then
    ({ delivery := .drop, ackHandled := some false, endsRepeat := false }, r)
  else if forwarded && !repeated then
    ({ delivery := .drop, ackHandled := some true, endsRepeat := false }, r)
  else if repeated then
    ({ delivery := if forwarded then .forward else .drop, ackHandled := some forwarded,
       endsRepeat := false }, r)
  else
    ({ delivery := .forward, ackHandled := some true, endsRepeat := false },
      (r.claimGuestOwner keyboard key .physical).2)

def physicalRelease (r : KeyGenerationRegistry) (keyboard key : ℕ) :
    GuestKeyDecision × KeyGenerationRegistry :=
  let (acceleratorSuppressed, r) := r.takeHostAcceleratorSuppression keyboard key
  let imeRecovered := r.guestOwner keyboard key == some .imeRecovery
  let forwarded := r.forwarded keyboard key
  ({ delivery :=
       if forwarded && !acceleratorSuppressed && !imeRecovered then .forward else .drop
     ackHandled := some forwarded
     endsRepeat := true },
    if imeRecovered then r else r.takeGuestOwner keyboard key)

def textInputPress (r : KeyGenerationRegistry) (keyboard key serial : ℕ) :
    GuestKeyDecision × KeyGenerationRegistry :=
  let acceleratorGeneration := r.hostAcceleratorSuppressed keyboard key ||
    (r.physicallyHeld keyboard key && (r.peek keyboard key).any fun press => !press.eligible)
  let dropped : GuestKeyDecision := { delivery := .drop, ackHandled := none, endsRepeat := false }
  if acceleratorGeneration || r.guestOwner keyboard key == some .physical then (dropped, r)
  else
    let (claimed, r) := r.claimTextInputOwner keyboard key serial
    (if claimed then { dropped with delivery := .forward } else dropped, r)

def textInputRelease (r : KeyGenerationRegistry) (keyboard key serial : ℕ) :
    GuestKeyDecision × KeyGenerationRegistry :=
  let (retired, r) := r.takePendingTextInputRelease keyboard key serial
  let serialIsCurrent := (r.guestPressSerial keyboard key).all (serialIsAfter serial)
  let (current, r) :=
    if retired then (true, r)
    else if serialIsCurrent then r.completeGuestOwnerIf keyboard key .textInputKeysym
    else (false, r)
  ({ delivery := if current then .forward else .drop, ackHandled := none,
     endsRepeat := current && !retired }, r)

def recoverIme (r : KeyGenerationRegistry) (keyboard key : ℕ) :
    GuestKeyDecision × KeyGenerationRegistry :=
  if r.forwarded keyboard key then
    ({ delivery := .drop, ackHandled := none, endsRepeat := false }, r)
  else
    ({ delivery := .emitBalancedPair, ackHandled := none, endsRepeat := false },
      if (r.guestOwner keyboard key).isNone then
        (r.claimGuestOwner keyboard key .imeRecovery).2
      else r)

/-- The decision on an event of one of the channels. -/
def transitionGuestKey (r : KeyGenerationRegistry) (keyboard key : ℕ) :
    GuestKeyEvent → GuestKeyDecision × KeyGenerationRegistry
  | .physicalPress repeated hostAccelerator imeRepeatActive =>
    r.physicalPress keyboard key repeated hostAccelerator imeRepeatActive
  | .physicalRelease => r.physicalRelease keyboard key
  | .textInputPress serial => r.textInputPress keyboard key serial
  | .textInputRepeat =>
    ({ delivery := if r.forwarded keyboard key then .forward else .drop, ackHandled := none,
       endsRepeat := false }, r)
  | .textInputRelease serial => r.textInputRelease keyboard key serial
  | .recoverIme => r.recoverIme keyboard key

/-! ## What the operations change -/

variable {r : KeyGenerationRegistry} {keyboard key : ℕ} {g : KeyGeneration}

@[simp] theorem generation_new (keyboard key : ℕ) : new.generation keyboard key = none := rfl

@[simp] theorem generation_update (f : KeyGeneration → KeyGeneration) (keyboard' key' : ℕ) :
    (r.update keyboard key f).generation keyboard' key' =
      if keyboard' = keyboard ∧ key' = key then (r.generation keyboard' key').map f
      else r.generation keyboard' key' := by
  simp [generation, update]

@[simp] theorem generation_remove (keyboard' key' : ℕ) :
    (r.remove keyboard key).generation keyboard' key' =
      if keyboard' = keyboard ∧ key' = key then none else r.generation keyboard' key' := by
  simp [generation, remove]

@[simp] theorem generation_updateKeyboard (f : KeyGeneration → KeyGeneration)
    (keyboard' key' : ℕ) :
    (r.updateKeyboard keyboard f).generation keyboard' key' =
      if keyboard' = keyboard then (r.generation keyboard' key').map f
      else r.generation keyboard' key' := by
  simp [generation, updateKeyboard]

theorem generation_ensureGeneration (r : KeyGenerationRegistry)
    (keyboard key keyboard' key' : ℕ) :
    (r.ensureGeneration keyboard key).generation keyboard' key' =
      r.generation keyboard' key' ∨
    (keyboard' = keyboard ∧ key' = key ∧ r.generation keyboard key = none ∧
      ∃ id, (r.ensureGeneration keyboard key).generation keyboard' key' = some (.new id)) := by
  unfold ensureGeneration
  cases h : r.generation keyboard key with
  | some g => exact .inl rfl
  | none =>
    by_cases heq : keyboard' = keyboard ∧ key' = key
    · obtain ⟨rfl, rfl⟩ := heq
      exact .inr ⟨rfl, rfl, rfl, _, by simp [generation]; rfl⟩
    · exact .inl (by simp [generation, heq])

theorem ensureGeneration_ne_none :
    (r.ensureGeneration keyboard key).generation keyboard key ≠ none := by
  unfold ensureGeneration
  cases h : r.generation keyboard key with
  | some g => simp [h]
  | none => simp [generation]

/-- A generation that is pruned is one that nothing refers to. -/
theorem generation_of_pruneKey {keyboard' key' : ℕ}
    (h : (r.pruneKey keyboard key).generation keyboard' key' = some g) :
    r.generation keyboard' key' = some g := by
  unfold pruneKey at h
  split_ifs at h
  · rw [generation_remove] at h
    split_ifs at h
    exact h
  · exact h

theorem generation_of_pruneKeyboard {keyboard' key' : ℕ}
    (h : (r.pruneKeyboard keyboard).generation keyboard' key' = some g) :
    r.generation keyboard' key' = some g ∧ (keyboard' = keyboard → g.isUnreferenced = false) := by
  simpa [generation, pruneKeyboard, Option.filter_eq_some_iff, imp_iff_not_or] using h

theorem generation_of_clearKeyboard {keyboard' key' : ℕ}
    (h : (r.clearKeyboard keyboard).generation keyboard' key' = some g) :
    r.generation keyboard' key' = some g := by
  simp only [generation, clearKeyboard, Table.get_retain, Option.filter_eq_some_iff] at h
  exact h.1

/-- A released generation makes place for the next one. -/
theorem generation_of_retireReleasedGeneration {nextPressSerial : Option ℕ}
    {keyboard' key' : ℕ} (h : (r.retireReleasedGeneration keyboard key
      nextPressSerial).generation keyboard' key' = some g) :
    r.generation keyboard' key' = some g ∧
      (keyboard' = keyboard → key' = key → g.physicalState ≠ .released) := by
  unfold retireReleasedGeneration at h
  cases hg : r.generation keyboard key with
  | none =>
    rw [hg] at h
    refine ⟨h, ?_⟩
    rintro rfl rfl
    rw [hg] at h
    cases h
  | some g₀ =>
    rw [hg] at h
    dsimp only at h
    split_ifs at h with hreleased
    · change (r.remove keyboard key).generation keyboard' key' = some g at h
      rw [generation_remove] at h
      split_ifs at h with heq
      exact ⟨h, fun hkeyboard hkey => absurd ⟨hkeyboard, hkey⟩ heq⟩
    · refine ⟨h, ?_⟩
      rintro rfl rfl
      rw [hg] at h
      exact Option.some.inj h ▸ hreleased

/-- Taking a release that was to come leaves the current generations alone. -/
@[simp] theorem entries_takeRetiredGuestRelease (predicate : RetiredGuestRelease → Bool) :
    (r.takeRetiredGuestRelease keyboard key predicate).2.entries = r.entries := by
  unfold takeRetiredGuestRelease
  cases r.retiredGuestReleases.get (keyboard, key) with
  | none => rfl
  | some releases =>
    dsimp only
    split_ifs <;> rfl

end KeyGenerationRegistry
end Sommelier
