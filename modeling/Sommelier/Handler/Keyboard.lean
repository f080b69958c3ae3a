import Mathlib.Data.List.MinMax
import Sommelier.Input.HostTextEvents
import Sommelier.State.Context
import Sommelier.State.KeyGenerations
import Sommelier.WireValues

/-!
# Keyboards

The events of a keyboard are forwarded to the guest, except for the keys the host keeps as its
accelerators; every key is acknowledged to the host, so that it knows whether to act on it
itself. An input method of the host may take keys away from the keyboard. Its keysyms are
delivered as keys, and an empty confirmation of a preedit stands for a repeat of the key that
is held.

## Main definitions

* `Xkb`: the calls of the keyboard library.
* `KeyboardContext`: the session state the handlers share.
* `onKey`, `onPeekKey`, `onKeysym`: the three channels of a key.
* `heldRepeatKeyForSeat`, `onConfirmPreeditKeys`: the recovery of a held key.
-/
namespace Sommelier

/-! ## Keyboard library -/

inductive Modifier
  | control
  | alt
  | shift
  | logo
  deriving DecidableEq, Repr

def Modifier.mask : Modifier → ℕ
  | control => 1
  | alt => 2
  | shift => 4
  | logo => 8

/-- The keyboard library as the handlers use it. Only the pressed and the latched modifiers
count as active. -/
structure Xkb where
  Keymap : Type
  State : Type
  newFromString : String → Option Keymap
  newFromNames : Option Keymap
  minKeycode : Keymap → ℕ
  maxKeycode : Keymap → ℕ
  numLayoutsForKey : Keymap → ℕ → ℕ
  numLevelsForKey : Keymap → ℕ → ℕ → ℕ
  keyGetSymsByLevel : Keymap → ℕ → ℕ → ℕ → List ℕ
  keyRepeats : Keymap → ℕ → Bool
  newState : Keymap → State
  updateMask (state : State) (depressed latched locked group : ℕ) : State
  modNameIsActive : State → Modifier → Bool
  keyGetOneSym : State → ℕ → ℕ
  keysymToLower : ℕ → ℕ

namespace Xkb
variable (x : Xkb)

/-- The codes of a keymap that have an evdev code; those are smaller by eight. -/
def keycodes (keymap : x.Keymap) : List ℕ :=
  (List.range' (x.minKeycode keymap) (x.maxKeycode keymap + 1 - x.minKeycode keymap)).filter (8 ≤ ·)

/-- The symbols of a key in all layouts and levels. -/
def symsForKey (keymap : x.Keymap) (keycode : ℕ) : List ℕ :=
  (List.range (x.numLayoutsForKey keymap keycode)).flatMap fun layout =>
    (List.range (x.numLevelsForKey keymap keycode layout)).flatMap fun level =>
      x.keyGetSymsByLevel keymap keycode layout level

/-- The lowest key of each symbol. -/
def keysymToEvdevKeycodes (keymap : x.Keymap) : Table ℕ ℕ :=
  (x.keycodes keymap).foldl (fun keycodes keycode =>
    (x.symsForKey keymap keycode).foldl (fun keycodes keysym =>
      if (keycodes.get keysym).isSome then keycodes else keycodes.set keysym (keycode - 8))
      keycodes) ∅

def repeatableEvdevKeycodes (keymap : x.Keymap) : List ℕ :=
  ((x.keycodes keymap).filter (x.keyRepeats keymap)).map (· - 8)

/-- The key of a symbol when the keyboard has no keymap for it. -/
def keysymToEvdevKeycode (sym : ℕ) : Option ℕ :=
  x.newFromNames.bind fun keymap => (x.keysymToEvdevKeycodes keymap).get sym

/-- The active modifiers as a mask. -/
def activeModifiers (state : x.State) : ℕ :=
  ([Modifier.control, .alt, .shift, .logo].filter (x.modNameIsActive state)).foldl
    (fun modifiers modifier => modifiers ||| modifier.mask) 0

end Xkb

/-- A key with modifiers that the host keeps for itself. -/
structure Accelerator where
  modifiers : ℕ
  symbol : ℕ
  deriving DecidableEq, Repr

/-! ## State -/

structure KeyboardContext (x : Xkb) where
  input : InputContext
  keyGenerations : KeyGenerationRegistry
  accelerators : List Accelerator
  keymaps : Table ℕ x.Keymap
  states : Table ℕ x.State
  modifiers : Table ℕ ℕ
  keyboardRepeatableKeys : Table ℕ (List ℕ)
  keyboardKeysymToKeycode : Table ℕ (Table ℕ ℕ)
  hostKeyboardExtensionId : Option ℕ
  keyboardToExtendedKeyboard : Table ℕ ℕ
  extendedKeyboardToKeyboard : Table ℕ ℕ
  syntheticKeyboardSerial : ℕ

def evdevKeyBackspace : ℕ := 14
def keysymBackSpace : ℕ := 0xff08

/-- `wl_keyboard.key` to the guest. -/
def keyMessage (guestKeyboard serial time key state : ℕ) : QueuedMessage :=
  ⟨guestKeyboard, 3, [.word serial, .word time, .word key, .word state]⟩

/-- `zcr_extended_keyboard_v1.ack_key` to the host. -/
def ackKeyMessage (hostExtended serial : ℕ) (handled : Bool) : QueuedMessage :=
  ⟨hostExtended, 1, [.word serial, .word (if handled then 1 else 0)]⟩

/-- The codes of an array of keys. -/
def pressedKeys (o : ByteOrder) (keys : List UInt8) : List ℕ :=
  (List.range (keys.length / 4)).map fun i => o.fromNeBytes ((keys.drop (4 * i)).take 4)

namespace KeyboardContext
variable {x : Xkb}

def new (x : Xkb) (accelerators : List Accelerator) : KeyboardContext x where
  input := .new
  keyGenerations := .new
  accelerators
  keymaps := ∅
  states := ∅
  modifiers := ∅
  keyboardRepeatableKeys := ∅
  keyboardKeysymToKeycode := ∅
  hostKeyboardExtensionId := none
  keyboardToExtendedKeyboard := ∅
  extendedKeyboardToKeyboard := ∅
  syntheticKeyboardSerial := 0

def onKeys (c : KeyboardContext x) (f : KeyGenerationRegistry → KeyGenerationRegistry) :
    KeyboardContext x :=
  { c with keyGenerations := f c.keyGenerations }

def guestSeatForHostKeyboard (c : KeyboardContext x) (hostKeyboard : ℕ) : Option ℕ :=
  (c.input.shadowTable.getGuestId hostKeyboard).bind c.input.keyboardToSeat.get

/-- The keyboards of a seat in both namespaces, by guest ID. -/
def keyboardsForSeat (c : KeyboardContext x) (guestSeat : ℕ) : List (ℕ × ℕ) :=
  (c.input.keyboardToSeat.keysWhere fun _ seat => seat == guestSeat).mergeSort.filterMap
    fun guestKeyboard => (c.input.shadowTable.getHostId guestKeyboard).map (guestKeyboard, ·)

/-! ## Repeats of the input method -/

def endBackspaceRepeatForSeat (c : KeyboardContext x) (guestSeat : ℕ) : KeyboardContext x :=
  c.onKeys fun keys => (c.keyboardsForSeat guestSeat).foldl (fun keys (_, hostKeyboard) =>
    if keys.imeRepeatActive hostKeyboard evdevKeyBackspace then
      keys.cancelBackspaceRepeat hostKeyboard evdevKeyBackspace
    else keys) keys

def endBackspaceRepeatForTextInput (c : KeyboardContext x) (guestSeat guestTextInput : ℕ) :
    KeyboardContext x :=
  c.onKeys fun keys => (c.keyboardsForSeat guestSeat).foldl (fun keys (_, hostKeyboard) =>
    keys.cancelBackspaceRepeatForOwner hostKeyboard evdevKeyBackspace guestTextInput) keys

/-- Another key than backspace was pressed. -/
def endBackspaceRepeat (c : KeyboardContext x) (hostKeyboard key : ℕ) : KeyboardContext x :=
  if key = evdevKeyBackspace then c
  else
    let seat := c.guestSeatForHostKeyboard hostKeyboard
    let c := c.onKeys fun keys => keys.cancelBackspaceRepeat hostKeyboard evdevKeyBackspace
    match seat with
    | none => c
    | some guestSeat => c.endBackspaceRepeatForSeat guestSeat

/-- Backspace was released. -/
def endBackspaceSession (c : KeyboardContext x) (hostKeyboard key : ℕ) : KeyboardContext x :=
  if key = evdevKeyBackspace then
    match c.guestSeatForHostKeyboard hostKeyboard with
    | none => c
    | some guestSeat => c.endBackspaceRepeatForSeat guestSeat
  else c

def backspaceRepeats (c : KeyboardContext x) (hostKeyboard : ℕ) : Bool :=
  !c.keyGenerations.backspaceRepeatCancelled hostKeyboard evdevKeyBackspace &&
    c.keyGenerations.physicallyHeld hostKeyboard evdevKeyBackspace

def keyboardForSeat (c : KeyboardContext x) (guestSeat : ℕ) : Option (ℕ × ℕ) :=
  let candidates := c.keyboardsForSeat guestSeat
  (candidates.find? fun keyboard => c.backspaceRepeats keyboard.2).or candidates.head?

def heldBackspaceKeyboardForSeat (c : KeyboardContext x) (guestSeat : ℕ) : Option ℕ :=
  ((c.keyboardForSeat guestSeat).map Prod.snd).filter c.backspaceRepeats

/-! ## Keymaps and modifiers -/

def isHostAccelerator (c : KeyboardContext x) (hostKeyboard key : ℕ) : Bool :=
  match c.states.get hostKeyboard with
  | none => false
  | some state =>
    let modifiers := (c.modifiers.get hostKeyboard).getD 0
    let sym := x.keyGetOneSym state (key + 8)
    decide (key + 8 < 2 ^ 32) && sym != 0 && c.accelerators.any fun accelerator =>
      modifiers == accelerator.modifiers && x.keysymToLower sym == accelerator.symbol

def resetHostKeyboardModifiers (c : KeyboardContext x) (hostKeyboard : ℕ) : KeyboardContext x :=
  { c with
    modifiers := c.modifiers.erase hostKeyboard
    states := c.states.modify hostKeyboard fun state => x.updateMask state 0 0 0 0 }

def clearHostKeyboardKeymap (c : KeyboardContext x) (hostKeyboard : ℕ) : KeyboardContext x :=
  { c with
    keymaps := c.keymaps.erase hostKeyboard
    states := c.states.erase hostKeyboard
    modifiers := c.modifiers.erase hostKeyboard
    keyboardRepeatableKeys := c.keyboardRepeatableKeys.erase hostKeyboard }

def clearHostKeyboardKeymapAndState (c : KeyboardContext x) (hostKeyboard : ℕ) :
    KeyboardContext x :=
  let c := c.clearHostKeyboardKeymap hostKeyboard
  { c with
    keyboardKeysymToKeycode := c.keyboardKeysymToKeycode.erase hostKeyboard }.onKeys fun keys =>
      keys.clearKeyboard hostKeyboard

def retireFocusScopedKeyboardState (c : KeyboardContext x) (hostKeyboard : ℕ) :
    KeyboardContext x :=
  (c.onKeys fun keys => keys.clearKeyboard hostKeyboard).resetHostKeyboardModifiers hostKeyboard

/-- The keymap of an event: the mapped file is a text that ends in a null byte. -/
def parseKeymap (format size : ℕ) (mapping : Option (List UInt8)) : Option x.Keymap :=
  if format = 1 ∧ size ≠ 0 then
    mapping.bind fun bytes =>
      if bytes.getLast? = some 0 then (fromUtf8 bytes.dropLast).bind x.newFromString else none
  else none

/-- A new keymap ends no physical key: only what followed from the old one is forgotten. -/
def loadKeymap (c : KeyboardContext x) (hostKeyboard : ℕ) (keymap : x.Keymap) :
    KeyboardContext x :=
  let c := c.clearHostKeyboardKeymap hostKeyboard
  { c with
    keymaps := c.keymaps.set hostKeyboard keymap
    states := c.states.set hostKeyboard (x.newState keymap)
    keyboardKeysymToKeycode :=
      c.keyboardKeysymToKeycode.set hostKeyboard (x.keysymToEvdevKeycodes keymap)
    keyboardRepeatableKeys :=
      c.keyboardRepeatableKeys.set hostKeyboard (x.repeatableEvdevKeycodes keymap) }.onKeys
        fun keys => keys.clearAcceleratorSuppressions hostKeyboard

def onKeymap (c : KeyboardContext x) (hostKeyboard format size : ℕ)
    (mapping : Option (List UInt8)) : Action × KeyboardContext x :=
  (.forward,
    match parseKeymap format size mapping with
    | none => c.clearHostKeyboardKeymapAndState hostKeyboard
    | some keymap => c.loadKeymap hostKeyboard keymap)

def onModifiers (c : KeyboardContext x) (hostKeyboard depressed latched locked group : ℕ) :
    Action × KeyboardContext x :=
  (.forward,
    match c.states.get hostKeyboard with
    | none => { c with modifiers := c.modifiers.erase hostKeyboard }
    | some state =>
      let state := x.updateMask state depressed latched locked group
      { c with
        states := c.states.set hostKeyboard state
        modifiers := c.modifiers.set hostKeyboard (x.activeModifiers state) })

/-! ## Focus -/

def applyFocusChange (c : KeyboardContext x) (change : SeatFocusChange) :
    Option (KeyboardContext x) :=
  if change.previousSurface = change.currentSurface then some c
  else
    let c := (c.onKeys fun keys =>
      keys.clearPeekWatermarksForSeat change.guestSeat).endBackspaceRepeatForSeat change.guestSeat
    (applyKeyboardFocusChange c.input change).map fun input => { c with input }

def applyFocusChanges (c : KeyboardContext x) (changes : List SeatFocusChange) :
    Option (KeyboardContext x) :=
  changes.foldlM applyFocusChange c

/-- Bind the extension object of a keyboard, if the host has the extension. -/
def ensureExtendedKeyboardBound (c : KeyboardContext x) (hostKeyboard : ℕ) :
    Option (KeyboardContext x) :=
  match c.hostKeyboardExtensionId, c.keyboardToExtendedKeyboard.get hostKeyboard with
  | some extension, none =>
    c.input.shadowTable.allocateHostId.map fun (hostExtended, shadowTable) =>
      { c with
        keyboardToExtendedKeyboard := c.keyboardToExtendedKeyboard.set hostKeyboard hostExtended
        extendedKeyboardToKeyboard := c.extendedKeyboardToKeyboard.set hostExtended hostKeyboard
        input := { c.input with
          shadowTable := shadowTable.trackHostInterfaceWithVersion hostExtended
            .zcrExtendedKeyboardV1
            ((shadowTable.hostObjectVersion extension).getD unknownObjectVersion) }.toHost
              [⟨extension, 0, [.word hostExtended, .word hostKeyboard]⟩] }
  | _, _ => some c

/-- Enter a surface that is known to be deliverable. -/
def enterFocus (c : KeyboardContext x) (hostKeyboard : ℕ) (focus : KeyboardFocus)
    (keys : List ℕ) : Option (KeyboardContext x) :=
  let (update, keyboardFocus) := c.input.keyboardFocus.enter hostKeyboard focus
  let c := { c with input := { c.input with keyboardFocus } }
  let c := update.retiredKeyboards.foldl retireFocusScopedKeyboardState c
  let c := c.onKeys fun registry => registry.installEnterSnapshot hostKeyboard keys
  (c.resetHostKeyboardModifiers hostKeyboard).applyFocusChanges update.seatChanges

def onEnter (o : ByteOrder) (c : KeyboardContext x) (hostKeyboard hostSurface : ℕ)
    (keys : List UInt8) : Option (Action × KeyboardContext x) :=
  let guestSurface := (c.input.shadowTable.getGuestId hostSurface).getD 0
  if guestSurface = 0 ∨ c.input.shadowTable.isPendingDestroyHost hostSurface = true then
    some (.drop, c)
  else
    match c.input.keyboardToSeat.get ((c.input.shadowTable.getGuestId hostKeyboard).getD 0) with
    | none => some (.drop, c)
    | some guestSeat =>
      let focus : KeyboardFocus := { guestSeat, guestSurface, hostSurface }
      if c.input.keyboardFocus.focusForKeyboard hostKeyboard = some focus then some (.drop, c)
      else
        (c.ensureExtendedKeyboardBound hostKeyboard).bind fun c =>
          (c.enterFocus hostKeyboard focus (pressedKeys o keys)).map fun c => (.forward, c)

def onLeave (c : KeyboardContext x) (hostKeyboard hostSurface : ℕ) :
    Option (Action × KeyboardContext x) :=
  let guestSurface := (c.input.shadowTable.getGuestId hostSurface).getD 0
  let forwardable := guestSurface ≠ 0 ∧ c.input.shadowTable.isPendingDestroyHost hostSurface = false
  let (update, keyboardFocus) := c.input.keyboardFocus.leave hostKeyboard hostSurface
  let c := { c with input := { c.input with keyboardFocus } }
  if !update.accepted then some (.drop, c)
  else
    let c := update.retiredKeyboards.foldl retireFocusScopedKeyboardState c
    (c.applyFocusChanges update.seatChanges).map fun c =>
      (if forwardable then .forward else .drop, c)

/-- Destroy the extension object of a keyboard. -/
def destroyExtendedKeyboard (c : KeyboardContext x) (hostKeyboard : ℕ) : KeyboardContext x :=
  match c.keyboardToExtendedKeyboard.get hostKeyboard with
  | none => c
  | some hostExtended =>
    { c with
      keyboardToExtendedKeyboard := c.keyboardToExtendedKeyboard.erase hostKeyboard
      extendedKeyboardToKeyboard := c.extendedKeyboardToKeyboard.erase hostExtended
      input := { c.input.toHost [⟨hostExtended, 0, []⟩] with
        shadowTable := (c.input.shadowTable.markPendingDestroyHost hostExtended).2 } }

/-- `wl_keyboard.release`. -/
def onRelease (c : KeyboardContext x) (guestKeyboard : ℕ) :
    Option (Action × KeyboardContext x) :=
  let guestSeat := c.input.keyboardToSeat.get guestKeyboard
  let c := { c with
    input := { c.input with keyboardToSeat := c.input.keyboardToSeat.erase guestKeyboard } }
  match c.input.shadowTable.getHostId guestKeyboard with
  | none =>
    some (.forward,
      match guestSeat with
      | none => c
      | some guestSeat => c.endBackspaceRepeatForSeat guestSeat)
  | some hostKeyboard =>
    let (update, keyboardFocus) := c.input.keyboardFocus.release hostKeyboard
    let c := { c with input := { c.input with keyboardFocus } }
    let c := c.clearHostKeyboardKeymapAndState hostKeyboard
    ((c.destroyExtendedKeyboard hostKeyboard).applyFocusChanges update.seatChanges).map fun c =>
      (.forward, c)

/-- The input part of `wl_surface.destroy`. -/
def onSurfaceDestroy (c : KeyboardContext x) (guestSurface : ℕ) : Option (KeyboardContext x) :=
  let c := c.onKeys fun keys => keys.clearPeekWatermarksForSurface guestSurface
  let (update, keyboardFocus) := c.input.keyboardFocus.destroySurface guestSurface
  let c := { c with input := { c.input with keyboardFocus } }
  (c.applyFocusChanges update.seatChanges).bind fun c =>
    (repairDestroyedSurfaceFocus c.input guestSurface).map fun input =>
      { c with input }.onKeys fun keys =>
        update.retiredKeyboards.foldl KeyGenerationRegistry.clearKeyboard keys

/-! ## Keys -/

/-- Nothing is sent for a keyboard without an extension object. -/
def sendAckKey (c : KeyboardContext x) (hostKeyboard serial : ℕ) (handled : Bool) :
    KeyboardContext x :=
  match c.keyboardToExtendedKeyboard.get hostKeyboard with
  | none => c
  | some hostExtended =>
    { c with input := c.input.toHost [ackKeyMessage hostExtended serial handled] }

/-- The event belongs to another generation than the current one, as its serial shows. -/
def isStaleKey (c : KeyboardContext x) (hostKeyboard serial key state : ℕ) : Bool :=
  let peekPressSerial := c.keyGenerations.peekPressSerial hostKeyboard key
  (state == 0 && peekPressSerial.isSome &&
      c.keyGenerations.physicalReleaseSerial hostKeyboard key != some serial) ||
    (state == 1 && c.keyGenerations.physicallyHeld hostKeyboard key &&
      peekPressSerial.any (· != serial))

/-- The physical state of a key after an event. A press that was overtaken by the release of its
generation starts no other one, and only a repeat the guest can match is evidence. -/
def observeKey (c : KeyboardContext x) (hostKeyboard serial key state : ℕ) : KeyboardContext x :=
  let delayedReleasedPeekPress := c.keyGenerations.physicalReleased hostKeyboard key &&
    c.keyGenerations.peekPressSerial hostKeyboard key == some serial
  if (state == 1 && !delayedReleasedPeekPress) || state == 0 ||
      (state == 2 && c.keyGenerations.forwarded hostKeyboard key) then
    c.onKeys fun keys => keys.observePhysicalEvent hostKeyboard key state (some serial)
  else c

/-- Acknowledge a key as it was decided, which physical events always are. -/
def finishKey (c : KeyboardContext x) (hostKeyboard serial : ℕ) (decision : GuestKeyDecision) :
    Action × KeyboardContext x :=
  (if decision.delivery = .forward then .forward else .drop,
    c.sendAckKey hostKeyboard serial (decision.ackHandled.getD false))

/-- Decide on a press or a repeat. -/
def pressKey (c : KeyboardContext x) (hostKeyboard serial key : ℕ)
    (repeated imeRepeatActive : Bool) : Action × KeyboardContext x :=
  let c := c.endBackspaceRepeat hostKeyboard key
  let hostAccelerator := c.isHostAccelerator hostKeyboard key
  let c := if hostAccelerator then c.onKeys fun keys => keys.invalidatePeek hostKeyboard key else c
  let (decision, keys) := c.keyGenerations.transitionGuestKey hostKeyboard key
    (.physicalPress repeated hostAccelerator imeRepeatActive)
  let keys := if hostAccelerator then keys.noteAccelerator hostKeyboard key else keys
  { c with keyGenerations := keys }.finishKey hostKeyboard serial decision

/-- Decide on a release. -/
def releaseKey (c : KeyboardContext x) (hostKeyboard serial key : ℕ) :
    Action × KeyboardContext x :=
  let (decision, keys) := c.keyGenerations.transitionGuestKey hostKeyboard key .physicalRelease
  let c := { c with keyGenerations := keys }
  let c := if decision.endsRepeat then c.endBackspaceSession hostKeyboard key else c
  c.finishKey hostKeyboard serial decision

/-- `wl_keyboard.key`. -/
def onKey (c : KeyboardContext x) (hostKeyboard serial key state : ℕ) :
    Action × KeyboardContext x :=
  let (pending, keys) :=
    if state = 0 then c.keyGenerations.takePendingPhysicalRelease hostKeyboard key serial
    else (false, c.keyGenerations)
  if pending then
    -- The release closes a press of a replaced generation and leaves the current one alone.
    (.forward, { c with keyGenerations := keys }.sendAckKey hostKeyboard serial true)
  else if c.isStaleKey hostKeyboard serial key state then
    (.drop, c.sendAckKey hostKeyboard serial false)
  else
    let imeRepeatActive := key == evdevKeyBackspace &&
      c.keyGenerations.imeRepeatActive hostKeyboard evdevKeyBackspace
    let c := c.observeKey hostKeyboard serial key state
    match state with
    | 1 => c.pressKey hostKeyboard serial key false imeRepeatActive
    | 2 => c.pressKey hostKeyboard serial key true imeRepeatActive
    | 0 => c.releaseKey hostKeyboard serial key
    | _ => (.drop, c)

/-! ## Peeked keys -/

/-- The seat's surface, when the keyboard has its focus there. -/
def focusedSurface (c : KeyboardContext x) (hostKeyboard guestSeat : ℕ) : Option ℕ :=
  (c.input.keyboardFocus.surfaceForSeat guestSeat).filter
    (c.input.keyboardFocus.keyboardOwnsSurface hostKeyboard)

/-- The first peeked press of a generation. -/
def peekPress (c : KeyboardContext x) (hostKeyboard serial time key : ℕ) : KeyboardContext x :=
  let alreadyDropped := c.keyGenerations.hostAcceleratorSuppressed hostKeyboard key
  let hostAccelerator := c.isHostAccelerator hostKeyboard key
  let (sequence, keys) := c.keyGenerations.observePeekPress hostKeyboard key serial time
    (!alreadyDropped && !hostAccelerator)
  let keys := if hostAccelerator then keys.noteAccelerator hostKeyboard key else keys
  let c := { c with keyGenerations := keys }
  match c.guestSeatForHostKeyboard hostKeyboard with
  | none => c
  | some guestSeat => c.onKeys fun keys => keys.recordLatestPeek guestSeat
      (c.focusedSurface hostKeyboard guestSeat) hostKeyboard sequence

/-- A release that is older than the peeked press it would end. -/
def isStalePeekRelease (c : KeyboardContext x) (hostKeyboard serial time key : ℕ) : Bool :=
  (c.keyGenerations.peek hostKeyboard key).any fun press =>
    !(serialIsAfter serial press.serial ||
      (serial == press.serial && !serialIsAfter press.time time))

/-- The press is the first one that is peeked of its generation, or refreshes it. -/
def notePeek (c : KeyboardContext x) (hostKeyboard serial time key state : ℕ) :
    KeyboardContext x :=
  let peekPressedBefore := c.keyGenerations.physicallyHeld hostKeyboard key &&
    (c.keyGenerations.peek hostKeyboard key).isSome
  if state = 1 ∧ peekPressedBefore = false then c.peekPress hostKeyboard serial time key
  else c.onKeys fun keys => keys.refreshPeek hostKeyboard key serial time

/-- A press, or the repeat of a key that is held. -/
def peekPressed (c : KeyboardContext x) (hostKeyboard serial time key state : ℕ) :
    KeyboardContext x :=
  let c := (c.notePeek hostKeyboard serial time key state).onKeys fun keys =>
    keys.observePhysicalEvent hostKeyboard key state (some serial)
  if state = 1 then c.endBackspaceRepeat hostKeyboard key else c

def peekReleased (c : KeyboardContext x) (hostKeyboard serial time key : ℕ) :
    KeyboardContext x :=
  if c.isStalePeekRelease hostKeyboard serial time key then c
  else
    (c.onKeys fun keys => keys.observePeekRelease hostKeyboard key serial).endBackspaceSession
      hostKeyboard key

/-- `zcr_extended_keyboard_v1.peek_key`. -/
def onPeekKey (c : KeyboardContext x) (hostExtended serial time key state : ℕ) :
    KeyboardContext x :=
  match c.extendedKeyboardToKeyboard.get hostExtended with
  | none => c
  | some hostKeyboard =>
    if state = 1 ∨ (state = 2 ∧ c.keyGenerations.physicallyHeld hostKeyboard key = true) then
      c.peekPressed hostKeyboard serial time key state
    else if state = 0 then c.peekReleased hostKeyboard serial time key
    else c

/-! ## Keysyms -/

def keycodeForKeysym (c : KeyboardContext x) (hostKeyboard sym : ℕ) : Option ℕ :=
  ((c.keyboardKeysymToKeycode.get hostKeyboard).bind fun keycodes => keycodes.get sym).or
    (x.keysymToEvdevKeycode sym)

/-- The keyboard a keysym is delivered through: the one that peeked its key last, else one that
has the focus and is not reserved for repeats of backspace. -/
def keyboardForKeysym (c : KeyboardContext x) (guestSeat sym : ℕ) : Option (ℕ × ℕ) :=
  let candidates := c.keyboardsForSeat guestSeat
  let activeSurface := c.input.keyboardFocus.surfaceForSeat guestSeat
  let isFocused (keyboard : ℕ × ℕ) : Bool :=
    activeSurface.any (c.input.keyboardFocus.keyboardOwnsSurface keyboard.2)
  let isFree (keyboard : ℕ × ℕ) : Bool := !c.backspaceRepeats keyboard.2
  let unlessBackspace (keyboard : Option (ℕ × ℕ)) : Option (ℕ × ℕ) :=
    if sym = keysymBackSpace then none else keyboard
  let peeked :=
    (candidates.filter fun keyboard => activeSurface.isNone || isFocused keyboard).filterMap
      fun keyboard => (c.keycodeForKeysym keyboard.2 sym).bind fun keycode =>
        (c.keyGenerations.peek keyboard.2 keycode).map fun press => (press.sequence, keyboard)
  ((peeked.argmax Prod.fst).map Prod.snd).or <|
    (unlessBackspace (candidates.find? fun keyboard => isFocused keyboard && isFree keyboard)).or <|
      (candidates.find? isFocused).or <|
        (unlessBackspace (candidates.find? isFree)).or (c.keyboardForSeat guestSeat)

def keysymEvent (serial : ℕ) : ℕ → GuestKeyEvent
  | 1 => .textInputPress serial
  | 2 => .textInputRepeat
  | _ => .textInputRelease serial

/-- Send the key of a keysym to the guest. Other keys than backspace end its repeats. -/
def sendKeysym (c : KeyboardContext x) (guestSeat guestKeyboard serial time key state : ℕ)
    (endsRepeat : Bool) : KeyboardContext x :=
  let c := if if key = evdevKeyBackspace then endsRepeat else state == 1 || state == 2 then
    c.endBackspaceRepeatForSeat guestSeat else c
  { c with input := c.input.toGuest [keyMessage guestKeyboard serial time key state] }

/-- Deliver a keysym as a key. -/
def deliverKeysym (c : KeyboardContext x) (guestSeat guestKeyboard hostKeyboard serial time key
    state : ℕ) : KeyboardContext x :=
  let (decision, keys) :=
    c.keyGenerations.transitionGuestKey hostKeyboard key (keysymEvent serial state)
  let c := { c with keyGenerations := keys }
  if decision.delivery = .forward then
    c.sendKeysym guestSeat guestKeyboard serial time key state decision.endsRepeat
  else c

/-- `zwp_text_input_v1.keysym`. The host sends the time as `serial` and the serial as `time`. -/
def onKeysym (c : KeyboardContext x) (hostId serial time sym state : ℕ) : KeyboardContext x :=
  match (activeGuestForHostTextInput c.input hostId).bind c.input.textInputs.get with
  | none => c
  | some textInput =>
    match c.keyboardForKeysym textInput.guestSeat sym with
    | none => c
    | some (guestKeyboard, hostKeyboard) =>
      if state ≤ 2 then
        match c.keycodeForKeysym hostKeyboard sym with
        | none => c
        | some key =>
          c.deliverKeysym textInput.guestSeat guestKeyboard hostKeyboard time serial key state
      else c

/-! ## Recovery of a held key -/

structure HeldRepeatKey where
  guestKeyboard : ℕ
  hostKeyboard : ℕ
  key : ℕ
  press : PeekKeyProvenance
  deriving DecidableEq, Repr

/-- The peeked keys of a seat, on the keyboards that have the focus if there is one. -/
def repeatCandidates (c : KeyboardContext x) (guestSeat : ℕ) : List HeldRepeatKey :=
  let activeSurface := c.input.keyboardFocus.surfaceForSeat guestSeat
  ((c.keyboardsForSeat guestSeat).filter fun keyboard => activeSurface.all
    (c.input.keyboardFocus.keyboardOwnsSurface keyboard.2)).flatMap
      fun (guestKeyboard, hostKeyboard) =>
        (c.keyGenerations.peekKeys hostKeyboard).map fun (key, press) =>
          { guestKeyboard, hostKeyboard, key, press }

/-- The key an empty confirmation stands for: the newest peeked one, or none. -/
def heldRepeatKeyForSeat (c : KeyboardContext x) (guestSeat : ℕ) : Option HeldRepeatKey :=
  ((c.repeatCandidates guestSeat).argmax fun held => held.press.sequence).filter fun held =>
    (c.keyGenerations.latestPeekSequence guestSeat
        (c.input.keyboardFocus.surfaceForSeat guestSeat)).all (· == held.press.sequence) &&
      c.keyGenerations.physicallyHeld held.hostKeyboard held.key &&
      held.press.eligible &&
      (c.keyboardRepeatableKeys.get held.hostKeyboard).any (held.key ∈ ·) &&
      !(held.key == evdevKeyBackspace &&
        c.keyGenerations.backspaceRepeatCancelled held.hostKeyboard evdevKeyBackspace)

def nextSyntheticSerial (serial : ℕ) : ℕ := max ((serial + 1) % 2 ^ 32) 1

/-- The pair for a held key, unless the guest has the key already. -/
def synthesizeImeConsumedKeyPair (c : KeyboardContext x) (held : HeldRepeatKey) :
    Option KeyPair × KeyboardContext x :=
  let (decision, keys) :=
    c.keyGenerations.transitionGuestKey held.hostKeyboard held.key .recoverIme
  let c := { c with keyGenerations := keys }
  if decision.delivery = .emitBalancedPair then
    let pressSerial := nextSyntheticSerial c.syntheticKeyboardSerial
    let releaseSerial := nextSyntheticSerial pressSerial
    (some { guestKeyboard := held.guestKeyboard, pressSerial, releaseSerial,
            time := held.press.time, key := held.key },
      { c with syntheticKeyboardSerial := releaseSerial })
  else (none, c)

/-- The repeats of backspace after its recovery. -/
def finishRecovery (c : KeyboardContext x) (guestSeat guestTextInput : ℕ) (held : HeldRepeatKey)
    (recovered : Bool) : KeyboardContext x :=
  if recovered && held.key == evdevKeyBackspace then
    c.onKeys fun keys => keys.armImeRepeat held.hostKeyboard held.key guestTextInput
  else if recovered || held.key == evdevKeyBackspace then
    c.endBackspaceRepeatForTextInput guestSeat guestTextInput
  else c

/-- The handler queued something for the guest. -/
def sent (before after : InputContext) : Bool :=
  before.hostToClientQueue.length < after.hostToClientQueue.length

/-- Answer an empty confirmation with the key that is held. -/
def confirmHeldKey (c : KeyboardContext x) (hostExtId guestSeat guestId : ℕ)
    (held : HeldRepeatKey) : KeyboardContext x :=
  let (pair, c) := c.synthesizeImeConsumedKeyPair held
  let recovered := recoveredMessages c.input hostExtId (some pair)
  let c := { c with input := onConfirmPreedit c.input hostExtId recovered }
  c.finishRecovery guestSeat guestId held pair.isSome

/-- Answer the confirmation of a text. -/
def confirmText (c : KeyboardContext x) (hostExtId guestSeat guestId : ℕ) : KeyboardContext x :=
  let input := onConfirmPreedit c.input hostExtId []
  let confirmed := sent c.input input
  let c := { c with input }
  if confirmed then c.endBackspaceRepeatForTextInput guestSeat guestId else c

/-- `zcr_extended_text_input_v1.confirm_preedit`. -/
def onConfirmPreeditKeys (c : KeyboardContext x) (hostExtId : ℕ) : KeyboardContext x :=
  match guestForExtension c.input hostExtId with
  | none => c
  | some guestId =>
    match (c.input.textInputs.get guestId).bind fun state =>
        state.prepareComposition.map (state.guestSeat, ·) with
    | none => c
    | some (guestSeat, plan) =>
      if plan.preedit = "" then
        match c.heldRepeatKeyForSeat guestSeat with
        | none => c.endBackspaceRepeatForTextInput guestSeat guestId
        | some held => c.confirmHeldKey hostExtId guestSeat guestId held
      else c.confirmText hostExtId guestSeat guestId

end KeyboardContext
end Sommelier
