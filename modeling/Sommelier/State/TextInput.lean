import Mathlib.Algebra.Group.Int.Defs
import Mathlib.Algebra.Group.Nat.Defs
import Mathlib.Tactic.Common

/-!
# Text-input state

A guest text input is double buffered: requests change the pending half, and a commit
publishes it. It is served by a host text input that is activated and deactivated on its
behalf; after a deactivation the host object is drained before it is used again.

## Main definitions

* `HostActivationState`: the use of the host object.
* `TextInputState`: the state of a text input, with its transitions.
* `GuestCommitPlan`: a commit that was prepared but not published.
-/
namespace Sommelier

inductive HostActivationState
  /-- no activation of the host object is live -/
  | inactive
  /-- host events belong to the current activation -/
  | active
  /-- a callback drains the events of the last activation -/
  | draining (callback : ℕ)
  deriving DecidableEq, Repr

structure TextInputState where
  hostV1Id : ℕ
  hostExtId : Option ℕ
  guestSeat : ℕ
  activeSurface : Option ℕ
  pendingEnabled : Bool
  committedEnabled : Bool
  enabledDirty : Bool
  pendingSurroundingText : Option (String × ℤ × ℤ)
  committedSurroundingText : Option (String × ℤ × ℤ)
  surroundingTextDirty : Bool
  contentHint : ℕ
  contentPurpose : ℕ
  committedContentType : Option (ℕ × ℕ)
  contentTypeDirty : Bool
  cursorRect : Option (ℤ × ℤ × ℤ × ℤ)
  cursorRectDirty : Bool
  textChangeCause : ℕ
  currentPreedit : String
  guestCommitSerial : ℕ
  pendingPreeditCursor : Option ℤ
  pendingPreeditSelection : Option (ℕ × ℕ)
  pendingDeletes : List (ℕ × ℕ)
  pendingCursorPosition : Option (ℤ × ℤ)
  hostActivation : HostActivationState
  deriving DecidableEq, Repr

/-- A guest commit as it is sent to the host, before the state is changed. -/
structure GuestCommitPlan where
  hostV1Id : ℕ
  hostExtId : Option ℕ
  guestSeat : ℕ
  serial : ℕ
  enabled : Bool
  enableConflict : Bool
  resetsComposition : Bool
  surroundingText : Option (Option (String × ℤ × ℤ))
  hasSurroundingText : Bool
  contentType : Option (ℕ × ℕ)
  cursorRect : Option (ℤ × ℤ × ℤ × ℤ)
  deriving DecidableEq, Repr

/-- What the handlers of host composition events read. -/
structure CompositionPlan where
  doneSerial : ℕ
  preedit : String
  selection : Option (ℕ × ℕ)
  cursor : Option ℤ
  deletes : List (ℕ × ℕ)
  deriving DecidableEq, Repr

def maxPendingImeDeletes : ℕ := 256

namespace TextInputState

def new (hostV1Id : ℕ) (hostExtId : Option ℕ) (guestSeat : ℕ) (activeSurface : Option ℕ) :
    TextInputState where
  hostV1Id
  hostExtId
  guestSeat
  activeSurface
  pendingEnabled := false
  committedEnabled := false
  enabledDirty := false
  pendingSurroundingText := none
  committedSurroundingText := none
  surroundingTextDirty := false
  contentHint := 0
  contentPurpose := 0
  committedContentType := none
  contentTypeDirty := false
  cursorRect := none
  cursorRectDirty := false
  textChangeCause := 0
  currentPreedit := ""
  guestCommitSerial := 0
  pendingPreeditCursor := none
  pendingPreeditSelection := none
  pendingDeletes := []
  pendingCursorPosition := none
  hostActivation := .inactive

/-! ## Host activation -/

def hostIsActive (s : TextInputState) : Bool := s.hostActivation == .active

/-- Leave one activation state for another; `none` when the object is in a third one. -/
def moveActivation (source target : HostActivationState) (s : TextInputState) :
    Option TextInputState :=
  if s.hostActivation = source then some { s with hostActivation := target } else none

theorem moveActivation_eq_some {source target : HostActivationState} {s s' : TextInputState}
    (h : moveActivation source target s = some s') :
    s.hostActivation = source ∧ s' = { s with hostActivation := target } := by
  unfold moveActivation at h
  split_ifs at h with hsource
  exact ⟨hsource, (Option.some.inj h).symm⟩

def activateHost : TextInputState → Option TextInputState := moveActivation .inactive .active

def beginHostDraining (callback : ℕ) : TextInputState → Option TextInputState :=
  moveActivation .active (.draining callback)

def completeHostDraining (callback : ℕ) : TextInputState → Option TextInputState :=
  moveActivation (.draining callback) .inactive

def deactivateHostWithoutBarrier : TextInputState → Option TextInputState :=
  moveActivation .active .inactive

/-! ## Guest transactions -/

def clearHostComposition (s : TextInputState) : TextInputState :=
  { s with
    currentPreedit := ""
    pendingPreeditCursor := none
    pendingPreeditSelection := none
    pendingDeletes := []
    pendingCursorPosition := none }

/-- The focus moves: the guest enables the input anew. The serial and the host activation
outlive the focus. -/
def applyFocus (activeSurface : Option ℕ) (s : TextInputState) : TextInputState :=
  { s.clearHostComposition with
    pendingEnabled := false
    committedEnabled := false
    enabledDirty := false
    pendingSurroundingText := none
    committedSurroundingText := none
    surroundingTextDirty := false
    contentHint := 0
    contentPurpose := 0
    committedContentType := none
    contentTypeDirty := false
    cursorRect := none
    cursorRectDirty := false
    textChangeCause := 0
    activeSurface }

def beginDestroy (s : TextInputState) : TextInputState :=
  { s with committedEnabled := false, activeSurface := none }

def beginEnabledTransaction (enabled : Bool) (s : TextInputState) : TextInputState :=
  { s with
    pendingEnabled := enabled
    enabledDirty := true
    pendingSurroundingText := none
    surroundingTextDirty := true
    contentHint := 0
    contentPurpose := 0
    contentTypeDirty := true
    cursorRect := none
    cursorRectDirty := true
    textChangeCause := 0 }

def setSurroundingText (text : String) (cursor anchor : ℤ) (s : TextInputState) :
    TextInputState :=
  { s with pendingSurroundingText := some (text, cursor, anchor), surroundingTextDirty := true }

def setTextChangeCause (cause : ℕ) (s : TextInputState) : TextInputState :=
  { s with textChangeCause := cause }

def setContentType (hint purpose : ℕ) (s : TextInputState) : TextInputState :=
  { s with
    contentHint := hint
    contentPurpose := purpose
    contentTypeDirty := s.enabledDirty || s.committedContentType != some (hint, purpose) }

def setCursorRect (rect : ℤ × ℤ × ℤ × ℤ) (s : TextInputState) : TextInputState :=
  { s with cursorRect := some rect, cursorRectDirty := true }

/-- The next commit; an enable that conflicts with another input changes nothing. -/
def prepareGuestCommit (s : TextInputState) (enableConflict : Bool) : GuestCommitPlan where
  hostV1Id := s.hostV1Id
  hostExtId := s.hostExtId
  guestSeat := s.guestSeat
  serial := (s.guestCommitSerial + 1) % 2 ^ 32
  enabled := if s.enabledDirty && !enableConflict then s.pendingEnabled else s.committedEnabled
  enableConflict
  resetsComposition := s.enabledDirty
  surroundingText := if s.surroundingTextDirty then some s.pendingSurroundingText else none
  hasSurroundingText :=
    (if s.surroundingTextDirty then s.pendingSurroundingText
      else s.committedSurroundingText).isSome
  contentType := if s.contentTypeDirty then some (s.contentHint, s.contentPurpose) else none
  cursorRect := if s.cursorRectDirty then some (s.cursorRect.getD (0, 0, 0, 0)) else none

/-- The part of a published plan that resets the composition. -/
def finishEnabled (plan : GuestCommitPlan) (s : TextInputState) : TextInputState :=
  if plan.resetsComposition then
    { s.clearHostComposition with
      pendingEnabled := if plan.enableConflict then s.committedEnabled else plan.enabled
      committedEnabled := if plan.enableConflict then s.committedEnabled else plan.enabled
      enabledDirty := false }
  else s

def finishGuestCommit (plan : GuestCommitPlan) (s : TextInputState) : TextInputState :=
  let s := finishEnabled plan { s with guestCommitSerial := plan.serial }
  { s with
    surroundingTextDirty := if plan.surroundingText.isSome then false else s.surroundingTextDirty
    committedSurroundingText := plan.surroundingText.getD s.committedSurroundingText
    contentTypeDirty := if plan.contentType.isSome then false else s.contentTypeDirty
    committedContentType := plan.contentType.or s.committedContentType
    cursorRectDirty := if plan.cursorRect.isSome then false else s.cursorRectDirty
    textChangeCause := 0 }

/-! ## Host composition -/

def recordPreeditSelection (index length : ℕ) (s : TextInputState) : TextInputState :=
  { s with pendingPreeditSelection := some (index, length) }

def recordPreeditCursor (index : ℤ) (s : TextInputState) : TextInputState :=
  { s with pendingPreeditCursor := some index }

def recordCursorPosition (index anchor : ℤ) (s : TextInputState) : TextInputState :=
  { s with pendingCursorPosition := some (index, anchor) }

def recordDelete (before after : ℕ) (s : TextInputState) : TextInputState :=
  if maxPendingImeDeletes ≤ s.pendingDeletes.length then s
  else { s with pendingDeletes := s.pendingDeletes ++ [(before, after)] }

/-- What a composition event reads, while the host object is active. -/
def prepareComposition (s : TextInputState) : Option CompositionPlan :=
  if s.hostIsActive then
    some
      { doneSerial := s.guestCommitSerial
        preedit := s.currentPreedit
        selection := s.pendingPreeditSelection
        cursor := s.pendingPreeditCursor
        deletes := s.pendingDeletes }
  else none

/-- A preedit text was sent: a new one, one for a region of the surrounding text, or none. -/
def finishPreedit (preedit : String) (s : TextInputState) : TextInputState :=
  { s with
    pendingPreeditSelection := none
    pendingPreeditCursor := none
    currentPreedit := preedit }

def finishHostPreedit (text : String) : TextInputState → TextInputState := finishPreedit text

def finishHostCommit : TextInputState → TextInputState := clearHostComposition

def finishPreeditRegion (preedit : String) : TextInputState → TextInputState :=
  finishPreedit preedit

def finishConfirmPreedit : TextInputState → TextInputState := finishPreedit ""

end TextInputState
end Sommelier
