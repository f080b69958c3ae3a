import Mathlib.Algebra.Group.Nat.Defs
import Mathlib.Data.Int.Notation
import Sommelier.Lib.Table

/-!
# Surfaces and render buffers

The double-buffered state of a surface, the transaction a commit prepares from it, and
the registry of render buffers, keyed by host ID. A registry entry holds its backing
exactly while the host buffer can still be used.

## Main definitions

* `DamageRect`, `DamageRegion`: bounded accumulation of damage.
* `SurfaceState`, `SurfaceCommit`, `SurfaceState.prepareCommit`: one surface and its commits.
* `RenderBufferUse`, `RenderBuffer`, `RenderBufferRegistry`: use intervals and ownership.
-/
namespace Sommelier

/-! ## Damage -/

@[ext] structure DamageRect where
  x : ℤ
  y : ℤ
  width : ℤ
  height : ℤ
  deriving DecidableEq, Repr

/-- Damage of one surface commit. Beyond `maxPendingDamageRects` rectangles it is full. -/
inductive DamageRegion
  | empty
  | rects (rects : List DamageRect)
  | full
  deriving DecidableEq, Repr

def maxPendingDamageRects : ℕ := 256

namespace DamageRegion

def push (region : DamageRegion) (rect : DamageRect) : DamageRegion :=
  if region = .full ∨ rect.width ≤ 0 ∨ rect.height ≤ 0 then region
  else
    match region with
    | .empty => .rects [rect]
    | .rects pending =>
      if maxPendingDamageRects ≤ pending.length then .full else .rects (pending ++ [rect])
    | .full => .full

def isFull : DamageRegion → Bool
  | .full => true
  | _ => false

def toRects : DamageRegion → List DamageRect
  | .rects pending => pending
  | _ => []

end DamageRegion

/-! ## Surfaces -/

/-- Crop and scale of a `wp_viewport`; fixed-point values are kept raw. -/
structure ViewportState where
  source : Option (ℤ × ℤ × ℤ × ℤ)
  destination : Option (ℤ × ℤ)
  deriving DecidableEq, Repr

def ViewportState.new : ViewportState := { source := none, destination := none }

def ViewportState.isIdentity (v : ViewportState) : Bool :=
  v.source.isNone && v.destination.isNone

/-- The committed contents: a live buffer reference, if it still has one, and its size. -/
structure SurfaceContentSnapshot where
  bufferId : Option ℕ
  dimensions : Option (ℤ × ℤ)
  deriving DecidableEq, Repr

/-- One `wl_surface.attach` transition; `attach(NULL)` is `detach`. -/
inductive SurfaceAttachment
  | unchanged
  | detach
  | attach (bufferId : ℕ)
  deriving DecidableEq, Repr

namespace SurfaceAttachment

def bufferId : SurfaceAttachment → Option ℕ
  | .attach bufferId => some bufferId
  | _ => none

/-- The buffers a commit takes from and gives to the surface, if it replaces them. -/
def transitionFrom (a : SurfaceAttachment) (previous : Option ℕ) :
    Option (Option ℕ × Option ℕ) :=
  match a with
  | .unchanged => none
  | .detach => some (previous, none)
  | .attach bufferId => some (previous, some bufferId)

end SurfaceAttachment

structure SurfaceState where
  currentContent : Option SurfaceContentSnapshot
  pendingAttachment : SurfaceAttachment
  pendingSurfaceDamage : DamageRegion
  pendingBufferDamage : DamageRegion
  pendingBufferScale : Option ℤ
  currentBufferScale : ℤ
  pendingBufferTransform : Option ℤ
  currentBufferTransform : ℤ
  pendingOffset : Option (ℤ × ℤ)
  pendingAttachOffset : Option (ℤ × ℤ)
  viewport : Option ViewportState
  pendingViewport : Option (Option ViewportState)
  deriving DecidableEq, Repr

/-- A prepared commit: the state it leaves, what it consumed, and the state to roll back to. -/
structure SurfaceCommit where
  previous : SurfaceState
  state : SurfaceState
  attachment : SurfaceAttachment
  surfaceDamage : DamageRegion
  bufferDamage : DamageRegion
  bufferOffset : ℤ × ℤ
  deriving DecidableEq, Repr

namespace SurfaceState

def new : SurfaceState where
  currentContent := none
  pendingAttachment := .unchanged
  pendingSurfaceDamage := .empty
  pendingBufferDamage := .empty
  pendingBufferScale := none
  currentBufferScale := 1
  pendingBufferTransform := none
  currentBufferTransform := 0
  pendingOffset := none
  pendingAttachOffset := none
  viewport := none
  pendingViewport := none

def currentBufferId (s : SurfaceState) : Option ℕ := s.currentContent.bind (·.bufferId)

def currentBufferDimensions (s : SurfaceState) : Option (ℤ × ℤ) :=
  s.currentContent.bind (·.dimensions)

/-- Record the size of the current buffer; `none` when it is not the current one. -/
def setCurrentBufferDimensions (s : SurfaceState) (bufferId : ℕ)
    (dimensions : Option (ℤ × ℤ)) : Option SurfaceState :=
  match s.currentContent with
  | some content =>
    if content.bufferId = some bufferId then
      some { s with currentContent := some { content with dimensions } }
    else none
  | none => none

/-- Forget the buffer object; the size stays for damage mapping. -/
def clearCurrentBufferReference (s : SurfaceState) (bufferId : ℕ) : SurfaceState :=
  match s.currentContent with
  | some content =>
    if content.bufferId = some bufferId then
      if content.dimensions.isNone then { s with currentContent := none }
      else { s with currentContent := some { content with bufferId := none } }
    else s
  | none => s

/-- Apply and consume all state pending for the next commit. -/
def prepareCommit (s : SurfaceState) : SurfaceCommit :=
  let state : SurfaceState :=
    { currentContent :=
        match s.pendingAttachment with
        | .unchanged => s.currentContent
        | .detach => none
        | .attach bufferId => some { bufferId := some bufferId, dimensions := none }
      pendingAttachment := .unchanged
      pendingSurfaceDamage := .empty
      pendingBufferDamage := .empty
      pendingBufferScale := none
      currentBufferScale := s.pendingBufferScale.getD s.currentBufferScale
      pendingBufferTransform := none
      currentBufferTransform := s.pendingBufferTransform.getD s.currentBufferTransform
      pendingOffset := none
      pendingAttachOffset := none
      viewport := s.pendingViewport.getD s.viewport
      pendingViewport := none }
  { previous := s
    state
    attachment := s.pendingAttachment
    surfaceDamage := s.pendingSurfaceDamage
    bufferDamage := s.pendingBufferDamage
    bufferOffset := (s.pendingOffset.or s.pendingAttachOffset).getD (0, 0) }

end SurfaceState

namespace SurfaceCommit

def attachedBufferId (c : SurfaceCommit) : Option ℕ := c.attachment.bufferId

def attachmentTransition (c : SurfaceCommit) : Option (Option ℕ × Option ℕ) :=
  c.attachment.transitionFrom c.previous.currentBufferId

def hasFullDamage (c : SurfaceCommit) : Bool := c.surfaceDamage.isFull || c.bufferDamage.isFull

/-- Surface damage is not in buffer pixels, so a copy by rectangles would miss pixels. -/
def usesFullMapping (c : SurfaceCommit) : Bool :=
  c.state.currentBufferScale != 1 || c.state.currentBufferTransform != 0 ||
    (c.attachedBufferId.isSome && c.bufferOffset != (0, 0)) ||
    c.state.viewport.any fun viewport => !viewport.isIdentity

def hasInvalidFractionalViewport (c : SurfaceCommit) : Bool :=
  match c.state.viewport with
  | some { source := some (_, _, width, height), destination := none } =>
    decide (width % 256 ≠ 0) || decide (height % 256 ≠ 0)
  | _ => false

end SurfaceCommit

/-! ## Render buffers -/

/-- Host-compositor use phase of one render buffer. -/
inductive RenderBufferUse
  | neverSubmitted
  | awaitingRelease (hasDetachedUse : Bool)
  | released
  deriving DecidableEq, Repr

def RenderBufferUse.isAwaitingRelease : RenderBufferUse → Bool
  | awaitingRelease _ => true
  | _ => false

/-- Storage of one host buffer: guest memory copied into host storage, or a guest
dma-buf forwarded as it is. -/
inductive RenderBufferBacking (β : Type)
  | localCopy (backing : β)
  | native (size : ℤ × ℤ)
  deriving DecidableEq, Repr

structure ActiveRenderBuffer (β : Type) where
  backing : RenderBufferBacking β
  useState : RenderBufferUse
  implicitSyncFallback : Bool
  deriving DecidableEq, Repr

/-- One render-buffer generation. Only a usable one has backing and a use phase. -/
inductive RenderBuffer (β : Type)
  | guestAlive (buffer : ActiveRenderBuffer β)
  | guestDestroyed (buffer : ActiveRenderBuffer β)
  | hostDestroyQueued
  deriving DecidableEq, Repr

/-- The ownership phase of a render buffer, without its contents. -/
inductive RenderBufferPhase
  | guestAlive
  | guestDestroyed
  | hostDestroyQueued
  deriving DecidableEq, Repr

namespace RenderBuffer
variable {β : Type}

def phase : RenderBuffer β → RenderBufferPhase
  | guestAlive _ => .guestAlive
  | guestDestroyed _ => .guestDestroyed
  | hostDestroyQueued => .hostDestroyQueued

def active : RenderBuffer β → Option (ActiveRenderBuffer β)
  | guestAlive buffer => some buffer
  | guestDestroyed buffer => some buffer
  | hostDestroyQueued => none

/-- Update the buffer while it is usable. -/
def mapActive (f : ActiveRenderBuffer β → ActiveRenderBuffer β) : RenderBuffer β → RenderBuffer β
  | guestAlive buffer => guestAlive (f buffer)
  | guestDestroyed buffer => guestDestroyed (f buffer)
  | hostDestroyQueued => hostDestroyQueued

def isGuestDestroyed : RenderBuffer β → Bool
  | guestDestroyed _ => true
  | _ => false

end RenderBuffer

/-- The render buffers by host ID, over the type of local backing. -/
abbrev RenderBufferRegistry (β : Type) := Table ℕ (RenderBuffer β)

namespace RenderBufferRegistry
variable {β : Type}

def registerBacking (r : RenderBufferRegistry β) (hostId : ℕ) (backing : RenderBufferBacking β) :
    Bool × RenderBufferRegistry β :=
  match r.get hostId with
  | none =>
    (true, r.set hostId (.guestAlive
      { backing, useState := .neverSubmitted, implicitSyncFallback := false }))
  | some _ => (false, r)

def registerLocal (r : RenderBufferRegistry β) (hostId : ℕ) (backing : β) :
    Bool × RenderBufferRegistry β :=
  r.registerBacking hostId (.localCopy backing)

def registerNative (r : RenderBufferRegistry β) (hostId : ℕ) (size : ℤ × ℤ) :
    Bool × RenderBufferRegistry β :=
  r.registerBacking hostId (.native size)

def contains (r : RenderBufferRegistry β) (hostId : ℕ) : Bool := (r.get hostId).isSome

/-- The usable buffer under a host ID. -/
def activeBuffer (r : RenderBufferRegistry β) (hostId : ℕ) : Option (ActiveRenderBuffer β) :=
  (r.get hostId).bind RenderBuffer.active

def localCopy (r : RenderBufferRegistry β) (hostId : ℕ) : Option β :=
  match r.activeBuffer hostId with
  | some { backing := .localCopy backing, .. } => some backing
  | _ => none

/-- Write back the local backing of a usable buffer. -/
def setLocalCopy (r : RenderBufferRegistry β) (hostId : ℕ) (backing : β) :
    RenderBufferRegistry β :=
  r.modify hostId (RenderBuffer.mapActive fun buffer =>
    match buffer.backing with
    | .localCopy _ => { buffer with backing := .localCopy backing }
    | .native _ => buffer)

def useState (r : RenderBufferRegistry β) (hostId : ℕ) : Option RenderBufferUse :=
  (r.activeBuffer hostId).map (·.useState)

def setUseState (r : RenderBufferRegistry β) (hostId : ℕ) (use : RenderBufferUse) :
    RenderBufferRegistry β :=
  r.modify hostId (RenderBuffer.mapActive fun buffer => { buffer with useState := use })

def isGuestDestroyed (r : RenderBufferRegistry β) (hostId : ℕ) : Bool :=
  (r.get hostId).any RenderBuffer.isGuestDestroyed

def remove (r : RenderBufferRegistry β) (hostId : ℕ) : Bool × RenderBufferRegistry β :=
  ((r.get hostId).isSome, r.erase hostId)

def canSubmit (r : RenderBufferRegistry β) (hostId : ℕ) : Bool := (r.activeBuffer hostId).isSome

def canDetach (r : RenderBufferRegistry β) (hostId : ℕ) : Bool :=
  (r.useState hostId).any (· != .neverSubmitted)

def submit (r : RenderBufferRegistry β) (hostId : ℕ) : Bool × RenderBufferRegistry β :=
  match r.useState hostId with
  | none => (false, r)
  | some (.awaitingRelease _) => (true, r)
  | some .neverSubmitted => (true, r.setUseState hostId (.awaitingRelease false))
  | some .released => (true, r.setUseState hostId (.awaitingRelease false))

def release (r : RenderBufferRegistry β) (hostId : ℕ) : Bool × RenderBufferRegistry β :=
  match r.useState hostId with
  | some (.awaitingRelease _) => (true, r.setUseState hostId .released)
  | _ => (false, r)

def detach (r : RenderBufferRegistry β) (hostId : ℕ) : Bool × RenderBufferRegistry β :=
  match r.useState hostId with
  | none => (false, r)
  | some (.awaitingRelease _) => (true, r.setUseState hostId (.awaitingRelease true))
  | some .released => (true, r)
  | some .neverSubmitted => (false, r)

/-- The destroyed surface was the last one to show the buffer: without an earlier detached
use, no release will come. -/
def endLastSurfaceUse (r : RenderBufferRegistry β) (hostId : ℕ) (hasOtherCurrent : Bool) :
    Bool × RenderBufferRegistry β :=
  match r.useState hostId with
  | none => (false, r)
  | some use =>
    if hasOtherCurrent then (true, r)
    else
      match use with
      | .awaitingRelease hasDetachedUse =>
        (true, if hasDetachedUse then r else r.setUseState hostId .neverSubmitted)
      | .released => (true, r)
      | .neverSubmitted => (false, r)

/-- Apply a transition to a generation, if one is named. -/
def onGeneration (r : RenderBufferRegistry β)
    (f : RenderBufferRegistry β → ℕ → Bool × RenderBufferRegistry β) :
    Option ℕ → Bool × RenderBufferRegistry β
  | some hostId => f r hostId
  | none => (true, r)

/-- Replace the buffer of a surface, after checking both generations. -/
def finalizeAttachment (r : RenderBufferRegistry β) (previous next : Option ℕ) :
    Bool × RenderBufferRegistry β :=
  if previous = next then r.onGeneration submit next
  else if previous.any (fun hostId => !r.canDetach hostId) ||
      next.any (fun hostId => !r.canSubmit hostId) then (false, r)
  else
    let (detached, r) := r.onGeneration detach previous
    if !detached then (false, r) else r.onGeneration submit next

def markGuestDestroyed (r : RenderBufferRegistry β) (hostId : ℕ) :
    Bool × RenderBufferRegistry β :=
  match r.get hostId with
  | some (.guestAlive buffer) => (true, r.set hostId (.guestDestroyed buffer))
  | _ => (false, r)

def markHostDestroyQueued (r : RenderBufferRegistry β) (hostId : ℕ) :
    Bool × RenderBufferRegistry β :=
  match r.get hostId with
  | none => (false, r)
  | some .hostDestroyQueued => (false, r)
  | some _ => (true, r.set hostId .hostDestroyQueued)

/-! ## Phases

The operations on uses keep every ownership phase. -/

variable {r : RenderBufferRegistry β} {hostId h : ℕ}

/-- The ownership phase under a host ID. -/
def phase (r : RenderBufferRegistry β) (hostId : ℕ) : Option RenderBufferPhase :=
  (r.get hostId).map RenderBuffer.phase

theorem isGuestDestroyed_iff :
    r.isGuestDestroyed hostId = true ↔ r.phase hostId = some .guestDestroyed := by
  unfold isGuestDestroyed phase
  rcases r.get hostId with _ | (_ | _ | _) <;> simp [RenderBuffer.phase,
    RenderBuffer.isGuestDestroyed]

theorem contains_iff : r.contains hostId = true ↔ r.phase hostId ≠ none := by
  simp [contains, phase, Option.isSome_iff_ne_none]

/-- A buffer is usable until its destructor was queued. -/
theorem activeBuffer_isSome_iff : (r.activeBuffer hostId).isSome = true ↔
    r.phase hostId = some .guestAlive ∨ r.phase hostId = some .guestDestroyed := by
  unfold activeBuffer phase
  rcases r.get hostId with _ | (_ | _ | _) <;> simp [RenderBuffer.phase, RenderBuffer.active]

theorem phase_set (e : RenderBuffer β) :
    phase (r.set hostId e) h = if h = hostId then some e.phase else r.phase h := by
  simp only [phase, Table.get_set]
  split_ifs <;> rfl

theorem phase_erase : phase (r.erase hostId) h = if h = hostId then none else r.phase h := by
  simp only [phase, Table.get_erase]
  split_ifs <;> rfl

theorem phase_modify_active (f : ActiveRenderBuffer β → ActiveRenderBuffer β) :
    phase (r.modify hostId (RenderBuffer.mapActive f)) h = r.phase h := by
  simp only [phase, Table.get_modify]
  split_ifs
  · rcases r.get h with _ | (_ | _ | _) <;> rfl
  · rfl

@[simp] theorem phase_setUseState (use : RenderBufferUse) :
    (r.setUseState hostId use).phase h = r.phase h := phase_modify_active _

@[simp] theorem phase_setLocalCopy (backing : β) :
    (r.setLocalCopy hostId backing).phase h = r.phase h := phase_modify_active _

@[simp] theorem phase_release : (r.release hostId).2.phase h = r.phase h := by
  unfold release
  split <;> simp

@[simp] theorem phase_submit : (r.submit hostId).2.phase h = r.phase h := by
  unfold submit
  split <;> simp

@[simp] theorem phase_detach : (r.detach hostId).2.phase h = r.phase h := by
  unfold detach
  split <;> simp

@[simp] theorem phase_endLastSurfaceUse (hasOtherCurrent : Bool) :
    (r.endLastSurfaceUse hostId hasOtherCurrent).2.phase h = r.phase h := by
  unfold endLastSurfaceUse
  split
  · rfl
  · split_ifs
    · rfl
    · split
      · dsimp only
        split_ifs <;> simp
      · rfl
      · rfl

theorem phase_onGeneration
    {f : RenderBufferRegistry β → ℕ → Bool × RenderBufferRegistry β}
    (hf : ∀ r hostId h, (f r hostId).2.phase h = r.phase h) (generation : Option ℕ) :
    (r.onGeneration f generation).2.phase h = r.phase h := by
  cases generation with
  | none => rfl
  | some hostId => exact hf r hostId h

theorem phase_finalizeAttachment (previous next : Option ℕ) :
    (r.finalizeAttachment previous next).2.phase h = r.phase h := by
  have hsubmit : ∀ r : RenderBufferRegistry β,
      (r.onGeneration submit next).2.phase h = r.phase h :=
    fun r => phase_onGeneration (fun _ _ _ => phase_submit) next
  unfold finalizeAttachment
  split_ifs
  · exact hsubmit r
  · rfl
  · dsimp only
    split_ifs
    · exact phase_onGeneration (fun _ _ _ => phase_detach) previous
    · exact (hsubmit _).trans (phase_onGeneration (fun _ _ _ => phase_detach) previous)

/-! ## Uses -/

theorem useState_modify_active (f : ActiveRenderBuffer β → ActiveRenderBuffer β) :
    useState (r.modify hostId (RenderBuffer.mapActive f)) h =
      if h = hostId then (r.activeBuffer h).map fun b => (f b).useState else r.useState h := by
  simp only [useState, activeBuffer, Table.get_modify]
  split_ifs
  · rcases r.get h with _ | (_ | _ | _) <;> rfl
  · rfl

@[simp] theorem useState_setUseState (use : RenderBufferUse) :
    (r.setUseState hostId use).useState h =
      if h = hostId then (r.useState h).map fun _ => use else r.useState h := by
  rw [setUseState, useState_modify_active]
  simp [useState, Function.comp_def]

theorem canSubmit_iff : r.canSubmit hostId = true ↔ ∃ use, r.useState hostId = some use := by
  simp [canSubmit, useState, Option.isSome_iff_exists]

theorem canDetach_iff : r.canDetach hostId = true ↔
    ∃ use, r.useState hostId = some use ∧ use ≠ .neverSubmitted := by
  simp [canDetach, Option.any_eq_true]

/-- A usable buffer is submitted, and then awaits its release. -/
theorem submit_eq (hsubmit : r.canSubmit hostId = true) : (r.submit hostId).1 = true ∧
    ∀ h, (r.submit hostId).2.useState h = r.useState h ∨
      h = hostId ∧
        ∃ detached, (r.submit hostId).2.useState h = some (.awaitingRelease detached) := by
  obtain ⟨use, huse⟩ := canSubmit_iff.mp hsubmit
  unfold submit
  refine ⟨by cases use <;> simp [huse], fun h => ?_⟩
  by_cases heq : h = hostId <;> cases use <;> simp [huse, heq]

theorem useState_submit (hsubmit : r.canSubmit hostId = true) :
    ∃ detached, (r.submit hostId).2.useState hostId = some (.awaitingRelease detached) := by
  obtain ⟨use, huse⟩ := canSubmit_iff.mp hsubmit
  unfold submit
  cases use <;> simp [huse]

/-- A buffer that awaits its release is released; all other uses stay. -/
theorem useState_release (r : RenderBufferRegistry β) (hostId h : ℕ) :
    (r.release hostId).2.useState h = r.useState h ∧
        (h = hostId → (r.useState h).any RenderBufferUse.isAwaitingRelease = false) ∨
      h = hostId ∧ (r.release hostId).2.useState h = some .released := by
  unfold release
  split
  · rename_i hasDetachedUse huse
    by_cases heq : h = hostId
    · exact .inr ⟨heq, by simp [heq, huse]⟩
    · exact .inl ⟨by simp [heq], fun hsame => absurd hsame heq⟩
  · rename_i huse
    refine .inl ⟨rfl, ?_⟩
    rintro rfl
    rcases hstate : r.useState h with _ | (_ | hasDetachedUse | _)
    · rfl
    · rfl
    · exact absurd hstate (huse _)
    · rfl

theorem get_release_other (hne : h ≠ hostId) : (r.release hostId).2.get h = r.get h := by
  unfold release
  split <;> simp [setUseState, hne]

theorem useState_endLastSurfaceUse (r : RenderBufferRegistry β) (hostId : ℕ)
    (hasOtherCurrent : Bool) (h : ℕ) :
    (r.endLastSurfaceUse hostId hasOtherCurrent).2.useState h = r.useState h ∨
      h = hostId ∧ hasOtherCurrent = false := by
  by_cases heq : h = hostId
  · cases hasOtherCurrent with
    | false => exact .inr ⟨heq, rfl⟩
    | true =>
      unfold endLastSurfaceUse
      split <;> exact .inl rfl
  · refine .inl ?_
    unfold endLastSurfaceUse
    split
    · rfl
    · split_ifs
      · rfl
      · split
        · dsimp only
          split_ifs <;> simp [heq]
        · rfl
        · rfl

/-- A submitted buffer is detached; it keeps waiting for its release. -/
theorem detach_eq (hdetach : r.canDetach hostId = true) : (r.detach hostId).1 = true ∧
    ∀ h, (r.detach hostId).2.useState h = r.useState h ∨
      (∃ detached, r.useState h = some (.awaitingRelease detached)) ∧
        (r.detach hostId).2.useState h = some (.awaitingRelease true) := by
  obtain ⟨use, huse, hne⟩ := canDetach_iff.mp hdetach
  unfold detach
  refine ⟨by cases use <;> simp_all, fun h => ?_⟩
  by_cases heq : h = hostId <;> cases use <;> simp_all

/-- The use of a buffer after others were submitted or detached. -/
def KeepsUse (r r' : RenderBufferRegistry β) (h : ℕ) : Prop :=
  r'.useState h = r.useState h ∨
    (∃ detached, r.useState h = some (.awaitingRelease detached)) ∧
      r'.useState h = some (.awaitingRelease true)

theorem onGeneration_submit {next : Option ℕ} (hnext : ∀ h, next = some h → r.canSubmit h = true) :
    (r.onGeneration submit next).1 = true ∧
      (∀ h, next = some h → ∃ detached,
        (r.onGeneration submit next).2.useState h = some (.awaitingRelease detached)) ∧
      ∀ h, next ≠ some h → (r.onGeneration submit next).2.useState h = r.useState h := by
  cases next with
  | none => exact ⟨rfl, by simp, fun _ _ => rfl⟩
  | some n =>
    obtain ⟨hok, huses⟩ := submit_eq (hnext n rfl)
    refine ⟨hok, fun h heq => ?_, fun h hne => ?_⟩
    · obtain rfl := Option.some.inj heq
      exact useState_submit (hnext n rfl)
    · exact (huses h).resolve_right fun heq => hne (congrArg some heq.1.symm)

/-- A replacement is applied when the old buffer was submitted and the new one is usable;
otherwise nothing changes. -/
theorem finalizeAttachment_cases (previous next : Option ℕ) :
    (((previous = next ∨ ∀ h, previous = some h → r.canDetach h = true) ∧
        ∀ h, next = some h → r.canSubmit h = true) ∧
      (r.finalizeAttachment previous next).1 = true ∧
      (∀ h, next = some h → ∃ detached, (r.finalizeAttachment previous next).2.useState h =
        some (.awaitingRelease detached)) ∧
      ∀ h, next ≠ some h → KeepsUse r (r.finalizeAttachment previous next).2 h) ∨
    (¬ ((previous = next ∨ ∀ h, previous = some h → r.canDetach h = true) ∧
        ∀ h, next = some h → r.canSubmit h = true) ∧
      r.finalizeAttachment previous next = (false, r)) := by
  unfold finalizeAttachment
  by_cases hcan : ∀ h, next = some h → r.canSubmit h = true
  · obtain ⟨hok, hnext, hother⟩ := onGeneration_submit hcan
    by_cases heq : previous = next
    · simp only [if_pos heq]
      exact .inl ⟨⟨.inl heq, hcan⟩, hok, hnext, fun h hne => .inl (hother h hne)⟩
    · by_cases hprev : ∀ h, previous = some h → r.canDetach h = true
      · have hsome : ¬ ((previous.any fun hostId => !r.canDetach hostId) ||
            next.any fun hostId => !r.canSubmit hostId) = true := by
          simpa [Option.any_eq_true] using ⟨hprev, hcan⟩
        simp only [if_neg heq, if_neg hsome]
        cases previous with
        | none =>
          exact .inl ⟨⟨.inr hprev, hcan⟩, hok, hnext, fun h hne => .inl (hother h hne)⟩
        | some p =>
          obtain ⟨hdetached, huses⟩ := detach_eq (hprev p rfl)
          have hcan' : ∀ h, next = some h → (r.detach p).2.canSubmit h = true := by
            intro h hn
            obtain ⟨use, huse⟩ := canSubmit_iff.mp (hcan h hn)
            refine canSubmit_iff.mpr ?_
            rcases huses h with hsame | ⟨-, hsame⟩ <;> rw [hsame]
            exacts [⟨use, huse⟩, ⟨_, rfl⟩]
          obtain ⟨hok, hnext, hother⟩ := onGeneration_submit hcan'
          have hprevious : r.onGeneration detach (some p) = r.detach p := rfl
          simp only [hprevious, hdetached, Bool.not_true, Bool.false_eq_true, if_false]
          refine .inl ⟨⟨.inr hprev, hcan⟩, hok, hnext, fun h hne => ?_⟩
          unfold KeepsUse
          rw [hother h hne]
          exact huses h
      · refine .inr ⟨fun hboth => hprev (hboth.1.resolve_left heq), ?_⟩
        rw [if_neg heq, if_pos]
        push Not at hprev
        obtain ⟨h, rfl, hno⟩ := hprev
        simp [hno]
  · refine .inr ⟨fun hboth => hcan hboth.2, ?_⟩
    push Not at hcan
    obtain ⟨h, rfl, hno⟩ := hcan
    have hfail : r.submit h = (false, r) := by
      cases huse : r.useState h with
      | none => simp [submit, huse]
      | some use => exact absurd (canSubmit_iff.mpr ⟨use, huse⟩) hno
    split_ifs with heq hsome
    · exact hfail
    · rfl
    · simp [hno] at hsome

end RenderBufferRegistry
end Sommelier
