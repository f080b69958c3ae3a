import Sommelier.State.Render

/-!
# Attachment replacement

What a commit's replacement of the attached buffer does to each entry of the registry, and
that a use which outlived its attachment stays recorded until the host gives it up.

## Main definitions

* `RenderBufferUse.submitted`, `RenderBufferUse.detached`: the use phase after each half.
* `UseOp`, `RenderBufferRegistry.run`: sequences of registry operations.

## Main results

* `RenderBufferRegistry.get_finalizeAttachment`: a replacement, entry by entry.
* `RenderBufferRegistry.replacement_keeps_detached_uses`: replacement is atomic, and over all
  sequences a detached use ends by a host release or by the host destructor only.
-/
namespace Sommelier

namespace RenderBufferUse

/-- The buffer is shown again; a use that is still awaited goes on. -/
def submitted : RenderBufferUse → RenderBufferUse
  | awaitingRelease hasDetachedUse => awaitingRelease hasDetachedUse
  | _ => awaitingRelease false

/-- A surface stopped showing the buffer while its use may still be awaited. -/
def detached : RenderBufferUse → RenderBufferUse
  | awaitingRelease _ => awaitingRelease true
  | use => use

end RenderBufferUse

/-- Change the use phase of a usable buffer; everything else of the entry stays. -/
def RenderBuffer.mapUse {β : Type} (f : RenderBufferUse → RenderBufferUse)
    (buffer : RenderBuffer β) : RenderBuffer β :=
  buffer.mapActive fun active => { active with useState := f active.useState }

namespace RenderBufferRegistry
variable {β : Type} {r : RenderBufferRegistry β} {hostId h : ℕ}

/-- The buffer is usable and the host has not released it yet. -/
def IsAwaiting (r : RenderBufferRegistry β) (hostId : ℕ) : Prop :=
  ∃ hasDetachedUse, r.useState hostId = some (.awaitingRelease hasDetachedUse)

/-- A use of the buffer outlived the attachment that began it. -/
def HasDetachedUse (r : RenderBufferRegistry β) (hostId : ℕ) : Prop :=
  r.useState hostId = some (.awaitingRelease true)

theorem useState_eq (r : RenderBufferRegistry β) (hostId : ℕ) :
    r.useState hostId = ((r.get hostId).bind RenderBuffer.active).map (·.useState) := rfl

theorem active_mapUse (f : RenderBufferUse → RenderBufferUse) (buffer : RenderBuffer β) :
    (buffer.mapUse f).active.map (·.useState) = (buffer.active.map (·.useState)).map f := by
  cases buffer <;> rfl

/-- A use phase follows the entry it is part of. -/
theorem useState_of_get_mapUse {r' : RenderBufferRegistry β} {f : RenderBufferUse → RenderBufferUse}
    (hget : r'.get h = (r.get h).map (RenderBuffer.mapUse f)) :
    r'.useState h = (r.useState h).map f := by
  rw [useState_eq, useState_eq, hget]
  cases r.get h with
  | none => rfl
  | some buffer => exact active_mapUse f buffer

theorem useState_of_get_eq {r' : RenderBufferRegistry β} (hget : r'.get h = r.get h) :
    r'.useState h = r.useState h := by
  rw [useState_eq, useState_eq, hget]

/-- Writing a use phase is a change of the entry's use. -/
theorem get_setUseState (use : RenderBufferUse) :
    (r.setUseState hostId use).get h =
      if h = hostId then (r.get h).map (RenderBuffer.mapUse fun _ => use) else r.get h :=
  Table.get_modify r hostId _ h

theorem mapUse_of_active {f g : RenderBufferUse → RenderBufferUse} {buffer : RenderBuffer β}
    (hfg : ∀ active, buffer.active = some active → f active.useState = g active.useState) :
    buffer.mapUse f = buffer.mapUse g := by
  cases buffer with
  | guestAlive active => simp [RenderBuffer.mapUse, RenderBuffer.mapActive, hfg active rfl]
  | guestDestroyed active => simp [RenderBuffer.mapUse, RenderBuffer.mapActive, hfg active rfl]
  | hostDestroyQueued => rfl

theorem mapUse_id (buffer : RenderBuffer β) : buffer.mapUse id = buffer := by
  cases buffer <;> rfl

/-- Two changes of a use that agree on the phase an entry is in change the entry alike. -/
theorem map_mapUse_congr {f g : RenderBufferUse → RenderBufferUse}
    (hfg : ∀ use, r.useState h = some use → f use = g use) :
    (r.get h).map (RenderBuffer.mapUse f) = (r.get h).map (RenderBuffer.mapUse g) := by
  cases hentry : r.get h with
  | none => rfl
  | some buffer =>
    refine congrArg some (mapUse_of_active fun active hactive => hfg _ ?_)
    simp [useState_eq, hentry, hactive]

/-- A change that fixes the phase an entry is in leaves the entry as it is. -/
theorem map_mapUse_fixed {f : RenderBufferUse → RenderBufferUse}
    (hfixed : ∀ use, r.useState h = some use → f use = use) :
    (r.get h).map (RenderBuffer.mapUse f) = r.get h := by
  rw [map_mapUse_congr (g := id) hfixed]
  cases r.get h <;> simp [mapUse_id]

/-- Writing the phase that `f` gives for the present one changes the entry by `f`. -/
theorem get_setUseState_self {f : RenderBufferUse → RenderBufferUse} {use use' : RenderBufferUse}
    (huse : r.useState h = some use) (hf : use' = f use) :
    (r.setUseState h use').get h = (r.get h).map (RenderBuffer.mapUse f) := by
  rw [get_setUseState, if_pos rfl]
  exact map_mapUse_congr (by simp [huse, hf])

theorem get_setUseState_other (use : RenderBufferUse) (hne : h ≠ hostId) :
    (r.setUseState hostId use).get h = r.get h := by
  rw [get_setUseState, if_neg hne]

theorem get_submit_self :
    (r.submit h).2.get h = (r.get h).map (RenderBuffer.mapUse .submitted) := by
  unfold submit
  cases huse : r.useState h with
  | none => exact (map_mapUse_fixed (by simp [huse])).symm
  | some use =>
    cases use with
    | neverSubmitted => exact get_setUseState_self huse rfl
    | awaitingRelease hasDetachedUse =>
      exact (map_mapUse_fixed (by simp [huse, RenderBufferUse.submitted])).symm
    | released => exact get_setUseState_self huse rfl

theorem get_submit_other (hne : h ≠ hostId) : (r.submit hostId).2.get h = r.get h := by
  unfold submit
  split <;> simp [get_setUseState_other, hne]

theorem get_detach_self :
    (r.detach h).2.get h = (r.get h).map (RenderBuffer.mapUse .detached) := by
  unfold detach
  cases huse : r.useState h with
  | none => exact (map_mapUse_fixed (by simp [huse])).symm
  | some use =>
    cases use with
    | neverSubmitted =>
      exact (map_mapUse_fixed (by simp [huse, RenderBufferUse.detached])).symm
    | awaitingRelease hasDetachedUse => exact get_setUseState_self huse rfl
    | released => exact (map_mapUse_fixed (by simp [huse, RenderBufferUse.detached])).symm

theorem get_detach_other (hne : h ≠ hostId) : (r.detach hostId).2.get h = r.get h := by
  unfold detach
  split <;> simp [get_setUseState_other, hne]

/-! ## One replacement -/

theorem get_onGeneration {op : RenderBufferRegistry β → ℕ → Bool × RenderBufferRegistry β}
    {f : RenderBufferUse → RenderBufferUse}
    (hself : ∀ r h, (op r h).2.get h = (r.get h).map (RenderBuffer.mapUse f))
    (hother : ∀ r hostId h, h ≠ hostId → (op r hostId).2.get h = r.get h)
    (r : RenderBufferRegistry β) (generation : Option ℕ) (h : ℕ) :
    (r.onGeneration op generation).2.get h =
      if generation = some h then (r.get h).map (RenderBuffer.mapUse f) else r.get h := by
  cases generation with
  | none => rfl
  | some hostId =>
    by_cases heq : h = hostId
    · subst heq
      simpa [onGeneration] using hself r h
    · simpa [onGeneration, Ne.symm heq] using hother r hostId h heq

theorem get_onGeneration_submit (r : RenderBufferRegistry β) (next : Option ℕ) (h : ℕ) :
    (r.onGeneration submit next).2.get h =
      if next = some h then (r.get h).map (RenderBuffer.mapUse .submitted) else r.get h :=
  get_onGeneration (fun _ _ => get_submit_self) (fun _ _ _ => get_submit_other) r next h

theorem get_onGeneration_detach (r : RenderBufferRegistry β) (previous : Option ℕ) (h : ℕ) :
    (r.onGeneration detach previous).2.get h =
      if previous = some h then (r.get h).map (RenderBuffer.mapUse .detached) else r.get h :=
  get_onGeneration (fun _ _ => get_detach_self) (fun _ _ _ => get_detach_other) r previous h

/-- A replacement that is refused changes nothing. -/
theorem finalizeAttachment_failed {previous next : Option ℕ}
    (hfail : (r.finalizeAttachment previous next).1 = false) :
    (r.finalizeAttachment previous next).2 = r := by
  rcases finalizeAttachment_cases (r := r) previous next with ⟨-, hok, -⟩ | ⟨-, hsame⟩
  · rw [hok] at hfail
    contradiction
  · rw [hsame]

/-- A replacement that is applied, entry by entry: the new buffer is submitted, the old one is
detached, and every other entry stays. -/
theorem get_finalizeAttachment {previous next : Option ℕ}
    (hok : (r.finalizeAttachment previous next).1 = true) (h : ℕ) :
    (r.finalizeAttachment previous next).2.get h =
      if next = some h then (r.get h).map (RenderBuffer.mapUse .submitted)
      else if previous = some h then (r.get h).map (RenderBuffer.mapUse .detached)
      else r.get h := by
  unfold finalizeAttachment at hok ⊢
  by_cases heq : previous = next
  · rw [if_pos heq, get_onGeneration_submit]
    simp only [heq]
    split_ifs <;> rfl
  · rw [if_neg heq] at hok ⊢
    split_ifs at hok with hcannot
    rw [if_neg hcannot]
    simp only at hok ⊢
    split_ifs at hok with hdetached
    rw [if_neg hdetached, get_onGeneration_submit, get_onGeneration_detach]
    by_cases hnext : next = some h
    · have hother : previous ≠ some h := fun hprev => heq (hprev.trans hnext.symm)
      simp [hnext, hother]
    · simp [hnext]

/-! ## Sequences of operations -/

/-- One operation on the registry. -/
inductive UseOp (β : Type)
  | registerLocal (hostId : ℕ) (backing : β)
  | registerNative (hostId : ℕ) (size : ℤ × ℤ)
  | submit (hostId : ℕ)
  | finalizeAttachment (previous next : Option ℕ)
  | detach (hostId : ℕ)
  | release (hostId : ℕ)
  | endLastSurfaceUse (hostId : ℕ) (hasOtherCurrent : Bool)
  | markGuestDestroyed (hostId : ℕ)
  | markHostDestroyQueued (hostId : ℕ)

/-- The registry after an operation, whether it was refused or not. -/
def apply (r : RenderBufferRegistry β) : UseOp β → RenderBufferRegistry β
  | .registerLocal hostId backing => (r.registerLocal hostId backing).2
  | .registerNative hostId size => (r.registerNative hostId size).2
  | .submit hostId => (r.submit hostId).2
  | .finalizeAttachment previous next => (r.finalizeAttachment previous next).2
  | .detach hostId => (r.detach hostId).2
  | .release hostId => (r.release hostId).2
  | .endLastSurfaceUse hostId hasOtherCurrent =>
    (r.endLastSurfaceUse hostId hasOtherCurrent).2
  | .markGuestDestroyed hostId => (r.markGuestDestroyed hostId).2
  | .markHostDestroyQueued hostId => (r.markHostDestroyQueued hostId).2

def run (r : RenderBufferRegistry β) (ops : List (UseOp β)) : RenderBufferRegistry β :=
  ops.foldl apply r

/-- The host gives the buffer up, or the proxy destroys it. -/
def UseOp.Settles (hostId : ℕ) : UseOp β → Prop
  | .release released => released = hostId
  | .markHostDestroyQueued queued => queued = hostId
  | _ => False

theorem get_some_of_useState {use : RenderBufferUse} (huse : r.useState h = some use) :
    r.get h ≠ none := by
  intro hnone
  simp [useState_eq, hnone] at huse

/-- A change of uses that keeps a detached use keeps it in the registry. -/
theorem HasDetachedUse.of_get_mapUse {r' : RenderBufferRegistry β}
    {f : RenderBufferUse → RenderBufferUse} (hr : r.HasDetachedUse h)
    (hf : f (.awaitingRelease true) = .awaitingRelease true)
    (hget : r'.get h = r.get h ∨ r'.get h = (r.get h).map (RenderBuffer.mapUse f)) :
    r'.HasDetachedUse h := by
  unfold HasDetachedUse at hr ⊢
  rcases hget with hget | hget
  · rw [useState_of_get_eq hget, hr]
  · rw [useState_of_get_mapUse hget, hr, Option.map_some, hf]

theorem HasDetachedUse.submit (hr : r.HasDetachedUse h) (hostId : ℕ) :
    (r.submit hostId).2.HasDetachedUse h := by
  refine hr.of_get_mapUse (f := .submitted) rfl ?_
  by_cases heq : h = hostId
  · subst heq
    exact .inr get_submit_self
  · exact .inl (get_submit_other heq)

theorem HasDetachedUse.detach (hr : r.HasDetachedUse h) (hostId : ℕ) :
    (r.detach hostId).2.HasDetachedUse h := by
  refine hr.of_get_mapUse (f := .detached) rfl ?_
  by_cases heq : h = hostId
  · subst heq
    exact .inr get_detach_self
  · exact .inl (get_detach_other heq)

/-- A replacement shows the buffer again, detaches it once more or leaves it alone. -/
theorem HasDetachedUse.finalizeAttachment (hr : r.HasDetachedUse h) (previous next : Option ℕ) :
    (r.finalizeAttachment previous next).2.HasDetachedUse h := by
  cases hok : (r.finalizeAttachment previous next).1 with
  | false =>
    rw [finalizeAttachment_failed hok]
    exact hr
  | true =>
    have hget := get_finalizeAttachment hok h
    split_ifs at hget
    · exact hr.of_get_mapUse rfl (.inr hget)
    · exact hr.of_get_mapUse rfl (.inr hget)
    · exact hr.of_get_mapUse (f := id) rfl (.inl hget)

/-- The last surface that showed the buffer is gone, but an earlier use is still awaited. -/
theorem HasDetachedUse.endLastSurfaceUse (hr : r.HasDetachedUse h) (hostId : ℕ)
    (hasOtherCurrent : Bool) : (r.endLastSurfaceUse hostId hasOtherCurrent).2.HasDetachedUse h := by
  by_cases heq : h = hostId
  · subst heq
    have hsame : (r.endLastSurfaceUse h hasOtherCurrent).2 = r := by
      unfold RenderBufferRegistry.endLastSurfaceUse
      cases hasOtherCurrent <;> simp [show r.useState h = _ from hr]
    rw [hsame]
    exact hr
  · have hsame := (useState_endLastSurfaceUse r hostId hasOtherCurrent h).resolve_right
      fun hother => heq hother.1
    exact hsame.trans hr

theorem HasDetachedUse.registerBacking (hr : r.HasDetachedUse h) (hostId : ℕ)
    (backing : RenderBufferBacking β) :
    (r.registerBacking hostId backing).2.HasDetachedUse h := by
  unfold RenderBufferRegistry.registerBacking
  cases hentry : r.get hostId with
  | none =>
    have hne : h ≠ hostId := fun heq => get_some_of_useState hr (heq ▸ hentry)
    exact (useState_of_get_eq (by simp [hne])).trans hr
  | some buffer => exact hr

/-- Buffers whose guest object is gone keep their storage, and with it their uses. -/
theorem HasDetachedUse.markGuestDestroyed (hr : r.HasDetachedUse h) (hostId : ℕ) :
    (r.markGuestDestroyed hostId).2.HasDetachedUse h := by
  unfold RenderBufferRegistry.markGuestDestroyed
  split
  · rename_i buffer hentry
    by_cases heq : h = hostId
    · subst heq
      unfold HasDetachedUse at hr ⊢
      simpa [useState_eq, hentry, RenderBuffer.active] using hr
    · exact (useState_of_get_eq (by simp [heq])).trans hr
  · exact hr

theorem HasDetachedUse.markHostDestroyQueued (hr : r.HasDetachedUse h) {hostId : ℕ}
    (hne : hostId ≠ h) : (r.markHostDestroyQueued hostId).2.HasDetachedUse h := by
  unfold RenderBufferRegistry.markHostDestroyQueued
  split
  · exact hr
  · exact hr
  · exact (useState_of_get_eq (by simp [hne.symm])).trans hr

theorem HasDetachedUse.release (hr : r.HasDetachedUse h) {hostId : ℕ} (hne : hostId ≠ h) :
    (r.release hostId).2.HasDetachedUse h :=
  (useState_of_get_eq (get_release_other hne.symm)).trans hr

/-- One operation that does not settle the buffer keeps its detached use. -/
theorem HasDetachedUse.apply (hr : r.HasDetachedUse h) {op : UseOp β} (hop : ¬ op.Settles h) :
    (r.apply op).HasDetachedUse h := by
  cases op with
  | registerLocal hostId backing => exact hr.registerBacking hostId (.localCopy backing)
  | registerNative hostId size => exact hr.registerBacking hostId (.native size)
  | submit hostId => exact hr.submit hostId
  | finalizeAttachment previous next => exact hr.finalizeAttachment previous next
  | detach hostId => exact hr.detach hostId
  | release hostId => exact hr.release hop
  | endLastSurfaceUse hostId hasOtherCurrent => exact hr.endLastSurfaceUse hostId hasOtherCurrent
  | markGuestDestroyed hostId => exact hr.markGuestDestroyed hostId
  | markHostDestroyQueued hostId => exact hr.markHostDestroyQueued hop

theorem HasDetachedUse.run (hr : r.HasDetachedUse h) {ops : List (UseOp β)}
    (hops : ∀ op ∈ ops, ¬ op.Settles h) : (r.run ops).HasDetachedUse h := by
  induction ops generalizing r with
  | nil => exact hr
  | cons op ops ih =>
    refine ih (hr.apply (hops op (by simp))) fun op' hop' => hops op' (by simp [hop'])

theorem IsAwaiting.detached (hr : r.IsAwaiting h) :
    (r.useState h).map RenderBufferUse.detached = some (.awaitingRelease true) := by
  obtain ⟨hasDetachedUse, huse⟩ := hr
  rw [huse]
  rfl

/-- A buffer the host does not hold has no use that could be detached. -/
theorem map_detached_of_not_awaiting (hr : ¬ r.IsAwaiting h) :
    (r.get h).map (RenderBuffer.mapUse .detached) = r.get h := by
  refine map_mapUse_fixed fun use huse => ?_
  cases use with
  | awaitingRelease hasDetachedUse => exact absurd ⟨hasDetachedUse, huse⟩ hr
  | neverSubmitted => rfl
  | released => rfl

/-- What a replacement does to the buffer it shows. -/
theorem finalizeAttachment_next {previous : Option ℕ} {n : ℕ}
    (hok : (r.finalizeAttachment previous (some n)).1 = true) :
    (r.finalizeAttachment previous (some n)).2.IsAwaiting n := by
  rcases finalizeAttachment_cases (r := r) previous (some n) with ⟨-, -, hnext, -⟩ | ⟨-, hsame⟩
  · exact hnext n rfl
  · rw [hsame] at hok
    contradiction

/-- Refused replacements change nothing. An applied one makes the new buffer await its
release, records a detached use of the old one if it was still awaited, and changes no
other entry; and a detached use ends only by a release of the host or by the destructor. -/
theorem replacement_keeps_detached_uses (r : RenderBufferRegistry β) :
    (∀ previous next, (r.finalizeAttachment previous next).1 = false →
      (r.finalizeAttachment previous next).2 = r) ∧
    (∀ previous next, (r.finalizeAttachment previous next).1 = true →
      (∀ n, next = some n → (r.finalizeAttachment previous next).2.IsAwaiting n ∧
        (r.finalizeAttachment previous next).2.get n =
          (r.get n).map (RenderBuffer.mapUse .submitted)) ∧
      (∀ p, previous = some p → previous ≠ next →
        (r.IsAwaiting p → (r.finalizeAttachment previous next).2.HasDetachedUse p ∧
          (r.finalizeAttachment previous next).2.get p =
            (r.get p).map (RenderBuffer.mapUse .detached)) ∧
        (¬ r.IsAwaiting p → (r.finalizeAttachment previous next).2.get p = r.get p)) ∧
      ∀ h, previous ≠ some h → next ≠ some h →
        (r.finalizeAttachment previous next).2.get h = r.get h) ∧
    ∀ ops h, r.HasDetachedUse h → (∀ op ∈ ops, ¬ UseOp.Settles h op) →
      (r.run ops).HasDetachedUse h := by
  refine ⟨fun previous next => finalizeAttachment_failed, fun previous next hok => ?_,
    fun ops h hr hops => hr.run hops⟩
  refine ⟨?_, ?_, fun h hprevious hnext => ?_⟩
  · rintro n rfl
    exact ⟨finalizeAttachment_next hok, by rw [get_finalizeAttachment hok, if_pos rfl]⟩
  · rintro p rfl hne
    have hget : (r.finalizeAttachment (some p) next).2.get p =
        (r.get p).map (RenderBuffer.mapUse .detached) := by
      rw [get_finalizeAttachment hok, if_neg hne.symm, if_pos rfl]
    refine ⟨fun hawaiting => ⟨?_, hget⟩, fun hawaiting => ?_⟩
    · exact (useState_of_get_mapUse hget).trans hawaiting.detached
    · exact hget.trans (map_detached_of_not_awaiting hawaiting)
  · rw [get_finalizeAttachment hok, if_neg hnext, if_neg hprevious]

end RenderBufferRegistry
end Sommelier
