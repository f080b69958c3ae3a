import Sommelier.Handler.TextInput
import Sommelier.Lib.Exclusion
import Sommelier.Lib.Transition

/-!
# One text input for each seat

A session as the text inputs see it: the requests of the guest, the focus of the keyboards, the
events of the host objects and the callbacks of the barriers, in any order. At any time at most
one text input of a seat is enabled, and at most one is active on the host.

## Main definitions

* `InputMessage`, `inputSystem`: the messages, and the system.
* `InputContext.Exclusive`: the invariant, with the text inputs still to be reconciled.
* `text_input_exclusivity`: at most one for each seat.
-/
namespace Sommelier

inductive InputMessage
  -- requests of the guest
  | getTextInput (id seat : ℕ)
  | destroyTextInput (textInput : ℕ)
  | enable (textInput : ℕ)
  | disable (textInput : ℕ)
  | setSurroundingText (textInput : ℕ) (text : String) (cursor anchor : ℤ)
  | setTextChangeCause (textInput cause : ℕ)
  | setContentType (textInput hint purpose : ℕ)
  | setCursorRectangle (textInput : ℕ) (x y width height : ℤ)
  | commitTextInput (textInput : ℕ)
  | releaseKeyboard (guestKeyboard : ℕ)
  | destroySurface (guestSurface : ℕ)
  -- events of the host
  | keyboardEnter (hostKeyboard hostSurface : ℕ)
  | keyboardLeave (hostKeyboard hostSurface : ℕ)
  | callbackDone (callback : ℕ)
  | preeditStyling (hostId index length style : ℕ)
  | preeditCursor (hostId : ℕ) (index : ℤ)
  | cursorPosition (hostId : ℕ) (index anchor : ℤ)
  | deleteSurroundingText (hostId : ℕ) (index : ℤ) (length : ℕ)
  | preeditString (hostId : ℕ) (text commit : String)
  | commitString (hostId : ℕ) (text : String)
  | setPreeditRegion (hostExtId : ℕ) (index : ℤ) (length : ℕ)
  | confirmPreedit (hostExtId : ℕ) (recovered : List QueuedMessage)
  -- what any other handler does to the state it shares with the text inputs
  | other (shadowTable : ShadowTable) (keyboardToSeat : Table ℕ ℕ) (manager extension : Option ℕ)

namespace InputContext

/-- The handler of a message; `none` is a panic. -/
def handle (c : InputContext) : InputMessage → Option InputContext
  | .getTextInput id seat => onGetTextInput c id seat
  | .destroyTextInput textInput => onDestroyTextInput c textInput
  | .enable textInput => some (onEnable c textInput)
  | .disable textInput => some (onDisable c textInput)
  | .setSurroundingText textInput text cursor anchor =>
    some (onSetSurroundingText c textInput text cursor anchor)
  | .setTextChangeCause textInput cause => some (onSetTextChangeCause c textInput cause)
  | .setContentType textInput hint purpose => some (onSetContentType c textInput hint purpose)
  | .setCursorRectangle textInput x y width height =>
    some (onSetCursorRectangle c textInput x y width height)
  | .commitTextInput textInput => onCommitTextInput c textInput
  | .releaseKeyboard guestKeyboard => onKeyboardRelease c guestKeyboard
  | .destroySurface guestSurface => onSurfaceDestroyed c guestSurface
  | .keyboardEnter hostKeyboard hostSurface => onKeyboardEnter c hostKeyboard hostSurface
  | .keyboardLeave hostKeyboard hostSurface => onKeyboardLeave c hostKeyboard hostSurface
  | .callbackDone callback => (completeHostActivationBarrier c callback).map Prod.snd
  | .preeditStyling hostId index length style => some (onPreeditStyling c hostId index length style)
  | .preeditCursor hostId index => some (onPreeditCursor c hostId index)
  | .cursorPosition hostId index anchor => some (onCursorPosition c hostId index anchor)
  | .deleteSurroundingText hostId index length =>
    some (onDeleteSurroundingText c hostId index length)
  | .preeditString hostId text commit => some (onPreeditString c hostId text commit)
  | .commitString hostId text => some (onCommitString c hostId text)
  | .setPreeditRegion hostExtId index length => some (onSetPreeditRegion c hostExtId index length)
  | .confirmPreedit hostExtId recovered => some (onConfirmPreedit c hostExtId recovered)
  | .other shadowTable keyboardToSeat manager extension =>
    some { c with
      shadowTable
      keyboardToSeat
      hostTextInputManagerV1Id := manager
      hostTextInputExtensionV1Id := extension }

end InputContext

/-- Sessions with any number of text inputs and seats; a fatal error ends a session. -/
def inputSystem : TransitionSystem InputContext InputMessage where
  init c := c = .new
  step c m := (c.handle m).bind fun c => if c.fatalProtocolError then none else some c

/-! ## The invariant -/

namespace InputContext
variable {c c' : InputContext} {pending : List ℕ} {i : ℕ}

/-- At most one text input of a seat is enabled, and every active one is enabled except those
still to be reconciled, unless the session is over. -/
structure Reconciled (pending : List ℕ) (c : InputContext) : Prop where
  enabled : Exclusive TextInputState.guestSeat TextInputState.committedEnabled c.textInputs
  active : c.fatalProtocolError = false → ∀ i s, c.textInputs.get i = some s → i ∉ pending →
    s.hostIsActive = true → s.committedEnabled = true

theorem Reconciled.mono (hc : c.Reconciled pending) {pending' : List ℕ}
    (h : pending ⊆ pending') : c.Reconciled pending' :=
  ⟨hc.enabled, fun hlive i s hs hi => hc.active hlive i s hs fun hmem => hi (h hmem)⟩

/-- Update a text input that is still to be reconciled; it is not enabled by the update. -/
theorem Reconciled.lower (hc : c.Reconciled pending) (hi : i ∈ pending)
    {f : TextInputState → TextInputState} (hseat : ∀ s, (f s).guestSeat = s.guestSeat)
    (henabled : ∀ s, (f s).committedEnabled = true → s.committedEnabled = true) :
    (c.onTextInput i f).Reconciled pending where
  enabled := hc.enabled.lower (lowers_modify f hseat henabled)
  active hlive j s hs hj := by
    simp only [onTextInput, Table.get_modify] at hs
    rw [if_neg fun heq : j = i => hj (heq ▸ hi)] at hs
    exact hc.active hlive j s hs hj

/-- An update of the part of a text input that its seat does not depend on. -/
structure IsEdit (f : TextInputState → TextInputState) : Prop where
  seat : ∀ s, (f s).guestSeat = s.guestSeat := by exact fun _ => rfl
  enabled : ∀ s, (f s).committedEnabled = s.committedEnabled := by exact fun _ => rfl
  activation : ∀ s, (f s).hostActivation = s.hostActivation := by exact fun _ => rfl

theorem Reconciled.edit {f : TextInputState → TextInputState} (hc : c.Reconciled pending)
    (hf : IsEdit f) (i : ℕ) : (c.onTextInput i f).Reconciled pending where
  enabled := hc.enabled.lower (lowers_modify f hf.seat fun s h => hf.enabled s ▸ h)
  active hlive j s hs hj hs' := by
    simp only [onTextInput, Table.get_modify] at hs
    split_ifs at hs
    · obtain ⟨s₀, hs₀, rfl⟩ := Option.map_eq_some_iff.mp hs
      rw [TextInputState.hostIsActive, hf.activation] at hs'
      rw [hf.enabled]
      exact hc.active hlive j s₀ hs₀ hj hs'
    · exact hc.active hlive j s hs hj hs'

/-! ## Host activation -/

/-- Only the activation of one text input changed, and it is active only when it is enabled. -/
structure Reactivates (i : ℕ) (c c' : InputContext) : Prop where
  other : ∀ j, j ≠ i → c'.textInputs.get j = c.textInputs.get j
  self : ∀ s', c'.textInputs.get i = some s' → ∃ s, c.textInputs.get i = some s ∧
    s.guestSeat = s'.guestSeat ∧ s.committedEnabled = s'.committedEnabled
  fatal : c.fatalProtocolError = true → c'.fatalProtocolError = true
  active : c'.fatalProtocolError = false → ∀ s', c'.textInputs.get i = some s' →
    s'.hostIsActive = true → s'.committedEnabled = true

/-- The update settles the text input it is about. -/
theorem Reactivates.reconciled (h : Reactivates i c c') (hc : c.Reconciled (i :: pending)) :
    c'.Reconciled pending where
  enabled := by
    refine hc.enabled.lower fun j s' hs' hflag => ?_
    by_cases heq : j = i
    · subst heq
      obtain ⟨s, hs, hseat, henabled⟩ := h.self s' hs'
      exact ⟨s, hs, hseat, henabled.trans hflag⟩
    · rw [h.other j heq] at hs'
      exact ⟨s', hs', rfl, hflag⟩
  active hlive j s' hs' hj hactive := by
    by_cases heq : j = i
    · subst heq
      exact h.active hlive s' hs' hactive
    · rw [h.other j heq] at hs'
      refine hc.active ?_ j s' hs' (by simp [heq, hj]) hactive
      cases hfatal : c.fatalProtocolError with
      | false => rfl
      | true => rw [h.fatal hfatal] at hlive; cases hlive

/-- Set the activation of a text input, to one that is not active unless it is enabled. -/
theorem Reactivates.set {s : TextInputState} (hs : c.textInputs.get i = some s)
    (s' : TextInputState)
    (htable : c'.textInputs = c.textInputs.set i s')
    (hfatal : c.fatalProtocolError = true → c'.fatalProtocolError = true)
    (hseat : s.guestSeat = s'.guestSeat) (henabled : s.committedEnabled = s'.committedEnabled)
    (hactive : s'.hostIsActive = true → s'.committedEnabled = true) : Reactivates i c c' where
  other j hne := by simp [htable, hne]
  self s'' hs'' := by
    simp only [htable, Table.get_set, if_true, Option.some.injEq] at hs''
    exact ⟨s, hs, hs'' ▸ hseat, hs'' ▸ henabled⟩
  fatal := hfatal
  active _ s'' hs'' := by
    simp only [htable, Table.get_set, if_true, Option.some.injEq] at hs''
    exact hs'' ▸ hactive

/-- Leave the text inputs alone, when the one in question is settled or the session ends. -/
theorem Reactivates.keep (htable : c'.textInputs = c.textInputs)
    (hfatal : c.fatalProtocolError = true → c'.fatalProtocolError = true)
    (hactive : c'.fatalProtocolError = false → ∀ s, c.textInputs.get i = some s →
      s.hostIsActive = true → s.committedEnabled = true) : Reactivates i c c' where
  other j _ := by rw [htable]
  self s' hs' := ⟨s', htable ▸ hs', rfl, rfl⟩
  fatal := hfatal
  active hlive s' hs' := hactive hlive s' (htable ▸ hs')

end InputContext

open InputContext

section
variable {c c' : InputContext} {pending : List ℕ} {i hostV1Id hostSeat : ℕ}

theorem reactivates_barrier (h : queueHostDeactivationBarrier c i hostV1Id hostSeat = some c')
    {s : TextInputState} (hs : c.textInputs.get i = some s) : Reactivates i c c' := by
  unfold queueHostDeactivationBarrier at h
  obtain ⟨⟨callback, shadowTable⟩, -, h⟩ := Option.bind_eq_some_iff.mp h
  simp only [hs] at h
  split_ifs at h with hinstalled
  · obtain rfl := Option.some.inj h
    exact .keep rfl (fun _ => rfl) fun hlive => by cases hlive
  · cases hdrain : s.beginHostDraining callback with
    | none =>
      simp only [hdrain] at h
      obtain rfl := Option.some.inj h
      exact .keep rfl (fun _ => rfl) fun hlive => by cases hlive
    | some s' =>
      simp only [hdrain] at h
      obtain rfl := Option.some.inj h
      obtain ⟨-, rfl⟩ := TextInputState.moveActivation_eq_some hdrain
      exact .set hs _ rfl (fun h => h) rfl rfl fun hactive => by cases hactive

/-- Move the activation as far as it is in the given state, to one that is not active unless the
text input is enabled. -/
theorem reactivates_move {source target : HostActivationState} {s : TextInputState}
    (hs : c.textInputs.get i = some s) (hsource : s.hostActivation = source)
    (htarget : target = .active → s.committedEnabled = true) {c₁ : InputContext}
    (htable : c₁.textInputs = c.textInputs)
    (hfatal : c₁.fatalProtocolError = c.fatalProtocolError) :
    Reactivates i c (c₁.onTextInput i fun s => (s.moveActivation source target).getD s) := by
  refine .set hs { s with hostActivation := target } ?_ (fun h => ?_) rfl rfl fun h => ?_
  · simp [onTextInput, Table.modify, htable, hs, TextInputState.moveActivation, hsource]
  · exact hfatal.trans h
  · exact htarget (by simpa [TextInputState.hostIsActive] using h)

/-- After the reconciliation a text input is active on the host only when it is enabled. -/
theorem reactivates_updateHostActivation (h : updateHostActivation c i = some c') :
    Reactivates i c c' := by
  unfold updateHostActivation at h
  cases hs : c.textInputs.get i with
  | none =>
    simp only [hs] at h
    obtain rfl := Option.some.inj h
    exact .keep rfl (fun h => h) fun _ s hs' => by rw [hs] at hs'; cases hs'
  | some s =>
    simp only [hs] at h
    set surface := s.activeSurface.bind c.shadowTable.getHostId
    -- Nothing happens only when an active input is still wanted.
    have hkeep : (s.hostIsActive = true → s.committedEnabled = true) → Reactivates i c c :=
      fun hactive => .keep rfl (fun h => h) fun _ s' hs' => by
        rw [hs] at hs'
        exact Option.some.inj hs' ▸ hactive
    have hdrop : s.hostActivation = .active → Reactivates i c
        (c.onTextInput i fun s => s.deactivateHostWithoutBarrier.getD s) :=
      fun hactive => reactivates_move hs hactive (by simp) rfl rfl
    by_cases htarget : (s.committedEnabled && surface.isSome) = true
    · have henabled := (Bool.and_eq_true_iff.mp htarget).1
      simp only [htarget, Bool.true_and, Bool.not_true, Bool.false_and, Bool.or_false,
        beq_iff_eq, if_true] at h
      split_ifs at h with hinactive hdying
      · obtain rfl := Option.some.inj h
        refine .set hs s ?_ (fun h => h) rfl rfl fun _ => henabled
        simp [onTextInput, Table.modify, hs, TextInputState.deactivateHostWithoutBarrier,
          TextInputState.moveActivation, hinactive]
      · split at h
        · obtain rfl := Option.some.inj h
          exact hkeep fun _ => henabled
        · obtain rfl := Option.some.inj h
          exact reactivates_move hs hinactive (fun _ => henabled) rfl rfl
      · obtain rfl := Option.some.inj h
        exact hkeep fun _ => henabled
    · rw [Bool.not_eq_true] at htarget
      simp only [htarget, Bool.false_and, Bool.not_false, Bool.true_and, Bool.false_or,
        beq_iff_eq, Bool.false_eq_true, if_false] at h
      split_ifs at h with hactive hdying
      · obtain rfl := Option.some.inj h
        exact hdrop hactive
      · split at h
        · obtain rfl := Option.some.inj h
          exact hdrop hactive
        · exact reactivates_barrier h hs
      · obtain rfl := Option.some.inj h
        exact hkeep fun h => absurd (by simpa [TextInputState.hostIsActive] using h) hactive

/-! ## Focus -/

theorem reconciled_updates {ids : List ℕ} (hc : c.Reconciled ids)
    (h : ids.foldlM updateHostActivation c = some c') : c'.Reconciled [] := by
  induction ids generalizing c with
  | nil =>
    obtain rfl := Option.some.inj h
    exact hc
  | cons i ids ih =>
    rw [List.foldlM_cons] at h
    obtain ⟨c₁, h₁, h⟩ := Option.bind_eq_some_iff.mp h
    exact ih ((reactivates_updateHostActivation h₁).reconciled hc) h

theorem reconciled_applyFocus {update : ℕ × Option ℕ} (hc : c.Reconciled pending)
    (hi : update.1 ∈ pending) : (applyTextInputFocus c update).Reconciled pending := by
  unfold applyTextInputFocus
  split
  · exact hc
  · exact Reconciled.lower (c := c.toGuest _) ⟨hc.enabled, hc.active⟩ hi (fun _ => rfl)
      fun _ h => by cases h

/-- Moving the focus of some text inputs leaves all of them reconciled. -/
theorem reconciled_focusUpdates {updates : List (ℕ × Option ℕ)} (hc : c.Reconciled [])
    (h : applyTextInputFocusUpdates c updates = some c') : c'.Reconciled [] := by
  have hfold : ∀ (rest : List (ℕ × Option ℕ)) (c : InputContext),
      c.Reconciled (updates.map Prod.fst) → (∀ update ∈ rest, update ∈ updates) →
      (rest.foldl applyTextInputFocus c).Reconciled (updates.map Prod.fst) := by
    intro rest
    induction rest with
    | nil => exact fun c hc _ => hc
    | cons update rest ih =>
      intro c hc hrest
      refine ih _ (reconciled_applyFocus hc ?_) fun u hu => hrest u (List.mem_cons_of_mem _ hu)
      exact List.mem_map_of_mem (hrest update List.mem_cons_self)
  exact reconciled_updates (hfold updates c (hc.mono (List.nil_subset _)) fun _ hu => hu) h

theorem reconciled_focusChanges {changes : List SeatFocusChange} (hc : c.Reconciled [])
    (h : applyKeyboardFocusChanges c changes = some c') : c'.Reconciled [] := by
  unfold applyKeyboardFocusChanges at h
  induction changes generalizing c with
  | nil =>
    obtain rfl := Option.some.inj h
    exact hc
  | cons change changes ih =>
    rw [List.foldlM_cons] at h
    obtain ⟨c₁, h₁, h⟩ := Option.bind_eq_some_iff.mp h
    refine ih ?_ h
    unfold applyKeyboardFocusChange at h₁
    split_ifs at h₁
    · exact Option.some.inj h₁ ▸ hc
    · exact reconciled_focusUpdates hc h₁

/-! ## Requests of the guest -/

theorem reconciled_getTextInput {id seat : ℕ} (hc : c.Reconciled [])
    (h : onGetTextInput c id seat = some c') : c'.Reconciled [] := by
  -- A new text input is neither enabled nor active.
  have hset : ∀ (c : InputContext) (hostV1Id : ℕ) (hostExtId surface : Option ℕ),
      c.Reconciled [] → Reconciled [] { c with
        textInputs := c.textInputs.set id (.new hostV1Id hostExtId seat surface) } := by
    refine fun c hostV1Id hostExtId surface hc => ⟨hc.enabled.lower (lowers_set rfl), ?_⟩
    intro hlive j s hs hj hactive
    simp only [Table.get_set] at hs
    split_ifs at hs
    · obtain rfl := Option.some.inj hs
      cases hactive
    · exact hc.active hlive j s hs hj hactive
  unfold onGetTextInput at h
  split at h
  · exact Option.some.inj h ▸ hc
  · obtain ⟨⟨hostV1Id, shadowTable⟩, -, h⟩ := Option.bind_eq_some_iff.mp h
    obtain ⟨⟨hostExtId, c₁⟩, h₁, rfl⟩ := Option.map_eq_some_iff.mp h
    have hc₁ : c₁.Reconciled [] := by
      unfold getExtendedTextInput at h₁
      split at h₁
      · obtain ⟨-, rfl⟩ := Prod.mk.inj (Option.some.inj h₁)
        exact ⟨hc.enabled, hc.active⟩
      · obtain ⟨⟨hostExtId', shadowTable'⟩, -, h₁⟩ := Option.bind_eq_some_iff.mp h₁
        obtain ⟨-, rfl⟩ := Prod.mk.inj (Option.some.inj h₁)
        exact ⟨hc.enabled, hc.active⟩
    have hnew := hset c₁ hostV1Id hostExtId (c₁.keyboardFocus.surfaceForSeat seat) hc₁
    exact ⟨hnew.enabled, hnew.active⟩

/-- A commit enables a text input only when no other one of its seat is enabled. -/
theorem finishGuestCommit_enabled (s : TextInputState) (conflict : Bool) :
    (s.finishGuestCommit (s.prepareGuestCommit conflict)).committedEnabled =
      if s.enabledDirty && !conflict then s.pendingEnabled else s.committedEnabled := by
  cases hdirty : s.enabledDirty <;> cases conflict <;>
    simp [TextInputState.finishGuestCommit, TextInputState.finishEnabled,
      TextInputState.prepareGuestCommit, hdirty]

theorem finishGuestCommit_seat (s : TextInputState) (plan : GuestCommitPlan) :
    (s.finishGuestCommit plan).guestSeat = s.guestSeat := by
  cases hresets : plan.resetsComposition <;>
    simp [TextInputState.finishGuestCommit, TextInputState.finishEnabled,
      TextInputState.clearHostComposition, hresets]

theorem reconciled_commit (hc : c.Reconciled []) (h : onCommitTextInput c i = some c') :
    c'.Reconciled [] := by
  unfold onCommitTextInput at h
  split_ifs at h
  · exact Option.some.inj h ▸ hc
  split at h
  · exact Option.some.inj h ▸ hc
  next s hs =>
    dsimp only at h
    split at h
    · exact Option.some.inj h ▸ hc
    · obtain ⟨c₁, h₁, rfl⟩ := Option.map_eq_some_iff.mp h
      set conflict := enableConflicts c i s with hconflict
      set s' := s.finishGuestCommit (s.prepareGuestCommit conflict) with hs'
      have hseat : s'.guestSeat = s.guestSeat := finishGuestCommit_seat s _
      have hset : c.textInputs.modify i
          (TextInputState.finishGuestCommit (s.prepareGuestCommit conflict)) =
          c.textInputs.set i s' := by simp [Table.modify, hs, hs']
      -- When the commit enables the input, no other one of the seat is enabled.
      have hother : s'.committedEnabled = true → ∀ j o, c.textInputs.get j = some o → j ≠ i →
          o.guestSeat = s'.guestSeat → o.committedEnabled = false := by
        intro henabled j o ho hne hsame
        rw [hs', finishGuestCommit_enabled] at henabled
        cases hflag : o.committedEnabled with
        | false => rfl
        | true =>
          exfalso
          split_ifs at henabled with hfresh
          · obtain ⟨hdirty, hfree⟩ := Bool.and_eq_true_iff.mp hfresh
            have hsome : enableConflicts c i s = true := by
              simp only [enableConflicts, hdirty, henabled, Bool.and_self, Bool.true_and,
                Table.any_eq_true]
              exact ⟨j, o, ho, by simp [hne, hsame.trans hseat, hflag]⟩
            rw [← hconflict] at hsome
            simp [hsome] at hfree
          · exact hne (hc.enabled j i o s ho hs (hsame.trans hseat) hflag henabled)
      have hpublished : (c.onTextInput i (TextInputState.finishGuestCommit
          (s.prepareGuestCommit conflict))).Reconciled [i] := by
        refine ⟨?_, fun hlive j o ho hj hactive => ?_⟩
        · change Exclusive _ _ (c.textInputs.modify i _)
          rw [hset]
          cases henabled : s'.committedEnabled with
          | false => exact hc.enabled.lower (lowers_set henabled)
          | true => exact hc.enabled.raise (hother henabled)
        · simp only [onTextInput, Table.get_modify] at ho
          rw [if_neg (by simpa using hj)] at ho
          exact hc.active hlive j o ho List.not_mem_nil hactive
      have hdone := (reactivates_updateHostActivation h₁).reconciled hpublished
      exact ⟨hdone.enabled, hdone.active⟩

theorem reconciled_retire (hc : c.Reconciled []) : (retireTextInput c i).Reconciled [] := by
  unfold retireTextInput queueGuestDeleteId
  split_ifs
  · exact hc
  · exact ⟨hc.enabled, hc.active⟩

theorem reconciled_destroy (hc : c.Reconciled []) (h : onDestroyTextInput c i = some c') :
    c'.Reconciled [] := by
  obtain ⟨c₁, h₁, rfl⟩ := Option.map_eq_some_iff.mp h
  have hdestroyed : (c.onTextInput i TextInputState.beginDestroy).Reconciled [i] :=
    (hc.mono (List.nil_subset [i])).lower List.mem_cons_self (fun _ => rfl) fun _ h => by cases h
  have hc₁ := (reactivates_updateHostActivation h₁).reconciled hdestroyed
  have herased : Reconciled [] { c₁ with textInputs := c₁.textInputs.erase i } := by
    refine ⟨hc₁.enabled.lower lowers_erase, fun hlive j s hs hj hactive => ?_⟩
    simp only [Table.get_erase] at hs
    split_ifs at hs
    exact hc₁.active hlive j s hs hj hactive
  dsimp only
  split
  · exact reconciled_retire hc₁
  · refine reconciled_retire ?_
    split
    · exact herased
    · exact ⟨herased.enabled, herased.active⟩

theorem reconciled_onFocused {f : TextInputState → TextInputState} (hc : c.Reconciled [])
    (hf : IsEdit f) : (onFocused c i f).Reconciled [] := by
  unfold onFocused
  split_ifs
  · exact hc.edit hf i
  · exact hc

theorem reconciled_onActive {f : TextInputState → TextInputState} {hostId : ℕ}
    (hc : c.Reconciled []) (hf : IsEdit f) : (onActive c hostId f).Reconciled [] := by
  unfold onActive
  split
  · exact hc
  · exact hc.edit hf _

theorem reconciled_compose {f : TextInputState → TextInputState} {messages : List QueuedMessage}
    (hc : c.Reconciled []) (hf : IsEdit f) : (compose c i messages f).Reconciled [] := by
  unfold compose
  split
  · exact hc
  · have hedit := hc.edit hf i
    exact ⟨hedit.enabled, hedit.active⟩

theorem reconciled_callback {callback : ℕ} {done : Bool} (hc : c.Reconciled [])
    (h : completeHostActivationBarrier c callback = some (done, c')) : c'.Reconciled [] := by
  unfold completeHostActivationBarrier at h
  split at h
  · obtain ⟨-, rfl⟩ := Prod.mk.inj (Option.some.inj h)
    exact hc
  next guestId hostV1Id _ =>
    dsimp only at h
    split at h
    · obtain ⟨-, rfl⟩ := Prod.mk.inj (Option.some.inj h)
      exact ⟨hc.enabled, hc.active⟩
    next s' hs' =>
      obtain ⟨c₁, h₁, heq⟩ := Option.map_eq_some_iff.mp h
      obtain ⟨-, rfl⟩ := Prod.mk.inj heq
      obtain ⟨s, hs, hdrained⟩ := Option.bind_eq_some_iff.mp hs'
      split_ifs at hdrained
      obtain ⟨-, rfl⟩ := TextInputState.moveActivation_eq_some hdrained
      refine (reactivates_updateHostActivation h₁).reconciled ⟨?_, fun hlive j o ho hj => ?_⟩
      · refine hc.enabled.lower fun j o ho hflag => ?_
        simp only [Table.get_set] at ho
        split_ifs at ho with heq
        · obtain rfl := Option.some.inj ho
          exact ⟨s, heq ▸ hs, rfl, hflag⟩
        · exact ⟨o, ho, rfl, hflag⟩
      · simp only [Table.get_set] at ho
        rw [if_neg (by simpa using hj)] at ho
        exact hc.active hlive j o ho List.not_mem_nil

theorem reconciled_handle {m : InputMessage} (hc : c.Reconciled [])
    (h : c.handle m = some c') : c'.Reconciled [] := by
  cases m with
  | getTextInput id seat => exact reconciled_getTextInput hc h
  | destroyTextInput textInput => exact reconciled_destroy hc h
  | enable textInput =>
    obtain rfl := Option.some.inj h
    exact reconciled_onFocused hc {}
  | disable textInput =>
    obtain rfl := Option.some.inj h
    exact reconciled_onFocused hc {}
  | setSurroundingText textInput text cursor anchor =>
    obtain rfl := Option.some.inj h
    unfold onSetSurroundingText
    split_ifs
    · exact reconciled_onFocused hc {}
    · exact hc
  | setTextChangeCause textInput cause =>
    obtain rfl := Option.some.inj h
    exact reconciled_onFocused hc {}
  | setContentType textInput hint purpose =>
    obtain rfl := Option.some.inj h
    exact reconciled_onFocused hc {}
  | setCursorRectangle textInput x y width height =>
    obtain rfl := Option.some.inj h
    exact reconciled_onFocused hc {}
  | commitTextInput textInput => exact reconciled_commit hc h
  | releaseKeyboard guestKeyboard =>
    change onKeyboardRelease c guestKeyboard = some c' at h
    unfold onKeyboardRelease at h
    dsimp only at h
    split at h
    · exact Option.some.inj h ▸ ⟨hc.enabled, hc.active⟩
    · exact reconciled_focusChanges (by exact ⟨hc.enabled, hc.active⟩) h
  | destroySurface guestSurface =>
    obtain ⟨c₁, h₁, h⟩ := Option.bind_eq_some_iff.mp h
    have hc₁ := reconciled_focusChanges (by exact ⟨hc.enabled, hc.active⟩) h₁
    exact reconciled_focusUpdates hc₁ h
  | keyboardEnter hostKeyboard hostSurface =>
    change onKeyboardEnter c hostKeyboard hostSurface = some c' at h
    unfold onKeyboardEnter at h
    split at h
    · exact Option.some.inj h ▸ hc
    split_ifs at h
    · exact Option.some.inj h ▸ hc
    split at h
    · exact Option.some.inj h ▸ hc
    dsimp only at h
    split_ifs at h
    · exact Option.some.inj h ▸ hc
    · exact reconciled_focusChanges (by exact ⟨hc.enabled, hc.active⟩) h
  | keyboardLeave hostKeyboard hostSurface =>
    change onKeyboardLeave c hostKeyboard hostSurface = some c' at h
    unfold onKeyboardLeave at h
    dsimp only at h
    split_ifs at h
    · exact Option.some.inj h ▸ ⟨hc.enabled, hc.active⟩
    · exact reconciled_focusChanges (by exact ⟨hc.enabled, hc.active⟩) h
  | callbackDone callback =>
    obtain ⟨⟨done, c₁⟩, h₁, rfl⟩ := Option.map_eq_some_iff.mp h
    exact reconciled_callback hc h₁
  | preeditStyling hostId index length style =>
    obtain rfl := Option.some.inj h
    unfold onPreeditStyling
    split_ifs
    · exact reconciled_onActive hc {}
    · exact hc
  | preeditCursor hostId index =>
    obtain rfl := Option.some.inj h
    exact reconciled_onActive hc {}
  | cursorPosition hostId index anchor =>
    obtain rfl := Option.some.inj h
    exact reconciled_onActive hc {}
  | deleteSurroundingText hostId index length =>
    obtain rfl := Option.some.inj h
    unfold onDeleteSurroundingText
    split
    · exact hc
    · refine reconciled_onActive hc ⟨fun s => ?_, fun s => ?_, fun s => ?_⟩ <;>
        unfold TextInputState.recordDelete <;> split_ifs <;> rfl
  | preeditString hostId text commit =>
    obtain rfl := Option.some.inj h
    unfold onPreeditString
    split
    · exact hc
    split
    · exact hc
    · exact reconciled_compose hc {}
  | commitString hostId text =>
    obtain rfl := Option.some.inj h
    unfold onCommitString
    split
    · exact hc
    split
    · exact hc
    · exact reconciled_compose hc {}
  | setPreeditRegion hostExtId index length =>
    obtain rfl := Option.some.inj h
    unfold onSetPreeditRegion
    split
    · exact hc
    split
    · exact hc
    dsimp only
    split_ifs
    · exact reconciled_compose hc {}
    · exact hc
  | confirmPreedit hostExtId recovered =>
    obtain rfl := Option.some.inj h
    unfold onConfirmPreedit
    split
    · exact hc
    split
    · exact hc
    split_ifs
    · exact ⟨hc.enabled, hc.active⟩
    · exact reconciled_compose hc {}
  | other shadowTable keyboardToSeat manager extension =>
    obtain rfl := Option.some.inj h
    exact ⟨hc.enabled, hc.active⟩

end

/-- In every state of a session the invariant holds, and no fatal error has happened. -/
theorem reconciled_of_reachable {c : InputContext} (hc : inputSystem.Reachable c) :
    c.Reconciled [] ∧ c.fatalProtocolError = false := by
  refine hc.invariant (I := fun c => c.Reconciled [] ∧ c.fatalProtocolError = false)
    (fun c hinit => ?_) fun c m c' _ hc _ hstep => ?_
  · obtain rfl : c = .new := hinit
    exact ⟨⟨exclusive_empty, fun _ i s hs => by simp [InputContext.new] at hs⟩, rfl⟩
  · obtain ⟨c₁, h₁, hstep⟩ := Option.bind_eq_some_iff.mp hstep
    split_ifs at hstep with hfatal
    obtain rfl := Option.some.inj hstep
    exact ⟨reconciled_handle hc.1 h₁, by simpa using hfatal⟩

/-- Of two text inputs of one seat not both are enabled, and not both are active on the host. -/
theorem text_input_exclusivity {c : InputContext} (hc : inputSystem.Reachable c) {i j : ℕ}
    {s s' : TextInputState} (hs : c.textInputs.get i = some s)
    (hs' : c.textInputs.get j = some s') (hseat : s.guestSeat = s'.guestSeat) :
    (s.committedEnabled = true → s'.committedEnabled = true → i = j) ∧
      (s.hostIsActive = true → s'.hostIsActive = true → i = j) := by
  obtain ⟨hreconciled, hlive⟩ := reconciled_of_reachable hc
  have hactive := hreconciled.active hlive
  have hexclusive : Exclusive TextInputState.guestSeat TextInputState.hostIsActive c.textInputs :=
    hreconciled.enabled.of_implies fun k v hv => hactive k v hv List.not_mem_nil
  exact ⟨hreconciled.enabled i j s s' hs hs' hseat, hexclusive i j s s' hs hs' hseat⟩

/-- The other handlers bound the host objects and created a seat, a keyboard and a surface. -/
def seatReady : InputMessage :=
  .other ((((InputContext.new.shadowTable.mapId 3 30).mapId 4 40).mapId 5 50).trackInterface 3
    .wlSeat) ((∅ : Table ℕ ℕ).set 5 3) (some 20) none

/-- Two text inputs of a seat are enabled in turn; the second commit is refused. -/
theorem text_input_exclusivity_conflict :
    ∃ c s s', inputSystem.run .new [seatReady, .getTextInput 6 3, .getTextInput 7 3,
      .keyboardEnter 50 40, .enable 6, .commitTextInput 6, .enable 7, .commitTextInput 7] = some c ∧
      c.textInputs.get 6 = some s ∧ c.textInputs.get 7 = some s' ∧
      s.committedEnabled = true ∧ s.hostIsActive = true ∧
      ¬ s'.committedEnabled = true ∧ ¬ s'.hostIsActive = true := by
  have hrun : (inputSystem.run .new [seatReady, .getTextInput 6 3, .getTextInput 7 3,
      .keyboardEnter 50 40, .enable 6, .commitTextInput 6, .enable 7, .commitTextInput 7]).map
        (fun c => ((c.textInputs.get 6).map fun s =>
          (s.guestSeat, s.committedEnabled, s.hostIsActive),
          (c.textInputs.get 7).map TextInputState.guestSeat)) =
      some (some (3, true, true), some 3) := by decide +kernel
  obtain ⟨c, hc, heq⟩ := Option.map_eq_some_iff.mp hrun
  obtain ⟨h6, h7⟩ := Prod.mk.inj heq
  obtain ⟨s, hs, heq⟩ := Option.map_eq_some_iff.mp h6
  obtain ⟨s', hs', hseat'⟩ := Option.map_eq_some_iff.mp h7
  simp only [Prod.mk.injEq] at heq
  obtain ⟨hseat, henabled, hactive⟩ := heq
  have hexclusive := text_input_exclusivity (.run (.init rfl) hc) hs hs' (hseat.trans hseat'.symm)
  refine ⟨c, s, s', hc, hs, hs', henabled, hactive, fun h => ?_, fun h => ?_⟩
  · exact absurd (hexclusive.1 henabled h) (by decide)
  · exact absurd (hexclusive.2 hactive h) (by decide)

end Sommelier
