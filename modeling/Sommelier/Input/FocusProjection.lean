import Sommelier.Input.TextInputAnswers
import Sommelier.Lib.Alternation

/-!
# The focus of the text inputs

The registry of the keyboards says which surface of a seat has the focus, and the text inputs of
the seat are told. After every message each of them is on the surface of its seat, and what it was
told are enters and leaves by turns.

## Main definitions

* `FocusSession`, `focusSystem`: sessions of the text inputs with what each was told.
* `InputContext.Follows`: the invariant, with the events of one step.
* `focus_projection`: each text input follows the focus of its seat.
-/
namespace Sommelier

/-! ## Sessions -/

/-- The enter or the leave a text input is told by a message. -/
def focusEdge (guestId : ℕ) : QueuedMessage → Option (Edge ℕ)
  | ⟨sender, 0, [.word surface]⟩ => if sender = guestId then some (.enter surface) else none
  | ⟨sender, 1, [.word surface]⟩ => if sender = guestId then some (.leave surface) else none
  | _ => none

/-- What a text input was told before and by some more messages, the newest event first. -/
def told (guestId : ℕ) (messages : List QueuedMessage) (before : List (Edge ℕ)) :
    List (Edge ℕ) :=
  (messages.filterMap (focusEdge guestId)).reverse ++ before

/-- The text inputs, and the enters and leaves of each ID; a new text input starts over. -/
structure FocusSession where
  context : InputContext
  edges : ℕ → List (Edge ℕ)

namespace FocusSession

def new : FocusSession := { context := .new, edges := fun _ => [] }

/-- The edges before the messages that are sent. -/
def begun (s : FocusSession) : InputMessage → ℕ → List (Edge ℕ)
  | .getTextInput id _ => Function.update s.edges id (.reset :: s.edges id)
  | _ => s.edges

/-- The message was handled. -/
def after (s : FocusSession) (m : InputMessage) (c : InputContext) : FocusSession where
  context := c
  edges i := told i (c.hostToClientQueue.drop s.context.hostToClientQueue.length) (s.begun m i)

end FocusSession

/-- Sessions of the text inputs; no message follows a fatal error. -/
def focusSystem : TransitionSystem FocusSession SessionInput where
  init s := s = .new
  step s input := if s.context.fatalProtocolError then none else
    (input.toMessage s.context).bind fun m => (s.context.handle m).map (s.after m)

/-! ## What is told -/

theorem told_append (i : ℕ) (ms ms' : List QueuedMessage) (es : List (Edge ℕ)) :
    told i (ms ++ ms') es = told i ms' (told i ms es) := by
  simp [told]

theorem told_of_none {i : ℕ} {ms : List QueuedMessage} (h : ∀ m ∈ ms, focusEdge i m = none)
    (es : List (Edge ℕ)) : told i ms es = es := by
  have hnil : ms.filterMap (focusEdge i) = [] := List.filterMap_eq_nil_iff.mpr h
  simp [told, hnil]

theorem focusEdge_of_ne {i : ℕ} {m : QueuedMessage} (h : m.senderId ≠ i) :
    focusEdge i m = none := by
  unfold focusEdge
  split <;> simp_all

theorem focusEdge_of_opcode {m : QueuedMessage} (h : 2 ≤ m.opcode) (i : ℕ) :
    focusEdge i m = none := by
  unfold focusEdge
  split
  · exact absurd h (by simp)
  · exact absurd h (by simp)
  · rfl

theorem focusEdge_of_answer {c : InputContext} {m : QueuedMessage} {i : ℕ} (h : c.IsAnswer m)
    (hi : i ≠ 1) : focusEdge i m = none := by
  rcases h.still with hdisplay | hop
  · exact focusEdge_of_ne (hdisplay ▸ hi.symm)
  · exact focusEdge_of_opcode hop i

/-- A text input that moves is told so. -/
theorem told_focusEvents_self {i : ℕ} {previous : Option ℕ} {es : List (Edge ℕ)}
    (hes : Alternates es) (hprevious : occupant es = previous) (current : Option ℕ) :
    Alternates (told i (focusEvents i previous current) es) ∧
      occupant (told i (focusEvents i previous current) es) = current := by
  unfold focusEvents
  split_ifs with heq
  · exact ⟨hes, hprevious.trans heq⟩
  · cases previous <;> cases current <;> simp_all [told, focusEdge]

theorem told_focusEvents_other {i j : ℕ} (hne : i ≠ j) (previous current : Option ℕ)
    (es : List (Edge ℕ)) : told i (focusEvents j previous current) es = es := by
  refine told_of_none (fun m hm => focusEdge_of_ne ?_) es
  unfold focusEvents at hm
  split_ifs at hm
  · cases hm
  · rcases List.mem_append.mp hm with hm | hm <;>
      obtain ⟨surface, -, rfl⟩ := List.mem_map.mp hm <;> exact hne.symm

/-! ## The invariant -/

namespace InputContext

/-- Every text input is on the surface its seat is to have. -/
def Projects (target : ℕ → Option ℕ) (c : InputContext) : Prop :=
  ∀ i s, c.textInputs.get i = some s → s.activeSurface = target s.guestSeat

/-- Every text input was told the surface it is on, when the messages since the queue was as given
are counted in. The display is no text input. -/
structure Tells (edges : ℕ → List (Edge ℕ)) (queue : List QueuedMessage) (c : InputContext) :
    Prop where
  display : c.textInputs.get 1 = none
  queue : ∃ news, c.hostToClientQueue = queue ++ news ∧
    (∀ i ≠ 1, Alternates (told i news (edges i))) ∧
    ∀ i s, c.textInputs.get i = some s → occupant (told i news (edges i)) = s.activeSurface

/-- The text inputs follow the registry. -/
structure Follows (edges : ℕ → List (Edge ℕ)) (queue : List QueuedMessage) (c : InputContext) :
    Prop where
  coherent : c.keyboardFocus.Coherent
  projects : c.Projects c.keyboardFocus.surfaceForSeat
  tells : c.Tells edges queue

end InputContext

open InputContext

variable {c c' : InputContext} {target target' : ℕ → Option ℕ} {edges : ℕ → List (Edge ℕ)}
  {queue : List QueuedMessage} {i : ℕ}

theorem InputContext.Projects.answer (hc : c.Projects target) (h : c.Answers c') :
    c'.Projects target := by
  intro i s' hs'
  obtain ⟨s, hs, hfooting⟩ := h.text i s' hs'
  obtain ⟨-, hseat, hsurface⟩ : s'.guestCommitSerial = s.guestCommitSerial ∧
      s'.guestSeat = s.guestSeat ∧ s'.activeSurface = s.activeSurface := by
    simpa [TextInputState.footing] using hfooting
  rw [hseat, hsurface]
  exact hc i s hs

theorem InputContext.Tells.answer (hc : c.Tells edges queue) (h : c.Answers c') :
    c'.Tells edges queue where
  display := by
    cases hs' : c'.textInputs.get 1 with
    | none => rfl
    | some s' =>
      obtain ⟨s, hs, -⟩ := h.text 1 s' hs'
      rw [hc.display] at hs
      cases hs
  queue := by
    obtain ⟨news, hqueue, halternates, hoccupant⟩ := hc.queue
    obtain ⟨answers, hqueue', hanswers⟩ := h.queue
    have hsame : ∀ i ≠ 1, told i (news ++ answers) (edges i) = told i news (edges i) := by
      intro i hi
      rw [told_append]
      exact told_of_none (fun m hm => focusEdge_of_answer (hanswers m hm) hi) _
    refine ⟨news ++ answers, by rw [hqueue', hqueue, List.append_assoc],
      fun i hi => hsame i hi ▸ halternates i hi, fun i s' hs' => ?_⟩
    obtain ⟨s, hs, hfooting⟩ := h.text i s' hs'
    have hi : i ≠ 1 := by
      rintro rfl
      rw [hc.display] at hs
      cases hs
    rw [hsame i hi, hoccupant i s hs]
    exact (congrArg (·.2.2) hfooting).symm

theorem InputContext.Follows.answer (hc : c.Follows edges queue) (h : c.Answers c') :
    c'.Follows edges queue where
  coherent := h.registry ▸ hc.coherent
  projects := h.registry ▸ hc.projects.answer h
  tells := hc.tells.answer h

/-! ### Focus -/

theorem get_applyTextInputFocus (c : InputContext) (update : ℕ × Option ℕ) (j : ℕ) :
    (applyTextInputFocus c update).textInputs.get j =
      if j = update.1 then (c.textInputs.get j).map (TextInputState.applyFocus update.2)
      else c.textInputs.get j := by
  unfold applyTextInputFocus
  split
  next hnone =>
    split_ifs with heq
    · rw [heq, hnone, Option.map_none]
    · rfl
  · simp [onTextInput, toGuest, Table.get_modify]

/-- Of the text inputs, those that are updated take their new surfaces. -/
theorem get_applyTextInputFocuses {f : ℕ → Option ℕ} {ids : List ℕ} {s' : TextInputState}
    (h : ((ids.map fun i => (i, f i)).foldl applyTextInputFocus c).textInputs.get i = some s') :
    ∃ s, c.textInputs.get i = some s ∧ s'.guestSeat = s.guestSeat ∧
      s'.activeSurface = if i ∈ ids then f i else s.activeSurface := by
  induction ids generalizing c with
  | nil => exact ⟨s', h, rfl, by simp⟩
  | cons j ids ih =>
    obtain ⟨s₁, hs₁, hseat, hsurface⟩ := ih h
    rw [get_applyTextInputFocus] at hs₁
    split_ifs at hs₁ with heq
    · obtain ⟨s, hs, rfl⟩ := Option.map_eq_some_iff.mp hs₁
      refine ⟨s, hs, hseat, ?_⟩
      rw [hsurface, heq]
      simp [TextInputState.applyFocus]
    · exact ⟨s₁, hs₁, hseat, by simp [hsurface, heq]⟩

theorem tells_applyTextInputFocus (hc : c.Tells edges queue) (update : ℕ × Option ℕ) :
    (applyTextInputFocus c update).Tells edges queue := by
  have hget := get_applyTextInputFocus c update
  unfold applyTextInputFocus at hget ⊢
  cases hs : c.textInputs.get update.1 with
  | none => exact hc
  | some s =>
    simp only [hs] at hget ⊢
    have hupdate : update.1 ≠ 1 := by
      intro heq
      rw [heq, hc.display] at hs
      cases hs
    obtain ⟨news, hqueue, halternates, hoccupant⟩ := hc.queue
    have hself := told_focusEvents_self (i := update.1) (halternates update.1 hupdate)
      (hoccupant update.1 s hs) update.2
    refine ⟨by rw [hget, if_neg hupdate.symm, hc.display],
      news ++ focusEvents update.1 s.activeSurface update.2,
      by simp [onTextInput, toGuest, hqueue], fun i hi => ?_, fun i s' hs' => ?_⟩
    · rw [told_append]
      by_cases heq : i = update.1
      · exact heq ▸ hself.1
      · rw [told_focusEvents_other heq]
        exact halternates i hi
    · rw [told_append]
      rw [hget] at hs'
      split_ifs at hs' with heq
      · obtain ⟨s₀, -, rfl⟩ := Option.map_eq_some_iff.mp hs'
        exact heq ▸ hself.2
      · rw [told_focusEvents_other heq]
        exact hoccupant i s' hs'

theorem tells_focusUpdates {updates : List (ℕ × Option ℕ)} (hc : c.Tells edges queue)
    (h : applyTextInputFocusUpdates c updates = some c') : c'.Tells edges queue := by
  refine InputContext.Tells.answer ?_ ((Answers.refl _).activate (onlyActivates_updates h))
  clear h
  induction updates generalizing c with
  | nil => exact hc
  | cons update updates ih => exact ih (tells_applyTextInputFocus hc update)

theorem tells_focusChange {change : SeatFocusChange} (hc : c.Tells edges queue)
    (h : applyKeyboardFocusChange c change = some c') : c'.Tells edges queue := by
  unfold applyKeyboardFocusChange at h
  split_ifs at h
  · exact Option.some.inj h ▸ hc
  · exact tells_focusUpdates hc h

/-- The text inputs of the seat move to its new surface. -/
theorem projects_focusChange {change : SeatFocusChange} (hc : c.Projects target)
    (hne : change.previousSurface ≠ change.currentSurface)
    (h : applyKeyboardFocusChange c change = some c') :
    c'.Projects (Function.update target change.guestSeat change.currentSurface) := by
  rw [applyKeyboardFocusChange, if_neg hne] at h
  refine InputContext.Projects.answer ?_ ((Answers.refl _).activate (onlyActivates_updates h))
  intro i s' hs'
  obtain ⟨s, hs, hseat, hsurface⟩ := get_applyTextInputFocuses hs'
  have hmem : i ∈ (c.textInputs.keysWhere fun _ state => state.guestSeat == change.guestSeat) ↔
      s.guestSeat = change.guestSeat := by
    simp [hs]
  rw [hsurface, hseat, Function.update_apply]
  simp only [hmem]
  split_ifs
  · rfl
  · exact hc i s hs

/-- The changes of each seat lead from its old surface to the new one. -/
theorem projects_focusChanges {changes : List SeatFocusChange} (hc : c.Projects target)
    (hchanges : ∀ seat, ChainsFrom (target seat) (changesOf seat changes) (target' seat))
    (h : applyKeyboardFocusChanges c changes = some c') : c'.Projects target' := by
  unfold applyKeyboardFocusChanges at h
  induction changes generalizing c target with
  | nil =>
    have htarget : target = target' := funext hchanges
    exact Option.some.inj h ▸ htarget ▸ hc
  | cons change changes ih =>
    rw [List.foldlM_cons] at h
    obtain ⟨c₁, h₁, h⟩ := Option.bind_eq_some_iff.mp h
    have hfirst := hchanges change.guestSeat
    simp only [changesOf, List.filter_cons, beq_self_eq_true, if_true] at hfirst
    obtain ⟨hprevious, hne, hrest⟩ := hfirst
    refine ih (projects_focusChange hc (hprevious ▸ hne.symm) h₁) (fun seat => ?_) h
    by_cases heq : seat = change.guestSeat
    · subst heq
      rw [Function.update_self]
      exact hrest
    · rw [Function.update_of_ne heq]
      simpa [changesOf, List.filter_cons, Ne.symm heq] using hchanges seat

/-- The repair moves no text input that is where its seat is. -/
theorem projects_repair {surface : ℕ} (hc : c.Projects c.keyboardFocus.surfaceForSeat)
    (h : repairDestroyedSurfaceFocus c surface = some c') :
    c'.Projects c.keyboardFocus.surfaceForSeat := by
  refine InputContext.Projects.answer ?_ ((Answers.refl _).activate (onlyActivates_updates h))
  intro i s' hs'
  obtain ⟨s, hs, hseat, hsurface⟩ := get_applyTextInputFocuses hs'
  rw [hsurface, hseat]
  split_ifs
  · simp [hs]
  · exact hc i s hs

theorem registry_focusUpdates {updates : List (ℕ × Option ℕ)}
    (h : applyTextInputFocusUpdates c updates = some c') : c'.keyboardFocus = c.keyboardFocus := by
  rw [(onlyActivates_updates h).registry]
  clear h
  induction updates generalizing c with
  | nil => rfl
  | cons update updates ih =>
    refine ih.trans ?_
    unfold applyTextInputFocus
    split <;> rfl

theorem registry_focusChanges {changes : List SeatFocusChange}
    (h : applyKeyboardFocusChanges c changes = some c') : c'.keyboardFocus = c.keyboardFocus := by
  unfold applyKeyboardFocusChanges at h
  induction changes generalizing c with
  | nil => exact Option.some.inj h ▸ rfl
  | cons change changes ih =>
    rw [List.foldlM_cons] at h
    obtain ⟨c₁, h₁, h⟩ := Option.bind_eq_some_iff.mp h
    refine (ih h).trans ?_
    unfold applyKeyboardFocusChange at h₁
    split_ifs at h₁
    · exact Option.some.inj h₁ ▸ rfl
    · exact registry_focusUpdates h₁

theorem tells_focusChanges {changes : List SeatFocusChange} (hc : c.Tells edges queue)
    (h : applyKeyboardFocusChanges c changes = some c') : c'.Tells edges queue := by
  unfold applyKeyboardFocusChanges at h
  induction changes generalizing c with
  | nil => exact Option.some.inj h ▸ hc
  | cons change changes ih =>
    rw [List.foldlM_cons] at h
    obtain ⟨c₁, h₁, h⟩ := Option.bind_eq_some_iff.mp h
    exact ih (tells_focusChange hc h₁) h

theorem follows_refocus {op : FocusOp} (hc : c.Follows edges queue) (h : c.Refocuses op c') :
    c'.Follows edges queue := by
  obtain ⟨c₁, c₂, htable, hqueue, hregistry, hchanges, hlast⟩ := h
  have hchains : ∀ seat, ChainsFrom (c.keyboardFocus.surfaceForSeat seat)
      (changesOf seat (c.keyboardFocus.apply op).1.seatChanges)
      ((c.keyboardFocus.apply op).2.surfaceForSeat seat) := by
    intro seat
    rw [KeyboardFocusRegistry.apply_changes hc.coherent op seat]
    exact FocusHistory.chainsFrom_seatChange ..
  have hregistry₂ : c₂.keyboardFocus = (c.keyboardFocus.apply op).2 :=
    (registry_focusChanges hchanges).trans hregistry
  have hc₁ : c₁.Projects c.keyboardFocus.surfaceForSeat := by
    unfold Projects
    rw [htable]
    exact hc.projects
  have htells₁ : c₁.Tells edges queue := ⟨htable ▸ hc.tells.display, by
    rw [htable, hqueue]
    exact hc.tells.queue⟩
  have hc₂ : c₂.Follows edges queue :=
    { coherent := hregistry₂ ▸ hc.coherent.apply op
      projects := hregistry₂ ▸ projects_focusChanges hc₁ hchains hchanges
      tells := tells_focusChanges htells₁ hchanges }
  rcases hlast with rfl | ⟨surface, hrepair⟩
  · exact hc₂
  · have hsame := registry_focusUpdates hrepair
    exact
      { coherent := hsame ▸ hc₂.coherent
        projects := hsame ▸ projects_repair hc₂.projects hrepair
        tells := tells_focusUpdates hc₂.tells hrepair }

/-! ### Requests -/

/-- A new text input is told where it is. -/
theorem follows_getTextInput {id seat : ℕ} (hc : c.Follows edges c.hostToClientQueue)
    (hid : id ≠ 1) (hunused : c.textInputs.get id = none) (h : onGetTextInput c id seat = some c') :
    c'.Follows (Function.update edges id (.reset :: edges id)) c.hostToClientQueue := by
  obtain ⟨news, hqueue, halternates, hoccupant⟩ := hc.tells.queue
  obtain rfl : news = [] := by simpa using hqueue
  have hbegun : ∀ i ≠ 1, Alternates (Function.update edges id (.reset :: edges id) i) := by
    intro i hi
    rw [Function.update_apply]
    split_ifs with heq
    · exact heq ▸ halternates i hi
    · exact halternates i hi
  have hlive : ∀ i s, c.textInputs.get i = some s → i ≠ id := by
    rintro i s hs rfl
    rw [hunused] at hs
    cases hs
  rcases getTextInput_cases h with rfl | ⟨s, hfooting, htable, hqueue', hregistry⟩
  · refine ⟨hc.coherent, hc.projects, hc.tells.display, [], hqueue, hbegun, fun i s hs => ?_⟩
    rw [Function.update_of_ne (hlive i s hs)]
    exact hoccupant i s hs
  obtain ⟨-, hseat, hsurface⟩ : s.guestCommitSerial = 0 ∧ s.guestSeat = seat ∧
      s.activeSurface = c.keyboardFocus.surfaceForSeat seat := by
    simpa [TextInputState.footing] using hfooting
  have hreset : Alternates (.reset :: edges id) := halternates id hid
  have hnone : occupant (.reset :: edges id) = none := rfl
  have hself := told_focusEvents_self (i := id) hreset hnone (c.keyboardFocus.surfaceForSeat seat)
  refine ⟨hregistry ▸ hc.coherent, fun i s' hs' => ?_, ?_, _, hqueue', fun i hi => ?_,
    fun i s' hs' => ?_⟩
  · rw [htable, Table.get_set] at hs'
    rw [hregistry]
    split_ifs at hs' with heq
    · rw [← Option.some.inj hs', hseat, hsurface]
    · exact hc.projects i s' hs'
  · rw [htable, Table.get_set, if_neg hid.symm, hc.tells.display]
  · by_cases heq : i = id
    · subst heq
      rw [Function.update_self]
      exact hself.1
    · rw [told_focusEvents_other heq]
      exact hbegun i hi
  · rw [htable, Table.get_set] at hs'
    split_ifs at hs' with heq
    · subst heq
      rw [Function.update_self, ← Option.some.inj hs', hsurface]
      exact hself.2
    · rw [told_focusEvents_other heq, Function.update_of_ne heq]
      exact hoccupant i s' hs'

theorem InputContext.Follows.onTextInput {f : TextInputState → TextInputState}
    (hc : c.Follows edges queue) (i : ℕ) (hseat : ∀ s, (f s).guestSeat = s.guestSeat)
    (hsurface : ∀ s, (f s).activeSurface = s.activeSurface) :
    (c.onTextInput i f).Follows edges queue := by
  have hf : ∀ j s', (c.onTextInput i f).textInputs.get j = some s' →
      ∃ s, c.textInputs.get j = some s ∧ s'.guestSeat = s.guestSeat ∧
        s'.activeSurface = s.activeSurface := by
    intro j s' hs'
    simp only [InputContext.onTextInput, Table.get_modify] at hs'
    split_ifs at hs'
    · obtain ⟨s, hs, rfl⟩ := Option.map_eq_some_iff.mp hs'
      exact ⟨s, hs, hseat s, hsurface s⟩
    · exact ⟨s', hs', rfl, rfl⟩
  obtain ⟨news, hqueue, halternates, hoccupant⟩ := hc.tells.queue
  refine ⟨hc.coherent, fun j s' hs' => ?_, ?_, news, hqueue, halternates, fun j s' hs' => ?_⟩
  · obtain ⟨s, hs, hseat', hsurface'⟩ := hf j s' hs'
    rw [hseat', hsurface']
    exact hc.projects j s hs
  · simp [InputContext.onTextInput, Table.get_modify, hc.tells.display]
  · obtain ⟨s, hs, -, hsurface'⟩ := hf j s' hs'
    rw [hsurface']
    exact hoccupant j s hs

/-- A commit moves no text input. -/
theorem follows_commit (hc : c.Follows edges queue) (h : onCommitTextInput c i = some c') :
    c'.Follows edges queue := by
  rcases commitTextInput_cases h with ⟨-, rfl⟩ | ⟨-, s, plan, -, -, hactivates⟩
  · exact hc
  refine (hc.onTextInput i (fun s => ?_) fun s => ?_).answer ((Answers.refl _).activate hactivates)
  all_goals
    unfold TextInputState.finishGuestCommit TextInputState.finishEnabled
    split_ifs <;> rfl

/-! ## Runs -/

namespace FocusSession
variable {s s' : FocusSession} {input : SessionInput}

/-- The state between two messages. -/
def Settled (s : FocusSession) : Prop := s.context.Follows s.edges s.context.hostToClientQueue

theorem settled_after {m : InputMessage} {c : InputContext}
    (h : c.Follows (s.begun m) s.context.hostToClientQueue) : (s.after m c).Settled where
  coherent := h.coherent
  projects := h.projects
  tells := by
    obtain ⟨news, hqueue, halternates, hoccupant⟩ := h.tells.queue
    have hedges : (s.after m c).edges = fun i => told i news (s.begun m i) := by
      funext i
      simp [after, hqueue]
    exact ⟨h.tells.display, [], by simp, hedges ▸ halternates, hedges ▸ hoccupant⟩

theorem settled_step (hs : s.Settled) (h : focusSystem.step s input = some s') : s'.Settled := by
  simp only [focusSystem] at h
  split_ifs at h
  obtain ⟨m, hm, h⟩ := Option.bind_eq_some_iff.mp h
  obtain ⟨c, hc, rfl⟩ := Option.map_eq_some_iff.mp h
  refine settled_after ?_
  rcases SessionInput.toMessage_cases hm with ⟨hostExtId, held, rfl⟩ | ⟨-, hconfirm, hunused⟩
  · obtain rfl := Option.some.inj hc
    exact hs.answer (answers_confirmPreedit hostExtId held)
  · cases m with
    | getTextInput id seat =>
      exact follows_getTextInput hs (hunused id seat rfl).1 (hunused id seat rfl).2 hc
    | commitTextInput id => exact follows_commit hs hc
    | confirmPreedit hostExtId recovered => exact absurd rfl (hconfirm hostExtId recovered)
    | _ =>
      rcases handle_cases (by simp) (by simp) (by simp) hc with h | ⟨op, h⟩
      · exact hs.answer h
      · exact follows_refocus hs h

theorem settled_of_reachable (hs : focusSystem.Reachable s) : s.Settled := by
  refine hs.invariant (fun s hinit => ?_) fun s input s' _ hsettled _ hstep =>
    settled_step hsettled hstep
  obtain rfl : s = .new := hinit
  refine ⟨?_, ?_, rfl, [], rfl, fun _ _ => trivial, ?_⟩
  · exact FocusHistory.tracks_new.coherent
  · rintro i s ⟨⟩
  · rintro i s ⟨⟩

end FocusSession

/-- In every state between two messages, a text input is on the surface its seat has, and the
enters and leaves it was told alternate, so that the last of them, if it is an enter, names that
surface. -/
theorem focus_projection (s : FocusSession) (hs : focusSystem.Reachable s) (i : ℕ)
    (state : TextInputState) (hstate : s.context.textInputs.get i = some state) :
    state.activeSurface = s.context.keyboardFocus.surfaceForSeat state.guestSeat ∧
      Alternates (s.edges i) ∧ occupant (s.edges i) = state.activeSurface := by
  have hsettled := FocusSession.settled_of_reachable hs
  obtain ⟨news, hqueue, halternates, hoccupant⟩ := hsettled.tells.queue
  obtain rfl : news = [] := by simpa using hqueue
  have hi : i ≠ 1 := by
    rintro rfl
    rw [hsettled.tells.display] at hstate
    cases hstate
  exact ⟨hsettled.projects i state hstate, halternates i hi, hoccupant i state hstate⟩

/-- A text input that is created before its seat has a surface, and follows it there and away. -/
theorem focus_projection_keyboard :
    ∃ s state, focusSystem.run .new [.message seatReady, .message (.getTextInput 6 3),
        .message (.keyboardEnter 50 40), .message (.destroySurface 4)] = some s ∧
      s.context.textInputs.get 6 = some state ∧
      s.edges 6 = [.leave 4, .enter 4, .reset] ∧
      (state.activeSurface = s.context.keyboardFocus.surfaceForSeat state.guestSeat ∧
        Alternates (s.edges 6) ∧ occupant (s.edges 6) = state.activeSurface) := by
  have hrun : (focusSystem.run .new [.message seatReady, .message (.getTextInput 6 3),
      .message (.keyboardEnter 50 40), .message (.destroySurface 4)]).map (fun s =>
        ((s.context.textInputs.get 6).isSome, s.edges 6)) =
      some (true, [.leave 4, .enter 4, .reset]) := by decide +kernel
  obtain ⟨s, hs, heq⟩ := Option.map_eq_some_iff.mp hrun
  obtain ⟨hlive, hedges⟩ := Prod.mk.inj heq
  obtain ⟨state, hstate⟩ := Option.isSome_iff_exists.mp hlive
  exact ⟨s, state, hs, hstate, hedges,
    focus_projection s (TransitionSystem.Reachable.run (.init rfl) hs) 6 state hstate⟩

end Sommelier
