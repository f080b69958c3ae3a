import Sommelier.Input.TextInputAnswers

/-!
# Serials of done events

A guest takes a `done` event only when its serial is the number of commit requests it has made of
the text input. The serial counts those that were made with a surface and could be sent to the
host, so it falls behind with every other one.

## Main definitions

* `SerialSession`, `serialSystem`: sessions of the text inputs that count their commits.
* `InputContext.Serials`: the invariant, with the events of one step.
* `done_serial`: the `done` events that carry the number of commits.
-/
namespace Sommelier

/-! ## Sessions -/

/-- The commit requests of a text input so far, and those of them that were ignored. -/
structure CommitCount where
  served : ℕ
  missed : ℕ
  deriving DecidableEq, Repr

namespace CommitCount

def zero : CommitCount := ⟨0, 0⟩

def total (n : CommitCount) : ℕ := n.served + n.missed

def request (n : CommitCount) (served : Bool) : CommitCount :=
  if served then { n with served := n.served + 1 } else { n with missed := n.missed + 1 }

end CommitCount

/-- A `done` event with the commits of its text input so far. -/
structure DoneEvent where
  message : QueuedMessage
  commits : CommitCount
  deriving DecidableEq, Repr

/-- The event carries the number of the commit requests. -/
def DoneEvent.IsExact (done : DoneEvent) : Prop :=
  done.message.payload = [.word (done.commits.total % 2 ^ 32)]

instance (done : DoneEvent) : Decidable done.IsExact := inferInstanceAs (Decidable (_ = _))

/-- The text inputs, the commits of each of them and the `done` events that were sent. -/
structure SerialSession where
  context : InputContext
  commits : Table ℕ CommitCount
  dones : List DoneEvent

namespace SerialSession

def new : SerialSession := { context := .new, commits := ∅, dones := [] }

def count (s : SerialSession) (guestId : ℕ) : CommitCount := (s.commits.get guestId).getD .zero

/-- A text input starts with no commits. -/
def counted (s : SerialSession) : InputMessage → Table ℕ CommitCount
  | .getTextInput id _ => s.commits.erase id
  | .commitTextInput id =>
    s.commits.set id ((s.count id).request (servesCommit s.context id))
  | _ => s.commits

/-- The message was handled. -/
def after (s : SerialSession) (m : InputMessage) (c : InputContext) : SerialSession :=
  let commits := s.counted m
  let sent := c.hostToClientQueue.drop s.context.hostToClientQueue.length
  { context := c
    commits
    dones := s.dones ++ (sent.filter (·.opcode == 5)).map fun message =>
      { message, commits := (commits.get message.senderId).getD .zero } }

end SerialSession

/-- Sessions of the text inputs; a fatal error ends a session. -/
def serialSystem : TransitionSystem SerialSession SessionInput where
  init s := s = .new
  step s i := (i.toMessage s.context).bind fun m =>
    (s.context.handle m).bind fun c => if c.fatalProtocolError then none else some (s.after m c)

/-- The input is no commit that is ignored. -/
def SessionInput.IsServed (c : InputContext) : SessionInput → Prop
  | message (.commitTextInput id) => servesCommit c id = true
  | _ => True

/-! ## The invariant -/

namespace TextInputState

theorem guestCommitSerial_finishGuestCommit (s : TextInputState) (plan : GuestCommitPlan) :
    (s.finishGuestCommit plan).guestCommitSerial = plan.serial := by
  simp only [finishGuestCommit, finishEnabled]
  split_ifs <;> rfl

end TextInputState

namespace InputContext

/-- Every text input has its number as serial, and so has every `done` event that was queued since
the queue was as given. -/
structure Serials (n : ℕ → ℕ) (queue : List QueuedMessage) (c : InputContext) : Prop where
  serial : ∀ i s, c.textInputs.get i = some s → s.guestCommitSerial = n i % 2 ^ 32
  queue : ∃ news, c.hostToClientQueue = queue ++ news ∧
    ∀ m ∈ news, m.opcode = 5 → m.payload = [.word (n m.senderId % 2 ^ 32)]

variable {n : ℕ → ℕ} {queue : List QueuedMessage} {c c' : InputContext}

theorem Serials.keep (hc : Serials n queue c) (htable : c'.textInputs = c.textInputs)
    (hqueue : c'.hostToClientQueue = c.hostToClientQueue) : Serials n queue c' where
  serial i s hs := hc.serial i s (htable ▸ hs)
  queue := hqueue ▸ hc.queue

theorem Serials.onTextInput {f : TextInputState → TextInputState} (hc : Serials n queue c)
    (i : ℕ) (hf : ∀ s, (f s).guestCommitSerial = s.guestCommitSerial) :
    Serials n queue (c.onTextInput i f) where
  serial j s hs := by
    simp only [InputContext.onTextInput, Table.get_modify] at hs
    split_ifs at hs
    · obtain ⟨s₀, hs₀, rfl⟩ := Option.map_eq_some_iff.mp hs
      rw [hf]
      exact hc.serial j s₀ hs₀
    · exact hc.serial j s hs
  queue := hc.queue

theorem Serials.set (hc : Serials n queue c) {i : ℕ} (s : TextInputState)
    (hs : s.guestCommitSerial = n i % 2 ^ 32) (htable : c'.textInputs = c.textInputs.set i s)
    (hqueue : c'.hostToClientQueue = c.hostToClientQueue) : Serials n queue c' where
  serial j s' hs' := by
    rw [htable, Table.get_set] at hs'
    split_ifs at hs' with heq
    · subst heq
      exact Option.some.inj hs' ▸ hs
    · exact hc.serial j s' hs'
  queue := hqueue ▸ hc.queue

/-- Other messages than `done` events are of no account. -/
theorem Serials.toGuest {messages : List QueuedMessage} (hc : Serials n queue c)
    (h : ∀ m ∈ messages, m.opcode ≠ 5) : Serials n queue (c.toGuest messages) where
  serial := hc.serial
  queue := by
    obtain ⟨news, hqueue, hnews⟩ := hc.queue
    refine ⟨news ++ messages, by simp [InputContext.toGuest, hqueue], fun m hm hdone => ?_⟩
    exact (List.mem_append.mp hm).elim (hnews m · hdone) fun hm => absurd hdone (h m hm)

end InputContext

open InputContext

variable {n : ℕ → ℕ} {queue : List QueuedMessage} {c c' : InputContext} {i : ℕ}

theorem InputContext.Serials.answer (hc : Serials n queue c) (h : c.Answers c') :
    Serials n queue c' where
  serial j s' hs' := by
    obtain ⟨s, hs, hfooting⟩ := h.text j s' hs'
    exact (congrArg Prod.fst hfooting).trans (hc.serial j s hs)
  queue := by
    obtain ⟨news, hqueue, hnews⟩ := hc.queue
    obtain ⟨answers, hqueue', hanswers⟩ := h.queue
    refine ⟨news ++ answers, by rw [hqueue', hqueue, List.append_assoc], fun m hm hdone => ?_⟩
    rcases List.mem_append.mp hm with hm | hm
    · exact hnews m hm hdone
    · obtain ⟨s, hs, hpayload⟩ := (hanswers m hm).done hdone
      rw [hpayload, hc.serial m.senderId s hs]

/-! ### Focus -/

theorem opcode_focusEvents {previous current : Option ℕ} {m : QueuedMessage}
    (hm : m ∈ focusEvents i previous current) : m.opcode ≠ 5 := by
  unfold focusEvents at hm
  split_ifs at hm
  · cases hm
  · rcases List.mem_append.mp hm with hm | hm <;>
      obtain ⟨surface, -, rfl⟩ := List.mem_map.mp hm <;> simp

theorem serials_applyFocus (update : ℕ × Option ℕ) (hc : Serials n queue c) :
    Serials n queue (applyTextInputFocus c update) := by
  unfold applyTextInputFocus
  split
  · exact hc
  · exact (hc.toGuest fun _ => opcode_focusEvents).onTextInput update.1 fun _ => rfl

theorem serials_focusUpdates {updates : List (ℕ × Option ℕ)} (hc : Serials n queue c)
    (h : applyTextInputFocusUpdates c updates = some c') : Serials n queue c' := by
  refine Serials.answer ?_ ((Answers.refl _).activate (onlyActivates_updates h))
  clear h
  induction updates generalizing c with
  | nil => exact hc
  | cons update updates ih => exact ih (serials_applyFocus update hc)

theorem serials_focusChanges {changes : List SeatFocusChange} (hc : Serials n queue c)
    (h : applyKeyboardFocusChanges c changes = some c') : Serials n queue c' := by
  unfold applyKeyboardFocusChanges at h
  induction changes generalizing c with
  | nil => exact Option.some.inj h ▸ hc
  | cons change changes ih =>
    rw [List.foldlM_cons] at h
    obtain ⟨c₁, h₁, h⟩ := Option.bind_eq_some_iff.mp h
    refine ih ?_ h
    unfold applyKeyboardFocusChange at h₁
    split_ifs at h₁
    · exact Option.some.inj h₁ ▸ hc
    · exact serials_focusUpdates hc h₁

theorem serials_refocus {op : FocusOp} (hc : Serials n queue c) (h : c.Refocuses op c') :
    Serials n queue c' := by
  obtain ⟨c₁, c₂, htable, hqueue, -, hchanges, hlast⟩ := h
  have hc₂ := serials_focusChanges (hc.keep htable hqueue) hchanges
  rcases hlast with rfl | ⟨surface, hrepair⟩
  · exact hc₂
  · exact serials_focusUpdates hc₂ hrepair

/-! ### Requests -/

/-- A new text input has no commits. -/
theorem serials_getTextInput {id seat : ℕ} (hc : Serials n queue c) (hn : n id = 0)
    (h : onGetTextInput c id seat = some c') : Serials n queue c' := by
  rcases getTextInput_cases h with rfl | ⟨s, hfooting, htable, hqueue, -⟩
  · exact hc
  have hset : Serials n queue { c with textInputs := c.textInputs.set id s } := by
    refine hc.set s ?_ rfl rfl
    rw [hn, (Prod.mk.inj hfooting).1, Nat.zero_mod]
  exact (hset.toGuest fun _ => opcode_focusEvents).keep htable hqueue

/-- A commit is counted if it is served. -/
theorem serials_commit (hc : Serials n c.hostToClientQueue c)
    (h : onCommitTextInput c i = some c') :
    Serials (Function.update n i (if servesCommit c i then n i + 1 else n i))
      c.hostToClientQueue c' := by
  rcases commitTextInput_cases h with ⟨hserves, rfl⟩ | ⟨hserves, s, plan, hs, hplan, hactivates⟩
  · simpa [hserves] using hc
  rw [if_pos hserves]
  refine Serials.answer ⟨fun j s' hs' => ?_, [], by simp [onTextInput], by simp⟩
    ((Answers.refl _).activate hactivates)
  simp only [onTextInput, Table.get_modify] at hs'
  split_ifs at hs' with heq
  · subst heq
    rw [hs] at hs'
    obtain rfl := Option.some.inj hs'
    rw [TextInputState.guestCommitSerial_finishGuestCommit, hplan, Function.update_self,
      hc.serial j s hs]
    omega
  · rw [Function.update_of_ne heq]
    exact hc.serial j s' hs'

/-- Every message but a commit and a new text input leaves the numbers as they are. -/
theorem serials_handle {m : InputMessage} (hc : Serials n queue c)
    (hnew : ∀ id seat, m ≠ .getTextInput id seat) (hcommit : ∀ id, m ≠ .commitTextInput id)
    (hconfirm : ∀ hostExtId recovered, m ≠ .confirmPreedit hostExtId recovered)
    (h : c.handle m = some c') : Serials n queue c' := by
  rcases handle_cases hnew hcommit hconfirm h with h | ⟨op, h⟩
  · exact hc.answer h
  · exact serials_refocus hc h

/-! ## Runs -/

namespace SerialSession
variable {s s' : SerialSession} {input : SessionInput}

/-- The serials are the commits that were served, and the `done` events carried them. -/
structure Tracks (s : SerialSession) : Prop where
  context : Serials (fun i => (s.count i).served) s.context.hostToClientQueue s.context
  dones : ∀ done ∈ s.dones, done.message.payload = [.word (done.commits.served % 2 ^ 32)]

/-- The numbers after a message are those of the events it sends. -/
theorem tracks_after {m : InputMessage} (hs : s.Tracks)
    (hc : Serials (fun i => ((s.after m c).count i).served) s.context.hostToClientQueue c) :
    (s.after m c).Tracks where
  context := ⟨hc.serial, [], by simp [after], nofun⟩
  dones done hdone := by
    rcases List.mem_append.mp hdone with hdone | hdone
    · exact hs.dones done hdone
    · obtain ⟨news, hqueue, hnews⟩ := hc.queue
      rw [hqueue, List.drop_left] at hdone
      obtain ⟨message, hmessage, rfl⟩ := List.mem_map.mp hdone
      obtain ⟨hmem, hop⟩ := List.mem_filter.mp hmessage
      exact hnews message hmem (by simpa using hop)

theorem tracks_step (hs : s.Tracks) (h : serialSystem.step s input = some s') : s'.Tracks := by
  obtain ⟨m, hm, h⟩ := Option.bind_eq_some_iff.mp h
  obtain ⟨c, hc, h⟩ := Option.bind_eq_some_iff.mp h
  split_ifs at h
  obtain rfl := Option.some.inj h
  refine tracks_after hs ?_
  rcases SessionInput.toMessage_cases hm with
    ⟨hostExtId, held, rfl⟩ | ⟨-, hconfirm, hunused⟩
  · obtain rfl := Option.some.inj hc
    exact hs.context.answer (answers_confirmPreedit hostExtId held)
  · cases m with
    | getTextInput id seat =>
      refine serials_getTextInput ⟨fun i state hi => ?_, [], by simp, nofun⟩ ?_ hc
      · have hne : i ≠ id := by
          rintro rfl
          simp [(hunused i seat rfl).2] at hi
        rw [hs.context.serial i state hi]
        simp [after, counted, count, hne]
      · simp [after, counted, count, CommitCount.zero]
    | commitTextInput id =>
      have hcount : (fun i => ((s.after (.commitTextInput id) c).count i).served) =
          Function.update (fun i => (s.count i).served) id
            (if servesCommit s.context id then (s.count id).served + 1
              else (s.count id).served) := by
        funext i
        by_cases heq : i = id
        · subst heq
          cases hserves : servesCommit s.context i <;>
            simp [after, counted, count, CommitCount.request, hserves]
        · simp [after, counted, count, heq]
      rw [hcount]
      exact serials_commit hs.context hc
    | confirmPreedit hostExtId recovered => exact absurd rfl (hconfirm hostExtId recovered)
    | _ => exact serials_handle hs.context (by simp) (by simp) (by simp) hc

theorem tracks_of_reachable (hs : serialSystem.Reachable s) : s.Tracks := by
  refine hs.invariant (fun s hinit => ?_) fun s input s' _ htracks _ hstep =>
    tracks_step htracks hstep
  obtain rfl : s = .new := hinit
  exact ⟨⟨fun i s hs => by simp [new, InputContext.new] at hs, [], rfl, nofun⟩, nofun⟩

/-- Where every commit is served, none is missed. -/
theorem missed_of_served
    (hs : serialSystem.ReachableWhile (fun s input => input.IsServed s.context) s) :
    (∀ i, (s.count i).missed = 0) ∧ ∀ done ∈ s.dones, done.commits.missed = 0 := by
  refine hs.invariant (I := fun s : SerialSession => (∀ i, (s.count i).missed = 0) ∧
    ∀ done ∈ s.dones, done.commits.missed = 0) (fun s hinit => ?_) ?_
  · obtain rfl : s = .new := hinit
    exact ⟨fun i => by simp [count, new, CommitCount.zero], nofun⟩
  · rintro s input s' - ⟨hcount, hdones⟩ hserved hstep
    obtain ⟨m, hm, hstep⟩ := Option.bind_eq_some_iff.mp hstep
    obtain ⟨c, hc, hstep⟩ := Option.bind_eq_some_iff.mp hstep
    split_ifs at hstep
    obtain rfl := Option.some.inj hstep
    have hafter : ∀ i, ((s.after m c).count i).missed = 0 := by
      intro i
      cases m with
      | getTextInput id seat =>
        by_cases heq : i = id
        · simp [after, counted, count, heq, CommitCount.zero]
        · simpa [after, counted, count, heq] using hcount i
      | commitTextInput id =>
        have hserves : servesCommit s.context id = true := by
          rcases SessionInput.toMessage_cases hm with ⟨_, _, h⟩ | ⟨rfl, -⟩
          · cases h
          · exact hserved
        by_cases heq : i = id
        · simpa [after, counted, count, heq, hserves, CommitCount.request] using hcount id
        · simpa [after, counted, count, heq] using hcount i
      | _ => exact hcount i
    refine ⟨hafter, fun done hdone => ?_⟩
    rcases List.mem_append.mp hdone with hdone | hdone
    · exact hdones done hdone
    · obtain ⟨message, -, rfl⟩ := List.mem_map.mp hdone
      exact hafter message.senderId

end SerialSession

/-- In every session, a `done` event carries the number of the commit requests of its text input
if and only if the number of those that were ignored is none, or a multiple of the range of the
serials. In a session that ignores no commit, every `done` event does. -/
theorem done_serial (s : SerialSession) :
    (serialSystem.Reachable s →
      ∀ done ∈ s.dones, done.IsExact ↔ done.commits.missed % 2 ^ 32 = 0) ∧
    (serialSystem.ReachableWhile (fun s input => input.IsServed s.context) s →
      ∀ done ∈ s.dones, done.IsExact) := by
  have hexact : serialSystem.Reachable s →
      ∀ done ∈ s.dones, done.IsExact ↔ done.commits.missed % 2 ^ 32 = 0 := by
    intro hs done hdone
    rw [DoneEvent.IsExact, (SerialSession.tracks_of_reachable hs).dones done hdone]
    simp only [List.cons.injEq, Payload.word.injEq, and_true, CommitCount.total]
    omega
  refine ⟨hexact, fun hs done hdone => (hexact hs.reachable done hdone).mpr ?_⟩
  rw [(SerialSession.missed_of_served hs).2 done hdone, Nat.zero_mod]

/-- A guest that commits before the text input is entered, and once more to enable it, gets a
`done` event for the second commit alone. -/
theorem done_serial_unfocused :
    ∃ s, serialSystem.run .new [.message seatReady, .message (.getTextInput 6 3),
        .message (.commitTextInput 6), .message (.keyboardEnter 50 40), .message (.enable 6),
        .message (.commitTextInput 6), .message (.preeditString 2 "a" "")] = some s ∧
      s.dones = [⟨⟨6, 5, [.word 1]⟩, ⟨1, 1⟩⟩] ∧ ¬∀ done ∈ s.dones, done.IsExact := by
  have hrun : (serialSystem.run .new [.message seatReady, .message (.getTextInput 6 3),
      .message (.commitTextInput 6), .message (.keyboardEnter 50 40), .message (.enable 6),
      .message (.commitTextInput 6), .message (.preeditString 2 "a" "")]).map (·.dones) =
        some [⟨⟨6, 5, [.word 1]⟩, ⟨1, 1⟩⟩] := by decide +kernel
  obtain ⟨s, hs, hdones⟩ := Option.map_eq_some_iff.mp hrun
  refine ⟨s, hs, hdones, fun h => ?_⟩
  have hexact := h ⟨⟨6, 5, [.word 1]⟩, ⟨1, 1⟩⟩ (hdones ▸ List.mem_singleton_self _)
  exact absurd hexact (by decide)

end Sommelier
