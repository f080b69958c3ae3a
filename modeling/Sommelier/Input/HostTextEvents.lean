import Sommelier.Handler.TextInput

/-!
# Host text events

The composition events of the host input method. Each is sent to the guest as one
transaction that a single `done` closes, or leaves no trace: neither a part of the
transaction nor a change of the text input. The cursors of the preedit come from the host as
offsets into a text it may not have measured; those the guest gets are on the boundaries of
characters.

## Main definitions

* `HostTextEvent.handle`: the handlers of the composition events.
* `EndsInDone`: a transaction that its last message closes.
* `sentPreedit`: the preedit a transaction leaves with the guest.
-/
namespace Sommelier

/-- A press and a release that stand for a key the input method took. -/
structure KeyPair where
  guestKeyboard : ℕ
  pressSerial : ℕ
  releaseSerial : ℕ
  time : ℕ
  key : ℕ
  deriving DecidableEq, Repr

def KeyPair.messages (pair : KeyPair) : List QueuedMessage :=
  [⟨pair.guestKeyboard, 3, [.word pair.pressSerial, .word pair.time, .word pair.key, .word 1]⟩,
    ⟨pair.guestKeyboard, 3, [.word pair.releaseSerial, .word pair.time, .word pair.key, .word 0]⟩]

/-- The answer to an empty confirmation: nothing when no key is held, else the pair, unless
the guest has the key already, and the end of the transaction. -/
def recoveredMessages (c : InputContext) (hostExtId : ℕ) (held : Option (Option KeyPair)) :
    List QueuedMessage :=
  match guestForExtension c hostExtId with
  | none => []
  | some guestId =>
    match (c.textInputs.get guestId).bind TextInputState.prepareComposition, held with
    | some plan, some pair =>
      (pair.map KeyPair.messages).getD [] ++ [⟨guestId, 5, [.word plan.doneSerial]⟩]
    | _, _ => []

/-- The events. A confirmation comes with the key that is held for it, if any. -/
inductive HostTextEvent
  | preeditString (hostId : ℕ) (text commit : String)
  | commitString (hostId : ℕ) (text : String)
  | setPreeditRegion (hostExtId : ℕ) (index : ℤ) (length : ℕ)
  | confirmPreedit (hostExtId : ℕ) (held : Option (Option KeyPair))

def HostTextEvent.handle (c : InputContext) : HostTextEvent → InputContext
  | preeditString hostId text commit => onPreeditString c hostId text commit
  | commitString hostId text => onCommitString c hostId text
  | setPreeditRegion hostExtId index length => onSetPreeditRegion c hostExtId index length
  | confirmPreedit hostExtId held =>
    onConfirmPreedit c hostExtId (recoveredMessages c hostExtId held)

/-! ## Transactions -/

/-- The last message closes the transaction of a text input, and no other does. -/
def EndsInDone (guestId : ℕ) (messages : List QueuedMessage) : Prop :=
  ∃ body serial, messages = body ++ [⟨guestId, 5, [.word serial]⟩] ∧ ∀ m ∈ body, m.opcode ≠ 5

def preeditText : QueuedMessage → Option String
  | ⟨_, 2, .text text :: _⟩ => some text
  | _ => none

/-- The preedit after a transaction: the last one it sends, and none if it sends none. -/
def sentPreedit (messages : List QueuedMessage) : String :=
  (messages.filterMap preeditText).getLast?.getD ""

/-- A cursor that is hidden, or lies between characters of the text. -/
def ValidCursor (text : String) (cursor : ℤ × ℤ) : Prop :=
  cursor = (-1, -1) ∨ ∃ first last : ℕ, cursor = (↑first, ↑last) ∧
    isCharBoundary text first = true ∧ isCharBoundary text last = true

/-- The cursors of all preedits of a transaction are valid. -/
def ValidCursors (guestId : ℕ) (messages : List QueuedMessage) : Prop :=
  ∀ text cursor, preeditMessage guestId text cursor ∈ messages → ValidCursor text cursor

/-- What an event does: a whole transaction for one text input, and nothing to another. -/
structure Transacts (c c' : InputContext) (guestId : ℕ) (messages : List QueuedMessage) :
    Prop where
  queue : c'.hostToClientQueue = c.hostToClientQueue ++ messages
  fits : ∀ m ∈ messages, m.fits = true
  done : EndsInDone guestId messages
  preedit : ∃ s, c'.textInputs.get guestId = some s ∧ s.currentPreedit = sentPreedit messages
  cursors : ValidCursors guestId messages
  other : ∀ i, i ≠ guestId → c'.textInputs.get i = c.textInputs.get i

/-! ## Cursors -/

theorem isCharBoundary_end (text : String) : isCharBoundary text text.utf8ByteSize = true :=
  String.Pos.Raw.isValid_eq_true_iff.mpr String.Pos.Raw.isValid_rawEndPos

theorem validCursor_end (text : String) :
    ValidCursor text (text.utf8ByteSize, text.utf8ByteSize) :=
  .inr ⟨_, _, rfl, isCharBoundary_end text, isCharBoundary_end text⟩

theorem validCursor_resolve (text : String) (selection : Option (ℕ × ℕ)) (cursor : Option ℤ) :
    ValidCursor text (resolvePreeditCursor text selection cursor) := by
  unfold resolvePreeditCursor
  match selection, cursor with
  | some (index, length), _ =>
    dsimp only
    split_ifs with hvalid
    · rw [Bool.and_eq_true] at hvalid
      exact .inr ⟨index, min (index + length) 0xffffffff, rfl, hvalid.1, hvalid.2⟩
    · exact validCursor_end text
  | none, some cursor =>
    dsimp only
    split_ifs with hnegative hvalid
    · exact .inl rfl
    · have hcursor : (cursor.toNat : ℤ) = cursor := Int.toNat_of_nonneg (Int.not_lt.mp hnegative)
      exact .inr ⟨cursor.toNat, cursor.toNat, by rw [hcursor], hvalid, hvalid⟩
    · exact validCursor_end text
  | none, none => exact validCursor_end text

theorem preeditMessage_inj {guestId : ℕ} {text text' : String} {cursor cursor' : ℤ × ℤ}
    (h : preeditMessage guestId text cursor = preeditMessage guestId text' cursor') :
    text = text' ∧ cursor = cursor' := by
  simp only [preeditMessage, QueuedMessage.mk.injEq, List.cons.injEq, Payload.text.injEq,
    Payload.signed.injEq] at h
  exact ⟨h.2.2.1, Prod.ext h.2.2.2.1 h.2.2.2.2.1⟩

theorem validCursor_empty : ValidCursor "" (0, 0) :=
  .inr ⟨0, 0, rfl, isCharBoundary_end "", isCharBoundary_end ""⟩

/-! ## Bodies of transactions -/

/-- The messages before the `done`: the preedit, which may be left out when it is empty, and
texts, deletes and keys. -/
structure IsBody (guestId : ℕ) (text : String) (cursor : ℤ × ℤ) (body : List QueuedMessage) :
    Prop where
  each : ∀ m ∈ body, m = preeditMessage guestId text cursor ∨ m.opcode = 3 ∨ m.opcode = 4
  sent : text = "" ∨ preeditMessage guestId text cursor ∈ body
  cursor : ValidCursor text cursor

variable {c : InputContext} {guestId serial : ℕ} {text : String} {cursor : ℤ × ℤ}
  {body : List QueuedMessage}

theorem opcode_of_preeditText {m : QueuedMessage} (h : preeditText m = some text) :
    m.opcode = 2 := by
  unfold preeditText at h
  split at h
  · rfl
  · simp at h

theorem IsBody.sentPreedit_eq (h : IsBody guestId text cursor body) :
    sentPreedit (body ++ [⟨guestId, 5, [.word serial]⟩]) = text := by
  have hdone : preeditText ⟨guestId, 5, [.word serial]⟩ = none := rfl
  have hall : ∀ t ∈ body.filterMap preeditText, t = text := by
    intro t ht
    obtain ⟨m, hm, hmt⟩ := List.mem_filterMap.mp ht
    have hopcode := opcode_of_preeditText hmt
    rcases h.each m hm with rfl | hother
    · exact (Option.some.inj hmt).symm
    · omega
  rw [sentPreedit, List.filterMap_append, List.filterMap_cons_none hdone, List.filterMap_nil,
    List.append_nil]
  cases hlast : (body.filterMap preeditText).getLast? with
  | some t => exact hall t (List.mem_of_getLast? hlast)
  | none =>
    rw [List.getLast?_eq_none_iff] at hlast
    rcases h.sent with hempty | hmem
    · exact hempty.symm
    · have hin : text ∈ body.filterMap preeditText := List.mem_filterMap.mpr ⟨_, hmem, rfl⟩
      simp [hlast] at hin

theorem IsBody.validCursors (h : IsBody guestId text cursor body) :
    ValidCursors guestId (body ++ [⟨guestId, 5, [.word serial]⟩]) := by
  intro text' cursor' hmem
  rcases List.mem_append.mp hmem with hmem | hmem
  · have hopcode : (preeditMessage guestId text' cursor').opcode = 2 := rfl
    rcases h.each _ hmem with heq | hother
    · obtain ⟨rfl, rfl⟩ := preeditMessage_inj heq
      exact h.cursor
    · omega
  · simp [preeditMessage] at hmem

theorem IsBody.opcode_ne (h : IsBody guestId text cursor body) : ∀ m ∈ body, m.opcode ≠ 5 := by
  intro m hm
  rcases h.each m hm with rfl | hother
  · simp [preeditMessage]
  · omega

/-- A composition that fits is a transaction; one that does not leaves no trace. -/
theorem compose_cases {finish : TextInputState → TextInputState} {s : TextInputState}
    (hs : c.textInputs.get guestId = some s) (hbody : IsBody guestId text cursor body)
    (hfinish : (finish s).currentPreedit = text) (serial : ℕ) :
    let c' := compose c guestId (body ++ [⟨guestId, 5, [.word serial]⟩]) finish
    c' = c ∨ Transacts c c' guestId (body ++ [⟨guestId, 5, [.word serial]⟩]) := by
  dsimp only
  unfold compose encodeTransaction
  split_ifs with hfits
  · refine .inr {
      queue := rfl
      fits := List.all_eq_true.mp hfits
      done := ⟨body, serial, rfl, hbody.opcode_ne⟩
      preedit := ⟨finish s, ?_, hfinish.trans hbody.sentPreedit_eq.symm⟩
      cursors := hbody.validCursors
      other := fun i hi => ?_ }
    · simp [InputContext.toGuest, InputContext.onTextInput, hs]
    · simp [InputContext.toGuest, InputContext.onTextInput, hi]
  · exact .inl rfl

/-! ## The handlers -/

/-- An event that left no trace, or was a transaction. -/
def AllOrNothing (c c' : InputContext) : Prop :=
  (c'.hostToClientQueue = c.hostToClientQueue ∧ c'.textInputs = c.textInputs) ∨
    ∃ guestId messages, Transacts c c' guestId messages

theorem AllOrNothing.refl (c : InputContext) : AllOrNothing c c := .inl ⟨rfl, rfl⟩

theorem allOrNothing_compose (finish : TextInputState → TextInputState) (serial : ℕ)
    {s : TextInputState}
    (hs : c.textInputs.get guestId = some s) (hbody : IsBody guestId text cursor body)
    (hfinish : (finish s).currentPreedit = text) :
    AllOrNothing c (compose c guestId (body ++ [⟨guestId, 5, [.word serial]⟩]) finish) := by
  rcases compose_cases hs hbody hfinish serial with heq | htransacts
  · rw [heq]
    exact .refl c
  · exact .inr ⟨guestId, _, htransacts⟩

theorem exists_plan {α : Type} {f : TextInputState → Option α} {plan : α}
    (h : (c.textInputs.get guestId).bind f = some plan) :
    ∃ s, c.textInputs.get guestId = some s ∧ f s = some plan :=
  Option.bind_eq_some_iff.mp h

theorem allOrNothing_preeditString (c : InputContext) (hostId : ℕ) (text commit : String) :
    AllOrNothing c (onPreeditString c hostId text commit) := by
  unfold onPreeditString
  cases c.shadowTable.getGuestId hostId with
  | none => exact .refl c
  | some guestId =>
    dsimp only
    cases hplan : (c.textInputs.get guestId).bind TextInputState.prepareComposition with
    | none => exact .refl c
    | some plan =>
      obtain ⟨s, hs, -⟩ := exists_plan hplan
      dsimp only
      set cursor := resolvePreeditCursor text plan.selection plan.cursor
      set fallback : List QueuedMessage :=
        if plan.preedit ≠ "" ∧ text = "" ∧ commit ≠ "" then [⟨guestId, 3, [.text commit]⟩] else []
        with hdef
      have hfallback : ∀ m ∈ fallback, m.opcode = 3 := by
        rw [hdef]
        split_ifs <;> simp
      have hbody : IsBody guestId text cursor
          (fallback ++ [preeditMessage guestId text cursor]) := {
        each := by
          intro m hm
          rcases List.mem_append.mp hm with hm | hm
          · exact .inr (.inl (hfallback m hm))
          · exact .inl (List.mem_singleton.mp hm)
        sent := .inr (List.mem_append_right _ (List.mem_singleton_self _))
        cursor := validCursor_resolve text _ _ }
      have hcompose := allOrNothing_compose (TextInputState.finishHostPreedit text)
        plan.doneSerial hs hbody rfl
      rwa [List.append_assoc] at hcompose

theorem allOrNothing_commitString (c : InputContext) (hostId : ℕ) (text : String) :
    AllOrNothing c (onCommitString c hostId text) := by
  unfold onCommitString
  cases c.shadowTable.getGuestId hostId with
  | none => exact .refl c
  | some guestId =>
    dsimp only
    cases hplan : (c.textInputs.get guestId).bind TextInputState.prepareComposition with
    | none => exact .refl c
    | some plan =>
      obtain ⟨s, hs, -⟩ := exists_plan hplan
      dsimp only
      set clear : List QueuedMessage :=
        if plan.preedit ≠ "" then [preeditMessage guestId "" (0, 0)] else [] with hclear
      set deletes : List QueuedMessage :=
        plan.deletes.map fun range => ⟨guestId, 4, [.word range.1, .word range.2]⟩
        with hdeletes
      have hbody : IsBody guestId "" (0, 0) (clear ++ deletes ++ [⟨guestId, 3, [.text text]⟩]) := {
        each := by
          intro m hm
          simp only [List.mem_append, List.mem_singleton] at hm
          rcases hm with (hm | hm) | rfl
          · rw [hclear] at hm
            split_ifs at hm
            · exact .inl (List.mem_singleton.mp hm)
            · simp at hm
          · obtain ⟨range, -, rfl⟩ := List.mem_map.mp hm
            exact .inr (.inr rfl)
          · exact .inr (.inl rfl)
        sent := .inl rfl
        cursor := validCursor_empty }
      have hcompose := allOrNothing_compose TextInputState.finishHostCommit
        plan.doneSerial hs hbody rfl
      rwa [List.append_assoc] at hcompose

theorem isBody_region (guestId : ℕ) (range : List Payload) (preedit : String)
    (selection : Option (ℕ × ℕ)) (cursor : Option ℤ) :
    IsBody guestId preedit (resolvePreeditCursor preedit selection cursor)
      [⟨guestId, 4, range⟩,
        preeditMessage guestId preedit (resolvePreeditCursor preedit selection cursor)] where
  each m hm := by
    rcases List.mem_cons.mp hm with rfl | hm
    · exact .inr (.inr rfl)
    · exact .inl (List.mem_singleton.mp hm)
  sent := .inr (List.mem_cons_of_mem _ (List.mem_singleton_self _))
  cursor := validCursor_resolve preedit selection cursor

theorem allOrNothing_setPreeditRegion (c : InputContext) (hostExtId : ℕ) (index : ℤ)
    (length : ℕ) : AllOrNothing c (onSetPreeditRegion c hostExtId index length) := by
  unfold onSetPreeditRegion
  cases guestForExtension c hostExtId with
  | none => exact .refl c
  | some guestId =>
    dsimp only
    split
    · exact .refl c
    · rename_i plan text cursor anchor hplan
      obtain ⟨s, hs, -⟩ := exists_plan hplan
      split_ifs with hvalid
      · exact allOrNothing_compose _ _ hs (isBody_region guestId _ _ plan.selection _) rfl
      · exact .refl c

theorem preedit_of_prepareComposition {s : TextInputState} {plan : CompositionPlan}
    (h : s.prepareComposition = some plan) : s.currentPreedit = plan.preedit := by
  unfold TextInputState.prepareComposition at h
  split_ifs at h
  rw [← Option.some.inj h]

/-- The keys of an empty confirmation are no text-input events. -/
theorem isBody_keys (guestId : ℕ) (pair : Option KeyPair) :
    IsBody guestId "" (0, 0) ((pair.map KeyPair.messages).getD []) := by
  refine ⟨fun m hm => .inr (.inl ?_), .inl rfl, validCursor_empty⟩
  cases pair with
  | none => simp at hm
  | some pair =>
    simp only [Option.map_some, Option.getD_some, KeyPair.messages, List.mem_cons,
      List.not_mem_nil, or_false] at hm
    rcases hm with rfl | rfl <;> rfl

theorem fits_keys (pair : Option KeyPair) :
    ∀ m ∈ (pair.map KeyPair.messages).getD [], m.fits = true := by
  intro m hm
  cases pair with
  | none => simp at hm
  | some pair =>
    simp only [Option.map_some, Option.getD_some, KeyPair.messages, List.mem_cons,
      List.not_mem_nil, or_false] at hm
    rcases hm with rfl | rfl <;> rfl

theorem allOrNothing_confirmPreedit (c : InputContext) (hostExtId : ℕ)
    (held : Option (Option KeyPair)) :
    AllOrNothing c (onConfirmPreedit c hostExtId (recoveredMessages c hostExtId held)) := by
  unfold onConfirmPreedit recoveredMessages
  cases guestForExtension c hostExtId with
  | none => exact .refl c
  | some guestId =>
    dsimp only
    cases hplan : (c.textInputs.get guestId).bind TextInputState.prepareComposition with
    | none => exact .refl c
    | some plan =>
      obtain ⟨s, hs, hs'⟩ := exists_plan hplan
      dsimp only
      split_ifs with hempty
      · cases held with
        | none => exact .inl ⟨List.append_nil _, rfl⟩
        | some pair =>
          have hkeys := isBody_keys guestId pair
          refine .inr ⟨guestId, _, {
            queue := rfl
            fits := ?_
            done := ⟨_, plan.doneSerial, rfl, hkeys.opcode_ne⟩
            preedit := ⟨s, hs, ?_⟩
            cursors := hkeys.validCursors
            other := fun _ _ => rfl }⟩
          · intro m hm
            rcases List.mem_append.mp hm with hm | hm
            · exact fits_keys pair m hm
            · rw [List.mem_singleton.mp hm]
              rfl
          · rw [hkeys.sentPreedit_eq, ← hempty]
            exact preedit_of_prepareComposition hs'
      · have hbody : IsBody guestId "" (0, 0)
            [preeditMessage guestId "" (0, 0), ⟨guestId, 3, [.text plan.preedit]⟩] := {
          each := by
            intro m hm
            rcases List.mem_cons.mp hm with rfl | hm
            · exact .inl rfl
            · exact .inr (.inl (by rw [List.mem_singleton.mp hm]))
          sent := .inl rfl
          cursor := validCursor_empty }
        exact allOrNothing_compose _ _ hs hbody rfl

/-- A composition event of the host either queues nothing for the guest and leaves every text
input as it is, or queues one transaction that a single `done` closes, whose preedit is the
one the text input keeps. Every cursor that is sent is hidden or lies between characters of
its text. -/
theorem host_text_event (c : InputContext) (e : HostTextEvent) : AllOrNothing c (e.handle c) := by
  cases e with
  | preeditString hostId text commit => exact allOrNothing_preeditString c hostId text commit
  | commitString hostId text => exact allOrNothing_commitString c hostId text
  | setPreeditRegion hostExtId index length =>
    exact allOrNothing_setPreeditRegion c hostExtId index length
  | confirmPreedit hostExtId held => exact allOrNothing_confirmPreedit c hostExtId held

end Sommelier
