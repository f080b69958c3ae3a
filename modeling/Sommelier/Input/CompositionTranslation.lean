import Sommelier.Input.EditorCommits
import Sommelier.Input.PreeditRegion
import Sommelier.Lib.SplitText

/-!
# Translation of compositions

The host composes text with the events of its protocol: styles and cursors wait for the preedit
they belong to, and deletions for the commit, one after the other. The guest gets the fields of
another protocol, which wait for a `done`, the last one of each kind. Two clients follow a
composition, one with the events of the host and one with what is sent to the guest. They show
the same text, unless the deletions of a commit are more than the last one that is kept.

## Main definitions

* `CompositionEvent`: the events of the host.
* `HostClient`: a client of the host protocol.
* `translationSystem`: the two clients while the host object is active.
* `composition_translated`: when the clients agree.
-/
namespace Sommelier

/-! ## The host protocol -/

/-- What a host text input and its extension send to compose text. A confirmed preedit becomes
text before the caret; it comes with the key that is held, if any. -/
inductive CompositionEvent
  | preeditStyling (index length style : ℕ)
  | preeditCursor (index : ℤ)
  | deleteSurroundingText (index : ℤ) (length : ℕ)
  | preeditString (serial : ℕ) (text commit : String)
  | commitString (serial : ℕ) (text : String)
  | confirmPreedit (held : Option (Option KeyPair))

namespace CompositionEvent

def handle (c : InputContext) (sender : ℕ) : CompositionEvent → InputContext
  | preeditStyling index length style => onPreeditStyling c sender index length style
  | preeditCursor index => onPreeditCursor c sender index
  | deleteSurroundingText index length => onDeleteSurroundingText c sender index length
  | preeditString _ text commit => onPreeditString c sender text commit
  | commitString _ text => onCommitString c sender text
  | confirmPreedit held => onConfirmPreedit c sender (recoveredMessages c sender held)

/-- The guest text input of the object that sent the event. -/
def target (c : InputContext) (sender : ℕ) : CompositionEvent → Option ℕ
  | confirmPreedit _ => guestForExtension c sender
  | _ => c.shadowTable.getGuestId sender

def arguments : CompositionEvent → List Payload
  | preeditStyling index length style => [.word index, .word length, .word style]
  | preeditCursor index => [.signed index]
  | deleteSurroundingText index length => [.signed index, .word length]
  | preeditString serial text commit => [.word serial, .text text, .text commit]
  | commitString serial text => [.word serial, .text text]
  | confirmPreedit _ => [.word 0]

/-- The event can arrive in a message, and a range that it deletes touches the caret. -/
structure Arrives (e : CompositionEvent) : Prop where
  fits : (e.arguments.map Payload.size).sum + 8 ≤ 0xffff
  touches : ∀ index length, e = deleteSurroundingText index length →
    SplitText.Touches (index, length)

end CompositionEvent

/-- A client of the host protocol: the text, the preedit at the caret with the cursor that the
host wants in it, if it said so, and what waits for the next preedit or the next commit. -/
structure HostClient where
  text : SplitText UInt8
  preedit : List UInt8
  preeditCursor : Option (ℤ × ℤ)
  pendingCursor : Option ℤ
  pendingSelection : Option (ℕ × ℕ)
  pendingDeletes : List (ℤ × ℕ)

namespace HostClient

def new (text : SplitText UInt8) : HostClient where
  text
  preedit := []
  preeditCursor := none
  pendingCursor := none
  pendingSelection := none
  pendingDeletes := []

/-- The place of the cursor in a preedit, or of a selection; `none` when the host gave none, or
none between characters. -/
def cursorIn (text : String) : Option (ℕ × ℕ) → Option ℤ → Option (ℤ × ℤ)
  | some (index, length), _ =>
    if isCharBoundary text index && isCharBoundary text (index + length) then
      some (index, ↑(index + length))
    else none
  | none, some cursor =>
    if cursor < 0 then some (-1, -1)
    else if isCharBoundary text cursor.toNat then some (cursor, cursor)
    else none
  | none, none => none

/-- The deletions that wait for a commit. -/
def deleted (client : HostClient) : SplitText UInt8 :=
  client.pendingDeletes.foldl (fun text range => text.delete range.1 range.2) client.text

/-- What the events mean. The commit text of a preedit takes the place of the one before when
the host clears it; a commit deletes, and inserts its text. -/
def receive (client : HostClient) : CompositionEvent → HostClient
  | .preeditStyling index length style =>
    if style = 6 then { client with pendingSelection := some (index, length) } else client
  | .preeditCursor index => { client with pendingCursor := some index }
  | .deleteSurroundingText index length =>
    { client with pendingDeletes := client.pendingDeletes ++ [(index, length)] }
  | .preeditString _ text commit =>
    { client with
      text := if client.preedit ≠ [] ∧ text = "" then client.text.insert (asBytes commit)
        else client.text
      preedit := asBytes text
      preeditCursor := cursorIn text client.pendingSelection client.pendingCursor
      pendingCursor := none
      pendingSelection := none }
  | .commitString _ text => .new (client.deleted.insert (asBytes text))
  | .confirmPreedit _ =>
    if client.preedit = [] then client
    else { HostClient.new (client.text.insert client.preedit) with
      pendingDeletes := client.pendingDeletes }

/-- The deletions of a commit delete what the last one of those that are kept deletes. -/
def DeletesAddUp (client : HostClient) : Prop :=
  let deletes := client.pendingDeletes.map SplitText.sides
  let last := (deletes.take maxPendingImeDeletes).getLast?.getD (0, 0)
  min (deletes.map Prod.fst).sum client.text.before.length =
      min last.1 client.text.before.length ∧
    min (deletes.map Prod.snd).sum client.text.after.length = min last.2 client.text.after.length

instance (client : HostClient) : Decidable client.DeletesAddUp :=
  inferInstanceAs (Decidable (_ ∧ _))

end HostClient

/-! ## Both clients -/

def TextClient.text (client : TextClient) : SplitText UInt8 := ⟨client.before, client.after⟩

/-- The text input, and the two clients. -/
structure Translation where
  context : InputContext
  host : HostClient
  guest : TextClient

inductive TranslationInput
  /-- an event of the host, from the text input or its extension -/
  | event (sender : ℕ) (e : CompositionEvent)
  /-- a request of the guest -/
  | request (r : EditorRequest)
  /-- the text or the caret is changed at the client -/
  | edit (text : SplitText UInt8)
  /-- what happens to the rest of the context -/
  | elsewhere (c : InputContext)

/-- What a text input was sent from one state to another. -/
def sentSince (guestId : ℕ) (c c' : InputContext) : List QueuedMessage :=
  (c'.hostToClientQueue.drop c.hostToClientQueue.length).filter fun m => m.senderId == guestId

/-- The text input is active on the host, and the guest wants it to be. -/
structure TextInputState.Served (s : TextInputState) (shadowTable : ShadowTable) : Prop where
  active : s.hostIsActive = true
  enabled : s.committedEnabled = true
  same : s.enabledDirty = false
  surface : (s.activeSurface.bind shadowTable.getHostId).isSome = true

/-- What the handlers of composition events keep of a text input. -/
def TextInputState.composition (s : TextInputState) :
    String × Option ℤ × Option (ℕ × ℕ) × List (ℕ × ℕ) :=
  (s.currentPreedit, s.pendingPreeditCursor, s.pendingPreeditSelection, s.pendingDeletes)

/-- Nothing happened to a composition. -/
structure Quiet (guestId : ℕ) (c c' : InputContext) : Prop where
  state : ∀ s, c.textInputs.get guestId = some s → s.Served c.shadowTable →
    ∃ s', c'.textInputs.get guestId = some s' ∧ s'.Served c'.shadowTable ∧
      s'.composition = s.composition
  queue : sentSince guestId c c' = []

namespace Translation

/-- The context changed, and the guest got what was sent. -/
def proceed (t : Translation) (guestId : ℕ) (c : InputContext) : Translation :=
  { t with
    context := c
    guest := (sentSince guestId t.context c).foldl TextClient.receive t.guest }

/-- The clients show the same text and the same preedit, with the cursor where the host wants
it. -/
structure Agrees (t : Translation) : Prop where
  text : t.guest.text = t.host.text
  preedit : t.guest.preedit = t.host.preedit
  cursor : t.host.preedit ≠ [] → ∀ cursor, t.host.preeditCursor = some cursor →
    t.guest.preeditCursor = cursor

end Translation

/-- A text input from the moment the host object is active until something ends the
composition. -/
def translationSystem (guestId : ℕ) : TransitionSystem Translation TranslationInput where
  init t := (∃ s, t.context.textInputs.get guestId = some s ∧ s.Served t.context.shadowTable ∧
      s = s.clearHostComposition) ∧
    t.host = .new t.guest.text ∧ t.guest.preedit = [] ∧ t.guest.pendingDelete = (0, 0) ∧
    t.guest.pendingCommit = [] ∧ t.guest.pendingPreedit = ([], 0, 0)
  step t
    | .event sender e =>
      some { t.proceed guestId (e.handle t.context sender) with host := t.host.receive e }
    | .request r => (r.handle t.context guestId).map (t.proceed guestId)
    | .edit text => some { t with
        host := { t.host with text }
        guest := { t.guest with before := text.before, after := text.after } }
    | .elsewhere c => some (t.proceed guestId c)

/-- The events arrive from the objects of the text input, the requests go on with what the guest
has enabled, and what else happens leaves the composition alone. -/
def TranslationInput.Admissible (guestId : ℕ) (t : Translation) : TranslationInput → Prop
  | event sender e => e.Arrives ∧ e.target t.context sender = some guestId
  | request r => r.resets = false
  | edit _ => True
  | elsewhere c => Quiet guestId t.context c

/-- The inputs that are translated faithfully. -/
def TranslationInput.Faithful (guestId : ℕ) (t : Translation) (i : TranslationInput) : Prop :=
  i.Admissible guestId t ∧
    ∀ sender serial text, i = event sender (.commitString serial text) → t.host.DeletesAddUp

/-! ## What a client receives -/

variable {c c' : InputContext} {guestId sender serial : ℕ} {s : TextInputState}
  {client : TextClient} {messages : List QueuedMessage}

theorem sentSince_append (h : c'.hostToClientQueue = c.hostToClientQueue ++ messages) :
    sentSince guestId c c' = messages.filter fun m => m.senderId == guestId := by
  simp [sentSince, h]

theorem sentSince_of_keep (h : c'.hostToClientQueue = c.hostToClientQueue) :
    sentSince guestId c c' = [] := by
  simp [sentSince, h]

theorem asBytes_eq_nil {text : String} : asBytes text = [] ↔ text = "" := by
  rw [← List.length_eq_zero_iff, length_asBytes, String.utf8ByteSize_eq_zero_iff]

namespace TextClient

@[simp] theorem receive_preedit (text : String) (cursor : ℤ × ℤ) :
    client.receive (preeditMessage guestId text cursor) =
      { client with pendingPreedit := (asBytes text, cursor) } := rfl

@[simp] theorem receive_commit (text : String) :
    client.receive ⟨guestId, 3, [.text text]⟩ = { client with pendingCommit := asBytes text } := rfl

@[simp] theorem receive_delete (before after : ℕ) :
    client.receive ⟨guestId, 4, [.word before, .word after]⟩ =
      { client with pendingDelete := (before, after) } := rfl

@[simp] theorem receive_done :
    client.receive ⟨guestId, 5, [.word serial]⟩ = client.applyDone := rfl

/-- Keys are no text-input events. -/
theorem receive_keys (pair : KeyPair) : ∀ m ∈ pair.messages, client.receive m = client := by
  simp [KeyPair.messages, receive]

theorem foldl_receive_of_ignored (h : ∀ m ∈ messages, client.receive m = client) :
    messages.foldl receive client = client := by
  induction messages with
  | nil => rfl
  | cons m messages ih =>
    obtain ⟨hm, hmessages⟩ := List.forall_mem_cons.mp h
    rw [List.foldl_cons, hm, ih hmessages]

/-- Of several deletions the last one is kept. -/
theorem foldl_receive_deletes (deletes : List (ℕ × ℕ)) :
    (deletes.map fun range => (⟨guestId, 4, [.word range.1, .word range.2]⟩ :
      QueuedMessage)).foldl receive client =
      { client with pendingDelete := deletes.getLast?.getD client.pendingDelete } := by
  induction deletes generalizing client with
  | nil => rfl
  | cons range deletes ih =>
    rw [List.map_cons, List.foldl_cons, receive_delete, ih, List.getLast?_cons]
    rfl

/-- The text after a `done`. -/
theorem applyDone_text : client.applyDone.text =
    (client.text.deleteAround client.pendingDelete.1 client.pendingDelete.2).insert
      client.pendingCommit := rfl

/-- Nothing waits for a `done`. -/
structure Settled (client : TextClient) : Prop where
  delete : client.pendingDelete = (0, 0)
  commit : client.pendingCommit = []
  preedit : client.pendingPreedit = ([], 0, 0)

theorem settled_applyDone (client : TextClient) : client.applyDone.Settled := ⟨rfl, rfl, rfl⟩

end TextClient

/-! ## The invariant -/

/-- The text input has what waits at a client of the host. -/
structure HostClient.Follows (host : HostClient) (s : TextInputState) : Prop where
  preedit : host.preedit = asBytes s.currentPreedit
  cursor : host.pendingCursor = s.pendingPreeditCursor
  selection : host.pendingSelection = s.pendingPreeditSelection
  deletes : s.pendingDeletes =
    (host.pendingDeletes.map SplitText.sides).take maxPendingImeDeletes
  touches : ∀ range ∈ host.pendingDeletes, SplitText.Touches range
  fits : (Payload.text s.currentPreedit).size + 8 ≤ 0xffff

/-- The text input serves both clients, and nothing waits for a `done`. -/
structure Translation.Tracks (guestId : ℕ) (t : Translation) : Prop where
  state : ∃ s, t.context.textInputs.get guestId = some s ∧ s.Served t.context.shadowTable ∧
    t.host.Follows s
  settled : t.guest.Settled

theorem TextInputState.Served.prepareComposition (h : s.Served c.shadowTable) :
    s.prepareComposition = some ⟨s.guestCommitSerial, s.currentPreedit, s.pendingPreeditSelection,
      s.pendingPreeditCursor, s.pendingDeletes⟩ := by
  rw [TextInputState.prepareComposition, if_pos h.active]

/-- The text input is where it should be. -/
theorem updateHostActivation_of_served (hs : c.textInputs.get guestId = some s)
    (h : s.Served c.shadowTable) : updateHostActivation c guestId = some c := by
  have hactive : s.hostActivation = .active := by
    simpa [TextInputState.hostIsActive] using h.active
  simp [updateHostActivation, hs, h.enabled, h.surface, hactive]

theorem onActive_of_served {f : TextInputState → TextInputState}
    (htarget : c.shadowTable.getGuestId sender = some guestId)
    (hs : c.textInputs.get guestId = some s) (h : s.Served c.shadowTable) :
    onActive c sender f = c.onTextInput guestId f := by
  simp [onActive, activeGuestForHostTextInput, htarget, hs, h.active, Option.filter]

theorem compose_of_fits {f : TextInputState → TextInputState}
    (h : ∀ m ∈ messages, m.fits = true) :
    compose c guestId messages f = (c.onTextInput guestId f).toGuest messages := by
  rw [compose, encodeTransaction, if_pos (List.all_eq_true.mpr h)]

theorem get_onTextInput {f : TextInputState → TextInputState}
    (hs : c.textInputs.get guestId = some s) :
    (c.onTextInput guestId f).textInputs.get guestId = some (f s) := by
  simp [InputContext.onTextInput, hs]

/-! ## Cursors -/

theorem le_of_isCharBoundary {text : String} {n : ℕ} (h : isCharBoundary text n = true) :
    n ≤ text.utf8ByteSize := by
  obtain ⟨l, r, rfl, rfl⟩ := isCharBoundary_iff.mp h
  simp

/-- A place that the host gives is the one that is sent. -/
theorem resolvePreeditCursor_of_cursorIn {text : String} {selection : Option (ℕ × ℕ)}
    {cursor : Option ℤ} {place : ℤ × ℤ} (hsize : text.utf8ByteSize ≤ 0xffffffff)
    (h : HostClient.cursorIn text selection cursor = some place) :
    resolvePreeditCursor text selection cursor = place := by
  cases selection with
  | some range =>
    obtain ⟨index, length⟩ := range
    simp only [HostClient.cursorIn, Option.ite_none_right_eq_some, Bool.and_eq_true,
      Option.some.injEq] at h
    obtain ⟨⟨hindex, hlast⟩, rfl⟩ := h
    have hmin : min (index + length) 0xffffffff = index + length :=
      Nat.min_eq_left ((le_of_isCharBoundary hlast).trans hsize)
    simp [resolvePreeditCursor, hmin, hindex, hlast]
  | none =>
    cases cursor with
    | none => simp [HostClient.cursorIn] at h
    | some cursor =>
      by_cases hnegative : cursor < 0
      · simpa [HostClient.cursorIn, resolvePreeditCursor, hnegative] using h
      · simp only [HostClient.cursorIn, hnegative, if_false, Option.ite_none_right_eq_some,
          Option.some.injEq] at h
        obtain ⟨hboundary, rfl⟩ := h
        simp [resolvePreeditCursor, hnegative, hboundary]

/-! ## Events that wait -/

namespace Translation
variable {t t' : Translation} {host : HostClient} {f : TextInputState → TextInputState}

/-- A text input and a client of the host note something for later; nothing is sent. -/
theorem Tracks.note (h : t.Tracks guestId)
    (hs : t.context.textInputs.get guestId = some s)
    (hserved : (f s).Served t.context.shadowTable) (hfollows : host.Follows (f s)) :
    Tracks guestId { t.proceed guestId (t.context.onTextInput guestId f) with host } := by
  have hsent : sentSince guestId t.context (t.context.onTextInput guestId f) = [] :=
    sentSince_of_keep rfl
  refine ⟨⟨f s, get_onTextInput hs, hserved, hfollows⟩, ?_⟩
  simpa [proceed, hsent] using h.settled

/-- What both clients show stays. -/
theorem Agrees.note (h : t.Agrees) (hqueue : sentSince guestId t.context c = [])
    (htext : host.text = t.host.text) (hpreedit : host.preedit = t.host.preedit)
    (hcursor : host.preeditCursor = t.host.preeditCursor) :
    Agrees { t.proceed guestId c with host } := by
  simp only [proceed, hqueue, List.foldl_nil]
  exact ⟨h.text.trans htext.symm, h.preedit.trans hpreedit.symm, hpreedit ▸ hcursor ▸ h.cursor⟩

/-- The deletions of a text input are bounded. -/
theorem recordDelete_deletes (range : ℕ × ℕ) (deletes : List (ℕ × ℕ))
    (h : s.pendingDeletes = deletes.take maxPendingImeDeletes) :
    (s.recordDelete range.1 range.2).pendingDeletes =
      (deletes ++ [range]).take maxPendingImeDeletes := by
  by_cases hfull : maxPendingImeDeletes ≤ deletes.length
  · have hlength : maxPendingImeDeletes ≤ s.pendingDeletes.length := by
      simp [h, hfull]
    rw [TextInputState.recordDelete, if_pos hlength, h, List.take_append_of_le_length hfull]
  · have htake : s.pendingDeletes = deletes := by
      rw [h, List.take_of_length_le (by omega)]
    have hlength : (deletes ++ [range]).length ≤ maxPendingImeDeletes := by
      simp
      omega
    rw [TextInputState.recordDelete, if_neg (by rwa [htake]), List.take_of_length_le hlength,
      htake]

theorem served_recordDelete (h : s.Served c.shadowTable) (range : ℕ × ℕ) :
    (s.recordDelete range.1 range.2).Served c.shadowTable := by
  unfold TextInputState.recordDelete
  split_ifs
  · exact h
  · exact ⟨h.active, h.enabled, h.same, h.surface⟩

theorem recordDelete_composition (range : ℕ × ℕ) :
    (s.recordDelete range.1 range.2).currentPreedit = s.currentPreedit ∧
      (s.recordDelete range.1 range.2).pendingPreeditCursor = s.pendingPreeditCursor ∧
      (s.recordDelete range.1 range.2).pendingPreeditSelection = s.pendingPreeditSelection := by
  unfold TextInputState.recordDelete
  split_ifs <;> simp

theorem onDeleteSurroundingText_of_touches {index : ℤ} {length : ℕ}
    (h : SplitText.Touches (index, length)) : onDeleteSurroundingText c sender index length =
      onActive c sender fun s => s.recordDelete (SplitText.sides (index, length)).1
        (SplitText.sides (index, length)).2 := by
  have hrange : ¬ (0 < index ∨ index + length < 0) := by
    obtain ⟨hindex, hlength⟩ := h
    dsimp only at hindex hlength
    omega
  simp [onDeleteSurroundingText, convertDeleteRange, hrange, SplitText.sides]

/-! ## Events that are sent on -/

/-- The state after a transaction that fits. -/
theorem proceed_compose (hmessages : ∀ m ∈ messages, m.fits = true)
    (hsender : ∀ m ∈ messages, m.senderId = guestId) :
    t.proceed guestId (compose t.context guestId messages f) = { t with
      context := (t.context.onTextInput guestId f).toGuest messages
      guest := messages.foldl TextClient.receive t.guest } := by
  have hsent : sentSince guestId t.context
      ((t.context.onTextInput guestId f).toGuest messages) = messages := by
    have hqueue : ((t.context.onTextInput guestId f).toGuest messages).hostToClientQueue =
        t.context.hostToClientQueue ++ messages := rfl
    rw [sentSince_append hqueue, List.filter_eq_self]
    intro m hm
    simp [hsender m hm]
  simp [proceed, compose_of_fits hmessages, hsent]

/-- The text that takes the place of a preedit that the host clears. -/
def fallbackMessages (guestId : ℕ) (preedit text commit : String) : List QueuedMessage :=
  if preedit ≠ "" ∧ text = "" ∧ commit ≠ "" then [⟨guestId, 3, [.text commit]⟩] else []

theorem mem_fallbackMessages {preedit text commit : String} {m : QueuedMessage}
    (h : m ∈ fallbackMessages guestId preedit text commit) :
    m = ⟨guestId, 3, [.text commit]⟩ := by
  unfold fallbackMessages at h
  split_ifs at h
  · exact List.mem_singleton.mp h
  · simp at h

theorem foldl_receive_fallback (preedit text commit : String)
    (hcommit : client.pendingCommit = []) :
    (fallbackMessages guestId preedit text commit).foldl TextClient.receive client =
      { client with
        pendingCommit := if asBytes preedit ≠ [] ∧ text = "" then asBytes commit else [] } := by
  have hkeep : client = { client with pendingCommit := [] } := by
    rw [← hcommit]
  by_cases hreset : preedit ≠ "" ∧ text = ""
  · have hbytes : asBytes preedit ≠ [] ∧ text = "" := by
      rwa [ne_eq, asBytes_eq_nil]
    rw [if_pos hbytes]
    by_cases hempty : commit = ""
    · have hnone : asBytes commit = [] := asBytes_eq_nil.mpr hempty
      rw [fallbackMessages, if_neg (by simp [hempty]), hnone]
      exact hkeep
    · rw [fallbackMessages, if_pos ⟨hreset.1, hreset.2, hempty⟩]
      rfl
  · have hbytes : ¬ (asBytes preedit ≠ [] ∧ text = "") := by
      rwa [ne_eq, asBytes_eq_nil]
    rw [if_neg hbytes, fallbackMessages, if_neg fun h => hreset ⟨h.1, h.2.1⟩]
    exact hkeep

theorem onPreeditString_of_served {text commit : String}
    (htarget : c.shadowTable.getGuestId sender = some guestId)
    (hs : c.textInputs.get guestId = some s) (h : s.Served c.shadowTable) :
    onPreeditString c sender text commit = compose c guestId
      (fallbackMessages guestId s.currentPreedit text commit ++
        [preeditMessage guestId text (resolvePreeditCursor text s.pendingPreeditSelection
            s.pendingPreeditCursor),
          ⟨guestId, 5, [.word s.guestCommitSerial]⟩])
      (TextInputState.finishHostPreedit text) := by
  simp [onPreeditString, htarget, hs, h.prepareComposition, fallbackMessages]

/-- A preedit is shown by both clients. -/
theorem preeditString_step {text commit : String} (h : t.Tracks guestId) (hagrees : t.Agrees)
    (harrives : CompositionEvent.Arrives (.preeditString serial text commit))
    (htarget : t.context.shadowTable.getGuestId sender = some guestId) :
    let t' := { t.proceed guestId (onPreeditString t.context sender text commit) with
      host := t.host.receive (.preeditString serial text commit) }
    t'.Tracks guestId ∧ t'.Agrees := by
  obtain ⟨⟨s, hs, hserved, hfollows⟩, hsettled⟩ := h
  have hfits := harrives.fits
  simp only [CompositionEvent.arguments, Payload.size, List.map_cons, List.map_nil,
    List.sum_cons, List.sum_nil] at hfits
  dsimp only
  rw [onPreeditString_of_served htarget hs hserved, proceed_compose]
  · set cursor := resolvePreeditCursor text s.pendingPreeditSelection s.pendingPreeditCursor
      with hcursor
    rw [List.foldl_append, foldl_receive_fallback _ _ _ hsettled.commit, ← hfollows.preedit]
    simp only [List.foldl_cons, List.foldl_nil, TextClient.receive_preedit,
      TextClient.receive_done]
    refine ⟨⟨⟨_, get_onTextInput hs, ?_, ?_⟩, TextClient.settled_applyDone _⟩, ?_⟩
    · exact ⟨hserved.active, hserved.enabled, hserved.same, hserved.surface⟩
    · exact {
        preedit := rfl
        cursor := rfl
        selection := rfl
        deletes := hfollows.deletes
        touches := hfollows.touches
        fits := by
          simp only [Payload.size, TextInputState.finishHostPreedit, TextInputState.finishPreedit]
          omega }
    · refine { text := ?_, preedit := rfl, cursor := fun _ place hplace => ?_ }
      · rw [TextClient.applyDone_text]
        dsimp only [TextClient.text]
        rw [hsettled.delete, SplitText.deleteAround_zero, HostClient.receive, ← hagrees.text]
        dsimp only
        split_ifs
        · rfl
        · simp [SplitText.insert, TextClient.text]
      · exact resolvePreeditCursor_of_cursorIn (by omega)
          (hfollows.cursor ▸ hfollows.selection ▸ hplace)
  · intro m hm
    rcases List.mem_append.mp hm with hm | hm
    · rw [mem_fallbackMessages hm]
      simp [QueuedMessage.fits, Payload.size]
      omega
    · simp only [List.mem_cons, List.not_mem_nil, or_false] at hm
      rcases hm with rfl | rfl
      · simp [QueuedMessage.fits, preeditMessage, Payload.size]
        omega
      · rfl
  · intro m hm
    rcases List.mem_append.mp hm with hm | hm
    · rw [mem_fallbackMessages hm]
    · simp only [List.mem_cons, List.not_mem_nil, or_false] at hm
      rcases hm with rfl | rfl <;> rfl

/-- The preedit before a commit or a confirmation is cleared, if there is one. -/
def clearMessages (guestId : ℕ) (preedit : String) : List QueuedMessage :=
  if preedit ≠ "" then [preeditMessage guestId "" (0, 0)] else []

theorem mem_clearMessages {preedit : String} {m : QueuedMessage}
    (h : m ∈ clearMessages guestId preedit) : m = preeditMessage guestId "" (0, 0) := by
  unfold clearMessages at h
  split_ifs at h
  · exact List.mem_singleton.mp h
  · simp at h

theorem foldl_receive_clear (preedit : String) (hpreedit : client.pendingPreedit = ([], 0, 0)) :
    (clearMessages guestId preedit).foldl TextClient.receive client = client := by
  unfold clearMessages
  split_ifs
  · have hempty : asBytes "" = [] := rfl
    rw [List.foldl_cons, List.foldl_nil, TextClient.receive_preedit, hempty, ← hpreedit]
  · rfl

def deleteMessages (guestId : ℕ) (deletes : List (ℕ × ℕ)) : List QueuedMessage :=
  deletes.map fun range => ⟨guestId, 4, [.word range.1, .word range.2]⟩

theorem onCommitString_of_served {text : String}
    (htarget : c.shadowTable.getGuestId sender = some guestId)
    (hs : c.textInputs.get guestId = some s) (h : s.Served c.shadowTable) :
    onCommitString c sender text = compose c guestId
      (clearMessages guestId s.currentPreedit ++ deleteMessages guestId s.pendingDeletes ++
        [⟨guestId, 3, [.text text]⟩, ⟨guestId, 5, [.word s.guestCommitSerial]⟩])
      TextInputState.finishHostCommit := by
  simp [onCommitString, htarget, hs, h.prepareComposition, clearMessages, deleteMessages]

/-- The deletions of the two clients before a commit. -/
theorem deleted_eq_iff (hfollows : t.host.Follows s) (htext : t.guest.text = t.host.text) :
    t.guest.text.deleteAround (s.pendingDeletes.getLast?.getD (0, 0)).1
        (s.pendingDeletes.getLast?.getD (0, 0)).2 = t.host.deleted ↔ t.host.DeletesAddUp := by
  rw [HostClient.deleted, SplitText.foldl_delete _ hfollows.touches, htext,
    SplitText.deleteAround_inj, hfollows.deletes, HostClient.DeletesAddUp]
  simp only [List.map_map, Function.comp_def]
  exact and_congr eq_comm eq_comm

/-- A commit ends the composition of both clients; they show the same text when its deletions
add up. -/
theorem commitString_step {text : String} (h : t.Tracks guestId) (hagrees : t.Agrees)
    (harrives : CompositionEvent.Arrives (.commitString serial text))
    (htarget : t.context.shadowTable.getGuestId sender = some guestId) :
    let t' := { t.proceed guestId (onCommitString t.context sender text) with
      host := t.host.receive (.commitString serial text) }
    t'.Tracks guestId ∧ (t'.Agrees ↔ t.host.DeletesAddUp) := by
  obtain ⟨⟨s, hs, hserved, hfollows⟩, hsettled⟩ := h
  have hfits := harrives.fits
  simp only [CompositionEvent.arguments, Payload.size, List.map_cons, List.map_nil,
    List.sum_cons, List.sum_nil] at hfits
  dsimp only
  rw [onCommitString_of_served htarget hs hserved, proceed_compose]
  · rw [List.foldl_append, List.foldl_append, foldl_receive_clear _ hsettled.preedit,
      deleteMessages, TextClient.foldl_receive_deletes, hsettled.delete]
    simp only [List.foldl_cons, List.foldl_nil, TextClient.receive_commit,
      TextClient.receive_done]
    refine ⟨⟨⟨_, get_onTextInput hs, ?_, ?_⟩, TextClient.settled_applyDone _⟩, ?_⟩
    · exact ⟨hserved.active, hserved.enabled, hserved.same, hserved.surface⟩
    · exact {
        preedit := rfl
        cursor := rfl
        selection := rfl
        deletes := rfl
        touches := by simp [HostClient.receive, HostClient.new]
        fits := by
          simp [TextInputState.finishHostCommit, TextInputState.clearHostComposition,
            Payload.size] }
    · rw [← deleted_eq_iff hfollows hagrees.text]
      constructor
      · intro hshown
        exact SplitText.insert_inj.mp hshown.text
      · intro hdeleted
        exact {
          text := SplitText.insert_inj.mpr hdeleted
          preedit := congrArg Prod.fst hsettled.preedit
          cursor := by simp [HostClient.receive, HostClient.new] }
  · intro m hm
    simp only [deleteMessages, List.mem_append, List.mem_map, List.mem_cons, List.not_mem_nil,
      or_false] at hm
    rcases hm with (hm | ⟨range, -, rfl⟩) | rfl | rfl
    · rw [mem_clearMessages hm]
      rfl
    · rfl
    · simp [QueuedMessage.fits, Payload.size]
      omega
    · rfl
  · intro m hm
    simp only [deleteMessages, List.mem_append, List.mem_map, List.mem_cons, List.not_mem_nil,
      or_false] at hm
    rcases hm with (hm | ⟨range, -, rfl⟩) | rfl | rfl
    · rw [mem_clearMessages hm]
      rfl
    · rfl
    · rfl
    · rfl

theorem onConfirmPreedit_of_served {held : Option (Option KeyPair)}
    (htarget : guestForExtension c sender = some guestId)
    (hs : c.textInputs.get guestId = some s) (h : s.Served c.shadowTable) :
    onConfirmPreedit c sender (recoveredMessages c sender held) =
      if s.currentPreedit = "" then
        c.toGuest ((held.map fun pair => (pair.map KeyPair.messages).getD [] ++
          [⟨guestId, 5, [.word s.guestCommitSerial]⟩]).getD [])
      else compose c guestId
        [preeditMessage guestId "" (0, 0), ⟨guestId, 3, [.text s.currentPreedit]⟩,
          ⟨guestId, 5, [.word s.guestCommitSerial]⟩]
        TextInputState.finishConfirmPreedit := by
  cases held <;>
    simp [onConfirmPreedit, recoveredMessages, htarget, hs, h.prepareComposition]

/-- An empty `done` changes nothing that is shown. -/
theorem applyDone_of_settled (h : client.Settled) (hpreedit : client.preedit = []) :
    client.applyDone = { client with preeditCursor := (0, 0) } := by
  simp [TextClient.applyDone, h.delete, h.commit, h.preedit, hpreedit]

/-- What a client makes of keys and a `done`. -/
theorem foldl_receive_recovered (guestId serial : ℕ) (held : Option (Option KeyPair))
    (h : client.Settled) (hpreedit : client.preedit = []) :
    let messages := (held.map fun pair => (pair.map KeyPair.messages).getD [] ++
      [(⟨guestId, 5, [.word serial]⟩ : QueuedMessage)]).getD []
    let client' := (messages.filter fun m => m.senderId == guestId).foldl TextClient.receive client
    client' = client ∨ client' = { client with preeditCursor := (0, 0) } := by
  cases held with
  | none => exact .inl rfl
  | some pair =>
    have hkeys : ∀ m ∈ ((pair.map KeyPair.messages).getD []).filter fun m => m.senderId == guestId,
        client.receive m = client := by
      intro m hm
      cases pair with
      | none => simp at hm
      | some pair => exact client.receive_keys pair m (List.mem_of_mem_filter hm)
    right
    simp only [Option.map_some, Option.getD_some, List.filter_append, List.foldl_append,
      TextClient.foldl_receive_of_ignored hkeys]
    simpa using applyDone_of_settled h hpreedit

/-- A confirmed preedit becomes text at both clients. -/
theorem confirmPreedit_step {held : Option (Option KeyPair)} (h : t.Tracks guestId)
    (hagrees : t.Agrees) (htarget : guestForExtension t.context sender = some guestId) :
    let t' := { t.proceed guestId (onConfirmPreedit t.context sender
        (recoveredMessages t.context sender held)) with
      host := t.host.receive (.confirmPreedit held) }
    t'.Tracks guestId ∧ t'.Agrees := by
  obtain ⟨⟨s, hs, hserved, hfollows⟩, hsettled⟩ := h
  dsimp only
  rw [onConfirmPreedit_of_served htarget hs hserved, HostClient.receive]
  by_cases hempty : s.currentPreedit = ""
  · have hpreedit : t.host.preedit = [] := by
      rw [hfollows.preedit, hempty]
      rfl
    rw [if_pos hempty, if_pos hpreedit]
    set messages := (held.map fun pair => (pair.map KeyPair.messages).getD [] ++
      [(⟨guestId, 5, [.word s.guestCommitSerial]⟩ : QueuedMessage)]).getD [] with hmessages
    have hqueue : (t.context.toGuest messages).hostToClientQueue =
        t.context.hostToClientQueue ++ messages := rfl
    simp only [proceed, sentSince_append hqueue]
    have hguest := foldl_receive_recovered guestId s.guestCommitSerial held hsettled
      (hagrees.preedit.trans hpreedit)
    dsimp only at hguest
    rw [← hmessages] at hguest
    generalize (messages.filter fun m => m.senderId == guestId).foldl TextClient.receive t.guest =
      guest at hguest ⊢
    refine ⟨⟨⟨s, hs, hserved, hfollows⟩, ?_⟩, ?_, ?_, fun hne => absurd hpreedit hne⟩
    · rcases hguest with rfl | rfl
      · exact hsettled
      · exact ⟨hsettled.delete, hsettled.commit, hsettled.preedit⟩
    · rcases hguest with rfl | rfl <;> exact hagrees.text
    · rcases hguest with rfl | rfl <;> exact hagrees.preedit
  · have hpreedit : t.host.preedit ≠ [] := by
      rwa [hfollows.preedit, ne_eq, asBytes_eq_nil]
    rw [if_neg hempty, if_neg hpreedit, proceed_compose]
    · simp only [List.foldl_cons, List.foldl_nil, TextClient.receive_preedit,
        TextClient.receive_commit, TextClient.receive_done]
      refine ⟨⟨⟨_, get_onTextInput hs, ?_, ?_⟩, TextClient.settled_applyDone _⟩, ?_, rfl, ?_⟩
      · exact ⟨hserved.active, hserved.enabled, hserved.same, hserved.surface⟩
      · exact {
          preedit := rfl
          cursor := rfl
          selection := rfl
          deletes := hfollows.deletes
          touches := hfollows.touches
          fits := by
            simp [TextInputState.finishConfirmPreedit, TextInputState.finishPreedit,
              Payload.size] }
      · rw [TextClient.applyDone_text]
        dsimp only [TextClient.text, HostClient.new]
        rw [hsettled.delete, SplitText.deleteAround_zero, hfollows.preedit, ← hagrees.text]
        rfl
      · intro hne
        exact absurd rfl hne
    · have hfits := hfollows.fits
      simp only [List.mem_cons, List.not_mem_nil, or_false, forall_eq_or_imp, forall_eq]
      refine ⟨rfl, ?_, rfl⟩
      simpa [QueuedMessage.fits] using hfits
    · simp [preeditMessage]

end Translation

/-! ## Requests -/

/-- A change of what a composition does not depend on. -/
theorem quiet_of_modify {f : TextInputState → TextInputState}
    (hserved : ∀ s, s.Served c.shadowTable → (f s).Served c.shadowTable)
    (hcomposition : ∀ s, s.Served c.shadowTable → (f s).composition = s.composition) :
    Quiet guestId c (c.onTextInput guestId f) where
  state s hs h := ⟨f s, get_onTextInput hs, hserved s h, hcomposition s h⟩
  queue := sentSince_of_keep rfl

theorem quiet_refl (c : InputContext) : Quiet guestId c c where
  state s hs h := ⟨s, hs, h, rfl⟩
  queue := sentSince_of_keep rfl

theorem quiet_onFocused {f : TextInputState → TextInputState}
    (hserved : ∀ s, s.Served c.shadowTable → (f s).Served c.shadowTable)
    (hcomposition : ∀ s, s.Served c.shadowTable → (f s).composition = s.composition) :
    Quiet guestId c (onFocused c guestId f) := by
  unfold onFocused
  split_ifs
  · exact quiet_of_modify hserved hcomposition
  · exact quiet_refl c

/-- A commit that does not enable or disable goes on with the composition. -/
theorem TextInputState.Served.finishGuestCommit {shadowTable : ShadowTable}
    (h : s.Served shadowTable) (conflict : Bool) :
    (s.finishGuestCommit (s.prepareGuestCommit conflict)).Served shadowTable ∧
      (s.finishGuestCommit (s.prepareGuestCommit conflict)).composition = s.composition := by
  have hreset : (s.prepareGuestCommit conflict).resetsComposition = false := h.same
  simp only [TextInputState.finishGuestCommit, TextInputState.finishEnabled, hreset,
    Bool.false_eq_true, if_false]
  exact ⟨⟨h.active, h.enabled, h.same, h.surface⟩, rfl⟩

theorem quiet_commit (h : onCommitTextInput c guestId = some c')
    (hs : c.textInputs.get guestId = some s) (hserved : s.Served c.shadowTable) :
    Quiet guestId c c' := by
  unfold onCommitTextInput at h
  split_ifs at h
  · exact Option.some.inj h ▸ quiet_refl c
  rw [hs] at h
  dsimp only at h
  split at h
  · exact Option.some.inj h ▸ quiet_refl c
  · obtain ⟨hkept, hcomposition⟩ := hserved.finishGuestCommit (enableConflicts c guestId s)
    rw [updateHostActivation_of_served (get_onTextInput hs) hkept] at h
    obtain rfl := Option.some.inj h
    refine ⟨fun s' hs' _ => ?_, sentSince_of_keep rfl⟩
    obtain rfl := Option.some.inj (hs.symm.trans hs')
    exact ⟨_, get_onTextInput hs, hkept, hcomposition⟩

/-- The requests of a guest that goes on with what it has enabled. -/
theorem quiet_request {r : EditorRequest} (hr : r.resets = false)
    (h : r.handle c guestId = some c') (hs : c.textInputs.get guestId = some s)
    (hserved : s.Served c.shadowTable) : Quiet guestId c c' := by
  cases r with
  | enable => cases hr
  | disable => cases hr
  | setSurroundingText text cursor anchor =>
    obtain rfl := Option.some.inj h
    unfold onSetSurroundingText
    split_ifs
    · exact quiet_onFocused (fun s h => ⟨h.active, h.enabled, h.same, h.surface⟩) fun _ _ => rfl
    · exact quiet_refl c
  | setTextChangeCause cause =>
    obtain rfl := Option.some.inj h
    exact quiet_onFocused (fun s h => ⟨h.active, h.enabled, h.same, h.surface⟩) fun _ _ => rfl
  | setContentType hint purpose =>
    obtain rfl := Option.some.inj h
    exact quiet_onFocused (fun s h => ⟨h.active, h.enabled, h.same, h.surface⟩) fun _ _ => rfl
  | setCursorRectangle x y width height =>
    obtain rfl := Option.some.inj h
    exact quiet_onFocused (fun s h => ⟨h.active, h.enabled, h.same, h.surface⟩) fun _ _ => rfl
  | commit => exact quiet_commit h hs hserved

/-- A client of the host follows a text input whose composition is the same. -/
theorem HostClient.Follows.congr {host : HostClient} {s' : TextInputState} (h : host.Follows s)
    (hs' : s'.composition = s.composition) : host.Follows s' := by
  simp only [TextInputState.composition, Prod.mk.injEq] at hs'
  obtain ⟨hpreedit, hcursor, hselection, hdeletes⟩ := hs'
  exact {
    preedit := hpreedit ▸ h.preedit
    cursor := hcursor ▸ h.cursor
    selection := hselection ▸ h.selection
    deletes := hdeletes ▸ h.deletes
    touches := h.touches
    fits := hpreedit ▸ h.fits }

/-! ## Runs -/

namespace Translation
variable {t t' : Translation} {i : TranslationInput}

theorem tracks_init (h : (translationSystem guestId).init t) : t.Tracks guestId ∧ t.Agrees := by
  obtain ⟨⟨s, hs, hserved, hclear⟩, hhost, hpreedit, hdelete, hcommit, hpending⟩ := h
  refine ⟨⟨⟨s, hs, hserved, ?_⟩, hdelete, hcommit, hpending⟩, ?_⟩
  · rw [hhost, hclear]
    exact {
      preedit := rfl
      cursor := rfl
      selection := rfl
      deletes := rfl
      touches := by simp [HostClient.new]
      fits := by simp [TextInputState.clearHostComposition, Payload.size] }
  · exact ⟨by rw [hhost]; rfl, by rw [hhost, hpreedit]; rfl, by simp [hhost, HostClient.new]⟩

theorem quiet_step (h : t.Tracks guestId) (hagrees : t.Agrees)
    (hquiet : Quiet guestId t.context c) :
    (t.proceed guestId c).Tracks guestId ∧ (t.proceed guestId c).Agrees := by
  obtain ⟨⟨s, hs, hserved, hfollows⟩, hsettled⟩ := h
  obtain ⟨s', hs', hserved', hcomposition⟩ := hquiet.state s hs hserved
  have hproceed : t.proceed guestId c = { t with context := c } := by
    simp [proceed, hquiet.queue]
  rw [hproceed]
  exact ⟨⟨⟨s', hs', hserved', hfollows.congr hcomposition⟩, hsettled⟩,
    hagrees.text, hagrees.preedit, hagrees.cursor⟩

/-- Every event but a commit leaves the clients in agreement, and so does a commit whose deletions
add up. -/
theorem event_step {e : CompositionEvent} (h : t.Tracks guestId) (hagrees : t.Agrees)
    (harrives : e.Arrives) (htarget : e.target t.context sender = some guestId)
    (hdeletes : ∀ serial text, e = .commitString serial text → t.host.DeletesAddUp) :
    let t' := { t.proceed guestId (e.handle t.context sender) with host := t.host.receive e }
    t'.Tracks guestId ∧ t'.Agrees := by
  cases e with
  | preeditStyling index length style =>
    obtain ⟨s, hs, hserved, hfollows⟩ := h.state
    dsimp only [CompositionEvent.handle, HostClient.receive, onPreeditStyling]
    split_ifs
    · rw [onActive_of_served htarget hs hserved]
      exact ⟨h.note hs ⟨hserved.active, hserved.enabled, hserved.same, hserved.surface⟩
        { hfollows with selection := rfl }, hagrees.note (sentSince_of_keep rfl) rfl rfl rfl⟩
    · exact quiet_step h hagrees (quiet_refl _)
  | preeditCursor index =>
    obtain ⟨s, hs, hserved, hfollows⟩ := h.state
    dsimp only [CompositionEvent.handle, HostClient.receive, onPreeditCursor]
    rw [onActive_of_served htarget hs hserved]
    exact ⟨h.note hs ⟨hserved.active, hserved.enabled, hserved.same, hserved.surface⟩
      { hfollows with cursor := rfl }, hagrees.note (sentSince_of_keep rfl) rfl rfl rfl⟩
  | deleteSurroundingText index length =>
    obtain ⟨s, hs, hserved, hfollows⟩ := h.state
    have htouches := harrives.touches index length rfl
    obtain ⟨hpreedit, hcursor, hselection⟩ :=
      recordDelete_composition (s := s) (SplitText.sides (index, length))
    dsimp only [CompositionEvent.handle, HostClient.receive]
    rw [onDeleteSurroundingText_of_touches htouches, onActive_of_served htarget hs hserved]
    refine ⟨h.note hs (served_recordDelete hserved _) ?_,
      hagrees.note (sentSince_of_keep rfl) rfl rfl rfl⟩
    exact {
      preedit := hpreedit.symm ▸ hfollows.preedit
      cursor := hcursor.symm ▸ hfollows.cursor
      selection := hselection.symm ▸ hfollows.selection
      deletes := by
        rw [recordDelete_deletes _ _ hfollows.deletes, List.map_append, List.map_singleton]
      touches := List.forall_mem_append.mpr
        ⟨hfollows.touches, List.forall_mem_singleton.mpr htouches⟩
      fits := hpreedit.symm ▸ hfollows.fits }
  | preeditString serial text commit => exact preeditString_step h hagrees harrives htarget
  | commitString serial text =>
    obtain ⟨htracks, hiff⟩ := commitString_step h hagrees harrives htarget
    exact ⟨htracks, hiff.mpr (hdeletes serial text rfl)⟩
  | confirmPreedit held => exact confirmPreedit_step h hagrees htarget

/-- The clients agree after every step that is translated faithfully. -/
theorem faithful_step (h : t.Tracks guestId) (hagrees : t.Agrees)
    (hi : i.Faithful guestId t) (hstep : (translationSystem guestId).step t i = some t') :
    t'.Tracks guestId ∧ t'.Agrees := by
  obtain ⟨hadmissible, hdeletes⟩ := hi
  cases i with
  | event sender e =>
    obtain rfl := Option.some.inj hstep
    exact event_step h hagrees hadmissible.1 hadmissible.2 fun serial text he =>
      hdeletes sender serial text (by rw [he])
  | request r =>
    obtain ⟨c, hc, rfl⟩ := Option.map_eq_some_iff.mp hstep
    obtain ⟨s, hs, hserved, -⟩ := h.state
    exact quiet_step h hagrees (quiet_request hadmissible hc hs hserved)
  | edit text =>
    obtain rfl := Option.some.inj hstep
    obtain ⟨⟨s, hs, hserved, hfollows⟩, hsettled⟩ := h
    exact ⟨⟨⟨s, hs, hserved, { hfollows with }⟩,
      hsettled.delete, hsettled.commit, hsettled.preedit⟩, rfl, hagrees.preedit, hagrees.cursor⟩
  | elsewhere c =>
    obtain rfl := Option.some.inj hstep
    exact quiet_step h hagrees hadmissible

theorem agrees_of_reachable
    (h : (translationSystem guestId).ReachableWhile
      (fun t i => i.Faithful guestId t) t) : t.Tracks guestId ∧ t.Agrees :=
  h.invariant (fun _ hinit => tracks_init hinit) fun _ _ _ _ hinv hi hstep =>
    faithful_step hinv.1 hinv.2 hi hstep

end Translation

/-- While the host object of a text input is active, a client that follows what the guest is sent
shows the text, the preedit and the cursor of a client that follows the events of the host,
whatever the guest requests and the user changes in between, as long as the deletions of every
commit add up to the last one that is kept. The first commit whose deletions do not is the first
time the two differ. -/
theorem composition_translated {guestId : ℕ} {t : Translation}
    (h : (translationSystem guestId).ReachableWhile (fun t i => i.Faithful guestId t) t) :
    t.Agrees ∧ ∀ sender serial text t',
      TranslationInput.Admissible guestId t (.event sender (.commitString serial text)) →
      (translationSystem guestId).step t (.event sender (.commitString serial text)) = some t' →
      (t'.Agrees ↔ t.host.DeletesAddUp) := by
  obtain ⟨htracks, hagrees⟩ := Translation.agrees_of_reachable h
  refine ⟨hagrees, fun sender serial text t' hadmissible hstep => ?_⟩
  obtain rfl := Option.some.inj hstep
  exact (Translation.commitString_step htracks hagrees hadmissible.1 hadmissible.2).2

/-- A preedit before which a character is replaced. -/
theorem composition_translated_replace :
    ∃ t t', (translationSystem 6).ReachableWhile (fun t i => i.Faithful 6 t) t ∧
      t.guest.preedit = asBytes "e" ∧
      (translationSystem 6).step t (.event 2 (.commitString 2 "é")) = some t' ∧
      t'.guest.text = ⟨asBytes "é", asBytes "!"⟩ := by
  have hrun : (inputSystem.run .new [extensionReady, .getTextInput 6 3, .keyboardEnter 50 40,
      .enable 6, .setSurroundingText 6 "né!" 3 3, .commitTextInput 6]).map (fun c =>
        ((c.textInputs.get 6).map fun s => decide (s.hostIsActive = true ∧
          s.committedEnabled = true ∧ s.enabledDirty = false ∧
          (s.activeSurface.bind c.shadowTable.getHostId).isSome = true ∧
          s = s.clearHostComposition),
        c.shadowTable.getGuestId 2,
        (onPreeditString c 2 "e" "").shadowTable.getGuestId 2,
        (onDeleteSurroundingText (onPreeditString c 2 "e" "") 2 (-1) 1).shadowTable.getGuestId 2)) =
      some (some true, some 6, some 6, some 6) := by decide +kernel
  obtain ⟨c, -, heq⟩ := Option.map_eq_some_iff.mp hrun
  simp only [Prod.mk.injEq] at heq
  obtain ⟨hs, htarget, htarget', htarget''⟩ := heq
  obtain ⟨s, hs, hserved⟩ := Option.map_eq_some_iff.mp hs
  obtain ⟨hactive, henabled, hsame, hsurface, hclear⟩ := of_decide_eq_true hserved
  let start : Translation := {
    context := c
    host := .new ⟨asBytes "n", asBytes "!"⟩
    guest := ⟨asBytes "n", [], (0, 0), asBytes "!", (0, 0), [], ([], 0, 0)⟩ }
  have hstart : (translationSystem 6).init start :=
    ⟨⟨s, hs, ⟨hactive, henabled, hsame, hsurface⟩, hclear⟩, rfl, rfl, rfl, rfl, rfl⟩
  have hpreedit : (TranslationInput.event 2 (.preeditString 1 "e" "")).Faithful 6 start :=
    ⟨⟨⟨by decide, by simp⟩, htarget⟩, by simp⟩
  have hdelete : ∀ t : Translation, t.context = onPreeditString c 2 "e" "" →
      (TranslationInput.event 2 (.deleteSurroundingText (-1) 1)).Faithful 6 t := by
    intro t ht
    refine ⟨⟨⟨by decide, fun index length heq => ?_⟩, ?_⟩, by simp⟩
    · cases heq
      decide
    · rw [ht]
      exact htarget'
  have hreachable := TransitionSystem.ReachableWhile.step
    (.step (.init hstart) hpreedit rfl) (hdelete _ rfl) rfl
  have hadd : (((HostClient.new ⟨asBytes "n", asBytes "!"⟩).receive
      (.preeditString 1 "e" "")).receive (.deleteSurroundingText (-1) 1)).DeletesAddUp := by
    decide
  obtain ⟨hagrees, hcommit⟩ := composition_translated hreachable
  have hcommitted := (hcommit 2 2 "é" _ ⟨⟨by decide, by simp⟩, htarget''⟩ rfl).mpr hadd
  exact ⟨_, _, hreachable, hagrees.preedit, rfl, hcommitted.text⟩

end Sommelier
