import Sommelier.Input.TextInputHistory
import Sommelier.Lib.DoubleBuffer

/-!
# Commits of the editor state

The surrounding text, the content type and the cursor rectangle of a text input are double
buffered on the guest side and sent to the host at a commit, each only when it changed. A
commit sends what was set since the last one, so that the host holds what a server of the guest
protocol would hold.

## Main definitions

* `EditorRequest`: the requests, their handlers, and what a server makes of them.
* `lastSent`: the value of a field the host has.
* `editorSystem`: a text input from the moment it is entered.
* `EditorSession.Tracks`: the invariant.
-/
namespace Sommelier

/-! ## Fields -/

/-- The fields both protocols have. -/
inductive EditorField
  | surroundingText
  | contentType
  | cursorRect
  deriving DecidableEq, Repr

structure EditorFields where
  surroundingText : Option (String × ℤ × ℤ)
  contentType : ℕ × ℕ
  cursorRect : Option (ℤ × ℤ × ℤ × ℤ)

def EditorFields.unset : EditorFields := ⟨none, (0, 0), none⟩

def EditorField.opcode : EditorField → ℕ
  | surroundingText => 5
  | contentType => 6
  | cursorRect => 7

/-- A field in the terms of the host protocol; one that is not set is empty or zero. -/
def EditorFields.payload (fields : EditorFields) : EditorField → List Payload
  | .surroundingText =>
    match fields.surroundingText with
    | none => [.text "", .word 0, .word 0]
    | some (text, cursor, anchor) => [.text text, .word cursor.toNat, .word anchor.toNat]
  | .contentType =>
    let (v1Hint, v1Purpose, _) := mapV3ContentType fields.contentType.1 fields.contentType.2
    [.word v1Hint, .word v1Purpose]
  | .cursorRect =>
    let (x, y, w, h) := fields.cursorRect.getD (0, 0, 0, 0)
    [.signed x, .signed y, .signed w, .signed h]

/-- The request that sets a field of a host text input. -/
def EditorFields.message (fields : EditorFields) (hostV1Id : ℕ) (field : EditorField) :
    QueuedMessage :=
  ⟨hostV1Id, field.opcode, fields.payload field⟩

/-- The field a request of the host protocol sets. -/
def sentField : QueuedMessage → Option EditorField
  | ⟨_, 5, [.text _, .word _, .word _]⟩ => some .surroundingText
  | ⟨_, 6, [.word _, .word _]⟩ => some .contentType
  | ⟨_, 7, [.signed _, .signed _, .signed _, .signed _]⟩ => some .cursorRect
  | _ => none

/-- The request sets a field of a host text input. -/
def sends (hostV1Id : ℕ) (field : EditorField) (m : QueuedMessage) : Bool :=
  m.senderId == hostV1Id && sentField m == some field

/-- A request sets the field it is for. -/
@[simp] theorem sends_message (fields : EditorFields) (hostV1Id : ℕ) (field field' : EditorField) :
    sends hostV1Id field' (fields.message hostV1Id field) = (field == field') := by
  obtain ⟨surroundingText, contentType, cursorRect⟩ := fields
  cases field <;> cases surroundingText <;> cases field' <;>
    simp [sends, sentField, EditorFields.message, EditorField.opcode, EditorFields.payload]

/-- The last value of a field that was sent to a host text input. -/
def lastSent (hostV1Id : ℕ) (field : EditorField) (queue : List QueuedMessage) :
    Option (List Payload) :=
  (queue.filter (sends hostV1Id field)).getLast?.map QueuedMessage.payload

@[simp] theorem lastSent_append (hostV1Id : ℕ) (field : EditorField)
    (queue messages : List QueuedMessage) :
    lastSent hostV1Id field (queue ++ messages) =
      (lastSent hostV1Id field messages).or (lastSent hostV1Id field queue) := by
  simp only [lastSent, List.filter_append, List.getLast?_append]
  cases (messages.filter (sends hostV1Id field)).getLast? <;> simp

/-- Messages that set no field leave it as it was. -/
theorem lastSent_append_none {hostV1Id : ℕ} {field : EditorField}
    {queue messages : List QueuedMessage}
    (h : ∀ m ∈ messages, m.senderId = hostV1Id → sentField m = none) :
    lastSent hostV1Id field (queue ++ messages) = lastSent hostV1Id field queue := by
  have hnone : messages.filter (sends hostV1Id field) = [] := by
    refine List.filter_eq_nil_iff.mpr fun m hm hsends => ?_
    obtain ⟨hsender, hfield⟩ := Bool.and_eq_true_iff.mp hsends
    rw [h m hm (by simpa using hsender)] at hfield
    simp at hfield
  rw [lastSent_append, lastSent, hnone]
  rfl

namespace TextInputState

def pendingFields (s : TextInputState) : EditorFields :=
  ⟨s.pendingSurroundingText, (s.contentHint, s.contentPurpose), s.cursorRect⟩

def dirty (s : TextInputState) : EditorField → Bool
  | .surroundingText => s.surroundingTextDirty
  | .contentType => s.contentTypeDirty
  | .cursorRect => s.cursorRectDirty

/-- A text input but for the composition and the host activation. -/
def editor (s : TextInputState) : TextInputState :=
  { s.clearHostComposition with hostActivation := .inactive }

end TextInputState

/-! ## Requests -/

instance : DecidablePred ValidSurrounding := fun (text, cursor, anchor) =>
  inferInstanceAs (Decidable (0 ≤ cursor ∧ 0 ≤ anchor ∧
    isCharBoundary text cursor.toNat = true ∧ isCharBoundary text anchor.toNat = true))

inductive EditorRequest
  | enable
  | disable
  | setSurroundingText (text : String) (cursor anchor : ℤ)
  | setTextChangeCause (cause : ℕ)
  | setContentType (hint purpose : ℕ)
  | setCursorRectangle (x y width height : ℤ)
  | commit

namespace EditorRequest

def handle (c : InputContext) (guestId : ℕ) : EditorRequest → Option InputContext
  | enable => some (onEnable c guestId)
  | disable => some (onDisable c guestId)
  | setSurroundingText text cursor anchor =>
    some (onSetSurroundingText c guestId text cursor anchor)
  | setTextChangeCause cause => some (onSetTextChangeCause c guestId cause)
  | setContentType hint purpose => some (onSetContentType c guestId hint purpose)
  | setCursorRectangle x y width height => some (onSetCursorRectangle c guestId x y width height)
  | commit => onCommitTextInput c guestId

/-- What a server of the guest protocol does: the requests change the pending fields, an enable
or a disable resets them, and a commit applies them. -/
def serve (server : Mirrored EditorFields) : EditorRequest → Mirrored EditorFields
  | enable => server.set .unset
  | disable => server.set .unset
  | setSurroundingText text cursor anchor =>
    if ValidSurrounding (text, cursor, anchor) then
      server.set { server.next with surroundingText := some (text, cursor, anchor) }
    else server
  | setTextChangeCause _ => server
  | setContentType hint purpose => server.set { server.next with contentType := (hint, purpose) }
  | setCursorRectangle x y width height =>
    server.set { server.next with cursorRect := some (x, y, width, height) }
  | commit => server.commit

/-- The request begins a new transaction. -/
def resets : EditorRequest → Bool
  | enable => true
  | disable => true
  | _ => false

/-- The request sets or resets a field. -/
def sets (field : EditorField) : EditorRequest → Bool
  | enable => true
  | disable => true
  | setSurroundingText text cursor anchor =>
    field == .surroundingText && decide (ValidSurrounding (text, cursor, anchor))
  | setContentType _ _ => field == .contentType
  | setCursorRectangle _ _ _ _ => field == .cursorRect
  | _ => false

end EditorRequest

/-- The transaction of the next commit; `none` when it cannot be encoded. -/
def commitTransaction (c : InputContext) (guestId : ℕ) : Option (List QueuedMessage) :=
  (c.textInputs.get guestId).bind fun state =>
    encodeTransaction
      (commitMessages c (state.prepareGuestCommit (enableConflicts c guestId state)))

/-! ## Sessions -/

/-- A text input, a server of the guest protocol that gets the same requests, and the requests
since the last successful commit. -/
structure EditorSession where
  context : InputContext
  server : Mirrored EditorFields
  requests : List EditorRequest
  /-- a commit with an enable or a disable has succeeded -/
  synced : Bool

inductive EditorInput
  | request (r : EditorRequest)
  /-- what happens to the rest of the context -/
  | elsewhere (c : InputContext)

/-- Nothing happened to the editor state of a text input or to the fields of its host object. -/
structure Undisturbed (guestId : ℕ) (c c' : InputContext) : Prop where
  editor : ∀ s, c.textInputs.get guestId = some s →
    ∃ s', c'.textInputs.get guestId = some s' ∧ s'.editor = s.editor
  queue : ∃ messages, c'.clientToHostQueue = c.clientToHostQueue ++ messages ∧
    ∀ s, c.textInputs.get guestId = some s →
      ∀ m ∈ messages, m.senderId = s.hostV1Id → sentField m = none

namespace EditorSession

/-- The request was handled. -/
def after (session : EditorSession) (guestId : ℕ) (r : EditorRequest) (c : InputContext) :
    EditorSession :=
  match r, commitTransaction session.context guestId with
  | .commit, some _ =>
    { context := c
      server := session.server.commit
      requests := []
      synced := session.synced || session.requests.any EditorRequest.resets }
  | r, _ =>
    { session with
      context := c
      server := r.serve session.server
      requests := session.requests ++ [r] }

end EditorSession

/-- A text input from the moment its surface is entered until the focus changes. -/
def editorSystem (guestId : ℕ) : TransitionSystem EditorSession EditorInput where
  init session := (∃ s, session.context.textInputs.get guestId = some s ∧
      s = s.applyFocus s.activeSurface ∧ s.activeSurface.isSome = true) ∧
    session.server = .new .unset ∧ session.requests = [] ∧ session.synced = false
  step session
    | .request r => (r.handle session.context guestId).map (session.after guestId r)
    | .elsewhere c => some { session with context := c }

/-- What else happens leaves the text input alone. -/
def EditorInput.Admissible (guestId : ℕ) (session : EditorSession) : EditorInput → Prop
  | request _ => True
  | elsewhere c => Undisturbed guestId session.context c

/-! ## The invariant -/

namespace EditorSession

/-- The pending fields are those of the server, a field that was set is dirty unless it is a
content type that the host has, and the host has the fields that are not dirty. -/
structure Follows (session : EditorSession) (s : TextInputState) : Prop where
  entered : s.activeSurface.isSome = true
  pending : s.pendingFields = session.server.next
  reset : s.enabledDirty = session.requests.any EditorRequest.resets
  resetDirty : s.enabledDirty = true → ∀ field, s.dirty field = true
  set : ∀ field, session.requests.any (EditorRequest.sets field) = true → s.dirty field = true ∨
    field = .contentType ∧ s.committedContentType = some (s.contentHint, s.contentPurpose)
  enabled : s.enabledDirty = false → s.committedEnabled = s.pendingEnabled
  surroundingText : s.surroundingTextDirty = false →
    s.committedSurroundingText = s.pendingSurroundingText
  contentType : s.contentTypeDirty = false →
    s.committedContentType.getD (0, 0) = (s.contentHint, s.contentPurpose)
  sentContentType : ∀ contentType, s.committedContentType = some contentType →
    lastSent s.hostV1Id .contentType session.context.clientToHostQueue =
      some ({ EditorFields.unset with contentType }.payload .contentType)
  sent : session.synced = true → ∀ field, s.dirty field = false →
    lastSent s.hostV1Id field session.context.clientToHostQueue =
      some (s.pendingFields.payload field)

def Tracks (guestId : ℕ) (session : EditorSession) : Prop :=
  ∃ s, session.context.textInputs.get guestId = some s ∧ session.Follows s

end EditorSession

/-! ## One commit -/

namespace TextInputState
variable (s : TextInputState) (enableConflict : Bool)

/-- A published plan changes what is enabled and the composition. -/
theorem finishEnabled_eq (plan : GuestCommitPlan) : s.finishEnabled plan = { s with
    pendingEnabled := (s.finishEnabled plan).pendingEnabled
    committedEnabled := (s.finishEnabled plan).committedEnabled
    enabledDirty := (s.finishEnabled plan).enabledDirty
    currentPreedit := (s.finishEnabled plan).currentPreedit
    pendingPreeditCursor := (s.finishEnabled plan).pendingPreeditCursor
    pendingPreeditSelection := (s.finishEnabled plan).pendingPreeditSelection
    pendingDeletes := (s.finishEnabled plan).pendingDeletes
    pendingCursorPosition := (s.finishEnabled plan).pendingCursorPosition } := by
  unfold finishEnabled
  split_ifs <;> rfl

/-- The text input after its next commit. -/
def committed : TextInputState := s.finishGuestCommit (s.prepareGuestCommit enableConflict)

variable {s enableConflict}

theorem committed_hostV1Id : (s.committed enableConflict).hostV1Id = s.hostV1Id := by
  rw [committed, finishGuestCommit, finishEnabled_eq]

theorem committed_activeSurface :
    (s.committed enableConflict).activeSurface = s.activeSurface := by
  rw [committed, finishGuestCommit, finishEnabled_eq]

theorem committed_pendingFields :
    (s.committed enableConflict).pendingFields = s.pendingFields := by
  rw [committed, finishGuestCommit, finishEnabled_eq]
  rfl

/-- A commit leaves no field dirty. -/
theorem committed_dirty (field : EditorField) :
    (s.committed enableConflict).dirty field = false := by
  rw [committed, finishGuestCommit, finishEnabled_eq]
  cases field
  · cases h : s.surroundingTextDirty <;> simp [dirty, prepareGuestCommit, h]
  · cases h : s.contentTypeDirty <;> simp [dirty, prepareGuestCommit, h]
  · cases h : s.cursorRectDirty <;> simp [dirty, prepareGuestCommit, h]

theorem committed_enabledDirty : (s.committed enableConflict).enabledDirty = false := by
  cases h : s.enabledDirty <;>
    simp [committed, finishGuestCommit, finishEnabled, prepareGuestCommit, h]

/-- The enabled state is published, or taken back when another text input is enabled. -/
theorem committed_enabled (h : s.enabledDirty = false → s.committedEnabled = s.pendingEnabled) :
    (s.committed enableConflict).committedEnabled =
      (s.committed enableConflict).pendingEnabled := by
  cases hdirty : s.enabledDirty with
  | false =>
    simpa [committed, finishGuestCommit, finishEnabled, prepareGuestCommit, hdirty] using h hdirty
  | true => simp [committed, finishGuestCommit, finishEnabled, prepareGuestCommit, hdirty]

theorem committed_surroundingText
    (h : s.surroundingTextDirty = false → s.committedSurroundingText = s.pendingSurroundingText) :
    (s.committed enableConflict).committedSurroundingText = s.pendingSurroundingText := by
  rw [committed, finishGuestCommit, finishEnabled_eq]
  cases hdirty : s.surroundingTextDirty with
  | false => simpa [prepareGuestCommit, hdirty] using h hdirty
  | true => simp [prepareGuestCommit, hdirty]

theorem committed_contentType : (s.committed enableConflict).committedContentType =
    if s.contentTypeDirty then some (s.contentHint, s.contentPurpose)
    else s.committedContentType := by
  rw [committed, finishGuestCommit, finishEnabled_eq]
  cases hdirty : s.contentTypeDirty <;> simp [prepareGuestCommit, hdirty]

end TextInputState

theorem filter_contentTypeMessages (c : InputContext) (plan : GuestCommitPlan)
    (hint purpose : ℕ) (field : EditorField) :
    (contentTypeMessages c plan hint purpose).filter (sends plan.hostV1Id field) =
      if field = .contentType then
        [{ EditorFields.unset with contentType := (hint, purpose) }.message plan.hostV1Id field]
      else [] := by
  unfold contentTypeMessages
  dsimp only
  rw [List.filter_append, List.filter_append]
  cases plan.hostExtId with
  | none =>
    cases field <;>
      simp [sends, sentField, EditorFields.message, EditorField.opcode, EditorFields.payload]
  | some hostExtId =>
    -- What the extension is told sets no field.
    dsimp only
    generalize (c.shadowTable.hostObjectVersion hostExtId).getD unknownObjectVersion = version
    cases extensionVersionAllows version 9 <;> cases extensionVersionAllows version 8 <;>
      cases extensionVersionAllows version 2 <;> cases field <;>
      simp [sends, sentField, EditorFields.message, EditorField.opcode, EditorFields.payload]

/-- A transaction in terms of the dirty fields. -/
theorem commitMessages_eq (c : InputContext) (s : TextInputState) (enableConflict : Bool) :
    commitMessages c (s.prepareGuestCommit enableConflict) =
      (if s.surroundingTextDirty then [s.pendingFields.message s.hostV1Id .surroundingText]
        else []) ++
      (if s.contentTypeDirty then contentTypeMessages c (s.prepareGuestCommit enableConflict)
        s.contentHint s.contentPurpose else []) ++
      (if s.cursorRectDirty then [s.pendingFields.message s.hostV1Id .cursorRect] else []) ++
      [⟨s.hostV1Id, 9, [.word ((s.guestCommitSerial + 1) % 2 ^ 32)]⟩] := by
  unfold commitMessages
  congr 1
  congr 1
  · congr 1
    · cases hdirty : s.surroundingTextDirty <;> cases htext : s.pendingSurroundingText <;>
        simp [TextInputState.prepareGuestCommit, hdirty, htext, EditorFields.message,
          EditorField.opcode, EditorFields.payload, TextInputState.pendingFields]
    · cases hdirty : s.contentTypeDirty <;> simp [TextInputState.prepareGuestCommit, hdirty]
  · cases hdirty : s.cursorRectDirty <;>
      simp [TextInputState.prepareGuestCommit, hdirty, EditorFields.message,
        EditorField.opcode, EditorFields.payload, TextInputState.pendingFields]

/-- A transaction has one request for each dirty field. -/
theorem filter_commitMessages (c : InputContext) (s : TextInputState) (enableConflict : Bool)
    (field : EditorField) :
    (commitMessages c (s.prepareGuestCommit enableConflict)).filter (sends s.hostV1Id field) =
      if s.dirty field then [s.pendingFields.message s.hostV1Id field] else [] := by
  have hcontent : (if s.contentTypeDirty then contentTypeMessages c
      (s.prepareGuestCommit enableConflict) s.contentHint s.contentPurpose else []).filter
        (sends s.hostV1Id field) =
      if field = .contentType ∧ s.contentTypeDirty = true then
        [s.pendingFields.message s.hostV1Id .contentType] else [] := by
    cases s.contentTypeDirty with
    | false => simp
    | true =>
      have hfilter := filter_contentTypeMessages c (s.prepareGuestCommit enableConflict)
        s.contentHint s.contentPurpose field
      cases field <;> exact hfilter
  have hcommit : [(⟨s.hostV1Id, 9, [.word ((s.guestCommitSerial + 1) % 2 ^ 32)]⟩ :
      QueuedMessage)].filter (sends s.hostV1Id field) = [] := by simp [sends, sentField]
  rw [commitMessages_eq, List.filter_append, List.filter_append, List.filter_append, hcontent,
    hcommit]
  cases field <;> cases hsurrounding : s.surroundingTextDirty <;>
    cases hdirty : s.contentTypeDirty <;> cases hrect : s.cursorRectDirty <;>
    simp [TextInputState.dirty, hsurrounding, hdirty, hrect]

variable {c c' : InputContext} {guestId : ℕ} {s : TextInputState}

theorem lastSent_transaction {enableConflict : Bool} {transaction : List QueuedMessage}
    (h : encodeTransaction (commitMessages c (s.prepareGuestCommit enableConflict)) =
      some transaction) (field : EditorField) :
    lastSent s.hostV1Id field transaction =
      if s.dirty field then some (s.pendingFields.payload field) else none := by
  unfold encodeTransaction at h
  split_ifs at h
  rw [← Option.some.inj h, lastSent, filter_commitMessages]
  cases s.dirty field <;> rfl

/-! ## Host activation -/

/-- A reconciliation changes the activation of the text input, and what it sends is about the
activation. -/
structure Activates (guestId : ℕ) (s : TextInputState) (c c' : InputContext) : Prop where
  state : ∃ s', c'.textInputs.get guestId = some s' ∧ s'.editor = s.editor
  queue : ∃ messages, c'.clientToHostQueue = c.clientToHostQueue ++ messages ∧
    ∀ m ∈ messages, m.opcode ≤ 1

theorem Activates.keep (hs : c'.textInputs.get guestId = some s)
    (hqueue : c'.clientToHostQueue = c.clientToHostQueue) : Activates guestId s c c' :=
  ⟨⟨s, hs, rfl⟩, [], by simpa using hqueue, by simp⟩

theorem activates_move {source target : HostActivationState} {c₁ : InputContext}
    {messages : List QueuedMessage} (hs : c₁.textInputs.get guestId = some s)
    (hqueue : c₁.clientToHostQueue = c.clientToHostQueue ++ messages)
    (hmessages : ∀ m ∈ messages, m.opcode ≤ 1) :
    Activates guestId s c
      (c₁.onTextInput guestId fun s => (s.moveActivation source target).getD s) := by
  refine ⟨⟨(s.moveActivation source target).getD s, ?_, ?_⟩, messages, hqueue, hmessages⟩
  · simp [InputContext.onTextInput, hs]
  · unfold TextInputState.moveActivation
    split_ifs <;> rfl

theorem activates_barrier {hostV1Id hostSeat : ℕ} (hs : c.textInputs.get guestId = some s)
    (h : queueHostDeactivationBarrier c guestId hostV1Id hostSeat = some c') :
    Activates guestId s c c' := by
  unfold queueHostDeactivationBarrier at h
  obtain ⟨⟨callback, shadowTable⟩, -, h⟩ := Option.bind_eq_some_iff.mp h
  simp only [hs] at h
  split_ifs at h
  · obtain rfl := Option.some.inj h
    exact .keep hs rfl
  cases hdrain : s.beginHostDraining callback with
  | none =>
    simp only [hdrain] at h
    obtain rfl := Option.some.inj h
    exact .keep hs rfl
  | some s' =>
    simp only [hdrain] at h
    obtain rfl := Option.some.inj h
    obtain ⟨-, rfl⟩ := TextInputState.moveActivation_eq_some hdrain
    refine ⟨⟨{ s with hostActivation := .draining callback }, ?_, rfl⟩, _, rfl, ?_⟩
    · simp [InputContext.toHost]
    · simp

theorem activates_updateHostActivation (hs : c.textInputs.get guestId = some s)
    (h : updateHostActivation c guestId = some c') : Activates guestId s c c' := by
  unfold updateHostActivation at h
  have hmove : ∀ source target, Activates guestId s c
      (c.onTextInput guestId fun s => (s.moveActivation source target).getD s) :=
    fun source target => activates_move hs (List.append_nil _).symm (by simp)
  have hkeep : Activates guestId s c c := .keep hs rfl
  rw [hs] at h
  dsimp only at h
  split_ifs at h
  · exact Option.some.inj h ▸ hmove _ _
  · split at h
    · exact Option.some.inj h ▸ hkeep
    · obtain rfl := Option.some.inj h
      exact activates_move hs rfl (by simp)
  · split at h
    · exact Option.some.inj h ▸ hmove _ _
    · exact activates_barrier hs h
  · exact Option.some.inj h ▸ hkeep

/-- What is about the activation sets no field. -/
theorem sentField_of_opcode_le {m : QueuedMessage} (h : m.opcode ≤ 1) : sentField m = none := by
  unfold sentField
  split <;> simp_all

/-! ## Runs -/

namespace EditorSession
variable {session session' : EditorSession}

/-- The invariant depends on the editor state and the fields of the host object alone. -/
theorem Follows.congr (h : session.Follows s) {s' : TextInputState} {c' : InputContext}
    (heditor : s'.editor = s.editor)
    (hqueue : ∀ field, lastSent s.hostV1Id field c'.clientToHostQueue =
      lastSent s.hostV1Id field session.context.clientToHostQueue) :
    ({ session with context := c' } : EditorSession).Follows s' := by
  have h₁ : ({ session with context := c' } : EditorSession).Follows s.editor := {
    entered := h.entered
    pending := h.pending
    reset := h.reset
    resetDirty := h.resetDirty
    set := h.set
    enabled := h.enabled
    surroundingText := h.surroundingText
    contentType := h.contentType
    sentContentType := fun contentType hcontent =>
      (hqueue .contentType).trans (h.sentContentType contentType hcontent)
    sent := fun hsynced field hclean => (hqueue field).trans (h.sent hsynced field hclean) }
  rw [← heditor] at h₁
  exact ⟨h₁.entered, h₁.pending, h₁.reset, h₁.resetDirty, h₁.set, h₁.enabled,
    h₁.surroundingText, h₁.contentType, h₁.sentContentType, h₁.sent⟩

theorem tracks_init (h : (editorSystem guestId).init session) : session.Tracks guestId := by
  obtain ⟨⟨s, hs, hfresh, hentered⟩, hserver, hrequests, hsynced⟩ := h
  refine ⟨s, hs, ?_⟩
  rw [hfresh]
  exact {
    entered := hentered
    pending := by rw [hserver]; rfl
    reset := by rw [hrequests]; rfl
    resetDirty := fun h => by cases h
    set := fun field h => by simp [hrequests] at h
    enabled := fun _ => rfl
    surroundingText := fun _ => rfl
    contentType := fun _ => rfl
    sentContentType := fun contentType h => by cases h
    sent := fun h => by simp [hsynced] at h }

theorem tracks_elsewhere (h : session.Tracks guestId)
    (hc' : Undisturbed guestId session.context c') :
    ({ session with context := c' } : EditorSession).Tracks guestId := by
  obtain ⟨s, hs, hfollows⟩ := h
  obtain ⟨s', hs', heditor⟩ := hc'.editor s hs
  obtain ⟨messages, hqueue, hnone⟩ := hc'.queue
  refine ⟨s', hs', hfollows.congr heditor fun field => ?_⟩
  rw [hqueue]
  exact lastSent_append_none (hnone s hs)

/-- The context and the requests after a request that queues nothing. -/
def edited (session : EditorSession) (guestId : ℕ) (r : EditorRequest)
    (f : TextInputState → TextInputState) : EditorSession :=
  { session with
    context := session.context.onTextInput guestId f
    server := r.serve session.server
    requests := session.requests ++ [r] }

theorem any_append_singleton {p : EditorRequest → Bool} {requests : List EditorRequest}
    {r : EditorRequest} (hr : p r = false) : (requests ++ [r]).any p = requests.any p := by
  simp [hr]

theorem any_of_edited {p : EditorRequest → Bool} {r : EditorRequest}
    {f : TextInputState → TextInputState} (h : (session.edited guestId r f).requests.any p = true)
    (hr : p r = false) : session.requests.any p = true := by
  rwa [edited, any_append_singleton hr] at h

theorem Follows.newTransaction (h : session.Follows s) {r : EditorRequest} (enabled : Bool)
    (hr : r.resets = true) (hserve : r.serve session.server = session.server.set .unset) :
    (session.edited guestId r (.beginEnabledTransaction enabled)).Follows
      (s.beginEnabledTransaction enabled) where
  entered := h.entered
  pending := by
    change _ = (r.serve session.server).next
    rw [hserve]
    rfl
  reset := by simp [edited, hr, TextInputState.beginEnabledTransaction]
  resetDirty _ field := by cases field <;> rfl
  set field _ := .inl (by cases field <;> rfl)
  enabled h := by cases h
  surroundingText h := by cases h
  contentType h := by cases h
  sentContentType := h.sentContentType
  sent _ field h := by cases field <;> cases h

theorem Follows.setSurroundingText (h : session.Follows s) {text : String} {cursor anchor : ℤ}
    (hvalid : ValidSurrounding (text, cursor, anchor)) :
    (session.edited guestId (.setSurroundingText text cursor anchor)
      (.setSurroundingText text cursor anchor)).Follows
        (s.setSurroundingText text cursor anchor) where
  entered := h.entered
  pending := by
    change _ = (EditorRequest.serve session.server _).next
    rw [EditorRequest.serve, if_pos hvalid, Mirrored.set, ← h.pending]
    rfl
  reset := h.reset.trans (any_append_singleton rfl).symm
  resetDirty hreset field := by
    cases field with
    | surroundingText => rfl
    | contentType => exact h.resetDirty hreset .contentType
    | cursorRect => exact h.resetDirty hreset .cursorRect
  set field hset := by
    cases field with
    | surroundingText => exact .inl rfl
    | contentType => exact h.set .contentType (any_of_edited hset rfl)
    | cursorRect => exact h.set .cursorRect (any_of_edited hset rfl)
  enabled := h.enabled
  surroundingText h := by cases h
  contentType := h.contentType
  sentContentType := h.sentContentType
  sent hsynced field hclean := by
    cases field with
    | surroundingText => cases hclean
    | contentType => exact h.sent hsynced .contentType hclean
    | cursorRect => exact h.sent hsynced .cursorRect hclean

theorem Follows.setContentType (h : session.Follows s) (hint purpose : ℕ) :
    (session.edited guestId (.setContentType hint purpose)
      (.setContentType hint purpose)).Follows (s.setContentType hint purpose) where
  entered := h.entered
  pending := by
    change _ = (EditorRequest.serve session.server _).next
    rw [EditorRequest.serve, Mirrored.set, ← h.pending]
    rfl
  reset := h.reset.trans (any_append_singleton rfl).symm
  resetDirty hreset field := by
    cases field with
    | surroundingText => exact h.resetDirty hreset .surroundingText
    | contentType =>
      have hdirty : s.enabledDirty = true := hreset
      simp [TextInputState.dirty, TextInputState.setContentType, hdirty]
    | cursorRect => exact h.resetDirty hreset .cursorRect
  set field hset := by
    cases field with
    | surroundingText =>
      exact .inl ((h.set .surroundingText (any_of_edited hset rfl)).resolve_right (by simp))
    | contentType =>
      by_cases hsame : s.committedContentType = some (hint, purpose)
      · exact .inr ⟨rfl, hsame⟩
      · exact .inl (by simp [TextInputState.dirty, TextInputState.setContentType, hsame])
    | cursorRect =>
      exact .inl ((h.set .cursorRect (any_of_edited hset rfl)).resolve_right (by simp))
  enabled := h.enabled
  surroundingText := h.surroundingText
  contentType hclean := by
    have hsame : s.committedContentType = some (hint, purpose) := by
      simp [TextInputState.setContentType] at hclean
      exact hclean.2
    exact congrArg (Option.getD · (0, 0)) hsame
  sentContentType := h.sentContentType
  sent hsynced field hclean := by
    cases field with
    | surroundingText => exact h.sent hsynced .surroundingText hclean
    | contentType =>
      -- A content type that is clean is the one the host has.
      have hsame : s.committedContentType = some (hint, purpose) := by
        simp [TextInputState.dirty, TextInputState.setContentType] at hclean
        exact hclean.2
      exact h.sentContentType _ hsame
    | cursorRect => exact h.sent hsynced .cursorRect hclean

theorem Follows.setCursorRect (h : session.Follows s) (x y width height : ℤ) :
    (session.edited guestId (.setCursorRectangle x y width height)
      (.setCursorRect (x, y, width, height))).Follows
        (s.setCursorRect (x, y, width, height)) where
  entered := h.entered
  pending := by
    change _ = (EditorRequest.serve session.server _).next
    rw [EditorRequest.serve, Mirrored.set, ← h.pending]
    rfl
  reset := h.reset.trans (any_append_singleton rfl).symm
  resetDirty hreset field := by
    cases field with
    | surroundingText => exact h.resetDirty hreset .surroundingText
    | contentType => exact h.resetDirty hreset .contentType
    | cursorRect => rfl
  set field hset := by
    cases field with
    | surroundingText =>
      exact h.set .surroundingText (any_of_edited hset rfl)
    | contentType => exact h.set .contentType (any_of_edited hset rfl)
    | cursorRect => exact .inl rfl
  enabled := h.enabled
  surroundingText := h.surroundingText
  contentType := h.contentType
  sentContentType := h.sentContentType
  sent hsynced field hclean := by
    cases field with
    | surroundingText => exact h.sent hsynced .surroundingText hclean
    | contentType => exact h.sent hsynced .contentType hclean
    | cursorRect => cases hclean

/-- A request that sets no field of the host. -/
theorem Follows.other (h : session.Follows s) {r : EditorRequest} (hr : r.resets = false)
    (hsets : ∀ field, r.sets field = false)
    (hserve : (r.serve session.server).next = session.server.next) :
    ({ session with
        server := r.serve session.server
        requests := session.requests ++ [r] } : EditorSession).Follows s where
  entered := h.entered
  pending := h.pending.trans hserve.symm
  reset := h.reset.trans (any_append_singleton hr).symm
  resetDirty := h.resetDirty
  set field hset := by
    dsimp only at hset
    rw [any_append_singleton (hsets field)] at hset
    exact h.set field hset
  enabled := h.enabled
  surroundingText := h.surroundingText
  contentType := h.contentType
  sentContentType := h.sentContentType
  sent := h.sent

/-- What a commit that was encoded does to a text input and to the host. -/
theorem Follows.commit (h : session.Follows s) {transaction activation : List QueuedMessage}
    {s' : TextInputState} (enableConflict : Bool)
    (htransaction : encodeTransaction (commitMessages session.context
      (s.prepareGuestCommit enableConflict)) = some transaction)
    (heditor : s'.editor = (s.committed enableConflict).editor)
    (hqueue : c'.clientToHostQueue =
      session.context.clientToHostQueue ++ activation ++ transaction)
    (hactivation : ∀ m ∈ activation, m.opcode ≤ 1) :
    EditorSession.Follows {
      context := c'
      server := session.server.commit
      requests := []
      synced := session.synced || session.requests.any EditorRequest.resets } s' := by
  set synced := session.synced || session.requests.any EditorRequest.resets
  have hfields : (s.committed enableConflict).pendingFields = s.pendingFields :=
    TextInputState.committed_pendingFields
  have hlast : ∀ field, lastSent (s.committed enableConflict).hostV1Id field c'.clientToHostQueue =
      if s.dirty field then some (s.pendingFields.payload field)
      else lastSent s.hostV1Id field session.context.clientToHostQueue := by
    intro field
    rw [TextInputState.committed_hostV1Id, hqueue, lastSent_append,
      lastSent_transaction htransaction,
      lastSent_append_none fun m hm _ => sentField_of_opcode_le (hactivation m hm)]
    cases s.dirty field <;> rfl
  have hcommitted : EditorSession.Follows ⟨c', session.server.commit, [], synced⟩
      (s.committed enableConflict) := {
    entered := by rw [TextInputState.committed_activeSurface]; exact h.entered
    pending := hfields.trans h.pending
    reset := TextInputState.committed_enabledDirty
    resetDirty := fun hdirty => by
      rw [TextInputState.committed_enabledDirty] at hdirty
      cases hdirty
    set := fun field hset => by simp at hset
    enabled := fun _ => TextInputState.committed_enabled h.enabled
    surroundingText := fun _ => (TextInputState.committed_surroundingText h.surroundingText).trans
      (congrArg EditorFields.surroundingText hfields).symm
    contentType := fun _ => by
      rw [TextInputState.committed_contentType]
      refine Eq.trans ?_ (congrArg EditorFields.contentType hfields).symm
      split_ifs with hdirty
      · rfl
      · exact h.contentType (by simpa using hdirty)
    sentContentType := fun contentType hcontent => by
      refine (hlast .contentType).trans ?_
      rw [TextInputState.committed_contentType] at hcontent
      change (if s.contentTypeDirty = true then _ else _) = _
      split_ifs at hcontent ⊢ with hdirty
      · rw [← Option.some.inj hcontent]
        rfl
      · exact h.sentContentType contentType hcontent
    sent := fun hsynced field _ => by
      refine (hlast field).trans ?_
      rw [hfields]
      split_ifs with hdirty
      · rfl
      · refine h.sent ?_ field (by simpa using hdirty)
        rcases Bool.or_eq_true_iff.mp hsynced with hsynced | hresets
        · exact hsynced
        · exact absurd (h.resetDirty (h.reset.trans hresets) field) hdirty }
  exact hcommitted.congr heditor fun _ => rfl

end EditorSession

theorem v3IsFocused_of_entered (hs : c.textInputs.get guestId = some s)
    (hentered : s.activeSurface.isSome = true) : v3IsFocused c guestId = true := by
  simp [v3IsFocused, hs, hentered]

/-- A commit that cannot be encoded changes nothing. -/
theorem onCommit_of_none (hs : c.textInputs.get guestId = some s)
    (htransaction : commitTransaction c guestId = none)
    (h : onCommitTextInput c guestId = some c') : c' = c := by
  unfold onCommitTextInput at h
  split_ifs at h
  · exact (Option.some.inj h).symm
  · rw [commitTransaction, hs, Option.bind_some] at htransaction
    rw [hs] at h
    dsimp only at h
    rw [htransaction] at h
    exact (Option.some.inj h).symm

/-- A commit that is encoded is published, and then sent. -/
theorem onCommit_of_some (hs : c.textInputs.get guestId = some s)
    (hentered : s.activeSurface.isSome = true) {transaction : List QueuedMessage}
    (htransaction : commitTransaction c guestId = some transaction)
    (h : onCommitTextInput c guestId = some c') :
    encodeTransaction (commitMessages c (s.prepareGuestCommit (enableConflicts c guestId s))) =
        some transaction ∧
      ∃ s' activation, c'.textInputs.get guestId = some s' ∧
        s'.editor = (s.committed (enableConflicts c guestId s)).editor ∧
        c'.clientToHostQueue = c.clientToHostQueue ++ activation ++ transaction ∧
        ∀ m ∈ activation, m.opcode ≤ 1 := by
  rw [commitTransaction, hs, Option.bind_some] at htransaction
  refine ⟨htransaction, ?_⟩
  unfold onCommitTextInput at h
  rw [v3IsFocused_of_entered hs hentered, hs] at h
  simp only [Bool.not_true, Bool.false_eq_true, if_false, htransaction] at h
  obtain ⟨c₁, h₁, rfl⟩ := Option.map_eq_some_iff.mp h
  have hpublished : (c.onTextInput guestId (TextInputState.finishGuestCommit
      (s.prepareGuestCommit (enableConflicts c guestId s)))).textInputs.get guestId =
      some (s.committed (enableConflicts c guestId s)) := by
    simp [InputContext.onTextInput, hs, TextInputState.committed]
  obtain ⟨⟨s', hs', heditor⟩, activation, hqueue, hactivation⟩ :=
    activates_updateHostActivation hpublished h₁
  refine ⟨s', activation, hs', heditor, ?_, hactivation⟩
  rw [InputContext.toHost, hqueue]
  rfl

namespace EditorSession
variable {session session' : EditorSession}

theorem onFocused_of_tracks {f : TextInputState → TextInputState}
    (hs : session.context.textInputs.get guestId = some s) (h : session.Follows s) :
    onFocused session.context guestId f = session.context.onTextInput guestId f := by
  rw [onFocused, if_pos (v3IsFocused_of_entered hs h.entered)]

theorem tracks_edited {r : EditorRequest} {f : TextInputState → TextInputState}
    (hs : session.context.textInputs.get guestId = some s)
    (h : (session.edited guestId r f).Follows (f s)) :
    (session.edited guestId r f).Tracks guestId :=
  ⟨f s, by simp [edited, InputContext.onTextInput, hs], h⟩

theorem tracks_request {r : EditorRequest} (h : session.Tracks guestId)
    (hstep : (editorSystem guestId).step session (.request r) = some session') :
    session'.Tracks guestId := by
  obtain ⟨s, hs, hfollows⟩ := h
  obtain ⟨c', hc', rfl⟩ := Option.map_eq_some_iff.mp hstep
  have hfocused := fun f => onFocused_of_tracks (f := f) hs hfollows
  cases r with
  | enable =>
    obtain rfl := Option.some.inj hc'
    rw [onEnable, hfocused]
    exact tracks_edited hs (hfollows.newTransaction true rfl rfl)
  | disable =>
    obtain rfl := Option.some.inj hc'
    rw [onDisable, hfocused]
    exact tracks_edited hs (hfollows.newTransaction false rfl rfl)
  | setSurroundingText text cursor anchor =>
    obtain rfl := Option.some.inj hc'
    unfold onSetSurroundingText
    split_ifs with hvalid
    · have hvalid' : ValidSurrounding (text, cursor, anchor) := by
        simp only [Bool.and_eq_true, decide_eq_true_eq] at hvalid
        exact ⟨hvalid.1.1.1, hvalid.1.1.2, hvalid.1.2, hvalid.2⟩
      rw [hfocused]
      exact tracks_edited hs (hfollows.setSurroundingText hvalid')
    · have hvalid' : ¬ ValidSurrounding (text, cursor, anchor) := fun h =>
        hvalid (by simp [h.1, h.2.1, h.2.2.1, h.2.2.2])
      refine ⟨s, hs, hfollows.other rfl (fun field => ?_) ?_⟩
      · simp [EditorRequest.sets, hvalid']
      · rw [EditorRequest.serve, if_neg hvalid']
  | setTextChangeCause cause =>
    obtain rfl := Option.some.inj hc'
    rw [onSetTextChangeCause, hfocused]
    refine ⟨s.setTextChangeCause cause, by simp [after, InputContext.onTextInput, hs], ?_⟩
    have h := hfollows.other (r := .setTextChangeCause cause) rfl (fun _ => rfl) rfl
    exact ⟨h.entered, h.pending, h.reset, h.resetDirty, h.set, h.enabled, h.surroundingText,
      h.contentType, h.sentContentType, h.sent⟩
  | setContentType hint purpose =>
    obtain rfl := Option.some.inj hc'
    rw [onSetContentType, hfocused]
    exact tracks_edited hs (hfollows.setContentType hint purpose)
  | setCursorRectangle x y width height =>
    obtain rfl := Option.some.inj hc'
    rw [onSetCursorRectangle, hfocused]
    exact tracks_edited hs (hfollows.setCursorRect x y width height)
  | commit =>
    cases htransaction : commitTransaction session.context guestId with
    | none =>
      obtain rfl := onCommit_of_none hs htransaction hc'
      refine ⟨s, by simpa [after, htransaction] using hs, ?_⟩
      simpa [after, htransaction] using hfollows.other (r := .commit) rfl (fun _ => rfl) rfl
    | some transaction =>
      obtain ⟨hencode, s', activation, hs', heditor, hqueue, hactivation⟩ :=
        onCommit_of_some hs hfollows.entered htransaction hc'
      refine ⟨s', by simpa [after, htransaction] using hs', ?_⟩
      simpa [after, htransaction] using hfollows.commit _ hencode heditor hqueue hactivation

/-- The invariant holds from the moment the text input is entered until the focus changes. -/
theorem tracks_of_reachable
    (h : (editorSystem guestId).ReachableWhile (fun session i => i.Admissible guestId session)
      session) : session.Tracks guestId := by
  refine h.invariant (fun session hinit => tracks_init hinit) ?_
  intro session i session' _ htracks hadmissible hstep
  cases i with
  | request r => exact tracks_request htracks hstep
  | elsewhere c' =>
    obtain rfl := Option.some.inj hstep
    exact tracks_elsewhere htracks hadmissible

end EditorSession

/-! ## Commits -/

/-- Every field that was set is sent, unless it is a content type the host has, and the
`commit_state` comes last. -/
structure EditorSession.SendsChanges (session : EditorSession) (hostV1Id : ℕ)
    (transaction : List QueuedMessage) : Prop where
  field : ∀ field, session.requests.any (EditorRequest.sets field) = true →
    session.server.next.message hostV1Id field ∈ transaction ∨ field = .contentType ∧
      lastSent hostV1Id field session.context.clientToHostQueue =
        some (session.server.next.payload field)
  last : ∃ fields serial, transaction = fields ++ [⟨hostV1Id, 9, [.word serial]⟩]

/-- Nothing is dirty, and the published state is the pending one. -/
structure TextInputState.Settled (s : TextInputState) : Prop where
  clean : ∀ field, s.dirty field = false
  enabledClean : s.enabledDirty = false
  enabled : s.committedEnabled = s.pendingEnabled
  surroundingText : s.committedSurroundingText = s.pendingSurroundingText
  contentType : s.committedContentType.getD (0, 0) = (s.contentHint, s.contentPurpose)

theorem EditorSession.Follows.settled {session : EditorSession} (h : session.Follows s)
    (hclean : ∀ field, s.dirty field = false) (henabled : s.enabledDirty = false) : s.Settled where
  clean := hclean
  enabledClean := henabled
  enabled := h.enabled henabled
  surroundingText := h.surroundingText (hclean .surroundingText)
  contentType := h.contentType (hclean .contentType)

theorem mem_of_filter_commitMessages {enableConflict : Bool} {transaction : List QueuedMessage}
    (h : encodeTransaction (commitMessages c (s.prepareGuestCommit enableConflict)) =
      some transaction) {field : EditorField} (hdirty : s.dirty field = true) :
    s.pendingFields.message s.hostV1Id field ∈ transaction := by
  unfold encodeTransaction at h
  split_ifs at h
  have hfilter := filter_commitMessages c s enableConflict field
  rw [if_pos hdirty, Option.some.inj h] at hfilter
  exact List.mem_of_mem_filter (hfilter ▸ List.mem_singleton_self _)

/-- The changes since the last commit are in the transaction. -/
theorem EditorSession.Follows.sendsChanges {session : EditorSession} (h : session.Follows s)
    {enableConflict : Bool} {transaction : List QueuedMessage}
    (hencode : encodeTransaction (commitMessages session.context
      (s.prepareGuestCommit enableConflict)) = some transaction) :
    session.SendsChanges s.hostV1Id transaction where
  field field hset := by
    rw [← h.pending]
    rcases h.set field hset with hdirty | ⟨rfl, hsame⟩
    · exact .inl (mem_of_filter_commitMessages hencode hdirty)
    · exact .inr ⟨rfl, h.sentContentType _ hsame⟩
  last := by
    unfold encodeTransaction at hencode
    split_ifs at hencode
    exact ⟨_, _, (Option.some.inj hencode).symm.trans (commitMessages_eq _ s enableConflict)⟩

/-- A commit of a text input, after any requests since its surface was entered, fails to encode
and changes nothing, or sends every field that was set or reset since the last successful one,
with a `commit_state` at the end, and settles the text input. Once a commit with an enable or a
disable has succeeded, the host has after every successful commit the fields that a server of
the guest protocol has. -/
theorem guest_commit {session session' : EditorSession}
    (h : (editorSystem guestId).ReachableWhile (fun session i => i.Admissible guestId session)
      session)
    (hstep : (editorSystem guestId).step session (.request .commit) = some session') :
    (commitTransaction session.context guestId = none ∧ session'.context = session.context) ∨
    ∃ s s' activation transaction,
      session.context.textInputs.get guestId = some s ∧
      session'.context.textInputs.get guestId = some s' ∧
      commitTransaction session.context guestId = some transaction ∧
      session'.context.clientToHostQueue =
        session.context.clientToHostQueue ++ activation ++ transaction ∧
      (∀ m ∈ activation, m.opcode ≤ 1) ∧
      session.SendsChanges s.hostV1Id transaction ∧ s'.Settled ∧
      (session'.synced = true → ∀ field,
        lastSent s.hostV1Id field session'.context.clientToHostQueue =
          some (session'.server.current.payload field)) := by
  obtain ⟨s, hs, hfollows⟩ := EditorSession.tracks_of_reachable h
  obtain ⟨c', hc', rfl⟩ := Option.map_eq_some_iff.mp hstep
  cases htransaction : commitTransaction session.context guestId with
  | none =>
    obtain rfl := onCommit_of_none hs htransaction hc'
    exact .inl ⟨rfl, by simp [EditorSession.after, htransaction]⟩
  | some transaction =>
    obtain ⟨hencode, s', activation, hs', heditor, hqueue, hactivation⟩ :=
      onCommit_of_some hs hfollows.entered htransaction hc'
    have hfollows' := hfollows.commit _ hencode heditor hqueue hactivation
    have hid : s'.hostV1Id = s.hostV1Id :=
      (congrArg TextInputState.hostV1Id heditor).trans TextInputState.committed_hostV1Id
    have hclean : ∀ field, s'.dirty field = false := fun field =>
      (congrArg (TextInputState.dirty · field) heditor).trans
        (TextInputState.committed_dirty field)
    have henabled : s'.enabledDirty = false :=
      (congrArg TextInputState.enabledDirty heditor).trans TextInputState.committed_enabledDirty
    refine .inr ⟨s, s', activation, transaction, hs, ?_, rfl, ?_, hactivation,
      hfollows.sendsChanges hencode, hfollows'.settled hclean henabled, ?_⟩
    · simpa [EditorSession.after, htransaction] using hs'
    · simpa [EditorSession.after, htransaction] using hqueue
    · simp only [EditorSession.after, htransaction]
      intro hsynced field
      rw [← hid, hfollows'.sent hsynced field (hclean field), hfollows'.pending]
      rfl

/-- A text input of a focused seat is enabled with a text. -/
theorem guest_commit_enable :
    ∃ session session' s, (editorSystem 6).step session (.request .commit) = some session' ∧
      session.context.textInputs.get 6 = some s ∧ session'.synced = true ∧
      session'.server.current.surroundingText = some ("é", 2, 0) ∧
      ∀ field, lastSent s.hostV1Id field session'.context.clientToHostQueue =
        some (session'.server.current.payload field) := by
  have hrun : ((inputSystem.run .new [seatReady, .getTextInput 6 3, .keyboardEnter 50 40]).bind
      fun c => ((c.textInputs.get 6).filter fun s =>
        decide (s = s.applyFocus s.activeSurface ∧ s.activeSurface.isSome = true)).bind fun _ =>
      (commitTransaction (onSetSurroundingText (onEnable c 6) 6 "é" 2 0) 6).bind fun _ =>
      onCommitTextInput (onSetSurroundingText (onEnable c 6) 6 "é" 2 0) 6).isSome = true := by
    decide +kernel
  obtain ⟨c', hrun⟩ := Option.isSome_iff_exists.mp hrun
  obtain ⟨c, -, hrun⟩ := Option.bind_eq_some_iff.mp hrun
  obtain ⟨s, hs, hrun⟩ := Option.bind_eq_some_iff.mp hrun
  obtain ⟨transaction, htransaction, hcommit⟩ := Option.bind_eq_some_iff.mp hrun
  obtain ⟨hs, hfresh⟩ := Option.filter_eq_some_iff.mp hs
  let session : EditorSession := {
    context := onSetSurroundingText (onEnable c 6) 6 "é" 2 0
    server := ⟨.unset, { EditorFields.unset with surroundingText := some ("é", 2, 0) }⟩
    requests := [.enable, .setSurroundingText "é" 2 0]
    synced := false }
  have hreachable : (editorSystem 6).ReachableWhile
      (fun session i => i.Admissible 6 session) session := by
    refine .step (i := .request (.setSurroundingText "é" 2 0)) (.step (i := .request .enable)
      (.init (s := ⟨c, .new .unset, [], false⟩) ?_) trivial rfl) trivial rfl
    exact ⟨⟨s, hs, of_decide_eq_true hfresh⟩, rfl, rfl, rfl⟩
  have hstep : (editorSystem 6).step session (.request .commit) =
      some (session.after 6 .commit c') :=
    congrArg (Option.map (session.after 6 .commit)) hcommit
  rcases guest_commit hreachable hstep with ⟨hnone, -⟩ | ⟨s, -, -, -, hs, -, -, -, -, -, -, hsent⟩
  · rw [htransaction] at hnone
    cases hnone
  · refine ⟨_, _, s, hstep, hs, ?_, ?_, hsent ?_⟩ <;>
      simp [session, EditorSession.after, htransaction, EditorRequest.resets, Mirrored.commit]

/-- The cause of a text change is a field of the guest protocol alone: a commit sends nothing
for it. -/
theorem text_change_cause_not_sent :
    ∃ c c' s, inputSystem.run .new [seatReady, .getTextInput 6 3, .keyboardEnter 50 40,
        .setTextChangeCause 6 1] = some c ∧
      c.textInputs.get 6 = some s ∧ s.activeSurface.isSome = true ∧ s.textChangeCause = 1 ∧
      onCommitTextInput c 6 = some c' ∧
      c'.clientToHostQueue = c.clientToHostQueue ++ [⟨s.hostV1Id, 9, [.word 1]⟩] := by
  have hrun : ((inputSystem.run .new [seatReady, .getTextInput 6 3, .keyboardEnter 50 40,
      .setTextChangeCause 6 1]).bind fun c => (c.textInputs.get 6).bind fun s =>
      (onCommitTextInput c 6).map fun c' => s.activeSurface.isSome && s.textChangeCause == 1 &&
        c'.clientToHostQueue == c.clientToHostQueue ++ [⟨s.hostV1Id, 9, [.word 1]⟩]) =
      some true := by decide +kernel
  obtain ⟨c, hc, hrun⟩ := Option.bind_eq_some_iff.mp hrun
  obtain ⟨s, hs, hrun⟩ := Option.bind_eq_some_iff.mp hrun
  obtain ⟨c', hc', hrun⟩ := Option.map_eq_some_iff.mp hrun
  simp only [Bool.and_eq_true, beq_iff_eq] at hrun
  exact ⟨c, c', s, hc, hs, hrun.1.1, hrun.1.2, hc', hrun.2⟩

end Sommelier
