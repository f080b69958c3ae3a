import Mathlib.Data.String.Basic
import Sommelier.Input.HostTextEvents
import Sommelier.Input.TextInputHistory
import Sommelier.WireValues

/-!
# Preedit regions

The host can turn a part of the text around the cursor into a preedit. The guest protocol has
no such event: the part is deleted from the text and sent back as the preedit. A client that
follows the events shows the same characters.

## Main definitions

* `TextClient`: a client of the guest protocol, and what it shows.
* `ReplacesRegion`: events that take a range out of a text and send it back.
* `preedit_region`: what the handler sends, and what a client makes of it.
-/
namespace Sommelier

/-! ## Clients -/

/-- The text of a client around its caret, the preedit at the caret with the cursor in it, and
the changes that wait for a `done`. -/
structure TextClient where
  before : List UInt8
  preedit : List UInt8
  preeditCursor : ℤ × ℤ
  after : List UInt8
  pendingDelete : ℕ × ℕ
  pendingCommit : List UInt8
  pendingPreedit : List UInt8 × ℤ × ℤ

namespace TextClient

/-- The order of `done`: the preedit goes, the deleted text goes, the commit text comes, and
the new preedit comes. Then nothing is pending. -/
def applyDone (client : TextClient) : TextClient where
  before := client.before.take (client.before.length - client.pendingDelete.1) ++
    client.pendingCommit
  preedit := client.pendingPreedit.1
  preeditCursor := client.pendingPreedit.2
  after := client.after.drop client.pendingDelete.2
  pendingDelete := (0, 0)
  pendingCommit := []
  pendingPreedit := ([], 0, 0)

def receive (client : TextClient) : QueuedMessage → TextClient
  | ⟨_, 2, [.text text, .signed first, .signed last]⟩ =>
    { client with pendingPreedit := (asBytes text, first, last) }
  | ⟨_, 3, [.text text]⟩ => { client with pendingCommit := asBytes text }
  | ⟨_, 4, [.word before, .word after]⟩ => { client with pendingDelete := (before, after) }
  | ⟨_, 5, _⟩ => client.applyDone
  | _ => client

def shown (client : TextClient) : List UInt8 := client.before ++ client.preedit ++ client.after

/-- The byte the caret stands before; `none` when it is hidden. -/
def caret (client : TextClient) : Option ℤ :=
  if client.preedit = [] then some client.before.length
  else if client.preeditCursor = (-1, -1) then none
  else some (client.before.length + client.preeditCursor.1)

/-- The client has a text around its caret, possibly as a part of a longer one, the preedit of
the text input, and no pending changes. -/
structure Shows (client : TextClient) (text : String) (cursor : ℕ) (preedit : String) : Prop where
  before : (asBytes text).take cursor <:+ client.before
  after : (asBytes text).drop cursor <+: client.after
  preedit : client.preedit = asBytes preedit
  settled : client.pendingDelete = (0, 0) ∧ client.pendingCommit = [] ∧
    client.pendingPreedit = ([], 0, 0)

end TextClient

/-! ## Regions of a text -/

theorem asBytes_append (s t : String) : asBytes (s ++ t) = asBytes s ++ asBytes t := by
  simp [asBytes]

theorem length_asBytes (s : String) : (asBytes s).length = s.utf8ByteSize := by
  simp [asBytes, ← String.size_toByteArray]

theorem isCharBoundary_iff {text : String} {n : ℕ} :
    isCharBoundary text n = true ↔ ∃ l r : String, text = l ++ r ∧ l.utf8ByteSize = n := by
  rw [isCharBoundary, String.Pos.Raw.isValid_eq_true_iff, String.Pos.Raw.isValid_iff_exists_append]
  simp [String.Pos.Raw.ext_iff, eq_comm]

/-- Of two boundaries the later one splits what is after the earlier one. -/
theorem exists_split {l r : String} {n : ℕ} (h : isCharBoundary (l ++ r) n = true)
    (hn : l.utf8ByteSize ≤ n) :
    ∃ m r', r = m ++ r' ∧ l.utf8ByteSize + m.utf8ByteSize = n := by
  obtain ⟨l', r', heq, rfl⟩ := isCharBoundary_iff.mp h
  have hlist : l.toList ++ r.toList = l'.toList ++ r'.toList := by
    rw [← String.toList_append, heq, String.toList_append]
  rcases List.append_eq_append_iff.mp hlist with ⟨m, hl', hr⟩ | ⟨m, hl, hr'⟩
  · refine ⟨.ofList m, r', String.toList_inj.mp (by simpa using hr), ?_⟩
    have hsplit : l' = l ++ .ofList m := String.toList_inj.mp (by simpa using hl')
    rw [hsplit, String.utf8ByteSize_append]
  · have hsplit : l = l' ++ .ofList m := String.toList_inj.mp (by simpa using hl)
    have hm : (String.ofList m).utf8ByteSize = 0 := by
      rw [hsplit, String.utf8ByteSize_append] at hn
      omega
    rw [String.utf8ByteSize_eq_zero_iff] at hm
    refine ⟨"", r, by simp, ?_⟩
    rw [hsplit, hm]
    simp

/-- A slice between two boundaries. -/
theorem extract_append (l m r : String) :
    String.Pos.Raw.extract (l ++ m ++ r) ⟨l.utf8ByteSize⟩ ⟨l.utf8ByteSize + m.utf8ByteSize⟩ =
      m := by
  have h := String.extract_of_valid l.toList m.toList r.toList
  simpa [String.utf8Len_toList, String.append_assoc] using h

/-- Three boundaries split a text into four. -/
theorem exists_region {text : String} {start cursor stop : ℕ}
    (hstart : isCharBoundary text start = true) (hcursor : isCharBoundary text cursor = true)
    (hstop : isCharBoundary text stop = true) (h : start ≤ cursor) (h' : cursor ≤ stop) :
    ∃ l m m' r : String, text = l ++ m ++ m' ++ r ∧ l.utf8ByteSize = start ∧
      start + m.utf8ByteSize = cursor ∧ cursor + m'.utf8ByteSize = stop := by
  obtain ⟨l, r₁, rfl, rfl⟩ := isCharBoundary_iff.mp hstart
  obtain ⟨m, r₂, rfl, rfl⟩ := exists_split hcursor h
  have hsize : (l ++ m).utf8ByteSize = l.utf8ByteSize + m.utf8ByteSize :=
    String.utf8ByteSize_append
  rw [← String.append_assoc] at hstop
  obtain ⟨m', r, rfl, hm'⟩ := exists_split hstop (hsize.le.trans h')
  exact ⟨l, m, m', r, by simp [String.append_assoc], rfl, rfl, hsize ▸ hm'⟩

/-! ## What is sent -/

/-- A range around the cursor and the preedit it becomes. -/
structure PreeditRegion where
  before : ℕ
  after : ℕ
  preedit : String
  cursor : ℤ × ℤ

namespace PreeditRegion

def messages (region : PreeditRegion) (guestId serial : ℕ) : List QueuedMessage :=
  [⟨guestId, 4, [.word region.before, .word region.after]⟩,
    preeditMessage guestId region.preedit region.cursor, ⟨guestId, 5, [.word serial]⟩]

/-- The range is within the text and between characters, and the preedit is what it holds. -/
structure Valid (region : PreeditRegion) (text : String) (cursor : ℕ) : Prop where
  before : region.before ≤ cursor
  after : cursor + region.after ≤ text.utf8ByteSize
  start : isCharBoundary text (cursor - region.before) = true
  stop : isCharBoundary text (cursor + region.after) = true
  same : asBytes region.preedit =
    ((asBytes text).drop (cursor - region.before)).take (region.before + region.after)

variable {region : PreeditRegion} {text : String} {cursor guestId serial : ℕ}
  {client : TextClient}

theorem Valid.cursor_le (h : region.Valid text cursor) : cursor ≤ (asBytes text).length := by
  rw [length_asBytes]
  exact (Nat.le_add_right _ _).trans h.after

/-- What is left before the caret. -/
theorem Valid.take_before (h : region.Valid text cursor) (pre : List UInt8) :
    (pre ++ (asBytes text).take cursor).take
      ((pre ++ (asBytes text).take cursor).length - region.before) =
      pre ++ (asBytes text).take (cursor - region.before) := by
  have hbefore := h.before
  have hlength : (pre ++ (asBytes text).take cursor).length - region.before =
      pre.length + (cursor - region.before) := by
    rw [List.length_append, List.length_take_of_le h.cursor_le]
    omega
  rw [hlength, List.take_length_add_append, List.take_take, Nat.min_eq_left (by omega)]

/-- What is left after the caret. -/
theorem Valid.drop_after (h : region.Valid text cursor) (post : List UInt8) :
    ((asBytes text).drop cursor ++ post).drop region.after =
      (asBytes text).drop (cursor + region.after) ++ post := by
  have hafter : region.after ≤ ((asBytes text).drop cursor).length := by
    have := h.after
    rw [List.length_drop, length_asBytes]
    omega
  rw [List.drop_append_of_le_length hafter, List.drop_drop]

/-- The client after the events of a valid region. -/
theorem Valid.receive (h : region.Valid text cursor) {pre post : List UInt8}
    (hclient : client.Shows text cursor "")
    (hpre : pre ++ (asBytes text).take cursor = client.before)
    (hpost : (asBytes text).drop cursor ++ post = client.after) :
    (region.messages guestId serial).foldl TextClient.receive client = {
      before := pre ++ (asBytes text).take (cursor - region.before)
      preedit := asBytes region.preedit
      preeditCursor := region.cursor
      after := (asBytes text).drop (cursor + region.after) ++ post
      pendingDelete := (0, 0)
      pendingCommit := []
      pendingPreedit := ([], 0, 0) } := by
  obtain ⟨-, hcommit, -⟩ := hclient.settled
  simp only [messages, preeditMessage, List.foldl_cons, List.foldl_nil, TextClient.receive,
    TextClient.applyDone, hcommit, ← hpre, ← hpost, h.take_before, h.drop_after, List.append_nil]

/-- A client shows the same bytes after a valid region. -/
theorem Valid.shown (h : region.Valid text cursor) (hclient : client.Shows text cursor "") :
    ((region.messages guestId serial).foldl TextClient.receive client).shown = client.shown := by
  obtain ⟨pre, hpre⟩ := hclient.before
  obtain ⟨post, hpost⟩ := hclient.after
  have hbefore := h.before
  have hsum : cursor - region.before + (region.before + region.after) = cursor + region.after := by
    omega
  calc ((region.messages guestId serial).foldl TextClient.receive client).shown
      = pre ++ ((asBytes text).take (cursor - region.before) ++ asBytes region.preedit ++
          (asBytes text).drop (cursor + region.after)) ++ post := by
        simp [h.receive hclient hpre hpost, TextClient.shown]
    _ = pre ++ asBytes text ++ post := by
        rw [h.same, ← List.take_add, hsum, List.take_append_drop]
    _ = client.shown := by
        have hempty : asBytes "" = [] := rfl
        rw [TextClient.shown, ← hpre, ← hpost, hclient.preedit, hempty, List.append_nil,
          ← List.append_assoc _ _ post, List.append_assoc pre (List.take _ _),
          List.take_append_drop]

/-- The caret stays when the cursor of the preedit is where the caret was. -/
theorem Valid.caret (h : region.Valid text cursor) (hclient : client.Shows text cursor "")
    (hcursor : region.cursor = (↑region.before, ↑region.before)) :
    ((region.messages guestId serial).foldl TextClient.receive client).caret = client.caret := by
  obtain ⟨pre, hpre⟩ := hclient.before
  obtain ⟨post, hpost⟩ := hclient.after
  have hbefore := h.before
  have hlength := h.cursor_le
  have hcaret : client.caret = some ↑(pre.length + cursor) := by
    have hempty : client.preedit = [] := hclient.preedit
    rw [TextClient.caret, if_pos hempty, ← hpre, List.length_append,
      List.length_take_of_le hlength]
  rw [hcaret, h.receive hclient hpre hpost, TextClient.caret, hcursor]
  have hleft : (pre ++ (asBytes text).take (cursor - region.before)).length =
      pre.length + (cursor - region.before) := by
    rw [List.length_append, List.length_take_of_le (by omega)]
  dsimp only
  rw [hleft]
  split_ifs with hempty hhidden
  · -- An empty preedit takes nothing from before the caret.
    have hnone := congrArg List.length h.same
    rw [hempty, List.length_take_of_le, List.length_nil] at hnone
    · congr 2
      omega
    · have := h.after
      rw [List.length_drop, length_asBytes]
      omega
  · simp only [Prod.mk.injEq] at hhidden
    omega
  · congr 1
    push_cast
    omega

end PreeditRegion

/-! ## The handler -/

theorem resolvePreeditCursor_boundary {text : String} {n : ℕ}
    (h : isCharBoundary text n = true) : resolvePreeditCursor text none (some ↑n) = (↑n, ↑n) := by
  simp [resolvePreeditCursor, h]

/-- A range around the cursor of a valid text is a valid region, and the cursor is a boundary
of what it holds. -/
theorem valid_region {text : String} {start cursor stop : ℕ} (resolved : ℤ × ℤ)
    (hstart : isCharBoundary text start = true) (hcursor : isCharBoundary text cursor = true)
    (hstop : isCharBoundary text stop = true) (h : start ≤ cursor) (h' : cursor ≤ stop) :
    let preedit := String.Pos.Raw.extract text ⟨start⟩ ⟨stop⟩
    PreeditRegion.Valid ⟨cursor - start, stop - cursor, preedit, resolved⟩ text cursor ∧
      isCharBoundary preedit (cursor - start) = true := by
  obtain ⟨l, m, m', r, rfl, rfl, rfl, rfl⟩ := exists_region hstart hcursor hstop h h'
  have hpreedit : String.Pos.Raw.extract (l ++ m ++ m' ++ r) ⟨l.utf8ByteSize⟩
      ⟨l.utf8ByteSize + m.utf8ByteSize + m'.utf8ByteSize⟩ = m ++ m' := by
    have hextract := extract_append l (m ++ m') r
    simpa [String.append_assoc, Nat.add_assoc] using hextract
  dsimp only
  rw [hpreedit]
  refine ⟨{
    before := by simp
    after := by simp
    start := by simpa using hstart
    stop := by simpa using hstop
    same := ?_ }, ?_⟩
  · simp only [asBytes_append, ← length_asBytes, Nat.add_sub_cancel_left, List.append_assoc,
      Nat.add_sub_cancel, List.drop_left]
    rw [← List.append_assoc, ← List.length_append, List.take_left]
  · exact isCharBoundary_iff.mpr ⟨m, m', rfl, by simp⟩

/-- The handler leaves everything as it is, or sends a valid region. -/
theorem onSetPreeditRegion_cases {c : InputContext} {hostExtId guestId length : ℕ} {index : ℤ}
    {s : TextInputState} {text : String} {cursor anchor : ℤ}
    (hguest : guestForExtension c hostExtId = some guestId)
    (hs : c.textInputs.get guestId = some s) (hvalid : ValidSurrounding (text, cursor, anchor))
    (htext : s.committedSurroundingText = some (text, cursor, anchor)) :
    onSetPreeditRegion c hostExtId index length = c ∨ ∃ region : PreeditRegion,
      (onSetPreeditRegion c hostExtId index length).hostToClientQueue =
        c.hostToClientQueue ++ region.messages guestId s.guestCommitSerial ∧
      region.Valid text cursor.toNat ∧
      (s.pendingPreeditSelection = none → s.pendingPreeditCursor = none →
        region.cursor = (↑region.before, ↑region.before)) := by
  unfold onSetPreeditRegion
  rw [hguest]
  dsimp only
  split
  · exact .inl rfl
  rename_i plan text' cursor' anchor' hplan
  obtain ⟨s', hs', hplan⟩ := exists_plan hplan
  obtain rfl := Option.some.inj (hs'.symm.trans hs)
  obtain ⟨plan', hplan', hpair⟩ := Option.bind_eq_some_iff.mp hplan
  rw [htext] at hpair
  obtain ⟨rfl, rfl, rfl, rfl⟩ : plan' = plan ∧ text = text' ∧ cursor = cursor' ∧
      anchor = anchor' := by simpa using hpair
  obtain rfl : plan' = _ := by
    unfold TextInputState.prepareComposition at hplan'
    split_ifs at hplan'
    exact (Option.some.inj hplan').symm
  split_ifs with hrange
  · simp only [Bool.and_eq_true, decide_eq_true_eq] at hrange
    obtain ⟨⟨⟨⟨⟨hnonneg, -⟩, hstart⟩, hstop⟩, hle⟩, hge⟩ := hrange
    obtain ⟨hcursor, -, hboundary, -⟩ := hvalid
    obtain ⟨hregion, hdefault⟩ := valid_region (resolvePreeditCursor
        (String.Pos.Raw.extract text ⟨(cursor + index).toNat⟩ ⟨(cursor + index + length).toNat⟩)
        s'.pendingPreeditSelection
        (s'.pendingPreeditCursor.or (some (cursor - (cursor + index)))))
      hstart hboundary hstop (by omega) (by omega)
    have hbefore : (cursor - (cursor + index)).toNat = cursor.toNat - (cursor + index).toNat := by
      omega
    have hafter : (cursor + index + length - cursor).toNat =
        (cursor + index + length).toNat - cursor.toNat := by omega
    rw [hbefore, hafter]
    unfold compose
    split
    · exact .inl rfl
    next transaction hencode =>
      refine .inr ⟨_, ?_, hregion, fun hselection hpending => ?_⟩
      · unfold encodeTransaction at hencode
        split_ifs at hencode
        rw [← Option.some.inj hencode]
        rfl
      · have hcast : cursor - (cursor + index) = ↑(cursor.toNat - (cursor + index).toNat) := by
          omega
        dsimp only
        rw [hselection, hpending, Option.none_or, hcast]
        exact resolvePreeditCursor_boundary hdefault
  · exact .inl rfl

/-- On a session, an event for a text input that is active on the host, with a published text
and without a preedit, is ignored or takes a range around the cursor, within the text and
between characters, and sends what it held back as the preedit. A client then shows the same
bytes, with the caret at the same place when the host gave no cursor and no selection. -/
theorem preedit_region {c : InputContext} (hc : inputSystem.Reachable c)
    {hostExtId guestId : ℕ} {s : TextInputState} {text : String} {cursor anchor : ℤ}
    (hguest : guestForExtension c hostExtId = some guestId)
    (hs : c.textInputs.get guestId = some s) (hpreedit : s.currentPreedit = "")
    (htext : s.committedSurroundingText = some (text, cursor, anchor))
    (index : ℤ) (length : ℕ) :
    onSetPreeditRegion c hostExtId index length = c ∨ ∃ region : PreeditRegion,
      (onSetPreeditRegion c hostExtId index length).hostToClientQueue =
        c.hostToClientQueue ++ region.messages guestId s.guestCommitSerial ∧
      region.Valid text cursor.toNat ∧
      ∀ client : TextClient, client.Shows text cursor.toNat s.currentPreedit →
        let client' :=
          (region.messages guestId s.guestCommitSerial).foldl TextClient.receive client
        client'.shown = client.shown ∧
          (s.pendingPreeditSelection = none → s.pendingPreeditCursor = none →
            client'.caret = client.caret) := by
  have hvalid := (reached_of_reachable hc guestId s hs).validTexts.committed _ htext
  refine (onSetPreeditRegion_cases hguest hs hvalid htext).imp_right ?_
  rintro ⟨region, hqueue, hregion, hcursor⟩
  refine ⟨region, hqueue, hregion, fun client hclient => ?_⟩
  rw [hpreedit] at hclient
  exact ⟨hregion.shown hclient, fun hselection hpending =>
    hregion.caret hclient (hcursor hselection hpending)⟩

/-- The other handlers bound the host objects, with the extension, and created a seat, a
keyboard and a surface. -/
def extensionReady : InputMessage :=
  .other ((((InputContext.new.shadowTable.mapId 3 30).mapId 4 40).mapId 5 50).trackInterface 3
    .wlSeat) ((∅ : Table ℕ ℕ).set 5 3) (some 20) (some 21)

/-- The last two characters of a text, of which the first takes two bytes, become the preedit. -/
theorem preedit_region_accent :
    ∃ c s, inputSystem.run .new [extensionReady, .getTextInput 6 3, .keyboardEnter 50 40,
        .enable 6, .setSurroundingText 6 "né!" 3 3, .commitTextInput 6] = some c ∧
      c.textInputs.get 6 = some s ∧ s.hostIsActive = true ∧ ∃ region : PreeditRegion,
        (onSetPreeditRegion c 3 (-2) 3).hostToClientQueue =
          c.hostToClientQueue ++ region.messages 6 s.guestCommitSerial ∧
        region.Valid "né!" 3 ∧ region = ⟨2, 1, "é!", (2, 2)⟩ := by
  have hrun : (inputSystem.run .new [extensionReady, .getTextInput 6 3, .keyboardEnter 50 40,
      .enable 6, .setSurroundingText 6 "né!" 3 3, .commitTextInput 6]).map
        (fun c => ((guestForExtension c 3, (c.textInputs.get 6).map fun s => s.hostIsActive &&
          s.currentPreedit == "" && s.committedSurroundingText == some ("né!", 3, 3)),
          (onSetPreeditRegion c 3 (-2) 3).hostToClientQueue.drop c.hostToClientQueue.length)) =
      some ((some 6, some true), (⟨2, 1, "é!", (2, 2)⟩ : PreeditRegion).messages 6 1) := by
    decide +kernel
  obtain ⟨c, hc, heq⟩ := Option.map_eq_some_iff.mp hrun
  obtain ⟨heq, hsent⟩ := Prod.mk.inj heq
  obtain ⟨hguest, hs⟩ := Prod.mk.inj heq
  obtain ⟨s, hs, heq⟩ := Option.map_eq_some_iff.mp hs
  simp only [Bool.and_eq_true, beq_iff_eq] at heq
  obtain ⟨⟨hactive, hpreedit⟩, htext⟩ := heq
  refine ⟨c, s, hc, hs, hactive, ?_⟩
  obtain hignored | ⟨region, hqueue, hregion, -⟩ :=
    preedit_region (.run (.init rfl) hc) hguest hs hpreedit htext (-2) 3
  · rw [hignored] at hsent
    simp [PreeditRegion.messages] at hsent
  · refine ⟨region, hqueue, hregion, ?_⟩
    obtain ⟨before, after, preedit, first, last⟩ := region
    rw [hqueue, List.drop_left] at hsent
    simp only [PreeditRegion.messages, preeditMessage] at hsent
    simp_all

end Sommelier
