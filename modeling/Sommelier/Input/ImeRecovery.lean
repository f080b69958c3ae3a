import Sommelier.Input.KeyAcks
import Sommelier.Input.RepeatableKeys

/-!
# Recovered keys

An input method that consumes the repeats of a held key confirms an empty preedit for each of
them, and the guest gets the key as a press and a release. The key has to be the one that is
held: the newest one that was peeked for the seat and its focus, which the keymap repeats,
which the guest does not have from another channel, and which is no accelerator of the host.

The last of these is known as long as no accelerator goes unnoticed: the generation of a key
that a text input delivered keeps no trace of it, and a new keymap wipes the trace.

## Main definitions

* `KeyboardContext.Recoverable`: the key that may be recovered.
* `KeyboardContext.ConfirmsRecoverable`: an empty confirmation recovers no other key.
-/
namespace Sommelier

/-- An event about a key. -/
def IsKeyMessage (m : QueuedMessage) : Prop :=
  ∃ guestKeyboard serial time key state, m = keyMessage guestKeyboard serial time key state

theorem not_isKeyMessage_text {senderId opcode : ℕ} {text : String} {payload : List Payload} :
    ¬IsKeyMessage ⟨senderId, opcode, .text text :: payload⟩ := by
  rintro ⟨guestKeyboard, serial, time, key, state, h⟩
  simp [keyMessage] at h

theorem not_isKeyMessage_done {senderId opcode serial : ℕ} :
    ¬IsKeyMessage ⟨senderId, opcode, [.word serial]⟩ := by
  rintro ⟨guestKeyboard, serial, time, key, state, h⟩
  simp [keyMessage] at h

theorem ne_nextSyntheticSerial (serial : ℕ) :
    serial ≠ KeyboardContext.nextSyntheticSerial serial := by
  unfold KeyboardContext.nextSyntheticSerial
  omega

theorem KeyGenerationRegistry.mem_peekKeys {r : KeyGenerationRegistry} {keyboard key : ℕ}
    {press : PeekKeyProvenance} :
    (key, press) ∈ r.peekKeys keyboard ↔ r.peek keyboard key = some press := by
  simp only [peekKeys, List.mem_filterMap, peek, generation, Option.bind_eq_some_iff]
  constructor
  · rintro ⟨⟨⟨keyboard', key'⟩, g⟩, hg, h⟩
    simp only [beq_iff_eq] at h
    split_ifs at h with hkeyboard
    obtain ⟨press', hpress, heq⟩ := Option.map_eq_some_iff.mp h
    obtain ⟨rfl, rfl⟩ := Prod.mk.inj heq
    obtain rfl := hkeyboard
    exact ⟨g, (Table.mem_entries ..).mp hg, hpress⟩
  · rintro ⟨g, hg, hpress⟩
    exact ⟨⟨(keyboard, key), g⟩, (Table.mem_entries ..).mpr hg, by simp [hpress]⟩

namespace KeyboardContext
variable {x : Xkb} {c : KeyboardContext x} {guestSeat : ℕ} {held : HeldRepeatKey}

/-! ## Candidates -/

/-- A keyboard of the seat, which has the focus of the seat if there is one. -/
structure FocusedFor (c : KeyboardContext x) (guestSeat guestKeyboard hostKeyboard : ℕ) :
    Prop where
  seat : c.input.keyboardToSeat.get guestKeyboard = some guestSeat
  host : c.input.shadowTable.getHostId guestKeyboard = some hostKeyboard
  focus : ∀ surface, c.input.keyboardFocus.surfaceForSeat guestSeat = some surface →
    c.input.keyboardFocus.keyboardOwnsSurface hostKeyboard surface = true

theorem mem_repeatCandidates :
    held ∈ c.repeatCandidates guestSeat ↔
      c.FocusedFor guestSeat held.guestKeyboard held.hostKeyboard ∧
        c.keyGenerations.peek held.hostKeyboard held.key = some held.press := by
  simp only [repeatCandidates, keyboardsForSeat, List.mem_flatMap, List.mem_filter,
    List.mem_filterMap, List.mem_mergeSort, Table.mem_keysWhere, List.mem_map, Prod.exists]
  constructor
  · rintro ⟨guestKeyboard, hostKeyboard, ⟨⟨_, ⟨seat, hseat, heq⟩, hhost⟩, hfocus⟩, key, press,
      hpress, rfl⟩
    obtain ⟨host, hhost', hpair⟩ := Option.map_eq_some_iff.mp hhost
    obtain ⟨rfl, rfl⟩ := Prod.mk.inj hpair
    obtain rfl : seat = guestSeat := by simpa using heq
    refine ⟨⟨hseat, hhost', fun surface hsurface => ?_⟩,
      KeyGenerationRegistry.mem_peekKeys.mp hpress⟩
    simpa [hsurface] using hfocus
  · rintro ⟨⟨hseat, hhost, hfocus⟩, hpress⟩
    refine ⟨held.guestKeyboard, held.hostKeyboard,
      ⟨⟨_, ⟨guestSeat, hseat, by simp⟩, by simp [hhost]⟩,
      ?_⟩, held.key, held.press, KeyGenerationRegistry.mem_peekKeys.mpr hpress, rfl⟩
    cases hsurface : c.input.keyboardFocus.surfaceForSeat guestSeat with
    | none => rfl
    | some surface => exact hfocus surface hsurface

/-- A key of a keyboard of the seat that may be recovered, with its generation. -/
structure Recoverable (c : KeyboardContext x) (guestSeat : ℕ) (held : HeldRepeatKey)
    (g : KeyGeneration) : Prop where
  focused : c.FocusedFor guestSeat held.guestKeyboard held.hostKeyboard
  generation : c.keyGenerations.generation held.hostKeyboard held.key = some g
  peeked : g.peek = some held.press
  newest : ∀ guestKeyboard hostKeyboard key g', c.FocusedFor guestSeat guestKeyboard hostKeyboard →
    c.keyGenerations.generation hostKeyboard key = some g' → g'.peek ≠ none → g'.id ≤ g.id
  latest : ∀ sequence, c.keyGenerations.latestPeekSequence guestSeat
    (c.input.keyboardFocus.surfaceForSeat guestSeat) = some sequence → sequence = g.id
  physical : g.physicalState = .held
  repeats : ∃ keymap, c.keymaps.get held.hostKeyboard = some keymap ∧
    x.keyRepeats keymap (held.key + 8) = true
  accelerator : g.accelerator = false
  closed : g.forwarded = false

/-- The key that is held may be recovered, unless the guest has it. -/
theorem recoverable_of_held (hc : c.Sound True) (hfollow : c.RepeatsFollowKeymaps)
    (hheld : c.heldRepeatKeyForSeat guestSeat = some held)
    (hforwarded : c.keyGenerations.forwarded held.hostKeyboard held.key = false) :
    ∃ g, c.Recoverable guestSeat held g := by
  obtain ⟨hmax, hvalid⟩ := Option.filter_eq_some_iff.mp hheld
  simp only [Bool.and_eq_true] at hvalid
  obtain ⟨⟨⟨⟨hlatest, hphysical⟩, heligible⟩, hrepeats⟩, -⟩ := hvalid
  obtain ⟨hfocused, hpeek⟩ := mem_repeatCandidates.mp (List.argmax_mem hmax)
  obtain ⟨g, hg, hpress⟩ := Option.bind_eq_some_iff.mp hpeek
  have hsound := hc held.hostKeyboard held.key g hg
  have hsequence := hsound.sequence held.press hpress
  have hstate : g.physicalState = .held := by
    simpa [KeyGenerationRegistry.physicallyHeld, hg] using hphysical
  have hclosed : g.forwarded = false := by
    simpa [KeyGenerationRegistry.forwarded, hg] using hforwarded
  refine ⟨g, hfocused, hg, hpress, fun guestKeyboard hostKeyboard key g' hfocused' hg' hpeek' => ?_,
    fun sequence hsome => ?_, hstate, ?_, ?_, hclosed⟩
  · obtain ⟨press', hpress'⟩ := Option.ne_none_iff_exists'.mp hpeek'
    have hmem : { guestKeyboard, hostKeyboard, key, press := press' } ∈
        c.repeatCandidates guestSeat :=
      mem_repeatCandidates.mpr ⟨hfocused', Option.bind_eq_some_iff.mpr ⟨g', hg', hpress'⟩⟩
    have hle := List.le_of_mem_argmax hmem hmax
    rw [← hsequence, ← (hc hostKeyboard key g' hg').sequence press' hpress']
    exact hle
  · rw [← hsequence]
    simpa [hsome] using hlatest
  · rw [hfollow held.hostKeyboard] at hrepeats
    obtain ⟨keys, hkeys, hmem⟩ := (Option.any_eq_true ..).mp hrepeats
    obtain ⟨keymap, hkeymap, rfl⟩ := Option.map_eq_some_iff.mp hkeys
    exact ⟨keymap, hkeymap, Xkb.mem_repeatableEvdevKeycodes (by simpa using hmem)⟩
  · by_contra haccelerator
    rcases hsound.remembers trivial (by simpa using haccelerator) with h | h | h
    · cases hstate.symm.trans h
    · simp [KeyGeneration.forwarded, h] at hclosed
    · simp [KeyGeneration.barred, hpress, heligible] at h

/-! ## Confirmations -/

theorem input_synthesizeImeConsumedKeyPair (c : KeyboardContext x) (held : HeldRepeatKey) :
    (c.synthesizeImeConsumedKeyPair held).2.input = c.input := by
  unfold synthesizeImeConsumedKeyPair
  dsimp only
  split_ifs <;> rfl

/-- A pair is a press and a release of the held key, which the guest does not have. -/
theorem synthesized {pair : KeyPair} (h : (c.synthesizeImeConsumedKeyPair held).1 = some pair) :
    c.keyGenerations.forwarded held.hostKeyboard held.key = false ∧
      pair.pressSerial ≠ pair.releaseSerial ∧
      pair.messages =
        [keyMessage held.guestKeyboard pair.pressSerial held.press.time held.key 1,
          keyMessage held.guestKeyboard pair.releaseSerial held.press.time held.key 0] := by
  unfold synthesizeImeConsumedKeyPair at h
  dsimp only at h
  split_ifs at h with hdelivery
  obtain rfl := Option.some.inj h
  refine ⟨?_, ne_nextSyntheticSerial _, rfl⟩
  cases hforwarded : c.keyGenerations.forwarded held.hostKeyboard held.key with
  | false => rfl
  | true => simp [KeyGenerationRegistry.transitionGuestKey, KeyGenerationRegistry.recoverIme,
      hforwarded] at hdelivery

/-- The confirmation of a text has no key. -/
theorem noKey_onConfirmPreedit (c : InputContext) (hostExtId : ℕ) :
    ∃ news, (onConfirmPreedit c hostExtId []).hostToClientQueue = c.hostToClientQueue ++ news ∧
      ∀ m ∈ news, ¬IsKeyMessage m := by
  have hnone : ∃ news, c.hostToClientQueue = c.hostToClientQueue ++ news ∧
      ∀ m ∈ news, ¬IsKeyMessage m := ⟨[], (List.append_nil _).symm, nofun⟩
  unfold onConfirmPreedit
  split
  · exact hnone
  · split
    · exact hnone
    · split_ifs
      · exact ⟨[], rfl, nofun⟩
      · unfold compose encodeTransaction
        split_ifs
        · refine ⟨_, rfl, ?_⟩
          simp [preeditMessage, not_isKeyMessage_text, not_isKeyMessage_done]
        · exact hnone

theorem queue_confirmText (c : KeyboardContext x) (hostExtId guestSeat guestId : ℕ) :
    (c.confirmText hostExtId guestSeat guestId).input.hostToClientQueue =
      (onConfirmPreedit c.input hostExtId []).hostToClientQueue := by
  unfold confirmText
  dsimp only
  split_ifs <;> rfl

/-- The held key is confirmed with its pair, if there is one. -/
theorem queue_confirmHeldKey {hostExtId guestId : ℕ} {state : TextInputState}
    {plan : CompositionPlan} (hguest : guestForExtension c.input hostExtId = some guestId)
    (hstate : c.input.textInputs.get guestId = some state)
    (hplan : state.prepareComposition = some plan) (hempty : plan.preedit = "") :
    (c.confirmHeldKey hostExtId guestSeat guestId held).input.hostToClientQueue =
      c.input.hostToClientQueue ++
        (((c.synthesizeImeConsumedKeyPair held).1.map KeyPair.messages).getD [] ++
          [⟨guestId, 5, [.word plan.doneSerial]⟩]) := by
  have hinput := input_synthesizeImeConsumedKeyPair c held
  have hfinish : ∀ (c : KeyboardContext x) (recovered : Bool),
      (c.finishRecovery guestSeat guestId held recovered).input = c.input := by
    intro c recovered
    unfold finishRecovery
    split_ifs <;> rfl
  unfold confirmHeldKey
  simp only [hfinish, hinput, onConfirmPreedit, recoveredMessages, hguest, hstate,
    Option.bind_some, hplan, hempty, if_true, InputContext.toGuest]

/-- What a confirmation does to the queue of the guest. -/
theorem confirm_cases (c : KeyboardContext x) (hostExtId : ℕ) :
    ∃ news, (c.onConfirmPreeditKeys hostExtId).input.hostToClientQueue =
        c.input.hostToClientQueue ++ news ∧
      ((∀ m ∈ news, ¬IsKeyMessage m) ∨ ∃ guestId state held pair,
        guestForExtension c.input hostExtId = some guestId ∧
        c.input.textInputs.get guestId = some state ∧ state.currentPreedit = "" ∧
        c.heldRepeatKeyForSeat state.guestSeat = some held ∧
        (c.synthesizeImeConsumedKeyPair held).1 = some pair ∧
        ∃ doneSerial, news = pair.messages ++ [⟨guestId, 5, [.word doneSerial]⟩]) := by
  unfold onConfirmPreeditKeys
  cases hguest : guestForExtension c.input hostExtId with
  | none => exact ⟨[], (List.append_nil _).symm, .inl nofun⟩
  | some guestId =>
    dsimp only
    cases hplanned : (c.input.textInputs.get guestId).bind fun state =>
        state.prepareComposition.map (state.guestSeat, ·) with
    | none => exact ⟨[], (List.append_nil _).symm, .inl nofun⟩
    | some planned =>
      obtain ⟨state, hstate, hcomposition⟩ := Option.bind_eq_some_iff.mp hplanned
      obtain ⟨plan, hplan, rfl⟩ := Option.map_eq_some_iff.mp hcomposition
      dsimp only
      split_ifs with hempty
      · cases hheld : c.heldRepeatKeyForSeat state.guestSeat with
        | none => exact ⟨[], (List.append_nil _).symm, .inl nofun⟩
        | some held =>
          refine ⟨_, queue_confirmHeldKey hguest hstate hplan hempty, ?_⟩
          cases hpair : (c.synthesizeImeConsumedKeyPair held).1 with
          | none => exact .inl (by simp [not_isKeyMessage_done])
          | some pair =>
            exact .inr ⟨guestId, state, held, pair, rfl, hstate,
              (preedit_of_prepareComposition hplan).trans hempty, hheld, hpair, _, rfl⟩
      · obtain ⟨news, hqueue, hnews⟩ := noKey_onConfirmPreedit c.input hostExtId
        exact ⟨news, (queue_confirmText ..).trans hqueue, .inl hnews⟩

/-- An empty confirmation sends a key only as a press and its release, of a key that may be
recovered. -/
def ConfirmsRecoverable (c : KeyboardContext x) (hostExtId : ℕ) : Prop :=
  ∃ news, (c.onConfirmPreeditKeys hostExtId).input.hostToClientQueue =
      c.input.hostToClientQueue ++ news ∧
    ((∃ m ∈ news, IsKeyMessage m) → ∃ guestId state held g pressSerial releaseSerial doneSerial,
      guestForExtension c.input hostExtId = some guestId ∧
      c.input.textInputs.get guestId = some state ∧ state.currentPreedit = "" ∧
      c.Recoverable state.guestSeat held g ∧ pressSerial ≠ releaseSerial ∧
      news = [keyMessage held.guestKeyboard pressSerial held.press.time held.key 1,
        keyMessage held.guestKeyboard releaseSerial held.press.time held.key 0,
        ⟨guestId, 5, [.word doneSerial]⟩])

/-- In a session that hides no accelerator, an empty confirmation recovers only the key that is
held. -/
theorem ime_recovery {o : ByteOrder}
    (hc : (keyboardSystem o x).ReachableWhile (fun c m => c.guarded m = true) c)
    (hostExtId : ℕ) : c.ConfirmsRecoverable hostExtId := by
  have hsound : c.Sound True := sound_of_reachable (fun _ _ _ h => h) hc
  have hfollow := repeatsFollowKeymaps_of_reachable hc.reachable
  obtain ⟨news, hqueue, hnews⟩ := confirm_cases c hostExtId
  refine ⟨news, hqueue, fun ⟨m, hm, hkey⟩ => ?_⟩
  rcases hnews with hnone | ⟨guestId, state, held, pair, hguest, hstate, hempty, hheld, hpair,
    doneSerial, rfl⟩
  · exact absurd hkey (hnone m hm)
  · obtain ⟨hforwarded, hne, hmessages⟩ := synthesized hpair
    obtain ⟨g, hrecoverable⟩ := recoverable_of_held hsound hfollow hheld hforwarded
    exact ⟨guestId, state, held, g, pair.pressSerial, pair.releaseSerial, doneSerial, hguest,
      hstate, hempty, hrecoverable, hne, by rw [hmessages]; rfl⟩

end KeyboardContext

/-- The messages until a text input is active, too. -/
def textInputReady : List KeyboardMessage :=
  keyboardReady ++ [.text (.getTextInput 6 3), .text (.enable 6), .text (.commitTextInput 6)]

/-- A key that was peeked is recovered. -/
theorem ime_recovery_peeked :
    ∃ c, (keyboardSystem .little oneKey).run (.new oneKey [⟨1, 0x61⟩])
        (textInputReady ++ [.peekKey 2 7 70 30 1]) = some c ∧
      c.ConfirmsRecoverable 4 ∧
      (c.onConfirmPreeditKeys 4).input.hostToClientQueue = c.input.hostToClientQueue ++
        [keyMessage 5 1 70 30 1, keyMessage 5 2 70 30 0, ⟨6, 5, [.word 1]⟩] := by
  have hrun : (((keyboardSystem .little oneKey).restrict KeyboardContext.guarded).run
      (.new oneKey [⟨1, 0x61⟩]) (textInputReady ++ [.peekKey 2 7 70 30 1])).map
        (fun c => decide ((c.onConfirmPreeditKeys 4).input.hostToClientQueue =
          c.input.hostToClientQueue ++
            [keyMessage 5 1 70 30 1, keyMessage 5 2 70 30 0, ⟨6, 5, [.word 1]⟩])) =
      some true := by decide +kernel
  obtain ⟨c, hc, hqueue⟩ := Option.map_eq_some_iff.mp hrun
  have hreachable : ((keyboardSystem .little oneKey).restrict KeyboardContext.guarded).Reachable
      c := .run (.init ⟨_, rfl⟩) hc
  have hguarded := TransitionSystem.Reachable.of_restrict
    (G := fun c m => KeyboardContext.guarded c m = true) (fun _ _ h => h) hreachable
  exact ⟨c, TransitionSystem.run_of_restrict hc, KeyboardContext.ime_recovery hguarded 4,
    of_decide_eq_true hqueue⟩

/-- The guest has the key from the text input when it is found to be an accelerator; when it is
peeked afterwards, it may be recovered once the text input lets go of it. -/
theorem ime_recovery_accelerator :
    ∃ c, (keyboardSystem .little oneKey).run (.new oneKey [⟨1, 0x61⟩]) (textInputReady ++
        [.keysym 3 70 7 0x61 1, .modifiers 50 1 0 0 0, .key 50 8 80 30 1, .modifiers 50 0 0 0 0,
          .peekKey 2 9 90 30 1, .keysym 3 100 10 0x61 0]) = some c ∧
      ¬c.ConfirmsRecoverable 4 := by
  have hrun : ((keyboardSystem .little oneKey).run (.new oneKey [⟨1, 0x61⟩]) (textInputReady ++
      [.keysym 3 70 7 0x61 1, .modifiers 50 1 0 0 0, .key 50 8 80 30 1, .modifiers 50 0 0 0 0,
        .peekKey 2 9 90 30 1, .keysym 3 100 10 0x61 0])).map
        (fun c => (decide ((c.onConfirmPreeditKeys 4).input.hostToClientQueue =
          c.input.hostToClientQueue ++
            [keyMessage 5 1 90 30 1, keyMessage 5 2 90 30 0, ⟨6, 5, [.word 1]⟩]),
          (c.keyGenerations.generation 50 30).map (·.accelerator),
          c.input.shadowTable.getHostId 5)) =
      some (true, some true, some 50) := by decide +kernel
  obtain ⟨c, hc, heq⟩ := Option.map_eq_some_iff.mp hrun
  simp only [Prod.mk.injEq, decide_eq_true_eq] at heq
  obtain ⟨hqueue, haccelerator, hhost⟩ := heq
  refine ⟨c, hc, ?_⟩
  rintro ⟨news, hnews, hkeys⟩
  obtain rfl := List.append_cancel_left (hqueue.symm.trans hnews)
  obtain ⟨_, _, held, g, _, _, _, -, -, -, hrecoverable, -, hpair⟩ :=
    hkeys ⟨keyMessage 5 1 90 30 1, List.mem_cons_self, 5, 1, 90, 30, 1, rfl⟩
  have hkeyboard : 5 = held.guestKeyboard ∧ 30 = held.key := by
    simp only [keyMessage, List.cons.injEq, QueuedMessage.mk.injEq, Payload.word.injEq] at hpair
    exact ⟨hpair.1.1, hpair.1.2.2.2.2.1⟩
  have hhost' := hrecoverable.focused.host
  rw [← hkeyboard.1, hhost] at hhost'
  have hg := hrecoverable.generation
  rw [← hkeyboard.2, ← Option.some.inj hhost'] at hg
  rw [hg, Option.map_some, hrecoverable.accelerator] at haccelerator
  cases haccelerator

end Sommelier
