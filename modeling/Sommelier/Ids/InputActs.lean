import Sommelier.Ids.HandlerActs

/-!
# Input handlers as acts

What the handlers of text inputs and keyboards do, as acts: a callback or an extension is bound
into its slot or dropped out of it, and the guest hears of the focus.
-/
namespace Sommelier.IdContext

variable {p : Promises} {c c' : IdContext} {g h n : ℕ}

/-! ## Text inputs -/

/-- The extension of a text input stays with it. -/
theorem slot_onTextInput {f : TextInputState → TextInputState}
    (hf : ∀ s, (f s).hostExtId = s.hostExtId) (c : IdContext) (i : ℕ) :
    (c.onTextInput i f).slot = c.slot := by
  funext k
  cases k with
  | textInputExtension j =>
    simp only [slot, onTextInput, Table.get_modify]
    split_ifs
    · cases c.textInputs.get j <;> simp [hf]
    · rfl
  | _ => rfl

theorem onTextInput_acts {f : TextInputState → TextInputState}
    (hf : ∀ s, (f s).hostExtId = s.hostExtId) (c : IdContext) (i : ℕ) :
    Acts p c (c.onTextInput i f) := .note ⟨rfl, slot_onTextInput hf c i, rfl⟩

theorem hostExtId_moveActivation (s : TextInputState) (source target : HostActivationState) :
    ((s.moveActivation source target).getD s).hostExtId = s.hostExtId := by
  unfold TextInputState.moveActivation
  split_ifs <;> rfl

/-- A text input is put back with its extension. -/
theorem slot_setTextInput {i : ℕ} {s s' : TextInputState} (hs : c.textInputs.get i = some s)
    (hs' : s'.hostExtId = s.hostExtId) :
    ({ c with textInputs := c.textInputs.set i s' } : IdContext).slot = c.slot := by
  funext k
  cases k with
  | textInputExtension j =>
    simp only [slot, Table.get_set]
    split_ifs with heq
    · simp [heq, hs, hs']
    · rfl
  | _ => rfl

/-- The callback of a deactivated host object is bound into its slot. -/
theorem queueHostDeactivationBarrier_eq_some {i hostV1Id : ℕ} {s : TextInputState}
    (hs : c.textInputs.get i = some s) (hc : c.queueHostDeactivationBarrier i hostV1Id = some c') :
    ∃ callback n, c.toIdState.Fresh callback n ∧
      c.Becomes c' (c.toIdState.bound callback n .wlCallback 1)
        (Function.update c.slot (.activationBarrier callback) (some callback)) := by
  obtain ⟨⟨callback, s₁⟩, halloc, hc⟩ := Option.bind_eq_some_iff.mp hc
  obtain ⟨n, hf, rfl⟩ := IdState.allocateHostId_eq_some halloc
  dsimp only at hc
  split at hc
  · cases hc
  simp only [hs] at hc
  obtain ⟨s', hs', rfl⟩ := Option.map_eq_some_iff.mp hc
  obtain ⟨-, rfl⟩ := TextInputState.moveActivation_eq_some hs'
  refine ⟨callback, n, hf, rfl, ?_, rfl⟩
  let c₁ : IdContext := { c with
    textInputActivationBarriers := c.textInputActivationBarriers.set callback (i, hostV1Id) }
  have hc₁ : c₁.slot = Function.update c.slot (.activationBarrier callback) (some callback) := by
    refine slot_eq_update ?_ ?_
    · simp [slot, c₁]
    · intro k hk
      cases k <;> simp_all [slot, c₁]
  let s' := { s with hostActivation := .draining callback }
  have hextension : s'.hostExtId = s.hostExtId := rfl
  rw [← hc₁, ← slot_setTextInput (c := c₁) hs hextension]
  funext k
  cases k <;> rfl

/-- The reconciliation binds a callback or does nothing to the IDs. -/
theorem updateHostActivation_cases {i : ℕ} (hc : c.updateHostActivation i = some c') :
    c.Becomes c' c.toIdState c.slot ∨ ∃ callback n, c.toIdState.Fresh callback n ∧
      c.Becomes c' (c.toIdState.bound callback n .wlCallback 1)
        (Function.update c.slot (.activationBarrier callback) (some callback)) := by
  have hmove : ∀ source target, c.Becomes (c.onTextInput i fun s =>
      (s.moveActivation source target).getD s) c.toIdState c.slot := fun source target =>
    ⟨rfl, slot_onTextInput (fun s => hostExtId_moveActivation s source target) c i, rfl⟩
  unfold updateHostActivation at hc
  cases hs : c.textInputs.get i with
  | none =>
    simp only [hs] at hc
    exact .inl (Option.some.inj hc ▸ ⟨rfl, rfl, rfl⟩)
  | some s =>
    simp only [hs] at hc
    split_ifs at hc
    · exact .inl (Option.some.inj hc ▸ hmove ..)
    · exact .inl (Option.some.inj hc ▸ ⟨rfl, rfl, rfl⟩)
    · exact .inl (Option.some.inj hc ▸ hmove ..)
    · exact .inl (Option.some.inj hc ▸ hmove ..)
    · exact .inr (queueHostDeactivationBarrier_eq_some hs hc)
    · exact .inl (Option.some.inj hc ▸ ⟨rfl, rfl, rfl⟩)

theorem updateHostActivation_acts {i : ℕ} (hc : c.updateHostActivation i = some c') :
    Acts p c c' := by
  rcases updateHostActivation_cases hc with h | ⟨callback, n, hf, h⟩
  · exact .note h
  · exact .single (.bind (k := .activationBarrier callback) hf h)

theorem completeHostActivationBarrier_acts {callback i hostV1Id : ℕ}
    (hbarrier : c.textInputActivationBarriers.get callback = some (i, hostV1Id))
    (hc : c.completeHostActivationBarrier callback i hostV1Id = some c') : Acts p c c' := by
  unfold completeHostActivationBarrier at hc
  dsimp only at hc
  generalize hdrop : onIds _ _ = c₁ at hc
  have hdropped : Acts p c c₁ := by
    subst hdrop
    refine .single (.drop (k := .activationBarrier callback) ?_ (.inl rfl)
      ⟨rfl, slot_eq_update ?_ ?_, rfl⟩)
    · simp [slot, hbarrier]
    · simp [slot, onIds]
    · intro k hk
      cases k <;> simp_all [slot, onIds]
  refine hdropped.trans ?_
  split at hc
  · exact Option.some.inj hc ▸ .refl
  next s' hs' =>
    obtain ⟨s, hs, hdrained⟩ := Option.bind_eq_some_iff.mp hs'
    split_ifs at hdrained
    obtain ⟨-, rfl⟩ := TextInputState.moveActivation_eq_some hdrained
    refine .trans (.note ?_) (updateHostActivation_acts hc)
    exact ⟨rfl, slot_setTextInput hs rfl, rfl⟩

/-! ## Focus -/

theorem sendFocus_acts (c : IdContext) (i : ℕ) (previous current : Option ℕ) :
    Acts p c (c.sendFocus i previous current) := by
  unfold sendFocus
  split_ifs
  · exact .refl
  · exact .foldl (fun c surface => emit_acts c i [surface]) _ c

theorem applyTextInputFocus_acts (c : IdContext) (update : ℕ × Option ℕ) :
    Acts p c (c.applyTextInputFocus update) := by
  unfold applyTextInputFocus
  split
  · exact .refl
  · exact (sendFocus_acts c ..).trans
      (onTextInput_acts (f := TextInputState.applyFocus update.2) (fun _ => rfl) _ _)

theorem applyTextInputFocusUpdates_acts {updates : List (ℕ × Option ℕ)}
    (hc : c.applyTextInputFocusUpdates updates = some c') : Acts p c c' :=
  (Acts.foldl applyTextInputFocus_acts updates c).trans
    (Acts.foldlM (fun _ _ _ => updateHostActivation_acts) hc)

theorem applyKeyboardFocusChanges_acts {changes : List SeatFocusChange}
    (hc : c.applyKeyboardFocusChanges changes = some c') : Acts p c c' := by
  refine Acts.foldlM (fun c change c' h => ?_) hc
  unfold applyKeyboardFocusChange at h
  split_ifs at h
  · exact Option.some.inj h ▸ .refl
  · exact applyTextInputFocusUpdates_acts h

theorem repairDestroyedSurfaceFocus_acts {surface : ℕ}
    (hc : c.repairDestroyedSurfaceFocus surface = some c') : Acts p c c' :=
  applyTextInputFocusUpdates_acts hc

/-! ## Requests of text inputs -/

/-- The extension of a new text input is put into its slot. -/
theorem slot_newTextInput (c : IdContext) (i : ℕ) (s : TextInputState) :
    ({ c with textInputs := c.textInputs.set i s } : IdContext).slot =
      Function.update c.slot (.textInputExtension i) s.hostExtId := by
  refine slot_eq_update ?_ fun k hk => ?_
  · simp [slot]
  · cases k <;> simp_all [slot]

/-- The text inputs of the guest get a second host object. -/
def ExtendsTextInputs (c : IdContext) : Prop :=
  (c.hostIds.get .textInputManagerV1).isSome = true ∧
    (c.hostIds.get .textInputExtensionV1).isSome = true

theorem onGetTextInput_acts {seat : ℕ} (hg : c.toIdState.Open g)
    (hroom : p.roomy → c.ExtendsTextInputs → c.shadowTable.RoomForTwo)
    (hc : c.onGetTextInput g seat = some c') : Acts p c c' := by
  unfold onGetTextInput at hc
  split at hc
  · exact Option.some.inj hc ▸ .refl
  next manager hmanager =>
    obtain ⟨⟨⟨h, extended⟩, s⟩, hs, rfl⟩ := Option.map_eq_some_iff.mp hc
    obtain ⟨n, guestVersions, hostVersions, hf, heq⟩ :=
      IdState.createTextInput_eq_some hg.unmapped hs
    refine .trans ?_ (sendFocus_acts _ g none _)
    have hslot := slot_newTextInput { c with toIdState := s } g
      (.new h extended seat (c.keyboardFocus.surfaceForSeat seat))
    cases extended with
    | none => exact .single (.createTextInput hg hf ⟨heq, hslot, rfl⟩)
    | some h' =>
      obtain ⟨n', hextends, hf', heq⟩ := heq
      have hroom : p.roomy → c.shadowTable.RoomForTwo := fun hroomy =>
        hroom hroomy ⟨by simp [hmanager], hextends⟩
      exact .single (.createExtendedTextInput hg hf hf' hroom ⟨heq, hslot, rfl⟩)

theorem onSetEnabled_acts (c : IdContext) (i : ℕ) (enabled : Bool) :
    Acts p c (c.onSetEnabled i enabled) := by
  unfold onSetEnabled
  split_ifs
  · exact onTextInput_acts (f := TextInputState.beginEnabledTransaction enabled) (fun _ => rfl) c i
  · exact .refl

theorem onCommitTextInput_acts {i : ℕ} {fits : Bool}
    (hc : c.onCommitTextInput i fits = some c') : Acts p c c' := by
  unfold onCommitTextInput at hc
  split at hc
  · exact Option.some.inj hc ▸ .refl
  next s hs =>
    split_ifs at hc
    · exact Option.some.inj hc ▸ .refl
    · refine .trans (onTextInput_acts (fun s => ?_) c i) (updateHostActivation_acts hc)
      simp only [TextInputState.finishGuestCommit, TextInputState.finishEnabled]
      split_ifs <;> rfl

theorem retireTextInput_acts (hg : c.toIdState.Known g h .zwpTextInputV3) :
    Acts p c (c.retireTextInput g) := by
  have hi : c.shadowTable.getInterface g = some .zwpTextInputV3 := hg.interface
  simp only [retireTextInput, IdState.queueGuestDeleteId, hi, Option.isNone_some,
    Bool.false_eq_true, if_false]
  exact .single (.move (.retireTextInput hg) ⟨rfl, rfl, rfl⟩)

/-- The host object of a text input is retired, its extension is destroyed. -/
theorem onDestroyTextInput_acts (hg : c.toIdState.Known g h .zwpTextInputV3)
    (hc : c.onDestroyTextInput g = some c') : Acts p c c' := by
  obtain ⟨c₁, hupdate, rfl⟩ := Option.map_eq_some_iff.mp hc
  have hbegin : Acts p c (c.onTextInput g TextInputState.beginDestroy) :=
    onTextInput_acts (f := TextInputState.beginDestroy) (fun _ => rfl) c g
  refine (hbegin.trans (updateHostActivation_acts hupdate)).trans ?_
  have hg₁ : c₁.toIdState.Known g h .zwpTextInputV3 := by
    rcases updateHostActivation_cases hupdate with h | ⟨callback, n, -, h⟩
    · rw [h.ids]
      exact ⟨hg.mapped, hg.interface, hg.unmarked⟩
    · rw [h.ids]
      exact ⟨hg.mapped, hg.interface, hg.unmarked⟩
  cases hs : c₁.textInputs.get g with
  | none => exact retireTextInput_acts hg₁
  | some s =>
    dsimp only
    cases hext : s.hostExtId with
    | none =>
      dsimp only
      refine .trans ?_ (retireTextInput_acts hg₁)
      -- The slot of the text input was empty.
      refine .note ⟨rfl, ?_, rfl⟩
      funext k
      cases k with
      | textInputExtension i =>
        simp only [slot, Table.get_erase]
        split_ifs with heq
        · simp [heq, hs, hext]
        · rfl
      | _ => rfl
    | some x =>
      dsimp only
      refine .trans ?_ (retireTextInput_acts (hg₁.destroyInternal x))
      refine .single (.drop (k := .textInputExtension g) (x := x) ?_ (.inl rfl)
        ⟨rfl, slot_eq_update ?_ ?_, rfl⟩)
      · simp [slot, hs, hext]
      · simp [slot, onIds]
      · intro k hk
        cases k <;> simp_all [slot, onIds]

/-! ## Events of text inputs -/

/-- The guest hears of something, or not. -/
theorem emitIf_acts (told : Prop) [Decidable told] (c : IdContext) (g : ℕ) :
    Acts p c (if told then c.onIds (·.emit g []) else c) := by
  split_ifs
  · exact emit_acts c g []
  · exact .refl

theorem onCompose_acts (c : IdContext) (h : ℕ) : Acts p c (c.onCompose h) := by
  unfold onCompose
  split
  · exact .refl
  · exact emitIf_acts ..

theorem onComposeExtended_acts (c : IdContext) (h : ℕ) :
    Acts p c (c.onComposeExtended h) := by
  unfold onComposeExtended
  split
  · exact .refl
  · exact emitIf_acts ..

/-! ## Keyboards -/

theorem ensureExtendedKeyboardBound_acts {keyboard : ℕ}
    (hc : c.ensureExtendedKeyboardBound keyboard = some c') : Acts p c c' := by
  unfold ensureExtendedKeyboardBound at hc
  split at hc
  · exact Option.some.inj hc ▸ .refl
  · split_ifs at hc with hbound
    · exact Option.some.inj hc ▸ .refl
    · obtain ⟨⟨x, c₁⟩, hbind, rfl⟩ := Option.map_eq_some_iff.mp hc
      obtain ⟨n, hf, rfl⟩ := bindInternal_eq_some hbind
      refine .single (.bind (k := .extendedKeyboard keyboard) hf ⟨rfl, slot_eq_update ?_ ?_, rfl⟩)
      · simp [slot]
      · intro k hk
        cases k <;> simp_all [slot]

theorem onKeyboardEnter_acts {keyboard surface : ℕ}
    (hc : c.onKeyboardEnter keyboard surface = some c') : Acts p c c' := by
  unfold onKeyboardEnter at hc
  split at hc
  · exact Option.some.inj hc ▸ .refl
  split_ifs at hc
  · exact Option.some.inj hc ▸ .refl
  split at hc
  · exact Option.some.inj hc ▸ .refl
  dsimp only at hc
  split_ifs at hc
  · exact Option.some.inj hc ▸ .refl
  · obtain ⟨c₁, hbound, hc⟩ := Option.bind_eq_some_iff.mp hc
    obtain ⟨c₂, hfocus, hc⟩ := Option.bind_eq_some_iff.mp hc
    obtain rfl := Option.some.inj hc
    refine .trans ?_ (forwardEvent_acts c₂ keyboard _)
    refine .trans ?_ (applyKeyboardFocusChanges_acts hfocus)
    exact (ensureExtendedKeyboardBound_acts hbound).trans (.note ⟨rfl, rfl, rfl⟩)

theorem onKeyboardLeave_acts {keyboard surface : ℕ}
    (hc : c.onKeyboardLeave keyboard surface = some c') : Acts p c c' := by
  unfold onKeyboardLeave at hc
  dsimp only at hc
  generalize hset : IdContext.mk .. = c₁ at hc
  have hfocus : Acts p c c₁ := hset ▸ .note ⟨rfl, rfl, rfl⟩
  refine hfocus.trans ?_
  split at hc
  · exact Option.some.inj hc ▸ .refl
  · obtain ⟨c₂, hchanges, rfl⟩ := Option.map_eq_some_iff.mp hc
    refine (applyKeyboardFocusChanges_acts hchanges).trans ?_
    split
    · exact forwardEvent_acts _ keyboard _
    · exact .refl

theorem releaseExtendedKeyboard_acts (c : IdContext) (keyboard : ℕ) :
    Acts p c (c.releaseExtendedKeyboard keyboard) := by
  unfold releaseExtendedKeyboard
  cases hx : c.keyboardToExtendedKeyboard.get keyboard with
  | none => exact .refl
  | some x =>
    refine .single (.drop (k := .extendedKeyboard keyboard) hx (.inl rfl)
      ⟨rfl, slot_eq_update ?_ ?_, rfl⟩)
    · simp [slot, onIds]
    · intro k hk
      cases k <;> simp_all [slot, onIds]

theorem onKeyboardRelease_acts {keyboard : ℕ} (hc : c.onKeyboardRelease keyboard = some c') :
    Acts p c c' := by
  unfold onKeyboardRelease at hc
  dsimp only at hc
  split at hc
  · exact Option.some.inj hc ▸ .note ⟨rfl, rfl, rfl⟩
  · refine .trans ?_ (applyKeyboardFocusChanges_acts hc)
    refine .trans ?_ (releaseExtendedKeyboard_acts _ _)
    exact .note ⟨rfl, rfl, rfl⟩

end Sommelier.IdContext
