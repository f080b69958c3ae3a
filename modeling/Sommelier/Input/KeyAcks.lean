import Sommelier.Input.KeyHistory

/-!
# Acknowledged keys

The host acts on a key itself unless the acknowledgement says that it was handled. Every event
of a key gets one acknowledgement with its serial, which says so exactly when it should: a key
the guest gets is handled, and an accelerator is not.

## Main definitions

* `KeyboardContext.treatsAsAccelerator`: the key is an accelerator, or still one.
-/
namespace Sommelier

/-! ## Decisions -/

namespace KeyGenerationRegistry
variable {r : KeyGenerationRegistry} {keyboard key : ℕ}

theorem hostAcceleratorSuppressed_ensureGeneration :
    (r.ensureGeneration keyboard key).hostAcceleratorSuppressed keyboard key =
      r.hostAcceleratorSuppressed keyboard key := by
  unfold hostAcceleratorSuppressed
  rcases r.generation_ensureGeneration keyboard key keyboard key with h | ⟨-, -, hnone, id, h⟩
  · rw [h]
  · rw [h, hnone]
    rfl

/-- A suppressed key may be claimed, and stays suppressed. -/
theorem hostAcceleratorSuppressed_claimGuestOwner (owner : GuestKeyOwner) :
    (r.claimGuestOwner keyboard key owner).2.hostAcceleratorSuppressed keyboard key =
      r.hostAcceleratorSuppressed keyboard key := by
  refine Eq.trans ?_ hostAcceleratorSuppressed_ensureGeneration
  unfold claimGuestOwner
  dsimp only
  split_ifs
  · rfl
  · cases h : (r.ensureGeneration keyboard key).generation keyboard key <;>
      simp [hostAcceleratorSuppressed, h]

/-- A press is handled when it is forwarded, and never as an accelerator. -/
theorem ack_physicalPress (r : KeyGenerationRegistry) (keyboard key : ℕ)
    (repeated hostAccelerator imeRepeatActive : Bool) :
    let decision := (r.physicalPress keyboard key repeated hostAccelerator imeRepeatActive).1
    decision.ackHandled.isSome = true ∧
      (decision.delivery = .forward → decision.ackHandled = some true) ∧
      (hostAccelerator = true ∨ r.hostAcceleratorSuppressed keyboard key = true →
        decision.ackHandled = some false) := by
  have hsuppressed : ∀ claims : Prop, [Decidable claims] → (if claims then
      (r.claimGuestOwner keyboard key .imeRecovery).2 else r).hostAcceleratorSuppressed
        keyboard key = r.hostAcceleratorSuppressed keyboard key := by
    intro claims _
    split_ifs
    · exact hostAcceleratorSuppressed_claimGuestOwner _
    · rfl
  unfold physicalPress
  simp only [hsuppressed]
  by_cases haccelerator :
      (r.hostAcceleratorSuppressed keyboard key || hostAccelerator) = true
  · simp [haccelerator]
  · have hnone : ¬(hostAccelerator = true ∨ r.hostAcceleratorSuppressed keyboard key = true) := by
      simpa [and_comm] using haccelerator
    simp only [haccelerator, hnone, false_implies, and_true]
    split_ifs <;> simp_all

/-- The guest has a press of a key that is not suppressed any more only if it had it before. -/
theorem forwarded_takeHostAcceleratorSuppression
    (h : (r.takeHostAcceleratorSuppression keyboard key).2.forwarded keyboard key = true) :
    r.forwarded keyboard key = true := by
  obtain ⟨g, hg, hforwarded⟩ := (Option.any_eq_true ..).mp h
  have hupdate := generation_of_pruneKey hg
  rw [generation_update, if_pos ⟨rfl, rfl⟩] at hupdate
  obtain ⟨g₀, hg₀, rfl⟩ := Option.map_eq_some_iff.mp hupdate
  exact (Option.any_eq_true ..).mpr ⟨g₀, hg₀, hforwarded⟩

/-- A release is handled when it is forwarded, and never as that of an accelerator. -/
theorem ack_physicalRelease (r : KeyGenerationRegistry) (keyboard key : ℕ)
    (hr : r.hostAcceleratorSuppressed keyboard key = true → r.forwarded keyboard key = false) :
    let decision := (r.physicalRelease keyboard key).1
    decision.ackHandled.isSome = true ∧
      (decision.delivery = .forward → decision.ackHandled = some true) ∧
      (r.hostAcceleratorSuppressed keyboard key = true → decision.ackHandled = some false) := by
  unfold physicalRelease
  refine ⟨rfl, fun hdelivery => ?_, fun hsuppressed => ?_⟩
  · dsimp only at hdelivery ⊢
    split_ifs at hdelivery with hforwarded
    simp only [Bool.and_eq_true] at hforwarded
    rw [hforwarded.1.1]
  · have hforwarded : (r.takeHostAcceleratorSuppression keyboard key).2.forwarded
        keyboard key = false := by
      by_contra h
      have := forwarded_takeHostAcceleratorSuppression (Bool.not_eq_false _ ▸ h)
      simp [hr hsuppressed] at this
    simp [hforwarded]

end KeyGenerationRegistry

/-! ## Acknowledgements -/

namespace KeyboardContext
variable {x : Xkb} {c : KeyboardContext x} {hostKeyboard hostExtended serial key state : ℕ}

/-- An event of a key has one acknowledgement, which says whether it was handled. -/
def Acknowledges (c : KeyboardContext x) (hostExtended serial : ℕ) (handled : Bool)
    (result : Action × KeyboardContext x) : Prop :=
  result.2.input.clientToHostQueue =
    c.input.clientToHostQueue ++ [ackKeyMessage hostExtended serial handled]

/-- The key is found to be an accelerator, or it was one when it went down. The release of a
replaced generation is not about the key as it is now. -/
def treatsAsAccelerator (c : KeyboardContext x) (hostKeyboard serial key state : ℕ) : Bool :=
  let observed := c.observeKey hostKeyboard serial key state
  let suppressed := observed.keyGenerations.hostAcceleratorSuppressed hostKeyboard key
  if state = 0 then
    !(c.keyGenerations.takePendingPhysicalRelease hostKeyboard key serial).1 && suppressed
  else c.isHostAccelerator hostKeyboard key || suppressed

theorem acknowledges_sendAckKey
    (hext : c.keyboardToExtendedKeyboard.get hostKeyboard = some hostExtended)
    (keys : KeyGenerationRegistry) (action : Action) (handled : Bool) :
    c.Acknowledges hostExtended serial handled
      (action, { c with keyGenerations := keys }.sendAckKey hostKeyboard serial handled) := by
  simp [Acknowledges, sendAckKey, hext, InputContext.toHost]

/-- A decision is carried out with its acknowledgement. -/
theorem acknowledges_finishKey
    (hext : c.keyboardToExtendedKeyboard.get hostKeyboard = some hostExtended)
    (keys : KeyGenerationRegistry) {decision : GuestKeyDecision} {handled : Bool}
    (hack : decision.ackHandled = some handled) :
    c.Acknowledges hostExtended serial handled
      ({ c with keyGenerations := keys }.finishKey hostKeyboard serial decision) := by
  rw [finishKey, hack]
  exact acknowledges_sendAckKey hext ..

/-- An event that is acknowledged with what a decision says, which fits what is done with it. -/
theorem acknowledged_finishKey {accelerator : Prop}
    (hext : c.keyboardToExtendedKeyboard.get hostKeyboard = some hostExtended)
    (keys : KeyGenerationRegistry) {decision : GuestKeyDecision}
    (hack : decision.ackHandled.isSome = true)
    (hforward : decision.delivery = .forward → decision.ackHandled = some true)
    (haccelerator : accelerator → decision.ackHandled = some false) :
    let result := { c with keyGenerations := keys }.finishKey hostKeyboard serial decision
    ∃ handled, c.Acknowledges hostExtended serial handled result ∧
      (result.1 = .forward → handled = true) ∧ (accelerator → handled = false) := by
  obtain ⟨handled, hhandled⟩ := Option.isSome_iff_exists.mp hack
  refine ⟨handled, acknowledges_finishKey hext keys hhandled, fun hresult => ?_, fun h => ?_⟩
  · have hdelivery : decision.delivery = .forward := by
      by_contra hdrop
      simp [finishKey, hdrop] at hresult
    exact Option.some.inj (hhandled.symm.trans (hforward hdelivery))
  · exact Option.some.inj (hhandled.symm.trans (haccelerator h))

theorem acknowledged_pressKey (serial key : ℕ) (repeated imeRepeatActive : Bool)
    (hext : c.keyboardToExtendedKeyboard.get hostKeyboard = some hostExtended) :
    let result := c.pressKey hostKeyboard serial key repeated imeRepeatActive
    ∃ handled, c.Acknowledges hostExtended serial handled result ∧
      (result.1 = .forward → handled = true) ∧
      (c.isHostAccelerator hostKeyboard key = true ∨
        c.keyGenerations.hostAcceleratorSuppressed hostKeyboard key = true →
          handled = false) := by
  have hgeneration := generation_endBackspaceRepeat c hostKeyboard key
  have haccelerator := isHostAccelerator_endBackspaceRepeat c hostKeyboard key
  obtain ⟨keys, hkeys⟩ := endBackspaceRepeat_eq c hostKeyboard key
  unfold pressKey
  rw [hkeys] at hgeneration haccelerator ⊢
  simp only [haccelerator]
  cases hfound : c.isHostAccelerator hostKeyboard key with
  | true =>
    obtain ⟨hack, hforward, hdecided⟩ := (keys.invalidatePeek hostKeyboard key).ack_physicalPress
      hostKeyboard key repeated true imeRepeatActive
    exact acknowledged_finishKey hext _ hack hforward fun _ => hdecided (.inl rfl)
  | false =>
    obtain ⟨hack, hforward, hdecided⟩ := keys.ack_physicalPress hostKeyboard key repeated false
      imeRepeatActive
    refine acknowledged_finishKey hext _ hack hforward fun h => hdecided ?_
    simpa [KeyGenerationRegistry.hostAcceleratorSuppressed, hgeneration] using h

theorem acknowledged_releaseKey (serial key : ℕ) (hc : c.Sound False)
    (hext : c.keyboardToExtendedKeyboard.get hostKeyboard = some hostExtended) :
    let result := c.releaseKey hostKeyboard serial key
    ∃ handled, c.Acknowledges hostExtended serial handled result ∧
      (result.1 = .forward → handled = true) ∧
      (c.keyGenerations.hostAcceleratorSuppressed hostKeyboard key = true → handled = false) := by
  obtain ⟨hack, hforward, hdecided⟩ := c.keyGenerations.ack_physicalRelease hostKeyboard key
    fun hsuppressed => by
      obtain ⟨g, hg, hsuppressed⟩ := (Option.any_eq_true ..).mp hsuppressed
      have hforwarded := (hc hostKeyboard key g hg).suppressed hsuppressed
      simp [KeyGenerationRegistry.forwarded, hg, hforwarded]
  obtain ⟨keys, hkeys⟩ := endBackspaceSession_eq { c with
    keyGenerations := (c.keyGenerations.physicalRelease hostKeyboard key).2 } hostKeyboard key
  have hends : (c.keyGenerations.physicalRelease hostKeyboard key).1.endsRepeat = true := rfl
  unfold releaseKey
  simp only [KeyGenerationRegistry.transitionGuestKey, hends, if_true, hkeys]
  exact acknowledged_finishKey hext keys hack hforward hdecided

/-- Every event of a key has one acknowledgement. It says that the key was handled when the guest
gets the event, and that it was not when the key is an accelerator. -/
theorem key_acknowledged {o : ByteOrder} (hc : (keyboardSystem o x).Reachable c)
    (serial key : ℕ)
    (hext : c.keyboardToExtendedKeyboard.get hostKeyboard = some hostExtended)
    (hstate : state ≤ 2) :
    let result := c.onKey hostKeyboard serial key state
    ∃ handled, c.Acknowledges hostExtended serial handled result ∧
      (result.1 = .forward → handled = true) ∧
      (c.treatsAsAccelerator hostKeyboard serial key state = true → handled = false) := by
  have hsound : c.Sound False := sound_of_reachable (fun h => h.elim) hc
  have hobserved : (c.observeKey hostKeyboard serial key state).Sound False :=
    fun _ _ _ hg => (moves_observeKey False c ..).sound hsound hg
  have haccelerator := isHostAccelerator_observeKey c hostKeyboard serial key state
  obtain ⟨keys, hkeys⟩ := observeKey_eq c hostKeyboard serial key state
  have hext' : (c.observeKey hostKeyboard serial key state).keyboardToExtendedKeyboard.get
      hostKeyboard = some hostExtended := by rwa [hkeys]
  rcases c.onKey_cases hostKeyboard serial key state with ⟨rfl, htaken, heq⟩ | ⟨hstale, heq⟩ |
    ⟨hpress, -, imeRepeatActive, heq⟩ | ⟨rfl, heq⟩ | ⟨hunknown, -⟩ <;> dsimp only
  · rw [heq]
    refine ⟨true, acknowledges_sendAckKey hext .., fun _ => rfl, fun h => ?_⟩
    simp [treatsAsAccelerator, htaken] at h
  · rw [heq]
    exact ⟨false, acknowledges_sendAckKey hext c.keyGenerations .., nofun, fun _ => rfl⟩
  · have hne : state ≠ 0 := by omega
    obtain ⟨handled, hack, hforward, hdecided⟩ := acknowledged_pressKey serial key (state == 2)
      imeRepeatActive hext'
    rw [← heq] at hack hforward
    refine ⟨handled, ?_, hforward, fun h => hdecided ?_⟩
    · rwa [hkeys] at hack
    · simpa [treatsAsAccelerator, hne, haccelerator] using h
  · obtain ⟨handled, hack, hforward, hdecided⟩ := acknowledged_releaseKey serial key hobserved
      hext'
    rw [← heq] at hack hforward
    refine ⟨handled, ?_, hforward, fun h => hdecided ?_⟩
    · rwa [hkeys] at hack
    · simp only [treatsAsAccelerator, if_true, Bool.and_eq_true] at h
      exact h.2
  · omega

end KeyboardContext

/-- A keyboard library that knows one key, which repeats. -/
def oneKey : Xkb where
  Keymap := Unit
  State := ℕ
  newFromString _ := some ()
  newFromNames := none
  minKeycode _ := 38
  maxKeycode _ := 38
  numLayoutsForKey _ _ := 1
  numLevelsForKey _ _ _ := 1
  keyGetSymsByLevel _ _ _ _ := [0x61]
  keyRepeats _ _ := true
  newState _ := 0
  updateMask _ depressed latched _ _ := depressed ||| latched
  modNameIsActive state modifier := state &&& modifier.mask != 0
  keyGetOneSym _ _ := 0x61
  keysymToLower sym := sym

/-- The messages until a keyboard has the focus, its extension object and a keymap. -/
def keyboardReady : List KeyboardMessage :=
  [.text (.other ((((InputContext.new.shadowTable.mapId 3 30).mapId 4 40).mapId 5 50).trackInterface
      3 .wlSeat) ((∅ : Table ℕ ℕ).set 5 3) (some 20) (some 21)),
    .extension (some 60), .enter 50 40 [], .keymap 50 1 2 (some [97, 0])]

/-- Control and the one key are an accelerator. -/
theorem key_acknowledged_accelerator :
    ∃ c, (keyboardSystem .little oneKey).run (.new oneKey [⟨1, 0x61⟩])
        (keyboardReady ++ [.modifiers 50 1 0 0 0]) = some c ∧
      c.Acknowledges 2 7 false (c.onKey 50 7 30 1) := by
  have hrun : ((keyboardSystem .little oneKey).run (.new oneKey [⟨1, 0x61⟩])
      (keyboardReady ++ [.modifiers 50 1 0 0 0])).map
        (fun c => (c.keyboardToExtendedKeyboard.get 50, c.treatsAsAccelerator 50 7 30 1)) =
      some (some 2, true) := by decide +kernel
  obtain ⟨c, hc, heq⟩ := Option.map_eq_some_iff.mp hrun
  obtain ⟨hext, haccelerator⟩ := Prod.mk.inj heq
  obtain ⟨handled, hack, -, hfalse⟩ := KeyboardContext.key_acknowledged
    (TransitionSystem.Reachable.run (.init ⟨_, rfl⟩) hc) 7 30 hext (show 1 ≤ 2 by decide)
  obtain rfl := hfalse haccelerator
  exact ⟨c, hc, hack⟩

end Sommelier
