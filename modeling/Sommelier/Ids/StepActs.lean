import Sommelier.Ids.BufferActs

/-!
# Messages as acts

Every message is a sequence of acts of its handler, so that what survives every act holds in
every state of every run.

## Main results

* `IdContext.onRequest_acts`, `IdContext.eventStep_acts`: one lemma for each side.
* `ids_invariant`: the rule for invariants of the ID state and the slots.
-/
namespace Sommelier

namespace IdContext

variable {p : Promises} {c c' : IdContext} {g h n : ℕ}

/-! ## Checked senders -/

theorem senderAllowed_iff {i : Interface} : c.senderAllowed g i = true ↔
    c.shadowTable.interfaces.get g = some i ∧ g ∉ c.shadowTable.pendingDestroyGuestIds ∧
      ((c.shadowTable.guestToHost.get g).isSome = true ∨ i.isLocalOnly = true) := by
  simp only [senderAllowed, ShadowTable.guestObjectMatches, ShadowTable.isPendingDestroyGuest,
    ShadowTable.getHostId, ShadowTable.isLocalOnlyGuestObject, Bool.and_eq_true, Bool.or_eq_true,
    beq_iff_eq, Bool.not_eq_true', decide_eq_false_iff_not, and_assoc]
  refine and_congr_right fun hi => ?_
  rw [hi, Option.any_some]

theorem requestAllowed_iff {i : Interface} {since : ℕ} : c.requestAllowed g i since = true ↔
    c.senderAllowed g i = true ∧
      (since = 0 ∨ (c.shadowTable.guestObjectVersion g).any (decide <| since ≤ ·) = true) := by
  simp [requestAllowed]

/-- A sender of a kind both peers know is mapped. -/
theorem known_of_senderAllowed {i : Interface} (hi : i.isLocalOnly = false)
    (hs : c.senderAllowed g i = true) : ∃ h, c.toIdState.Known g h i := by
  obtain ⟨hint, hmark, hmapped⟩ := senderAllowed_iff.mp hs
  rw [hi, or_iff_left (by simp), Option.isSome_iff_exists] at hmapped
  obtain ⟨h, hh⟩ := hmapped
  exact ⟨h, hh, hint, hmark⟩

theorem known_of_requestAllowed {i : Interface} {since : ℕ} (hi : i.isLocalOnly = false)
    (hs : c.requestAllowed g i since = true) : ∃ h, c.toIdState.Known g h i :=
  known_of_senderAllowed hi (requestAllowed_iff.mp hs).1

theorem isSome_of_requestAllowed {i : Interface} {since : ℕ} (hi : i.isLocalOnly = false)
    (hs : c.requestAllowed g i since = true) : (c.shadowTable.getHostId g).isSome = true := by
  obtain ⟨h, hg⟩ := known_of_requestAllowed hi hs
  exact Option.isSome_iff_exists.mpr ⟨h, hg.mapped⟩

/-! ## Forwarded requests -/

theorem forwardDestructor_acts (c : IdContext) (g : ℕ) : Acts p c (c.forwardDestructor g) := by
  unfold forwardDestructor
  split
  · exact .refl
  next h hg => exact .onIds (.forwardDestructor (.inl hg))

/-- A valid argument of a kind both peers know can be translated. -/
theorem isMapped_of_isValid {a : ObjectArg} (hlocal : a.interface.any Interface.isLocalOnly = false)
    (hvalid : a.isValid c = true) : a.isMapped c = true := by
  unfold ObjectArg.isValid at hvalid
  unfold ObjectArg.isMapped
  cases hnull : a.isNull with
  | true => rfl
  | false =>
    rw [hnull, Bool.false_or] at hvalid
    rw [Bool.false_or]
    cases hi : a.interface with
    | none =>
      rw [hi] at hvalid
      exact (Bool.and_eq_true_iff.mp hvalid).2
    | some i =>
      rw [hi, Option.any_some] at hlocal
      rw [hi] at hvalid
      obtain ⟨h, hg⟩ := known_of_senderAllowed hlocal hvalid
      exact Option.isSome_iff_exists.mpr ⟨h, hg.mapped⟩

/-- A forwarded request whose checks pass is sent with its new object. -/
theorem onPlainRequest_acts {r : PlainRequest} (hnew : ∀ id ∈ r.newId, c.toIdState.Open id.1)
    (hqueue : c.queuedNewIds = []) (hc : c.onPlainRequest r = some c') : Acts p c c' := by
  obtain ⟨hallowed, hc⟩ := guarded_eq_some.mp hc
  simp only [PlainRequest.isPlain, Bool.and_eq_true, Bool.not_eq_true', List.all_eq_true]
    at hallowed
  obtain ⟨⟨⟨⟨hlocal, hargs⟩, -⟩, hsender⟩, hvalid⟩ := hallowed
  cases hr : r.newId with
  | none =>
    rw [hr] at hc
    exact Option.some.inj hc ▸ .refl
  | some new =>
    rw [hr] at hc
    dsimp only at hc
    split_ifs at hc
    · have hafter : r.after.all (·.isMapped c) = true := by
        refine List.all_eq_true.mpr fun a ha => ?_
        have hmem := List.mem_append_right r.before ha
        exact isMapped_of_isValid (by simpa using hargs a hmem) (hvalid a hmem)
      rw [hafter] at hc
      exact forwardNewId_acts (hnew new hr) hqueue (isSome_of_requestAllowed hlocal hsender) hc
    · exact Option.some.inj hc ▸ .refl

/-! ## Objects that only the proxy knows -/

/-- The guest is told that such an object is gone, unless the host knows it. -/
theorem queueLocalDeleteId_acts (hi : ∀ i, c.shadowTable.interfaces.get g = some i →
    i.isLocalOnly = true) : Acts p c (c.onIds (·.queueLocalDeleteId g)) := by
  cases hg : c.shadowTable.interfaces.get g with
  | none =>
    have hsame : c.toIdState.queueLocalDeleteId g = c.toIdState := by
      simp [IdState.queueLocalDeleteId, ShadowTable.getInterface, hg]
    rw [onIds, hsame]
    exact .refl
  | some i =>
    refine .onIds (.deleteLocal g ?_)
    rw [ShadowTable.isLocalOnlyGuestObject, hg]
    exact hi i hg

theorem forwardDestructor_interfaces {i : Interface}
    (hi : (c.forwardDestructor g).shadowTable.interfaces.get g = some i) :
    c.shadowTable.interfaces.get g = some i := by
  unfold forwardDestructor at hi
  split at hi
  · exact hi
  next h hg =>
    simp only [onIds_toIdState, IdState.forwardDestructor, IdState.onTable, IdState.logHost] at hi
    split_ifs at hi
    · simp [ShadowTable.removeId_mapped hg] at hi
    · simpa [ShadowTable.markPendingDestroy_mapped hg] using hi

theorem onDestroyLocal_acts {i : Interface} (hlocal : i.isLocalOnly = true)
    (hg : c.shadowTable.interfaces.get g = some i) : Acts p c (c.onDestroyLocal g i) := by
  unfold onDestroyLocal
  dsimp only
  generalize hset : IdContext.mk .. = c₁
  have hc₁ : Acts p c c₁ := hset ▸ .note ⟨rfl, rfl, rfl⟩
  have hg₁ : c₁.shadowTable.interfaces.get g = some i := hset ▸ hg
  have hthen : ∀ c₂ : IdContext, Acts p c₁ c₂ →
      (∀ i', c₂.shadowTable.interfaces.get g = some i' →
        c₁.shadowTable.interfaces.get g = some i') →
      Acts p c (c₂.onIds (·.queueLocalDeleteId g)) := by
    intro c₂ hacts hint
    refine (hc₁.trans hacts).trans (queueLocalDeleteId_acts fun i' hi' => ?_)
    rw [hint i' hi', Option.some.injEq] at hg₁
    exact hg₁ ▸ hlocal
  split_ifs
  · exact hthen _ (forwardDestructor_acts c₁ g) fun _ => forwardDestructor_interfaces
  · exact hthen _ .refl fun _ => id

theorem isLocalOnly_of_localDestructorSince {i : Interface}
    (hi : i.localDestructorSince.isSome = true) : i.isLocalOnly = true := by
  cases i <;> simp [Interface.localDestructorSince, Interface.isLocalOnly] at hi ⊢

theorem onGetFeedback_acts {factory : ℕ} (hg : c.toIdState.Open g)
    (hc : c.onGetFeedback factory g = some c') : Acts p c c' := by
  obtain ⟨generation, -, rfl⟩ := Option.map_eq_some_iff.mp hc
  refine .trans ?_ (emitIf_acts _ _ g)
  exact (trackLocal_acts hg .zwpLinuxDmabufFeedbackV1 4).trans (.note ⟨rfl, rfl, rfl⟩)

/-- The Aura object of a surface concerns no object of the guest. -/
theorem ensureHostZauraSurface_open {surface : ℕ} (hg : c.toIdState.Open g)
    (hc : c.ensureHostZauraSurface surface = some c') : c'.toIdState.Open g := by
  unfold ensureHostZauraSurface at hc
  split at hc
  · split_ifs at hc
    · exact Option.some.inj hc ▸ hg
    · obtain ⟨⟨x, c₁⟩, hbind, rfl⟩ := Option.map_eq_some_iff.mp hc
      obtain ⟨n, hf, rfl⟩ := bindInternal_eq_some hbind
      exact ⟨hg.unmapped, hg.one_lt, hg.lt_start, hg.outstanding⟩
  · exact Option.some.inj hc ▸ hg

theorem onGetGtkSurface_acts {shell surface : ℕ} (hg : c.toIdState.Open g)
    (hc : c.onGetGtkSurface shell g surface = some c') : Acts p c c' := by
  unfold onGetGtkSurface at hc
  split_ifs at hc
  · obtain ⟨c₁, hensure, rfl⟩ := Option.map_eq_some_iff.mp hc
    exact (ensureHostZauraSurface_acts hensure).trans
      (trackLocal_acts (ensureHostZauraSurface_open hg hensure) .gtkSurface1 1)
  · exact Option.some.inj hc ▸ .refl

theorem onGetKeyboard_acts {seat : ℕ} (hg : c.toIdState.Open g) (hqueue : c.queuedNewIds = [])
    (hseat : (c.shadowTable.getHostId seat).isSome = true)
    (hc : c.onGetKeyboard seat g = some c') : Acts p c c' := by
  unfold onGetKeyboard at hc
  have htrack : c.toIdState.Move p.lawful (c.toIdState.onTable (·.trackInterface g .wlKeyboard)) :=
    .track g hg .wlKeyboard (c.shadowTable.trackInterface g .wlKeyboard).guestVersions
  refine .trans ?_ (forwardNewId_acts ?_ (by exact hqueue) (by exact hseat) hc)
  · exact .single (.move htrack ⟨rfl, rfl, rfl⟩)
  · exact ⟨hg.unmapped, hg.one_lt, hg.lt_start, hg.outstanding⟩

/-! ## Requests -/

/-- There is room for both host objects of a new text input. -/
def Roomy (c : IdContext) : IdMessage → Prop
  | .request (.getTextInput ..) => c.ExtendsTextInputs → c.shadowTable.RoomForTwo
  | _ => True

theorem onRequest_acts {r : IdRequest} (hnew : ∀ id ∈ r.newId, c.toIdState.Open id)
    (hroom : p.roomy → c.Roomy (.request r)) (hqueue : c.queuedNewIds = [])
    (hc : c.onRequest r = some c') : Acts p c c' := by
  cases r with
  | getRegistry registry =>
    exact pairQueued_acts (hnew registry rfl) (registers_untracked registry .wlRegistry) hc
  | sync callback =>
    exact pairQueued_acts (hnew callback rfl) (registers_untracked callback .wlCallback) hc
  | bind registry newId i version generation =>
    obtain ⟨hallowed, hc⟩ := guarded_eq_some.mp hc
    rw [Bool.and_eq_true] at hallowed
    exact onBind_acts (hnew newId rfl) (isSome_of_requestAllowed rfl hallowed.1) hc
  | destroyRegistry fixes registry =>
    obtain ⟨-, hc⟩ := guarded_eq_some.mp hc
    exact Option.some.inj hc ▸ onDestroyRegistry_acts c registry
  | getTextInput manager id seat =>
    obtain ⟨-, hc⟩ := guarded_eq_some.mp hc
    exact onGetTextInput_acts (hnew id rfl) hroom hc
  | setEnabled textInput enabled =>
    obtain ⟨-, hc⟩ := guarded_eq_some.mp hc
    exact Option.some.inj hc ▸ onSetEnabled_acts c textInput enabled
  | commitTextInput textInput fits =>
    obtain ⟨-, hc⟩ := guarded_eq_some.mp hc
    exact onCommitTextInput_acts hc
  | destroyTextInput textInput =>
    obtain ⟨hallowed, hc⟩ := guarded_eq_some.mp hc
    obtain ⟨h, hg⟩ := known_of_requestAllowed rfl hallowed
    exact onDestroyTextInput_acts hg hc
  | createPool shm pool stale =>
    obtain ⟨-, hc⟩ := guarded_eq_some.mp hc
    rw [← Option.some.inj hc]
    split_ifs
    · exact .refl
    · exact trackLocal_acts (hnew pool rfl) .wlShmPool 1
  | createBuffer pool buffer backing =>
    obtain ⟨-, hc⟩ := guarded_eq_some.mp hc
    cases backing with
    | none => exact Option.some.inj hc ▸ .refl
    | some backing => exact onCreateBuffer_acts (hnew buffer rfl) hc
  | destroyBuffer buffer inUse =>
    obtain ⟨hallowed, hc⟩ := guarded_eq_some.mp hc
    obtain ⟨h, hg⟩ := known_of_requestAllowed rfl hallowed
    exact Option.some.inj hc ▸ bufferOnDestroy_acts hg inUse
  | createParams factory params =>
    obtain ⟨hallowed, hc⟩ := guarded_eq_some.mp hc
    refine .trans ?_ (forwardNewId_acts (by exact hnew params rfl) (by exact hqueue)
      (by exact isSome_of_requestAllowed rfl hallowed) hc)
    exact .note ⟨rfl, rfl, rfl⟩
  | create params =>
    obtain ⟨-, hc⟩ := guarded_eq_some.mp hc
    exact onCreate_acts hc
  | createImmed params buffer =>
    obtain ⟨-, hc⟩ := guarded_eq_some.mp hc
    exact onCreateImmed_acts (hnew buffer rfl) hc
  | destroyParams params =>
    obtain ⟨hallowed, hc⟩ := guarded_eq_some.mp hc
    obtain ⟨h, hg⟩ := known_of_requestAllowed rfl hallowed
    exact Option.some.inj hc ▸ destroyParams_acts hg
  | getFeedback factory feedback =>
    obtain ⟨-, hc⟩ := guarded_eq_some.mp hc
    exact onGetFeedback_acts (hnew feedback rfl) hc
  | destroyLocal object i =>
    obtain ⟨hallowed, hc⟩ := guarded_eq_some.mp hc
    obtain ⟨since, hsince, hallowed⟩ := (Option.any_eq_true ..).mp hallowed
    have hlocal := isLocalOnly_of_localDestructorSince (Option.isSome_iff_exists.mpr ⟨_, hsince⟩)
    have hg := (senderAllowed_iff.mp (requestAllowed_iff.mp hallowed).1).1
    exact Option.some.inj hc ▸ onDestroyLocal_acts hlocal hg
  | updateSurface surface eligible =>
    obtain ⟨-, hc⟩ := guarded_eq_some.mp hc
    exact Option.some.inj hc ▸ retireEligibleBuffers_acts c eligible
  | destroySurface surface eligible =>
    obtain ⟨-, hc⟩ := guarded_eq_some.mp hc
    exact surfaceOnDestroy_acts hc
  | getKeyboard seat keyboard =>
    obtain ⟨hallowed, hc⟩ := guarded_eq_some.mp hc
    exact onGetKeyboard_acts (hnew keyboard rfl) hqueue (isSome_of_requestAllowed rfl hallowed) hc
  | releaseKeyboard keyboard =>
    obtain ⟨-, hc⟩ := guarded_eq_some.mp hc
    obtain ⟨c₁, hrelease, rfl⟩ := Option.map_eq_some_iff.mp hc
    exact (onKeyboardRelease_acts hrelease).trans (forwardDestructor_acts c₁ keyboard)
  | getGtkSurface shell gtkSurface surface =>
    obtain ⟨-, hc⟩ := guarded_eq_some.mp hc
    exact onGetGtkSurface_acts (hnew gtkSurface rfl) hc
  | setAppId toplevel surface =>
    obtain ⟨-, hc⟩ := guarded_eq_some.mp hc
    exact ensureHostZauraSurface_acts hc
  | plain r =>
    refine onPlainRequest_acts (fun id hid => hnew id.1 ?_) hqueue hc
    exact Option.map_eq_some_iff.mpr ⟨id, hid, rfl⟩
  | plainDestructor object i since =>
    obtain ⟨-, hc⟩ := guarded_eq_some.mp hc
    refine Option.some.inj hc ▸ .trans ?_ (forwardDestructor_acts _ object)
    exact .note ⟨rfl, rfl, rfl⟩

/-- A request with the ID it names and the queue it leaves. -/
theorem requestStep_acts {r : IdRequest} (hroom : p.roomy → c.Roomy (.request r))
    (hqueue : c.queuedNewIds = [])
    (hc : c.requestStep r = some c') : Acts p c c' := by
  obtain ⟨hfree, hc⟩ := guarded_eq_some.mp hc
  obtain ⟨c₁, hrequest, hc⟩ := Option.bind_eq_some_iff.mp hc
  rw [← Option.some.inj hc]
  have hflush : ∀ c₂ : IdContext, Acts p c₂ (c₂.onIds (·.flush)) := fun _ => .onIds .flush
  have hdestroys : Acts p c₁ (c₁.onIds fun s =>
      r.destroys.elim s fun id => s.logGuest (.destroy id)) := by
    cases r.destroys with
    | none => exact .refl
    | some g => exact .onIds (.guestDestroy g)
  refine .trans ?_ (hdestroys.trans (hflush _))
  cases hr : r.newId with
  | none =>
    rw [hr] at hrequest
    exact onRequest_acts (by simp [hr]) hroom hqueue hrequest
  | some g =>
    rw [hr, Option.all_some] at hfree
    rw [hr] at hrequest
    refine .trans (.onIds (.guestCreate g hfree))
      (onRequest_acts ?_ (by exact hroom) (by exact hqueue) hrequest)
    rw [hr]
    rintro id ⟨⟩
    simp only [ShadowTable.isGuestIdAvailable, Bool.and_eq_true, decide_eq_true_eq,
      Option.isNone_iff_eq_none] at hfree
    exact ⟨hfree.1.2, hfree.1.1.1, hfree.1.1.2, .inl rfl⟩

/-! ## Events -/

/-- An event is not delivered, or it is handled; its object is known then, and not being
destroyed. -/
theorem deliver_cases {sender : ℕ} {i : Interface} {isRelease isAnswer : Bool}
    {handled : Option IdContext}
    (hc : c.deliver sender i isRelease isAnswer handled = some c') :
    c' = c ∨ (handled = some c' ∧ c.eventInterface sender = some i ∧
      c.pendingHostEventIsStale sender isRelease isAnswer = false) := by
  unfold deliver at hc
  split at hc
  · exact .inl (Option.some.inj hc).symm
  next name hname =>
    split_ifs at hc with hne hstale
    · exact .inl (Option.some.inj hc).symm
    · rw [not_ne_iff] at hne
      exact .inr ⟨hc, hne ▸ hname, Bool.eq_false_iff.mpr hstale⟩

theorem deliver_acts {sender : ℕ} {i : Interface} {isRelease isAnswer : Bool}
    {handled : Option IdContext} (hhandled : handled = some c' → Acts p c c')
    (hc : c.deliver sender i isRelease isAnswer handled = some c') : Acts p c c' := by
  rcases deliver_cases hc with rfl | ⟨hc, -⟩
  · exact .refl
  · exact hhandled hc

/-- An event of an object whose destructor is under way is stale, if it is not one of those that
are waited for. -/
theorem isPendingDestroyHost_of_not_stale {sender : ℕ}
    (hstale : c.pendingHostEventIsStale sender false false = false) :
    c.shadowTable.isPendingDestroyHost sender = false := by
  simpa [pendingHostEventIsStale] using hstale

theorem onDataOffer_acts {device offer : ℕ}
    (hoffer : c.shadowTable.isHostIdAvailable offer = true)
    (hlawful : p.lawful → ¬ Outstanding c.hostTraffic offer)
    (hc : c.onDataOffer device offer = some c') : Acts p c c' := by
  obtain ⟨⟨g, s⟩, hpair, rfl⟩ := Option.map_eq_some_iff.mp hc
  obtain ⟨hg, next, rfl⟩ :=
    IdState.pairAnnounced_eq_some (isHostIdAvailable_iff.mp hoffer).2.1 hpair
  refine .trans ?_ (forwardEvent_acts _ device [g])
  exact .single (.move (.pairAnnounced hg hoffer hlawful (.inr rfl)) ⟨rfl, rfl, rfl⟩)

theorem sendShmFormat_acts (c : IdContext) : Acts p c c.sendShmFormat :=
  .foldl (fun c g => emit_acts c g []) _ c

theorem onDmabufFormat_acts (c : IdContext) (factory : ℕ) (shmChanged changed : Bool) :
    Acts p c (c.onDmabufFormat factory shmChanged changed) := by
  unfold onDmabufFormat
  have hshm : Acts p c (if shmChanged then c.sendShmFormat else c) := by
    split_ifs
    · exact sendShmFormat_acts c
    · exact .refl
  split
  · refine hshm.trans ?_
    dsimp only
    generalize (if shmChanged then c.sendShmFormat else c) = c₁
    split
    · exact .refl
    · split_ifs
      · exact sendFeedback_acts c₁ _
      · exact .refl
  · split_ifs
    · exact .refl
    · exact forwardEvent_acts c factory []

/-- What a lawful host promises: it acknowledges objects that the proxy created, each of them once,
and the objects it announces have IDs of its own. -/
def HostLawful (c : IdContext) : IdMessage → Prop
  | .event (.deleteId h) => Outstanding c.hostTraffic h
  | .event (.created _ buffer) => ¬ Outstanding c.hostTraffic buffer
  | .event (.dataOffer _ offer) => ¬ Outstanding c.hostTraffic offer
  | _ => True

/-- The message keeps what is promised about the run. -/
def Keeps (p : Promises) (c : IdContext) (m : IdMessage) : Prop :=
  (p.lawful → c.HostLawful m) ∧ (p.roomy → c.Roomy m)

theorem eventStep_acts {e : IdEvent} (hlawful : p.lawful → c.HostLawful (.event e))
    (hc : c.eventStep e = some c') : Acts p c c' := by
  cases e with
  | global registry name i version ad => exact deliver_acts onGlobal_acts hc
  | globalRemove registry name generation last visible =>
    exact deliver_acts (fun h => Option.some.inj h ▸ onGlobalRemove_acts ..) hc
  | done callback current =>
    rcases deliver_cases hc with rfl | ⟨hc, hi, hstale⟩
    · exact .refl
    split at hc
    next i hostV1Id hbarrier => exact completeHostActivationBarrier_acts hbarrier hc
    · exact Option.some.inj hc ▸
        onDone_acts current hi (isPendingDestroyHost_of_not_stale hstale)
  | deleteId h =>
    exact deliver_acts (fun hc => Option.some.inj hc ▸ .single (.deleteId hlawful)) hc
  | error objectId =>
    refine deliver_acts (fun hc => Option.some.inj hc ▸ ?_) hc
    unfold onError
    cases c.shadowTable.getGuestId objectId with
    | none => exact .refl
    | some g => exact Acts.onIds (f := (·.emitError g)) (.emitError g)
  | created params buffer =>
    refine deliver_acts (fun hc => ?_) hc
    obtain ⟨hbuffer, hc⟩ := guarded_eq_some.mp hc
    exact onCreated_acts hbuffer hlawful hc
  | failed params => exact deliver_acts onFailed_acts hc
  | dataOffer device offer =>
    refine deliver_acts (fun hc => ?_) hc
    obtain ⟨hoffer, hc⟩ := guarded_eq_some.mp hc
    exact onDataOffer_acts hoffer hlawful hc
  | release buffer pending =>
    exact deliver_acts (fun hc => Option.some.inj hc ▸ bufferOnRelease_acts c buffer pending) hc
  | keyboardEnter keyboard surface =>
    refine deliver_acts (fun hc => ?_) hc
    split_ifs at hc
    · exact onKeyboardEnter_acts hc
    · exact Option.some.inj hc ▸ .refl
  | keyboardLeave keyboard surface =>
    refine deliver_acts (fun hc => ?_) hc
    split_ifs at hc
    · exact onKeyboardLeave_acts hc
    · exact Option.some.inj hc ▸ .refl
  | compose textInput =>
    exact deliver_acts (fun hc => Option.some.inj hc ▸ onCompose_acts c textInput) hc
  | composeExtended extended =>
    exact deliver_acts (fun hc => Option.some.inj hc ▸ onComposeExtended_acts c extended) hc
  | key sender i keyboard =>
    exact deliver_acts (fun hc => Option.some.inj hc ▸ emitIf_acts _ c keyboard) hc
  | shmFormat shm changed =>
    refine deliver_acts (fun hc => Option.some.inj hc ▸ ?_) hc
    unfold onShmFormat
    split_ifs
    · exact sendShmFormat_acts c
    · exact .refl
    · exact forwardEvent_acts c shm []
  | dmabufFormat factory shmChanged changed =>
    exact deliver_acts (fun hc => Option.some.inj hc ▸ onDmabufFormat_acts ..) hc
  | plain e =>
    refine deliver_acts (fun hc => ?_) hc
    obtain ⟨-, hc⟩ := guarded_eq_some.mp hc
    rw [← Option.some.inj hc]
    split_ifs
    · exact forwardEvent_acts ..
    · exact .refl

/-! ## Runs -/

theorem onDeleteId_batch (c : IdContext) (h : ℕ) : (c.onDeleteId h).batch = c.batch := by
  unfold onDeleteId
  dsimp only
  split_ifs <;> rfl

theorem Acts.batch (hs : Acts p c c') : c'.batch = c.batch := by
  refine hs.invariant (I := fun c' => c'.batch = c.batch) (fun c₁ c₂ hbatch hact => ?_) rfl
  rw [← hbatch]
  cases hact with
  | deleteId => exact onDeleteId_batch ..
  | note h => exact h.batch
  | move _ h => exact h.batch
  | bind _ h => exact h.batch
  | drop _ _ h => exact h.batch
  | createTextInput _ _ h => exact h.batch
  | createExtendedTextInput _ _ _ _ h => exact h.batch

theorem requestStep_flushed {r : IdRequest} (hc : c.requestStep r = some c') :
    c'.queuedNewIds = [] := by
  obtain ⟨-, hc⟩ := guarded_eq_some.mp hc
  obtain ⟨c₁, -, hc⟩ := Option.bind_eq_some_iff.mp hc
  rw [← Option.some.inj hc]
  rfl

end IdContext

open IdContext

/-- What holds at first and survives every act holds along every run. -/
theorem ids_invariant {p : Promises} {I : IdState → (Slot → Option ℕ) → Prop}
    (hinit : I IdContext.new.toIdState IdContext.new.slot)
    (hact : ∀ c c' : IdContext, I c.toIdState c.slot → Act p c c' → I c'.toIdState c'.slot)
    {c : IdContext} (hc : idSystem.ReachableWhile (Keeps p) c) :
    I c.toIdState c.slot := by
  -- Between the requests of a batch the queue to the host is empty.
  suffices (c.batch = .clientToHost → c.queuedNewIds = []) ∧ I c.toIdState c.slot from this.2
  refine hc.invariant (I := fun c => (c.batch = .clientToHost → c.queuedNewIds = []) ∧
    I c.toIdState c.slot) (fun c hc => ?_) fun c m c' _ hi hkeeps hstep => ?_
  · change c = .new at hc
    subst hc
    exact ⟨fun _ => rfl, hinit⟩
  obtain ⟨hqueue, hi⟩ := hi
  have hacts : Acts p c c' → I c'.toIdState c'.slot := fun hs =>
    hs.invariant (I := fun c => I c.toIdState c.slot) hact hi
  cases m with
  | request r =>
    obtain ⟨hbatch, hstep⟩ := IdContext.guarded_eq_some.mp hstep
    exact ⟨fun _ => requestStep_flushed hstep,
      hacts (requestStep_acts hkeeps.2 (hqueue (eq_of_beq hbatch)) hstep)⟩
  | event e =>
    obtain ⟨hbatch, hstep⟩ := IdContext.guarded_eq_some.mp hstep
    have hs : Acts p c c' := eventStep_acts hkeeps.1 hstep
    refine ⟨fun hclient => ?_, hacts hs⟩
    rw [hs.batch, eq_of_beq hbatch] at hclient
    cases hclient
  | endBatch next =>
    rw [← Option.some.inj hstep]
    exact ⟨fun _ => rfl, hact c (c.onIds (·.flush)) hi (.move .flush ⟨rfl, rfl, rfl⟩)⟩

end Sommelier
