import Sommelier.Ids.Acts

/-!
# Handlers as acts

Every handler does a sequence of acts. The lemmas here are about the registry and the callbacks,
after those about single acts and new objects that all handlers share.
-/
namespace Sommelier.IdContext

variable {p : Promises} {c c' : IdContext} {g h n : ℕ}

/-! ## Single acts -/

/-- An operation on the ID state leaves the slots alone. -/
theorem becomes_onIds (c : IdContext) (f : IdState → IdState) :
    c.Becomes (c.onIds f) (f c.toIdState) c.slot := ⟨rfl, rfl, rfl⟩

/-- A change of what the handlers record besides IDs and slots. -/
theorem Acts.note (h : c.Becomes c' c.toIdState c.slot) : Acts p c c' := .single (.note h)

theorem Acts.onIds {f : IdState → IdState} (h : c.toIdState.Move p.lawful (f c.toIdState)) :
    Acts p c (c.onIds f) :=
  .single (.move h (becomes_onIds c f))

/-- An event for the guest. -/
theorem emit_acts (c : IdContext) (g : ℕ) (objects : List ℕ) :
    Acts p c (c.onIds (·.emit g objects)) := .onIds (.emit g objects)

/-- An event is dropped when its object has no counterpart. -/
theorem forwardEvent_acts (c : IdContext) (h : ℕ) (objects : List ℕ) :
    Acts p c (c.forwardEvent h objects) := by
  unfold forwardEvent
  cases c.shadowTable.getGuestId h with
  | none => exact .refl
  | some g => exact emit_acts c g objects

/-- A loop over objects acts for each of them. -/
theorem Acts.foldl {α : Type*} {f : IdContext → α → IdContext}
    (hf : ∀ c a, Acts p c (f c a)) (as : List α) (c : IdContext) :
    Acts p c (as.foldl f c) := by
  induction as generalizing c with
  | nil => exact .refl
  | cons a as ih => exact (hf c a).trans (ih (f c a))

/-- The same for a loop that can fail. -/
theorem Acts.foldlM {α : Type*} {f : IdContext → α → Option IdContext}
    (hf : ∀ c a c', f c a = some c' → Acts p c c') {as : List α} {c c' : IdContext}
    (hs : as.foldlM f c = some c') : Acts p c c' := by
  induction as generalizing c with
  | nil =>
    obtain rfl := Option.some.inj hs
    exact .refl
  | cons a as ih =>
    rw [List.foldlM_cons, Option.bind_eq_bind, Option.bind_eq_some_iff] at hs
    obtain ⟨c₁, hc₁, hs⟩ := hs
    exact (hf c a c₁ hc₁).trans (ih hs)

theorem guarded_eq_some {allowed : Bool} {next : Option IdContext} :
    guarded allowed next = some c' ↔ allowed = true ∧ next = some c' := by
  cases allowed <;> simp [guarded]

/-- One slot changed. -/
theorem slot_eq_update {k : Slot} {x : Option ℕ} (hself : c'.slot k = x)
    (hother : ∀ k', k' ≠ k → c'.slot k' = c.slot k') : c'.slot = Function.update c.slot k x := by
  funext k'
  rw [Function.update_apply]
  split_ifs with heq
  · exact heq ▸ hself
  · exact hother k' heq

/-! ## New objects -/

/-- An object of the proxy itself is bound under a fresh ID. -/
theorem bindInternal_eq_some {i : Interface} {version : ℕ}
    (hs : c.bindInternal i version = some (h, c')) :
    ∃ n, c.toIdState.Fresh h n ∧ c' = { c with toIdState := c.toIdState.bound h n i version } := by
  obtain ⟨⟨hostId, s⟩, hbind, heq⟩ := Option.map_eq_some_iff.mp hs
  obtain ⟨rfl, rfl⟩ := Prod.mk.inj heq
  obtain ⟨n, hf, rfl⟩ := IdState.bindInternal_eq_some hbind
  exact ⟨n, hf, rfl⟩

/-- A new object is registered with a version on the guest's side alone, or on both sides. -/
theorem registers_untracked (g : ℕ) (i : Interface) :
    IdState.Registers g i (registerUntracked g i) := fun _ t => ⟨_, t.hostVersions, rfl⟩

theorem registers_versions (g : ℕ) (i : Interface) (version hostVersion : ℕ) :
    IdState.Registers g i (registerVersions g i version hostVersion) := fun _ _ => ⟨_, _, rfl⟩

/-- An object of a request whose handler queues the request itself. -/
theorem pairQueued_acts {i : Interface} {register : ℕ → ShadowTable → ShadowTable}
    (hg : c.toIdState.Open g) (hreg : IdState.Registers g i register)
    (hs : c.pairQueued g register = some c') : Acts p c c' := by
  obtain ⟨s, hpair, rfl⟩ := Option.map_eq_some_iff.mp hs
  obtain ⟨⟨h, s₁⟩, halloc, rfl⟩ := Option.map_eq_some_iff.mp hpair
  obtain ⟨n, guestVersions, hostVersions, hf, heq⟩ :=
    IdState.register_mapId hg.unmapped hreg halloc
  have hids := congrArg (fun s => IdState.queueNewId s h) heq
  exact .single (.move (.pairQueued hg hf) ⟨hids, rfl, rfl⟩)

/-- The new object of a forwarded request that is sent. -/
theorem forwardNewId_acts {sender : ℕ} {i : Interface} (hg : c.toIdState.Open g)
    (hqueue : c.queuedNewIds = []) (hsender : (c.shadowTable.getHostId sender).isSome = true)
    (hs : c.forwardNewId sender g i true = some c') : Acts p c c' := by
  simp only [forwardNewId, hsender, Bool.and_self, if_true] at hs
  obtain ⟨s, hpair, rfl⟩ := Option.map_eq_some_iff.mp hs
  obtain ⟨⟨h, s₁⟩, halloc, rfl⟩ := Option.map_eq_some_iff.mp hpair
  obtain ⟨n, guestVersions, hostVersions, hf, heq⟩ :=
    IdState.register_mapId hg.unmapped (registers_versions g i _ _) halloc
  have hids := congrArg (fun s => IdState.sendNewId s h) heq
  exact .single (.move (.pairSent hg hf hqueue) ⟨hids, rfl, rfl⟩)

/-- An object that only the proxy knows. -/
theorem trackLocal_acts (hg : c.toIdState.Open g) (i : Interface) (version : ℕ) :
    Acts p c (c.trackLocal g i version) := .onIds (.track g hg i _)

/-! ## Registry and callbacks -/

/-- The callback that ends the reports of a dma-buf object is held until it is done. -/
theorem queueDmabufCapabilityBarrier_acts {generation : ℕ}
    (hs : c.queueDmabufCapabilityBarrier generation = some c') : Acts p c c' := by
  obtain ⟨⟨callback, c₁⟩, hbind, rfl⟩ := Option.map_eq_some_iff.mp hs
  obtain ⟨n, hf, rfl⟩ := bindInternal_eq_some hbind
  refine .single (.bind (k := .dmabufCallback callback) hf ⟨rfl, slot_eq_update ?_ ?_, rfl⟩)
  · simp [slot]
  · intro k hk
    cases k <;> simp_all [slot]

/-- The same for the callback after which a shell is told its capabilities. -/
theorem queueGtkShellCapabilityBarrier_acts {gtkShell : ℕ}
    (hs : c.queueGtkShellCapabilityBarrier gtkShell = some c') : Acts p c c' := by
  obtain ⟨⟨callback, c₁⟩, hbind, rfl⟩ := Option.map_eq_some_iff.mp hs
  obtain ⟨n, hf, rfl⟩ := bindInternal_eq_some hbind
  refine .single (.bind (k := .gtkShellCallback callback) hf ⟨rfl, slot_eq_update ?_ ?_, rfl⟩)
  · simp [slot]
  · intro k hk
    cases k <;> simp_all [slot]

/-- Some globals the proxy serves itself, the others are bound on the host. -/
theorem onBind_acts {registry version generation : ℕ} {i : Interface} (hg : c.toIdState.Open g)
    (hregistry : (c.shadowTable.getHostId registry).isSome = true)
    (hs : c.onBind registry g i version generation = some c') : Acts p c c' := by
  have htrack : ∀ i, Acts p c (c.trackLocal g i version) :=
    fun i => trackLocal_acts hg i version
  unfold onBind at hs
  split at hs
  · obtain rfl := Option.some.inj hs
    refine .trans ?_ (emit_acts _ g [])
    exact (htrack .wlShm).trans (.note ⟨rfl, rfl, rfl⟩)
  · exact Option.some.inj hs ▸ htrack .zwpTextInputManagerV3
  · refine .trans ?_ (queueGtkShellCapabilityBarrier_acts hs)
    exact (htrack .gtkShell1).trans (.note ⟨rfl, rfl, rfl⟩)
  · unfold bindOnHost at hs
    split at hs
    next hnone => simp [hnone] at hregistry
    · obtain ⟨c₁, hpair, rfl⟩ := Option.map_eq_some_iff.mp hs
      refine (pairQueued_acts hg (registers_versions g i _ _) hpair).trans ?_
      split_ifs
      · exact .note ⟨rfl, rfl, rfl⟩
      · exact .refl

/-- The registry waits for its acknowledgement, and no global is deferred for it any more. -/
theorem onDestroyRegistry_acts (c : IdContext) (registry : ℕ) :
    Acts p c (c.onDestroyRegistry registry) := by
  have hmark : Acts p c ({ c with
      pendingDmabufGlobals := c.pendingDmabufGlobals.filter
        (·.registryHostId != (c.shadowTable.getHostId registry).getD registry) }.onIds
          (·.onTable (·.markPendingDestroy registry))) :=
    .single (.move (.markPendingDestroy registry) ⟨rfl, rfl, rfl⟩)
  exact hmark.trans (.single (.move (.logDestroy _) ⟨rfl, rfl, rfl⟩))

/-- A global of the proxy is destroyed, or its ID stays reserved where it has no destructor. -/
theorem releaseInternal_acts (c : IdContext) (i : InternalGlobal) :
    Acts p c (c.releaseInternal i) := by
  unfold releaseInternal
  cases hi : c.hostIds.get i with
  | none => exact .refl
  | some x =>
    refine .single (.drop (k := .global i) hi ?_ ⟨rfl, slot_eq_update ?_ ?_, rfl⟩)
    · dsimp only [onIds]
      split_ifs
      · exact .inl rfl
      · exact .inr rfl
    · simp [slot, onIds]
    · intro k hk
      cases k <;> simp_all [slot, onIds]

/-- The globals bound under a name are released, except those that outlive it. -/
theorem resetInternalBindingForGlobal_acts (c : IdContext) (name : ℕ) :
    Acts p c (c.resetInternalBindingForGlobal name) := by
  refine Acts.foldl (fun c i => ?_) _ c
  have hrelease : Acts p c (if i.outlivesGlobal then c else c.releaseInternal i) := by
    split_ifs
    · exact .refl
    · exact releaseInternal_acts c i
  unfold resetInternalBinding
  split
  · exact hrelease.trans (.note ⟨rfl, rfl, rfl⟩)
  · exact .refl

/-- A global is deferred, announced to the guest or hidden. -/
theorem showGlobal_acts (c : IdContext) (registry name : ℕ) (ad : Advertised) :
    Acts p c (c.showGlobal registry name ad) := by
  unfold showGlobal
  split_ifs
  · exact .note ⟨rfl, rfl, rfl⟩
  · exact forwardEvent_acts c registry []
  · exact .refl

/-- The first global of its interface is bound for the proxy itself. -/
theorem bindInternalGlobal_acts {registry name version : ℕ} {i : InternalGlobal}
    {ad : Advertised} (hs : c.bindInternalGlobal registry name i version ad = some c') :
    Acts p c c' := by
  unfold bindInternalGlobal at hs
  split at hs
  · exact Option.some.inj hs ▸ showGlobal_acts ..
  obtain ⟨⟨hostId, c₁⟩, hbind, hs⟩ := Option.bind_eq_some_iff.mp hs
  obtain ⟨n, hf, rfl⟩ := bindInternal_eq_some hbind
  dsimp only at hs
  generalize hset : IdContext.mk .. = c₂ at hs
  have hbound : Acts p c c₂ := by
    subst hset
    refine .single (.bind (k := .global i) hf ⟨rfl, slot_eq_update ?_ ?_, rfl⟩)
    · simp [slot]
    · intro k hk
      cases k <;> simp_all [slot]
  have hshow := hbound.trans (showGlobal_acts c₂ registry name ad)
  split at hs
  · exact hshow.trans (queueDmabufCapabilityBarrier_acts hs)
  · exact Option.some.inj hs ▸ hshow

/-- An advertisement that replaces a removed one gives up the binding of its name first. -/
theorem onGlobal_acts {registry name version : ℕ} {i : Interface} {ad : Advertised}
    (hs : c.onGlobal registry name i version ad = some c') : Acts p c c' := by
  unfold onGlobal at hs
  have hreset : Acts p c (if ad.replaces then c.resetInternalBindingForGlobal name else c) := by
    split_ifs
    · exact resetInternalBindingForGlobal_acts c name
    · exact .refl
  refine hreset.trans ?_
  dsimp only at hs
  generalize (if ad.replaces then c.resetInternalBindingForGlobal name else c) = c₁ at hs ⊢
  split at hs
  · exact Option.some.inj hs ▸ .refl
  · split at hs
    · exact bindInternalGlobal_acts hs
    · exact Option.some.inj hs ▸ showGlobal_acts ..

/-- The binding goes with the last registry that was told of the name. -/
theorem onGlobalRemove_acts (c : IdContext) (registry name : ℕ) (generation : Option ℕ)
    (last visible : Bool) : Acts p c (c.onGlobalRemove registry name generation last visible) := by
  unfold onGlobalRemove
  dsimp only
  generalize hset : IdContext.mk .. = c₁
  have hfilter : Acts p c c₁ := hset ▸ .note ⟨rfl, rfl, rfl⟩
  have hreset : Acts p c₁ (if last then c₁.resetInternalBindingForGlobal name else c₁) := by
    split_ifs
    · exact resetInternalBindingForGlobal_acts c₁ name
    · exact .refl
  generalize (if last then c₁.resetInternalBindingForGlobal name else c₁) = c₂ at hreset ⊢
  refine (hfilter.trans hreset).trans ?_
  split_ifs
  · exact forwardEvent_acts c₂ registry []
  · exact .refl

theorem sendFeedback_acts (c : IdContext) (generation : ℕ) :
    Acts p c (c.sendFeedback generation) := .foldl (fun c g => emit_acts c g []) _ c

/-- The deferred globals are announced when the reports are complete. -/
theorem completeCapabilityDiscovery_acts (c : IdContext) (generation : ℕ)
    (current : List DeferredGlobal) :
    Acts p c (c.completeCapabilityDiscovery generation current) := by
  unfold completeCapabilityDiscovery
  split_ifs
  · exact .refl
  · refine .trans ?_ (sendFeedback_acts _ generation)
    refine .trans ?_ (.foldl (fun c pending => emit_acts c _ []) _ _)
    exact .note ⟨rfl, rfl, rfl⟩

/-- A callback with an interface, whose guest object, if it has one, is not being destroyed. -/
theorem onDone_acts {callback : ℕ} (current : List DeferredGlobal)
    (hi : c.eventInterface callback = some .wlCallback)
    (hstale : c.shadowTable.isPendingDestroyHost callback = false) :
    Acts p c (c.onDone callback current) := by
  unfold onDone
  cases hdmabuf : c.dmabufCapabilityCallbacks.get callback with
  | some generation =>
    dsimp only
    refine .trans ?_ (completeCapabilityDiscovery_acts _ generation current)
    refine .single (.drop (k := .dmabufCallback callback) ?_ (.inl rfl)
      ⟨rfl, slot_eq_update ?_ ?_, rfl⟩)
    · simp [slot, hdmabuf]
    · simp [slot, onIds, dropCallback]
    · intro k hk
      cases k <;> simp_all [slot, onIds, dropCallback]
  | none =>
    dsimp only
    cases hgtk : c.gtkShellCapabilityCallbacks.get callback with
    | some gtkShell =>
      dsimp only
      generalize hdrop : dropCallback _ callback = c₁
      have hdropped : Acts p c c₁ := by
        subst hdrop
        refine .single (.drop (k := .gtkShellCallback callback) ?_ (.inl rfl)
          ⟨rfl, slot_eq_update ?_ ?_, rfl⟩)
        · simp [slot, hgtk]
        · simp [slot, onIds, dropCallback]
        · intro k hk
          cases k <;> simp_all [slot, onIds, dropCallback]
      split_ifs
      · exact hdropped.trans (emit_acts c₁ gtkShell [])
      · exact hdropped
    | none =>
      dsimp only
      cases hg : c.shadowTable.getGuestId callback with
      | none => exact .refl
      | some g =>
        refine .onIds (.completeCallback hg ?_ ?_)
        · have hmapped : c.shadowTable.hostToGuest.get callback = some g := hg
          simpa [ShadowTable.isPendingDestroyHost, ShadowTable.isPendingDestroyGuest, hmapped]
            using hstale
        · rw [eventInterface, hg, Option.bind_some] at hi
          exact hi

end Sommelier.IdContext
