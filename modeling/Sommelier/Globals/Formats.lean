import Sommelier.Globals.RegistryStream

/-!
# What concerns formats

Most messages leave alone what the proxy knows about formats: the formats of its `wl_shm`
objects, and the tables of its feedback objects.

## Main definitions

* `ShmPart`: what decides about the formats of `wl_shm`.
* `Tables`: the feedback objects and their tables are as before.
* `Frame`: so are the formats of `wl_shm`.
-/
namespace Sommelier

/-- What decides about the formats of `wl_shm`. -/
structure ShmPart where
  options : GlobalOptions
  dmabufId : Option ℕ
  dmabufName : Option ℕ
  shmId : Option ℕ
  shmName : Option ℕ
  guestFormats : Table ℕ (Finset ℕ)
  hostFormats : Finset ℕ
  wlFormats : Finset ℕ
  dmabufFormats : Finset ℕ
  staleObjects : Finset ℕ
  pools : Table ℕ ℕ
  stalePools : Finset ℕ

/-- The event lists the formats of a feedback object. -/
def GuestEvent.isTable : GuestEvent → Bool
  | feedback .. => true
  | _ => false

/-- The event names a format of a `wl_shm`. -/
def GuestEvent.isShmFormat : GuestEvent → Bool
  | shmFormat .. => true
  | _ => false

namespace GlobalContext

def shmPart (c : GlobalContext) : ShmPart where
  options := c.options
  dmabufId := c.hostDmabufId
  dmabufName := c.hostDmabufGlobalName
  shmId := c.hostShmId
  shmName := c.hostShmGlobalName
  guestFormats := c.shmGuestFormats
  hostFormats := c.hostShmFormats
  wlFormats := c.hostWlShmFormats
  dmabufFormats := c.hostDmabufShmFormats
  staleObjects := c.staleShmGuestObjects
  pools := c.pools
  stalePools := c.staleShmPools

variable {c c' c₁ : GlobalContext}

/-- Nothing of a kind was sent to the guest. -/
def Silent (kind : GuestEvent → Bool) (c c' : GlobalContext) : Prop :=
  ∃ told, c'.guestEvents = told ++ c.guestEvents ∧ ∀ e ∈ told, kind e = false

namespace Silent
variable {kind : GuestEvent → Bool}

theorem of_eq (h : c'.guestEvents = c.guestEvents) : Silent kind c c' := ⟨[], h, nofun⟩

theorem send {e : GuestEvent} (h : c'.guestEvents = e :: c.guestEvents) (he : kind e = false) :
    Silent kind c c' :=
  ⟨[e], h, fun _ he' => List.mem_singleton.mp he' ▸ he⟩

theorem trans (h : Silent kind c c₁) (h' : Silent kind c₁ c') : Silent kind c c' := by
  obtain ⟨told, hevents, htold⟩ := h
  obtain ⟨told', hevents', htold'⟩ := h'
  refine ⟨told' ++ told, by rw [hevents', hevents, List.append_assoc], fun e he => ?_⟩
  exact (List.mem_append.mp he).elim (htold' e) (htold e)

end Silent

/-- No feedback object changed and got a table; formats of a generation may have been forgotten,
and those of a new one are empty. -/
structure Tables (c c' : GlobalContext) : Prop where
  objects : c'.syntheticFeedbackObjects = c.syntheticFeedbackObjects
  capabilities : ∀ g, c'.dmabufCapabilities.get g = c.dmabufCapabilities.get g ∨
    c'.dmabufCapabilities.get g = none ∨ c'.dmabufCapabilities.get g = some .empty
  silent : Silent GuestEvent.isTable c c'

namespace Tables

theorem refl (c : GlobalContext) : Tables c c := ⟨rfl, fun _ => .inl rfl, .of_eq rfl⟩

theorem trans (h : Tables c c₁) (h' : Tables c₁ c') : Tables c c' := by
  refine ⟨h'.objects.trans h.objects, fun g => ?_, h.silent.trans h'.silent⟩
  rcases h'.capabilities g with heq | hnew
  · rw [heq]
    exact h.capabilities g
  · exact .inr hnew

/-- The part that is known first comes last. -/
theorem after (h' : Tables c₁ c') (h : Tables c c₁) : Tables c c' := h.trans h'

theorem of_eq (hobjects : c'.syntheticFeedbackObjects = c.syntheticFeedbackObjects)
    (hcapabilities : c'.dmabufCapabilities = c.dmabufCapabilities)
    (hevents : c'.guestEvents = c.guestEvents) : Tables c c' :=
  ⟨hobjects, fun _ => .inl (by rw [hcapabilities]), .of_eq hevents⟩

end Tables

/-- Nothing that concerns formats changed. -/
structure Frame (c c' : GlobalContext) : Prop extends Tables c c' where
  shm : c'.shmPart = c.shmPart
  unsent : Silent GuestEvent.isShmFormat c c'

namespace Frame

theorem refl (c : GlobalContext) : Frame c c := ⟨.refl c, rfl, .of_eq rfl⟩

theorem trans (h : Frame c c₁) (h' : Frame c₁ c') : Frame c c' :=
  ⟨h.toTables.trans h'.toTables, h'.shm.trans h.shm, h.unsent.trans h'.unsent⟩

/-- The part that is known first comes last. -/
theorem after (h' : Frame c₁ c') (h : Frame c c₁) : Frame c c' := h.trans h'

theorem of_eq (hobjects : c'.syntheticFeedbackObjects = c.syntheticFeedbackObjects)
    (hcapabilities : c'.dmabufCapabilities = c.dmabufCapabilities)
    (hshm : c'.shmPart = c.shmPart) (hevents : c'.guestEvents = c.guestEvents) : Frame c c' :=
  ⟨.of_eq hobjects hcapabilities hevents, hshm, .of_eq hevents⟩

theorem foldl {α : Type} {f : GlobalContext → α → GlobalContext} (hf : ∀ c a, Frame c (f c a))
    (as : List α) (c : GlobalContext) : Frame c (as.foldl f c) := by
  induction as generalizing c with
  | nil => exact .refl c
  | cons a as ih => exact (hf c a).trans (ih (f c a))

end Frame

theorem frame_sendGuest (c : GlobalContext) {e : GuestEvent} (htable : e.isTable = false)
    (hshm : e.isShmFormat = false) : Frame c (c.sendGuest e) :=
  ⟨⟨rfl, fun _ => .inl rfl, .send rfl htable⟩, rfl, .send rfl hshm⟩

theorem frame_maybeReclaimCapabilityGeneration (c : GlobalContext) (g : ℕ) :
    Frame c (c.maybeReclaimCapabilityGeneration g) := by
  unfold maybeReclaimCapabilityGeneration
  split_ifs
  · exact .refl c
  · refine ⟨⟨rfl, fun g' => ?_, .of_eq rfl⟩, rfl, .of_eq rfl⟩
    dsimp only
    rw [Table.get_erase]
    split_ifs
    · exact .inr (.inl rfl)
    · exact .inl rfl

theorem frame_allocateInternal {i : Interface} {v h : ℕ}
    (heq : c.allocateInternal i v = some (h, c')) : Frame c c' := by
  obtain ⟨⟨k, t⟩, -, heq⟩ := Option.bind_eq_some_iff.mp heq
  obtain ⟨-, rfl⟩ := Prod.mk.inj (Option.some.inj heq)
  exact .of_eq rfl rfl rfl rfl

theorem frame_queueDmabufCapabilityBarrier {g : ℕ}
    (h : c.queueDmabufCapabilityBarrier g = some c') : Frame c c' := by
  obtain ⟨⟨k, c₁⟩, hallocate, heq⟩ := Option.bind_eq_some_iff.mp h
  rw [← Option.some.inj heq]
  exact (frame_allocateInternal hallocate).trans (.of_eq rfl rfl rfl rfl)

theorem frame_queueGtkShellCapabilityBarrier {g : ℕ}
    (h : c.queueGtkShellCapabilityBarrier g = some c') : Frame c c' := by
  obtain ⟨⟨k, c₁⟩, hallocate, heq⟩ := Option.bind_eq_some_iff.mp h
  rw [← Option.some.inj heq]
  exact (frame_allocateInternal hallocate).trans (.of_eq rfl rfl rfl rfl)

/-! ## Requests -/

theorem frame_onGetRegistry {registry : ℕ} {result : Action × GlobalContext}
    (h : c.onGetRegistry registry = some result) : Frame c result.2 := by
  obtain ⟨⟨k, t⟩, -, heq⟩ := Option.bind_eq_some_iff.mp h
  rw [← Option.some.inj heq]
  exact .of_eq rfl rfl rfl rfl

theorem frame_bindOnHost {r n v g : ℕ} {i : Interface} (h : c.bindOnHost r n i v g = some c') :
    Frame c c' := by
  obtain ⟨⟨k, t⟩, -, heq⟩ := Option.bind_eq_some_iff.mp h
  dsimp only at heq
  split at heq
  · rw [← Option.some.inj heq]
    exact .of_eq rfl rfl rfl rfl
  · split_ifs at heq <;> (rw [← Option.some.inj heq]; exact .of_eq rfl rfl rfl rfl)

theorem frame_onDestroyRegistry (c : GlobalContext) (registry : ℕ) :
    Frame c (c.onDestroyRegistry registry).2 := by
  unfold onDestroyRegistry
  dsimp only
  refine @Frame.trans c _ (List.foldl maybeReclaimCapabilityGeneration _ _) ?_
    (.of_eq rfl rfl rfl rfl)
  exact .after (.foldl frame_maybeReclaimCapabilityGeneration _ _) (.of_eq rfl rfl rfl rfl)

theorem frame_dmabufOnDestroy (c : GlobalContext) (g : ℕ) : Frame c (c.dmabufOnDestroy g).2 := by
  unfold dmabufOnDestroy
  split
  · exact .after (frame_maybeReclaimCapabilityGeneration _ _) (.of_eq rfl rfl rfl rfl)
  · exact .refl c

theorem frame_forwardDestructor (c : GlobalContext) (g : ℕ) : Frame c (c.forwardDestructor g) := by
  unfold forwardDestructor
  split
  · exact .refl c
  · exact .of_eq rfl rfl rfl rfl

theorem frame_mapNewId {sender g : ℕ} {i : Interface} (h : c.mapNewId sender g i = some c') :
    Frame c c' := by
  obtain ⟨⟨k, t⟩, -, heq⟩ := Option.bind_eq_some_iff.mp h
  rw [← Option.some.inj heq]
  exact .of_eq rfl rfl rfl rfl

theorem frame_queueLocalDeleteId (c : GlobalContext) (g : ℕ) :
    Frame c (c.queueLocalDeleteId g) := by
  unfold queueLocalDeleteId
  split_ifs
  · exact .after (frame_sendGuest _ rfl rfl) (.of_eq rfl rfl rfl rfl)
  · exact .refl c

theorem frame_onDeleteId (c : GlobalContext) (h : ℕ) : Frame c (c.onDeleteId h) := by
  unfold onDeleteId
  dsimp only
  split_ifs
  · exact .of_eq rfl rfl rfl rfl
  · split
    · exact .of_eq rfl rfl rfl rfl
    · exact .after (frame_sendGuest _ rfl rfl) (.of_eq rfl rfl rfl rfl)

theorem frame_forwardEvent {result : Action × GlobalContext} {h : ℕ} {event : ℕ → GuestEvent}
    (htable : ∀ g, (event g).isTable = false) (hshm : ∀ g, (event g).isShmFormat = false) :
    Frame result.2 (forwardEvent result h event) := by
  unfold forwardEvent
  split
  · exact frame_sendGuest _ (htable _) (hshm _)
  · exact .refl _

/-! ## Advertisements -/

theorem frame_noteRegistryGlobal (c : GlobalContext) (r n : ℕ) :
    Frame c (c.noteRegistryGlobal r n).2 := by
  unfold noteRegistryGlobal
  split_ifs
  · exact .refl c
  · dsimp only
    have hgeneration : Frame c (c.generationFor r n).2 := by
      unfold generationFor
      split
      · exact .of_eq rfl rfl rfl rfl
      · split_ifs
        · exact .of_eq rfl rfl rfl rfl
        · exact .refl c
    exact hgeneration.trans (.of_eq rfl rfl rfl rfl)

theorem frame_recordRegistryGlobalVisibility (c : GlobalContext) (r n : ℕ) (visible : Bool) :
    Frame c (c.recordRegistryGlobalVisibility r n visible) := .of_eq rfl rfl rfl rfl

theorem frame_hideGlobal (c : GlobalContext) (r n : ℕ) (i : Interface) :
    Frame c (c.hideGlobal r n i) := .of_eq rfl rfl rfl rfl

theorem frame_offerGlobal (c : GlobalContext) (r n : ℕ) (i : Interface) (v : ℕ) :
    Frame c (c.offerGlobal r n i v) := by
  refine @Frame.trans c _ { c with hostGlobals := c.hostGlobals.set n ⟨i, v⟩ }
    (.of_eq rfl rfl rfl rfl) ?_
  exact (frame_sendGuest _ rfl rfl).trans (.of_eq rfl rfl rfl rfl)

theorem frame_deferSyntheticDmabufGlobal (c : GlobalContext) (r n v g : ℕ) :
    Frame c (c.deferSyntheticDmabufGlobal r n v g) := by
  unfold deferSyntheticDmabufGlobal
  dsimp only
  split_ifs <;> exact .of_eq rfl rfl rfl rfl

theorem frame_onBoundDmabufGlobal (c : GlobalContext) (r n v : ℕ) :
    Frame c (c.onBoundDmabufGlobal r n v) := by
  unfold onBoundDmabufGlobal
  dsimp only
  split_ifs
  · exact frame_deferSyntheticDmabufGlobal ..
  · exact frame_offerGlobal ..
  · exact frame_recordRegistryGlobalVisibility ..
  · exact frame_hideGlobal ..

theorem frame_onOtherGlobal (c : GlobalContext) (r n : ℕ) (i : Interface) (v : ℕ) :
    Frame c (c.onOtherGlobal r n i v).2 := by
  unfold onOtherGlobal
  dsimp only
  split_ifs
  · exact frame_recordRegistryGlobalVisibility ..
  · exact frame_offerGlobal ..
  · exact .of_eq rfl rfl rfl rfl

theorem frame_onTextInputManagerGlobal {r n v : ℕ}
    (h : c.onTextInputManagerGlobal r n v = some c') : Frame c c' := by
  unfold onTextInputManagerGlobal at h
  split_ifs at h
  · rw [← Option.some.inj h]
    exact frame_offerGlobal ..
  · obtain ⟨⟨k, c₁⟩, hallocate, heq⟩ := Option.bind_eq_some_iff.mp h
    rw [← Option.some.inj heq]
    refine (frame_allocateInternal hallocate).trans ?_
    exact .trans (.after (frame_offerGlobal ..) (.of_eq rfl rfl rfl rfl)) (.of_eq rfl rfl rfl rfl)

theorem frame_onTextInputExtensionGlobal {r n v : ℕ}
    (h : c.onTextInputExtensionGlobal r n v = some c') : Frame c c' := by
  unfold onTextInputExtensionGlobal at h
  dsimp only at h
  split_ifs at h
  · rw [← Option.some.inj h]
    exact frame_hideGlobal ..
  · obtain ⟨⟨k, c₁⟩, hallocate, heq⟩ := Option.bind_eq_some_iff.mp h
    rw [← Option.some.inj heq]
    exact ((frame_hideGlobal ..).trans (frame_allocateInternal hallocate)).trans
      (.of_eq rfl rfl rfl rfl)

theorem frame_onKeyboardExtensionGlobal {r n v : ℕ}
    (h : c.onKeyboardExtensionGlobal r n v = some c') : Frame c c' := by
  unfold onKeyboardExtensionGlobal at h
  dsimp only at h
  split_ifs at h
  · rw [← Option.some.inj h]
    exact frame_hideGlobal ..
  · obtain ⟨⟨k, c₁⟩, hallocate, heq⟩ := Option.bind_eq_some_iff.mp h
    rw [← Option.some.inj heq]
    exact ((frame_hideGlobal ..).trans (frame_allocateInternal hallocate)).trans
      (.of_eq rfl rfl rfl rfl)

theorem frame_onZauraShellGlobal {r n v : ℕ} (h : c.onZauraShellGlobal r n v = some c') :
    Frame c c' := by
  unfold onZauraShellGlobal at h
  split_ifs at h
  · rw [← Option.some.inj h]
    exact frame_offerGlobal ..
  · obtain ⟨⟨k, c₁⟩, hallocate, heq⟩ := Option.bind_eq_some_iff.mp h
    rw [← Option.some.inj heq]
    refine (frame_allocateInternal hallocate).trans ?_
    exact .trans (.after (frame_offerGlobal ..) (.of_eq rfl rfl rfl rfl)) (.of_eq rfl rfl rfl rfl)

/-! ## Bindings of the proxy -/

theorem frame_resetTextInputBindings (c : GlobalContext) (n : ℕ) :
    Frame c (c.resetTextInputBindings n) := by
  unfold resetTextInputBindings
  dsimp only
  split_ifs <;> exact .of_eq rfl rfl rfl rfl

theorem frame_resetKeyboardExtensionBinding (c : GlobalContext) (n : ℕ) :
    Frame c (c.resetKeyboardExtensionBinding n) := by
  unfold resetKeyboardExtensionBinding
  split_ifs
  · split <;> exact .of_eq rfl rfl rfl rfl
  · exact .refl c

theorem frame_resetZauraShellBinding (c : GlobalContext) (n : ℕ) :
    Frame c (c.resetZauraShellBinding n) := by
  unfold resetZauraShellBinding
  split_ifs
  · dsimp only
    split
    · split_ifs <;> exact .of_eq rfl rfl rfl rfl
    · exact .of_eq rfl rfl rfl rfl
  · exact .refl c

end GlobalContext

/-- The proxy lets go of its dma-buf object, and of the formats it alone reported. -/
def ShmPart.releaseDmabuf (p : ShmPart) : ShmPart :=
  { p with
    dmabufId := none
    dmabufName := none
    dmabufFormats := ∅
    hostFormats := p.hostFormats.filter fun format =>
      format ∉ p.dmabufFormats ∨ format ∈ p.wlFormats }

/-- The proxy lets go of its `wl_shm`; what the guest has of it is stale. -/
def ShmPart.releaseShm (p : ShmPart) : ShmPart :=
  { p with
    shmId := none
    shmName := none
    staleObjects := p.staleObjects ∪ p.guestFormats.keys.toFinset
    stalePools := p.stalePools ∪ p.pools.keys.toFinset
    wlFormats := ∅
    hostFormats := p.hostFormats.filter fun format =>
      format ∉ p.wlFormats ∨ format ∈ p.dmabufFormats }

/-- A global of the given name is gone. -/
def ShmPart.reset (p : ShmPart) (n : ℕ) : ShmPart :=
  let p := if p.dmabufName = some n then p.releaseDmabuf else p
  if p.shmName = some n then p.releaseShm else p

namespace GlobalContext
variable {c c' c₁ : GlobalContext}

/-- Feedback objects are left alone, no format of a `wl_shm` is sent, and its state changes
as given. -/
structure Changes (c c' : GlobalContext) (p : ShmPart) : Prop extends Tables c c' where
  shm : c'.shmPart = p
  unsent : Silent GuestEvent.isShmFormat c c'

theorem Frame.changes (h : Frame c c') : Changes c c' c.shmPart := ⟨h.toTables, h.shm, h.unsent⟩

theorem Changes.frame {p : ShmPart} (h : Changes c c₁ p) (h' : Frame c₁ c') : Changes c c' p :=
  ⟨h.toTables.trans h'.toTables, h'.shm.trans h.shm, h.unsent.trans h'.unsent⟩

theorem Frame.then {p : ShmPart} (h : Frame c c₁) (h' : Changes c₁ c' p) : Changes c c' p :=
  ⟨h.toTables.trans h'.toTables, h'.shm, h.unsent.trans h'.unsent⟩

theorem Changes.then {p q : ShmPart} (h : Changes c c₁ p) (h' : Changes c₁ c' q) :
    Changes c c' q :=
  ⟨h.toTables.trans h'.toTables, h'.shm, h.unsent.trans h'.unsent⟩

theorem changes_resetDmabufBinding (c : GlobalContext) (n : ℕ) : Changes c (c.resetDmabufBinding n)
    (if c.hostDmabufGlobalName = some n then c.shmPart.releaseDmabuf else c.shmPart) := by
  unfold resetDmabufBinding
  split_ifs with hn
  · dsimp only
    have hreleased : ∀ d : GlobalContext, Frame { c with
        hostDmabufGeneration := none, hostDmabufId := none } d →
        Changes c { d with hostDmabufGlobalName := none }.clearHostShmDmabufFormats
          c.shmPart.releaseDmabuf := by
      intro d hd
      refine ⟨⟨hd.objects, hd.capabilities, hd.silent⟩, ?_, hd.unsent⟩
      have hreleased : { d with hostDmabufGlobalName := none }.clearHostShmDmabufFormats.shmPart =
          { d.shmPart.releaseDmabuf with dmabufId := d.shmPart.dmabufId } := rfl
      rw [hreleased, hd.shm]
      rfl
    cases c.hostDmabufGeneration with
    | none =>
      refine hreleased _ ?_
      split
      · exact .of_eq rfl rfl rfl rfl
      · exact .refl _
    | some generation =>
      refine Changes.frame (hreleased _ ?_) (frame_maybeReclaimCapabilityGeneration _ generation)
      split
      · exact .of_eq rfl rfl rfl rfl
      · exact .refl _
  · exact (Frame.refl c).changes

theorem changes_resetShmBinding (c : GlobalContext) (n : ℕ) : Changes c (c.resetShmBinding n)
    (if c.hostShmGlobalName = some n then c.shmPart.releaseShm else c.shmPart) := by
  unfold resetShmBinding
  split_ifs with hn
  · dsimp only
    cases hid : c.hostShmId with
    | none =>
      refine ⟨.of_eq rfl rfl rfl, ?_, .of_eq rfl⟩
      simp [shmPart, ShmPart.releaseShm, clearHostShmWlFormats, hid]
    | some h => exact ⟨.of_eq rfl rfl rfl, rfl, .of_eq rfl⟩
  · exact (Frame.refl c).changes

theorem changes_resetInternalBindingForGlobal (c : GlobalContext) (n : ℕ) :
    Changes c (c.resetInternalBindingForGlobal n) (c.shmPart.reset n) := by
  have hdmabuf := changes_resetDmabufBinding c n
  have hshm := changes_resetShmBinding (c.resetDmabufBinding n) n
  have hname : (c.resetDmabufBinding n).hostShmGlobalName =
      (c.resetDmabufBinding n).shmPart.shmName := rfl
  rw [hname, hdmabuf.shm] at hshm
  unfold resetInternalBindingForGlobal
  dsimp only
  have hall := (hdmabuf.then hshm).frame ((frame_resetTextInputBindings _ n).trans
    ((frame_resetKeyboardExtensionBinding _ n).trans (frame_resetZauraShellBinding _ n)))
  exact hall.frame (.of_eq rfl rfl rfl rfl)

theorem frame_replaceGlobalMetadataForGeneration (c : GlobalContext) (n : ℕ) :
    Frame c (c.replaceGlobalMetadataForGeneration n) := .of_eq rfl rfl rfl rfl

theorem frame_unlistGlobal (c : GlobalContext) (r n : ℕ) : Frame c (c.unlistGlobal r n) := by
  unfold unlistGlobal
  dsimp only
  cases c.generationOf r n with
  | none => exact .of_eq rfl rfl rfl rfl
  | some generation =>
    refine @Frame.trans c _ (maybeReclaimCapabilityGeneration _ generation) ?_
      (.of_eq rfl rfl rfl rfl)
    exact .after (frame_maybeReclaimCapabilityGeneration _ _) (.of_eq rfl rfl rfl rfl)

theorem changes_dropGlobal (c : GlobalContext) (n : ℕ) :
    Changes c (c.dropGlobal n) (c.shmPart.reset n) := by
  unfold dropGlobal
  dsimp only
  split_ifs
  · exact (changes_resetInternalBindingForGlobal c n).frame (.of_eq rfl rfl rfl rfl)
  · exact changes_resetInternalBindingForGlobal c n

/-- Only the last removal of a generation resets what the proxy has bound from it. -/
theorem changes_onGlobalRemove (c : GlobalContext) (r n : ℕ) :
    ∃ p, Changes c (c.onGlobalRemove r n).2 p ∧
      (n ∈ c.namesOf r ∧ c.ledger.IsLast r n ∧ p = c.shmPart.reset n ∨
        ¬ (n ∈ c.namesOf r ∧ c.ledger.IsLast r n) ∧ p = c.shmPart) := by
  unfold onGlobalRemove
  by_cases hn : n ∈ c.namesOf r
  swap
  · rw [if_pos hn]
    exact ⟨_, (Frame.refl c).changes, .inr ⟨fun h => hn h.1, rfl⟩⟩
  rw [if_neg (not_not_intro hn)]
  dsimp only
  by_cases hlast : (c.generationOf r n == (c.unlistGlobal r n).globalGenerations.get n &&
      !(c.unlistGlobal r n).stillSeen n) = true
  · rw [if_pos hlast]
    have hdrop := changes_dropGlobal (c.unlistGlobal r n) n
    rw [(frame_unlistGlobal c r n).shm] at hdrop
    have hlast := (lastRemoval_iff c r n).mp hlast
    exact ⟨_, (frame_unlistGlobal c r n).then hdrop, .inl ⟨hn, hlast, rfl⟩⟩
  · rw [if_neg hlast]
    refine ⟨_, (frame_unlistGlobal c r n).changes, .inr ⟨fun h => hlast ?_, rfl⟩⟩
    exact (lastRemoval_iff c r n).mpr h.2

end GlobalContext

/-- An advertisement begins a generation in place of another one. -/
def Ledger.Restarts (l : Ledger) (r n : ℕ) : Prop :=
  l.current n ≠ none ∧ l.Begins r n ∧ l.current n ≠ some l.fresh

instance (l : Ledger) (r n : ℕ) : Decidable (l.Restarts r n) := by
  unfold Ledger.Restarts
  infer_instance

/-- The proxy may bind its own dma-buf object or `wl_shm`. -/
inductive ShmPart.Binds (p : ShmPart) (n : ℕ) (i : Interface) : ShmPart → Prop
  | dmabuf (h : ℕ) (hi : i = .zwpLinuxDmabufV1)
      (hbind : p.options.shouldBindInternalDmabuf = true) (hid : p.dmabufId = none) :
      p.Binds n i { p with dmabufId := some h, dmabufName := some n }
  | shm (h : ℕ) (hi : i = .wlShm) (hid : p.shmId = none) :
      p.Binds n i { p with shmId := some h, shmName := some n }
  | none (hi : ¬ (i = .zwpLinuxDmabufV1 ∧ p.options.shouldBindInternalDmabuf = true ∧
      p.dmabufId = none)) : p.Binds n i p

namespace GlobalContext
variable {c c' c₁ : GlobalContext}

theorem changes_rememberDmabuf (c : GlobalContext) (n h g : ℕ) :
    Changes c (c.rememberDmabuf n h g)
      { c.shmPart with dmabufId := some h, dmabufName := some n } := by
  refine ⟨⟨rfl, fun g' => ?_, .of_eq rfl⟩, rfl, .of_eq rfl⟩
  unfold rememberDmabuf
  dsimp only
  split
  · exact .inl rfl
  · rw [Table.get_set]
    split_ifs
    · exact .inr (.inr rfl)
    · exact .inl rfl

theorem changes_onDmabufGlobal {r n v : ℕ} (h : c.onDmabufGlobal r n v = some c') :
    ∃ p, Changes c c' p ∧ c.shmPart.Binds n .zwpLinuxDmabufV1 p := by
  unfold onDmabufGlobal at h
  dsimp only at h
  by_cases hbind : c.options.shouldBindInternalDmabuf = true
  swap
  · rw [if_pos (by simp [hbind])] at h
    rw [← Option.some.inj h]
    exact ⟨_, (frame_recordRegistryGlobalVisibility ..).changes, .none fun h => hbind h.2.1⟩
  rw [if_neg (by simp [hbind])] at h
  by_cases hid : c.hostDmabufId.isSome = true
  · rw [if_pos hid] at h
    rw [← Option.some.inj h]
    refine ⟨_, (frame_onBoundDmabufGlobal ..).changes, .none fun h => ?_⟩
    exact Option.isSome_iff_ne_none.mp hid h.2.2
  rw [if_neg hid] at h
  obtain ⟨⟨hostId, c₁⟩, hallocate, h⟩ := Option.bind_eq_some_iff.mp h
  dsimp only at h
  have hallocated := frame_allocateInternal hallocate
  have hremember := changes_rememberDmabuf c₁ n hostId ((c.globalGenerations.get n).getD 0)
  rw [hallocated.shm] at hremember
  refine ⟨{ c.shmPart with dmabufId := some hostId, dmabufName := some n },
    hallocated.then (hremember.frame ?_), .dmabuf hostId rfl hbind ?_⟩
  swap
  · exact Option.not_isSome_iff_eq_none.mp hid
  revert h
  generalize c₁.rememberDmabuf n hostId _ = c₂
  have hoffered : Frame c₂ (if c₂.options.gpuAccel = true then
      if c.options.canSynthesizeDmabufFeedback v = true then
        c₂.deferSyntheticDmabufGlobal r n (c.options.dmabufClientVersion v)
          ((c.globalGenerations.get n).getD 0)
      else c₂.offerGlobal r n .zwpLinuxDmabufV1 (c.options.dmabufClientVersion v)
    else c₂.hideGlobal r n .zwpLinuxDmabufV1) := by
    split_ifs
    · exact frame_deferSyntheticDmabufGlobal ..
    · exact frame_offerGlobal ..
    · exact frame_hideGlobal ..
  revert hoffered
  generalize (if c₂.options.gpuAccel = true then _ else _ : GlobalContext) = c₃
  intro hoffered h
  have hqueued := hoffered.trans (.of_eq rfl rfl rfl rfl : Frame c₃ (c₃.queueInternalBind r n
    .zwpLinuxDmabufV1 (min (c.options.dmabufClientVersion v) linuxDmabufCapabilityVersion) hostId))
  split_ifs at h
  · exact hqueued.trans (frame_queueDmabufCapabilityBarrier h)
  · exact Option.some.inj h ▸ hqueued

theorem changes_onShmGlobal {r n : ℕ} (h : c.onShmGlobal r n = some c') :
    ∃ p, Changes c c' p ∧ c.shmPart.Binds n .wlShm p := by
  unfold onShmGlobal at h
  split_ifs at h with hid
  · rw [← Option.some.inj h]
    exact ⟨_, (frame_offerGlobal ..).changes, .none fun h => nomatch h.1⟩
  · obtain ⟨⟨hostId, c₁⟩, hallocate, h⟩ := Option.bind_eq_some_iff.mp h
    rw [← Option.some.inj h]
    have hallocated := frame_allocateInternal hallocate
    refine ⟨_, hallocated.then ?_, .shm hostId rfl (Option.not_isSome_iff_eq_none.mp hid)⟩
    have hbound : Changes c₁ ({ c₁ with hostShmId := some hostId, hostShmGlobalName := some n
        }.queueInternalBind r n .wlShm 1 hostId)
        { c.shmPart with shmId := some hostId, shmName := some n } :=
      ⟨.of_eq rfl rfl rfl, by rw [← hallocated.shm]; rfl, .of_eq rfl⟩
    exact hbound.frame (frame_offerGlobal ..)

theorem changes_classifyGlobal {r n v : ℕ} {i : Interface} {result : Action × GlobalContext}
    (h : c.classifyGlobal r n i v = some result) :
    ∃ p, Changes c result.2 p ∧ c.shmPart.Binds n i p := by
  unfold classifyGlobal at h
  split_ifs at h with hold
  · rw [← Option.some.inj h]
    refine ⟨_, (frame_recordRegistryGlobalVisibility ..).changes, .none fun h => ?_⟩
    exact absurd (hold.1.symm.trans h.1) (by decide)
  · split at h
    · obtain ⟨c', hc', rfl⟩ := Option.map_eq_some_iff.mp h
      exact changes_onDmabufGlobal hc'
    · obtain ⟨c', hc', rfl⟩ := Option.map_eq_some_iff.mp h
      exact ⟨_, (frame_onTextInputManagerGlobal hc').changes, .none fun h => nomatch h.1⟩
    · obtain ⟨c', hc', rfl⟩ := Option.map_eq_some_iff.mp h
      exact ⟨_, (frame_onTextInputExtensionGlobal hc').changes, .none fun h => nomatch h.1⟩
    · obtain ⟨c', hc', rfl⟩ := Option.map_eq_some_iff.mp h
      exact ⟨_, (frame_onKeyboardExtensionGlobal hc').changes, .none fun h => nomatch h.1⟩
    · obtain ⟨c', hc', rfl⟩ := Option.map_eq_some_iff.mp h
      exact ⟨_, (frame_onZauraShellGlobal hc').changes, .none fun h => nomatch h.1⟩
    · obtain ⟨c', hc', rfl⟩ := Option.map_eq_some_iff.mp h
      exact changes_onShmGlobal hc'
    · next hne _ _ _ _ _ =>
      rw [← Option.some.inj h]
      exact ⟨_, (frame_onOtherGlobal ..).changes, .none fun h => hne h.1⟩

/-- A name that the proxy has bound nothing from. -/
theorem reset_of_not_matches {n : ℕ} (h : ¬ c.internalBindingMatches n = true) :
    c.shmPart.reset n = c.shmPart := by
  simp only [internalBindingMatches, Bool.or_eq_true, beq_iff_eq, not_or] at h
  obtain ⟨⟨⟨⟨⟨hdmabuf, hshm⟩, -⟩, -⟩, -⟩, -⟩ := h
  have hdmabuf' : c.shmPart.dmabufName ≠ some n := hdmabuf
  have hshm' : c.shmPart.shmName ≠ some n := hshm
  rw [ShmPart.reset, if_neg hdmabuf', if_neg hshm']

theorem changes_replaceGeneration {before : GlobalContext} {r n : ℕ}
    (hcurrent : c.globalGenerations.get n = some (before.ledger.generationFor r n)) :
    Changes c (c.replaceGeneration before r n)
      (if before.ledger.Restarts r n then c.shmPart.reset n else c.shmPart) := by
  have hstarts : ((before.globalGenerations.get n).isSome &&
      c.globalGenerations.get n != before.globalGenerations.get n &&
      decide (n ∈ before.removedOf r) &&
      before.generationOf r n == before.globalGenerations.get n) = true ↔
      before.ledger.Restarts r n := by
    have hget : before.globalGenerations.get n = before.ledger.current n := rfl
    rw [hcurrent, hget]
    simp only [Bool.and_eq_true, bne_iff_ne, ne_eq, decide_eq_true_eq, beq_iff_eq,
      Option.isSome_iff_ne_none, Ledger.Restarts]
    constructor
    · rintro ⟨⟨⟨hsome, hne⟩, hremoved⟩, hgeneration⟩
      have hbegins : before.ledger.Begins r n := .inr ⟨hremoved, hgeneration⟩
      rw [Ledger.generationFor_of_begins _ _ _ hbegins] at hne
      exact ⟨hsome, hbegins, fun h => hne h.symm⟩
    · rintro ⟨hsome, hbegins, hne⟩
      obtain ⟨hremoved, hgeneration⟩ := hbegins.resolve_left hsome
      rw [Ledger.generationFor_of_begins _ _ _ hbegins]
      exact ⟨⟨⟨hsome, fun h => hne h.symm⟩, hremoved⟩, hgeneration⟩
  have hmetadata : ∀ (changed : Bool) (d : GlobalContext) {p : ShmPart}, Changes c d p →
      Changes c (if changed then d.replaceGlobalMetadataForGeneration n else d) p := by
    intro changed d p hd
    cases changed
    · exact hd
    · exact hd.frame (frame_replaceGlobalMetadataForGeneration d n)
  unfold replaceGeneration
  dsimp only
  refine hmetadata _ _ ?_
  by_cases hrestarts : before.ledger.Restarts r n
  · rw [if_pos hrestarts, hstarts.mpr hrestarts, Bool.true_and]
    split_ifs with hmatches
    · exact changes_resetInternalBindingForGlobal c n
    · rw [reset_of_not_matches hmatches]
      exact (Frame.refl c).changes
  · rw [if_neg hrestarts, Bool.eq_false_iff.mpr (mt hstarts.mp hrestarts), Bool.false_and,
      if_neg Bool.false_ne_true]
    exact (Frame.refl c).changes

/-- What an advertisement does: it may reset what is bound from the name, and bind again. -/
theorem changes_onGlobal {r n v : ℕ} {i : Interface} {result : Action × GlobalContext}
    (h : c.onGlobal r n i v = some result) :
    (v = 0 ∨ c.ledger.Lists r n) ∧ result.2 = c ∨
      v ≠ 0 ∧ ¬ c.ledger.Lists r n ∧ ∃ p, Changes c result.2 p ∧
        (if c.ledger.Restarts r n then c.shmPart.reset n else c.shmPart).Binds n i p := by
  unfold onGlobal at h
  by_cases hv : v = 0
  · rw [if_pos hv] at h
    exact .inl ⟨.inl hv, (congrArg Prod.snd (Option.some.inj h)).symm⟩
  rw [if_neg hv] at h
  by_cases hlists : c.ledger.Lists r n
  · rw [noteRegistryGlobal_listed hlists] at h
    exact .inl ⟨.inr hlists, (congrArg Prod.snd (Option.some.inj h)).symm⟩
  obtain ⟨c₁, hnote, hledger, -, -⟩ := noteRegistryGlobal_effect hlists
  have hframe := frame_noteRegistryGlobal c r n
  rw [hnote] at h hframe
  simp only [Bool.not_true, Bool.false_eq_true, if_false] at h
  have hcurrent : c₁.globalGenerations.get n = some (c.ledger.generationFor r n) :=
    (congrFun (congrArg Ledger.current hledger) n).trans (Function.update_self ..)
  have hreplace := hframe.then (changes_replaceGeneration hcurrent)
  rw [hframe.shm] at hreplace
  have hclear : Changes c ((c₁.replaceGeneration c r n).clearTombstone n) _ :=
    hreplace.frame (.of_eq rfl rfl rfl rfl)
  obtain ⟨p, hp, hbinds⟩ := changes_classifyGlobal h
  rw [hclear.shm] at hbinds
  exact .inr ⟨hv, hlists, p, hclear.then hp, hbinds⟩

end GlobalContext
/-! ## Objects that only the proxy knows -/

/-- What was sent since the number of a guest object was last freed, newest first. -/
def sinceFreed (g : ℕ) (events : List GuestEvent) : List GuestEvent :=
  events.takeWhile (· != .deleteId g)

@[simp] theorem sinceFreed_deleteId (g : ℕ) (events : List GuestEvent) :
    sinceFreed g (.deleteId g :: events) = [] := by
  simp [sinceFreed]

theorem sinceFreed_append {g : ℕ} {told : List GuestEvent} (h : .deleteId g ∉ told)
    (events : List GuestEvent) : sinceFreed g (told ++ events) = told ++ sinceFreed g events := by
  refine List.takeWhile_append_of_pos fun e he => ?_
  rw [bne_iff_ne]
  rintro rfl
  exact h he

namespace GlobalView
variable {v : GlobalView} {g n : ℕ}

/-- The notices of an object that is not freed. -/
def Extends (g n : ℕ) (v v' : GlobalView) : Prop :=
  ∃ news, v'.notices g n = news ++ v.notices g n ∧ RegistryNotice.ended ∉ news

theorem Extends.refl (g n : ℕ) (v : GlobalView) : Extends g n v v := ⟨[], rfl, List.not_mem_nil⟩

theorem Extends.trans {v₁ v' : GlobalView} (h : Extends g n v v₁) (h' : Extends g n v₁ v') :
    Extends g n v v' := by
  obtain ⟨news, hnews, hended⟩ := h
  obtain ⟨news', hnews', hended'⟩ := h'
  refine ⟨news' ++ news, by rw [hnews', hnews, List.append_assoc], fun h => ?_⟩
  exact (List.mem_append.mp h).elim hended' hended

theorem extends_tell {told : List GuestEvent} (h : .deleteId g ∉ told) (v : GlobalView) :
    Extends g n v (v.tell told) := by
  refine ⟨registryNotices g n told, rfl, fun hended => ?_⟩
  obtain ⟨e, he, hnotice⟩ := List.mem_filterMap.mp hended
  cases e with
  | deleteId object =>
    simp only [registryNotice] at hnotice
    split_ifs at hnotice with hobject
    exact h (hobject ▸ he)
  | global | globalRemove =>
    simp only [registryNotice] at hnotice
    split_ifs at hnotice
    cases hnotice
  | _ => cases hnotice

theorem extends_publish (v : GlobalView) (generation : ℕ) (canPublish : Bool) :
    Extends g n v (v.publish generation canPublish) := by
  have hone : ∀ (v : GlobalView) p, Extends g n v (v.publishOne generation p) := by
    intro v p
    unfold publishOne
    split_ifs
    · exact extends_tell (by simp) { v with ledger := _ }
    · exact .refl g n v
  have hfold : ∀ (ps : List PendingDmabufGlobal) (v : GlobalView),
      Extends g n v (ps.foldl (publishOne generation) v) := by
    intro ps
    induction ps with
    | nil => exact fun v => .refl g n v
    | cons p ps ih => exact fun v => (hone v p).trans (ih _)
  unfold publish
  dsimp only
  split_ifs
  · exact hfold _ { v with ledger := _ }
  · exact .refl g n v

end GlobalView

/-- An object that only the proxy knows stays until a message destroys it. -/
theorem Effect.stays {options : GlobalOptions} {m : GlobalMessage} {v v' : GlobalView}
    (h : Effect options m v v') {g : ℕ} {i : Interface}
    (hi : v.ids.interfaces.get g = some i) (hg : v.ids.guestToHost.get g = none)
    (hm : m.destroyed ≠ some (g, i)) :
    v'.ids.interfaces.get g = some i ∧ v'.ids.guestToHost.get g = none ∧
      ∀ n, GlobalView.Extends g n v v' := by
  have hne : ∀ {g'}, v.ids.interfaces.get g' = none → g ≠ g' := by
    rintro g' hnew rfl
    exact Option.some_ne_none i (hi.symm.trans hnew)
  cases h with
  | @bind _ _ g' h i' hm hg' hh hnew =>
    simp only [ShadowTable.Ids.bind, Table.get_set, if_neg (hne hnew)]
    exact ⟨hi, hg, fun n => .refl g n _⟩
  | track hm hg' hnew =>
    simp only [ShadowTable.Ids.track, Table.get_set, if_neg (hne hnew)]
    exact ⟨hi, hg, fun n => .refl g n _⟩
  | @untrack _ _ g' i' _ hg' hi' hdestroyed =>
    have hother : g ≠ g' := by
      rintro rfl
      obtain rfl := Option.some.inj (hi.symm.trans hi')
      exact hm hdestroyed
    simp only [GlobalView.tell_ids, ShadowTable.Ids.untrack, Table.get_erase, if_neg hother]
    exact ⟨hi, hg, fun n => GlobalView.extends_tell (by simp [hother]) { v with ids := _ }⟩
  | @unbind _ g' h hg' hh hdoomed =>
    have hother : g ≠ g' := by
      rintro rfl
      exact Option.some_ne_none h (hg'.symm.trans hg)
    simp only [GlobalView.tell_ids, ShadowTable.Ids.unbind, Table.get_erase, if_neg hother]
    exact ⟨hi, hg, fun n => GlobalView.extends_tell (by simp [hother]) { v with ids := _ }⟩
  | @advertise _ r n version g' i' o bound =>
    refine ⟨hi, hg, fun n => GlobalView.extends_tell ?_ { v with ledger := _, bound }⟩
    cases o <;> simp [Outcome.announcement]
  | @remove _ r n g' last tombstone bound =>
    refine ⟨hi, hg, fun n => GlobalView.extends_tell ?_ { v with ledger := _, bound }⟩
    split_ifs <;> simp
  | publish generation canPublish =>
    rw [GlobalView.publish_ids]
    exact ⟨hi, hg, fun n => GlobalView.extends_publish v generation canPublish⟩
  | _ => exact ⟨hi, hg, fun n => .refl g n _⟩

/-- Objects come from messages that create them. -/
theorem Effect.origin {options : GlobalOptions} {m : GlobalMessage} {v v' : GlobalView}
    (h : Effect options m v v') {g : ℕ} {i : Interface}
    (hi : v'.ids.interfaces.get g = some i) :
    v.ids.interfaces.get g = some i ∨
      m.created = some (g, i) ∧ v.ids.interfaces.get g = none ∧ v.ids.guestToHost.get g = none := by
  cases h with
  | @bind _ _ g' h i' hm hg hh hnew hcreated =>
    simp only [ShadowTable.Ids.bind, Table.get_set] at hi
    split_ifs at hi with hother
    · subst hother
      exact .inr ⟨hcreated.trans (by rw [Option.some.inj hi]), hnew, hg⟩
    · exact .inl hi
  | @track _ _ g' i' hm hg hnew hcreated =>
    simp only [ShadowTable.Ids.track, Table.get_set] at hi
    split_ifs at hi with hother
    · subst hother
      exact .inr ⟨hcreated.trans (by rw [Option.some.inj hi]), hnew, hg⟩
    · exact .inl hi
  | untrack =>
    simp only [GlobalView.tell_ids, ShadowTable.Ids.untrack, Table.get_erase] at hi
    split_ifs at hi
    exact .inl hi
  | unbind =>
    simp only [GlobalView.tell_ids, ShadowTable.Ids.unbind, Table.get_erase] at hi
    split_ifs at hi
    exact .inl hi
  | publish generation canPublish =>
    rw [GlobalView.publish_ids] at hi
    exact .inl hi
  | _ => exact .inl hi

/-- The number of an object that stays is not freed. -/
theorem not_freed {c c' : GlobalContext} {g : ℕ} {told : List GuestEvent}
    (h : GlobalView.Extends g 0 c.view c'.view) (hevents : c'.guestEvents = told ++ c.guestEvents) :
    .deleteId g ∉ told := by
  obtain ⟨news, hnews, hended⟩ := h
  have hall : registryNotices g 0 told ++ registryNotices g 0 c.guestEvents =
      news ++ registryNotices g 0 c.guestEvents := by
    refine Eq.trans ?_ hnews
    simp only [GlobalContext.view, hevents, registryNotices, List.filterMap_append]
  have htold : registryNotices g 0 told = news := List.append_cancel_right hall
  intro hmem
  refine hended (htold ▸ List.mem_filterMap.mpr ⟨_, hmem, ?_⟩)
  simp [registryNotice]

end Sommelier
