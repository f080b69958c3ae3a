import Sommelier.Globals.FeedbackTables

/-!
# Sending the formats of `wl_shm`

What the messages do that send formats to the `wl_shm` objects of the guest, or that change
which formats are possible. All others leave both alone.

## Main definitions

* `FormatsSent`, `FormatsAdvertised`: what was sent is what is recorded and what is possible.
* `Reports`: what the reports of the host do.
* `Keeps`: no format is sent, and nothing about formats changes.
-/
namespace Sommelier

/-! ## What was sent to an object -/

theorem count_sinceFreed {g f : ℕ} {told events : List GuestEvent} (hfreed : .deleteId g ∉ told) :
    (sinceFreed g (told ++ events)).count (.shmFormat g f) =
      told.count (.shmFormat g f) + (sinceFreed g events).count (.shmFormat g f) := by
  rw [sinceFreed_append hfreed, List.count_append]

theorem mem_sinceFreed_append {g : ℕ} {e : GuestEvent} {told events : List GuestEvent}
    (h : e ∈ sinceFreed g (told ++ events)) :
    e ∈ told ∨ .deleteId g ∉ told ∧ e ∈ sinceFreed g events := by
  by_cases hfreed : .deleteId g ∈ told
  · induction told with
    | nil => exact absurd hfreed List.not_mem_nil
    | cons e' told ih =>
      rw [List.cons_append, sinceFreed, List.takeWhile_cons] at h
      split_ifs at h with hne
      · rcases List.mem_cons.mp h with rfl | h
        · exact .inl (List.mem_cons_self ..)
        · have hfreed : .deleteId g ∈ told :=
            (List.mem_cons.mp hfreed).resolve_left fun heq => bne_iff_ne.mp hne heq.symm
          rcases ih h hfreed with h | h
          · exact .inl (List.mem_cons_of_mem _ h)
          · exact absurd hfreed h.1
      · exact absurd h List.not_mem_nil
  · rw [sinceFreed_append hfreed] at h
    exact (List.mem_append.mp h).imp_right fun h => ⟨hfreed, h⟩

/-- The number of an object that is gone is freed. -/
theorem Effect.gone {options : GlobalOptions} {m : GlobalMessage} {v v' : GlobalView}
    (h : Effect options m v v') {g : ℕ}
    (hknown : v.ids.interfaces.get g ≠ none ∨ v.ids.guestToHost.get g ≠ none)
    (hi : v'.ids.interfaces.get g = none) (hg : v'.ids.guestToHost.get g = none) (n : ℕ) :
    ∃ news, v'.notices g n = news ++ v.notices g n ∧ RegistryNotice.ended ∈ news := by
  have hended : ∀ (v : GlobalView) g', g = g' → ∃ news,
      (v.tell [.deleteId g']).notices g n = news ++ v.notices g n ∧
        RegistryNotice.ended ∈ news := by
    rintro v g' rfl
    refine ⟨registryNotices g n [.deleteId g], rfl, ?_⟩
    simp [registryNotices, registryNotice]
  cases h with
  | bind =>
    simp only [ShadowTable.Ids.bind, Table.get_set] at hi hg
    split_ifs at hi
    rw [if_neg ‹_›] at hg
    exact absurd ⟨hi, hg⟩ (not_and_or.mpr hknown)
  | track =>
    simp only [ShadowTable.Ids.track, Table.get_set] at hi hg
    split_ifs at hi
    exact absurd ⟨hi, hg⟩ (not_and_or.mpr hknown)
  | untrack =>
    simp only [GlobalView.tell_ids, ShadowTable.Ids.untrack, Table.get_erase] at hi hg
    split_ifs at hi with heq
    · exact hended { v with ids := _ } _ heq
    · exact absurd ⟨hi, hg⟩ (not_and_or.mpr hknown)
  | unbind =>
    simp only [GlobalView.tell_ids, ShadowTable.Ids.unbind, Table.get_erase] at hi hg
    split_ifs at hi with heq
    · exact hended { v with ids := _ } _ heq
    · rw [if_neg heq] at hg
      exact absurd ⟨hi, hg⟩ (not_and_or.mpr hknown)
  | publish generation canPublish =>
    rw [GlobalView.publish_ids] at hi hg
    exact absurd ⟨hi, hg⟩ (not_and_or.mpr hknown)
  | _ => exact absurd ⟨hi, hg⟩ (not_and_or.mpr hknown)

theorem freed {c c' : GlobalContext} {g : ℕ} {told : List GuestEvent}
    (h : ∃ news, c'.view.notices g 0 = news ++ c.view.notices g 0 ∧ RegistryNotice.ended ∈ news)
    (hevents : c'.guestEvents = told ++ c.guestEvents) : .deleteId g ∈ told := by
  obtain ⟨news, hnews, hended⟩ := h
  have hall : registryNotices g 0 told ++ registryNotices g 0 c.guestEvents =
      news ++ registryNotices g 0 c.guestEvents := by
    refine Eq.trans ?_ hnews
    simp only [GlobalContext.view, hevents, registryNotices, List.filterMap_append]
  rw [← List.append_cancel_right hall] at hended
  obtain ⟨e, he, hnotice⟩ := List.mem_filterMap.mp hended
  cases e with
  | deleteId object =>
    simp only [registryNotice] at hnotice
    split_ifs at hnotice with hobject
    exact hobject ▸ he
  | global | globalRemove =>
    simp only [registryNotice] at hnotice
    split_ifs at hnotice
    cases hnotice
  | _ => cases hnotice

namespace GlobalContext
variable {c c' : GlobalContext}

/-- Numbers that are free got no format. -/
def FreshUnsent (c : GlobalContext) : Prop :=
  ∀ g f, c.shadowTable.interfaces.get g = none → c.shadowTable.guestToHost.get g = none →
    .shmFormat g f ∉ sinceFreed g c.guestEvents

/-- Formats are only sent to objects. -/
theorem FreshUnsent.step {m : GlobalMessage} {told : List GuestEvent} (hc : c.FreshUnsent)
    (hacts : Acts c m c') (hevents : c'.guestEvents = told ++ c.guestEvents)
    (htold : ∀ g f, .shmFormat g f ∈ told →
      c'.shadowTable.interfaces.get g ≠ none ∨ c'.shadowTable.guestToHost.get g ≠ none) :
    c'.FreshUnsent := by
  intro g f hi hg hmem
  rw [hevents] at hmem
  rcases mem_sinceFreed_append hmem with hmem | ⟨hfreed, hmem⟩
  · exact (htold g f hmem).elim (absurd hi) (absurd hg)
  · by_cases hknown : c.shadowTable.interfaces.get g = none ∧ c.shadowTable.guestToHost.get g = none
    · exact hc g f hknown.1 hknown.2 hmem
    · exact hfreed (freed (hacts.effect.gone (not_and_or.mp hknown) hi hg 0) hevents)

/-- The formats recorded for an object were sent to it, once. -/
def FormatsSent (c : GlobalContext) : Prop :=
  ∀ g f advertised, c.shmGuestFormats.get g = some advertised →
    (sinceFreed g c.guestEvents).count (.shmFormat g f) = if f ∈ advertised then 1 else 0

/-! ## Advertising one format -/

/-- What advertising a format to some objects does. -/
structure Advertises (format : ℕ) (gs : List ℕ) (c c' : GlobalContext) : Prop where
  formats : ∀ g, c'.shmGuestFormats.get g = (c.shmGuestFormats.get g).map fun advertised =>
    if g ∈ gs ∧ g ∉ c.staleShmGuestObjects ∧ c.guestShmFormatAvailable format = true then
      insert format advertised else advertised
  eq : ∃ t told, c' = { c with shmGuestFormats := t, guestEvents := told ++ c.guestEvents } ∧
    ∀ e ∈ told, ∃ g advertised, e = .shmFormat g format ∧
      c.shmGuestFormats.get g = some advertised
  sent : c.FormatsSent → c'.FormatsSent

theorem advertises_none (format : ℕ) {g : ℕ} (h : c.shmGuestFormats.get g = none ∨
    ¬ (g ∉ c.staleShmGuestObjects ∧ c.guestShmFormatAvailable format = true) ∨
    ∀ advertised, c.shmGuestFormats.get g = some advertised → format ∈ advertised) :
    Advertises format [g] c c := by
  refine ⟨fun g' => ?_, ⟨_, [], rfl, nofun⟩, id⟩
  cases hg' : c.shmGuestFormats.get g' with
  | none => rfl
  | some advertised =>
    rw [Option.map_some, Option.some_inj]
    split_ifs with hnow
    · obtain ⟨hmem, hnow⟩ := hnow
      obtain rfl := List.mem_singleton.mp hmem
      rcases h with h | h | h
      · exact absurd (hg'.symm.trans h) (Option.some_ne_none advertised)
      · exact absurd hnow h
      · exact (Finset.insert_eq_self.mpr (h advertised hg')).symm
    · rfl

theorem advertises_advertiseShmFormat (format : ℕ) (c : GlobalContext) (g : ℕ) :
    Advertises format [g] c (advertiseShmFormat format c g) := by
  unfold advertiseShmFormat
  split_ifs with hskip
  · refine advertises_none format (.inr (.inl fun h => ?_))
    exact hskip.elim (fun hstale => h.1 hstale) fun hnot => absurd h.2 (Bool.eq_false_iff.mp hnot)
  · rw [not_or, Bool.not_eq_false] at hskip
    split
    · next hnone => exact advertises_none format (.inl hnone)
    · next advertised hg =>
      split_ifs with hmem
      · refine advertises_none format (.inr (.inr fun advertised' hg' => ?_))
        exact Option.some.inj (hg.symm.trans hg') ▸ hmem
      · refine ⟨fun g' => ?_, ⟨_, [_], rfl, fun e he => ?_⟩, fun hsent g' f advertised' hg' => ?_⟩
        · simp only [sendGuest, Table.get_set, List.mem_singleton]
          by_cases heq : g' = g
          · subst heq
            rw [if_pos rfl, hg, Option.map_some, if_pos ⟨rfl, hskip⟩]
          · simp [heq]
        · exact ⟨g, advertised, List.mem_singleton.mp he, hg⟩
        · simp only [sendGuest, Table.get_set] at hg' ⊢
          rw [show ∀ events, GuestEvent.shmFormat g format :: events =
            [.shmFormat g format] ++ events from fun _ => rfl, count_sinceFreed (by simp)]
          split_ifs at hg' with heq
          · subst heq
            rw [hsent g' f advertised hg, ← Option.some.inj hg']
            by_cases hf : f = format
            · subst hf
              simp [hmem]
            · simp [hf, Ne.symm hf]
          · rw [hsent g' f advertised' hg']
            simp [Ne.symm heq]

theorem Advertises.trans {format : ℕ} {g : ℕ} {gs : List ℕ} {c₁ : GlobalContext}
    (h : Advertises format [g] c c₁) (h' : Advertises format gs c₁ c') :
    Advertises format (g :: gs) c c' := by
  obtain ⟨t, told, heq, htold⟩ := h.eq
  obtain ⟨t', told', heq', htold'⟩ := h'.eq
  have hstale : c₁.staleShmGuestObjects = c.staleShmGuestObjects := heq ▸ rfl
  have havailable : c₁.guestShmFormatAvailable format = c.guestShmFormatAvailable format :=
    heq ▸ rfl
  have hevents : c₁.guestEvents = told ++ c.guestEvents := heq ▸ rfl
  refine ⟨fun g' => ?_, ⟨t', told' ++ told, ?_, fun e he => ?_⟩,
    fun hsent => h'.sent (h.sent hsent)⟩
  · rw [h'.formats, h.formats, Option.map_map, hstale, havailable]
    refine congrArg (Option.map · _) (funext fun advertised => ?_)
    simp only [Function.comp, List.mem_cons]
    by_cases hnow : g' ∉ c.staleShmGuestObjects ∧ c.guestShmFormatAvailable format = true
    · by_cases hgs : g' ∈ gs
      · by_cases hg' : g' = g
        · simp [hnow.1, hnow.2, hgs, eq_true hg']
        · simp [hnow.1, hnow.2, hgs, hg']
      · simp [hgs]
    · simp only [hnow, and_false, if_false]
  · rw [heq', heq, List.append_assoc]
  · rcases List.mem_append.mp he with he | he
    · obtain ⟨g', advertised, rfl, hg'⟩ := htold' e he
      rw [h.formats] at hg'
      obtain ⟨before, hbefore, -⟩ := Option.map_eq_some_iff.mp hg'
      exact ⟨g', before, rfl, hbefore⟩
    · exact htold e he

theorem advertises_foldl (format : ℕ) (gs : List ℕ) (c : GlobalContext) :
    Advertises format gs c (gs.foldl (advertiseShmFormat format) c) := by
  induction gs generalizing c with
  | nil =>
    refine ⟨fun g => ?_, ⟨_, [], rfl, nofun⟩, id⟩
    simp
  | cons g gs ih => exact (advertises_advertiseShmFormat format c g).trans (ih _)

/-- An object that is not stale was told all formats that are possible. -/
def FormatsAdvertised (c : GlobalContext) : Prop :=
  ∀ g advertised, c.shmGuestFormats.get g = some advertised → g ∉ c.staleShmGuestObjects →
    ∀ f, f ∈ advertised ↔ supportedShmFormat f = true ∧ c.guestShmFormatAvailable f = true

/-- What reports of formats do. -/
structure Reports (c c' : GlobalContext) : Prop where
  table : c'.shadowTable = c.shadowTable
  pools : c'.pools = c.pools
  staleObjects : c'.staleShmGuestObjects = c.staleShmGuestObjects
  stalePools : c'.staleShmPools = c.staleShmPools
  objects : ∀ g, (c'.shmGuestFormats.get g).isSome = (c.shmGuestFormats.get g).isSome
  told : ∃ told, c'.guestEvents = told ++ c.guestEvents ∧
    ∀ e ∈ told, ∃ g f, e = .shmFormat g f ∧ (c.shmGuestFormats.get g).isSome = true
  sent : c.FormatsSent → c'.FormatsSent
  advertised : c.FormatsAdvertised → c'.FormatsAdvertised

theorem Reports.refl (c : GlobalContext) : Reports c c :=
  ⟨rfl, rfl, rfl, rfl, fun _ => rfl, ⟨[], rfl, nofun⟩, id, id⟩

theorem reports_recordHostShmFormat (c : GlobalContext) (format : ℕ) :
    Reports c (c.recordHostShmFormat format) := by
  unfold recordHostShmFormat
  split_ifs with hknown
  · exact .refl c
  rw [not_or, Bool.not_eq_false] at hknown
  dsimp only
  have hall := advertises_foldl format (c.shmGuestFormats.entries.map (·.1))
    { c with hostShmFormats := insert format c.hostShmFormats }
  revert hall
  generalize List.foldl _ _ _ = c'
  intro hall
  obtain ⟨t, told, heq, htold⟩ := hall.eq
  have hkeys : ∀ g advertised, c.shmGuestFormats.get g = some advertised →
      g ∈ c.shmGuestFormats.entries.map (·.1) := fun g advertised hg =>
    List.mem_map.mpr ⟨_, (Table.mem_entries _ _ _).mpr hg, rfl⟩
  refine ⟨heq ▸ rfl, heq ▸ rfl, heq ▸ rfl, heq ▸ rfl, fun g => ?_, ⟨told, heq ▸ rfl, ?_⟩,
    fun hsent => hall.sent hsent, fun hadvertised g now hg hstale f => ?_⟩
  · rw [hall.formats, Option.isSome_map]
  · intro e he
    obtain ⟨g, advertised, heq, hg⟩ := htold e he
    exact ⟨g, format, heq, Option.isSome_of_eq_some hg⟩
  · have hstale : g ∉ c.staleShmGuestObjects := by
      rw [heq] at hstale
      exact hstale
    have havailable : ∀ f, c'.guestShmFormatAvailable f = GlobalContext.guestShmFormatAvailable
        { c with hostShmFormats := insert format c.hostShmFormats } f := fun f => heq ▸ rfl
    rw [hall.formats] at hg
    obtain ⟨advertised, hg, hnow⟩ := Option.map_eq_some_iff.mp hg
    have hbefore := hadvertised g advertised hg hstale f
    rw [havailable, ← hnow]
    by_cases hf : f = format
    · subst hf
      split_ifs with htell
      · exact iff_of_true (Finset.mem_insert_self ..) ⟨hknown.1, htell.2.2⟩
      · rw [hbefore]
        have hnot : ¬ _ = true := fun h => htell ⟨hkeys g advertised hg, hstale, h⟩
        refine iff_of_false (fun h => hnot ?_) fun h => hnot h.2
        have h := h.2
        simp only [guestShmFormatAvailable, Bool.and_eq_true, Bool.or_eq_true,
          decide_eq_true_eq] at h ⊢
        exact ⟨h.1.imp_right fun h => Finset.mem_insert_of_mem h, h.2⟩
    · have hsame : f ∈ (if g ∈ c.shmGuestFormats.entries.map (·.1) ∧ g ∉ c.staleShmGuestObjects ∧
          GlobalContext.guestShmFormatAvailable
            { c with hostShmFormats := insert format c.hostShmFormats } format = true then
          insert format advertised else advertised) ↔ f ∈ advertised := by
        split_ifs
        · rw [Finset.mem_insert, or_iff_right hf]
        · rfl
      rw [hsame, hbefore]
      simp [guestShmFormatAvailable, hf]

theorem Reports.after {c₁ : GlobalContext} (h' : Reports c₁ c')
    (hframe : c₁.shmPart = { c.shmPart with
      wlFormats := c₁.hostWlShmFormats, dmabufFormats := c₁.hostDmabufShmFormats })
    (htable : c₁.shadowTable = c.shadowTable) (hevents : c₁.guestEvents = c.guestEvents) :
    Reports c c' := by
  have hformats : c₁.shmGuestFormats = c.shmGuestFormats := congrArg ShmPart.guestFormats hframe
  have hstale : c₁.staleShmGuestObjects = c.staleShmGuestObjects :=
    congrArg ShmPart.staleObjects hframe
  have havailable : ∀ f, c₁.guestShmFormatAvailable f = c.guestShmFormatAvailable f := by
    intro f
    have hhost : c₁.hostShmFormats = c.hostShmFormats := congrArg ShmPart.hostFormats hframe
    have hoptions : c₁.options = c.options := congrArg ShmPart.options hframe
    have hid : c₁.hostDmabufId = c.hostDmabufId := congrArg ShmPart.dmabufId hframe
    rw [guestShmFormatAvailable, guestShmFormatAvailable, hhost, hoptions, hid]
  refine ⟨h'.table.trans htable, h'.pools.trans (congrArg ShmPart.pools hframe),
    h'.staleObjects.trans hstale, h'.stalePools.trans (congrArg ShmPart.stalePools hframe),
    fun g => hformats ▸ h'.objects g, hevents ▸ hformats ▸ h'.told, fun hsent => h'.sent ?_,
    fun hadvertised => h'.advertised ?_⟩
  · intro g f advertised hg
    rw [hevents]
    exact hsent g f advertised (hformats ▸ hg)
  · intro g advertised hg hnot f
    rw [havailable]
    exact hadvertised g advertised (hformats ▸ hg) (hstale ▸ hnot) f

theorem reports_recordHostShmWlFormat (c : GlobalContext) (format : ℕ) :
    Reports c (c.recordHostShmWlFormat format) := by
  unfold recordHostShmWlFormat
  dsimp only
  refine (reports_recordHostShmFormat _ format).after ?_ ?_ ?_ <;> split_ifs <;> rfl

theorem reports_recordHostShmDrmFormat (c : GlobalContext) (format : ℕ) :
    Reports c (c.recordHostShmDrmFormat format) := by
  unfold recordHostShmDrmFormat
  split
  · exact .refl c
  · exact (reports_recordHostShmFormat _ _).after rfl rfl rfl

theorem foldl_sendGuest (g : ℕ) (formats : List ℕ) (c : GlobalContext) :
    formats.foldl (fun c format => c.sendGuest (.shmFormat g format)) c =
      { c with
        guestEvents := (formats.map (GuestEvent.shmFormat g)).reverse ++ c.guestEvents } := by
  induction formats generalizing c with
  | nil => rfl
  | cons format formats ih =>
    rw [List.foldl_cons, ih]
    simp [sendGuest]

/-- A new `wl_shm` is told all formats that are possible, once. -/
theorem registerGuestShm_eq (c : GlobalContext) (g : ℕ) : c.registerGuestShm g =
    { c with
      shmGuestFormats := c.shmGuestFormats.set g
        (supportedShmFormats.filter c.guestShmFormatAvailable).toFinset
      guestEvents := ((supportedShmFormats.filter c.guestShmFormatAvailable).map
        (GuestEvent.shmFormat g)).reverse ++ c.guestEvents } :=
  foldl_sendGuest g _ _

/-! ## Messages that leave the formats alone -/

/-- No format is sent, and nothing about formats changes. -/
structure Keeps (c c' : GlobalContext) : Prop where
  shm : c'.shmPart = c.shmPart
  unsent : Silent GuestEvent.isShmFormat c c'

theorem Frame.keeps (h : Frame c c') : Keeps c c' := ⟨h.shm, h.unsent⟩

namespace Keeps

theorem refl (c : GlobalContext) : Keeps c c := ⟨rfl, .of_eq rfl⟩

theorem trans {c₁ : GlobalContext} (h : Keeps c c₁) (h' : Keeps c₁ c') : Keeps c c' :=
  ⟨h'.shm.trans h.shm, h.unsent.trans h'.unsent⟩

theorem after {c₁ : GlobalContext} (h' : Keeps c₁ c') (h : Keeps c c₁) : Keeps c c' := h.trans h'

end Keeps

theorem keeps_queueSyntheticFeedback {tables : Bool} {f generation : ℕ}
    (h : c.queueSyntheticFeedback tables f generation = some c') : Keeps c c' := by
  unfold queueSyntheticFeedback at h
  dsimp only at h
  split_ifs at h
  rw [← Option.some.inj h]
  exact ⟨rfl, .send rfl rfl⟩

theorem keeps_publishFeedbacks (tables : Bool) (generation : ℕ) (fs : List ℕ) (c : GlobalContext) :
    Keeps c (publishFeedbacks tables generation fs c) := by
  induction fs generalizing c with
  | nil => exact .refl c
  | cons f fs ih =>
    unfold publishFeedbacks
    split
    · next hqueue => exact (keeps_queueSyntheticFeedback hqueue).trans (ih _)
    · exact ⟨rfl, .of_eq rfl⟩

theorem keeps_refreshFeedbacks (tables : Bool) (generation : ℕ) (fs : List ℕ) (c : GlobalContext) :
    Keeps c (refreshFeedbacks tables generation fs c) := by
  induction fs generalizing c with
  | nil => exact .refl c
  | cons f fs ih =>
    unfold refreshFeedbacks
    split_ifs
    · exact ih c
    · dsimp only
      split
      · next hqueue =>
        exact .after ((keeps_queueSyntheticFeedback hqueue).trans (ih _)) ⟨rfl, .of_eq rfl⟩
      · exact ⟨rfl, .of_eq rfl⟩

theorem keeps_recordPair (c : GlobalContext) (pair : ℕ × ℕ) : Keeps c (c.recordPair pair).2 := by
  unfold recordPair
  split
  · exact .refl c
  · dsimp only
    split_ifs <;> exact ⟨rfl, .of_eq rfl⟩

theorem keeps_refreshSyntheticFeedbacks (c : GlobalContext) (tables : Bool) :
    Keeps c (c.refreshSyntheticFeedbacks tables) := by
  unfold refreshSyntheticFeedbacks
  split
  · exact .refl c
  · split_ifs
    · exact keeps_refreshFeedbacks ..
    · exact .refl c

theorem keeps_completeCapabilityDiscovery (c : GlobalContext) (tables : Bool) (generation : ℕ) :
    Keeps c (c.completeCapabilityDiscovery tables generation) := by
  unfold completeCapabilityDiscovery
  split
  · exact .refl c
  · split_ifs
    · exact .refl c
    · dsimp only
      refine .after (keeps_publishFeedbacks ..) ?_
      exact .after (frame_publishPendingDmabufGlobals _ generation).1.keeps ⟨rfl, .of_eq rfl⟩

theorem keeps_callbackOnDone (c : GlobalContext) (tables : Bool) (callback : ℕ) :
    Keeps c (c.callbackOnDone tables callback).2 := by
  unfold callbackOnDone
  split
  · dsimp only
    refine .after (frame_maybeReclaimCapabilityGeneration ..).keeps ?_
    exact .after (keeps_completeCapabilityDiscovery ..) ⟨rfl, .of_eq rfl⟩
  · split
    · dsimp only
      split_ifs
      · exact ⟨rfl, .send rfl rfl⟩
      · exact ⟨rfl, .of_eq rfl⟩
    · exact .refl c

theorem keeps_createSyntheticFeedback (c : GlobalContext) (tables : Bool) (factory f : ℕ) :
    Keeps c (c.createSyntheticFeedback tables factory f).2 := by
  unfold createSyntheticFeedback
  split
  · exact ⟨rfl, .of_eq rfl⟩
  · dsimp only
    split_ifs
    · split
      · next hqueue => exact .after (keeps_queueSyntheticFeedback hqueue) ⟨rfl, .of_eq rfl⟩
      · exact ⟨rfl, .of_eq rfl⟩
    · exact ⟨rfl, .of_eq rfl⟩

theorem keeps_feedbackOnDestroy (c : GlobalContext) (f : ℕ) :
    Keeps c (c.feedbackOnDestroy f).2 := by
  unfold feedbackOnDestroy
  split
  · exact .after (frame_maybeReclaimCapabilityGeneration ..).keeps ⟨rfl, .of_eq rfl⟩
  · exact .refl c

theorem keeps_onBind {r n v g : ℕ} {i : Interface} {result : Action × GlobalContext}
    (hi : i ≠ .wlShm) (h : c.onBind r n i v g = some result) : Keeps c result.2 := by
  unfold onBind at h
  dsimp only at h
  split_ifs at h
  · rw [← Option.some.inj h]
    exact ⟨rfl, .of_eq rfl⟩
  · split at h
    · exact absurd rfl hi
    · rw [← Option.some.inj h]
      exact ⟨rfl, .of_eq rfl⟩
    · obtain ⟨c', hc', rfl⟩ := Option.map_eq_some_iff.mp h
      exact .after (frame_queueGtkShellCapabilityBarrier hc').keeps ⟨rfl, .of_eq rfl⟩
    · obtain ⟨c', hc', rfl⟩ := Option.map_eq_some_iff.mp h
      exact (frame_bindOnHost hc').keeps

/-- Requests other than those of `wl_shm` and its pools. -/
theorem keeps_requestStep {m : GlobalMessage} (h : c.requestStep m = some c')
    (hbind : ∀ r n v g, m ≠ .bind r n .wlShm v g)
    (hcreate : ∀ shm pool mapped, m ≠ .createPool shm pool mapped)
    (hdestroy : ∀ pool, m ≠ .destroyPool pool) (hrelease : ∀ shm, m ≠ .releaseShm shm) :
    Keeps c c' := by
  cases m with
  | getRegistry =>
    obtain ⟨-, h⟩ := guarded_eq_some h
    obtain ⟨result, hresult, rfl⟩ := Option.map_eq_some_iff.mp h
    exact (frame_onGetRegistry hresult).keeps
  | bind r n i v g =>
    obtain ⟨-, h⟩ := guarded_eq_some h
    obtain ⟨result, hresult, hsettle⟩ := Option.bind_eq_some_iff.mp h
    obtain ⟨-, rfl⟩ := settle_eq_some hsettle
    refine keeps_onBind (fun hi => ?_) hresult
    subst hi
    exact hbind r n v g rfl
  | destroyRegistry =>
    obtain ⟨-, h⟩ := guarded_eq_some h
    exact Option.some.inj h ▸ (frame_onDestroyRegistry c _).keeps
  | getFeedback =>
    obtain ⟨-, h⟩ := guarded_eq_some h
    obtain ⟨-, rfl⟩ := settle_eq_some h
    exact keeps_createSyntheticFeedback ..
  | destroyFeedback =>
    obtain ⟨-, h⟩ := guarded_eq_some h
    exact Option.some.inj h ▸
      (keeps_feedbackOnDestroy c _).trans (frame_queueLocalDeleteId _ _).keeps
  | destroyDmabuf =>
    obtain ⟨-, h⟩ := guarded_eq_some h
    exact Option.some.inj h ▸
      ((frame_dmabufOnDestroy c _).trans (frame_forwardDestructor _ _)).keeps
  | createPool shm pool mapped => exact absurd rfl (hcreate shm pool mapped)
  | destroyPool pool => exact absurd rfl (hdestroy pool)
  | releaseShm shm => exact absurd rfl (hrelease shm)
  | newObject =>
    obtain ⟨-, h⟩ := guarded_eq_some h
    exact (frame_mapNewId h).keeps
  | destroyObject =>
    obtain ⟨-, h⟩ := guarded_eq_some h
    exact Option.some.inj h ▸ (frame_forwardDestructor c _).keeps
  | _ => exact absurd h.symm (Option.some_ne_none c')

end GlobalContext

/-! ## The end of a binding -/

namespace ShmPart
variable {p q : ShmPart} {n : ℕ} {i : Interface}

theorem reset_eq (p : ShmPart) (n : ℕ) : p.reset n =
    if p.shmName = some n then (if p.dmabufName = some n then p.releaseDmabuf else p).releaseShm
    else if p.dmabufName = some n then p.releaseDmabuf else p := by
  have hname : (if p.dmabufName = some n then p.releaseDmabuf else p).shmName = p.shmName := by
    split_ifs <;> rfl
  unfold reset
  dsimp only
  rw [hname]

theorem reset_of_ne (hshm : p.shmName ≠ some n) :
    p.reset n = if p.dmabufName = some n then p.releaseDmabuf else p := by
  rw [reset_eq, if_neg hshm]

theorem reset_formats (p : ShmPart) (n : ℕ) :
    (p.reset n).guestFormats = p.guestFormats ∧ (p.reset n).pools = p.pools ∧
      (p.reset n).options = p.options := by
  rw [reset_eq]
  split_ifs <;> exact ⟨rfl, rfl, rfl⟩

theorem reset_stale (p : ShmPart) (n : ℕ) : p.staleObjects ⊆ (p.reset n).staleObjects ∧
    (∀ pool ∈ (p.reset n).stalePools, pool ∈ p.stalePools ∨ (p.pools.get pool).isSome = true) ∧
    (p.shmName = some n → ∀ g, (p.guestFormats.get g).isSome = true →
      g ∈ (p.reset n).staleObjects) := by
  have hkeys : ∀ {ν : Type} (t : Table ℕ ν) (k : ℕ), k ∈ t.keys ↔ (t.get k).isSome = true :=
    fun t k => (AList.lookup_isSome).symm
  by_cases hshm : p.shmName = some n
  · have hstale : (p.reset n).staleObjects = p.staleObjects ∪ p.guestFormats.keys.toFinset ∧
        (p.reset n).stalePools = p.stalePools ∪ p.pools.keys.toFinset := by
      rw [reset_eq, if_pos hshm]
      split_ifs <;> exact ⟨rfl, rfl⟩
    rw [hstale.1, hstale.2]
    refine ⟨Finset.subset_union_left, fun pool hpool => ?_, fun _ g hg => ?_⟩
    · rcases Finset.mem_union.mp hpool with h | h
      · exact .inl h
      · exact .inr ((hkeys _ _).mp (List.mem_toFinset.mp h))
    · exact Finset.mem_union_right _ (List.mem_toFinset.mpr ((hkeys _ _).mpr hg))
  · rw [reset_of_ne hshm]
    split_ifs <;> exact ⟨Finset.Subset.refl _, fun _ => .inl, fun h => absurd h hshm⟩

theorem rest_of_binds (h : p.Binds n i q) : q.guestFormats = p.guestFormats ∧
    q.pools = p.pools ∧ q.staleObjects = p.staleObjects ∧ q.stalePools = p.stalePools ∧
    q.hostFormats = p.hostFormats := by
  cases h <;> exact ⟨rfl, rfl, rfl, rfl, rfl⟩

theorem dmabufId_of_binds (h : p.Binds n i q) : q.dmabufId = p.dmabufId ∨
    p.dmabufId = none ∧ i = .zwpLinuxDmabufV1 ∧ p.options.shouldBindInternalDmabuf = true := by
  cases h with
  | dmabuf h hi hbind hid => exact .inr ⟨hid, hi, hbind⟩
  | shm => exact .inl rfl
  | none => exact .inl rfl

theorem bound_of_binds (h : p.Binds n i q) (hi : i = .zwpLinuxDmabufV1)
    (hbind : p.options.shouldBindInternalDmabuf = true) (hid : p.dmabufId = none) :
    q.dmabufId.isSome = true := by
  cases h with
  | dmabuf h => rfl
  | shm h hi' => exact absurd (hi.symm.trans hi') (by decide)
  | none hnot => exact absurd ⟨hi, hbind, hid⟩ hnot

end ShmPart

end Sommelier
