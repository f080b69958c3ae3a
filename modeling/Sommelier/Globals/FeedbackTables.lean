import Sommelier.Globals.Formats

/-!
# The tables of feedback objects

The guest learns the formats of the host from the table of a feedback object. A table is
replaced when the host reports a new format, but only once in a batch of messages.

## Main definitions

* `tableOf`: the last table of an object.
* `TablesCurrent`: each table lists what the proxy holds for the object's generation.
* `Coalesces`: a report for which no new table is made.
* `feedback_tables_current`: the tables are right as long as there is no such report.
-/
namespace Sommelier

/-- The table that an event sends to an object. -/
def GuestEvent.tableFor (f : ℕ) : GuestEvent → Option (List (ℕ × ℕ))
  | feedback f' pairs => if f' = f then some pairs else none
  | _ => none

/-- The last table that was sent to a feedback object. -/
def tableOf (f : ℕ) (events : List GuestEvent) : Option (List (ℕ × ℕ)) :=
  (sinceFreed f events).findSome? (GuestEvent.tableFor f)

/-- The last table of each feedback object of a generation that is ready lists the formats and
modifiers of the generation, in their order. -/
def TablesCurrent (c : GlobalContext) : Prop :=
  ∀ f generation capabilities, c.syntheticFeedbackObjects.get f = some generation →
    c.dmabufCapabilities.get generation = some capabilities → capabilities.ready = true →
    tableOf f c.guestEvents = some capabilities.formatModifiers

/-- A report of the host: the object it is sent to, the format and the modifier. -/
def GlobalMessage.report : GlobalMessage → Option (ℕ × ℕ × ℕ)
  | .dmabufFormat factory format _ => some (factory, format, drmFormatModInvalid)
  | .dmabufModifier factory format modifierHi modifierLo _ =>
    some (factory, format, modifierHi * 2 ^ 32 + modifierLo)
  | _ => none

/-- The host reports a new format to the proxy, whose generation is ready and has an object
that was sent a new table in this batch. -/
def Coalesces (c : GlobalContext) (m : GlobalMessage) : Prop :=
  ∃ factory pair generation capabilities f, m.report = some (factory, pair) ∧
    c.hostDmabufId = some factory ∧ isSupportedDrmFormat pair.1 = true ∧
    c.hostDmabufGeneration = some generation ∧
    c.dmabufCapabilities.get generation = some capabilities ∧ capabilities.ready = true ∧
    pair ∉ capabilities.formatModifiers ∧
    capabilities.formatModifiers.length < maxFeedbackFormats ∧
    c.syntheticFeedbackObjects.get f = some generation ∧
    f ∈ c.syntheticFeedbackRefreshPending

/-- Capabilities whose table lists them as they are. -/
structure DmabufCapabilityState.WellFormed (s : DmabufCapabilityState) : Prop where
  nodup : s.formatModifiers.Nodup
  supported : ∀ pair ∈ s.formatModifiers, isSupportedDrmFormat pair.1 = true
  bounded : s.formatModifiers.length ≤ maxFeedbackFormats

theorem DmabufCapabilityState.wellFormed_empty : DmabufCapabilityState.empty.WellFormed :=
  ⟨List.nodup_nil, nofun, Nat.zero_le _⟩

/-- One more format. -/
theorem DmabufCapabilityState.WellFormed.append {s : DmabufCapabilityState} (hs : s.WellFormed)
    {pair : ℕ × ℕ} (hpair : pair ∉ s.formatModifiers)
    (hsupported : isSupportedDrmFormat pair.1 = true)
    (hlength : s.formatModifiers.length < maxFeedbackFormats) :
    DmabufCapabilityState.WellFormed
      { s with formatModifiers := s.formatModifiers ++ [pair] } := by
  refine ⟨?_, fun p hp => ?_, ?_⟩
  · rw [List.nodup_append]
    refine ⟨hs.nodup, List.nodup_singleton _, fun p hp q hq => ?_⟩
    rw [List.mem_singleton.mp hq]
    rintro rfl
    exact hpair hp
  · rcases List.mem_append.mp hp with hp | hp
    · exact hs.supported p hp
    · exact List.mem_singleton.mp hp ▸ hsupported
  · rw [List.length_append, List.length_singleton]
    omega

/-- Filtering the pairs of a table changes nothing. -/
theorem foldl_pairs {pairs acc : List (ℕ × ℕ)} (hnodup : (acc ++ pairs).Nodup)
    (hsupported : ∀ pair ∈ pairs, isSupportedDrmFormat pair.1 = true)
    (hlength : (acc ++ pairs).length ≤ maxFeedbackFormats) :
    pairs.foldl (fun pairs pair =>
      if isSupportedDrmFormat pair.1 && !pairs.contains pair &&
          decide (pairs.length < maxFeedbackFormats) then pairs ++ [pair]
      else pairs) acc = acc ++ pairs := by
  induction pairs generalizing acc with
  | nil => exact (List.append_nil acc).symm
  | cons pair pairs ih =>
    have hpair : pair ∉ acc := fun h =>
      (List.nodup_append.mp hnodup).2.2 pair h pair (List.mem_cons_self ..) rfl
    have hlt : acc.length < maxFeedbackFormats := by
      rw [List.length_append, List.length_cons] at hlength
      omega
    have hstep : (isSupportedDrmFormat pair.1 && !acc.contains pair &&
        decide (acc.length < maxFeedbackFormats)) = true := by
      simp [hsupported pair (List.mem_cons_self ..), hpair, hlt]
    rw [List.foldl_cons, if_pos hstep]
    have happend : acc ++ pair :: pairs = acc ++ [pair] ++ pairs := by simp
    rw [happend] at hnodup hlength ⊢
    exact ih hnodup (fun p hp => hsupported p (List.mem_cons_of_mem _ hp)) hlength

theorem feedbackPairs_of_wellFormed {c : GlobalContext} {generation : ℕ}
    {s : DmabufCapabilityState} (h : c.dmabufCapabilities.get generation = some s)
    (hs : s.WellFormed) : c.feedbackPairs generation = s.formatModifiers := by
  unfold GlobalContext.feedbackPairs
  rw [h]
  dsimp only
  exact foldl_pairs hs.nodup hs.supported hs.bounded

/-- The invariant: what is in the tables, and what keeps their objects. -/
structure Tabled (c : GlobalContext) : Prop where
  known : ∀ f generation, c.syntheticFeedbackObjects.get f = some generation →
    c.shadowTable.interfaces.get f = some .zwpLinuxDmabufFeedbackV1 ∧
      c.shadowTable.guestToHost.get f = none
  wellFormed : ∀ generation s, c.dmabufCapabilities.get generation = some s → s.WellFormed
  current : TablesCurrent c

/-! ## Messages that send no table -/

theorem tableFor_eq_some {f : ℕ} {e : GuestEvent} {pairs : List (ℕ × ℕ)} :
    e.tableFor f = some pairs ↔ e = .feedback f pairs := by
  cases e with
  | feedback f' pairs' =>
    simp only [GuestEvent.tableFor, GuestEvent.feedback.injEq]
    split_ifs with h <;> simp [h]
  | _ => simp [GuestEvent.tableFor]

theorem tableOf_of_untold {f : ℕ} {told : List GuestEvent} (hfreed : .deleteId f ∉ told)
    (huntold : ∀ pairs, .feedback f pairs ∉ told) (events : List GuestEvent) :
    tableOf f (told ++ events) = tableOf f events := by
  have htold : told.findSome? (GuestEvent.tableFor f) = none := by
    rw [List.findSome?_eq_none_iff]
    intro e he
    rw [← Option.not_isSome_iff_eq_none, Option.isSome_iff_exists]
    rintro ⟨pairs, hpairs⟩
    exact huntold pairs (tableFor_eq_some.mp hpairs ▸ he)
  rw [tableOf, sinceFreed_append hfreed, List.findSome?_append, htold, Option.none_or]
  rfl

theorem tableOf_of_silent {f : ℕ} {told : List GuestEvent} (hfreed : .deleteId f ∉ told)
    (hsilent : ∀ e ∈ told, e.isTable = false) (events : List GuestEvent) :
    tableOf f (told ++ events) = tableOf f events :=
  tableOf_of_untold hfreed (fun _ hpairs => absurd (hsilent _ hpairs) Bool.true_eq_false.mp) events

theorem tableOf_of_told {f : ℕ} {told events : List GuestEvent} {pairs : List (ℕ × ℕ)}
    (hfreed : .deleteId f ∉ told) (hmem : .feedback f pairs ∈ told)
    (hsame : ∀ pairs', .feedback f pairs' ∈ told → pairs' = pairs) :
    tableOf f (told ++ events) = some pairs := by
  have htold : told.findSome? (GuestEvent.tableFor f) = some pairs := by
    cases hfirst : told.findSome? (GuestEvent.tableFor f) with
    | none =>
      have hnone := List.findSome?_eq_none_iff.mp hfirst _ hmem
      exact absurd (hnone.symm.trans (tableFor_eq_some.mpr rfl)) (Option.some_ne_none _).symm
    | some pairs' =>
      obtain ⟨e, he, heq⟩ := List.exists_of_findSome?_eq_some hfirst
      rw [hsame pairs' (tableFor_eq_some.mp heq ▸ he)]
  rw [tableOf, sinceFreed_append hfreed, List.findSome?_append, htold, Option.some_or]

theorem destroyed_feedback {m : GlobalMessage} {f : ℕ}
    (h : m.destroyed = some (f, .zwpLinuxDmabufFeedbackV1)) : m = .destroyFeedback f := by
  cases m with
  | destroyFeedback => exact congrArg _ (Prod.mk.inj (Option.some.inj h)).1
  | destroyPool | releaseShm => exact absurd (Prod.mk.inj (Option.some.inj h)).2 (by decide)
  | _ => cases h

namespace Tabled
variable {c c' : GlobalContext} {m : GlobalMessage}

/-- Objects that stay, and what was sent meanwhile. -/
theorem stays (hc : Tabled c) (hacts : GlobalContext.Acts c m c') {f generation : ℕ}
    (hm : m ≠ .destroyFeedback f) (hf : c.syntheticFeedbackObjects.get f = some generation) :
    c'.shadowTable.interfaces.get f = some .zwpLinuxDmabufFeedbackV1 ∧
      c'.shadowTable.guestToHost.get f = none ∧
      ∀ told, c'.guestEvents = told ++ c.guestEvents → .deleteId f ∉ told := by
  obtain ⟨hi, hg⟩ := hc.known f generation hf
  obtain ⟨hi', hg', hextends⟩ := hacts.effect.stays hi hg fun h => hm (destroyed_feedback h)
  exact ⟨hi', hg', fun told htold => not_freed (hextends 0) htold⟩

/-- Messages that send no table. -/
theorem untold (hc : Tabled c) (hacts : GlobalContext.Acts c m c')
    (hobjects : ∀ f generation, c'.syntheticFeedbackObjects.get f = some generation →
      c.syntheticFeedbackObjects.get f = some generation ∧ m ≠ .destroyFeedback f)
    (hcapabilities : ∀ g, c'.dmabufCapabilities.get g = c.dmabufCapabilities.get g ∨
      c'.dmabufCapabilities.get g = none ∨ c'.dmabufCapabilities.get g = some .empty)
    (hsilent : GlobalContext.Silent GuestEvent.isTable c c') : Tabled c' := by
  constructor
  case known =>
    intro f generation hf
    obtain ⟨hf, hm⟩ := hobjects f generation hf
    obtain ⟨hi, hg, -⟩ := hc.stays hacts hm hf
    exact ⟨hi, hg⟩
  case wellFormed =>
    intro generation s hs
    rcases hcapabilities generation with h | h | h
    · exact hc.wellFormed generation s (h.symm.trans hs)
    · exact absurd (hs.symm.trans h) (Option.some_ne_none s)
    · obtain rfl := Option.some.inj (hs.symm.trans h)
      exact DmabufCapabilityState.wellFormed_empty
  case current =>
    intro f generation s hf hs hready
    obtain ⟨hf, hm⟩ := hobjects f generation hf
    obtain ⟨told, hevents, hsilent⟩ := hsilent
    obtain ⟨-, -, hfreed⟩ := hc.stays hacts hm hf
    rw [hevents, tableOf_of_silent (hfreed told hevents) hsilent]
    rcases hcapabilities generation with h | h | h
    · exact hc.current f generation s hf (h.symm.trans hs) hready
    · exact absurd (hs.symm.trans h) (Option.some_ne_none s)
    · obtain rfl := Option.some.inj (hs.symm.trans h)
      exact absurd hready Bool.false_ne_true

/-- Messages that leave the feedback objects alone. -/
theorem quiet (hc : Tabled c) (hacts : GlobalContext.Acts c m c')
    (htables : GlobalContext.Tables c c') (hm : ∀ f, m ≠ .destroyFeedback f) : Tabled c' :=
  hc.untold hacts (fun f _ hf => ⟨htables.objects ▸ hf, hm f⟩) htables.capabilities htables.silent

/-- Messages that send the objects of one generation their table. -/
theorem told (hc : Tabled c) (hacts : GlobalContext.Acts c m c') (hm : ∀ f, m ≠ .destroyFeedback f)
    {generation : ℕ} {s : DmabufCapabilityState} (hs : s.WellFormed)
    (hobjects : c'.syntheticFeedbackObjects = c.syntheticFeedbackObjects)
    (hcapabilities : ∀ g s', c'.dmabufCapabilities.get g = some s' →
      g = generation ∧ s' = s ∨ g ≠ generation ∧ c.dmabufCapabilities.get g = some s' ∨ s' = .empty)
    {told : List GuestEvent} (hevents : c'.guestEvents = told ++ c.guestEvents)
    (htold : ∀ f pairs, .feedback f pairs ∈ told →
      c.syntheticFeedbackObjects.get f = some generation ∧ pairs = s.formatModifiers)
    (hall : s.ready = true → ∀ f, c.syntheticFeedbackObjects.get f = some generation →
      .feedback f s.formatModifiers ∈ told) : Tabled c' := by
  constructor
  case known =>
    intro f g hf
    rw [hobjects] at hf
    obtain ⟨hi, hg, -⟩ := hc.stays hacts (hm f) hf
    exact ⟨hi, hg⟩
  case wellFormed =>
    intro g s' hs'
    rcases hcapabilities g s' hs' with ⟨-, rfl⟩ | ⟨-, hs'⟩ | rfl
    · exact hs
    · exact hc.wellFormed g s' hs'
    · exact DmabufCapabilityState.wellFormed_empty
  case current =>
    intro f g s' hf hs' hready
    rw [hobjects] at hf
    obtain ⟨-, -, hfreed⟩ := hc.stays hacts (hm f) hf
    rw [hevents]
    rcases hcapabilities g s' hs' with ⟨rfl, rfl⟩ | ⟨hne, hs'⟩ | rfl
    · refine tableOf_of_told (hfreed told hevents) (hall hready f hf) fun pairs hpairs => ?_
      exact (htold f pairs hpairs).2
    · refine (tableOf_of_untold (hfreed told hevents) (fun pairs hpairs => hne ?_) _).trans
        (hc.current f g s' hf hs' hready)
      exact Option.some.inj (hf.symm.trans (htold f pairs hpairs).1)
    · exact absurd hready Bool.false_ne_true

end Tabled

namespace GlobalContext
variable {c c' : GlobalContext}

theorem tables_advertiseShmFormat (format : ℕ) (c : GlobalContext) (g : ℕ) :
    Tables c (advertiseShmFormat format c g) := by
  unfold advertiseShmFormat
  split_ifs
  · exact .refl c
  · split
    · exact .refl c
    · split_ifs
      · exact .refl c
      · exact ⟨rfl, fun _ => .inl rfl, .send rfl rfl⟩

theorem Tables.foldl {α : Type} {f : GlobalContext → α → GlobalContext}
    (hf : ∀ c a, Tables c (f c a)) (as : List α) (c : GlobalContext) :
    Tables c (as.foldl f c) := by
  induction as generalizing c with
  | nil => exact .refl c
  | cons a as ih => exact (hf c a).trans (ih (f c a))

theorem tables_recordHostShmFormat (c : GlobalContext) (format : ℕ) :
    Tables c (c.recordHostShmFormat format) := by
  unfold recordHostShmFormat
  split_ifs
  · exact .refl c
  · dsimp only
    exact .after (.foldl (tables_advertiseShmFormat format) _ _) (.of_eq rfl rfl rfl)

theorem tables_recordHostShmWlFormat (c : GlobalContext) (format : ℕ) :
    Tables c (c.recordHostShmWlFormat format) := by
  unfold recordHostShmWlFormat
  refine Tables.trans ?_ (tables_recordHostShmFormat _ format)
  split_ifs
  · exact .of_eq rfl rfl rfl
  · exact .refl c

theorem tables_registerGuestShm (c : GlobalContext) (g : ℕ) : Tables c (c.registerGuestShm g) := by
  have hsend : ∀ (c : GlobalContext) (format : ℕ), Tables c (c.sendGuest (.shmFormat g format)) :=
    fun _ _ => ⟨rfl, fun _ => .inl rfl, .send rfl rfl⟩
  unfold registerGuestShm
  dsimp only
  exact .after (.foldl hsend _ _) (.of_eq rfl rfl rfl)

theorem tables_onBind {r n v g : ℕ} {i : Interface} {result : Action × GlobalContext}
    (h : c.onBind r n i v g = some result) : Tables c result.2 := by
  unfold onBind at h
  dsimp only at h
  split_ifs at h
  · rw [← Option.some.inj h]
    exact .of_eq rfl rfl rfl
  · split at h
    · rw [← Option.some.inj h]
      exact .after (tables_registerGuestShm _ g) (.of_eq rfl rfl rfl)
    · rw [← Option.some.inj h]
      exact .of_eq rfl rfl rfl
    · obtain ⟨c', hc', rfl⟩ := Option.map_eq_some_iff.mp h
      exact .after (frame_queueGtkShellCapabilityBarrier hc').toTables (.of_eq rfl rfl rfl)
    · obtain ⟨c', hc', rfl⟩ := Option.map_eq_some_iff.mp h
      exact (frame_bindOnHost hc').toTables

theorem tables_onCreatePool (c : GlobalContext) (shm pool : ℕ) (mapped : Bool) :
    Tables c (c.onCreatePool shm pool mapped).2 := by
  unfold onCreatePool
  split_ifs
  · exact .refl c
  · exact .of_eq rfl rfl rfl
  · exact .of_eq rfl rfl rfl

/-- Requests other than those of feedback objects. -/
theorem tables_requestStep {m : GlobalMessage} (h : c.requestStep m = some c')
    (hget : ∀ factory f tables, m ≠ .getFeedback factory f tables)
    (hdestroy : ∀ f, m ≠ .destroyFeedback f) : Tables c c' := by
  cases m with
  | getRegistry =>
    obtain ⟨-, h⟩ := guarded_eq_some h
    obtain ⟨result, hresult, rfl⟩ := Option.map_eq_some_iff.mp h
    exact (frame_onGetRegistry hresult).toTables
  | bind =>
    obtain ⟨-, h⟩ := guarded_eq_some h
    obtain ⟨result, hresult, hsettle⟩ := Option.bind_eq_some_iff.mp h
    obtain ⟨-, rfl⟩ := settle_eq_some hsettle
    exact tables_onBind hresult
  | destroyRegistry =>
    obtain ⟨-, h⟩ := guarded_eq_some h
    exact Option.some.inj h ▸ (frame_onDestroyRegistry c _).toTables
  | getFeedback factory f tables => exact absurd rfl (hget factory f tables)
  | destroyFeedback f => exact absurd rfl (hdestroy f)
  | destroyDmabuf =>
    obtain ⟨-, h⟩ := guarded_eq_some h
    exact Option.some.inj h ▸
      ((frame_dmabufOnDestroy c _).trans (frame_forwardDestructor _ _)).toTables
  | createPool =>
    obtain ⟨-, h⟩ := guarded_eq_some h
    obtain ⟨-, rfl⟩ := settle_eq_some h
    exact tables_onCreatePool c _ _ _
  | destroyPool =>
    obtain ⟨-, h⟩ := guarded_eq_some h
    exact Option.some.inj h ▸
      .after (frame_queueLocalDeleteId _ _).toTables (.of_eq rfl rfl rfl)
  | releaseShm =>
    obtain ⟨-, h⟩ := guarded_eq_some h
    exact Option.some.inj h ▸
      .after (frame_queueLocalDeleteId _ _).toTables (.of_eq rfl rfl rfl)
  | newObject =>
    obtain ⟨-, h⟩ := guarded_eq_some h
    exact (frame_mapNewId h).toTables
  | destroyObject =>
    obtain ⟨-, h⟩ := guarded_eq_some h
    exact Option.some.inj h ▸ (frame_forwardDestructor c _).toTables
  | _ => exact absurd h.symm (Option.some_ne_none c')

/-- Events other than reports to the proxy and answers to its callbacks. -/
theorem tables_eventStep {m : GlobalMessage} (h : c.eventStep m = some c')
    (hreport : m.report = none) (hdone : ∀ h tables, m ≠ .callbackDone h tables) : Tables c c' := by
  cases m with
  | global =>
    rcases deliver_eq_some h with ⟨rfl, -⟩ | ⟨-, -, h⟩
    · exact .refl c'
    obtain ⟨result, hresult, rfl⟩ := Option.map_eq_some_iff.mp h
    refine Tables.trans ?_ (frame_forwardEvent (fun _ => rfl) fun _ => rfl).toTables
    rcases changes_onGlobal hresult with ⟨-, heq⟩ | ⟨-, -, p, hp, -⟩
    · rw [heq]
      exact .refl c
    · exact hp.toTables
  | globalRemove =>
    rcases deliver_eq_some h with ⟨rfl, -⟩ | ⟨-, -, h⟩
    · exact .refl c'
    rw [← Option.some.inj h]
    refine Tables.trans ?_ (frame_forwardEvent (fun _ => rfl) fun _ => rfl).toTables
    obtain ⟨p, hp, -⟩ := changes_onGlobalRemove c _ _
    exact hp.toTables
  | shmFormat shm format =>
    rcases deliver_eq_some h with ⟨rfl, -⟩ | ⟨-, -, h⟩
    · exact .refl c'
    rw [← Option.some.inj h]
    have hsend : ∀ result : Action × GlobalContext, Tables c result.2 →
        Tables c (forwardEvent result shm fun guestId => .shmFormat guestId format) := by
      intro result hresult
      unfold forwardEvent
      split
      · exact hresult.trans ⟨rfl, fun _ => .inl rfl, .send rfl rfl⟩
      · exact hresult
    refine hsend _ ?_
    unfold shmOnFormat
    split_ifs
    · exact tables_recordHostShmWlFormat c format
    · exact .refl c
  | deleteId => exact Option.some.inj h ▸ (frame_onDeleteId c _).toTables
  | endBatch => exact Option.some.inj h ▸ .of_eq rfl rfl rfl
  | dmabufFormat | dmabufModifier => cases hreport
  | callbackDone callback tables => exact absurd rfl (hdone callback tables)
  | _ => exact absurd h.symm (Option.some_ne_none c')

/-! ## Messages that send tables -/

theorem mem_feedbackIds {generation f : ℕ} :
    f ∈ c.feedbackIds generation ↔ c.syntheticFeedbackObjects.get f = some generation := by
  simp only [feedbackIds, List.mem_map, List.mem_filter, beq_iff_eq]
  constructor
  · rintro ⟨⟨f', g⟩, ⟨he, rfl⟩, rfl⟩
    exact (Table.mem_entries _ _ _).mp he
  · intro hf
    exact ⟨⟨f, generation⟩, ⟨(Table.mem_entries _ _ _).mpr hf, rfl⟩, rfl⟩

theorem nodup_feedbackIds (c : GlobalContext) (generation : ℕ) :
    (c.feedbackIds generation).Nodup := by
  have hkeys : (c.syntheticFeedbackObjects.entries.map (·.1)).Nodup :=
    c.syntheticFeedbackObjects.nodupKeys
  exact hkeys.sublist (List.filter_sublist.map _)

/-- Each object gets the same table. -/
def tablesFor (c : GlobalContext) (generation : ℕ) (fs : List ℕ) : List GuestEvent :=
  (fs.map fun f => .feedback f (c.feedbackPairs generation)).reverse

theorem feedback_mem_tablesFor {generation f : ℕ} {fs : List ℕ} {pairs : List (ℕ × ℕ)} :
    .feedback f pairs ∈ c.tablesFor generation fs ↔
      f ∈ fs ∧ pairs = c.feedbackPairs generation := by
  simp only [tablesFor, List.mem_reverse, List.mem_map, GuestEvent.feedback.injEq]
  constructor
  · rintro ⟨f', hf', rfl, rfl⟩
    exact ⟨hf', rfl⟩
  · rintro ⟨hf, rfl⟩
    exact ⟨f, hf, rfl, rfl⟩

/-- Sending tables to all objects changes nothing else, unless the session fails. -/
theorem publishFeedbacks_eq (tables : Bool) (generation : ℕ) (fs : List ℕ) (c : GlobalContext)
    (h : (publishFeedbacks tables generation fs c).fatalProtocolError = false) :
    publishFeedbacks tables generation fs c =
      { c with guestEvents := c.tablesFor generation fs ++ c.guestEvents } := by
  induction fs generalizing c with
  | nil => rfl
  | cons f fs ih =>
    unfold publishFeedbacks at h ⊢
    split at h
    · next c₁ hqueue =>
      unfold queueSyntheticFeedback at hqueue
      dsimp only at hqueue
      split_ifs at hqueue
      obtain rfl := Option.some.inj hqueue
      rw [ih _ h]
      simp [tablesFor, sendGuest, feedbackPairs]
    · exact absurd h Bool.true_eq_false.mp

theorem refreshFeedbacks_eq (tables : Bool) (generation : ℕ) (fs : List ℕ) (c : GlobalContext)
    (hnodup : fs.Nodup) (hpending : ∀ f ∈ fs, f ∉ c.syntheticFeedbackRefreshPending)
    (h : (refreshFeedbacks tables generation fs c).fatalProtocolError = false) :
    ∃ pending, refreshFeedbacks tables generation fs c =
      { c with
        guestEvents := c.tablesFor generation fs ++ c.guestEvents
        syntheticFeedbackRefreshPending := pending } := by
  induction fs generalizing c with
  | nil => exact ⟨_, rfl⟩
  | cons f fs ih =>
    unfold refreshFeedbacks at h ⊢
    rw [if_neg (hpending f (List.mem_cons_self ..))] at h ⊢
    dsimp only at h ⊢
    split at h
    · next c₁ hqueue =>
      unfold queueSyntheticFeedback at hqueue
      dsimp only at hqueue
      split_ifs at hqueue
      obtain rfl := Option.some.inj hqueue
      obtain ⟨hf, hnodup⟩ := List.nodup_cons.mp hnodup
      have hpending' : ∀ f' ∈ fs, f' ∉ insert f c.syntheticFeedbackRefreshPending := by
        intro f' hf' hmem
        rcases Finset.mem_insert.mp hmem with rfl | hmem
        · exact hf hf'
        · exact hpending f' (List.mem_cons_of_mem _ hf') hmem
      obtain ⟨pending, heq⟩ := ih _ hnodup hpending' h
      refine ⟨pending, heq.trans ?_⟩
      simp [tablesFor, sendGuest, feedbackPairs]
    · exact absurd h Bool.true_eq_false.mp

/-- What a report changes besides the pairs. -/
structure Recorded (c c' : GlobalContext) : Prop where
  tables : Tables c c'
  capabilities : c'.dmabufCapabilities = c.dmabufCapabilities
  generation : c'.hostDmabufGeneration = c.hostDmabufGeneration
  pending : c'.syntheticFeedbackRefreshPending = c.syntheticFeedbackRefreshPending

theorem Recorded.refl (c : GlobalContext) : Recorded c c := ⟨.refl c, rfl, rfl, rfl⟩

theorem Recorded.trans {c₁ : GlobalContext} (h : Recorded c c₁) (h' : Recorded c₁ c') :
    Recorded c c' :=
  ⟨h.tables.trans h'.tables, h'.capabilities.trans h.capabilities,
    h'.generation.trans h.generation, h'.pending.trans h.pending⟩

theorem Recorded.after {c₁ : GlobalContext} (h' : Recorded c₁ c') (h : Recorded c c₁) :
    Recorded c c' := h.trans h'

theorem recorded_advertiseShmFormat (format : ℕ) (c : GlobalContext) (g : ℕ) :
    Recorded c (advertiseShmFormat format c g) := by
  refine ⟨tables_advertiseShmFormat format c g, ?_, ?_, ?_⟩
  all_goals
    unfold advertiseShmFormat
    split_ifs
    · rfl
    · split
      · rfl
      · split_ifs <;> rfl

theorem recorded_recordHostShmFormat (c : GlobalContext) (format : ℕ) :
    Recorded c (c.recordHostShmFormat format) := by
  have hfold : ∀ (gs : List ℕ) (c : GlobalContext),
      Recorded c (gs.foldl (advertiseShmFormat format) c) := by
    intro gs
    induction gs with
    | nil => exact .refl
    | cons g gs ih => exact fun c => (recorded_advertiseShmFormat format c g).trans (ih _)
  unfold recordHostShmFormat
  split_ifs
  · exact .refl c
  · dsimp only
    exact .after (hfold _ _) ⟨.of_eq rfl rfl rfl, rfl, rfl, rfl⟩

theorem recorded_recordHostShmDrmFormat (c : GlobalContext) (format : ℕ) :
    Recorded c (c.recordHostShmDrmFormat format) := by
  unfold recordHostShmDrmFormat
  split
  · exact .refl c
  · exact .after (recorded_recordHostShmFormat _ _) ⟨.of_eq rfl rfl rfl, rfl, rfl, rfl⟩

theorem recordPair_eq (c : GlobalContext) (pair : ℕ × ℕ) :
    Tables c (c.recordPair pair).2 ∧ (c.recordPair pair).1 = false ∨
      ∃ generation capabilities, c.hostDmabufGeneration = some generation ∧
        (c.dmabufCapabilities.get generation).getD .empty = capabilities ∧
        capabilities.formatModifiers.length < maxFeedbackFormats ∧
        pair ∉ capabilities.formatModifiers ∧
        c.recordPair pair = (true, { c with
          dmabufCapabilities := c.dmabufCapabilities.set generation
            { capabilities with formatModifiers := capabilities.formatModifiers ++ [pair] } }) := by
  unfold recordPair
  split
  · exact .inl ⟨.refl c, rfl⟩
  · next generation hgeneration =>
    dsimp only
    split_ifs with hnew
    · simp only [Bool.and_eq_true, decide_eq_true_eq, Bool.not_eq_true', List.contains_eq_mem,
        decide_eq_false_iff_not] at hnew
      exact .inr ⟨generation, _, hgeneration, rfl, hnew.1, hnew.2, rfl⟩
    · refine .inl ⟨⟨rfl, fun g => ?_, .of_eq rfl⟩, rfl⟩
      simp only [Table.get_set]
      split_ifs with hg
      · subst hg
        cases hs : c.dmabufCapabilities.get g with
        | none => exact .inr (.inr rfl)
        | some s => exact .inl rfl
      · exact .inl rfl

theorem frame_publishPendingDmabufGlobals (c : GlobalContext) (generation : ℕ) :
    Frame c (c.publishPendingDmabufGlobals generation) ∧
      (c.publishPendingDmabufGlobals generation).dmabufCapabilities = c.dmabufCapabilities := by
  have hone : ∀ (c : GlobalContext) p, Frame c (publishPendingDmabufGlobal generation c p) ∧
      (publishPendingDmabufGlobal generation c p).dmabufCapabilities = c.dmabufCapabilities := by
    intro c p
    unfold publishPendingDmabufGlobal
    split_ifs
    · exact ⟨frame_offerGlobal c p.registryHostId p.name .zwpLinuxDmabufV1 p.version, rfl⟩
    · exact ⟨.refl c, rfl⟩
  have hfold : ∀ (ps : List PendingDmabufGlobal) (c : GlobalContext),
      Frame c (ps.foldl (publishPendingDmabufGlobal generation) c) ∧
        (ps.foldl (publishPendingDmabufGlobal generation) c).dmabufCapabilities =
          c.dmabufCapabilities := by
    intro ps
    induction ps with
    | nil => exact fun c => ⟨.refl c, rfl⟩
    | cons p ps ih =>
      intro c
      have hfirst := hone c p
      have hrest := ih (publishPendingDmabufGlobal generation c p)
      exact ⟨hfirst.1.trans hrest.1, hrest.2.trans hfirst.2⟩
  unfold publishPendingDmabufGlobals
  dsimp only
  split_ifs
  · have hall := hfold (c.pendingDmabufGlobals.filter (·.generation == generation)) { c with
      pendingDmabufGlobals := c.pendingDmabufGlobals.filter (·.generation != generation) }
    exact ⟨.after hall.1 (.of_eq rfl rfl rfl rfl), hall.2⟩
  · exact ⟨.of_eq rfl rfl rfl rfl, rfl⟩

theorem fatal_maybeReclaimCapabilityGeneration (c : GlobalContext) (g : ℕ) :
    (c.maybeReclaimCapabilityGeneration g).fatalProtocolError = c.fatalProtocolError := by
  unfold maybeReclaimCapabilityGeneration
  split_ifs <;> rfl

end GlobalContext

namespace Tabled
open GlobalContext
variable {c c' : GlobalContext}

/-- All objects of a generation get its table, between messages that send none. -/
theorem published (hc : Tabled c) (hacts : Acts c m c') (hm : ∀ f, m ≠ .destroyFeedback f)
    {c₁ c₂ : GlobalContext} {generation : ℕ} {s : DmabufCapabilityState} (hs : s.WellFormed)
    (hget : c₁.dmabufCapabilities.get generation = some s)
    (hother : ∀ g s', g ≠ generation → c₁.dmabufCapabilities.get g = some s' →
      c.dmabufCapabilities.get g = some s')
    (hobjects : c₁.syntheticFeedbackObjects = c.syntheticFeedbackObjects)
    (hbefore : Silent GuestEvent.isTable c c₁)
    (hcapabilities : c₂.dmabufCapabilities = c₁.dmabufCapabilities)
    (hobjects₂ : c₂.syntheticFeedbackObjects = c₁.syntheticFeedbackObjects)
    (hevents : c₂.guestEvents =
      c₁.tablesFor generation (c₁.feedbackIds generation) ++ c₁.guestEvents)
    (hafter : Tables c₂ c') : Tabled c' := by
  obtain ⟨told₁, hevents₁, hsilent₁⟩ := hbefore
  obtain ⟨told₂, hevents₂, hsilent₂⟩ := hafter.silent
  have hpairs := feedbackPairs_of_wellFormed hget hs
  rw [hevents₁] at hevents
  rw [hevents, ← List.append_assoc, ← List.append_assoc] at hevents₂
  have hall : ∀ g s', c'.dmabufCapabilities.get g = some s' →
      g = generation ∧ s' = s ∨ g ≠ generation ∧ c.dmabufCapabilities.get g = some s' ∨
        s' = .empty := by
    intro g s' hs'
    rcases hafter.capabilities g with h | h | h
    · have hs₁ : c₁.dmabufCapabilities.get g = some s' := hcapabilities ▸ h.symm.trans hs'
      by_cases hg : g = generation
      · subst hg
        exact .inl ⟨rfl, Option.some.inj (hs₁.symm.trans hget)⟩
      · exact .inr (.inl ⟨hg, hother g s' hg hs₁⟩)
    · exact absurd (hs'.symm.trans h) (Option.some_ne_none s')
    · exact .inr (.inr (Option.some.inj (hs'.symm.trans h)))
  refine hc.told hacts hm hs (hafter.objects.trans (hobjects₂.trans hobjects)) hall hevents₂ ?_ ?_
  · intro f pairs hmem
    rcases List.mem_append.mp hmem with hmem | hmem
    · rcases List.mem_append.mp hmem with hmem | hmem
      · exact absurd (hsilent₂ _ hmem) Bool.true_eq_false.mp
      · obtain ⟨hf, rfl⟩ := feedback_mem_tablesFor.mp hmem
        exact ⟨hobjects ▸ mem_feedbackIds.mp hf, hpairs⟩
    · exact absurd (hsilent₁ _ hmem) Bool.true_eq_false.mp
  · intro _ f hf
    refine List.mem_append_left _ (List.mem_append_right _ ?_)
    exact feedback_mem_tablesFor.mpr ⟨mem_feedbackIds.mpr (hobjects.symm ▸ hf), hpairs.symm⟩

/-- The host has sent all formats of a generation. -/
theorem callbackDone {callback : ℕ} {tables : Bool} (hc : Tabled c)
    (hacts : Acts c (.callbackDone callback tables) c')
    (h : c.eventStep (.callbackDone callback tables) = some c') : Tabled c' := by
  have hm : ∀ f, GlobalMessage.callbackDone callback tables ≠ .destroyFeedback f := fun _ => nofun
  rcases GlobalContext.deliver_eq_some h with ⟨rfl, -⟩ | ⟨-, -, h⟩
  · exact hc
  obtain ⟨hfatal, rfl⟩ := GlobalContext.settle_eq_some h
  revert hfatal hacts
  unfold callbackOnDone
  split
  swap
  · -- the callback of a shell, or of nothing
    intro _ hacts
    refine hc.quiet hacts ?_ hm
    split
    · dsimp only
      split_ifs
      · exact .after (frame_sendGuest _ rfl rfl).toTables (.of_eq rfl rfl rfl)
      · exact .of_eq rfl rfl rfl
    · exact .refl c
  next generation _ =>
  dsimp only
  generalize hc₁ : { c with
    dmabufCapabilityCallbacks := c.dmabufCapabilityCallbacks.erase callback
    shadowTable := (c.shadowTable.markPendingDestroyHost callback).2 : GlobalContext } = c₁
  have hframe : Frame c c₁ := hc₁ ▸ .of_eq rfl rfl rfl rfl
  have hsame : c₁.dmabufCapabilities = c.dmabufCapabilities := hc₁ ▸ rfl
  intro hfatal hacts
  rw [fatal_maybeReclaimCapabilityGeneration] at hfatal
  have hreclaim := frame_maybeReclaimCapabilityGeneration
    (c₁.completeCapabilityDiscovery tables generation) generation
  by_cases heq : c₁.completeCapabilityDiscovery tables generation = c₁
  · refine hc.quiet hacts (hframe.toTables.trans ?_) hm
    have hreclaim := hreclaim.toTables
    rw [heq] at hreclaim ⊢
    exact hreclaim
  cases hs : c₁.dmabufCapabilities.get generation with
  | none =>
    refine absurd ?_ heq
    simp only [completeCapabilityDiscovery, hs]
  | some s =>
    by_cases hready : s.ready = true
    · refine absurd ?_ heq
      simp only [completeCapabilityDiscovery, hs, hready, if_true]
    generalize hc₂ : { c₁ with
      dmabufCapabilities :=
        c₁.dmabufCapabilities.set generation { s with ready := true } : GlobalContext } = c₂
    obtain ⟨hpublish, hcapabilities⟩ := frame_publishPendingDmabufGlobals c₂ generation
    generalize hc₃ : c₂.publishPendingDmabufGlobals generation = c₃ at hpublish hcapabilities
    have hcomplete : c₁.completeCapabilityDiscovery tables generation =
        publishFeedbacks tables generation (c₃.feedbackIds generation) c₃ := by
      simp only [completeCapabilityDiscovery, hs, hready, hc₂, hc₃]
      rfl
    rw [hcomplete] at hfatal hreclaim hacts ⊢
    have hpublished := publishFeedbacks_eq _ _ _ _ hfatal
    generalize publishFeedbacks tables generation (c₃.feedbackIds generation) c₃ = c₄
      at hpublished hreclaim hacts ⊢
    have hset : c₃.dmabufCapabilities =
        c.dmabufCapabilities.set generation { s with ready := true } := by
      rw [hcapabilities, ← hc₂, ← hsame]
    have hs' : s.WellFormed := hc.wellFormed generation s (hsame ▸ hs)
    have hnow : c₃.dmabufCapabilities.get generation = some { s with ready := true } := by
      rw [hset, Table.get_set, if_pos rfl]
    have hwell : { s with ready := true : DmabufCapabilityState }.WellFormed :=
      ⟨hs'.nodup, hs'.supported, hs'.bounded⟩
    refine hc.published hacts hm hwell hnow ?_ ?_ ?_ (hpublished ▸ rfl) (hpublished ▸ rfl)
      (hpublished ▸ rfl) hreclaim.toTables
    · intro g s' hg hget
      rw [hset, Table.get_set, if_neg hg] at hget
      exact hget
    · exact hpublish.objects.trans (hc₂ ▸ hframe.objects)
    · have hset' : Silent GuestEvent.isTable c c₂ := hframe.silent.trans (hc₂ ▸ .of_eq rfl)
      exact hset'.trans hpublish.silent

/-- A new format or modifier that all objects are told of. -/
theorem recorded {c₁ : GlobalContext} {tables : Bool} {pair : ℕ × ℕ} (hc : Tabled c)
    (hrecorded : Recorded c c₁) (hsupported : isSupportedDrmFormat pair.1 = true)
    (hpending : ∀ generation capabilities f, c.hostDmabufGeneration = some generation →
      c.dmabufCapabilities.get generation = some capabilities → capabilities.ready = true →
      capabilities.formatModifiers.length < maxFeedbackFormats →
      pair ∉ capabilities.formatModifiers →
      c.syntheticFeedbackObjects.get f = some generation → f ∉ c.syntheticFeedbackRefreshPending)
    (hm : ∀ f, m ≠ .destroyFeedback f)
    (heq : c' = if (c₁.recordPair pair).1 then
      (c₁.recordPair pair).2.refreshSyntheticFeedbacks tables else (c₁.recordPair pair).2)
    (hfatal : c'.fatalProtocolError = false) (hacts : Acts c m c') : Tabled c' := by
  rcases recordPair_eq c₁ pair with ⟨hquiet, hfalse⟩ | ⟨generation, s, hgeneration, hs, hlt, hpair,
    hnew⟩
  · rw [hfalse] at heq
    exact heq ▸ hc.quiet (heq ▸ hacts) (hrecorded.tables.trans hquiet) hm
  rw [hnew, if_pos rfl] at heq
  rw [hrecorded.capabilities] at hs
  have hwell : s.WellFormed := by
    cases hget : c.dmabufCapabilities.get generation with
    | none => exact hs ▸ hget ▸ DmabufCapabilityState.wellFormed_empty
    | some s' =>
      rw [hget] at hs
      exact hs ▸ hc.wellFormed generation s' hget
  have hwell' := hwell.append hpair hsupported hlt
  generalize hc₂ : { c₁ with
    dmabufCapabilities := c₁.dmabufCapabilities.set generation
      { s with formatModifiers := s.formatModifiers ++ [pair] } : GlobalContext } = c₂ at heq
  have hget : c₂.dmabufCapabilities.get generation =
      some { s with formatModifiers := s.formatModifiers ++ [pair] } := by
    rw [← hc₂, Table.get_set, if_pos rfl]
  have hother : ∀ g s', g ≠ generation → c₂.dmabufCapabilities.get g = some s' →
      c.dmabufCapabilities.get g = some s' := by
    intro g s' hg hs'
    rw [← hc₂, Table.get_set, if_neg hg, hrecorded.capabilities] at hs'
    exact hs'
  have hobjects : c₂.syntheticFeedbackObjects = c.syntheticFeedbackObjects :=
    hc₂ ▸ hrecorded.tables.objects
  have hsilent : Silent GuestEvent.isTable c c₂ := hrecorded.tables.silent.trans (hc₂ ▸ .of_eq rfl)
  unfold refreshSyntheticFeedbacks at heq
  rw [show c₂.hostDmabufGeneration = some generation from hc₂ ▸ hgeneration] at heq
  dsimp only at heq
  rw [hget, Option.any_some] at heq
  by_cases hready : s.ready = true
  · rw [if_pos hready] at heq
    have hs : c.dmabufCapabilities.get generation = some s := by
      cases hget : c.dmabufCapabilities.get generation with
      | none =>
        rw [hget] at hs
        subst hs
        exact absurd hready Bool.false_ne_true
      | some s' =>
        rw [hget] at hs
        exact congrArg some hs
    have hfree : ∀ f ∈ c₂.feedbackIds generation, f ∉ c₂.syntheticFeedbackRefreshPending := by
      intro f hf
      rw [← hc₂, show _ = c.syntheticFeedbackRefreshPending from hrecorded.pending]
      exact hpending generation s f (hrecorded.generation ▸ hgeneration) hs hready hlt hpair
        (hobjects ▸ mem_feedbackIds.mp hf)
    obtain ⟨pending, hrefresh⟩ := refreshFeedbacks_eq tables generation _ c₂
      (nodup_feedbackIds c₂ generation) hfree (heq ▸ hfatal)
    rw [hrefresh] at heq
    refine hc.published hacts hm hwell' hget hother hobjects hsilent ?_ ?_ ?_ (.refl c')
    · rw [heq]
    · rw [heq]
    · rw [heq]
  · rw [if_neg hready] at heq
    subst heq
    obtain ⟨told, hevents, hsilent⟩ := hsilent
    have hall : ∀ g s', c'.dmabufCapabilities.get g = some s' →
        g = generation ∧ s' = { s with formatModifiers := s.formatModifiers ++ [pair] } ∨
          g ≠ generation ∧ c.dmabufCapabilities.get g = some s' ∨ s' = .empty := by
      intro g s' hs'
      by_cases hg : g = generation
      · subst hg
        exact .inl ⟨rfl, Option.some.inj (hs'.symm.trans hget)⟩
      · exact .inr (.inl ⟨hg, hother g s' hg hs'⟩)
    refine hc.told hacts hm hwell' hobjects hall hevents (fun f pairs hmem => ?_)
      fun h => absurd h hready
    exact absurd (hsilent _ hmem) Bool.true_eq_false.mp

/-- The report of a format or of a modifier. -/
theorem onReport {tables : Bool} {factory format modifier : ℕ} {e : ℕ → GuestEvent}
    (hc : Tabled c) (hm : ∀ f, m ≠ .destroyFeedback f)
    (hreport : m.report = some (factory, format, modifier)) (hcoalesces : ¬ Coalesces c m)
    (he : ∀ g, (e g).isTable = false ∧ (e g).isShmFormat = false)
    (heq : c' = forwardEvent (c.onReport tables factory format modifier) factory e)
    (hfatal : c'.fatalProtocolError = false) (hacts : Acts c m c') : Tabled c' := by
  unfold GlobalContext.onReport at heq
  split_ifs at heq with hsupported hown hversion
  · exact heq ▸ hc
  · rw [Bool.not_eq_true', Bool.not_eq_false] at hsupported
    have hrecorded := recorded_recordHostShmDrmFormat c format
    refine @recorded c c' m _ tables (format, modifier) hc hrecorded hsupported ?_ hm heq hfatal
      hacts
    intro generation capabilities f hgeneration hget hready hlt hpair hf hpending
    exact hcoalesces ⟨factory, (format, modifier), generation, capabilities, f, hreport, hown,
      hsupported, hgeneration, hget, hready, hpair, hlt, hf, hpending⟩
  · exact heq ▸ hc
  · subst heq
    have hframe := @frame_forwardEvent (.forward, c) factory e (fun g => (he g).1) fun g => (he g).2
    exact hc.quiet hacts hframe.toTables hm

/-- An object more. -/
theorem added {f generation : ℕ} {told : List GuestEvent} (hc : Tabled c) (hacts : Acts c m c')
    (hm : ∀ f, m ≠ .destroyFeedback f) (hg : c.shadowTable.guestToHost.get f = none)
    (htable : c'.shadowTable = c.shadowTable.trackInterfaceWithVersion f .zwpLinuxDmabufFeedbackV1
      feedbackVersion)
    (hobjects : c'.syntheticFeedbackObjects = c.syntheticFeedbackObjects.set f generation)
    (hcapabilities : c'.dmabufCapabilities = c.dmabufCapabilities)
    (hevents : c'.guestEvents = told ++ c.guestEvents)
    (hnew : ∀ s, c.dmabufCapabilities.get generation = some s → s.ready = true →
      told = [.feedback f s.formatModifiers])
    (hold : ∀ f' ≠ f, ∀ pairs, .feedback f' pairs ∉ told) : Tabled c' := by
  constructor
  case known =>
    intro f' g hf'
    rw [hobjects, Table.get_set] at hf'
    split_ifs at hf' with heq
    · subst heq
      rw [htable]
      exact ⟨by simp [ShadowTable.trackInterfaceWithVersion], hg⟩
    · obtain ⟨hi, hg, -⟩ := hc.stays hacts (hm f') hf'
      exact ⟨hi, hg⟩
  case wellFormed =>
    intro g s hs
    exact hc.wellFormed g s (hcapabilities ▸ hs)
  case current =>
    intro f' g s hf' hs hready
    rw [hcapabilities] at hs
    rw [hobjects, Table.get_set] at hf'
    rw [hevents]
    split_ifs at hf' with heq
    · obtain rfl := Option.some.inj hf'
      obtain rfl := hnew s hs hready
      subst heq
      simp [tableOf, sinceFreed, GuestEvent.tableFor]
    · obtain ⟨-, -, hfreed⟩ := hc.stays hacts (hm f') hf'
      rw [tableOf_of_untold (hfreed told hevents) (hold f' heq)]
      exact hc.current f' g s hf' hs hready

/-- A new feedback object gets its table at once, if its generation is ready. -/
theorem getFeedback {factory f : ℕ} {tables : Bool} (hc : Tabled c)
    (hacts : Acts c (.getFeedback factory f tables) c')
    (h : c.requestStep (.getFeedback factory f tables) = some c') : Tabled c' := by
  have hm : ∀ f', GlobalMessage.getFeedback factory f tables ≠ .destroyFeedback f' := fun _ => nofun
  obtain ⟨hallowed, h⟩ := GlobalContext.guarded_eq_some h
  obtain ⟨hg, -⟩ := isGuestIdAvailable_new (Bool.and_eq_true_iff.mp hallowed).2
  obtain ⟨hfatal, rfl⟩ := GlobalContext.settle_eq_some h
  revert hfatal hacts
  unfold createSyntheticFeedback
  split
  · intro hfatal
    exact absurd hfatal Bool.true_eq_false.mp
  next generation _ =>
  dsimp only
  split_ifs with hready
  · split
    · next hqueue =>
      unfold queueSyntheticFeedback at hqueue
      dsimp only at hqueue
      split_ifs at hqueue
      obtain rfl := Option.some.inj hqueue
      intro _ hacts
      refine @added c _ _ f generation [.feedback f (c.feedbackPairs generation)] hc hacts hm hg rfl
        rfl rfl rfl (fun s hs _ => ?_) fun f' hne pairs hmem => ?_
      · rw [feedbackPairs_of_wellFormed hs (hc.wellFormed generation s hs)]
      · exact hne (GuestEvent.feedback.inj (List.mem_singleton.mp hmem)).1
    · intro hfatal
      exact absurd hfatal Bool.true_eq_false.mp
  · intro _ hacts
    refine @added c _ _ f generation [] hc hacts hm hg rfl rfl rfl rfl (fun s hs hs' => ?_)
      fun _ _ _ => List.not_mem_nil
    rw [hs] at hready
    exact absurd hs' hready

/-- The object is gone, and its generation if this was the last use of it. -/
theorem destroyFeedback {f : ℕ} (hc : Tabled c) (hacts : Acts c (.destroyFeedback f) c')
    (h : c.requestStep (.destroyFeedback f) = some c') : Tabled c' := by
  obtain ⟨-, h⟩ := GlobalContext.guarded_eq_some h
  obtain rfl := Option.some.inj h
  have htail := fun c : GlobalContext => (frame_queueLocalDeleteId c f).toTables
  have hnow : ∀ f', f' ≠ f → GlobalMessage.destroyFeedback f ≠ .destroyFeedback f' :=
    fun f' hne heq => hne (GlobalMessage.destroyFeedback.inj heq).symm
  unfold feedbackOnDestroy at hacts ⊢
  split at hacts
  · next generation hf =>
    dsimp only at hacts ⊢
    generalize hc₁ : { c with
      syntheticFeedbackObjects := c.syntheticFeedbackObjects.erase f
      syntheticFeedbackRefreshPending :=
        c.syntheticFeedbackRefreshPending.erase f : GlobalContext } = c₁ at hacts ⊢
    have htables := (frame_maybeReclaimCapabilityGeneration c₁ generation).toTables.trans (htail _)
    refine hc.untold hacts (fun f' g hf' => ?_) (fun g => ?_) ?_
    · rw [htables.objects, ← hc₁, Table.get_erase] at hf'
      split_ifs at hf' with hne
      exact ⟨hf', hnow f' hne⟩
    · have hcapabilities := htables.capabilities g
      rw [show c₁.dmabufCapabilities = c.dmabufCapabilities from hc₁ ▸ rfl] at hcapabilities
      exact hcapabilities
    · exact .trans (hc₁ ▸ .of_eq rfl) htables.silent
  · next hf =>
    have htables := htail c
    refine hc.untold hacts (fun f' g hf' => ?_) htables.capabilities htables.silent
    rw [htables.objects] at hf'
    exact ⟨hf', hnow f' fun heq => Option.some_ne_none g (hf'.symm.trans (heq ▸ hf))⟩

theorem requestStep (hc : Tabled c) (hacts : Acts c m c') (h : c.requestStep m = some c') :
    Tabled c' := by
  cases m with
  | getFeedback factory f tables => exact hc.getFeedback hacts h
  | destroyFeedback f => exact hc.destroyFeedback hacts h
  | _ =>
    have htables := tables_requestStep h (fun _ _ _ => nofun) fun _ => nofun
    exact hc.quiet hacts htables fun _ => nofun

theorem eventStep (hc : Tabled c) (hacts : Acts c m c') (hcoalesces : ¬ Coalesces c m)
    (h : c.eventStep m = some c') : Tabled c' := by
  have hreport : ∀ {factory : ℕ} {result : GlobalContext},
      c.deliver factory .zwpLinuxDmabufV1 result.settle = some c' →
      c' = c ∨ c' = result ∧ c'.fatalProtocolError = false := by
    intro factory result h
    rcases GlobalContext.deliver_eq_some h with ⟨rfl, -⟩ | ⟨-, -, h⟩
    · exact .inl rfl
    · obtain ⟨hfatal, rfl⟩ := GlobalContext.settle_eq_some h
      exact .inr ⟨rfl, hfatal⟩
  by_cases hm : ∃ f, m = .destroyFeedback f
  · obtain ⟨f, rfl⟩ := hm
    exact absurd h.symm (Option.some_ne_none c')
  have hm : ∀ f, m ≠ .destroyFeedback f := fun f heq => hm ⟨f, heq⟩
  cases m with
  | callbackDone callback tables => exact hc.callbackDone hacts h
  | dmabufFormat factory format tables =>
    rcases hreport h with rfl | ⟨heq, hfatal⟩
    · exact hc
    · exact hc.onReport hm rfl hcoalesces (fun _ => ⟨rfl, rfl⟩) heq hfatal hacts
  | dmabufModifier factory format modifierHi modifierLo tables =>
    rcases hreport h with rfl | ⟨heq, hfatal⟩
    · exact hc
    · exact hc.onReport hm rfl hcoalesces (fun _ => ⟨rfl, rfl⟩) heq hfatal hacts
  | _ => exact hc.quiet hacts (tables_eventStep h rfl fun _ _ => nofun) hm

/-- What one step preserves. -/
theorem step {options : GlobalOptions} {s s' : GlobalSession} (hrouted : s.Routed options)
    (hs : Tabled s.context) (hcoalesces : ¬ Coalesces s.context m)
    (h : s.step m = some s') : Tabled s'.context := by
  obtain ⟨hacts, -⟩ := hrouted.acts h
  unfold GlobalSession.step at h
  split_ifs at h
  obtain ⟨next, hnext, rfl⟩ := Option.map_eq_some_iff.mp h
  rcases Option.or_eq_some_iff.mp hnext with hnext | ⟨-, hnext⟩
  · exact hs.requestStep hacts hnext
  · exact hs.eventStep hacts hcoalesces hnext

theorem new (options : GlobalOptions) : Tabled (.new options) :=
  ⟨fun _ _ h => absurd h.symm (Option.some_ne_none _),
    fun _ _ h => absurd h.symm (Option.some_ne_none _),
    fun _ _ _ h => absurd h.symm (Option.some_ne_none _)⟩

end Tabled

/-- As long as no report falls between two tables of one batch, every feedback object of a
ready generation has the table of what the proxy holds for the generation, at the end of a
batch as at any other time. -/
theorem feedback_tables_current {options : GlobalOptions} {s : GlobalSession}
    (hs : (globalSystem options).ReachableWhile (fun s m => ¬ Coalesces s.context m) s) :
    TablesCurrent s.context := by
  have hinvariant : s.Routed options ∧ Tabled s.context := by
    refine hs.invariant (I := fun s => s.Routed options ∧ Tabled s.context) ?_ ?_
    · rintro s rfl
      exact ⟨GlobalSession.routed_new options, .new options⟩
    · intro s m t _ ⟨hrouted, htabled⟩ hcoalesces h
      exact ⟨hrouted.step h, htabled.step hrouted hcoalesces h⟩
  exact hinvariant.2.current

/-- The host reports one modifier, then another one in a later batch. -/
def laterModifierRun : List GlobalMessage :=
  [.getRegistry 2, .global 2 7 .zwpLinuxDmabufV1 5,
    .dmabufModifier 3 drmFormatXrgb8888 0 0 true, .callbackDone 4 true, .endBatch,
    .bind 2 7 .zwpLinuxDmabufV1 4 3, .getFeedback 3 4 true, .endBatch,
    .dmabufModifier 3 drmFormatXrgb8888 0 1 true]

/-- No object was sent a table in this batch, or the message is no report. -/
def reportsFirst (s : GlobalSession) (m : GlobalMessage) : Bool :=
  m.report.isNone || decide (s.context.syntheticFeedbackRefreshPending = ∅)

theorem reportsFirst_sound {s : GlobalSession} {m : GlobalMessage}
    (h : reportsFirst s m = true) : ¬ Coalesces s.context m := by
  rintro ⟨factory, pair, _, _, f, hreport, -, -, -, -, -, -, -, -, hpending⟩
  simp only [reportsFirst, hreport, Bool.or_eq_true, decide_eq_true_eq] at h
  rcases h with h | h
  · exact Bool.false_ne_true h
  · rw [h] at hpending
    exact Finset.notMem_empty f hpending

theorem feedback_tables_current_later : ∃ s,
    (globalSystem gpuOptions).run (.new gpuOptions) laterModifierRun = some s ∧
      TablesCurrent s.context := by
  have hrun : (((globalSystem gpuOptions).restrict reportsFirst).run (.new gpuOptions)
      laterModifierRun).isSome = true := by decide +kernel
  obtain ⟨s, hs⟩ := Option.isSome_iff_exists.mp hrun
  have hreach : (globalSystem gpuOptions).ReachableWhile
      (fun s m => ¬ Coalesces s.context m) s :=
    TransitionSystem.Reachable.of_restrict (fun _ _ => reportsFirst_sound) (.run (.init rfl) hs)
  exact ⟨s, TransitionSystem.run_of_restrict hs, feedback_tables_current hreach⟩

/-- The second of two new modifiers of one batch is in no table at the end of the batch. -/
theorem second_modifier_missing : ¬ ∀ s t, (globalSystem gpuOptions).Reachable s →
    (globalSystem gpuOptions).step s .endBatch = some t → TablesCurrent t.context := by
  have hrun : (((globalSystem gpuOptions).run (.new gpuOptions)
      (laterModifierRun ++ [.dmabufModifier 3 drmFormatXrgb8888 0 2 true])).bind
      (GlobalSession.step · .endBatch)).map (fun t =>
        (t.context.syntheticFeedbackObjects.get 4, t.context.dmabufCapabilities.get 1,
          tableOf 4 t.context.guestEvents)) =
      some (some 1, some { formatModifiers := [(drmFormatXrgb8888, 0), (drmFormatXrgb8888, 1),
        (drmFormatXrgb8888, 2)], ready := true },
        some [(drmFormatXrgb8888, 0), (drmFormatXrgb8888, 1)]) := by
    decide +kernel
  obtain ⟨t, ht, heq⟩ := Option.map_eq_some_iff.mp hrun
  obtain ⟨s, hs, ht⟩ := Option.bind_eq_some_iff.mp ht
  simp only [Prod.mk.injEq] at heq
  obtain ⟨hobject, hcapabilities, htable⟩ := heq
  intro hall
  have hcurrent := hall s t (.run (.init rfl) hs) ht 4 1 _ hobject hcapabilities rfl
  rw [htable] at hcurrent
  exact absurd hcurrent (by decide)

end Sommelier
