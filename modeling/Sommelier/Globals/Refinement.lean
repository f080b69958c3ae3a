import Sommelier.Globals.Ledger

/-!
# What the handlers do to the ledger

Each handler of a registry acts on the ledger by one operation, and tells the guest about it
with at most one event; the object IDs stay as they are.

## Main definitions

* `registryNotices`, `registryEdges`: what the guest was told about a name on one of its registries.
* `Binds`, `Settled`: the effect of the handlers.
* `onGlobal_effect`, `onGlobalRemove_effect`: the specifications of the events of a registry.
-/
namespace Sommelier

/-- The part of the shadow table that routes messages. -/
structure ShadowTable.Ids where
  guestToHost : Table ℕ ℕ
  hostToGuest : Table ℕ ℕ
  interfaces : Table ℕ Interface
  pendingDestroyGuestIds : Finset ℕ

def ShadowTable.ids (t : ShadowTable) : ShadowTable.Ids where
  guestToHost := t.guestToHost
  hostToGuest := t.hostToGuest
  interfaces := t.interfaces
  pendingDestroyGuestIds := t.pendingDestroyGuestIds

/-- No host object without guest is a registry. -/
def ShadowTable.Clean (t : ShadowTable) : Prop := ∀ h, t.hostInterfaces.get h ≠ some .wlRegistry

/-- Messages are routed as before. -/
structure ShadowTable.Routes (t t' : ShadowTable) : Prop where
  ids : t'.ids = t.ids
  clean : t.Clean → t'.Clean

namespace ShadowTable.Routes
variable {t t' t₁ : ShadowTable}

theorem refl (t : ShadowTable) : t.Routes t := ⟨rfl, id⟩

theorem trans (h : t.Routes t₁) (h' : t₁.Routes t') : t.Routes t' :=
  ⟨h'.ids.trans h.ids, h'.clean ∘ h.clean⟩

theorem getGuestId (h : t.Routes t') (r : ℕ) : t'.getGuestId r = t.getGuestId r :=
  congrArg (fun ids : ShadowTable.Ids => ids.hostToGuest.get r) h.ids

theorem of_erase (hids : t'.ids = t.ids) {h : ℕ}
    (hhost : t'.hostInterfaces = t.hostInterfaces.erase h) : t.Routes t' := by
  refine ⟨hids, fun hclean k => ?_⟩
  rw [hhost, Table.get_erase]
  split_ifs
  · exact fun heq => Option.some_ne_none _ heq.symm
  · exact hclean k

theorem markPendingDestroyHost (t : ShadowTable) (h : ℕ) :
    t.Routes (t.markPendingDestroyHost h).2 := by
  unfold ShadowTable.markPendingDestroyHost
  split_ifs
  · exact .refl t
  · exact .of_erase rfl (h := h) rfl

theorem retireHostInterface (t : ShadowTable) (h : ℕ) : t.Routes (t.retireHostInterface h) :=
  .of_erase rfl (h := h) rfl

end ShadowTable.Routes

/-- What an event says about a name on a registry of the guest. -/
inductive RegistryNotice
  | appeared (global : HostGlobal)
  | vanished
  | ended

/-- The notice, as something that enters or leaves. -/
def RegistryNotice.edge : RegistryNotice → Edge Unit
  | appeared _ => .enter ()
  | vanished => .leave ()
  | ended => .reset

def registryNotice (g n : ℕ) : GuestEvent → Option RegistryNotice
  | .global registry name interface version =>
    if registry = g ∧ name = n then some (.appeared { interface, version }) else none
  | .globalRemove registry name => if registry = g ∧ name = n then some .vanished else none
  | .deleteId object => if object = g then some .ended else none
  | _ => none

/-- The notices about a name on a registry of the guest, newest first. -/
def registryNotices (g n : ℕ) (events : List GuestEvent) : List RegistryNotice :=
  events.filterMap (registryNotice g n)

/-- The appearances and disappearances of a name, newest first. -/
def registryEdges (g n : ℕ) (events : List GuestEvent) : List (Edge Unit) :=
  (registryNotices g n events).map RegistryNotice.edge

namespace GlobalContext
variable {c c' c₁ : GlobalContext} {r n : ℕ}

/-! ## Recording an advertisement -/

/-- Listing a name in the tables of a registry. -/
theorem ledger_note {current : Table ℕ ℕ} {next : ℕ} (g : ℕ)
    (hg : g = c.ledger.generationFor r n)
    (hcurrent : ∀ n', current.get n' = if n' = n then some g else c.globalGenerations.get n')
    (hnext : next = (c.ledger.note r n).next) :
    GlobalContext.ledger { c with
      registryGlobalNames := c.registryGlobalNames.set r (insert n (c.namesOf r))
      registryGlobalRemoved := c.registryGlobalRemoved.modify r (·.erase n)
      registryGlobalGenerations := c.registryGlobalGenerations.set r
        (((c.registryGlobalGenerations.get r).getD ∅).set n g)
      globalGenerations := current
      nextGlobalGeneration := next } = c.ledger.note r n := by
  subst hg
  refine Ledger.ext ?_ ?_ ?_ ?_ ?_ hnext ?_ rfl rfl <;> funext r'
  · by_cases h : r' = r <;> simp [ledger, Ledger.note, namesOf, h]
  · by_cases h : r' = r
    · subst h
      cases hr : c.registryGlobalRemoved.get r' <;> simp [ledger, Ledger.note, removedOf, hr]
    · simp [ledger, Ledger.note, removedOf, h]
  · funext n'
    by_cases h : r' = r
    · subst h
      cases hr : c.registryGlobalGenerations.get r' <;>
        by_cases hn : n' = n <;> simp [ledger, Ledger.note, generationOf, hr, hn]
    · simp [ledger, Ledger.note, generationOf, h]
  · rfl
  · simp [ledger, Ledger.note, hcurrent, Function.update_apply]
  · rfl

theorem generationFor_begins (h : c.ledger.Begins r n) :
    c.generationFor r n = c.startGeneration n := by
  unfold generationFor
  rcases hc : c.globalGenerations.get n with _ | current
  · rfl
  · have h' : n ∈ c.removedOf r ∧ c.generationOf r n = some current := by
      rcases h with h | h
      · exact absurd (hc.symm.trans h) (Option.some_ne_none current)
      · exact ⟨h.1, h.2.trans hc⟩
    simp only [if_pos h']

theorem generationFor_adopts (h : ¬ c.ledger.Begins r n) :
    ∃ g, c.globalGenerations.get n = some g ∧ c.generationFor r n = (g, c) := by
  unfold generationFor
  rcases hc : c.globalGenerations.get n with _ | current
  · exact absurd (Or.inl hc) h
  · have h' : ¬ (n ∈ c.removedOf r ∧ c.generationOf r n = some current) := by
      intro h'
      exact h (Or.inr ⟨h'.1, h'.2.trans hc.symm⟩)
    exact ⟨current, rfl, by simp only [if_neg h']⟩

theorem noteRegistryGlobal_listed (h : c.ledger.Lists r n) :
    c.noteRegistryGlobal r n = (false, c) := if_pos h

/-! ## Frames -/

/-- The ledger, the events and the routing of messages are as before. -/
structure Framed (c c' : GlobalContext) : Prop where
  ledger : c'.ledger = c.ledger
  events : c'.guestEvents = c.guestEvents
  routes : c.shadowTable.Routes c'.shadowTable
  options : c'.options = c.options

theorem Framed.refl (c : GlobalContext) : Framed c c := ⟨rfl, rfl, .refl _, rfl⟩

theorem Framed.trans (h : Framed c c₁) (h' : Framed c₁ c') : Framed c c' :=
  ⟨h'.ledger.trans h.ledger, h'.events.trans h.events, h.routes.trans h'.routes,
    h'.options.trans h.options⟩

/-- The names the proxy bound something from. -/
def bindingNames (c : GlobalContext) : List (Option ℕ) :=
  [c.hostDmabufGlobalName, c.hostShmGlobalName, c.hostTextInputManagerV1GlobalName,
    c.hostTextInputExtensionV1GlobalName, c.hostKeyboardExtensionGlobalName,
    c.hostZauraShellGlobalName]

theorem internalBindingMatches_iff :
    c.internalBindingMatches n = true ↔ some n ∈ c.bindingNames := by
  simp only [internalBindingMatches, bindingNames, Bool.or_eq_true, beq_iff_eq, List.mem_cons,
    List.not_mem_nil, or_false, or_assoc, @eq_comm _ (some n)]

/-- Recording an advertisement changes the tables of the registries only. -/
theorem noteRegistryGlobal_unlisted (h : ¬ c.ledger.Lists r n) :
    ∃ names removed generations current next,
      c.noteRegistryGlobal r n = (true, { c with
        registryGlobalNames := names
        registryGlobalRemoved := removed
        registryGlobalGenerations := generations
        globalGenerations := current
        nextGlobalGeneration := next }) ∧
      (c.noteRegistryGlobal r n).2.ledger = c.ledger.note r n := by
  have h' : ¬ (n ∈ c.namesOf r ∧ c.generationOf r n = c.globalGenerations.get n) := h
  unfold noteRegistryGlobal
  simp only [if_neg h']
  by_cases hb : c.ledger.Begins r n
  · rw [generationFor_begins hb]
    refine ⟨_, _, _, _, _, rfl, ledger_note (c := c) _ ?_ ?_ ?_⟩
    · simp only [Ledger.generationFor, if_pos hb]
      rfl
    · intro n'
      exact Table.get_set ..
    · simp only [Ledger.note, if_pos hb]
      rfl
  · obtain ⟨g, hg, hfor⟩ := generationFor_adopts hb
    rw [hfor]
    refine ⟨_, _, _, _, _, rfl, ledger_note (c := c) _ ?_ ?_ ?_⟩
    · simp only [Ledger.generationFor, if_neg hb]
      exact (congrArg (·.getD 0) hg).symm
    · intro n'
      split_ifs with hn
      · rw [hn, hg]
      · rfl
    · simp only [Ledger.note, if_neg hb]
      rfl

/-- What noting an advertisement leaves alone. -/
structure NotedFrame (c c' : GlobalContext) : Prop where
  events : c'.guestEvents = c.guestEvents
  routes : c.shadowTable.Routes c'.shadowTable
  options : c'.options = c.options

theorem noteRegistryGlobal_effect (h : ¬ c.ledger.Lists r n) :
    ∃ c₁, c.noteRegistryGlobal r n = (true, c₁) ∧ c₁.ledger = c.ledger.note r n ∧
      NotedFrame c c₁ ∧ c₁.bindingNames = c.bindingNames := by
  obtain ⟨names, removed, generations, current, next, heq, hledger⟩ :=
    noteRegistryGlobal_unlisted h
  exact ⟨_, heq, by rw [← hledger, heq], ⟨rfl, .refl _, rfl⟩, rfl⟩

/-! ## Dropping the bindings of a name -/

/-- A name without what was bound from it. -/
def without (n : ℕ) (bound : Option ℕ) : Option ℕ := if bound = some n then none else bound

theorem framed_maybeReclaimCapabilityGeneration (c : GlobalContext) (g : ℕ) :
    Framed c (c.maybeReclaimCapabilityGeneration g) := by
  unfold maybeReclaimCapabilityGeneration
  split_ifs
  · exact .refl c
  · exact ⟨rfl, rfl, .refl _, rfl⟩

theorem bindingNames_maybeReclaimCapabilityGeneration (c : GlobalContext) (g : ℕ) :
    (c.maybeReclaimCapabilityGeneration g).bindingNames = c.bindingNames := by
  unfold maybeReclaimCapabilityGeneration
  split_ifs <;> rfl

theorem resetDmabufBinding_effect (c : GlobalContext) (n : ℕ) :
    Framed c (c.resetDmabufBinding n) ∧ (c.resetDmabufBinding n).bindingNames =
      without n c.hostDmabufGlobalName :: c.bindingNames.tail := by
  unfold resetDmabufBinding without
  split_ifs
  · dsimp only
    cases c.hostDmabufGeneration with
    | none =>
      cases c.hostDmabufId with
      | none => exact ⟨⟨rfl, rfl, .refl _, rfl⟩, rfl⟩
      | some h => exact ⟨⟨rfl, rfl, .markPendingDestroyHost _ h, rfl⟩, rfl⟩
    | some g =>
      refine ⟨Framed.trans ?_ (framed_maybeReclaimCapabilityGeneration _ g), ?_⟩
      · cases c.hostDmabufId with
        | none => exact ⟨rfl, rfl, .refl _, rfl⟩
        | some h => exact ⟨rfl, rfl, .markPendingDestroyHost _ h, rfl⟩
      · dsimp only
        rw [bindingNames_maybeReclaimCapabilityGeneration]
        cases c.hostDmabufId <;> rfl
  · exact ⟨.refl c, rfl⟩

theorem resetShmBinding_effect (c : GlobalContext) (n : ℕ) :
    Framed c (c.resetShmBinding n) ∧ (c.resetShmBinding n).bindingNames =
      c.hostDmabufGlobalName :: without n c.hostShmGlobalName :: c.bindingNames.tail.tail := by
  unfold resetShmBinding without
  split_ifs
  · cases c.hostShmId with
    | none => exact ⟨⟨rfl, rfl, .refl _, rfl⟩, rfl⟩
    | some h => exact ⟨⟨rfl, rfl, .retireHostInterface _ h, rfl⟩, rfl⟩
  · exact ⟨.refl c, rfl⟩

theorem resetTextInputBindings_effect (c : GlobalContext) (n : ℕ) :
    Framed c (c.resetTextInputBindings n) ∧ (c.resetTextInputBindings n).bindingNames =
      [c.hostDmabufGlobalName, c.hostShmGlobalName,
        without n c.hostTextInputManagerV1GlobalName,
        without n c.hostTextInputExtensionV1GlobalName, c.hostKeyboardExtensionGlobalName,
        c.hostZauraShellGlobalName] := by
  unfold resetTextInputBindings without
  dsimp only
  split_ifs <;> exact ⟨⟨rfl, rfl, .refl _, rfl⟩, rfl⟩

theorem resetKeyboardExtensionBinding_effect (c : GlobalContext) (n : ℕ) :
    Framed c (c.resetKeyboardExtensionBinding n) ∧
      (c.resetKeyboardExtensionBinding n).bindingNames =
        [c.hostDmabufGlobalName, c.hostShmGlobalName, c.hostTextInputManagerV1GlobalName,
          c.hostTextInputExtensionV1GlobalName, without n c.hostKeyboardExtensionGlobalName,
          c.hostZauraShellGlobalName] := by
  unfold resetKeyboardExtensionBinding without
  split_ifs
  · cases c.hostKeyboardExtensionId with
    | none => exact ⟨⟨rfl, rfl, .refl _, rfl⟩, rfl⟩
    | some h => exact ⟨⟨rfl, rfl, .retireHostInterface _ h, rfl⟩, rfl⟩
  · exact ⟨.refl c, rfl⟩

theorem resetZauraShellBinding_effect (c : GlobalContext) (n : ℕ) :
    Framed c (c.resetZauraShellBinding n) ∧ (c.resetZauraShellBinding n).bindingNames =
      [c.hostDmabufGlobalName, c.hostShmGlobalName, c.hostTextInputManagerV1GlobalName,
        c.hostTextInputExtensionV1GlobalName, c.hostKeyboardExtensionGlobalName,
        without n c.hostZauraShellGlobalName] := by
  unfold resetZauraShellBinding without
  dsimp only
  split_ifs
  · cases c.hostZauraShellId with
    | none => exact ⟨⟨rfl, rfl, .refl _, rfl⟩, rfl⟩
    | some h => exact ⟨⟨rfl, rfl, .markPendingDestroyHost _ h, rfl⟩, rfl⟩
  · cases c.hostZauraShellId with
    | none => exact ⟨⟨rfl, rfl, .refl _, rfl⟩, rfl⟩
    | some h => exact ⟨⟨rfl, rfl, .retireHostInterface _ h, rfl⟩, rfl⟩
  · exact ⟨.refl c, rfl⟩

/-- The bindings of a name are dropped, and nothing else that matters here. -/
theorem resetInternalBindingForGlobal_effect (c : GlobalContext) (n : ℕ) :
    Framed c (c.resetInternalBindingForGlobal n) ∧
      (c.resetInternalBindingForGlobal n).bindingNames = c.bindingNames.map (without n) := by
  obtain ⟨h₁, b₁⟩ := resetDmabufBinding_effect c n
  obtain ⟨h₂, b₂⟩ := resetShmBinding_effect (c.resetDmabufBinding n) n
  obtain ⟨h₃, b₃⟩ := resetTextInputBindings_effect
    ((c.resetDmabufBinding n).resetShmBinding n) n
  obtain ⟨h₄, b₄⟩ := resetKeyboardExtensionBinding_effect
    (((c.resetDmabufBinding n).resetShmBinding n).resetTextInputBindings n) n
  obtain ⟨h₅, b₅⟩ := resetZauraShellBinding_effect
    ((((c.resetDmabufBinding n).resetShmBinding n).resetTextInputBindings
      n).resetKeyboardExtensionBinding n) n
  refine ⟨((((h₁.trans h₂).trans h₃).trans h₄).trans h₅).trans ⟨rfl, rfl, .refl _, rfl⟩, ?_⟩
  change GlobalContext.bindingNames (GlobalContext.resetZauraShellBinding _ n) = _
  simp only [bindingNames, List.tail_cons, List.cons.injEq, and_true, List.map_cons,
    List.map_nil] at b₁ b₂ b₃ b₄ b₅ ⊢
  simp only [b₁, b₂, b₃, b₄, b₅, and_self]

/-- What was bound was bound before, or from the name. -/
def BindsOnly (c c' : GlobalContext) (n : ℕ) : Prop :=
  ∀ k, c'.internalBindingMatches k = true → c.internalBindingMatches k = true ∨ k = n

theorem mem_map_without {bound : List (Option ℕ)} {k : ℕ}
    (h : some k ∈ bound.map (without n)) : some k ∈ bound ∧ k ≠ n := by
  obtain ⟨b, hb, hk⟩ := List.mem_map.mp h
  unfold without at hk
  split_ifs at hk with hn
  subst hk
  exact ⟨hb, fun heq => hn (congrArg some heq)⟩

theorem internalBindingMatches_reset {k : ℕ}
    (h : (c.resetInternalBindingForGlobal n).internalBindingMatches k = true) :
    c.internalBindingMatches k = true ∧ k ≠ n := by
  rw [internalBindingMatches_iff, (resetInternalBindingForGlobal_effect c n).2] at h
  exact (mem_map_without h).imp_left internalBindingMatches_iff.mpr

/-- What the bindings of a name leave behind when a generation begins. -/
theorem dropBinding_effect (c : GlobalContext) (n : ℕ) (starts : Bool) :
    Framed c (if starts && c.internalBindingMatches n then c.resetInternalBindingForGlobal n
        else c) ∧
      BindsOnly c (if starts && c.internalBindingMatches n then
        c.resetInternalBindingForGlobal n else c) n := by
  split_ifs
  · exact ⟨(resetInternalBindingForGlobal_effect c n).1,
      fun k hk => .inl (internalBindingMatches_reset hk).1⟩
  · exact ⟨.refl c, fun k hk => .inl hk⟩

theorem replaced_effect {before : Ledger} {changed : Bool} (hframe : Framed c c₁)
    (hbinds : BindsOnly c c₁ n) (hchanged : changed = true ↔
      before.current n ≠ none ∧ c.ledger.current n ≠ before.current n) :
    let next := (if changed then c₁.replaceGlobalMetadataForGeneration n else c₁).clearTombstone n
    next.ledger = c.ledger.replace n before ∧ next.guestEvents = c.guestEvents ∧
      c.shadowTable.Routes next.shadowTable ∧ next.options = c.options ∧
      BindsOnly c next n := by
  have hledger := hframe.ledger
  dsimp only
  split_ifs with h
  · refine ⟨?_, hframe.events, hframe.routes, hframe.options, hbinds⟩
    rw [Ledger.replace, if_pos (hchanged.mp h), ← hledger]
    refine Ledger.ext rfl rfl rfl rfl rfl rfl ?_ ?_ rfl
    · funext k
      simp [ledger, replaceGlobalMetadataForGeneration, clearTombstone, Function.update_apply]
    · simp [ledger, replaceGlobalMetadataForGeneration, clearTombstone]
  · refine ⟨?_, hframe.events, hframe.routes, hframe.options, hbinds⟩
    rw [Ledger.replace, if_neg (mt hchanged.mpr h), ← hledger]
    rfl

/-- What remains of earlier generations is dropped when a new one begins. -/
theorem replaceGeneration_effect (before c : GlobalContext) (r n : ℕ) :
    let next := (c.replaceGeneration before r n).clearTombstone n
    next.ledger = c.ledger.replace n before.ledger ∧ next.guestEvents = c.guestEvents ∧
      c.shadowTable.Routes next.shadowTable ∧ next.options = c.options ∧
      BindsOnly c next n := by
  refine replaced_effect (dropBinding_effect c n _).1 (dropBinding_effect c n _).2 ?_
  simp [ledger, Option.isSome_iff_ne_none]

/-! ## Treating an advertisement -/

/-- An advertisement was treated: the ledger notes how, and the guest is told if it is to
see the global. -/
structure Settled (c c' : GlobalContext) (r n : ℕ) (o : Outcome) : Prop where
  ledger : c'.ledger = c.ledger.settle r n o
  events : c'.guestEvents =
    o.announcement ((c.shadowTable.getGuestId r).getD r) n ++ c.guestEvents
  routes : c.shadowTable.Routes c'.shadowTable
  options : c'.options = c.options
  binds : BindsOnly c c' n

/-- The ledger, the events and the routing are as before, apart from bindings of the name. -/
structure Binds (c c' : GlobalContext) (n : ℕ) : Prop extends Framed c c' where
  binds : BindsOnly c c' n

theorem Binds.settled {o : Outcome} (h : Binds c c₁ n) (h' : Settled c₁ c' r n o) :
    Settled c c' r n o where
  ledger := by rw [h'.ledger, h.ledger]
  events := by
    rw [h'.events, h.events, h.routes.getGuestId]
  routes := h.routes.trans h'.routes
  options := h'.options.trans h.options
  binds k hk := (h'.binds k hk).elim (h.binds k) .inr

theorem Settled.binds_after {o : Outcome} (h : Settled c c₁ r n o) (h' : Binds c₁ c' n) :
    Settled c c' r n o where
  ledger := h'.ledger.trans h.ledger
  events := h'.events.trans h.events
  routes := h.routes.trans h'.routes
  options := h'.options.trans h.options
  binds k hk := (h'.binds k hk).elim (h.binds k) .inr

theorem ledger_recordVisibility (c : GlobalContext) (r n : ℕ) (visible : Bool) :
    (c.recordRegistryGlobalVisibility r n visible).ledger = c.ledger.setVisible r n visible := by
  refine Ledger.ext rfl rfl rfl ?_ rfl rfl rfl rfl rfl
  funext r' n'
  by_cases h : r' = r
  · subst h
    cases hr : c.registryGlobalVisibility.get r' <;> by_cases hn : n' = n <;>
      simp [ledger, recordRegistryGlobalVisibility, Ledger.setVisible, visibilityOf, hr, hn]
  · simp [ledger, recordRegistryGlobalVisibility, Ledger.setVisible, visibilityOf, h]

theorem settled_hidden (c : GlobalContext) (r n : ℕ) :
    Settled c (c.recordRegistryGlobalVisibility r n false) r n .hidden where
  ledger := ledger_recordVisibility c r n false
  events := rfl
  routes := .refl _
  options := rfl
  binds _ hk := .inl hk

theorem settled_hideGlobal (c : GlobalContext) (r n : ℕ) (i : Interface) :
    Settled c (c.hideGlobal r n i) r n .hidden where
  ledger := ledger_recordVisibility _ r n false
  events := rfl
  routes := .refl _
  options := rfl
  binds _ hk := .inl hk

theorem settled_offerGlobal (c : GlobalContext) (r n : ℕ) (i : Interface) (v : ℕ) :
    Settled c (c.offerGlobal r n i v) r n (.published { interface := i, version := v }) where
  ledger := by
    rw [offerGlobal, ledger_recordVisibility]
    refine Ledger.ext rfl rfl rfl rfl rfl rfl ?_ rfl rfl
    funext k
    simp [ledger, queueSyntheticGlobalForRegistry, sendGuest, Ledger.setVisible, Ledger.settle,
      Function.update_apply]
  events := rfl
  routes := .refl _
  options := rfl
  binds _ hk := .inl hk

theorem settled_deferSyntheticDmabufGlobal (c : GlobalContext) (r n v : ℕ) :
    Settled c (c.deferSyntheticDmabufGlobal r n v ((c.globalGenerations.get n).getD 0)) r n
      (.deferred v) := by
  have hcontains : c.pendingDmabufGlobals.contains (c.ledger.heldBack r n v) = true ↔
      c.ledger.heldBack r n v ∈ c.ledger.pending := List.contains_iff_mem
  unfold deferSyntheticDmabufGlobal
  change Settled c (recordRegistryGlobalVisibility
    (if c.pendingDmabufGlobals.contains (c.ledger.heldBack r n v) then c
      else { c with
        pendingDmabufGlobals := c.pendingDmabufGlobals ++ [c.ledger.heldBack r n v] }) r n false)
    r n (.deferred v)
  split_ifs with h
  · refine ⟨?_, rfl, .refl _, rfl, fun _ hk => .inl hk⟩
    rw [ledger_recordVisibility]
    refine Ledger.ext rfl rfl rfl rfl rfl rfl rfl rfl ?_
    exact (if_pos (hcontains.mp h)).symm
  · refine ⟨?_, rfl, .refl _, rfl, fun _ hk => .inl hk⟩
    rw [ledger_recordVisibility]
    refine Ledger.ext rfl rfl rfl rfl rfl rfl rfl rfl ?_
    exact (if_neg (mt hcontains.mpr h)).symm

theorem BindsOnly.set (i : ℕ) (h : c'.bindingNames = c.bindingNames.set i (some n)) :
    BindsOnly c c' n := by
  intro k hk
  rw [internalBindingMatches_iff, h] at hk
  rcases List.mem_or_eq_of_mem_set hk with hk | hk
  · exact .inl (internalBindingMatches_iff.mpr hk)
  · exact .inr (Option.some.inj hk)

theorem allocateInternal_eq_some {i : Interface} {v h : ℕ} (hi : i ≠ .wlRegistry)
    (heq : c.allocateInternal i v = some (h, c₁)) :
    ∃ t, c₁ = { c with shadowTable := t } ∧ c.shadowTable.Routes t := by
  simp only [allocateInternal, Option.bind_eq_bind, Option.bind_eq_some_iff] at heq
  obtain ⟨⟨h', t⟩, ht, heq⟩ := heq
  obtain ⟨-, -, next, rfl⟩ := ShadowTable.allocateHostId_eq_some ht
  obtain ⟨rfl, rfl⟩ := Prod.mk.inj (Option.some.inj heq)
  refine ⟨_, rfl, rfl, fun hclean k => ?_⟩
  simp only [ShadowTable.trackHostInterfaceWithVersion, Table.get_set]
  split_ifs
  · exact fun heq => hi (Option.some.inj heq)
  · exact hclean k

theorem onTextInputManagerGlobal_settled {v : ℕ} (h : c.onTextInputManagerGlobal r n v = some c') :
    Settled c c' r n (.published { interface := .zwpTextInputManagerV3, version := 1 }) := by
  unfold onTextInputManagerGlobal at h
  split_ifs at h
  · exact Option.some.inj h ▸ settled_offerGlobal ..
  · simp only [Option.bind_eq_bind, Option.bind_eq_some_iff] at h
    obtain ⟨⟨hostId, c₁⟩, halloc, h⟩ := h
    obtain ⟨t, rfl, hroutes⟩ := allocateInternal_eq_some (by decide) halloc
    rw [← Option.some.inj h]
    have hbind : Binds c { c with
        shadowTable := t
        hostTextInputManagerV1Id := some hostId
        hostTextInputManagerV1GlobalName := some n } n := ⟨⟨rfl, rfl, hroutes, rfl⟩, .set 2 rfl⟩
    exact hbind.settled ((settled_offerGlobal ..).binds_after
      ⟨⟨rfl, rfl, .refl _, rfl⟩, fun k hk => .inl hk⟩)

theorem onTextInputExtensionGlobal_settled {v : ℕ}
    (h : c.onTextInputExtensionGlobal r n v = some c') : Settled c c' r n .hidden := by
  unfold onTextInputExtensionGlobal at h
  dsimp only at h
  split_ifs at h
  · exact Option.some.inj h ▸ settled_hideGlobal ..
  · simp only [Option.bind_eq_bind, Option.bind_eq_some_iff] at h
    obtain ⟨⟨hostId, c₁⟩, halloc, h⟩ := h
    obtain ⟨t, rfl, hroutes⟩ := allocateInternal_eq_some (by decide) halloc
    rw [← Option.some.inj h]
    exact (settled_hideGlobal ..).binds_after ⟨⟨rfl, rfl, hroutes, rfl⟩, .set 3 rfl⟩

theorem onKeyboardExtensionGlobal_settled {v : ℕ}
    (h : c.onKeyboardExtensionGlobal r n v = some c') : Settled c c' r n .hidden := by
  unfold onKeyboardExtensionGlobal at h
  dsimp only at h
  split_ifs at h
  · exact Option.some.inj h ▸ settled_hideGlobal ..
  · simp only [Option.bind_eq_bind, Option.bind_eq_some_iff] at h
    obtain ⟨⟨hostId, c₁⟩, halloc, h⟩ := h
    obtain ⟨t, rfl, hroutes⟩ := allocateInternal_eq_some (by decide) halloc
    rw [← Option.some.inj h]
    exact (settled_hideGlobal ..).binds_after ⟨⟨rfl, rfl, hroutes, rfl⟩, .set 4 rfl⟩

theorem onZauraShellGlobal_settled {v : ℕ} (h : c.onZauraShellGlobal r n v = some c') :
    Settled c c' r n (.published { interface := .gtkShell1, version := 1 }) := by
  unfold onZauraShellGlobal at h
  split_ifs at h
  · exact Option.some.inj h ▸ settled_offerGlobal ..
  · simp only [Option.bind_eq_bind, Option.bind_eq_some_iff] at h
    obtain ⟨⟨hostId, c₁⟩, halloc, h⟩ := h
    obtain ⟨t, rfl, hroutes⟩ := allocateInternal_eq_some (by decide) halloc
    rw [← Option.some.inj h]
    have hbind : Binds c { c with
        shadowTable := t
        hostZauraShellId := some hostId
        hostZauraShellGlobalName := some n
        hostZauraShellVersion := min v 38 } n := ⟨⟨rfl, rfl, hroutes, rfl⟩, .set 5 rfl⟩
    exact hbind.settled ((settled_offerGlobal ..).binds_after
      ⟨⟨rfl, rfl, .refl _, rfl⟩, fun k hk => .inl hk⟩)

theorem onShmGlobal_settled (h : c.onShmGlobal r n = some c') :
    Settled c c' r n (.published { interface := .wlShm, version := 1 }) := by
  unfold onShmGlobal at h
  split_ifs at h
  · exact Option.some.inj h ▸ settled_offerGlobal ..
  · simp only [Option.bind_eq_bind, Option.bind_eq_some_iff] at h
    obtain ⟨⟨hostId, c₁⟩, halloc, h⟩ := h
    obtain ⟨t, rfl, hroutes⟩ := allocateInternal_eq_some (by decide) halloc
    rw [← Option.some.inj h]
    have hbind : Binds c (queueInternalBind { c with
        shadowTable := t
        hostShmId := some hostId
        hostShmGlobalName := some n } r n .wlShm 1 hostId) n :=
      ⟨⟨rfl, rfl, hroutes, rfl⟩, .set 1 rfl⟩
    exact hbind.settled (settled_offerGlobal ..)

/-- How the dma-buf global may be treated. -/
def IsDmabufOutcome (options : GlobalOptions) (v : ℕ) (o : Outcome) : Prop :=
  o = .hidden ∨ o = .deferred (options.dmabufClientVersion v) ∨
    o = .published { interface := .zwpLinuxDmabufV1, version := options.dmabufClientVersion v }

theorem onBoundDmabufGlobal_settled (c : GlobalContext) (r n v : ℕ) :
    ∃ o, IsDmabufOutcome c.options v o ∧ Settled c (c.onBoundDmabufGlobal r n v) r n o := by
  unfold onBoundDmabufGlobal
  dsimp only
  split_ifs
  · exact ⟨_, .inr (.inl rfl), settled_deferSyntheticDmabufGlobal ..⟩
  · exact ⟨_, .inr (.inr rfl), settled_offerGlobal ..⟩
  · exact ⟨_, .inl rfl, settled_hidden ..⟩
  · exact ⟨_, .inl rfl, settled_hideGlobal ..⟩

theorem queueDmabufCapabilityBarrier_binds {g : ℕ}
    (h : c.queueDmabufCapabilityBarrier g = some c') : Binds c c' n := by
  simp only [queueDmabufCapabilityBarrier, Option.bind_eq_bind, Option.bind_eq_some_iff] at h
  obtain ⟨⟨callbackId, c₁⟩, halloc, h⟩ := h
  obtain ⟨t, rfl, hroutes⟩ := allocateInternal_eq_some (by decide) halloc
  rw [← Option.some.inj h]
  exact ⟨⟨rfl, rfl, hroutes, rfl⟩, fun k hk => .inl hk⟩

/-- The dma-buf global for the guest, after the proxy bound it. -/
theorem offerBoundDmabuf_settled (c : GlobalContext) (r n v : ℕ) (canSynthesize : Bool) :
    ∃ o, IsDmabufOutcome c.options v o ∧
      Settled c (if c.options.gpuAccel then
          if canSynthesize then
            c.deferSyntheticDmabufGlobal r n (c.options.dmabufClientVersion v)
              ((c.globalGenerations.get n).getD 0)
          else c.offerGlobal r n .zwpLinuxDmabufV1 (c.options.dmabufClientVersion v)
        else c.hideGlobal r n .zwpLinuxDmabufV1) r n o := by
  split_ifs
  · exact ⟨_, .inr (.inl rfl), settled_deferSyntheticDmabufGlobal ..⟩
  · exact ⟨_, .inr (.inr rfl), settled_offerGlobal ..⟩
  · exact ⟨_, .inl rfl, settled_hideGlobal ..⟩

theorem onDmabufGlobal_settled {v : ℕ} (h : c.onDmabufGlobal r n v = some c') :
    ∃ o, IsDmabufOutcome c.options v o ∧ Settled c c' r n o := by
  unfold onDmabufGlobal at h
  dsimp only at h
  by_cases hbind : (!c.options.shouldBindInternalDmabuf) = true
  · rw [if_pos hbind] at h
    exact ⟨_, .inl rfl, Option.some.inj h ▸ settled_hidden ..⟩
  by_cases hbound : c.hostDmabufId.isSome = true
  · rw [if_neg hbind, if_pos hbound] at h
    exact Option.some.inj h ▸ onBoundDmabufGlobal_settled ..
  rw [if_neg hbind, if_neg hbound, Option.bind_eq_bind, Option.bind_eq_some_iff] at h
  obtain ⟨⟨hostId, c₁⟩, halloc, h⟩ := h
  obtain ⟨t, rfl, hroutes⟩ := allocateInternal_eq_some (by decide) halloc
  have hbinds : Binds c (rememberDmabuf { c with shadowTable := t } n hostId
      ((c.globalGenerations.get n).getD 0)) n := ⟨⟨rfl, rfl, hroutes, rfl⟩, .set 0 rfl⟩
  obtain ⟨o, ho, hsettled⟩ := offerBoundDmabuf_settled
    (rememberDmabuf { c with shadowTable := t } n hostId ((c.globalGenerations.get n).getD 0))
    r n v (c.options.canSynthesizeDmabufFeedback v)
  refine ⟨o, ho, hbinds.settled (hsettled.binds_after ?_)⟩
  dsimp only at h
  by_cases hsynthesize : c.options.canSynthesizeDmabufFeedback v = true
  · rw [if_pos hsynthesize] at h
    have hbarrier := queueDmabufCapabilityBarrier_binds (n := n) h
    refine ⟨⟨hbarrier.ledger, hbarrier.events, hbarrier.routes, hbarrier.options⟩,
      hbarrier.binds⟩
  · rw [if_neg hsynthesize] at h
    rw [← Option.some.inj h]
    exact ⟨⟨rfl, rfl, .refl _, rfl⟩, fun k hk => .inl hk⟩

/-- The outcome suits the global. -/
def Treats (options : GlobalOptions) (i : Interface) (v : ℕ) : Outcome → Prop
  | .published global => global = publishedGlobal options i v ∧
    options.interfaceIsSupported global.interface = true
  | .hidden => True
  | .deferred version =>
    i = .zwpLinuxDmabufV1 ∧ version = options.dmabufClientVersion v

theorem IsDmabufOutcome.treats {options : GlobalOptions} {v : ℕ} {o : Outcome}
    (h : IsDmabufOutcome options v o) : Treats options .zwpLinuxDmabufV1 v o := by
  rcases h with rfl | rfl | rfl
  · trivial
  · exact ⟨rfl, rfl⟩
  · exact ⟨rfl, rfl⟩

/-- What a registry forwards may be bound. -/
theorem interfaceIsSupported_of_isForwarded {options : GlobalOptions} {i : Interface}
    (h : options.isForwarded i = true) : options.interfaceIsSupported i = true := by
  simp only [GlobalOptions.isForwarded, GlobalOptions.interfaceIsSupported,
    Bool.or_eq_true] at h ⊢
  tauto

theorem onOtherGlobal_settled {g v : ℕ} {i : Interface} (hg : c.shadowTable.getGuestId r = some g)
    (hi : publishedGlobal c.options i v =
      { interface := i, version := advertisedGlobalVersion i v }) :
    ∃ o, Treats c.options i v o ∧ Settled c
      (forwardEvent (c.onOtherGlobal r n i v) r fun guestId => .global guestId n i v) r n o := by
  unfold onOtherGlobal
  dsimp only
  split_ifs with hforwarded hversion
  · exact ⟨.hidden, trivial, settled_hidden ..⟩
  · have hsupported := interfaceIsSupported_of_isForwarded (by simpa using hforwarded)
    exact ⟨.published _, ⟨hi.symm, hsupported⟩, settled_offerGlobal ..⟩
  · have heq : advertisedGlobalVersion i v = v := by simpa using hversion
    refine ⟨.published { interface := i, version := v }, ?_, ?_⟩
    · rw [Treats, hi, heq]
      exact ⟨rfl, interfaceIsSupported_of_isForwarded (by simpa using hforwarded)⟩
    · have hg' : ({ c with hostGlobals := c.hostGlobals.set n ⟨i, v⟩
          }.recordRegistryGlobalVisibility r n true).shadowTable.getGuestId r = some g := hg
      simp only [forwardEvent, hg']
      refine ⟨?_, ?_, .refl _, rfl, fun k hk => .inl hk⟩
      · have := (settled_offerGlobal c r n i v).ledger
        exact this
      · simp only [hg]
        rfl

/-- An advertisement that was recorded is treated, and the guest told of it. -/
theorem classifyGlobal_settled {g v : ℕ} {i : Interface} {result : Action × GlobalContext}
    (hg : c.shadowTable.getGuestId r = some g) (h : c.classifyGlobal r n i v = some result) :
    ∃ o, Treats c.options i v o ∧ Settled c
      (forwardEvent result r fun guestId => .global guestId n i v) r n o := by
  unfold classifyGlobal at h
  split_ifs at h with hold
  · rw [← Option.some.inj h]
    exact ⟨.hidden, trivial, settled_hidden ..⟩
  · split at h
    · obtain ⟨c', hc', rfl⟩ := Option.map_eq_some_iff.mp h
      obtain ⟨o, ho, hsettled⟩ := onDmabufGlobal_settled hc'
      exact ⟨o, ho.treats, hsettled⟩
    · obtain ⟨c', hc', rfl⟩ := Option.map_eq_some_iff.mp h
      exact ⟨.published _, ⟨rfl, rfl⟩, onTextInputManagerGlobal_settled hc'⟩
    · obtain ⟨c', hc', rfl⟩ := Option.map_eq_some_iff.mp h
      exact ⟨.hidden, trivial, onTextInputExtensionGlobal_settled hc'⟩
    · obtain ⟨c', hc', rfl⟩ := Option.map_eq_some_iff.mp h
      exact ⟨.hidden, trivial, onKeyboardExtensionGlobal_settled hc'⟩
    · obtain ⟨c', hc', rfl⟩ := Option.map_eq_some_iff.mp h
      exact ⟨.published _, ⟨rfl, rfl⟩, onZauraShellGlobal_settled hc'⟩
    · obtain ⟨c', hc', rfl⟩ := Option.map_eq_some_iff.mp h
      exact ⟨.published _, ⟨rfl, rfl⟩, onShmGlobal_settled hc'⟩
    · rw [← Option.some.inj h]
      refine onOtherGlobal_settled hg ?_
      unfold publishedGlobal
      split <;> first | contradiction | rfl

/-- An advertisement the registry lists already is ignored, any other one noted and treated. -/
theorem onGlobal_effect {g v : ℕ} {i : Interface} {result : Action × GlobalContext}
    (hg : c.shadowTable.getGuestId r = some g) (h : c.onGlobal r n i v = some result) :
    let c' := forwardEvent result r fun guestId => .global guestId n i v
    c' = c ∧ (v = 0 ∨ c.ledger.Lists r n) ∨
      ∃ o, v ≠ 0 ∧ ¬ c.ledger.Lists r n ∧ Treats c.options i v o ∧
        c'.ledger = c.ledger.advertise r n o ∧
        c'.guestEvents = o.announcement g n ++ c.guestEvents ∧
        c.shadowTable.Routes c'.shadowTable ∧ c'.options = c.options ∧ BindsOnly c c' n := by
  unfold onGlobal at h
  by_cases hv : v = 0
  · rw [if_pos hv] at h
    rw [← Option.some.inj h]
    exact .inl ⟨rfl, .inl hv⟩
  rw [if_neg hv] at h
  by_cases hlists : c.ledger.Lists r n
  · rw [noteRegistryGlobal_listed hlists] at h
    rw [← Option.some.inj h]
    exact .inl ⟨rfl, .inr hlists⟩
  obtain ⟨c₁, hnote, hledger, hframe, hnames⟩ := noteRegistryGlobal_effect hlists
  rw [hnote] at h
  simp only [Bool.not_true, Bool.false_eq_true, if_false] at h
  obtain ⟨hl, he, hroutes, ho, hb⟩ := replaceGeneration_effect c c₁ r n
  revert h hl he hroutes ho hb
  dsimp only
  generalize (c₁.replaceGeneration c r n).clearTombstone n = c₂
  intro h hl he hroutes ho hb
  have hroutes' : c.shadowTable.Routes c₂.shadowTable := hframe.routes.trans hroutes
  have hg' : c₂.shadowTable.getGuestId r = some g :=
    (hroutes'.getGuestId r).trans hg
  obtain ⟨o, htreats, hsettled⟩ := classifyGlobal_settled hg' h
  have hoptions : c₂.options = c.options := ho.trans hframe.options
  refine .inr ⟨o, hv, hlists, hoptions ▸ htreats, ?_, ?_, hroutes'.trans hsettled.routes,
    hsettled.options.trans hoptions, ?_⟩
  · rw [hsettled.ledger, hl, hledger, Ledger.advertise]
  · rw [hsettled.events, he, hframe.events, hg']
    rfl
  · intro k hk
    rcases hsettled.binds k hk with hk | hk
    · refine (hb k hk).imp_left fun hk => ?_
      rwa [internalBindingMatches_iff, hnames, ← internalBindingMatches_iff] at hk
    · exact .inr hk

/-! ## Removals -/

/-- Some registry lists the name at its current generation. -/
theorem stillSeen_iff : c.stillSeen n = true ↔ ∃ r, c.ledger.Lists r n := by
  simp only [stillSeen, Table.any_eq_true, Bool.and_eq_true, decide_eq_true_eq, beq_iff_eq]
  constructor
  · rintro ⟨r, names, hnames, hn, hg⟩
    exact ⟨r, by simpa [ledger, namesOf, hnames] using hn, hg⟩
  · rintro ⟨r, hn, hg⟩
    simp only [ledger, namesOf] at hn
    cases hnames : c.registryGlobalNames.get r with
    | none => simp [hnames] at hn
    | some names => exact ⟨r, names, hnames, by simpa [hnames] using hn, hg⟩

theorem unlistGlobal_effect (c : GlobalContext) (r n : ℕ) :
    (c.unlistGlobal r n).ledger = c.ledger.remove r n false false ∧
      NotedFrame c (c.unlistGlobal r n) ∧ (c.unlistGlobal r n).bindingNames = c.bindingNames := by
  have htables : ∀ c₁ : GlobalContext,
      c₁.ledger = { c.ledger with
        names := Function.update c.ledger.names r ((c.ledger.names r).erase n)
        pending := c.ledger.pending.filter fun pending =>
          !(pending.registryHostId == r && pending.name == n &&
            some pending.generation == c.ledger.generation r n) } →
      GlobalContext.ledger { c₁ with
        registryGlobalVisibility := c₁.registryGlobalVisibility.modify r (Table.erase · n)
        registryGlobalRemoved := c₁.registryGlobalRemoved.set r (insert n (c₁.removedOf r)) } =
        c.ledger.remove r n false false := by
    intro c₁ h₁
    simp only [ledger, Ledger.mk.injEq] at h₁
    obtain ⟨hnames, hremoved, hgeneration, hvisibility, hcurrent, hnext, hpublished, htombstones,
      hpending⟩ := h₁
    refine Ledger.ext hnames ?_ hgeneration ?_ hcurrent hnext hpublished htombstones hpending <;>
      funext r'
    · by_cases h : r' = r <;> simp [ledger, Ledger.remove, removedOf, h, ← hremoved]
    · funext n'
      simp only [ledger, Ledger.remove, ← hvisibility, setEntry_apply, visibilityOf,
        Table.get_modify]
      by_cases h : r' = r
      · subst h
        cases hr : c₁.registryGlobalVisibility.get r' <;> by_cases hn : n' = n <;> simp [hn]
      · simp [h]
  have hnames : GlobalContext.namesOf { c with
      registryGlobalNames := c.registryGlobalNames.modify r (·.erase n) } =
      Function.update c.namesOf r ((c.namesOf r).erase n) := by
    funext r'
    by_cases h : r' = r
    · subst h
      cases hr : c.registryGlobalNames.get r' <;> simp [namesOf, hr]
    · simp [namesOf, h]
  have hfilter : GlobalContext.ledger { c with
      registryGlobalNames := c.registryGlobalNames.modify r (·.erase n)
      pendingDmabufGlobals := c.pendingDmabufGlobals.filter fun pending =>
        !(pending.registryHostId == r && pending.name == n &&
          some pending.generation == c.generationOf r n) } = { c.ledger with
        names := Function.update c.ledger.names r ((c.ledger.names r).erase n)
        pending := c.ledger.pending.filter fun pending =>
          !(pending.registryHostId == r && pending.name == n &&
            some pending.generation == c.ledger.generation r n) } :=
    Ledger.ext hnames rfl rfl rfl rfl rfl rfl rfl rfl
  unfold unlistGlobal
  dsimp only
  cases hg : c.generationOf r n with
  | none =>
    rw [hg] at hfilter
    exact ⟨htables _ hfilter, ⟨rfl, .refl _, rfl⟩, rfl⟩
  | some g =>
    rw [hg] at hfilter
    have hframe := framed_maybeReclaimCapabilityGeneration { c with
      registryGlobalNames := c.registryGlobalNames.modify r (·.erase n)
      pendingDmabufGlobals := c.pendingDmabufGlobals.filter fun pending =>
        !(pending.registryHostId == r && pending.name == n &&
          some pending.generation == some g) } g
    exact ⟨htables _ (hframe.ledger.trans hfilter), ⟨hframe.events, hframe.routes, hframe.options⟩,
      bindingNames_maybeReclaimCapabilityGeneration _ g⟩

theorem dropGlobal_effect (c : GlobalContext) (n : ℕ) :
    NotedFrame c (c.dropGlobal n) ∧ (∀ k, (c.dropGlobal n).internalBindingMatches k = true →
      c.internalBindingMatches k = true ∧ k ≠ n) ∧
      ∃ tombstone : Bool, (c.dropGlobal n).ledger = { c.ledger with
        published := Function.update c.ledger.published n none
        tombstones := if tombstone then insert n c.ledger.tombstones
          else c.ledger.tombstones } := by
  obtain ⟨hframe, -⟩ := resetInternalBindingForGlobal_effect c n
  have hbinds : ∀ k, (c.resetInternalBindingForGlobal n).internalBindingMatches k = true →
      c.internalBindingMatches k = true ∧ k ≠ n := fun k hk => internalBindingMatches_reset hk
  unfold dropGlobal
  revert hframe hbinds
  generalize c.resetInternalBindingForGlobal n = c₁
  intro hframe hbinds
  rw [← hframe.ledger]
  dsimp only
  split_ifs with h
  · refine ⟨⟨hframe.events, hframe.routes, hframe.options⟩, hbinds, true, ?_⟩
    refine Ledger.ext rfl rfl rfl rfl rfl rfl ?_ rfl rfl
    funext k
    simp [ledger, Function.update_apply]
  · refine ⟨⟨hframe.events, hframe.routes, hframe.options⟩, hbinds, false, ?_⟩
    refine Ledger.ext rfl rfl rfl rfl rfl rfl ?_ rfl rfl
    funext k
    have hnone : c₁.hostGlobals.get n = none := by
      simp only [Bool.or_eq_true, not_or, Option.not_isSome_iff_eq_none] at h
      exact h.2
    by_cases hk : k = n
    · subst hk
      simpa [ledger] using hnone
    · simp [ledger, hk]

/-- How the code finds that a removal is the last of the current generation. -/
theorem lastRemoval_iff (c : GlobalContext) (r n : ℕ) :
    (c.generationOf r n == (c.unlistGlobal r n).globalGenerations.get n &&
      !(c.unlistGlobal r n).stillSeen n) = true ↔ c.ledger.IsLast r n := by
  obtain ⟨hledger, -⟩ := unlistGlobal_effect c r n
  have hcurrent := congrArg Ledger.current hledger
  simp only [Bool.and_eq_true, beq_iff_eq, Bool.not_eq_true', ← Bool.not_eq_true, stillSeen_iff,
    hledger, not_exists, Ledger.lists_remove, not_and]
  have hn : (c.unlistGlobal r n).globalGenerations.get n = c.ledger.current n :=
    congrFun hcurrent n
  exact Iff.and (by rw [hn]; rfl) Iff.rfl

/-- A removal is ignored, or taken off the ledger; the guest is told if it saw the global.
The last one of a generation drops what is bound from it. -/
theorem onGlobalRemove_effect {g : ℕ} (hg : c.shadowTable.getGuestId r = some g)
    (hn : n ∈ c.namesOf r) :
    let c' := forwardEvent (c.onGlobalRemove r n) r fun guestId => .globalRemove guestId n
    ∃ last tombstone, (last = true ↔ c.ledger.IsLast r n) ∧ (tombstone = true → last = true) ∧
      c'.ledger = c.ledger.remove r n last tombstone ∧
      c'.guestEvents =
        (if (c.visibilityOf r n).getD (c.hostGlobals.get n).isSome then [.globalRemove g n]
          else []) ++ c.guestEvents ∧
      c.shadowTable.Routes c'.shadowTable ∧ c'.options = c.options ∧
      ∀ k, c'.internalBindingMatches k = true →
        c.internalBindingMatches k = true ∧ ¬ (last = true ∧ k = n) := by
  obtain ⟨hledger, hframe, hnames⟩ := unlistGlobal_effect c r n
  have hlast := lastRemoval_iff c r n
  have hvisible : ∀ (visible : Bool) (next : GlobalContext),
      c.shadowTable.Routes next.shadowTable →
      forwardEvent (if visible then .forward else .drop, next) r
        (fun guestId => .globalRemove guestId n) =
      { next with guestEvents :=
          (if visible then [.globalRemove g n] else []) ++ next.guestEvents } := by
    intro visible next hroutes
    have hg' : next.shadowTable.getGuestId r = some g :=
      (hroutes.getGuestId r).trans hg
    cases visible
    · rfl
    · simp only [forwardEvent, if_true, hg']
      rfl
  unfold onGlobalRemove
  rw [if_neg (not_not_intro hn)]
  dsimp only
  by_cases h : (c.generationOf r n == (c.unlistGlobal r n).globalGenerations.get n &&
      !(c.unlistGlobal r n).stillSeen n) = true
  · simp only [if_pos h]
    obtain ⟨hframe', hbinds, tombstone, hledger'⟩ := dropGlobal_effect (c.unlistGlobal r n) n
    rw [hvisible _ _ (hframe.routes.trans hframe'.routes)]
    refine ⟨true, tombstone, iff_of_true rfl (hlast.mp h), fun _ => rfl, ?_, ?_,
      hframe.routes.trans hframe'.routes, hframe'.options.trans hframe.options, ?_⟩
    · exact hledger'.trans (by rw [hledger]; rfl)
    · dsimp only
      rw [hframe'.events, hframe.events]
    · intro k hk
      obtain ⟨hk', hne⟩ := hbinds k hk
      rw [internalBindingMatches_iff, hnames, ← internalBindingMatches_iff] at hk'
      exact ⟨hk', fun h => hne h.2⟩
  · simp only [if_neg h]
    rw [hvisible _ _ hframe.routes]
    refine ⟨false, false, iff_of_false Bool.false_ne_true (mt hlast.mpr h), id, hledger, ?_,
      hframe.routes, hframe.options, ?_⟩
    · dsimp only
      rw [hframe.events]
    · intro k hk
      rw [internalBindingMatches_iff] at hk
      refine ⟨internalBindingMatches_iff.mpr (hnames ▸ hk), fun h => ?_⟩
      exact Bool.false_ne_true h.1

end GlobalContext
end Sommelier
