import Sommelier.Globals.Refinement

/-!
# What a message does

A session is viewed as its ledger, the routing of its messages, what the guest was told about
each name, and the names the proxy is bound to. Every message acts on this view in one of a
few ways.

## Main definitions

* `GlobalView`, `GlobalContext.view`: the view.
* `Effect`: the ways.
* `step_effect`: every step is one of them.
-/
namespace Sommelier

namespace GlobalContext
variable {c c' c₁ : GlobalContext}

/-! ## Changes that do not concern the registries -/

/-- Formats, feedback objects and callbacks may differ, and what the guest was told of them. -/
structure Aside (c c' : GlobalContext) : Prop where
  ledger : c'.ledger = c.ledger
  notices : ∀ g n, registryNotices g n c'.guestEvents = registryNotices g n c.guestEvents
  bound : c'.bindingNames = c.bindingNames
  table : c'.shadowTable = c.shadowTable
  options : c'.options = c.options

namespace Aside

theorem refl (c : GlobalContext) : Aside c c := ⟨rfl, fun _ _ => rfl, rfl, rfl, rfl⟩

theorem trans (h : Aside c c₁) (h' : Aside c₁ c') : Aside c c' :=
  ⟨h'.ledger.trans h.ledger, fun g n => (h'.notices g n).trans (h.notices g n),
    h'.bound.trans h.bound, h'.table.trans h.table, h'.options.trans h.options⟩

/-- The part that is known first comes last. -/
theorem after (h' : Aside c₁ c') (h : Aside c c₁) : Aside c c' := h.trans h'

theorem foldl {α : Type} {f : GlobalContext → α → GlobalContext} (hf : ∀ c a, Aside c (f c a))
    (as : List α) (c : GlobalContext) : Aside c (as.foldl f c) := by
  induction as generalizing c with
  | nil => exact .refl c
  | cons a as ih => exact (hf c a).trans (ih (f c a))

end Aside

theorem aside_maybeReclaimCapabilityGeneration (c : GlobalContext) (g : ℕ) :
    Aside c (c.maybeReclaimCapabilityGeneration g) := by
  unfold maybeReclaimCapabilityGeneration
  split_ifs
  · exact .refl c
  · exact ⟨rfl, fun _ _ => rfl, rfl, rfl, rfl⟩

theorem aside_advertiseShmFormat (format : ℕ) (c : GlobalContext) (g : ℕ) :
    Aside c (advertiseShmFormat format c g) := by
  unfold advertiseShmFormat
  split_ifs
  · exact .refl c
  · split
    · exact .refl c
    · split_ifs
      · exact .refl c
      · exact ⟨rfl, fun _ _ => rfl, rfl, rfl, rfl⟩

theorem aside_recordHostShmFormat (c : GlobalContext) (format : ℕ) :
    Aside c (c.recordHostShmFormat format) := by
  unfold recordHostShmFormat
  split_ifs
  · exact .refl c
  · dsimp only
    exact .after (.foldl (aside_advertiseShmFormat format) _ _)
      ⟨rfl, fun _ _ => rfl, rfl, rfl, rfl⟩

theorem aside_recordHostShmWlFormat (c : GlobalContext) (format : ℕ) :
    Aside c (c.recordHostShmWlFormat format) := by
  unfold recordHostShmWlFormat
  refine Aside.trans ?_ (aside_recordHostShmFormat _ format)
  split_ifs
  · exact ⟨rfl, fun _ _ => rfl, rfl, rfl, rfl⟩
  · exact .refl c

theorem aside_recordHostShmDrmFormat (c : GlobalContext) (format : ℕ) :
    Aside c (c.recordHostShmDrmFormat format) := by
  unfold recordHostShmDrmFormat
  split
  · exact .refl c
  · exact .after (aside_recordHostShmFormat _ _) ⟨rfl, fun _ _ => rfl, rfl, rfl, rfl⟩

theorem aside_registerGuestShm (c : GlobalContext) (g : ℕ) : Aside c (c.registerGuestShm g) := by
  have hsend : ∀ (c : GlobalContext) (format : ℕ),
      Aside c (c.sendGuest (.shmFormat g format)) := fun _ _ =>
    ⟨rfl, fun _ _ => rfl, rfl, rfl, rfl⟩
  unfold registerGuestShm
  exact .after (.foldl hsend _ _) ⟨rfl, fun _ _ => rfl, rfl, rfl, rfl⟩

theorem aside_queueSyntheticFeedback {tables : Bool} {g generation : ℕ}
    (h : c.queueSyntheticFeedback tables g generation = some c') : Aside c c' := by
  unfold queueSyntheticFeedback at h
  dsimp only at h
  split_ifs at h
  rw [← Option.some.inj h]
  exact ⟨rfl, fun _ _ => rfl, rfl, rfl, rfl⟩

theorem aside_publishFeedbacks (tables : Bool) (generation : ℕ) (gs : List ℕ)
    (c : GlobalContext) : Aside c (publishFeedbacks tables generation gs c) := by
  induction gs generalizing c with
  | nil => exact .refl c
  | cons g gs ih =>
    unfold publishFeedbacks
    split
    · next h => exact (aside_queueSyntheticFeedback h).trans (ih _)
    · exact ⟨rfl, fun _ _ => rfl, rfl, rfl, rfl⟩

theorem aside_refreshFeedbacks (tables : Bool) (generation : ℕ) (gs : List ℕ)
    (c : GlobalContext) : Aside c (refreshFeedbacks tables generation gs c) := by
  induction gs generalizing c with
  | nil => exact .refl c
  | cons g gs ih =>
    unfold refreshFeedbacks
    split_ifs
    · exact ih c
    · dsimp only
      split
      · next h =>
        exact .after ((aside_queueSyntheticFeedback h).trans (ih _))
          ⟨rfl, fun _ _ => rfl, rfl, rfl, rfl⟩
      · exact ⟨rfl, fun _ _ => rfl, rfl, rfl, rfl⟩

theorem aside_refreshSyntheticFeedbacks (c : GlobalContext) (tables : Bool) :
    Aside c (c.refreshSyntheticFeedbacks tables) := by
  unfold refreshSyntheticFeedbacks
  split
  · exact .refl c
  · split_ifs
    · exact aside_refreshFeedbacks ..
    · exact .refl c

theorem aside_recordPair (c : GlobalContext) (pair : ℕ × ℕ) : Aside c (c.recordPair pair).2 := by
  unfold recordPair
  split
  · exact .refl c
  · dsimp only
    split_ifs <;> exact ⟨rfl, fun _ _ => rfl, rfl, rfl, rfl⟩

theorem aside_onReport (c : GlobalContext) (tables : Bool) (h format modifier : ℕ) :
    Aside c (c.onReport tables h format modifier).2 := by
  have hrecord := (aside_recordHostShmDrmFormat c format).trans
    (aside_recordPair (c.recordHostShmDrmFormat format) (format, modifier))
  unfold onReport
  split_ifs
  · exact .refl c
  · dsimp only
    split_ifs
    · exact hrecord.trans (aside_refreshSyntheticFeedbacks _ tables)
    · exact hrecord
  · exact .refl c
  · exact .refl c

theorem aside_dmabufOnDestroy (c : GlobalContext) (g : ℕ) : Aside c (c.dmabufOnDestroy g).2 := by
  unfold dmabufOnDestroy
  split
  · exact .after (aside_maybeReclaimCapabilityGeneration _ _)
      ⟨rfl, fun _ _ => rfl, rfl, rfl, rfl⟩
  · exact .refl c

theorem aside_feedbackOnDestroy (c : GlobalContext) (g : ℕ) :
    Aside c (c.feedbackOnDestroy g).2 := by
  unfold feedbackOnDestroy
  split
  · exact .after (aside_maybeReclaimCapabilityGeneration _ _)
      ⟨rfl, fun _ _ => rfl, rfl, rfl, rfl⟩
  · exact .refl c

theorem aside_forwardEvent {result : Action × GlobalContext} {h : ℕ} {event : ℕ → GuestEvent}
    (hevent : ∀ g g' n, registryNotice g' n (event g) = none) (haside : Aside c result.2) :
    Aside c (forwardEvent result h event) := by
  unfold forwardEvent
  split
  · next g _ _ =>
    refine haside.trans ⟨rfl, fun g' n => ?_, rfl, rfl, rfl⟩
    simp [registryNotices, sendGuest, hevent]
  · exact haside

end GlobalContext

/-! ## The view -/

structure GlobalView where
  ledger : Ledger
  ids : ShadowTable.Ids
  /-- What the guest was told about a name on one of its registries. -/
  notices : ℕ → ℕ → List RegistryNotice
  /-- The proxy is bound to the name. -/
  bound : ℕ → Prop

namespace GlobalView

/-- The guest is told something. -/
def tell (v : GlobalView) (told : List GuestEvent) : GlobalView :=
  { v with notices := fun g n => registryNotices g n told ++ v.notices g n }

/-- The appearances and disappearances of a name on a registry of the guest. -/
def edges (v : GlobalView) (g n : ℕ) : List (Edge Unit) :=
  (v.notices g n).map RegistryNotice.edge

/-- A registry that the guest has not destroyed. -/
def Live (v : GlobalView) (r g : ℕ) : Prop :=
  v.ids.hostToGuest.get r = some g ∧ v.ids.interfaces.get g = some .wlRegistry ∧
    g ∉ v.ids.pendingDestroyGuestIds

/-- Publish one advertisement that was held back. -/
def publishOne (generation : ℕ) (v : GlobalView) (p : PendingDmabufGlobal) : GlobalView :=
  if v.ledger.IsCurrent p generation then
    { v with
      ledger := v.ledger.settle p.registryHostId p.name
        (.published { interface := .zwpLinuxDmabufV1, version := p.version }) }.tell
      [.global ((v.ids.hostToGuest.get p.registryHostId).getD p.registryHostId) p.name
        .zwpLinuxDmabufV1 p.version]
  else v

/-- The advertisements of a generation are held back no longer. -/
def publish (v : GlobalView) (generation : ℕ) (canPublish : Bool) : GlobalView :=
  let matching := v.ledger.pending.filter (·.generation == generation)
  let v := { v with ledger := { v.ledger with
    pending := v.ledger.pending.filter (·.generation != generation) } }
  if canPublish then matching.foldl (publishOne generation) v else v

end GlobalView

namespace GlobalContext

def view (c : GlobalContext) : GlobalView where
  ledger := c.ledger
  ids := c.shadowTable.ids
  notices g n := registryNotices g n c.guestEvents
  bound n := c.internalBindingMatches n = true

variable {c c' : GlobalContext}

theorem Aside.view (h : Aside c c') : c'.view = c.view := by
  simp only [GlobalContext.view, h.ledger, h.table, h.notices, internalBindingMatches_iff, h.bound]

theorem view_of_told {told : List GuestEvent} (hevents : c'.guestEvents = told ++ c.guestEvents)
    (hroutes : c.shadowTable.Routes c'.shadowTable) :
    c'.view = GlobalView.tell { c.view with
      ledger := c'.ledger
      bound := fun n => c'.internalBindingMatches n = true } told := by
  simp only [GlobalContext.view, GlobalView.tell, hroutes.ids, hevents, registryNotices,
    List.filterMap_append]

theorem pendingIsCurrent_iff {p : PendingDmabufGlobal} {generation : ℕ} :
    c.pendingIsCurrent p generation = true ↔ c.ledger.IsCurrent p generation := by
  simp [pendingIsCurrent, Ledger.IsCurrent, ledger, and_assoc]

theorem view_publishPendingDmabufGlobal (generation : ℕ) (c : GlobalContext)
    (p : PendingDmabufGlobal) :
    (publishPendingDmabufGlobal generation c p).view = c.view.publishOne generation p := by
  unfold publishPendingDmabufGlobal GlobalView.publishOne
  by_cases h : c.view.ledger.IsCurrent p generation
  · rw [if_pos (pendingIsCurrent_iff.mpr h), if_pos h]
    have hsettled := settled_offerGlobal c p.registryHostId p.name .zwpLinuxDmabufV1 p.version
    exact (view_of_told hsettled.events hsettled.routes).trans (by rw [hsettled.ledger]; rfl)
  · rw [if_neg (mt pendingIsCurrent_iff.mp h), if_neg h]

theorem view_publishPendingDmabufGlobals (c : GlobalContext) (generation : ℕ) :
    (c.publishPendingDmabufGlobals generation).view =
      c.view.publish generation (c.hasSyntheticFeedbackFormats generation) := by
  have hfold : ∀ (ps : List PendingDmabufGlobal) (c : GlobalContext),
      (ps.foldl (publishPendingDmabufGlobal generation) c).view =
        ps.foldl (GlobalView.publishOne generation) c.view := by
    intro ps
    induction ps with
    | nil => exact fun _ => rfl
    | cons p ps ih =>
      intro c
      rw [List.foldl_cons, List.foldl_cons, ih, view_publishPendingDmabufGlobal]
  unfold publishPendingDmabufGlobals GlobalView.publish
  dsimp only
  split_ifs
  · exact hfold _ _
  · rfl

end GlobalContext

/-! ## The effects of messages -/

namespace ShadowTable.Ids

/-- A new object on both sides. -/
def bind (t : ShadowTable.Ids) (g h : ℕ) (i : Interface) : ShadowTable.Ids :=
  { t with
    guestToHost := t.guestToHost.set g h
    hostToGuest := t.hostToGuest.set h g
    interfaces := t.interfaces.set g i }

/-- A new object that only the proxy knows. -/
def track (t : ShadowTable.Ids) (g : ℕ) (i : Interface) : ShadowTable.Ids :=
  { t with interfaces := t.interfaces.set g i }

/-- The destructor of an object was sent. -/
def doom (t : ShadowTable.Ids) (g : ℕ) : ShadowTable.Ids :=
  { t with pendingDestroyGuestIds := insert g t.pendingDestroyGuestIds }

/-- An object that only the proxy knew is gone. -/
def untrack (t : ShadowTable.Ids) (g : ℕ) : ShadowTable.Ids :=
  { t with
    interfaces := t.interfaces.erase g
    pendingDestroyGuestIds := t.pendingDestroyGuestIds.erase g }

/-- The host acknowledged a destructor. -/
def unbind (t : ShadowTable.Ids) (g h : ℕ) : ShadowTable.Ids :=
  { guestToHost := t.guestToHost.erase g
    hostToGuest := t.hostToGuest.erase h
    interfaces := t.interfaces.erase g
    pendingDestroyGuestIds := t.pendingDestroyGuestIds.erase g }

end ShadowTable.Ids

/-- Messages about what a registry lists. -/
def GlobalMessage.isListing : GlobalMessage → Bool
  | .global .. | .globalRemove .. | .destroyRegistry .. => true
  | _ => false

/-- The guest object that a message creates. -/
def GlobalMessage.created : GlobalMessage → Option (ℕ × Interface)
  | .getRegistry g => some (g, .wlRegistry)
  | .bind _ _ i _ g => some (g, i)
  | .getFeedback _ g _ => some (g, .zwpLinuxDmabufFeedbackV1)
  | .createPool _ g _ => some (g, .wlShmPool)
  | .newObject _ g i => some (g, i)
  | _ => none

/-- The object of the proxy that a message destroys. -/
def GlobalMessage.destroyed : GlobalMessage → Option (ℕ × Interface)
  | .destroyFeedback g => some (g, .zwpLinuxDmabufFeedbackV1)
  | .destroyPool g => some (g, .wlShmPool)
  | .releaseShm g => some (g, .wlShm)
  | _ => none

/-- The ways a message acts on the view. -/
inductive Effect (options : GlobalOptions) : GlobalMessage → GlobalView → GlobalView → Prop
  | idle {m v} (hm : m.isListing = false) : Effect options m v v
  | bind {m v} {g h : ℕ} {i : Interface} (hm : m.isListing = false)
      (hg : v.ids.guestToHost.get g = none) (hh : v.ids.hostToGuest.get h = none)
      (hnew : v.ids.interfaces.get g = none) (hcreated : m.created = some (g, i))
      (hshm : i ≠ .wlShm) : Effect options m v { v with ids := v.ids.bind g h i }
  | track {m v} {g : ℕ} {i : Interface} (hm : m.isListing = false)
      (hg : v.ids.guestToHost.get g = none) (hnew : v.ids.interfaces.get g = none)
      (hcreated : m.created = some (g, i)) : Effect options m v { v with ids := v.ids.track g i }
  | doom {m v} {g h : ℕ} {i : Interface} (hm : m.isListing = false)
      (hg : v.ids.guestToHost.get g = some h) (hi : v.ids.interfaces.get g = some i)
      (hregistry : i ≠ .wlRegistry) : Effect options m v { v with ids := v.ids.doom g }
  | untrack {m v} {g : ℕ} {i : Interface} (hm : m.isListing = false)
      (hg : v.ids.guestToHost.get g = none) (hi : v.ids.interfaces.get g = some i)
      (hdestroyed : m.destroyed = some (g, i)) :
      Effect options m v (GlobalView.tell { v with ids := v.ids.untrack g } [.deleteId g])
  | unbind {v} {g h : ℕ} (hg : v.ids.guestToHost.get g = some h)
      (hh : v.ids.hostToGuest.get h = some g) (hdoomed : g ∈ v.ids.pendingDestroyGuestIds) :
      Effect options (.deleteId h) v
        (GlobalView.tell { v with ids := v.ids.unbind g h } [.deleteId g])
  | ignored {v} {r n version : ℕ} {i : Interface}
      (h : version = 0 ∨ v.ledger.Lists r n ∨ ∀ g, ¬ v.Live r g) :
      Effect options (.global r n i version) v v
  | advertise {v} {r n version g : ℕ} {i : Interface} {o : Outcome} {bound : ℕ → Prop}
      (hversion : version ≠ 0) (hlive : v.Live r g) (hlists : ¬ v.ledger.Lists r n)
      (ho : GlobalContext.Treats options i version o)
      (hbound : ∀ k, bound k → v.bound k ∨ k = n) :
      Effect options (.global r n i version) v
        (GlobalView.tell { v with ledger := v.ledger.advertise r n o, bound }
          (o.announcement g n))
  | unlisted {v} {r n : ℕ} (h : n ∉ v.ledger.names r ∨ ∀ g, ¬ v.Live r g) :
      Effect options (.globalRemove r n) v v
  | remove {v} {r n g : ℕ} {last tombstone : Bool} {bound : ℕ → Prop}
      (hlive : v.Live r g) (hn : n ∈ v.ledger.names r)
      (hlast : last = true ↔ v.ledger.IsLast r n) (htombstone : tombstone = true → last = true)
      (hbound : ∀ k, bound k → v.bound k ∧ ¬ (last = true ∧ k = n)) :
      Effect options (.globalRemove r n) v
        (GlobalView.tell { v with ledger := v.ledger.remove r n last tombstone, bound }
          (if (v.ledger.visibility r n).getD (v.ledger.published n).isSome then
            [.globalRemove g n] else []))
  | forget {v} {fixes g r : ℕ} (hlive : v.Live r g) (hg : v.ids.guestToHost.get g = some r) :
      Effect options (.destroyRegistry fixes g) v
        { v with ledger := v.ledger.forget r, ids := v.ids.doom g }
  | publish {m v} (generation : ℕ) (canPublish : Bool) (hm : m.isListing = false) :
      Effect options m v (v.publish generation canPublish)

namespace GlobalView
variable (v : GlobalView) (generation : ℕ)

theorem publishOne_ids (p : PendingDmabufGlobal) : (v.publishOne generation p).ids = v.ids := by
  unfold publishOne
  split_ifs <;> rfl

theorem foldl_publishOne_ids (ps : List PendingDmabufGlobal) :
    (ps.foldl (publishOne generation) v).ids = v.ids := by
  induction ps generalizing v with
  | nil => rfl
  | cons p ps ih => exact (ih _).trans (publishOne_ids v generation p)

/-- Publishing does not change the routing of messages. -/
@[simp] theorem publish_ids (canPublish : Bool) :
    (v.publish generation canPublish).ids = v.ids := by
  unfold publish
  dsimp only
  split_ifs
  · exact foldl_publishOne_ids _ generation _
  · rfl

/-- What publishing leaves alone in a ledger. -/
structure SameListing (l l' : Ledger) : Prop where
  names : l'.names = l.names
  removed : l'.removed = l.removed
  generation : l'.generation = l.generation
  current : l'.current = l.current
  next : l'.next = l.next
  tombstones : l'.tombstones = l.tombstones

theorem publishOne_listing (p : PendingDmabufGlobal) :
    SameListing v.ledger (v.publishOne generation p).ledger := by
  unfold publishOne
  split_ifs <;> exact ⟨rfl, rfl, rfl, rfl, rfl, rfl⟩

theorem foldl_publishOne_listing (ps : List PendingDmabufGlobal) :
    SameListing v.ledger (ps.foldl (publishOne generation) v).ledger := by
  induction ps generalizing v with
  | nil => exact ⟨rfl, rfl, rfl, rfl, rfl, rfl⟩
  | cons p ps ih =>
    have hone := publishOne_listing v generation p
    have hrest := ih (v.publishOne generation p)
    exact ⟨hrest.names.trans hone.names, hrest.removed.trans hone.removed,
      hrest.generation.trans hone.generation, hrest.current.trans hone.current,
      hrest.next.trans hone.next, hrest.tombstones.trans hone.tombstones⟩

/-- Publishing does not change what the registries list. -/
theorem publish_listing (canPublish : Bool) :
    SameListing v.ledger (v.publish generation canPublish).ledger := by
  unfold publish
  dsimp only
  split_ifs
  · have h := foldl_publishOne_listing { v with ledger := { v.ledger with
      pending := v.ledger.pending.filter (·.generation != generation) } } generation
      (v.ledger.pending.filter (·.generation == generation))
    exact ⟨h.names, h.removed, h.generation, h.current, h.next, h.tombstones⟩
  · exact ⟨rfl, rfl, rfl, rfl, rfl, rfl⟩

theorem publishOne_bound (p : PendingDmabufGlobal) :
    (v.publishOne generation p).bound = v.bound := by
  unfold publishOne
  split_ifs <;> rfl

theorem foldl_publishOne_bound (ps : List PendingDmabufGlobal) :
    (ps.foldl (publishOne generation) v).bound = v.bound := by
  induction ps generalizing v with
  | nil => rfl
  | cons p ps ih => exact (ih _).trans (publishOne_bound v generation p)

/-- Publishing binds nothing. -/
@[simp] theorem publish_bound (canPublish : Bool) :
    (v.publish generation canPublish).bound = v.bound := by
  unfold publish
  dsimp only
  split_ifs
  · exact foldl_publishOne_bound _ generation _
  · rfl

end GlobalView
end Sommelier
