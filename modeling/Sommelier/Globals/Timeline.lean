import Sommelier.Globals.RemovalFinality

/-!
# The host's side of the registries

The host advertises and removes globals, and sends each registry the globals in force at its
creation and every later change, each registry at its own pace.

## Main definitions

* `Heard`: which advertisement each registry told the proxy last.
* `Timeline`: a session, and what the host has still to send.
* `Agrees`: a global that all registries list can be bound through each of them.
* `Misleads`: the steps after which the proxy takes one advertisement for another.
-/
namespace Sommelier

/-- An advertisement of the host. -/
structure Advertisement where
  name : ℕ
  interface : Interface
  version : ℕ

/-- A change of the globals; advertisements are numbered. -/
inductive HostChange
  | add (serial : ℕ)
  | remove (name : ℕ)

/-- What the registries of the host have told the proxy. -/
structure Heard where
  /-- The advertisement of a name that a registry lists. -/
  listed : ℕ → ℕ → Option ℕ
  /-- The last advertisement of a name on a registry the guest had then. -/
  told : ℕ → ℕ → Option ℕ
  /-- The last advertisement of a name on any registry. -/
  latest : ℕ → Option ℕ

namespace Heard

def empty : Heard where
  listed := fun _ _ => none
  told := fun _ _ => none
  latest := fun _ => none

/-- A registry advertises a name; the proxy takes note of it when `noted`. -/
def add (d : Heard) (r n k : ℕ) (noted : Bool) : Heard where
  listed := setEntry d.listed r n (some k)
  told := if noted then setEntry d.told r n (some k) else d.told
  latest := if noted then Function.update d.latest n (some k) else d.latest

def remove (d : Heard) (r n : ℕ) : Heard :=
  { d with listed := setEntry d.listed r n none }

/-- The host object is gone. -/
def forget (d : Heard) (h : ℕ) : Heard :=
  { d with
    listed := Function.update d.listed h fun _ => none
    told := Function.update d.told h fun _ => none }

end Heard

namespace GlobalContext

instance (c : GlobalContext) (r : ℕ) : Decidable (c.LiveRegistry r) :=
  decidable_of_iff ((c.shadowTable.getGuestId r).any (fun g =>
      decide (c.shadowTable.getInterface g = some .wlRegistry) &&
        decide (g ∉ c.shadowTable.pendingDestroyGuestIds)) = true) (by
    simp [LiveRegistry, Option.any_eq_true])

end GlobalContext

structure Timeline where
  session : GlobalSession
  /-- The number of advertisements so far. -/
  nextSerial : ℕ
  /-- The advertisements in force, oldest first. -/
  inForce : List ℕ
  /-- What a registry that the host has created is still to send. -/
  queue : ℕ → Option (List HostChange)
  heard : Heard

inductive TimelineInput
  | add
  | remove (name : ℕ)
  /-- The host handles `wl_display.get_registry`. -/
  | create (registry : ℕ)
  /-- A registry sends its next change. -/
  | deliver (registry : ℕ)
  | message (m : GlobalMessage)

namespace Timeline

def new (options : GlobalOptions) : Timeline where
  session := .new options
  nextSerial := 0
  inForce := []
  queue := fun _ => none
  heard := .empty

/-- Send a change to every registry. -/
def broadcast (t : Timeline) (change : HostChange) : ℕ → Option (List HostChange) :=
  fun r => (t.queue r).map (· ++ [change])

/-- The proxy takes note of advertisements on registries of the guest. -/
def notes (t : Timeline) (r : ℕ) (ad : Advertisement) : Bool :=
  decide (t.session.context.LiveRegistry r) && ad.version != 0

/-- The next change of a registry is delivered. -/
def deliver (ads : ℕ → Advertisement) (t : Timeline) (r : ℕ) : Option Timeline :=
  match t.queue r with
  | some (.add k :: q) =>
    (t.session.step (.global r (ads k).name (ads k).interface (ads k).version)).map fun s =>
      { t with
        session := s
        queue := Function.update t.queue r (some q)
        heard := t.heard.add r (ads k).name k (t.notes r (ads k)) }
  | some (.remove n :: q) =>
    (t.session.step (.globalRemove r n)).map fun s =>
      { t with
        session := s
        queue := Function.update t.queue r (some q)
        heard := t.heard.remove r n }
  | _ => none

/-- A message that is not about a global. The number of an acknowledged object may be used
again. -/
def other (t : Timeline) (m : GlobalMessage) : Option Timeline :=
  match m with
  | .global .. | .globalRemove .. => none
  | .deleteId h =>
    (t.session.step m).map fun s =>
      if t.session.context.shadowTable.isPendingDestroyHost h then
        { t with
          session := s
          queue := Function.update t.queue h none
          heard := t.heard.forget h }
      else { t with session := s }
  | _ => (t.session.step m).map fun s => { t with session := s }

def step (ads : ℕ → Advertisement) (t : Timeline) : TimelineInput → Option Timeline
  | .add =>
    if t.inForce.any fun k => (ads k).name == (ads t.nextSerial).name then none
    else
      some { t with
        nextSerial := t.nextSerial + 1
        inForce := t.inForce ++ [t.nextSerial]
        queue := t.broadcast (.add t.nextSerial) }
  | .remove name =>
    if t.inForce.any fun k => (ads k).name == name then
      some { t with
        inForce := t.inForce.filter fun k => (ads k).name != name
        queue := t.broadcast (.remove name) }
    else none
  | .create r =>
    if t.session.context.LiveRegistry r ∧ t.queue r = none then
      some { t with queue := Function.update t.queue r (some (t.inForce.map .add)) }
    else none
  | .deliver r => t.deliver ads r
  | .message m => t.other m

end Timeline

/-- Sessions with a host that makes the given advertisements, in their order. -/
def timelineSystem (options : GlobalOptions) (ads : ℕ → Advertisement) :
    TransitionSystem Timeline TimelineInput where
  init t := t = .new options
  step t i := t.step ads i

/-- The guest was told of a global, and of nothing about its name since. -/
def GlobalContext.Announced (c : GlobalContext) (r n : ℕ) (global : HostGlobal) : Prop :=
  ∃ g, c.shadowTable.getGuestId r = some g ∧
    (registryNotices g n c.guestEvents).head? = some (.appeared global)

/-- What all registries of the guest list for the same advertisement, and the guest was told,
can be bound through each of them. -/
def Agrees (t : Timeline) : Prop :=
  ∀ n k, (∀ r, t.session.context.LiveRegistry r → t.heard.listed r n = some k) →
    ∀ r global, t.session.context.LiveRegistry r → t.session.context.Announced r n global →
      ∀ r' g version, t.session.context.LiveRegistry r' →
        t.session.context.shadowTable.getGuestId r' = some g →
        0 < version → version ≤ global.version →
        t.session.context.guestBindIsAllowed g n global.interface version = true

/-- The advertisement is not the last one noted, and another registry has told it already, or
has told the last one while this registry has not. -/
def Heard.Overtakes (d : Heard) (live : ℕ → Prop) (r n k : ℕ) : Prop :=
  ∃ j, d.latest n = some j ∧ j ≠ k ∧ ∃ r' ≠ r, live r' ∧
    (d.told r' n = some k ∨ d.told r' n = some j ∧ d.told r n ≠ some j)

/-- All other registries list one advertisement, which is not the last one noted. -/
def Heard.Strands (d : Heard) (live : ℕ → Prop) (ads : ℕ → Advertisement) (r : ℕ) : Prop :=
  ∃ n k, (ads k).version ≠ 0 ∧ d.latest n ≠ some k ∧ (∃ r' ≠ r, live r') ∧
    ∀ r' ≠ r, live r' → d.listed r' n = some k

/-- The counter of generations comes back to one that another registry still has. -/
def Ledger.Wraps (l : Ledger) (r n : ℕ) : Prop :=
  l.Begins r n ∧ ∃ r' ≠ r, l.generation r' n = some l.fresh

/-- The steps after which the proxy takes one advertisement for another. -/
def Misleads (ads : ℕ → Advertisement) (t : Timeline) : TimelineInput → Prop
  | .deliver r => ∃ k q, t.queue r = some (.add k :: q) ∧ t.notes r (ads k) = true ∧
      (t.heard.Overtakes t.session.context.LiveRegistry r (ads k).name k ∨
        t.session.context.ledger.Wraps r (ads k).name)
  | .message (.destroyRegistry _ g) => ∃ r, t.session.context.shadowTable.getHostId g = some r ∧
      t.heard.Strands t.session.context.LiveRegistry ads r
  | _ => False

end Sommelier
