import Mathlib.Logic.Function.Basic
import Sommelier.Globals.System
import Sommelier.Lib.Alternation

/-!
# The ledger of advertisements

What the registries were told, as functions: per registry and name whether the name is listed,
at which generation, and whether the guest sees it; per name the current generation and the
global a guest may bind. The handlers act on the ledger by a few operations.

## Main definitions

* `Outcome`, `publishedGlobal`: how an advertisement is treated.
* `Ledger`: the abstract state, and `GlobalContext.ledger`.
* `Ledger.advertise`, `remove`, `forget`, `publish`: what happens to it.
-/
namespace Sommelier

/-- The global the guest sees for one of the host. -/
def publishedGlobal (options : GlobalOptions) (interface : Interface) (version : ℕ) : HostGlobal :=
  match interface with
  | .zwpTextInputManagerV1 => { interface := .zwpTextInputManagerV3, version := 1 }
  | .zauraShell => { interface := .gtkShell1, version := 1 }
  | .wlShm => { interface := .wlShm, version := 1 }
  | .zwpLinuxDmabufV1 =>
    { interface := .zwpLinuxDmabufV1, version := options.dmabufClientVersion version }
  | _ => { interface, version := advertisedGlobalVersion interface version }

/-- What the guest is told of an advertisement. -/
inductive Outcome
  | published (global : HostGlobal)
  | hidden
  | deferred (version : ℕ)

namespace Outcome

def isPublished : Outcome → Bool
  | published _ => true
  | _ => false

/-- The event for the guest. -/
def announcement (o : Outcome) (g n : ℕ) : List GuestEvent :=
  match o with
  | published global => [.global g n global.interface global.version]
  | _ => []

end Outcome

/-- Update one entry of a function of two arguments. -/
def setEntry {α : Type*} (f : ℕ → ℕ → α) (r n : ℕ) (a : α) : ℕ → ℕ → α :=
  fun r' n' => if r' = r ∧ n' = n then a else f r' n'

@[simp] theorem setEntry_apply {α : Type*} (f : ℕ → ℕ → α) (r n : ℕ) (a : α) (r' n' : ℕ) :
    setEntry f r n a r' n' = if r' = r ∧ n' = n then a else f r' n' := rfl

@[ext] structure Ledger where
  names : ℕ → Finset ℕ
  removed : ℕ → Finset ℕ
  generation : ℕ → ℕ → Option ℕ
  visibility : ℕ → ℕ → Option Bool
  current : ℕ → Option ℕ
  next : ℕ
  published : ℕ → Option HostGlobal
  tombstones : Finset ℕ
  pending : List PendingDmabufGlobal

/-- The ledger of a session. -/
def GlobalContext.ledger (c : GlobalContext) : Ledger where
  names := c.namesOf
  removed := c.removedOf
  generation := c.generationOf
  visibility := c.visibilityOf
  current := c.globalGenerations.get
  next := c.nextGlobalGeneration
  published := c.hostGlobals.get
  tombstones := c.removedHostGlobals
  pending := c.pendingDmabufGlobals

namespace Ledger
variable (l : Ledger) (r n : ℕ)

/-- The registry lists the name at the current generation. -/
def Lists : Prop := n ∈ l.names r ∧ l.generation r n = l.current n

/-- An advertisement of the name on the registry begins a generation: there is none, or the
registry removed the current one. -/
def Begins : Prop :=
  l.current n = none ∨ n ∈ l.removed r ∧ l.generation r n = l.current n

instance : Decidable (l.Begins r n) := by unfold Begins; infer_instance

/-- The number of the next generation. -/
def fresh : ℕ := max l.next 1

/-- The generation of an advertisement. -/
def generationFor : ℕ := if l.Begins r n then l.fresh else (l.current n).getD 0

theorem generationFor_of_begins (h : l.Begins r n) : l.generationFor r n = l.fresh := if_pos h

theorem generationFor_of_not_begins (h : ¬ l.Begins r n) :
    some (l.generationFor r n) = l.current n := by
  rw [generationFor, if_neg h]
  cases hcurrent : l.current n with
  | none => exact absurd (.inl hcurrent) h
  | some current => rfl

/-- Record an advertisement, without its treatment. -/
def note : Ledger :=
  { l with
    names := Function.update l.names r (insert n (l.names r))
    removed := Function.update l.removed r ((l.removed r).erase n)
    generation := setEntry l.generation r n (some (l.generationFor r n))
    current := Function.update l.current n (some (l.generationFor r n))
    next := if l.Begins r n then max ((l.fresh + 1) % 2 ^ 64) 1 else l.next }

/-- A new generation replaces what was published for the one before. -/
def replace (before : Ledger) : Ledger :=
  { l with
    published := if before.current n ≠ none ∧ l.current n ≠ before.current n then
      Function.update l.published n none else l.published
    tombstones := l.tombstones.erase n }

def setVisible (visible : Bool) : Ledger :=
  { l with visibility := setEntry l.visibility r n (some visible) }

/-- An advertisement that is held back. -/
def heldBack (version : ℕ) : PendingDmabufGlobal where
  registryHostId := r
  name := n
  version
  generation := (l.current n).getD 0

/-- Treat an advertisement. -/
def settle (o : Outcome) : Ledger :=
  let l := l.setVisible r n o.isPublished
  match o with
  | .published global => { l with published := Function.update l.published n (some global) }
  | .hidden => l
  | .deferred version =>
    { l with pending := if l.heldBack r n version ∈ l.pending then l.pending
        else l.pending ++ [l.heldBack r n version] }

/-- An advertisement of the host. -/
def advertise (o : Outcome) : Ledger := ((l.note r n).replace n l).settle r n o

section
variable (o : Outcome) (r' n' : ℕ)

theorem advertise_names : (l.advertise r n o).names r' =
    if r' = r then insert n (l.names r) else l.names r' := by
  cases o <;> exact Function.update_apply ..

theorem advertise_removed : (l.advertise r n o).removed r' =
    if r' = r then (l.removed r).erase n else l.removed r' := by
  cases o <;> exact Function.update_apply ..

theorem advertise_generation : (l.advertise r n o).generation r' n' =
    if r' = r ∧ n' = n then some (l.generationFor r n) else l.generation r' n' := by
  cases o <;> rfl

theorem advertise_visibility : (l.advertise r n o).visibility r' n' =
    if r' = r ∧ n' = n then some o.isPublished else l.visibility r' n' := by
  cases o <;> rfl

theorem advertise_current : (l.advertise r n o).current n' =
    if n' = n then some (l.generationFor r n) else l.current n' := by
  cases o <;> exact Function.update_apply ..

/-- Only the name itself is published, and only anew. -/
theorem advertise_published (hn : n' ≠ n) :
    (l.advertise r n o).published n' = l.published n' := by
  have hreplace : ((l.note r n).replace n l).published n' = l.published n' := by
    unfold replace
    dsimp only
    split_ifs
    · exact Function.update_of_ne hn _ _
    · rfl
  cases o with
  | published global => exact (Function.update_of_ne hn _ _).trans hreplace
  | _ => exact hreplace

/-- What is published of the name itself. -/
theorem advertise_published_self : (l.advertise r n o).published n = match o with
    | .published global => some global
    | _ => if l.current n ≠ none ∧ some (l.generationFor r n) ≠ l.current n then none
        else l.published n := by
  have hcurrent : (l.note r n).current n = some (l.generationFor r n) := Function.update_self ..
  have hreplace : ((l.note r n).replace n l).published n =
      if l.current n ≠ none ∧ some (l.generationFor r n) ≠ l.current n then none
      else l.published n := by
    unfold replace
    dsimp only
    rw [hcurrent]
    split_ifs
    · exact Function.update_self ..
    · rfl
  cases o with
  | published global => exact Function.update_self ..
  | _ => exact hreplace

theorem advertise_tombstones : (l.advertise r n o).tombstones = l.tombstones.erase n := by
  cases o <;> rfl

/-- The advertisement as it would be held back. -/
def waiting (version : ℕ) : PendingDmabufGlobal where
  registryHostId := r
  name := n
  version
  generation := l.generationFor r n

theorem advertise_pending : (l.advertise r n o).pending = match o with
    | .deferred version =>
      if l.waiting r n version ∈ l.pending then l.pending
      else l.pending ++ [l.waiting r n version]
    | _ => l.pending := by
  have hheld : ∀ version, (((l.note r n).replace n l).setVisible r n false).heldBack r n version =
      l.waiting r n version := by
    intro version
    have hcurrent : (((l.note r n).replace n l).setVisible r n false).current n =
        some (l.generationFor r n) := Function.update_self ..
    rw [heldBack, hcurrent]
    rfl
  cases o with
  | deferred version =>
    simp only [advertise, settle, Outcome.isPublished, hheld]
    rfl
  | _ => rfl

theorem mem_advertise_pending {p : PendingDmabufGlobal}
    (hp : p ∈ (l.advertise r n o).pending) :
    p ∈ l.pending ∨ ∃ version, o = .deferred version ∧ p = l.waiting r n version := by
  rw [advertise_pending] at hp
  cases o with
  | deferred version =>
    dsimp only at hp
    split_ifs at hp
    · exact .inl hp
    · rcases List.mem_append.mp hp with hp | hp
      · exact .inl hp
      · exact .inr ⟨version, rfl, List.mem_singleton.mp hp⟩
  | _ => exact .inl hp

end

/-- A removal of the host on this registry is the last of the current generation. -/
def IsLast : Prop := l.generation r n = l.current n ∧ ∀ r' ≠ r, ¬ l.Lists r' n

/-- A removal of the host; the last one of the current generation drops what was published. -/
def remove (last tombstone : Bool) : Ledger where
  names := Function.update l.names r ((l.names r).erase n)
  removed := Function.update l.removed r (insert n (l.removed r))
  generation := l.generation
  visibility := setEntry l.visibility r n none
  current := l.current
  next := l.next
  published := if last then Function.update l.published n none else l.published
  tombstones := if tombstone then insert n l.tombstones else l.tombstones
  pending := l.pending.filter fun pending =>
    !(pending.registryHostId == r && pending.name == n &&
      some pending.generation == l.generation r n)

theorem lists_remove (last tombstone : Bool) (r' : ℕ) :
    (l.remove r n last tombstone).Lists r' n ↔ r' ≠ r ∧ l.Lists r' n := by
  by_cases h : r' = r
  · subst h
    simp [Lists, remove]
  · simp [Lists, remove, h]

/-- The guest destroyed a registry. -/
def forget : Ledger :=
  { l with
    names := Function.update l.names r ∅
    removed := Function.update l.removed r ∅
    generation := Function.update l.generation r fun _ => none
    visibility := Function.update l.visibility r fun _ => none
    pending := l.pending.filter (·.registryHostId != r) }

/-- The registry still lists the advertisement that was held back. -/
def IsCurrent (pending : PendingDmabufGlobal) (generation : ℕ) : Prop :=
  pending.name ∈ l.names pending.registryHostId ∧
    l.generation pending.registryHostId pending.name = some generation ∧
    pending.name ∉ l.removed pending.registryHostId ∧
    l.current pending.name = some generation

instance (pending : PendingDmabufGlobal) (generation : ℕ) :
    Decidable (l.IsCurrent pending generation) := by
  unfold IsCurrent; infer_instance

end Ledger
end Sommelier
