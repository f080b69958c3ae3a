import Mathlib.Data.List.Basic

/-!
# Lifetimes of shared identifiers

Two peers name objects by numbers. A number is free, in use by an object that one side
created, or waiting for the acknowledgement of its destructor. Only the numbers of our own
objects wait: the peer may reuse a number of its own as soon as the destructor is sent.

## Main definitions

* `LifetimeEvent`, `Lifetime`: the messages that create and destroy an object, and the
  phases they move it through.
* `lifetime`: the phase of a number after a log; `none` when the log broke the rules.
* `Outstanding`: our side created the number, and the peer has not acknowledged its end.
* `EachAfter`: every event of a log was allowed after the events before it.
-/

/-- A message that starts or ends the use of a number. -/
inductive LifetimeEvent (ι : Type*)
  /-- our side creates an object -/
  | create (id : ι)
  /-- the peer announces an object it created -/
  | announce (id : ι)
  /-- our side sends the destructor -/
  | destroy (id : ι)
  /-- the peer acknowledges the destructor of one of our objects -/
  | acknowledge (id : ι)
  deriving DecidableEq, Repr

/-- What a number is used for. -/
inductive Lifetime
  | free
  | created
  | announced
  | destroyed
  deriving DecidableEq, Repr

namespace LifetimeEvent
variable {ι : Type*}

def id : LifetimeEvent ι → ι
  | create i => i
  | announce i => i
  | destroy i => i
  | acknowledge i => i

/-- The phase after an event, when the event is allowed. -/
def next : LifetimeEvent ι → Lifetime → Option Lifetime
  | create _, .free => some .created
  | announce _, .free => some .announced
  | destroy _, .created => some .destroyed
  | destroy _, .announced => some .free
  | acknowledge _, .destroyed => some .free
  | _, _ => none

/-- Only a creation puts a number in use. -/
theorem next_live {e : LifetimeEvent ι} {l l' : Lifetime} (h : e.next l = some l')
    (hl' : l' = .created ∨ l' = .announced) : e = .create e.id ∨ e = .announce e.id := by
  rcases hl' with rfl | rfl <;> cases e <;> cases l <;> simp [next, id] at h ⊢

end LifetimeEvent

section
variable {ι : Type*} [DecidableEq ι]

/-- The phase of a number after a log, newest event first. -/
def lifetime : List (LifetimeEvent ι) → ι → Option Lifetime
  | [], _ => some .free
  | e :: log, i => if e.id = i then (lifetime log i).bind e.next else lifetime log i

@[simp] theorem lifetime_nil (i : ι) : lifetime [] i = some .free := rfl

theorem lifetime_cons (e : LifetimeEvent ι) (log : List (LifetimeEvent ι)) (i : ι) :
    lifetime (e :: log) i = if e.id = i then (lifetime log i).bind e.next else lifetime log i :=
  rfl

theorem lifetime_cons_other {e : LifetimeEvent ι} {i : ι} (h : e.id ≠ i)
    (log : List (LifetimeEvent ι)) : lifetime (e :: log) i = lifetime log i := by
  rw [lifetime_cons, if_neg h]

/-- A log that ends lawfully was lawful before. -/
theorem lifetime_older {newer older : List (LifetimeEvent ι)} {i : ι}
    (h : (lifetime (newer ++ older) i).isSome) : (lifetime older i).isSome := by
  induction newer with
  | nil => exact h
  | cons e newer ih =>
    rw [List.cons_append, lifetime_cons] at h
    split_ifs at h with he
    · refine ih ?_
      cases hl : lifetime (newer ++ older) i with
      | none => rw [hl] at h; exact h
      | some l => rfl
    · exact ih h

@[simp] theorem lifetime_destroy (log : List (LifetimeEvent ι)) (i : ι) :
    lifetime (.destroy i :: log) i = (lifetime log i).bind (LifetimeEvent.destroy i).next :=
  if_pos rfl

/-- A number that came into use was put in use by a creation. -/
theorem lifetime_started {newer older : List (LifetimeEvent ι)} {i : ι} {l : Lifetime}
    (hold : lifetime older i = some .free ∨ lifetime older i = some .destroyed)
    (hnew : lifetime (newer ++ older) i = some l) (hl : l = .created ∨ l = .announced) :
    LifetimeEvent.create i ∈ newer ∨ LifetimeEvent.announce i ∈ newer := by
  induction newer generalizing l with
  | nil =>
    rw [List.nil_append] at hnew
    rcases hold with h | h <;> rcases hl with rfl | rfl <;> simp [h] at hnew
  | cons e newer ih =>
    rw [List.cons_append, lifetime_cons] at hnew
    split_ifs at hnew with he
    · obtain ⟨l', -, hnext⟩ := Option.bind_eq_some_iff.mp hnew
      subst he
      rcases LifetimeEvent.next_live hnext hl with h | h
      · exact .inl (h ▸ List.mem_cons_self)
      · exact .inr (h ▸ List.mem_cons_self)
    · exact (ih hnew hl).imp (List.mem_cons_of_mem _) (List.mem_cons_of_mem _)

/-- Between two destructors of one number an object was created under it. -/
theorem destroy_once {newer between older : List (LifetimeEvent ι)} {i : ι}
    (h : (lifetime (newer ++ .destroy i :: (between ++ .destroy i :: older)) i).isSome) :
    LifetimeEvent.create i ∈ between ∨ LifetimeEvent.announce i ∈ between := by
  have hsecond := lifetime_older h
  have hfirst : (lifetime (.destroy i :: older) i).isSome :=
    @lifetime_older ι _ (.destroy i :: between) _ _ hsecond
  obtain ⟨l, hl⟩ := Option.isSome_iff_exists.mp hsecond
  rw [lifetime_destroy] at hl
  obtain ⟨live, hlive, hnext⟩ := Option.bind_eq_some_iff.mp hl
  refine lifetime_started ?_ hlive ?_
  · obtain ⟨l₁, hl₁⟩ := Option.isSome_iff_exists.mp hfirst
    rw [hl₁]
    rw [lifetime_destroy] at hl₁
    obtain ⟨l₀, -, hnext₀⟩ := Option.bind_eq_some_iff.mp hl₁
    cases l₀ <;> simp [LifetimeEvent.next] at hnext₀ <;> simp [← hnext₀]
  · cases live <;> simp [LifetimeEvent.next] at hnext ⊢

/-- A destroyed number waits: nothing happens to it before the acknowledgement. -/
theorem lifetime_waits {newer older : List (LifetimeEvent ι)} {i : ι}
    (hold : lifetime older i = some .destroyed)
    (hlawful : (lifetime (newer ++ older) i).isSome)
    (hwaits : LifetimeEvent.acknowledge i ∉ newer) :
    lifetime (newer ++ older) i = some .destroyed ∧ ∀ e ∈ newer, e.id ≠ i := by
  induction newer with
  | nil => exact ⟨hold, by simp⟩
  | cons e newer ih =>
    have holder : (lifetime (newer ++ older) i).isSome :=
      @lifetime_older ι _ [e] _ _ hlawful
    obtain ⟨hlife, hnone⟩ := ih holder fun hmem => hwaits (List.mem_cons_of_mem _ hmem)
    have he : e.id ≠ i := by
      rintro rfl
      rw [List.cons_append, lifetime_cons, if_pos rfl, hlife] at hlawful
      cases e <;> simp [LifetimeEvent.next, LifetimeEvent.id] at hlawful hwaits
    refine ⟨(lifetime_cons_other he _).trans hlife, ?_⟩
    exact List.forall_mem_cons.mpr ⟨he, hnone⟩

end

/-! ## Outstanding numbers -/

section
variable {ι : Type*}

/-- Our side created the number, and the peer has not acknowledged its end since. -/
def Outstanding : List (LifetimeEvent ι) → ι → Prop
  | [], _ => False
  | .create j :: log, i => j = i ∨ Outstanding log i
  | .acknowledge j :: log, i => j ≠ i ∧ Outstanding log i
  | .announce _ :: log, i => Outstanding log i
  | .destroy _ :: log, i => Outstanding log i

variable {log newer older : List (LifetimeEvent ι)} {i j : ι}

@[simp] theorem outstanding_nil : ¬ Outstanding ([] : List (LifetimeEvent ι)) i := id

@[simp] theorem outstanding_create :
    Outstanding (.create j :: log) i ↔ j = i ∨ Outstanding log i := Iff.rfl

@[simp] theorem outstanding_acknowledge :
    Outstanding (.acknowledge j :: log) i ↔ j ≠ i ∧ Outstanding log i := Iff.rfl

@[simp] theorem outstanding_announce :
    Outstanding (.announce j :: log) i ↔ Outstanding log i := Iff.rfl

@[simp] theorem outstanding_destroy :
    Outstanding (.destroy j :: log) i ↔ Outstanding log i := Iff.rfl

/-- Only the acknowledgement ends it. -/
theorem Outstanding.lasts (h : Outstanding older i)
    (hwaits : LifetimeEvent.acknowledge i ∉ newer) : Outstanding (newer ++ older) i := by
  induction newer with
  | nil => exact h
  | cons e newer ih =>
    have hlasts := ih fun hmem => hwaits (List.mem_cons_of_mem _ hmem)
    cases e with
    | create j => exact .inr hlasts
    | announce j => exact hlasts
    | destroy j => exact hlasts
    | acknowledge j =>
      refine ⟨?_, hlasts⟩
      rintro rfl
      exact hwaits List.mem_cons_self

/-- Only a creation starts it. -/
theorem Outstanding.started (h : Outstanding (newer ++ older) i) (hold : ¬ Outstanding older i) :
    LifetimeEvent.create i ∈ newer := by
  induction newer with
  | nil => exact absurd h hold
  | cons e newer ih =>
    cases e with
    | create j =>
      rcases h with rfl | h
      · exact List.mem_cons_self
      · exact List.mem_cons_of_mem _ (ih h)
    | announce j => exact List.mem_cons_of_mem _ (ih h)
    | destroy j => exact List.mem_cons_of_mem _ (ih h)
    | acknowledge j => exact List.mem_cons_of_mem _ (ih h.2)

end

/-! ## Logs whose events were all allowed -/

section
variable {ε : Type*} {allowed : List ε → ε → Prop}

/-- Every event of a log, newest first, was allowed after the events before it. -/
def EachAfter (allowed : List ε → ε → Prop) : List ε → Prop
  | [] => True
  | e :: log => allowed log e ∧ EachAfter allowed log

@[simp] theorem eachAfter_nil : EachAfter allowed [] := trivial

@[simp] theorem eachAfter_cons {e : ε} {log : List ε} :
    EachAfter allowed (e :: log) ↔ allowed log e ∧ EachAfter allowed log := Iff.rfl

end
