import Mathlib.Data.Prod.TProd
import Mathlib.Tactic.Common

/-!
# Codecs of typed sequences

A codec reads a value off the front of an input and puts one in front of an input, for
every kind of value of a format. A schema is a list of kinds, and its values the product of
the values of its kinds. Reading and writing extend to schemas, and so do the laws, which
are fields of the codec: the extension is a codec again.

## Main definitions

* `Codec`: reading and writing one kind of value, with the round trip.
* `Codec.seq`: the codec of the values of a schema.
* `mapSeq`: a pass over the values of a schema that threads a state and can fail.
* `Related`: a relation of values, kind by kind.
-/

theorem Except.bind_eq_ok_iff {ε α β : Type*} {x : Except ε α} {f : α → Except ε β} {b : β} :
    x.bind f = .ok b ↔ ∃ a, x = .ok a ∧ f a = .ok b := by
  cases x <;> simp [Except.bind]

/-- Reading and writing the values of the kinds `τ`. What is read is valid, and a valid
value is read back from the front of the input it was put in front of. -/
structure Codec (τ : Type*) (V : τ → Type*) (ι ε : Type*) where
  read : (a : τ) → ι → Except ε (V a × ι)
  prepend : (a : τ) → V a → ι → ι
  Valid : (a : τ) → V a → Prop
  valid_of_read : ∀ {a i v i'}, read a i = .ok (v, i') → Valid a v
  read_prepend : ∀ {a v}, Valid a v → ∀ i, read a (prepend a v i) = .ok (v, i)

namespace Codec
variable {τ : Type*} {V : τ → Type*} {ι ε : Type*} (c : Codec τ V ι ε)

def readSeq : (s : List τ) → ι → Except ε (s.TProd V × ι)
  | [], i => .ok (⟨⟩, i)
  | a :: s, i =>
    (c.read a i).bind fun (v, i) => (readSeq s i).bind fun (vs, i) => .ok ((v, vs), i)

def prependSeq : (s : List τ) → s.TProd V → ι → ι
  | [], _, i => i
  | a :: s, (v, vs), i => c.prepend a v (prependSeq s vs i)

def ValidSeq : (s : List τ) → s.TProd V → Prop
  | [], _ => True
  | a :: s, (v, vs) => c.Valid a v ∧ ValidSeq s vs

variable {c}

theorem readSeq_cons_eq_ok {a : τ} {s : List τ} {i i' : ι} {v : V a} {vs : s.TProd V} :
    c.readSeq (a :: s) i = .ok ((v, vs), i') ↔
      ∃ i₁, c.read a i = .ok (v, i₁) ∧ c.readSeq s i₁ = .ok (vs, i') := by
  simp only [readSeq, Except.bind_eq_ok_iff, Except.ok.injEq, Prod.exists]
  constructor
  · rintro ⟨v, i₁, hv, vs, i', hvs, heq⟩
    cases heq
    exact ⟨i₁, hv, hvs⟩
  · rintro ⟨i₁, hv, hvs⟩
    exact ⟨v, i₁, hv, vs, i', hvs, rfl⟩

theorem validSeq_of_readSeq {s : List τ} {i i' : ι} {vs : s.TProd V}
    (h : c.readSeq s i = .ok (vs, i')) : c.ValidSeq s vs := by
  induction s generalizing i with
  | nil => trivial
  | cons a s ih =>
    obtain ⟨i₁, hv, hvs⟩ := readSeq_cons_eq_ok.mp h
    exact ⟨c.valid_of_read hv, ih hvs⟩

theorem readSeq_prependSeq {s : List τ} {vs : s.TProd V} (h : c.ValidSeq s vs) (i : ι) :
    c.readSeq s (c.prependSeq s vs i) = .ok (vs, i) := by
  induction s with
  | nil => rfl
  | cons a s ih =>
    exact readSeq_cons_eq_ok.mpr ⟨_, c.read_prepend h.1 _, ih h.2⟩

/-- The codec of the values of a schema. -/
def seq (c : Codec τ V ι ε) : Codec (List τ) (List.TProd V) ι ε where
  read := c.readSeq
  prepend := c.prependSeq
  Valid := c.ValidSeq
  valid_of_read := validSeq_of_readSeq
  read_prepend := readSeq_prependSeq

end Codec

section
variable {τ : Type*} {V W : τ → Type*} {σ ε : Type*}

/-- Map the values of a schema from left to right, threading a state. -/
def mapSeq (f : (a : τ) → V a → σ → Except ε (W a × σ)) :
    (s : List τ) → s.TProd V → σ → Except ε (s.TProd W × σ)
  | [], _, t => .ok (⟨⟩, t)
  | a :: s, (v, vs), t =>
    (f a v t).bind fun (w, t) => (mapSeq f s vs t).bind fun (ws, t) => .ok ((w, ws), t)

/-- Run a check over the values of a schema. -/
def checkSeq (f : (a : τ) → V a → Except ε Unit) : (s : List τ) → s.TProd V → Except ε Unit
  | [], _ => .ok ()
  | a :: s, (v, vs) => (f a v).bind fun _ => checkSeq f s vs

/-- Values and images are related kind by kind. -/
def Related (R : (a : τ) → V a → W a → Prop) : (s : List τ) → s.TProd V → s.TProd W → Prop
  | [], _, _ => True
  | a :: s, (v, vs), (w, ws) => R a v w ∧ Related R s vs ws

/-- Every value of a schema satisfies the property of its kind. -/
def EachValue (P : (a : τ) → V a → Prop) : (s : List τ) → s.TProd V → Prop
  | [], _ => True
  | a :: s, (v, vs) => P a v ∧ EachValue P s vs

theorem checkSeq_eq_ok_iff {f : (a : τ) → V a → Except ε Unit} {s : List τ}
    {vs : s.TProd V} : checkSeq f s vs = .ok () ↔ EachValue (fun a v => f a v = .ok ()) s vs := by
  induction s with
  | nil => exact iff_of_true rfl trivial
  | cons a s ih =>
    obtain ⟨v, vs⟩ := vs
    simp only [checkSeq, EachValue, Except.bind_eq_ok_iff, ih]
    exact ⟨fun ⟨(), hv, hvs⟩ => ⟨hv, hvs⟩, fun ⟨hv, hvs⟩ => ⟨(), hv, hvs⟩⟩

/-- A check over a schema fails as one of the checks of its values does. -/
theorem checkSeq_eq_error {f : (a : τ) → V a → Except ε Unit} {s : List τ} {vs : s.TProd V}
    {e : ε} (h : checkSeq f s vs = .error e) : ∃ a v, f a v = .error e := by
  induction s with
  | nil => cases h
  | cons a s ih =>
    obtain ⟨v, vs⟩ := vs
    rw [checkSeq] at h
    cases hv : f a v with
    | error e' =>
      simp only [hv, Except.bind, Except.error.injEq] at h
      exact ⟨a, v, h ▸ hv⟩
    | ok r =>
      simp only [hv, Except.bind] at h
      exact ih h

theorem mapSeq_cons_eq_ok {f : (a : τ) → V a → σ → Except ε (W a × σ)} {a : τ} {s : List τ}
    {v : V a} {vs : s.TProd V} {w : W a} {ws : s.TProd W} {t t' : σ} :
    mapSeq f (a :: s) (v, vs) t = .ok ((w, ws), t') ↔
      ∃ t₁, f a v t = .ok (w, t₁) ∧ mapSeq f s vs t₁ = .ok (ws, t') := by
  simp only [mapSeq, Except.bind_eq_ok_iff, Except.ok.injEq, Prod.exists]
  constructor
  · rintro ⟨w, t₁, hw, ws, t', hws, heq⟩
    cases heq
    exact ⟨t₁, hw, hws⟩
  · rintro ⟨t₁, hw, hws⟩
    exact ⟨w, t₁, hw, ws, t', hws, rfl⟩

theorem EachValue.imp {P Q : (a : τ) → V a → Prop} {s : List τ} {vs : s.TProd V}
    (himp : ∀ a v, P a v → Q a v) (h : EachValue P s vs) : EachValue Q s vs := by
  induction s with
  | nil => trivial
  | cons a s ih => exact ⟨himp _ _ h.1, ih h.2⟩

theorem Related.imp {R R' : (a : τ) → V a → W a → Prop} {s : List τ} {vs : s.TProd V}
    {ws : s.TProd W} (himp : ∀ a v w, R a v w → R' a v w) (h : Related R s vs ws) :
    Related R' s vs ws := by
  induction s with
  | nil => trivial
  | cons a s ih => exact ⟨himp _ _ _ h.1, ih h.2⟩

end
