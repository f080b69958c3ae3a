import Mathlib.Data.List.Basic
import Mathlib.Tactic.Common

/-!
# Two streams of one sequence of items

Every item has units and tokens. The units of all items form one stream and the tokens
another, and the two are delivered in pieces that need not line up. An item can be taken
off the front of what was delivered once all of its units are there, provided the tokens
of an item are never delivered after its last unit.

## Main definitions

* `Delivered`: the pieces of both streams that have arrived so far.
* `Taken`: what is left of the delivered pieces when the first items were taken off.
-/

section
variable {μ β γ : Type*} (units : μ → List β) (tokens : μ → List γ)

/-- The delivered units and tokens are prefixes of the two streams, and every item whose
units have arrived has its tokens. -/
structure Delivered (S : List μ) (us : List β) (ts : List γ) : Prop where
  units_prefix : us <+: S.flatMap units
  tokens_prefix : ts <+: S.flatMap tokens
  timely : ∀ n, ((S.take n).flatMap units).length ≤ us.length →
    ((S.take n).flatMap tokens).length ≤ ts.length

/-- The first `n` items were taken off what was delivered, `us` and `ts` are left. -/
structure Taken (S : List μ) (n : ℕ) (received : List β × List γ) (us : List β)
    (ts : List γ) : Prop where
  le : n ≤ S.length
  units_eq : received.1 = (S.take n).flatMap units ++ us
  tokens_eq : received.2 = (S.take n).flatMap tokens ++ ts

variable {units tokens} {S : List μ} {n : ℕ} {received : List β × List γ} {us : List β}
  {ts : List γ}

theorem Delivered.nil (h : ∀ m ∈ S, units m ≠ []) : Delivered units tokens S [] [] := by
  refine ⟨List.nil_prefix, List.nil_prefix, fun n hn => ?_⟩
  have hnil : S.take n = [] := by
    rw [List.length_nil, Nat.le_zero, List.length_eq_zero_iff, List.flatMap_eq_nil_iff] at hn
    exact List.eq_nil_iff_forall_not_mem.mpr fun m hm => h m (List.mem_of_mem_take hm) (hn m hm)
  simp [hnil]

theorem Taken.zero (received : List β × List γ) :
    Taken units tokens S 0 received received.1 received.2 :=
  ⟨Nat.zero_le _, rfl, rfl⟩

/-- What arrives joins what is left. -/
theorem Taken.receive (h : Taken units tokens S n received us ts) (us' : List β)
    (ts' : List γ) :
    Taken units tokens S n (received.1 ++ us', received.2 ++ ts') (us ++ us') (ts ++ ts') :=
  ⟨h.le, by rw [h.units_eq, List.append_assoc], by rw [h.tokens_eq, List.append_assoc]⟩

theorem Taken.units_prefix (h : Taken units tokens S n received us ts)
    (hd : Delivered units tokens S received.1 received.2) :
    us <+: (S.drop n).flatMap units := by
  have hinit := hd.units_prefix
  rw [h.units_eq] at hinit
  conv at hinit => rhs; rw [← List.take_append_drop n S, List.flatMap_append]
  exact (List.prefix_append_right_inj _).mp hinit

theorem Taken.tokens_prefix (h : Taken units tokens S n received us ts)
    (hd : Delivered units tokens S received.1 received.2) :
    ts <+: (S.drop n).flatMap tokens := by
  have hinit := hd.tokens_prefix
  rw [h.tokens_eq] at hinit
  conv at hinit => rhs; rw [← List.take_append_drop n S, List.flatMap_append]
  exact (List.prefix_append_right_inj _).mp hinit

/-- With an item in full, its units and its tokens are at the front of what is left. -/
theorem Taken.next (h : Taken units tokens S n received us ts)
    (hd : Delivered units tokens S received.1 received.2) {m : μ} (hm : S[n]? = some m)
    (hlen : (units m).length ≤ us.length) :
    ∃ us' ts', us = units m ++ us' ∧ ts = tokens m ++ ts' ∧
      Taken units tokens S (n + 1) received us' ts' := by
  obtain ⟨hlt, hget⟩ := List.getElem?_eq_some_iff.mp hm
  have hdrop : S.drop n = m :: S.drop (n + 1) := by
    rw [List.drop_eq_getElem_cons hlt, hget]
  have htake : S.take (n + 1) = S.take n ++ [m] := by
    rw [List.take_add_one, hm, Option.toList_some]
  have hus := h.units_prefix hd
  rw [hdrop, List.flatMap_cons] at hus
  obtain ⟨us', rfl⟩ := List.prefix_of_prefix_length_le (List.prefix_append _ _) hus hlen
  have hunits : received.1 = (S.take (n + 1)).flatMap units ++ us' := by
    rw [h.units_eq, htake, List.flatMap_append, List.flatMap_singleton, List.append_assoc]
  -- All units of the item have arrived, so its tokens have.
  have htimely := hd.timely (n + 1) (by rw [hunits, List.length_append]; omega)
  rw [h.tokens_eq, htake, List.flatMap_append, List.flatMap_singleton, List.length_append,
    List.length_append] at htimely
  have hts := h.tokens_prefix hd
  rw [hdrop, List.flatMap_cons] at hts
  obtain ⟨ts', rfl⟩ :=
    List.prefix_of_prefix_length_le (List.prefix_append _ _) hts (by omega)
  refine ⟨us', ts', rfl, rfl, hlt, hunits, ?_⟩
  rw [h.tokens_eq, htake, List.flatMap_append, List.flatMap_singleton, List.append_assoc]

end
