import Mathlib.Data.List.Chain
import Mathlib.Data.List.Perm.Basic
import Postmortem.Progress.Check
set_option autoImplicit false

/-!
# Arrays: neighbours and places

What the check of progress markers needs to know about operations on arrays: which neighbours a difference is of, and
which places are listed, and in what order.  Nothing else is used of them, so the check decides its rules with any
operations that are `Arrays.Lawful`; those of this library are (`Arrays.lawful_default`).
-/

namespace Postmortem.Progress

/-! ## Places -/

/-- A list of the numbers that have a property, in increasing order. -/
structure Lists (places : List Nat) (property : Nat → Prop) : Prop where
  ordered : places.Pairwise (· < ·)
  complete : ∀ i, i ∈ places ↔ property i

namespace Lists

variable {first : Nat} {places : List Nat} {property : Nat → Prop}

theorem congr {other : Nat → Prop} (h : Lists places property) (hsame : ∀ i, property i ↔ other i) :
    Lists places other :=
  ⟨h.ordered, fun i => (h.complete i).trans (hsame i)⟩

theorem eq_nil_iff (h : Lists places property) : places = [] ↔ ∀ i, ¬ property i := by
  rw [List.eq_nil_iff_forall_not_mem]
  simp only [h.complete]

/-- The first of the numbers that are listed is the least. -/
theorem first_le (h : Lists (first :: places) property) {i : Nat} (hi : property i) : first ≤ i := by
  rcases List.mem_cons.mp ((h.complete i).mpr hi) with rfl | hmem
  · exact Nat.le_refl i
  · exact Nat.le_of_lt ((List.pairwise_cons.mp h.ordered).1 i hmem)

/-- A list of the numbers below a bound is as long as the bound is high. -/
theorem length_eq {bound : Nat} (h : Lists places (· < bound)) : places.length = bound := by
  have hperm : places.Perm (List.range bound) := by
    rw [List.perm_ext_iff_of_nodup (h.ordered.imp Nat.ne_of_lt) List.nodup_range]
    intro i
    rw [h.complete, List.mem_range]
  rw [hperm.length_eq, List.length_range]

/-- A list of the places from a number on, if it begins with that number if the property holds there, and goes on with
the later ones. -/
theorem step {index : Nat} {here : Prop} [Decidable here] {later : List Nat}
    (hlater : Lists later fun i => ∃ k, i = index + 1 + k ∧ property (k + 1)) (hhere : here ↔ property 0) :
    Lists (if here then index :: later else later) fun i => ∃ k, i = index + k ∧ property k := by
  have hmem : ∀ i, i ∈ later ↔ ∃ k, i = index + (k + 1) ∧ property (k + 1) := by
    intro i
    rw [hlater.complete i]
    exact exists_congr fun k => and_congr_left' (by omega)
  constructor
  · split
    · refine List.pairwise_cons.mpr ⟨?_, hlater.ordered⟩
      intro i hi
      obtain ⟨k, rfl, _⟩ := (hmem i).mp hi
      omega
    · exact hlater.ordered
  · intro i
    have hsplit : (∃ k, i = index + k ∧ property k) ↔ (i = index ∧ property 0) ∨ i ∈ later := by
      rw [hmem]
      constructor
      · rintro ⟨k, hi, hk⟩
        cases k with
        | zero => exact Or.inl ⟨hi, hk⟩
        | succ k => exact Or.inr ⟨k, hi, hk⟩
      · rintro (⟨hi, h0⟩ | ⟨k, hi, hk⟩)
        · exact ⟨0, hi, h0⟩
        · exact ⟨k + 1, hi, hk⟩
    rw [hsplit, ← hhere]
    split <;> rename_i hcase <;> simp [hcase]

end Lists

theorem lists_placesFrom (index : Nat) (flags : List Bool) :
    Lists (placesFrom index flags) fun i => ∃ k, i = index + k ∧ flags[k]? = some true := by
  induction flags generalizing index with
  | nil => exact ⟨List.Pairwise.nil, fun i => by simp [placesFrom]⟩
  | cons holds rest ih =>
    refine Lists.step ?_ (by simp)
    simpa using ih (index + 1)

/-! ## Differences -/

theorem toInt_difference {before after : Nat} (hbefore : before < Width.w32.limit)
    (hafter : after < Width.w32.limit) : (difference before after).toInt = (after : Int) - before := by
  have hlimit : Width.w32.limit = 4294967296 := rfl
  rw [hlimit] at hbefore hafter
  rw [difference, Int64.toInt_sub, Int64.toInt_ofNat_of_lt (by omega), Int64.toInt_ofNat_of_lt (by omega)]
  exact Int.bmod_eq_of_le (by omega) (by omega)

theorem difference_neg_iff {before after : Nat} (hbefore : before < Width.w32.limit)
    (hafter : after < Width.w32.limit) : difference before after < 0 ↔ after < before := by
  have hzero : (0 : Int64).toInt = 0 := rfl
  rw [Int64.lt_iff_toInt_lt, toInt_difference hbefore hafter, hzero]
  omega

theorem differences_eq_some_iff {values : List Nat} {i : Nat} {step : Int64} :
    (differences values)[i]? = some step ↔
      ∃ before after, values[i]? = some before ∧ values[i + 1]? = some after ∧ step = difference before after := by
  fun_induction differences values generalizing i with
  | case1 before after rest ih =>
    cases i with
    | zero => simp [eq_comm]
    | succ i => simpa using ih
  | case2 values hshort =>
    match values with
    | [] => simp
    | [value] => simp
    | before :: after :: rest => exact absurd rfl (hshort before after rest)

/-! ## Operations -/

/-- Behind a place, a list of values goes down. -/
def DropsAt (values : List Nat) (i : Nat) : Prop :=
  ∃ before after, values[i]? = some before ∧ values[i + 1]? = some after ∧ after < before

/-- No value is below the one before it if and only if none is below an earlier one. -/
theorem pairwise_iff_not_dropsAt {values : List Nat} : values.Pairwise (· ≤ ·) ↔ ∀ i, ¬ DropsAt values i := by
  rw [← List.isChain_iff_pairwise, List.isChain_iff_getElem]
  constructor
  · rintro h i ⟨before, after, hbefore, hafter, hdrop⟩
    obtain ⟨_, rfl⟩ := List.getElem?_eq_some_iff.mp hbefore
    obtain ⟨hi, rfl⟩ := List.getElem?_eq_some_iff.mp hafter
    exact Nat.not_le_of_lt hdrop (h i hi)
  · intro h i hi
    refine Nat.not_lt.mp fun hdrop => h i ⟨_, _, ?_, ?_, hdrop⟩
    · exact List.getElem?_eq_getElem (Nat.lt_of_succ_lt hi)
    · exact List.getElem?_eq_getElem hi

namespace Arrays

/-- What is asked of operations on arrays. -/
structure Lawful (arrays : Arrays) : Prop where
  /-- there is a difference for each two neighbours -/
  differences : ∀ values i step, (arrays.differences values)[i]? = some step ↔
    ∃ before after, values[i]? = some before ∧ values[i + 1]? = some after ∧ step = difference before after
  /-- the places of what holds are listed in increasing order -/
  places : ∀ flags, Lists (arrays.places flags) fun i => flags[i]? = some true

theorem lawful_default : Lawful {} where
  differences _ _ _ := differences_eq_some_iff
  places flags := (lists_placesFrom 0 flags).congr fun i => by simp

variable {arrays : Arrays}

theorem Lawful.lists_places {τ : Type} (h : arrays.Lawful) (test : τ → Bool) (values : List τ) :
    Lists (arrays.places (values.map test)) fun i => ∃ value, values[i]? = some value ∧ test value = true :=
  (h.places _).congr fun i => by simp

theorem Lawful.lists_drops (h : arrays.Lawful) {values : List Nat}
    (hsmall : ∀ value ∈ values, value < Width.w32.limit) : Lists (arrays.drops values) (DropsAt values) := by
  refine (h.lists_places _ _).congr fun i => ?_
  have hneighbours {before after : Nat} (hbefore : values[i]? = some before) (hafter : values[i + 1]? = some after) :
      difference before after < 0 ↔ after < before :=
    difference_neg_iff (hsmall before (List.mem_of_getElem? hbefore)) (hsmall after (List.mem_of_getElem? hafter))
  constructor
  · rintro ⟨_, hstep, hneg⟩
    obtain ⟨before, after, hbefore, hafter, rfl⟩ := (h.differences _ _ _).mp hstep
    refine ⟨before, after, hbefore, hafter, ?_⟩
    rw [decide_eq_true_iff] at hneg
    exact (hneighbours hbefore hafter).mp hneg
  · rintro ⟨before, after, hbefore, hafter, hdrop⟩
    refine ⟨_, (h.differences _ _ _).mpr ⟨before, after, hbefore, hafter, rfl⟩, ?_⟩
    rw [decide_eq_true_iff]
    exact (hneighbours hbefore hafter).mpr hdrop

end Arrays

end Postmortem.Progress
