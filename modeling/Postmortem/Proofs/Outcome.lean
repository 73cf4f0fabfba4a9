import Postmortem.Dump.Outcome
set_option autoImplicit false

/-!
# Outcomes: when they succeed and when they refuse

Each way of combining outcomes is inverted once, so that what is said about a reader never opens a combinator.
-/

namespace Postmortem.Outcome

open Postmortem.Node

variable {σ τ : Type}

/-- An outcome that is a value. -/
def Succeeds (o : Outcome τ) : Prop := ∃ value remarks, o = .ok (value, remarks)

@[simp] theorem pure_eq_ok_iff {value result : τ} {remarks : List Remark} :
    (pure value : Outcome τ) = .ok (result, remarks) ↔ value = result ∧ remarks = [] := by
  simp [pure, eq_comm]

@[simp] theorem pure_ne_error {value : τ} {refusal : Refusal} : (pure value : Outcome τ) ≠ .error refusal := by
  simp [pure]

@[simp] theorem refuse_ne_ok {cause : Cause} {result : τ × List Remark} :
    (refuse cause : Outcome τ) ≠ .ok result := by
  simp [refuse]

@[simp] theorem refuse_eq_error_iff {cause : Cause} {refusal : Refusal} :
    (refuse cause : Outcome τ) = .error refusal ↔ refusal = ⟨cause, []⟩ := by
  simp [refuse, eq_comm]

theorem ofExcept_eq_ok_iff {e : Except Cause τ} {value : τ} {remarks : List Remark} :
    ofExcept e = .ok (value, remarks) ↔ e = .ok value ∧ remarks = [] := by
  cases e <;> simp [ofExcept]

theorem ofExcept_eq_error_iff {e : Except Cause τ} {refusal : Refusal} :
    ofExcept e = .error refusal ↔ ∃ cause, e = .error cause ∧ refusal = ⟨cause, []⟩ := by
  cases e <;> simp [ofExcept]

theorem map_eq_ok_iff {f : σ → τ} {o : Outcome σ} {result : τ} {remarks : List Remark} :
    o.map f = .ok (result, remarks) ↔ ∃ value, o = .ok (value, remarks) ∧ f value = result := by
  cases o with
  | error refusal => simp [map]
  | ok pair =>
    obtain ⟨value, own⟩ := pair
    simp only [map, Except.ok.injEq, Prod.mk.injEq]
    constructor
    · rintro ⟨rfl, rfl⟩
      exact ⟨value, ⟨rfl, rfl⟩, rfl⟩
    · rintro ⟨v, ⟨rfl, rfl⟩, rfl⟩
      exact ⟨rfl, rfl⟩

theorem map_eq_error_iff {f : σ → τ} {o : Outcome σ} {refusal : Refusal} :
    o.map f = .error refusal ↔ o = .error refusal := by
  cases o with
  | error other => simp [map]
  | ok pair => simp [map]

theorem andThen_eq_ok_iff {first : Outcome σ} {second : σ → Outcome τ} {result : τ} {remarks : List Remark} :
    first.andThen second = .ok (result, remarks) ↔
      ∃ value front back, first = .ok (value, front) ∧ second value = .ok (result, back) ∧
        remarks = front ++ back := by
  cases first with
  | error refusal => simp [andThen]
  | ok pair =>
    obtain ⟨value, front⟩ := pair
    cases hsecond : second value with
    | error refusal => simp [andThen, hsecond]
    | ok pair =>
      obtain ⟨other, back⟩ := pair
      simp only [andThen, hsecond, Except.ok.injEq, Prod.mk.injEq]
      constructor
      · rintro ⟨rfl, rfl⟩
        exact ⟨value, front, back, ⟨rfl, rfl⟩, hsecond, rfl⟩
      · rintro ⟨v, f, b, ⟨rfl, rfl⟩, hv, rfl⟩
        rw [hsecond] at hv
        obtain ⟨rfl, rfl⟩ := Prod.mk.inj (Except.ok.inj hv)
        exact ⟨rfl, rfl⟩

theorem andThen_eq_error_iff {first : Outcome σ} {second : σ → Outcome τ} {refusal : Refusal} :
    first.andThen second = .error refusal ↔
      first = .error refusal ∨ ∃ value remarks, first = .ok (value, remarks) ∧ second value = .error refusal := by
  cases first with
  | error other => simp [andThen]
  | ok pair =>
    obtain ⟨value, front⟩ := pair
    cases hsecond : second value with
    | error other =>
      simp only [andThen, hsecond]
      constructor
      · intro h
        exact Or.inr ⟨value, front, rfl, by rw [hsecond]; exact h⟩
      · rintro (h | ⟨v, f, hv, he⟩)
        · exact absurd h (by simp)
        · obtain ⟨rfl, rfl⟩ := Prod.mk.inj (Except.ok.inj hv)
          rw [← he, hsecond]
    | ok pair =>
      simp only [andThen, hsecond]
      constructor
      · intro h
        exact absurd h (by simp)
      · rintro (h | ⟨v, f, hv, he⟩)
        · exact absurd h (by simp)
        · obtain ⟨rfl, rfl⟩ := Prod.mk.inj (Except.ok.inj hv)
          rw [hsecond] at he
          exact absurd he (by simp)

@[simp] theorem pure_andThen (value : σ) (f : σ → Outcome τ) : (pure value).andThen f = f value := by
  cases h : f value <;> simp [andThen, pure, h]

@[simp] theorem andThen_pure (o : Outcome τ) : o.andThen pure = o := by
  cases o with
  | error refusal => rfl
  | ok pair => simp [andThen, pure]

theorem andThen_assoc {υ : Type} (o : Outcome σ) (f : σ → Outcome τ) (g : τ → Outcome υ) :
    (o.andThen f).andThen g = o.andThen fun value => (f value).andThen g := by
  cases o with
  | error refusal => rfl
  | ok pair =>
    obtain ⟨value, front⟩ := pair
    cases hf : f value with
    | error refusal => simp [andThen, hf]
    | ok pair =>
      obtain ⟨next, back⟩ := pair
      cases hg : g next with
      | error refusal => simp [andThen, hf, hg]
      | ok pair => simp [andThen, hf, hg]

theorem below_eq_error_iff {step : Step} {o : Outcome τ} {refusal : Refusal} :
    o.below step = .error refusal ↔
      ∃ location, o = .error ⟨refusal.cause, location⟩ ∧ refusal.location = step :: location := by
  cases o with
  | ok pair => simp [below]
  | error other =>
    obtain ⟨cause, location⟩ := other
    obtain ⟨cause', location'⟩ := refusal
    simp only [below, Except.error.injEq, Refusal.mk.injEq]
    constructor
    · rintro ⟨rfl, rfl⟩
      exact ⟨location, ⟨rfl, rfl⟩, rfl⟩
    · rintro ⟨l, ⟨rfl, rfl⟩, rfl⟩
      exact ⟨rfl, rfl⟩

/-- A value is the same from one step above, and its remarks are lengthened by the step. -/
theorem below_eq_ok_iff {step : Step} {o : Outcome τ} {value : τ} {remarks : List Remark} :
    o.below step = .ok (value, remarks) ↔
      ∃ own, o = .ok (value, own) ∧ remarks = own.map fun r => { r with location := step :: r.location } := by
  cases o with
  | error other => simp [below]
  | ok pair =>
    obtain ⟨result, own⟩ := pair
    simp only [below, Except.ok.injEq, Prod.mk.injEq]
    constructor
    · rintro ⟨rfl, rfl⟩
      exact ⟨own, ⟨rfl, rfl⟩, rfl⟩
    · rintro ⟨r, ⟨rfl, rfl⟩, rfl⟩
      exact ⟨rfl, rfl⟩

theorem succeeds_map {f : σ → τ} {o : Outcome σ} : (o.map f).Succeeds ↔ o.Succeeds := by
  constructor
  · rintro ⟨result, remarks, h⟩
    obtain ⟨value, hvalue, _⟩ := map_eq_ok_iff.mp h
    exact ⟨value, remarks, hvalue⟩
  · rintro ⟨value, remarks, rfl⟩
    exact ⟨f value, remarks, rfl⟩

theorem succeeds_below {step : Step} {o : Outcome τ} : (o.below step).Succeeds ↔ o.Succeeds := by
  constructor
  · rintro ⟨value, remarks, h⟩
    obtain ⟨own, hown, _⟩ := below_eq_ok_iff.mp h
    exact ⟨value, own, hown⟩
  · rintro ⟨value, remarks, rfl⟩
    exact ⟨value, _, rfl⟩

theorem succeeds_andThen {first : Outcome σ} {second : σ → Outcome τ} :
    (first.andThen second).Succeeds ↔
      ∃ value remarks, first = .ok (value, remarks) ∧ (second value).Succeeds := by
  constructor
  · rintro ⟨result, remarks, h⟩
    obtain ⟨value, front, back, hfirst, hsecond, _⟩ := andThen_eq_ok_iff.mp h
    exact ⟨value, front, hfirst, result, back, hsecond⟩
  · rintro ⟨value, front, hfirst, result, back, hsecond⟩
    exact ⟨result, front ++ back, andThen_eq_ok_iff.mpr ⟨value, front, back, hfirst, hsecond, rfl⟩⟩

/-! ## Steps over a list -/

/-- Takes a state through the members of a list. -/
def foldl {ι : Type} (step : σ → ι → Outcome σ) : σ → List ι → Outcome σ
  | state, [] => pure state
  | state, x :: rest => (step state x).andThen fun next => foldl step next rest

section

variable {ι : Type} {step : σ → ι → Outcome σ}

theorem foldl_append (state : σ) (front back : List ι) :
    foldl step state (front ++ back) = (foldl step state front).andThen fun next => foldl step next back := by
  induction front generalizing state with
  | nil => rw [List.nil_append, foldl, pure_andThen]
  | cons x rest ih =>
    rw [List.cons_append, foldl, foldl, andThen_assoc]
    congr 1
    funext next
    exact ih next

/-- A run through a list is refused for the first member that is refused, in the state that the ones before it led
to. -/
theorem foldl_eq_error_iff {state : σ} {list : List ι} {refusal : Refusal} :
    foldl step state list = .error refusal ↔
      ∃ front x back next remarks, list = front ++ x :: back ∧
        foldl step state front = .ok (next, remarks) ∧ step next x = .error refusal := by
  constructor
  · intro h
    induction list generalizing state with
    | nil => exact absurd h (by simp [foldl])
    | cons x rest ih =>
      rw [foldl, andThen_eq_error_iff] at h
      cases h with
      | inl hx => exact ⟨[], x, rest, state, [], rfl, rfl, hx⟩
      | inr h =>
        obtain ⟨next, own, hx, hrest⟩ := h
        obtain ⟨front, y, back, last, remarks, rfl, hfront, hy⟩ := ih hrest
        exact ⟨x :: front, y, back, last, own ++ remarks, rfl,
          andThen_eq_ok_iff.mpr ⟨next, own, remarks, hx, hfront, rfl⟩, hy⟩
  · rintro ⟨front, x, back, next, remarks, rfl, hfront, hx⟩
    rw [foldl_append, andThen_eq_error_iff]
    exact Or.inr ⟨next, remarks, hfront, andThen_eq_error_iff.mpr (Or.inl hx)⟩

end

end Postmortem.Outcome
