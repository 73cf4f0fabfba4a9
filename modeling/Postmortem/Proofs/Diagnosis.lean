import Postmortem.Proofs.Counters
import Postmortem.Proofs.Log
set_option autoImplicit false

/-!
# Diagnosis: what the check of a command buffer tells

The check of the progress markers tells three things: whether they contradict each other, which rules they violate, and
which commands lie outside the span of their buffer.  The places that it names are in increasing order, and none is left
out before the list is cut short.  This holds with any operations on arrays that are lawful (`Arrays.Lawful.diagnoses`);
the main statement is `check_diagnoses`.
-/

namespace Postmortem.Progress

open Postmortem.Text

/-! ## Outliers -/

/-- The checkpoint value of a command lies outside the span of its buffer. -/
def OutsideAt (cb : CommandBuffer) (i : Nat) : Prop :=
  ∃ value, (checkpoints cb)[i]? = some value ∧ (value < cb.beginValue ∨ cb.endValue < value)

theorem Arrays.Lawful.lists_outsidePlaces {arrays : Arrays} (h : arrays.Lawful) (cb : CommandBuffer) :
    Lists (outsidePlaces cb arrays) (OutsideAt cb) :=
  (h.lists_places _ _).congr fun i => by simp [OutsideAt]

/-- Every command is outside a span that ends before it begins. -/
theorem outsideAt_iff_of_reversed {cb : CommandBuffer} (h : cb.endValue < cb.beginValue) (i : Nat) :
    OutsideAt cb i ↔ i < cb.commands.length := by
  have hlength : (checkpoints cb).length = cb.commands.length := List.length_map _
  rw [← hlength]
  constructor
  · rintro ⟨value, hvalue, _⟩
    exact (List.getElem?_eq_some_iff.mp hvalue).1
  · intro hi
    exact ⟨_, List.getElem?_eq_getElem hi, by omega⟩

theorem outliers_eq_nil_iff {arrays : Arrays} (harrays : arrays.Lawful) {cb : CommandBuffer} :
    outliers cb arrays = [] ↔ cb.endValue = 0 ∨ ∀ i, ¬ OutsideAt cb i := by
  rw [← (harrays.lists_outsidePlaces cb).eq_nil_iff, outliers]
  by_cases hended : cb.endValue = 0
  · simp [hended]
  · simp only [hended, if_false, false_or]
    split <;> simp_all

/-- If there are outliers, one remark says how many there are and which is the first. -/
theorem outliers_eq_of_places {arrays : Arrays} {cb : CommandBuffer} {first : Nat} {more : List Nat}
    (hended : cb.endValue ≠ 0) (h : outsidePlaces cb arrays = first :: more) :
    outliers cb arrays = [⟨more.length + 1, cb.beginValue, cb.endValue, first⟩] := by
  rw [outliers, if_neg hended, h]

theorem Outliers.isPlain_message (o : Outliers) : IsPlain o.message := by
  have hlow := isPlain_append (isPlain_decimal o.count) (by decide : IsPlain " command(s) outside [")
  have hhigh := isPlain_append (isPlain_append hlow (isPlain_decimal o.low)) (by decide : IsPlain ", ")
  have hfirst := isPlain_append (isPlain_append hhigh (isPlain_decimal o.high)) (by decide : IsPlain "], first at index ")
  exact isPlain_append hfirst (isPlain_decimal o.first)

/-! ## The report -/

/-- A report tells of a command buffer which rules it violates, and which commands are outside its span. -/
structure Diagnoses (cb : CommandBuffer) (r : Report) : Prop where
  /-- the report is good, names no errors and does not fail if the markers do not contradict each other -/
  ok : r.ok = true ↔ Consistent cb
  clean : r.errors = [] ↔ Consistent cb
  passes : r.require = .ok () ↔ Consistent cb
  /-- there is an error for each rule that is violated, in the order of the rules, and the one about checkpoint values
  names the first ten places behind which they go down, or all if there are fewer -/
  errors : ∃ drops, Lists drops (DropsAt (checkpoints cb)) ∧
    r.errors = (Demand.inOrder.filter fun demand => ¬ demand.Met cb).map (Demand.breach cb drops)
  /-- there is a warning if the buffer has ended and a command is outside its span -/
  warned : r.warnings ≠ [] ↔ cb.endValue ≠ 0 ∧ ∃ i, OutsideAt cb i
  /-- a warning is one line, with the number of commands outside the span and the first of them -/
  line : r.warnings ≠ [] → ∃ outside first text, Lists outside (OutsideAt cb) ∧ OutsideAt cb first ∧
    (∀ i, OutsideAt cb i → first ≤ i) ∧ r.warnings.map Outliers.message = [text] ∧ IsPlain text ∧
    text = Numeral.decimal outside.length ++ " command(s) outside [" ++ Numeral.decimal cb.beginValue ++ ", "
      ++ Numeral.decimal cb.endValue ++ "], first at index " ++ Numeral.decimal first
  /-- every command is outside a span that ends before it begins -/
  reversed : cb.endValue < cb.beginValue → ∀ outside, Lists outside (OutsideAt cb) →
    outside.length = cb.commands.length
  /-- differences of checkpoint values are exact -/
  exact : ∀ i before after, (checkpoints cb)[i]? = some before → (checkpoints cb)[i + 1]? = some after →
    (difference before after).toInt = (after : Int) - before

theorem Report.require_eq_ok_iff {r : Report} : r.require = .ok () ↔ r.errors = [] := by
  rw [Report.require, ← List.isEmpty_iff]
  split <;> simp_all

/-- With lawful operations on arrays, the check of a command buffer with checkpoint values of 32 bits tells what is wrong
with its markers, and nothing else. -/
theorem Arrays.Lawful.diagnoses {arrays : Arrays} (harrays : arrays.Lawful) {cb : CommandBuffer}
    (hfit : CheckpointsFit cb) : Diagnoses cb (check cb arrays) := by
  constructor
  · rw [Report.ok_iff_errors_eq_nil, errors_eq_nil_iff harrays hfit]
  · exact errors_eq_nil_iff harrays hfit
  · rw [Report.require_eq_ok_iff, errors_eq_nil_iff harrays hfit]
  · exact ⟨arrays.drops (checkpoints cb), harrays.lists_drops hfit, inconsistencies_eq harrays hfit⟩
  · rw [check, Ne, outliers_eq_nil_iff harrays]
    simp only [not_or, not_forall, not_not]
  · intro hwarned
    rw [check, Ne, outliers_eq_nil_iff harrays] at hwarned
    obtain ⟨hended, houtside⟩ := not_or.mp hwarned
    have hlists := harrays.lists_outsidePlaces cb
    cases hplaces : outsidePlaces cb arrays with
    | nil => exact absurd (hlists.eq_nil_iff.mp hplaces) houtside
    | cons first more =>
      rw [hplaces] at hlists
      let remark : Outliers := ⟨more.length + 1, cb.beginValue, cb.endValue, first⟩
      have hone : (check cb arrays).warnings = [remark] := outliers_eq_of_places hended hplaces
      have hfirst : OutsideAt cb first := (hlists.complete first).mp List.mem_cons_self
      refine ⟨first :: more, first, remark.message, hlists, hfirst, fun i hi => hlists.first_le hi, ?_,
        remark.isPlain_message, rfl⟩
      rw [hone, List.map_singleton]
  · intro hreversed outside hlists
    have hbelow : Lists outside (· < cb.commands.length) :=
      ⟨hlists.ordered, fun i => (hlists.complete i).trans (outsideAt_iff_of_reversed hreversed i)⟩
    exact hbelow.length_eq
  · intro i before after hbefore hafter
    exact toInt_difference (hfit before (List.mem_of_getElem? hbefore)) (hfit after (List.mem_of_getElem? hafter))

/-- The check of a command buffer with checkpoint values of 32 bits tells what is wrong with its markers, and nothing
else. -/
theorem check_diagnoses {cb : CommandBuffer} (h : ∀ command ∈ cb.commands, command.checkpointValue < Width.w32.limit) :
    Diagnoses cb (check cb) :=
  Arrays.lawful_default.diagnoses (by simpa [CheckpointsFit, checkpoints] using h)

/-- A command buffer that ended before it began.  Its checkpoint values go down eleven times, the first time from the
largest to the least that there is. -/
def falling : CommandBuffer where
  beginValue := 7
  endValue := 3
  bottomCheckpointValue := 1
  commands := ([4294967295, 0, 10, 9, 8, 7, 6, 5, 4, 3, 2, 1, 0].map fun v => { checkpointValue := v })

/-- Three rules are violated, and only ten of the eleven places are named. -/
theorem check_diagnoses_falling :
    (∀ command ∈ falling.commands, command.checkpointValue < Width.w32.limit) ∧ Diagnoses falling (check falling) ∧
      (check falling).errors.map Inconsistency.message = [
        "beginValue 7 > endValue 3",
        "bottomCheckpointValue 1 > topCheckpointValue 0",
        "checkpointValue decreases after command index(es) [0, 2, 3, 4, 5, 6, 7, 8, 9, 10]"] ∧
      (check falling).warnings.map Outliers.message = ["13 command(s) outside [7, 3], first at index 0"] := by
  have hsmall : ∀ command ∈ falling.commands, command.checkpointValue < Width.w32.limit := by decide +kernel
  exact ⟨hsmall, check_diagnoses hsmall, by decide +kernel, by decide +kernel⟩

end Postmortem.Progress
