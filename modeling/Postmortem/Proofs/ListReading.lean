import Mathlib.Data.List.Forall2
import Postmortem.Dump.Reading
import Postmortem.Proofs.Entries
import Postmortem.Proofs.Outcome
set_option autoImplicit false

/-!
# Reading lists: the first part that is refused

The readers of sequences, of settings and of entities all go through a list and stop at the first part that they
refuse.  For each of them: when the whole list is read, and what was read before the part that is refused.
-/

namespace Postmortem

open Postmortem.Node

variable {α : Type} {graph : Graph α}

/-! ## Sequences -/

section

variable {τ : Type} {read : α → Outcome τ}

/-- A sequence is read if each of its elements is. -/
theorem succeeds_readItems {index : Nat} {items : List α} :
    (readItems read index items).Succeeds ↔ ∀ child ∈ items, (read child).Succeeds := by
  induction items generalizing index with
  | nil => exact ⟨fun _ child hmem => absurd hmem (by simp), fun _ => ⟨[], [], rfl⟩⟩
  | cons node rest ih =>
    rw [readItems, Outcome.succeeds_andThen, List.forall_mem_cons]
    constructor
    · rintro ⟨value, remarks, hfirst, hrest⟩
      rw [Outcome.succeeds_map] at hrest
      exact ⟨Outcome.succeeds_below.mp ⟨value, remarks, hfirst⟩, ih.mp hrest⟩
    · rintro ⟨hfirst, hrest⟩
      obtain ⟨value, remarks, hvalue⟩ := Outcome.succeeds_below.mpr hfirst
      exact ⟨value, remarks, hvalue, Outcome.succeeds_map.mpr (ih.mpr hrest)⟩

/-- Each element of a sequence is read by itself. -/
theorem forall₂_of_readItems {index : Nat} {items : List α} {values : List τ} {remarks : List Remark}
    (h : readItems read index items = .ok (values, remarks)) :
    List.Forall₂ (fun node value => ∃ own, read node = .ok (value, own)) items values := by
  induction items generalizing index values remarks with
  | nil =>
    obtain ⟨rfl, _⟩ := Outcome.pure_eq_ok_iff.mp h
    exact .nil
  | cons node rest ih =>
    obtain ⟨value, _, _, hnode, hrest, _⟩ := Outcome.andThen_eq_ok_iff.mp h
    obtain ⟨own, hown, _⟩ := Outcome.below_eq_ok_iff.mp hnode
    obtain ⟨others, hothers, rfl⟩ := Outcome.map_eq_ok_iff.mp hrest
    exact .cons ⟨own, hown⟩ (ih hothers)

/-- A sequence is refused for its first element that is refused. -/
theorem readItems_eq_error_iff {index : Nat} {items : List α} {refusal : Refusal} :
    readItems read index items = .error refusal ↔
      ∃ front child back, items = front ++ child :: back ∧ (∀ other ∈ front, (read other).Succeeds) ∧
        (read child).below (.index (index + front.length)) = .error refusal := by
  induction items generalizing index with
  | nil => simp [readItems]
  | cons node rest ih =>
    rw [readItems, Outcome.andThen_eq_error_iff]
    constructor
    · rintro (hnode | ⟨value, remarks, hnode, hrest⟩)
      · exact ⟨[], node, rest, rfl, by simp, by simpa using hnode⟩
      · rw [Outcome.map_eq_error_iff] at hrest
        obtain ⟨front, child, back, rfl, hfront, hchild⟩ := ih.mp hrest
        refine ⟨node :: front, child, back, rfl, ?_, ?_⟩
        · rw [List.forall_mem_cons]
          exact ⟨Outcome.succeeds_below.mp ⟨value, remarks, hnode⟩, hfront⟩
        · rw [← hchild, List.length_cons, Nat.add_assoc, Nat.add_comm 1]
    · rintro ⟨front, child, back, hitems, hfront, hchild⟩
      cases front with
      | nil =>
        obtain ⟨rfl, rfl⟩ := List.cons.inj hitems
        exact Or.inl (by simpa using hchild)
      | cons first others =>
        obtain ⟨rfl, rfl⟩ := List.cons.inj hitems
        rw [List.forall_mem_cons] at hfront
        have hfirst : ((read node).below (.index index)).Succeeds := Outcome.succeeds_below.mpr hfront.1
        obtain ⟨value, remarks, hvalue⟩ := hfirst
        refine Or.inr ⟨value, remarks, hvalue, ?_⟩
        rw [Outcome.map_eq_error_iff]
        refine ih.mpr ⟨others, child, back, rfl, hfront.2, ?_⟩
        rw [← hchild, List.length_cons, Nat.add_assoc, Nat.add_comm 1]

end

/-! ## Entries -/

/-- Reads one entry of the settings behind those that were read already. -/
def readSettingEntry (graph : Graph α) (seen : List (String × String)) (entry : α × α) :
    Outcome (List (String × String)) :=
  match graph entry.1 with
  | .scalar name =>
    if (seen.lookup name).isSome then .refuse (.duplicateSetting name)
    else ((readText graph entry.2).below (.key name)).map fun text => seen ++ [(name, text)]
  | shape => .refuse (.wrongShape .scalarKey shape.kind)

/-- The settings are read entry by entry. -/
theorem readSettingEntries_eq_foldl (seen : List (String × String)) (entries : List (α × α)) :
    readSettingEntries graph seen entries = Outcome.foldl (readSettingEntry graph) seen entries := by
  induction entries generalizing seen with
  | nil => rfl
  | cons entry rest ih =>
    obtain ⟨key, child⟩ := entry
    rw [Outcome.foldl, readSettingEntries, readSettingEntry]
    cases graph key with
    | scalar name =>
      dsimp only
      split
      · rfl
      · cases (readText graph child).below (.key name) with
        | error refusal => rfl
        | ok pair => simp only [Outcome.map, Outcome.andThen, ih]
    | sequence items => rfl
    | map entries => rfl

section

variable {e : Entity}

/-- Reads one entry of an entity. -/
def readEntry (graph : Graph α) (lower : LowerReader α e) (state : e.Value) (entry : α × α) : Outcome e.Value :=
  match graph entry.1 with
  | .scalar name =>
    match e.rule? name with
    | none => .refuse (.unknownKey e name)
    | some rule => applyRule graph lower name entry.2 state rule
  | shape => .refuse (.wrongShape .scalarKey shape.kind)

/-- An entity is read entry by entry. -/
theorem readEntries_eq_foldl (lower : LowerReader α e) (state : e.Value) (entries : List (α × α)) :
    readEntries graph lower state entries = Outcome.foldl (readEntry graph lower) state entries := by
  induction entries generalizing state with
  | nil => rfl
  | cons entry rest ih =>
    obtain ⟨key, child⟩ := entry
    rw [Outcome.foldl, readEntries, readEntry]
    cases graph key with
    | scalar name =>
      dsimp only
      cases e.rule? name with
      | none => rfl
      | some rule => simp only [ih]
    | sequence items => rfl
    | map entries => rfl

end

end Postmortem
