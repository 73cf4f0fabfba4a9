import Postmortem.Node.Shape
set_option autoImplicit false

/-!
# Entries: a map seen key by key

A map is a list of entries that may repeat keys.  Most of what is said about a map is said about the values under one
key, in order, and about the list of its keys.
-/

namespace Postmortem.Node

variable {α : Type} (graph : Graph α)

/-- The text of a key, if the key is a scalar. -/
def keyOf (key : α) : Option String :=
  match graph key with
  | .scalar name => some name
  | _ => none

/-- The texts of the keys of some entries. -/
def keysOf (entries : List (α × α)) : List String := entries.filterMap fun entry => keyOf graph entry.1

/-- The values under a key, in order. -/
def valuesUnder (name : String) (entries : List (α × α)) : List α :=
  (entries.filter fun entry => keyOf graph entry.1 == some name).map Prod.snd

variable {graph}

theorem keyOf_eq_some_iff {key : α} {name : String} : keyOf graph key = some name ↔ graph key = .scalar name := by
  unfold keyOf
  cases graph key <;> simp

@[simp] theorem keysOf_nil : keysOf graph [] = [] := rfl

@[simp] theorem valuesUnder_nil (name : String) : valuesUnder graph name [] = [] := rfl

@[simp] theorem keysOf_append (front back : List (α × α)) :
    keysOf graph (front ++ back) = keysOf graph front ++ keysOf graph back := by
  simp [keysOf]

@[simp] theorem valuesUnder_append (name : String) (front back : List (α × α)) :
    valuesUnder graph name (front ++ back) = valuesUnder graph name front ++ valuesUnder graph name back := by
  simp [valuesUnder]

theorem keysOf_cons {key child : α} {name : String} (h : graph key = .scalar name) (rest : List (α × α)) :
    keysOf graph ((key, child) :: rest) = name :: keysOf graph rest := by
  simp [keysOf, keyOf_eq_some_iff.mpr h]

theorem valuesUnder_cons_self {key child : α} {name : String} (h : graph key = .scalar name)
    (rest : List (α × α)) :
    valuesUnder graph name ((key, child) :: rest) = child :: valuesUnder graph name rest := by
  simp [valuesUnder, keyOf_eq_some_iff.mpr h]

theorem valuesUnder_cons_of_ne {key child : α} {name other : String} (h : graph key = .scalar name)
    (hne : name ≠ other) (rest : List (α × α)) :
    valuesUnder graph other ((key, child) :: rest) = valuesUnder graph other rest := by
  simp [valuesUnder, keyOf_eq_some_iff.mpr h, hne]

theorem length_valuesUnder (key : String) (entries : List (α × α)) :
    (valuesUnder graph key entries).length = (keysOf graph entries).count key := by
  rw [valuesUnder, List.length_map, keysOf, List.count_filterMap, List.countP_eq_length_filter]

theorem mem_valuesUnder {name : String} {child : α} {entries : List (α × α)} :
    child ∈ valuesUnder graph name entries ↔ ∃ entry ∈ entries, graph entry.1 = .scalar name ∧ entry.2 = child := by
  simp [valuesUnder, keyOf_eq_some_iff, and_assoc]

theorem mem_keysOf {name : String} {entries : List (α × α)} :
    name ∈ keysOf graph entries ↔ ∃ entry ∈ entries, graph entry.1 = .scalar name := by
  simp [keysOf, keyOf_eq_some_iff]

end Postmortem.Node
