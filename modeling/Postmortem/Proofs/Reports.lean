import Postmortem.Proofs.Acceptance
set_option autoImplicit false

/-!
# Reports: a refusal points at what is wrong

A refusal names a cause and a path.  The path belongs to a node of the document, at which the format asks for a certain
form, and that node has what the cause says.  The path is built up step by step by the reader; here it is read off the
whole way from the root at once.
-/

namespace Postmortem

open Postmortem.Node

/-! ## Paths -/

/-- How a step is shown behind a path. -/
def shownStep : Step → String
  | .key name => "." ++ name
  | .index number => "[" ++ Text.Numeral.decimal number ++ "]"

/-- The path of a location: its keys joined by full stops, its numbers in brackets, and nothing for the root. -/
def pathOf : List Step → String
  | [] => ""
  | .key name :: rest => name ++ String.join (rest.map shownStep)
  | .index number :: rest => shownStep (.index number) ++ String.join (rest.map shownStep)

theorem stepPath_eq {parent : String} (h : parent ≠ "") (step : Step) :
    stepPath parent step = parent ++ shownStep step := by
  cases step with
  | key name =>
    rw [stepPath, keyPath, if_neg h, String.append_assoc]
    rfl
  | index number => simp [stepPath, indexPath, shownStep, String.append_assoc]

theorem render_eq_append {parent : String} (h : parent ≠ "") (steps : List Step) :
    render parent steps = parent ++ String.join (steps.map shownStep) := by
  induction steps generalizing parent with
  | nil => simp
  | cons step rest ih =>
    have hne : parent ++ shownStep step ≠ "" := by
      intro heq
      exact h (String.append_eq_empty_iff.mp heq).1
    rw [render_cons, stepPath_eq h, ih hne, String.append_assoc, List.map_cons, String.join_cons]

/-- Below a key that is not empty, a location is shown by its path. -/
theorem render_eq_pathOf {name : String} (h : name ≠ "") (rest : List Step) :
    render "" (.key name :: rest) = pathOf (.key name :: rest) := by
  rw [render_cons, stepPath, keyPath, if_pos rfl, render_eq_append h]
  rfl

/-! ## Places -/

section

variable {α : Type} (graph : Graph α)

/-- An address leads from a node that has to be of a form to another one, with the form that the format asks for
there and the steps under which that node is known. -/
inductive Leads : Form → α → Address → List Step → Form → α → Prop where
  | here (form : Form) (node : α) : Leads form node [] [] form node
  /-- to the value of an entry, which has `front.length` entries before it -/
  | entry {form inner target : Form} {node key child place : α} {name : String} {front back : List (α × α)}
      {address : Address} {location : List Step} (shape : graph node = .map (front ++ (key, child) :: back))
      (isKey : graph key = .scalar name) (known : form.under name = some inner)
      (rest : Leads inner child address location target place) :
      Leads form node (.entry front.length :: address)
        (form.stepsTo name (valuesUnder graph name front).length ++ location) target place
  /-- to an element, which has `front.length` elements before it -/
  | element {item target : Form} {node child place : α} {front back : List α} {address : Address}
      {location : List Step} (shape : graph node = .sequence (front ++ child :: back))
      (rest : Leads item child address location target place) :
      Leads (.sequence item) node (.element front.length :: address) (.index front.length :: location) target place

/-- A node that should be of a form has what a cause says. -/
inductive Justifies : Form → α → Cause → Prop where
  /-- the map of an entity has a key that is not in the table of the entity -/
  | unknownKey {e : Entity} {node : α} {entries : List (α × α)} {name : String}
      (shape : graph node = .map entries) (has : name ∈ keysOf graph entries)
      (unknown : name ∉ e.format.map Prod.fst) : Justifies (.entity e) node (.unknownKey e name)
  /-- a scalar that should be a handle is none -/
  | malformedHandle {node : α} {token : String} (shape : graph node = .scalar token)
      (bad : ∀ h, ¬ IsHandle token h) : Justifies .handle node (.malformedHandle token)
  /-- a scalar that should be a number of a width writes none that fits -/
  | badNumber {width : Width} {node : α} {text : String} (shape : graph node = .scalar text)
      (bad : ∀ n, IsNumeral text n → width.limit ≤ n.value) :
      Justifies (.uint width) node (.badScalar text (.uint width))
  /-- a scalar that should be a truth value is none -/
  | badFlag {node : α} {text : String} (shape : graph node = .scalar text) (bad : ∀ value, ¬ IsTruth text value) :
      Justifies .flag node (.badScalar text .bool)
  /-- a node is not of the kind that is asked for -/
  | wrongKind {form : Form} {node : α} {kind : Kind} (asked : form.kind? = some kind)
      (other : (graph node).kind ≠ kind) : Justifies form node (.wrongShape form.expected (graph node).kind)
  /-- a map has a key that is no scalar -/
  | oddKey {form : Form} {node : α} {entries : List (α × α)} {entry : α × α} (asked : form.kind? = some .map)
      (shape : graph node = .map entries) (has : entry ∈ entries) (odd : (graph entry.1).kind ≠ .scalar) :
      Justifies form node (.wrongShape .scalarKey (graph entry.1).kind)
  /-- the settings have a key more than once -/
  | duplicateSetting {node : α} {entries : List (α × α)} {name : String} (shape : graph node = .map entries)
      (twice : 2 ≤ (keysOf graph entries).count name) : Justifies .settings node (.duplicateSetting name)
  /-- the last listings of a device both have elements, as many as the cause says -/
  | bothListings {node : α} {entries : List (α × α)} (shape : graph node = .map entries)
      (incomplete : 0 < (lastItems graph "IncompleteCommandBuffers" entries).length)
      (all : 0 < (lastItems graph "AllCommandBuffers" entries).length) :
      Justifies (.entity .device) node
        (.bothListings (lastItems graph "IncompleteCommandBuffers" entries).length
          (lastItems graph "AllCommandBuffers" entries).length)
  /-- a decimal numeral has more digits than are read -/
  | numeralTooLong {width : Width} {node : α} {text : String} {digits : List Char}
      (shape : graph node = .scalar text) (isNumeral : IsNumeral text ⟨10, digits⟩)
      (long : Text.Numeral.maxDecimalDigits < digits.length) :
      Justifies (.uint width) node (.numeralTooLong digits.length)

variable {graph}

theorem Misreads.justifies {form : Form} {node : α} {text : String} {cause : Cause}
    (h : Misreads readable form text cause) (shape : graph node = .scalar text) :
    Justifies graph form node cause := by
  cases h with
  | uint h =>
    cases h with
    | unfit h => exact .badNumber shape fun n hn => (h n hn).2
    | long isNumeral long =>
      rename_i n
      obtain ⟨base, digits⟩ := n
      have hlong : base = 10 ∧ Text.Numeral.maxDecimalDigits < digits.length := by
        simpa [Literal.Within, readable] using long
      obtain ⟨rfl, hdigits⟩ := hlong
      exact .numeralTooLong shape isNumeral hdigits
  | flag h => exact .badFlag shape h
  | handle h => exact .malformedHandle shape h

/-- The address of a violation leads to a node that justifies its cause. -/
theorem FirstViolation.justifies {form : Form} {node : α} {cause : Cause} {address : Address}
    {location : List Step} (h : FirstViolation graph readable form node cause address location) :
    ∃ target place, Leads graph form node address location target place ∧ Justifies graph target place cause := by
  induction h with
  | shape asked other => exact ⟨_, _, .here _ _, .wrongKind asked other⟩
  | scalar shape misreads => exact ⟨_, _, .here _ _, misreads.justifies shape⟩
  | element shape before fault ih =>
    obtain ⟨target, place, hleads, hjustifies⟩ := ih
    exact ⟨target, place, .element shape hleads, hjustifies⟩
  | oddKey kind shape before odd =>
    exact ⟨_, _, .here _ _, .oddKey kind shape (List.mem_append_right _ List.mem_cons_self) odd⟩
  | unknownKey shape before isKey unknown =>
    refine ⟨_, _, .here _ _, .unknownKey shape ?_ ?_⟩
    · rw [keysOf_append, keysOf_cons isKey]
      exact List.mem_append_right _ List.mem_cons_self
    · intro hmem
      obtain ⟨row, hrow, rfl⟩ := List.mem_map.mp hmem
      have hlookup := List.lookup_eq_none_iff.mp unknown row hrow
      simp at hlookup
  | repeatedKey shape before isKey again =>
    refine ⟨_, _, .here _ _, .duplicateSetting shape ?_⟩
    rw [keysOf_append, keysOf_cons isKey, List.count_append, List.count_cons_self]
    have hfirst := List.count_pos_iff.mpr again
    omega
  | entry kind shape before isKey known new fault ih =>
    obtain ⟨target, place, hleads, hjustifies⟩ := ih
    exact ⟨target, place, .entry shape isKey known hleads, hjustifies⟩
  | bothListings shape entriesConform incomplete all =>
    exact ⟨_, _, .here _ _,
      .bothListings shape (List.length_pos_iff.mpr incomplete) (List.length_pos_iff.mpr all)⟩

/-- The empty key is in no table. -/
theorem Entity.lookup_format_empty (e : Entity) : e.format.lookup "" = none := by
  cases e <;> rfl

/-- A place in an entity is shown by its path. -/
theorem Leads.render_eq {e : Entity} {target : Form} {node place : α} {address : Address} {location : List Step}
    (h : Leads graph (.entity e) node address location target place) : render "" location = pathOf location := by
  cases h with
  | here => rfl
  | entry shape isKey known rest =>
    rename_i inner key child name front back address location
    have hname : name ≠ "" := by
      rintro rfl
      exact absurd (e.lookup_format_empty.symm.trans known) (by simp)
    unfold Form.stepsTo
    split
    · exact render_eq_pathOf hname _
    · exact render_eq_pathOf hname _

end

/-! ## Reports -/

/-- Every refusal is about a node of the document or the lack of one: its path is that of a place in the document, and
the node there, which should be of the form that the format asks for, has what the cause says. -/
theorem fault_justified {α : Type} {config : Config} {graph : Graph α} {root : Option α} {fault : Fault}
    (h : Reader.ofGraph config graph root = .error fault) :
    (root = none ∧ fault = .node (.wrongShape (.entityMap .dump) .nothing) "") ∨
      ∃ node address location form place cause, root = some node ∧
        Leads graph (.entity .dump) node address location form place ∧ Justifies graph form place cause ∧
          fault = .node cause (pathOf location) := by
  obtain ⟨refusal, hrefused, rfl⟩ := Reader.ofGraph_eq_error_iff.mp h
  rcases readDump_eq_error_iff.mp hrefused with ⟨hroot, rfl⟩ | ⟨node, address, hroot, hviolation⟩
  · exact Or.inl ⟨hroot, rfl⟩
  · obtain ⟨form, place, hleads, hjustifies⟩ := hviolation.justifies
    refine Or.inr ⟨node, address, refusal.location, form, place, refusal.cause, hroot, hleads, hjustifies, ?_⟩
    rw [hleads.render_eq]

/-- Two devices, the second with a queue whose handle is none. -/
def badQueueHandle : Tree :=
  .map [
    (.scalar "Device", .map [(.scalar "deviceName", .scalar "first")]),
    (.scalar "Device", .map [
      (.scalar "Queues", .sequence [.map [(.scalar "index", .scalar "0"), (.scalar "handle", .scalar "none")]])])]

/-- The refusal of a handle in the second device, at its place. -/
theorem fault_justified_badQueueHandle :
    Reader.ofGraph {} Tree.shape (some badQueueHandle)
        = .error (.node (.malformedHandle "none") "Device[1].Queues[0].handle") ∧
      ∃ address location form place cause,
        Leads Tree.shape (.entity .dump) badQueueHandle address location form place ∧
          Justifies Tree.shape form place cause ∧
          Fault.node (.malformedHandle "none") "Device[1].Queues[0].handle" = .node cause (pathOf location) := by
  have hread : Reader.ofGraph {} Tree.shape (some badQueueHandle)
      = .error (.node (.malformedHandle "none") "Device[1].Queues[0].handle") := by
    decide +kernel
  refine ⟨hread, ?_⟩
  rcases fault_justified hread with ⟨hnone, _⟩ | ⟨node, address, location, form, place, cause, hroot, h⟩
  · cases hnone
  · obtain rfl := Option.some.inj hroot
    exact ⟨address, location, form, place, cause, h⟩

end Postmortem
