import Postmortem.Dump.Outcome
import Postmortem.Dump.Schema
import Postmortem.Node.Scalar
set_option autoImplicit false

/-!
# Dump: reading

The reader walks a graph of nodes along the schema.  It goes through the entries of a map in document order, stops at
the first one that it has to refuse, and makes a remark for each value that it does not look at.  The main statement
is `readEntity_eq`: an entity is read by reading the entries of its map and checking the whole.
-/

namespace Postmortem

open Postmortem.Node

section

variable {α : Type} (graph : Graph α)

/-! ## Lists -/

/-- Reads the elements of a sequence, which are numbered from `index` on. -/
def readItems {τ : Type} (read : α → Outcome τ) : (index : Nat) → List α → Outcome (List τ)
  | _, [] => .pure []
  | index, node :: rest =>
    ((read node).below (.index index)).andThen fun value =>
      (readItems read (index + 1) rest).map (value :: ·)

/-- Reads a sequence. -/
def readSequence {τ : Type} (read : α → Outcome τ) (node : α) : Outcome (List τ) :=
  match graph node with
  | .sequence items => readItems read 0 items
  | shape => .refuse (.wrongShape .sequence shape.kind)

/-- Reads a text. -/
def readText (node : α) : Outcome String := .ofExcept ((graph node).text .string)

/-! ## Settings -/

/-- Reads the entries of the settings behind those that were read already. -/
def readSettingEntries : (seen : List (String × String)) → List (α × α) → Outcome (List (String × String))
  | seen, [] => .pure seen
  | seen, (key, child) :: rest =>
    match graph key with
    | .scalar name =>
      if (seen.lookup name).isSome then .refuse (.duplicateSetting name)
      else
        ((readText graph child).below (.key name)).andThen fun text =>
          readSettingEntries (seen ++ [(name, text)]) rest
    | shape => .refuse (.wrongShape .scalarKey shape.kind)

/-- Reads the settings: a map of texts whose keys are free but each used once. -/
def readSettings (node : α) : Outcome (List (String × String)) :=
  match graph node with
  | .map entries => readSettingEntries graph [] entries
  | shape => .refuse (.wrongShape .map shape.kind)

/-! ## Entities -/

/-- A reader for the entities that one entity holds.  It starts from a value and changes the fields that are given. -/
abbrev LowerReader (α : Type) (owner : Entity) : Type :=
  (item : Entity) → item.rank < owner.rank → item.Value → α → Outcome item.Value

/-- Reads the value of a key. -/
def readContent {owner : Entity} (lower : LowerReader α owner) :
    (content : Content owner) → α → Outcome content.Value
  | .text, node => readText graph node
  | .version, node => (readText graph node).map Version.ofText
  | .uint width, node => .ofExcept ((graph node).readWith (.uint width) (readUint width))
  | .flag, node => .ofExcept ((graph node).readWith .bool readBool)
  | .handle, node => .ofExcept ((graph node).readWith .string readHandle)
  | .texts, node => readSequence graph (readText graph) node
  | .settings, node => readSettings graph node
  | .one item h, node => lower item h item.initial node
  | .many item h, node => readSequence graph (lower item h item.initial) node

/-- Applies the rule for a key to its value. -/
def applyRule {e : Entity} (lower : LowerReader α e) (key : String) (child : α) (state : e.Value) :
    Rule e → Outcome e.Value
  | .store content slot =>
    ((readContent graph lower content child).below (.key key)).map (slot.set · state)
  | .merge part h slot =>
    ((lower part h (slot.get state) child).below (.key key)).map (slot.set · state)
  | .append item h slot =>
    (((lower item h item.initial child).below (.index (slot.get state).length)).below (.key key)).map
      fun value => slot.set (slot.get state ++ [value]) state
  | .ignore => .ok (state, [⟨e, key, [.key key]⟩])

/-- Reads the entries of a map in order, changing the fields of `state`. -/
def readEntries {e : Entity} (lower : LowerReader α e) : (state : e.Value) → List (α × α) → Outcome e.Value
  | state, [] => .pure state
  | state, (key, child) :: rest =>
    match graph key with
    | .scalar name =>
      match e.rule? name with
      | none => .refuse (.unknownKey e name)
      | some rule => (applyRule graph lower name child state rule).andThen fun state => readEntries lower state rest
    | shape => .refuse (.wrongShape .scalarKey shape.kind)

/-- An entity, unless it is refused as a whole. -/
def checked (e : Entity) (value : e.Value) : Outcome e.Value :=
  match e.check value with
  | .ok () => .pure value
  | .error cause => .refuse cause

/-- Reads the map of an entity. -/
def readMap {e : Entity} (lower : LowerReader α e) (start : e.Value) (node : α) : Outcome e.Value :=
  match graph node with
  | .map entries => (readEntries graph lower start entries).andThen (checked e)
  | shape => .refuse (.wrongShape .map shape.kind)

/-- Reads an entity, changing the fields of `start`. -/
def readEntity (e : Entity) (start : e.Value) (node : α) : Outcome e.Value :=
  readMap graph (fun item _ start node => readEntity item start node) start node
termination_by e.rank

/-- An entity is read by reading its map, and the entities in it likewise. -/
theorem readEntity_eq (e : Entity) (start : e.Value) (node : α) :
    readEntity graph e start node
      = readMap graph (fun item _ start node => readEntity graph item start node) start node := by
  rw [readEntity]

/-- Reads a dump from the root of a document.  A document without a root holds no dump. -/
def readDump (root : Option α) : Outcome Dump :=
  match root with
  | none => .refuse (.wrongShape (.entityMap .dump) .nothing)
  | some node => readEntity graph .dump ({} : Dump) node

end

end Postmortem
