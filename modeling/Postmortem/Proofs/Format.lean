import Postmortem.Node.Path
import Postmortem.Proofs.Entries
import Postmortem.Proofs.HandleToken
set_option autoImplicit false

/-!
# Format: what a document has to be

The format of a dump as tables and relations that mention no reader.  `Entity.format` says which keys the map of an
entity may have and what has to stand under them.  `Conforms` is the set of nodes that are of a form, and
`FirstViolation` says what is wrong with any other node: the first thing in the order of the document, where it is, and
under which path it is known.
-/

namespace Postmortem

open Postmortem.Node

/-! ## Forms -/

/-- What has to stand at a place of a document. -/
inductive Form where
  | text
  | uint (width : Width)
  | flag
  | handle
  /-- a map of texts whose keys are free but each used once -/
  | settings
  | entity (e : Entity)
  | sequence (item : Form)
  /-- nothing is asked for -/
  | anything
  deriving DecidableEq, Repr

/-! ## Tables -/

/-- The keys that the map of an entity may have, and the form of their values. -/
def Entity.format : Entity → List (String × Form)
  | .semaphoreInfo => [
      ("handle", .handle), ("type", .text), ("value", .uint .w64), ("lastValue", .uint .w64)]
  | .command => [
      ("id", .uint .w32), ("checkpointValue", .uint .w32), ("name", .text), ("state", .text),
      ("message", .text), ("parameters", .anything), ("internalState", .anything)]
  | .applicationInfo => [
      ("application", .text), ("applicationVersion", .uint .w32), ("engine", .text),
      ("engineVersion", .uint .w32), ("apiVersion", .text)]
  | .submitInfo => [
      ("id", .uint .w64), ("state", .text), ("CommandBuffers", .sequence .text),
      ("SignalSemaphores", .sequence (.entity .semaphoreInfo)),
      ("WaitSemaphores", .sequence (.entity .semaphoreInfo))]
  | .commandBuffer => [
      ("state", .text), ("handle", .handle), ("commandPool", .handle), ("queue", .handle),
      ("fence", .handle), ("submitInfoId", .uint .w64), ("level", .text), ("simultaneousUse", .flag),
      ("beginValue", .uint .w32), ("endValue", .uint .w32), ("topCheckpointValue", .uint .w32),
      ("bottomCheckpointValue", .uint .w32), ("lastStartedCommand", .uint .w32),
      ("lastCompletedCommand", .uint .w32), ("Commands", .sequence (.entity .command))]
  | .apiInstance => [
      ("handle", .handle), ("applicationInfo", .entity .applicationInfo), ("extensions", .sequence .text)]
  | .submit => [("id", .uint .w32), ("SubmitInfos", .sequence (.entity .submitInfo))]
  | .queue => [
      ("handle", .handle), ("queueFamilyIndex", .uint .w32), ("index", .uint .w32), ("flags", .anything),
      ("IncompleteSubmits", .sequence (.entity .submit))]
  | .device => [
      ("handle", .handle), ("deviceName", .text), ("apiVersion", .text), ("driverVersion", .text),
      ("vendorID", .uint .w32), ("deviceID", .uint .w32), ("Queues", .sequence (.entity .queue)),
      ("IncompleteCommandBuffers", .sequence (.entity .commandBuffer)),
      ("AllCommandBuffers", .sequence (.entity .commandBuffer)), ("extensions", .sequence .text)]
  | .dump => [
      ("version", .text), ("startTime", .text), ("timeSinceStart", .text), ("settings", .settings),
      ("SystemInfo", .anything), ("Instance", .entity .apiInstance), ("Device", .entity .device)]

namespace Form

/-- The kind of node that a form asks for. -/
def kind? : Form → Option Kind
  | .text | .uint _ | .flag | .handle => some .scalar
  | .settings | .entity _ => some .map
  | .sequence _ => some .sequence
  | .anything => none

/-- The form of the value under a key of a map, nothing for a key that the map may not have. -/
def under : Form → String → Option Form
  | .settings, _ => some .text
  | .entity e, key => e.format.lookup key
  | _, _ => none

/-- How a message names what a form asks for. -/
def expected : Form → Expected
  | .text | .handle => .scalar .string
  | .uint width => .scalar (.uint width)
  | .flag => .scalar .bool
  | .sequence _ => .sequence
  | .settings | .entity _ | .anything => .map

/-- How the value of an entry is reached from a map: by its key, and for a device of a dump also by the number of
devices before it. -/
def stepsTo (form : Form) (key : String) (earlier : Nat) : List Step :=
  if form = .entity .dump ∧ key = "Device" then [.key key, .index earlier] else [.key key]

end Form

/-! ## Conforming nodes -/

/-- A text is a scalar of a form.  Decimal numerals may have up to `limit` digits, or any number of them. -/
inductive Writes (limit : Option Nat) : Form → String → Prop where
  | text (text : String) : Writes limit .text text
  | uint {width : Width} {text : String} {n : Literal} (isNumeral : IsNumeral text n)
      (short : n.Within limit) (small : n.value < width.limit) : Writes limit (.uint width) text
  | flag {text : String} {value : Bool} (isTruth : IsTruth text value) : Writes limit .flag text
  | handle {token : String} {h : Handle} (isHandle : IsHandle token h) : Writes limit .handle token

section

variable {α : Type} (graph : Graph α)

/-- The elements of a sequence; any other node has none. -/
def itemsOf (node : α) : List α :=
  match graph node with
  | .sequence items => items
  | _ => []

/-- The elements of the last sequence under a key. -/
def lastItems (key : String) (entries : List (α × α)) : List α :=
  match (valuesUnder graph key entries).getLast? with
  | some node => itemsOf graph node
  | none => []

/-- What has to hold of a map as a whole: the last listings of a device are not both of use. -/
def Whole : Form → List (α × α) → Prop
  | .entity .device, entries =>
    lastItems graph "IncompleteCommandBuffers" entries = [] ∨ lastItems graph "AllCommandBuffers" entries = []
  | _, _ => True

/-- A node is of a form. -/
inductive Conforms (limit : Option Nat) : Form → α → Prop where
  | anything (node : α) : Conforms limit .anything node
  | scalar {form : Form} {node : α} {text : String} (shape : graph node = .scalar text)
      (writes : Writes limit form text) : Conforms limit form node
  | sequence {item : Form} {node : α} {items : List α} (shape : graph node = .sequence items)
      (conform : ∀ child ∈ items, Conforms limit item child) : Conforms limit (.sequence item) node
  | map {form : Form} {node : α} {entries : List (α × α)} (kind : form.kind? = some .map)
      (shape : graph node = .map entries)
      (known : ∀ entry ∈ entries, ∃ name inner, graph entry.1 = .scalar name ∧ form.under name = some inner)
      (distinct : form = .settings → (keysOf graph entries).Nodup)
      (conform : ∀ entry ∈ entries, ∀ name inner, graph entry.1 = .scalar name →
        form.under name = some inner → Conforms limit inner entry.2)
      (whole : Whole graph form entries) : Conforms limit form node

/-- Entries that may stand in a map of a form, as far as that can be said of each of them and the ones before it. -/
structure EntriesConform (limit : Option Nat) (form : Form) (entries : List (α × α)) : Prop where
  known : ∀ entry ∈ entries, ∃ name inner, graph entry.1 = .scalar name ∧ form.under name = some inner
  distinct : form = .settings → (keysOf graph entries).Nodup
  conform : ∀ entry ∈ entries, ∀ name inner, graph entry.1 = .scalar name →
    form.under name = some inner → Conforms graph limit inner entry.2

/-! ## The first violation -/

/-- Why a text is no scalar of a form. -/
inductive Misreads (limit : Option Nat) : Form → String → Cause → Prop where
  | uint {width : Width} {text : String} {cause : Cause} (h : Unreadable limit width text cause) :
      Misreads limit (.uint width) text cause
  | flag {text : String} (h : ∀ value, ¬ IsTruth text value) :
      Misreads limit .flag text (.badScalar text .bool)
  | handle {token : String} (h : ∀ value, ¬ IsHandle token value) :
      Misreads limit .handle token (.malformedHandle token)

/-- A move from a node to one of its parts. -/
inductive Move where
  /-- to the value of an entry of a map -/
  | entry (number : Nat)
  /-- to an element of a sequence -/
  | element (number : Nat)
  deriving DecidableEq, Repr

/-- The way from a node to one below it. -/
abbrev Address : Type := List Move

/-- The first violation of a form in the order of the document: its cause, the way to the node that is at fault, and
the steps under which that node is known. -/
inductive FirstViolation (limit : Option Nat) : Form → α → Cause → Address → List Step → Prop where
  /-- the node is of another kind -/
  | shape {form : Form} {node : α} {kind : Kind} (asked : form.kind? = some kind)
      (other : (graph node).kind ≠ kind) :
      FirstViolation limit form node (.wrongShape form.expected (graph node).kind) [] []
  /-- the text of the scalar does not convert -/
  | scalar {form : Form} {node : α} {text : String} {cause : Cause} (shape : graph node = .scalar text)
      (misreads : Misreads limit form text cause) : FirstViolation limit form node cause [] []
  /-- an element is at fault -/
  | element {item : Form} {node child : α} {front back : List α} {cause : Cause} {address : Address}
      {location : List Step} (shape : graph node = .sequence (front ++ child :: back))
      (before : ∀ other ∈ front, Conforms graph limit item other)
      (fault : FirstViolation limit item child cause address location) :
      FirstViolation limit (.sequence item) node cause (.element front.length :: address)
        (.index front.length :: location)
  /-- a key is no scalar -/
  | oddKey {form : Form} {node key child : α} {front back : List (α × α)} (kind : form.kind? = some .map)
      (shape : graph node = .map (front ++ (key, child) :: back))
      (before : EntriesConform graph limit form front) (odd : (graph key).kind ≠ .scalar) :
      FirstViolation limit form node (.wrongShape .scalarKey (graph key).kind) [] []
  /-- an entity has a key that is not in its table -/
  | unknownKey {e : Entity} {node key child : α} {name : String} {front back : List (α × α)}
      (shape : graph node = .map (front ++ (key, child) :: back))
      (before : EntriesConform graph limit (.entity e) front) (isKey : graph key = .scalar name)
      (unknown : e.format.lookup name = none) :
      FirstViolation limit (.entity e) node (.unknownKey e name) [] []
  /-- a setting is given again -/
  | repeatedKey {node key child : α} {name : String} {front back : List (α × α)}
      (shape : graph node = .map (front ++ (key, child) :: back))
      (before : EntriesConform graph limit .settings front) (isKey : graph key = .scalar name)
      (again : name ∈ keysOf graph front) :
      FirstViolation limit .settings node (.duplicateSetting name) [] []
  /-- the value of an entry is at fault -/
  | entry {form inner : Form} {node key child : α} {name : String} {front back : List (α × α)} {cause : Cause}
      {address : Address} {location : List Step} (kind : form.kind? = some .map)
      (shape : graph node = .map (front ++ (key, child) :: back))
      (before : EntriesConform graph limit form front) (isKey : graph key = .scalar name)
      (known : form.under name = some inner) (new : form = .settings → name ∉ keysOf graph front)
      (fault : FirstViolation limit inner child cause address location) :
      FirstViolation limit form node cause (.entry front.length :: address)
        (form.stepsTo name (valuesUnder graph name front).length ++ location)
  /-- a device has command buffers in both listings -/
  | bothListings {node : α} {entries : List (α × α)} (shape : graph node = .map entries)
      (entriesConform : EntriesConform graph limit (.entity .device) entries)
      (incomplete : lastItems graph "IncompleteCommandBuffers" entries ≠ [])
      (all : lastItems graph "AllCommandBuffers" entries ≠ []) :
      FirstViolation limit (.entity .device) node
        (.bothListings (lastItems graph "IncompleteCommandBuffers" entries).length
          (lastItems graph "AllCommandBuffers" entries).length) [] []

variable {graph}

theorem conforms_map_iff {limit : Option Nat} {form : Form} {node : α} (hkind : form.kind? = some .map) :
    Conforms graph limit form node ↔
      ∃ entries, graph node = .map entries ∧ EntriesConform graph limit form entries ∧ Whole graph form entries := by
  constructor
  · intro h
    cases h with
    | anything => exact absurd hkind (by simp [Form.kind?])
    | scalar shape writes => cases writes <;> exact absurd hkind (by simp [Form.kind?])
    | sequence shape conform => exact absurd hkind (by simp [Form.kind?])
    | map kind shape known distinct conform whole => exact ⟨_, shape, ⟨known, distinct, conform⟩, whole⟩
  · rintro ⟨entries, shape, h, whole⟩
    exact .map hkind shape h.known h.distinct h.conform whole

theorem conforms_sequence_iff {limit : Option Nat} {item : Form} {node : α} :
    Conforms graph limit (.sequence item) node ↔
      ∃ items, graph node = .sequence items ∧ ∀ child ∈ items, Conforms graph limit item child := by
  constructor
  · intro h
    cases h with
    | scalar shape writes => cases writes
    | sequence shape conform => exact ⟨_, shape, conform⟩
    | map kind => exact absurd kind (by simp [Form.kind?])
  · rintro ⟨items, shape, h⟩
    exact .sequence shape h

theorem conforms_scalar_iff {limit : Option Nat} {form : Form} {node : α} (hkind : form.kind? = some .scalar) :
    Conforms graph limit form node ↔ ∃ text, graph node = .scalar text ∧ Writes limit form text := by
  constructor
  · intro h
    cases h with
    | anything => exact absurd hkind (by simp [Form.kind?])
    | scalar shape writes => exact ⟨_, shape, writes⟩
    | sequence shape conform => exact absurd hkind (by simp [Form.kind?])
    | map kind => exact absurd (hkind.symm.trans kind) (by simp)
  · rintro ⟨text, shape, writes⟩
    exact .scalar shape writes

end

end Postmortem
