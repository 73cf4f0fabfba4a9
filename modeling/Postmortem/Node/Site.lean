import Postmortem.Fault
import Postmortem.Node.Path
import Postmortem.Node.Scalar
set_option autoImplicit false

/-!
# Node: sites

A site is a node, or the lack of one, together with the path under which it is reported.  Its parts are sites too, and
what is wrong with a node is reported under the path of its site.
-/

namespace Postmortem.Node

/-- A node of a graph, which may be missing, and the path under which it is reported. -/
structure Site (α : Type) where
  node : Option α
  path : String := ""
  deriving DecidableEq, Repr

/-- The parts of a site that can be reached, and what stops the walk through them. -/
structure Listing (τ : Type) where
  parts : List τ
  stop : Option Fault

namespace Listing

/-- A listing with a part in front. -/
def cons {τ : Type} (part : τ) (l : Listing τ) : Listing τ := { l with parts := part :: l.parts }

/-- All parts, or what stops the walk. -/
def all {τ : Type} (l : Listing τ) : Except Fault (List τ) :=
  match l.stop with
  | none => .ok l.parts
  | some fault => .error fault

/-- The part with a number, or what stops the walk before it; nothing if there are too few. -/
def nth {τ : Type} (l : Listing τ) (n : Nat) : Except Fault (Option τ) :=
  match l.parts[n]?, l.stop with
  | none, some fault => .error fault
  | part, _ => .ok part

end Listing

namespace Site

variable {α : Type} (graph : Graph α)

/-- The same node under another path. -/
def withPath (s : Site α) (path : String) : Site α := { s with path := path }

/-- The kind of the node. -/
def kind (s : Site α) : Kind := kindOf graph s.node

/-- Whether there is a node. -/
def isPresent (s : Site α) : Bool := s.node.isSome

/-- How the site is shown. -/
def describe (s : Site α) : String :=
  "Node(" ++ (s.kind graph).name ++ ", path=" ++ Text.quote s.path ++ ")"

/-- The fault of a node for a cause. -/
def fault (s : Site α) (cause : Cause) : Fault := .node cause s.path

/-- The fault of a node that is not of the kind that it should be. -/
def wrongShape (s : Site α) (expected : Expected) : Fault :=
  s.fault (.wrongShape expected (s.kind graph))

/-- The site itself if it is a map. -/
def requireMap (s : Site α) : Except Fault (Site α) :=
  if s.kind graph = .map then .ok s else .error (s.wrongShape graph .map)

/-- The site itself if it is a sequence. -/
def requireSequence (s : Site α) : Except Fault (Site α) :=
  if s.kind graph = .sequence then .ok s else .error (s.wrongShape graph .sequence)

/-- The entries of a map as far as their keys are scalars. -/
def listEntries (path : String) : List (α × α) → Listing (String × Site α)
  | [] => ⟨[], none⟩
  | (key, child) :: rest =>
    match graph key with
    | .scalar name => (listEntries path rest).cons (name, ⟨some child, keyPath path name⟩)
    | shape => ⟨[], some (.node (.wrongShape .scalarKey shape.kind) path)⟩

/-- The keys and values of a map in document order. -/
def entries (s : Site α) : Listing (String × Site α) :=
  match s.node.map graph with
  | some (.map entries) => listEntries graph s.path entries
  | _ => ⟨[], some (s.wrongShape graph .map)⟩

/-- The elements of a sequence. -/
def items (s : Site α) : Listing (Site α) :=
  match s.node.map graph with
  | some (.sequence items) =>
    ⟨items.mapIdx fun number node => ⟨some node, indexPath s.path number⟩, none⟩
  | _ => ⟨[], some (s.wrongShape graph .sequence)⟩

/-- The site of the child with a number: of the value of an entry of a map, and of an element of anything else. -/
def child (s : Site α) (number : Nat) : Except Fault (Option (Site α)) :=
  if s.kind graph = .map then
    match (s.entries graph).nth number with
    | .error fault => .error fault
    | .ok entry => .ok (entry.map Prod.snd)
  else (s.items graph).nth number

/-- Reads the text of a scalar. -/
def readWith {τ : Type} (s : Site α) (target : Target) (read : String → Except Cause τ) : Except Fault τ :=
  match s.node.map graph with
  | none => .error (s.wrongShape graph (.scalar target))
  | some shape =>
    match shape.readWith target read with
    | .ok value => .ok value
    | .error cause => .error (s.fault cause)

/-- The text of a scalar. -/
def text (s : Site α) : Except Fault String := s.readWith graph .string .ok

/-- The number that a scalar writes. -/
def uint (s : Site α) (width : Width) : Except Fault Nat := s.readWith graph (.uint width) (readUint width)

/-- The truth value that a scalar writes. -/
def flag (s : Site α) : Except Fault Bool := s.readWith graph .bool readBool

end Site

end Postmortem.Node
