set_option autoImplicit false

/-!
# Node: shapes

A document is a graph of nodes.  What a reader can learn of a node is its shape: a scalar with its text, a sequence
of nodes, or a map, which is a list of entries in document order that may repeat keys.  The identity of nodes is a
parameter: a composed document shares nodes and may be cyclic, a tree does neither, and a reader that sees shapes
only cannot tell them apart.
-/

namespace Postmortem.Node

/-- What a node is, over the nodes that it leads to. -/
inductive Shape (α : Type) where
  | scalar (text : String)
  | sequence (items : List α)
  | map (entries : List (α × α))
  deriving DecidableEq, Repr

/-- A graph of nodes: each node has a shape. -/
abbrev Graph (α : Type) : Type := α → Shape α

/-- The kinds of shapes, and the lack of a node. -/
inductive Kind where
  | nothing
  | scalar
  | sequence
  | map
  deriving DecidableEq, Repr

/-- How a kind is named in messages. -/
def Kind.name : Kind → String
  | .nothing => "nothing"
  | .scalar => "scalar"
  | .sequence => "sequence"
  | .map => "map"

/-- The kind of a shape. -/
def Shape.kind {α : Type} : Shape α → Kind
  | .scalar _ => .scalar
  | .sequence _ => .sequence
  | .map _ => .map

/-- The kind of a node that may be missing. -/
def kindOf {α : Type} (graph : Graph α) : Option α → Kind
  | none => .nothing
  | some node => (graph node).kind

/-- A finite tree of nodes, none of them shared. -/
inductive Tree where
  | scalar (text : String)
  | sequence (items : List Tree)
  | map (entries : List (Tree × Tree))
  deriving Repr

/-- A tree is a graph of its own subtrees. -/
def Tree.shape : Graph Tree
  | .scalar text => .scalar text
  | .sequence items => .sequence items
  | .map entries => .map entries

end Postmortem.Node
