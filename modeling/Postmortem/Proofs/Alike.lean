import Postmortem.Node.Shape
import Postmortem.Proofs.Pairs
set_option autoImplicit false

/-!
# Alike nodes: what can be seen within some levels

Two nodes are alike on some levels if their shapes match, the shapes of what they lead to match, and so on down to the
last of the levels.  The identity of nodes plays no part in it: a node that is shared is alike to each copy of it, and a
node of a cyclic graph is alike to the root of a finite tree.
-/

namespace Postmortem.Node

variable {α β : Type}

/-! ## Shapes -/

/-- Two shapes that are the same but for the nodes that they lead to, which are related in pairs. -/
inductive Shape.Matches (r : α → β → Prop) : Shape α → Shape β → Prop where
  | scalar (text : String) : Matches r (.scalar text) (.scalar text)
  | sequence {items : List α} {items' : List β} (pairs : List.Forall₂ r items items') :
      Matches r (.sequence items) (.sequence items')
  | map {entries : List (α × α)} {entries' : List (β × β)}
      (pairs : List.Forall₂ (fun entry entry' => r entry.1 entry'.1 ∧ r entry.2 entry'.2) entries entries') :
      Matches r (.map entries) (.map entries')

/-- The nodes that a shape leads to: elements, and both keys and values of entries. -/
def Shape.children : Shape α → List α
  | .scalar _ => []
  | .sequence items => items
  | .map entries => entries.flatMap fun (key, child) => [key, child]

theorem Shape.Matches.imp {r r' : α → β → Prop} {shape : Shape α} {shape' : Shape β}
    (himp : ∀ node node', r node node' → r' node node') (h : shape.Matches r shape') : shape.Matches r' shape' := by
  cases h with
  | scalar text => exact .scalar text
  | sequence pairs => exact .sequence (pairs.imp himp)
  | map pairs => exact .map (pairs.imp fun _ _ hpair => ⟨himp _ _ hpair.1, himp _ _ hpair.2⟩)

/-- A shape matches itself if each node that it leads to is related to itself. -/
theorem Shape.matches_self {r : α → α → Prop} {shape : Shape α} (h : ∀ child ∈ shape.children, r child child) :
    shape.Matches r shape := by
  cases shape with
  | scalar text => exact .scalar text
  | sequence items => exact .sequence (List.forall₂_same.mpr h)
  | map entries =>
    refine .map (List.forall₂_same.mpr ?_)
    intro entry hentry
    have hchild : ∀ child ∈ [entry.1, entry.2], r child child := by
      intro child hmem
      exact h child (List.mem_flatMap.mpr ⟨entry, hentry, hmem⟩)
    exact ⟨hchild entry.1 (by simp), hchild entry.2 (by simp)⟩

/-! ## Nodes -/

/-- Two nodes that look the same on some levels, of which they are the first. -/
def Alike (graph : Graph α) (graph' : Graph β) : (levels : Nat) → α → β → Prop
  | 0, _, _ => True
  | levels + 1, node, node' => (graph node).Matches (Alike graph graph' levels) (graph' node')

variable {graph : Graph α} {graph' : Graph β}

/-- The shapes of nodes that are alike match. -/
theorem Alike.shapes {levels : Nat} {node : α} {node' : β} (h : Alike graph graph' (levels + 1) node node') :
    ∃ shape shape', graph node = shape ∧ graph' node' = shape' ∧ shape.Matches (Alike graph graph' levels) shape' :=
  ⟨graph node, graph' node', rfl, rfl, h⟩

theorem Alike.mono {few many : Nat} {node : α} {node' : β} (h : Alike graph graph' many node node')
    (hle : few ≤ many) : Alike graph graph' few node node' := by
  induction few generalizing many node node' with
  | zero => trivial
  | succ few ih =>
    cases many with
    | zero => omega
    | succ many =>
      refine Shape.Matches.imp ?_ h
      intro child child' hchild
      exact ih hchild (by omega)

theorem alike_self (levels : Nat) (node : α) : Alike graph graph levels node node := by
  induction levels generalizing node with
  | zero => trivial
  | succ levels ih => exact Shape.matches_self fun child _ => ih child

/-- A node that is reached from another in at most some number of steps.  A step goes from a map to a key or a value
of it, and from a sequence to an element. -/
inductive Within (graph : Graph α) : (steps : Nat) → α → α → Prop where
  | here (steps : Nat) (node : α) : Within graph steps node node
  | step {steps : Nat} {node child last : α} (isChild : child ∈ (graph node).children)
      (rest : Within graph steps child last) : Within graph (steps + 1) node last

/-- A node looks the same in two graphs that agree on what can be reached from it in some number of steps. -/
theorem alike_of_agree {other : Graph α} {steps : Nat} {node : α}
    (h : ∀ last, Within graph steps node last → other last = graph last) :
    Alike graph other (steps + 1) node node := by
  induction steps generalizing node with
  | zero =>
    rw [Alike, h node (.here 0 node)]
    exact Shape.matches_self fun _ _ => trivial
  | succ steps ih =>
    rw [Alike, h node (.here (steps + 1) node)]
    refine Shape.matches_self ?_
    intro child hchild
    exact ih fun last hlast => h last (.step hchild hlast)

/-! ## Trees -/

/-- The tree of a shape, given the trees of the nodes that it leads to. -/
def Shape.toTree (subtree : α → Tree) : Shape α → Tree
  | .scalar text => .scalar text
  | .sequence items => .sequence (items.map subtree)
  | .map entries => .map (entries.map fun (key, child) => (subtree key, subtree child))

/-- The tree that a node unfolds to on some levels, with a copy of a node for each way to it.  What lies deeper is
replaced by other trees. -/
def unfold (graph : Graph α) (deeper : α → Tree) : (levels : Nat) → α → Tree
  | 0, node => deeper node
  | levels + 1, node => (graph node).toTree (unfold graph deeper levels)

theorem Shape.matches_toTree {r : α → Tree → Prop} {subtree : α → Tree} (h : ∀ node, r node (subtree node))
    (shape : Shape α) : shape.Matches r (Tree.shape (shape.toTree subtree)) := by
  cases shape with
  | scalar text => exact .scalar text
  | sequence items =>
    refine .sequence (List.forall₂_map_right_iff.mpr ?_)
    exact List.forall₂_same.mpr fun node _ => h node
  | map entries =>
    refine .map (List.forall₂_map_right_iff.mpr ?_)
    exact List.forall₂_same.mpr fun entry _ => ⟨h entry.1, h entry.2⟩

/-- A node is alike to the tree that it unfolds to, whatever takes the place of what lies deeper. -/
theorem alike_unfold (deeper : α → Tree) (levels : Nat) (node : α) :
    Alike graph Tree.shape levels node (unfold graph deeper levels node) := by
  induction levels generalizing node with
  | zero => trivial
  | succ levels ih => exact Shape.matches_toTree ih (graph node)

end Postmortem.Node
