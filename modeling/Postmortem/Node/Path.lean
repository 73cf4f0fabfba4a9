import Postmortem.Text.Numeral
set_option autoImplicit false

/-!
# Node: paths

A location is the list of steps from the root: a step goes to the value of a key, or to a numbered element.  A path is
how a location is shown: keys are joined by full stops, and numbers stand in brackets behind what they count.
-/

namespace Postmortem.Node

/-- A step from a node to one that it leads to. -/
inductive Step where
  | key (name : String)
  | index (number : Nat)
  deriving DecidableEq, Repr

/-- The path of the value of a key below a path.  The root has the empty path, which gets no full stop. -/
def keyPath (parent key : String) : String :=
  if parent = "" then key else parent ++ "." ++ key

/-- The path of a numbered element below a path. -/
def indexPath (parent : String) (number : Nat) : String :=
  parent ++ "[" ++ Text.Numeral.decimal number ++ "]"

/-- The path one step below a path. -/
def stepPath (parent : String) : Step → String
  | .key name => keyPath parent name
  | .index number => indexPath parent number

/-- The path of a location below a path. -/
def render (parent : String) (steps : List Step) : String :=
  steps.foldl stepPath parent

@[simp] theorem render_nil (parent : String) : render parent [] = parent := rfl

@[simp] theorem render_cons (parent : String) (step : Step) (steps : List Step) :
    render parent (step :: steps) = render (stepPath parent step) steps := rfl

end Postmortem.Node
