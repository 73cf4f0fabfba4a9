import Postmortem.Dump.Cause
import Postmortem.Node.Path
set_option autoImplicit false

/-!
# Dump: outcomes of reading

Reading a node gives a value and the remarks made on the way, or the first refusal.  Remarks and refusals carry the
location of their node below the one that was read, so an outcome does not depend on where that node stands.
-/

namespace Postmortem

open Postmortem.Node

/-- The remark that the value of a key was not looked at. -/
structure Remark where
  entity : Entity
  key : String
  location : List Step
  deriving DecidableEq, Repr

/-- A remark as a line, for a node at a path. -/
def Remark.line (r : Remark) (path : String) : String :=
  "Ignored " ++ r.entity.label ++ " key '" ++ r.key ++ "' at " ++ render path r.location

/-- A refused node. -/
structure Refusal where
  cause : Cause
  location : List Step
  deriving DecidableEq, Repr

/-- A value and the remarks made while reading it, or the first refusal. -/
abbrev Outcome (τ : Type) : Type := Except Refusal (τ × List Remark)

namespace Outcome

/-- A value without remarks. -/
def pure {τ : Type} (value : τ) : Outcome τ := .ok (value, [])

/-- The refusal of the node that is read. -/
def refuse {τ : Type} (cause : Cause) : Outcome τ := .error ⟨cause, []⟩

/-- A value without remarks, or the refusal of the node that is read. -/
def ofExcept {τ : Type} : Except Cause τ → Outcome τ
  | .ok value => pure value
  | .error cause => refuse cause

/-- The outcome with its value changed. -/
def map {σ τ : Type} (f : σ → τ) : Outcome σ → Outcome τ
  | .ok (value, remarks) => .ok (f value, remarks)
  | .error refusal => .error refusal

/-- A second outcome that depends on the first value, with the remarks of both. -/
def andThen {σ τ : Type} (first : Outcome σ) (second : σ → Outcome τ) : Outcome τ :=
  match first with
  | .error refusal => .error refusal
  | .ok (value, remarks) =>
    match second value with
    | .error refusal => .error refusal
    | .ok (result, more) => .ok (result, remarks ++ more)

/-- The outcome as seen from the node one step above. -/
def below {τ : Type} (step : Step) : Outcome τ → Outcome τ
  | .ok (value, remarks) => .ok (value, remarks.map fun r => { r with location := step :: r.location })
  | .error refusal => .error { refusal with location := step :: refusal.location }

end Outcome

end Postmortem
