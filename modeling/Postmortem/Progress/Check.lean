import Postmortem.Dump.Model
import Postmortem.Fault
set_option autoImplicit false

/-!
# Progress: counters

The progress markers of a command buffer are stored as they were written.  The check tells markers that contradict
each other from those that are only unusual.  A command buffer that has not ended has the end value 0.
-/

namespace Postmortem.Progress

open Postmortem.Text

/-- Markers that contradict each other. -/
inductive Inconsistency where
  /-- the buffer ended before it began -/
  | endBeforeBegin (first last : Nat)
  /-- the last stage of the pipeline is ahead of the first -/
  | bottomAheadOfTop (bottom top : Nat)
  /-- more commands completed than started -/
  | completedAheadOfStarted (completed started : Nat)
  /-- checkpoint values go down behind some commands -/
  | checkpointsDecrease (places : List Nat)
  deriving DecidableEq, Repr

/-- Commands whose checkpoint value lies outside the span of their buffer. -/
structure Outliers where
  count : Nat
  low : Nat
  high : Nat
  first : Nat
  deriving DecidableEq, Repr

/-- A list of numbers in brackets. -/
def listText (numbers : List Nat) : String :=
  "[" ++ ", ".intercalate (numbers.map Numeral.decimal) ++ "]"

/-- The message about an inconsistency. -/
def Inconsistency.message : Inconsistency → String
  | .endBeforeBegin first last =>
    "beginValue " ++ Numeral.decimal first ++ " > endValue " ++ Numeral.decimal last
  | .bottomAheadOfTop bottom top =>
    "bottomCheckpointValue " ++ Numeral.decimal bottom ++ " > topCheckpointValue " ++ Numeral.decimal top
  | .completedAheadOfStarted completed started =>
    "lastCompletedCommand " ++ Numeral.decimal completed ++ " > lastStartedCommand " ++ Numeral.decimal started
  | .checkpointsDecrease places =>
    "checkpointValue decreases after command index(es) " ++ listText places

/-- The message about outliers. -/
def Outliers.message (o : Outliers) : String :=
  Numeral.decimal o.count ++ " command(s) outside [" ++ Numeral.decimal o.low ++ ", " ++ Numeral.decimal o.high
    ++ "], first at index " ++ Numeral.decimal o.first

/-- What the check of a command buffer shows. -/
structure Report where
  errors : List Inconsistency
  warnings : List Outliers
  deriving DecidableEq, Repr

namespace Report

/-- Whether no markers contradict each other. -/
def ok (r : Report) : Bool := r.errors.isEmpty

theorem ok_iff_errors_eq_nil (r : Report) : r.ok = true ↔ r.errors = [] := by
  simp [ok, List.isEmpty_iff]

/-- Fails with all errors if there are any. -/
def require (r : Report) : Except Fault Unit :=
  if r.errors.isEmpty then .ok () else .error (.progress (r.errors.map (·.message)))

end Report

/-! ## Arrays -/

/-- How far a number is above the one before it, in words of 64 bits with a sign. -/
def difference (before after : Nat) : Int64 := Int64.ofNat after - Int64.ofNat before

/-- How far each number of a list is above the one before it. -/
def differences : List Nat → List Int64
  | before :: after :: rest => difference before after :: differences (after :: rest)
  | _ => []

/-- The places of what holds, counted from `index` on. -/
def placesFrom (index : Nat) : List Bool → List Nat
  | [] => []
  | holds :: rest => if holds then index :: placesFrom (index + 1) rest else placesFrom (index + 1) rest

/-- Operations on arrays.  By default they are those of this library. -/
structure Arrays where
  /-- how far each number is above the one before it -/
  differences : List Nat → List Int64 := Progress.differences
  /-- the places of what holds -/
  places : List Bool → List Nat := placesFrom 0

/-- The places behind which a list of values goes down. -/
def Arrays.drops (arrays : Arrays) (values : List Nat) : List Nat :=
  arrays.places ((arrays.differences values).map fun step => step < 0)

/-- How many places are named in a message at most. -/
def namedPlaces : Nat := 10

/-! ## The check -/

/-- The checkpoint values of the commands in recording order. -/
def checkpoints (cb : CommandBuffer) : List Nat := cb.commands.map (·.checkpointValue)

/-- The one element of a list, if a condition holds. -/
def onlyIf {τ : Type} (condition : Bool) (element : τ) : List τ := if condition then [element] else []

/-- The inconsistencies of a command buffer. -/
def inconsistencies (cb : CommandBuffer) (arrays : Arrays := {}) : List Inconsistency :=
  let drops := arrays.drops (checkpoints cb)
  onlyIf (cb.endValue != 0 && cb.endValue < cb.beginValue) (.endBeforeBegin cb.beginValue cb.endValue)
    ++ onlyIf (cb.topCheckpointValue < cb.bottomCheckpointValue)
      (.bottomAheadOfTop cb.bottomCheckpointValue cb.topCheckpointValue)
    ++ onlyIf (cb.lastStartedCommand < cb.lastCompletedCommand)
      (.completedAheadOfStarted cb.lastCompletedCommand cb.lastStartedCommand)
    ++ onlyIf (!drops.isEmpty) (.checkpointsDecrease (drops.take namedPlaces))

/-- The places of the commands outside the span of a command buffer. -/
def outsidePlaces (cb : CommandBuffer) (arrays : Arrays := {}) : List Nat :=
  arrays.places ((checkpoints cb).map fun value => value < cb.beginValue || cb.endValue < value)

/-- The commands outside the span of a command buffer that has ended. -/
def outliers (cb : CommandBuffer) (arrays : Arrays := {}) : List Outliers :=
  if cb.endValue = 0 then []
  else
    match outsidePlaces cb arrays with
    | [] => []
    | first :: more => [⟨more.length + 1, cb.beginValue, cb.endValue, first⟩]

/-- Checks the progress markers of a command buffer. -/
def check (cb : CommandBuffer) (arrays : Arrays := {}) : Report := ⟨inconsistencies cb arrays, outliers cb arrays⟩

end Postmortem.Progress
