import Postmortem.Proofs.Arrays
import Postmortem.Proofs.Listings
set_option autoImplicit false

/-!
# Counters: when progress markers contradict each other

The rules for the progress markers of a command buffer, apart from how they are checked.  The check finds an error for
each rule that is violated, in the order of the rules, and no others, with any operations on arrays that are lawful.  It
looks at differences of checkpoint values in words of 64 bits with a sign; these tell the order of the values because
values of 32 bits are too small to overflow.
-/

namespace Postmortem.Progress

/-! ## Rules -/

/-- The rules one by one. -/
inductive Demand where
  /-- a buffer that has ended did not end before it began -/
  | ended
  /-- the last stage of the pipeline is not ahead of the first -/
  | stages
  /-- no more commands completed than started -/
  | commands
  /-- checkpoint values do not go down from one command to a later one -/
  | checkpoints
  deriving DecidableEq, Repr

namespace Demand

/-- The rules in the order in which they are checked. -/
def inOrder : List Demand := [.ended, .stages, .commands, .checkpoints]

/-- A command buffer obeys a rule. -/
def Met (cb : CommandBuffer) : Demand → Prop
  | .ended => cb.endValue = 0 ∨ cb.beginValue ≤ cb.endValue
  | .stages => cb.bottomCheckpointValue ≤ cb.topCheckpointValue
  | .commands => cb.lastCompletedCommand ≤ cb.lastStartedCommand
  | .checkpoints => (cb.commands.map (·.checkpointValue)).Pairwise (· ≤ ·)

instance (cb : CommandBuffer) : DecidablePred (Met cb)
  | .ended => inferInstanceAs (Decidable (_ ∨ _))
  | .stages => inferInstanceAs (Decidable (_ ≤ _))
  | .commands => inferInstanceAs (Decidable (_ ≤ _))
  | .checkpoints => inferInstanceAs (Decidable (List.Pairwise _ _))

/-- What is to be said about a command buffer that does not obey a rule, by the places behind which its checkpoint
values go down. -/
def breach (cb : CommandBuffer) (drops : List Nat) : Demand → Inconsistency
  | .ended => .endBeforeBegin cb.beginValue cb.endValue
  | .stages => .bottomAheadOfTop cb.bottomCheckpointValue cb.topCheckpointValue
  | .commands => .completedAheadOfStarted cb.lastCompletedCommand cb.lastStartedCommand
  | .checkpoints => .checkpointsDecrease (drops.take 10)

theorem mem_inOrder (demand : Demand) : demand ∈ inOrder := by
  cases demand <;> decide

end Demand

/-- The progress markers of a command buffer do not contradict each other. -/
def Consistent (cb : CommandBuffer) : Prop := ∀ demand : Demand, demand.Met cb

/-! ## The check -/

/-- The checkpoint values of a command buffer are numbers of 32 bits. -/
def CheckpointsFit (cb : CommandBuffer) : Prop := ∀ value ∈ checkpoints cb, value < Width.w32.limit

/-- What is found if a condition holds is what the rule has to say that the condition denies. -/
theorem onlyIf_eq_breach {cb : CommandBuffer} {drops : List Nat} {demand : Demand} {condition : Bool}
    (h : condition = true ↔ ¬ demand.Met cb) :
    onlyIf condition (demand.breach cb drops)
      = ([demand].filter fun demand => ¬ demand.Met cb).map (Demand.breach cb drops) := by
  by_cases hmet : demand.Met cb
  · have hcondition : condition = false := by simpa [hmet] using h
    simp [onlyIf, hmet, hcondition]
  · have hcondition : condition = true := h.mpr hmet
    simp [onlyIf, hmet, hcondition]

section

variable {arrays : Arrays} {cb : CommandBuffer}

/-- The check finds one inconsistency for each rule that is violated, in the order of the rules. -/
theorem inconsistencies_eq (harrays : arrays.Lawful) (h : CheckpointsFit cb) :
    inconsistencies cb arrays = (Demand.inOrder.filter fun demand => ¬ demand.Met cb).map
      (Demand.breach cb (arrays.drops (checkpoints cb))) := by
  have hended : (cb.endValue != 0 && cb.endValue < cb.beginValue) = true ↔ ¬ Demand.ended.Met cb := by
    simp [Demand.Met]
  have hstages : decide (cb.topCheckpointValue < cb.bottomCheckpointValue) = true ↔ ¬ Demand.stages.Met cb := by
    simp [Demand.Met]
  have hcommands : decide (cb.lastStartedCommand < cb.lastCompletedCommand) = true ↔ ¬ Demand.commands.Met cb := by
    simp [Demand.Met]
  have hcheckpoints : (!(arrays.drops (checkpoints cb)).isEmpty) = true ↔ ¬ Demand.checkpoints.Met cb := by
    rw [Bool.not_eq_true', ← Bool.not_eq_true, List.isEmpty_iff, (harrays.lists_drops h).eq_nil_iff,
      ← pairwise_iff_not_dropsAt]
    rfl
  have hsplit : Demand.inOrder
      = [Demand.ended] ++ [Demand.stages] ++ [Demand.commands] ++ [Demand.checkpoints] := rfl
  rw [hsplit, List.filter_append, List.filter_append, List.filter_append, List.map_append, List.map_append,
    List.map_append, ← onlyIf_eq_breach hended, ← onlyIf_eq_breach hstages, ← onlyIf_eq_breach hcommands,
    ← onlyIf_eq_breach hcheckpoints]
  rfl

/-- A command buffer passes its check if and only if its markers do not contradict each other. -/
theorem errors_eq_nil_iff (harrays : arrays.Lawful) (h : CheckpointsFit cb) :
    (check cb arrays).errors = [] ↔ Consistent cb := by
  rw [check, inconsistencies_eq harrays h, List.map_eq_nil_iff, List.filter_eq_nil_iff, Consistent]
  simp [Demand.mem_inOrder]

end

theorem checkpointsFit_of_fits {cb : CommandBuffer} (h : cb.Fits) : CheckpointsFit cb := by
  intro value hvalue
  obtain ⟨command, hcommand, rfl⟩ := List.mem_map.mp hvalue
  exact (h.commands command hcommand).checkpointValue

end Postmortem.Progress

namespace Postmortem

open Postmortem.Progress

/-- The check of a dump that fits finds an error if and only if a command buffer of one of its listings violates a
rule. -/
theorem Dump.Fits.progressErrors_eq_nil_iff {dump : Dump} (h : dump.Fits) :
    CommandLine.progressErrors dump = [] ↔
      ∀ d ∈ dump.devices, ∀ cb ∈ d.incompleteCommandBuffers ++ d.allCommandBuffers, Consistent cb := by
  rw [← List.isEmpty_iff, CommandLine.progressErrors_isEmpty, h.checkedBuffers_eq, List.all_eq_true]
  have hchecks : (∀ placed ∈ dump.listed, (check placed.2).ok = true) ↔
      ∀ d ∈ dump.devices, ∀ cb ∈ d.listings, (check cb).ok = true := by
    simp only [Dump.listed, List.forall_mem_flatMap, List.forall_mem_map]
    exact forall_mem_zipIdx_iff fun d : Device => ∀ cb ∈ d.listings, (check cb).ok = true
  refine hchecks.trans (forall₂_congr fun d hd => forall₂_congr fun cb hcb => ?_)
  refine (Report.ok_iff_errors_eq_nil _).trans (errors_eq_nil_iff Arrays.lawful_default (checkpointsFit_of_fits ?_))
  have hdevice := h.devices d hd
  rcases List.mem_append.mp hcb with hincomplete | hall
  · exact hdevice.incompleteCommandBuffers cb hincomplete
  · exact hdevice.allCommandBuffers cb hall

end Postmortem
