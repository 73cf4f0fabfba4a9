import Postmortem.Dump.Model
set_option autoImplicit false

/-!
# Dump: entities

The ten kinds of maps in a dump.  An entity holds only entities of a lower rank, so a dump is read in a bounded number
of steps however its nodes are linked.
-/

namespace Postmortem

/-- The kinds of maps that make up a dump. -/
inductive Entity where
  | semaphoreInfo
  | command
  | applicationInfo
  | submitInfo
  | commandBuffer
  | apiInstance
  | submit
  | queue
  | device
  | dump
  deriving DecidableEq, Repr

namespace Entity

/-- How an entity is named in messages. -/
def label : Entity → String
  | .semaphoreInfo => "SemaphoreInfo"
  | .command => "Command"
  | .applicationInfo => "applicationInfo"
  | .submitInfo => "SubmitInfo"
  | .commandBuffer => "CommandBuffer"
  | .apiInstance => "Instance"
  | .submit => "Submit"
  | .queue => "Queue"
  | .device => "Device"
  | .dump => "top level"

/-- The height of an entity: one more than that of the entities that it holds. -/
def rank : Entity → Nat
  | .semaphoreInfo | .command | .applicationInfo => 0
  | .submitInfo | .commandBuffer | .apiInstance => 1
  | .submit => 2
  | .queue => 3
  | .device => 4
  | .dump => 5

/-- Induction along the entities that hold each other: something holds of every entity if it holds of one whenever it
holds of those of lower rank. -/
@[elab_as_elim]
theorem inductionOnRank {motive : Entity → Prop}
    (holder : ∀ e : Entity, (∀ item : Entity, item.rank < e.rank → motive item) → motive e) (e : Entity) : motive e := by
  induction hrank : e.rank using Nat.strongRecOn generalizing e with
  | _ rank ih =>
    subst hrank
    exact holder e fun item hitem => ih item.rank hitem item rfl

/-- What an entity is read into. -/
def Value : Entity → Type
  | .semaphoreInfo => SemaphoreInfo
  | .command => Command
  | .applicationInfo => Application
  | .submitInfo => SubmitInfo
  | .commandBuffer => CommandBuffer
  | .apiInstance => Instance
  | .submit => Submit
  | .queue => Queue
  | .device => Device
  | .dump => Dump

/-- What an empty map is read into. -/
def initial : (e : Entity) → e.Value
  | .semaphoreInfo => ({} : SemaphoreInfo)
  | .command => ({} : Command)
  | .applicationInfo => ({} : Application)
  | .submitInfo => ({} : SubmitInfo)
  | .commandBuffer => ({} : CommandBuffer)
  | .apiInstance => ({} : Instance)
  | .submit => ({} : Submit)
  | .queue => ({} : Queue)
  | .device => ({} : Device)
  | .dump => ({} : Dump)

end Entity

end Postmortem
