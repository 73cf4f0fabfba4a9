import Postmortem.Dump.Model
import Postmortem.Fault
set_option autoImplicit false

/-!
# Progress: lookups

Handles in a dump are copies; what they name is found by comparing addresses.  Names of handles play no part in it.
The command buffers of the submissions that had not completed are listed with everything that they belong to.
-/

namespace Postmortem.Progress

/-- What a lookup is given: a handle of the dump, or any number. -/
inductive Sought where
  | handle (h : Handle)
  | number (value : Int)
  deriving DecidableEq, Repr

/-- The address that is looked for. -/
def Sought.value : Sought → Int
  | .handle h => h.value
  | .number value => value

/-- Whether a handle has an address. -/
def hasValue (value : Int) (h : Handle) : Bool := (h.value : Int) == value

/-- The first queue of a device with a handle, and its place. -/
def findQueue (d : Device) (sought : Sought) : Except Fault (Queue × Nat) :=
  match d.queues.zipIdx.find? fun q => hasValue sought.value q.1.handle with
  | some found => .ok found
  | none => .error (.noQueue sought.value d.name)

/-- The command buffers of all devices with the places of device and buffer. -/
def placedCommandBuffers (dump : Dump) : List (CommandBuffer × Nat × Nat) :=
  dump.devices.zipIdx.flatMap fun (d, device) =>
    d.commandBuffers.zipIdx.map fun (cb, index) => (cb, device, index)

/-- The first command buffer of a dump with a handle, and the places of its device and of itself. -/
def findCommandBuffer (dump : Dump) (sought : Sought) : Except Fault (CommandBuffer × Nat × Nat) :=
  match (placedCommandBuffers dump).find? fun cb => hasValue sought.value cb.1.handle with
  | some found => .ok found
  | none => .error (.noCommandBuffer sought.value)

/-- A command buffer of a submission that had not completed, with what it belongs to. -/
structure Submitted where
  device : Nat
  queue : Queue
  submit : Submit
  info : SubmitInfo
  commandBuffer : String
  deriving DecidableEq, Repr

/-- The command buffers of all submissions that had not completed, in the order of the dump. -/
def submitted (dump : Dump) : List Submitted :=
  dump.devices.zipIdx.flatMap fun (d, device) =>
    d.queues.flatMap fun queue =>
      queue.submits.flatMap fun submit =>
        submit.infos.flatMap fun info =>
          info.commandBuffers.map fun name => ⟨device, queue, submit, info, name⟩

end Postmortem.Progress
