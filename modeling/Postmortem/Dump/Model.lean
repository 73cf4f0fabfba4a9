import Postmortem.Handle
set_option autoImplicit false

/-!
# Dump: what a crash dump holds

A dump describes the instance of the graphics interface and its devices at the moment of a crash: the queues with the
submissions that had not completed, and the command buffers with their progress markers.  A field that a dump leaves
out has its default.
-/

namespace Postmortem

/-- The application that created the instance, as it described itself. -/
structure Application where
  name : String := ""
  version : Nat := 0
  engine : String := ""
  engineVersion : Nat := 0
  apiVersion : Version := {}
  deriving DecidableEq, Repr

/-- The instance of the graphics interface. -/
structure Instance where
  handle : Handle := {}
  application : Application := {}
  extensions : List String := []
  deriving DecidableEq, Repr

/-- A semaphore that a submission signals or waits for. -/
structure SemaphoreInfo where
  handle : Handle := {}
  type : String := ""
  value : Nat := 0
  lastValue : Nat := 0
  deriving DecidableEq, Repr

/-- A batch of a submission.  Its command buffers are named as the dump names them. -/
structure SubmitInfo where
  id : Nat := 0
  state : String := ""
  commandBuffers : List String := []
  signalSemaphores : List SemaphoreInfo := []
  waitSemaphores : List SemaphoreInfo := []
  deriving DecidableEq, Repr

/-- A submission to a queue. -/
structure Submit where
  id : Nat := 0
  infos : List SubmitInfo := []
  deriving DecidableEq, Repr

/-- A queue with the submissions that had not completed. -/
structure Queue where
  handle : Handle := {}
  familyIndex : Nat := 0
  index : Nat := 0
  submits : List Submit := []
  deriving DecidableEq, Repr

/-- A recorded command. -/
structure Command where
  id : Nat := 0
  checkpointValue : Nat := 0
  name : String := ""
  state : String := ""
  message : String := ""
  deriving DecidableEq, Repr

/-- A command buffer with its commands and progress markers.  Its pool, queue and fence are named by handle; the
markers are kept as they were written. -/
structure CommandBuffer where
  state : String := ""
  handle : Handle := {}
  commandPool : Handle := {}
  queue : Handle := {}
  fence : Handle := {}
  submitInfoId : Nat := 0
  level : String := ""
  simultaneousUse : Bool := false
  beginValue : Nat := 0
  endValue : Nat := 0
  topCheckpointValue : Nat := 0
  bottomCheckpointValue : Nat := 0
  lastStartedCommand : Nat := 0
  lastCompletedCommand : Nat := 0
  commands : List Command := []
  deriving DecidableEq, Repr

/-- A device.  A dump lists either the command buffers that were in flight or all of them. -/
structure Device where
  handle : Handle := {}
  name : String := ""
  apiVersion : Version := {}
  driverVersion : Version := {}
  vendorId : Nat := 0
  deviceId : Nat := 0
  extensions : List String := []
  queues : List Queue := []
  incompleteCommandBuffers : List CommandBuffer := []
  allCommandBuffers : List CommandBuffer := []
  deriving DecidableEq, Repr

/-- The command buffers of whichever listing the dump has. -/
def Device.commandBuffers (d : Device) : List CommandBuffer :=
  if d.incompleteCommandBuffers.isEmpty then d.allCommandBuffers else d.incompleteCommandBuffers

/-- The content of a crash dump. -/
structure Dump where
  version : String := ""
  startTime : String := ""
  timeSinceStart : String := ""
  /-- the settings of the producer in the order of the document, each key once -/
  settings : List (String × String) := []
  inst : Instance := {}
  devices : List Device := []
  deriving DecidableEq, Repr

end Postmortem
