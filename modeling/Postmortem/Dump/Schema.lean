import Postmortem.Dump.Cause
set_option autoImplicit false

/-!
# Dump: the schema

For each entity, the keys that its map may have and what becomes of their values.  The schema is data: the reader
follows it, and whatever is said about dumps can be said about it entry by entry.
-/

namespace Postmortem

/-! ## Slots -/

/-- A part of a value, which can be looked at and replaced. -/
structure Slot (σ τ : Type) where
  get : σ → τ
  set : τ → σ → σ

/-! ## Rules -/

/-- What the value of a key has to be, for an entity that holds entities of a lower rank only. -/
inductive Content (owner : Entity) where
  | text
  | version
  | uint (width : Width)
  | flag
  | handle
  /-- a sequence of texts -/
  | texts
  /-- a map of texts whose keys are free but each used once -/
  | settings
  /-- an entity -/
  | one (item : Entity) (lower : item.rank < owner.rank)
  /-- a sequence of entities -/
  | many (item : Entity) (lower : item.rank < owner.rank)
  deriving DecidableEq, Repr

/-- What a value is read into. -/
def Content.Value {owner : Entity} : Content owner → Type
  | .text => String
  | .version => Version
  | .uint _ => Nat
  | .flag => Bool
  | .handle => Handle
  | .texts => List String
  | .settings => List (String × String)
  | .one item _ => item.Value
  | .many item _ => List item.Value

/-- What becomes of the value of a key. -/
inductive Rule (e : Entity) where
  /-- the value fills a slot, and the last occurrence of the key counts -/
  | store (content : Content e) (slot : Slot e.Value content.Value)
  /-- the fields of the value go to a part of the entity, and a field that is left out keeps what it had -/
  | merge (part : Entity) (lower : part.rank < e.rank) (slot : Slot e.Value part.Value)
  /-- each occurrence of the key adds an entity to a list -/
  | append (item : Entity) (lower : item.rank < e.rank) (slot : Slot e.Value (List item.Value))
  /-- the key is known, and its value is not looked at -/
  | ignore

/-! ## Keys -/

namespace Schema

/-- The keys of a semaphore of a submission. -/
def semaphoreInfo : List (String × Rule .semaphoreInfo) := [
  ("handle", .store .handle ⟨SemaphoreInfo.handle, fun v (s : SemaphoreInfo) => { s with handle := v }⟩),
  ("type", .store .text ⟨SemaphoreInfo.type, fun v (s : SemaphoreInfo) => { s with type := v }⟩),
  ("value", .store (.uint .w64) ⟨SemaphoreInfo.value, fun v (s : SemaphoreInfo) => { s with value := v }⟩),
  ("lastValue",
    .store (.uint .w64) ⟨SemaphoreInfo.lastValue, fun v (s : SemaphoreInfo) => { s with lastValue := v }⟩)]

/-- The keys of a command. -/
def command : List (String × Rule .command) := [
  ("id", .store (.uint .w32) ⟨Command.id, fun v (s : Command) => { s with id := v }⟩),
  ("checkpointValue",
    .store (.uint .w32) ⟨Command.checkpointValue, fun v (s : Command) => { s with checkpointValue := v }⟩),
  ("name", .store .text ⟨Command.name, fun v (s : Command) => { s with name := v }⟩),
  ("state", .store .text ⟨Command.state, fun v (s : Command) => { s with state := v }⟩),
  ("message", .store .text ⟨Command.message, fun v (s : Command) => { s with message := v }⟩),
  ("parameters", .ignore),
  ("internalState", .ignore)]

/-- The keys of the application's description. -/
def applicationInfo : List (String × Rule .applicationInfo) := [
  ("application", .store .text ⟨Application.name, fun v (s : Application) => { s with name := v }⟩),
  ("applicationVersion",
    .store (.uint .w32) ⟨Application.version, fun v (s : Application) => { s with version := v }⟩),
  ("engine", .store .text ⟨Application.engine, fun v (s : Application) => { s with engine := v }⟩),
  ("engineVersion",
    .store (.uint .w32) ⟨Application.engineVersion, fun v (s : Application) => { s with engineVersion := v }⟩),
  ("apiVersion",
    .store .version ⟨Application.apiVersion, fun v (s : Application) => { s with apiVersion := v }⟩)]

/-- The keys of a batch of a submission. -/
def submitInfo : List (String × Rule .submitInfo) := [
  ("id", .store (.uint .w64) ⟨SubmitInfo.id, fun v (s : SubmitInfo) => { s with id := v }⟩),
  ("state", .store .text ⟨SubmitInfo.state, fun v (s : SubmitInfo) => { s with state := v }⟩),
  ("CommandBuffers",
    .store .texts ⟨SubmitInfo.commandBuffers, fun v (s : SubmitInfo) => { s with commandBuffers := v }⟩),
  ("SignalSemaphores",
    .store (.many .semaphoreInfo (by decide))
      ⟨SubmitInfo.signalSemaphores, fun v (s : SubmitInfo) => { s with signalSemaphores := v }⟩),
  ("WaitSemaphores",
    .store (.many .semaphoreInfo (by decide))
      ⟨SubmitInfo.waitSemaphores, fun v (s : SubmitInfo) => { s with waitSemaphores := v }⟩)]

/-- The keys of a command buffer. -/
def commandBuffer : List (String × Rule .commandBuffer) := [
  ("state", .store .text ⟨CommandBuffer.state, fun v (s : CommandBuffer) => { s with state := v }⟩),
  ("handle", .store .handle ⟨CommandBuffer.handle, fun v (s : CommandBuffer) => { s with handle := v }⟩),
  ("commandPool",
    .store .handle ⟨CommandBuffer.commandPool, fun v (s : CommandBuffer) => { s with commandPool := v }⟩),
  ("queue", .store .handle ⟨CommandBuffer.queue, fun v (s : CommandBuffer) => { s with queue := v }⟩),
  ("fence", .store .handle ⟨CommandBuffer.fence, fun v (s : CommandBuffer) => { s with fence := v }⟩),
  ("submitInfoId",
    .store (.uint .w64) ⟨CommandBuffer.submitInfoId, fun v (s : CommandBuffer) => { s with submitInfoId := v }⟩),
  ("level", .store .text ⟨CommandBuffer.level, fun v (s : CommandBuffer) => { s with level := v }⟩),
  ("simultaneousUse",
    .store .flag ⟨CommandBuffer.simultaneousUse, fun v (s : CommandBuffer) => { s with simultaneousUse := v }⟩),
  ("beginValue",
    .store (.uint .w32) ⟨CommandBuffer.beginValue, fun v (s : CommandBuffer) => { s with beginValue := v }⟩),
  ("endValue",
    .store (.uint .w32) ⟨CommandBuffer.endValue, fun v (s : CommandBuffer) => { s with endValue := v }⟩),
  ("topCheckpointValue",
    .store (.uint .w32)
      ⟨CommandBuffer.topCheckpointValue, fun v (s : CommandBuffer) => { s with topCheckpointValue := v }⟩),
  ("bottomCheckpointValue",
    .store (.uint .w32)
      ⟨CommandBuffer.bottomCheckpointValue, fun v (s : CommandBuffer) => { s with bottomCheckpointValue := v }⟩),
  ("lastStartedCommand",
    .store (.uint .w32)
      ⟨CommandBuffer.lastStartedCommand, fun v (s : CommandBuffer) => { s with lastStartedCommand := v }⟩),
  ("lastCompletedCommand",
    .store (.uint .w32)
      ⟨CommandBuffer.lastCompletedCommand, fun v (s : CommandBuffer) => { s with lastCompletedCommand := v }⟩),
  ("Commands",
    .store (.many .command (by decide))
      ⟨CommandBuffer.commands, fun v (s : CommandBuffer) => { s with commands := v }⟩)]

/-- The keys of the instance. -/
def apiInstance : List (String × Rule .apiInstance) := [
  ("handle", .store .handle ⟨Instance.handle, fun v (s : Instance) => { s with handle := v }⟩),
  ("applicationInfo",
    .merge .applicationInfo (by decide)
      ⟨Instance.application, fun v (s : Instance) => { s with application := v }⟩),
  ("extensions", .store .texts ⟨Instance.extensions, fun v (s : Instance) => { s with extensions := v }⟩)]

/-- The keys of a submission. -/
def submit : List (String × Rule .submit) := [
  ("id", .store (.uint .w32) ⟨Submit.id, fun v (s : Submit) => { s with id := v }⟩),
  ("SubmitInfos",
    .store (.many .submitInfo (by decide)) ⟨Submit.infos, fun v (s : Submit) => { s with infos := v }⟩)]

/-- The keys of a queue. -/
def queue : List (String × Rule .queue) := [
  ("handle", .store .handle ⟨Queue.handle, fun v (s : Queue) => { s with handle := v }⟩),
  ("queueFamilyIndex",
    .store (.uint .w32) ⟨Queue.familyIndex, fun v (s : Queue) => { s with familyIndex := v }⟩),
  ("index", .store (.uint .w32) ⟨Queue.index, fun v (s : Queue) => { s with index := v }⟩),
  ("flags", .ignore),
  ("IncompleteSubmits",
    .store (.many .submit (by decide)) ⟨Queue.submits, fun v (s : Queue) => { s with submits := v }⟩)]

/-- The keys of a device. -/
def device : List (String × Rule .device) := [
  ("handle", .store .handle ⟨Device.handle, fun v (s : Device) => { s with handle := v }⟩),
  ("deviceName", .store .text ⟨Device.name, fun v (s : Device) => { s with name := v }⟩),
  ("apiVersion", .store .version ⟨Device.apiVersion, fun v (s : Device) => { s with apiVersion := v }⟩),
  ("driverVersion", .store .version ⟨Device.driverVersion, fun v (s : Device) => { s with driverVersion := v }⟩),
  ("vendorID", .store (.uint .w32) ⟨Device.vendorId, fun v (s : Device) => { s with vendorId := v }⟩),
  ("deviceID", .store (.uint .w32) ⟨Device.deviceId, fun v (s : Device) => { s with deviceId := v }⟩),
  ("Queues",
    .store (.many .queue (by decide)) ⟨Device.queues, fun v (s : Device) => { s with queues := v }⟩),
  ("IncompleteCommandBuffers",
    .store (.many .commandBuffer (by decide))
      ⟨Device.incompleteCommandBuffers, fun v (s : Device) => { s with incompleteCommandBuffers := v }⟩),
  ("AllCommandBuffers",
    .store (.many .commandBuffer (by decide))
      ⟨Device.allCommandBuffers, fun v (s : Device) => { s with allCommandBuffers := v }⟩),
  ("extensions", .store .texts ⟨Device.extensions, fun v (s : Device) => { s with extensions := v }⟩)]

/-- The keys at the top level. -/
def dump : List (String × Rule .dump) := [
  ("version", .store .text ⟨Dump.version, fun v (s : Dump) => { s with version := v }⟩),
  ("startTime", .store .text ⟨Dump.startTime, fun v (s : Dump) => { s with startTime := v }⟩),
  ("timeSinceStart", .store .text ⟨Dump.timeSinceStart, fun v (s : Dump) => { s with timeSinceStart := v }⟩),
  ("settings", .store .settings ⟨Dump.settings, fun v (s : Dump) => { s with settings := v }⟩),
  ("SystemInfo", .ignore),
  ("Instance",
    .store (.one .apiInstance (by decide)) ⟨Dump.inst, fun v (s : Dump) => { s with inst := v }⟩),
  ("Device", .append .device (by decide) ⟨Dump.devices, fun v (s : Dump) => { s with devices := v }⟩)]

end Schema

namespace Entity

/-- The keys of an entity with their rules. -/
def schema : (e : Entity) → List (String × Rule e)
  | .semaphoreInfo => Schema.semaphoreInfo
  | .command => Schema.command
  | .applicationInfo => Schema.applicationInfo
  | .submitInfo => Schema.submitInfo
  | .commandBuffer => Schema.commandBuffer
  | .apiInstance => Schema.apiInstance
  | .submit => Schema.submit
  | .queue => Schema.queue
  | .device => Schema.device
  | .dump => Schema.dump

/-- The rule for a key of an entity, nothing for an unknown key. -/
def rule? (e : Entity) (key : String) : Option (Rule e) := e.schema.lookup key

end Entity

/-- Refuses a device that has command buffers in both listings. -/
def Device.check (d : Device) : Except Cause Unit :=
  if d.incompleteCommandBuffers.isEmpty || d.allCommandBuffers.isEmpty then .ok ()
  else .error (.bothListings d.incompleteCommandBuffers.length d.allCommandBuffers.length)

/-- What has to hold of an entity as a whole, once its map has been read. -/
def Entity.check : (e : Entity) → e.Value → Except Cause Unit
  | .device, d => Device.check d
  | _, _ => .ok ()

end Postmortem
