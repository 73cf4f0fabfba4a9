import Mathlib.Data.List.Forall2
import Mathlib.Tactic.MkIffOfInductiveProp
import Postmortem.Dump.Model
import Postmortem.Proofs.Entries
set_option autoImplicit false

/-!
# Presentation: the documents that write a dump

A dump can be written in many ways: the entries of a map may stand in any order, and a field with its default may be
left out.  `Dump.PresentedBy` is the set of nodes that write a dump, and `Dump.Fits` says which dumps can be written at
all.  Both follow the data of a dump and mention no reader.
-/

namespace Postmortem

open Postmortem.Node
open Postmortem.Text

/-! ## Dumps that can be written -/

/-- A handle that can be written: its address has 64 bits, and its name stays on one line. -/
@[mk_iff]
structure Handle.Fits (h : Handle) : Prop where
  value : h.value < Nat.pow 2 64
  name : '\n' ∉ h.name.toList

instance (h : Handle) : Decidable h.Fits := decidable_of_iff' _ (Handle.fits_iff h)

/-- A description of an application whose numbers have their widths. -/
@[mk_iff]
structure Application.Fits (a : Application) : Prop where
  version : a.version < Nat.pow 2 32
  engineVersion : a.engineVersion < Nat.pow 2 32

instance (a : Application) : Decidable a.Fits := decidable_of_iff' _ (Application.fits_iff a)

/-- An instance that can be written. -/
@[mk_iff]
structure Instance.Fits (i : Instance) : Prop where
  handle : i.handle.Fits
  application : i.application.Fits

instance (i : Instance) : Decidable i.Fits := decidable_of_iff' _ (Instance.fits_iff i)

/-- A semaphore that can be written. -/
@[mk_iff]
structure SemaphoreInfo.Fits (s : SemaphoreInfo) : Prop where
  handle : s.handle.Fits
  value : s.value < Nat.pow 2 64
  lastValue : s.lastValue < Nat.pow 2 64

instance (s : SemaphoreInfo) : Decidable s.Fits := decidable_of_iff' _ (SemaphoreInfo.fits_iff s)

/-- A batch that can be written. -/
@[mk_iff]
structure SubmitInfo.Fits (s : SubmitInfo) : Prop where
  id : s.id < Nat.pow 2 64
  signalSemaphores : ∀ x ∈ s.signalSemaphores, x.Fits
  waitSemaphores : ∀ x ∈ s.waitSemaphores, x.Fits

instance (s : SubmitInfo) : Decidable s.Fits := decidable_of_iff' _ (SubmitInfo.fits_iff s)

/-- A submission that can be written. -/
@[mk_iff]
structure Submit.Fits (s : Submit) : Prop where
  id : s.id < Nat.pow 2 32
  infos : ∀ x ∈ s.infos, x.Fits

instance (s : Submit) : Decidable s.Fits := decidable_of_iff' _ (Submit.fits_iff s)

/-- A queue that can be written. -/
@[mk_iff]
structure Queue.Fits (q : Queue) : Prop where
  handle : q.handle.Fits
  familyIndex : q.familyIndex < Nat.pow 2 32
  index : q.index < Nat.pow 2 32
  submits : ∀ x ∈ q.submits, x.Fits

instance (q : Queue) : Decidable q.Fits := decidable_of_iff' _ (Queue.fits_iff q)

/-- A command that can be written. -/
@[mk_iff]
structure Command.Fits (c : Command) : Prop where
  id : c.id < Nat.pow 2 32
  checkpointValue : c.checkpointValue < Nat.pow 2 32

instance (c : Command) : Decidable c.Fits := decidable_of_iff' _ (Command.fits_iff c)

/-- A command buffer that can be written. -/
@[mk_iff]
structure CommandBuffer.Fits (b : CommandBuffer) : Prop where
  handle : b.handle.Fits
  commandPool : b.commandPool.Fits
  queue : b.queue.Fits
  fence : b.fence.Fits
  submitInfoId : b.submitInfoId < Nat.pow 2 64
  beginValue : b.beginValue < Nat.pow 2 32
  endValue : b.endValue < Nat.pow 2 32
  topCheckpointValue : b.topCheckpointValue < Nat.pow 2 32
  bottomCheckpointValue : b.bottomCheckpointValue < Nat.pow 2 32
  lastStartedCommand : b.lastStartedCommand < Nat.pow 2 32
  lastCompletedCommand : b.lastCompletedCommand < Nat.pow 2 32
  commands : ∀ x ∈ b.commands, x.Fits

instance (b : CommandBuffer) : Decidable b.Fits := decidable_of_iff' _ (CommandBuffer.fits_iff b)

/-- A device that can be written.  It has command buffers in one listing at most. -/
@[mk_iff]
structure Device.Fits (d : Device) : Prop where
  handle : d.handle.Fits
  vendorId : d.vendorId < Nat.pow 2 32
  deviceId : d.deviceId < Nat.pow 2 32
  queues : ∀ x ∈ d.queues, x.Fits
  incompleteCommandBuffers : ∀ x ∈ d.incompleteCommandBuffers, x.Fits
  allCommandBuffers : ∀ x ∈ d.allCommandBuffers, x.Fits
  oneListing : d.incompleteCommandBuffers = [] ∨ d.allCommandBuffers = []

instance (d : Device) : Decidable d.Fits := decidable_of_iff' _ (Device.fits_iff d)

/-- A dump that can be written.  No setting is given twice. -/
@[mk_iff]
structure Dump.Fits (d : Dump) : Prop where
  settings : (d.settings.map Prod.fst).Nodup
  inst : d.inst.Fits
  devices : ∀ x ∈ d.devices, x.Fits

instance (d : Dump) : Decidable d.Fits := decidable_of_iff' _ (Dump.fits_iff d)

section

variable {α τ : Type} (graph : Graph α)

/-! ## Scalars and lists -/

/-- A node that writes a text, verbatim. -/
def WritesText (text : String) (node : α) : Prop := graph node = .scalar text

/-- A node that writes a version as its producer wrote it. -/
def WritesVersion (v : Version) (node : α) : Prop := graph node = .scalar v.text

/-- A node that writes a number in decimal digits. -/
def WritesNumber (n : Nat) (node : α) : Prop := graph node = .scalar (Numeral.decimal n)

/-- A node that writes a truth value. -/
def WritesFlag (value : Bool) (node : α) : Prop := graph node = .scalar (if value then "true" else "false")

/-- A node that writes a handle. -/
def WritesHandle (h : Handle) (node : α) : Prop := graph node = .scalar h.toText

/-- A node that writes a list: a sequence whose elements write its members in order. -/
def WritesList (writes : τ → α → Prop) (values : List τ) (node : α) : Prop :=
  ∃ items, graph node = .sequence items ∧ List.Forall₂ writes values items

/-- A node that writes settings: a map whose entries write them in order. -/
def WritesSettings (settings : List (String × String)) (node : α) : Prop :=
  ∃ entries, graph node = .map entries ∧
    List.Forall₂ (fun setting entry => WritesText graph setting.1 entry.1 ∧ WritesText graph setting.2 entry.2)
      settings entries

/-! ## Maps -/

/-- A key of a map, with what the values under it have to be. -/
structure Field (α : Type) where
  key : String
  holds : List α → Prop

/-- A key that is given once, with a value that writes something; it may be left out if that is the default. -/
def Field.once (key : String) (default value : τ) (writes : τ → α → Prop) : Field α :=
  ⟨key, fun nodes => (nodes = [] ∧ value = default) ∨ ∃ node, nodes = [node] ∧ writes value node⟩

/-- A key that is given once for each member of a list, in order. -/
def Field.each (key : String) (values : List τ) (writes : τ → α → Prop) : Field α :=
  ⟨key, fun nodes => List.Forall₂ writes values nodes⟩

/-- A key for which a dump holds nothing, and which is not given. -/
def Field.never (key : String) : Field α := ⟨key, fun nodes => nodes = []⟩

/-- A map with some fields and no other keys, its entries in any order. -/
def IsMap (fields : List (Field α)) (node : α) : Prop :=
  ∃ entries, graph node = .map entries ∧
    (∀ entry ∈ entries, ∃ field ∈ fields, graph entry.1 = .scalar field.key) ∧
    ∀ field ∈ fields, field.holds (valuesUnder graph field.key entries)

/-! ## Entities -/

/-- A node that writes a semaphore. -/
def SemaphoreInfo.PresentedBy (s : SemaphoreInfo) : α → Prop :=
  IsMap graph [
    .once "handle" {} s.handle (WritesHandle graph),
    .once "type" "" s.type (WritesText graph),
    .once "value" 0 s.value (WritesNumber graph),
    .once "lastValue" 0 s.lastValue (WritesNumber graph)]

/-- A node that writes a command. -/
def Command.PresentedBy (c : Command) : α → Prop :=
  IsMap graph [
    .once "id" 0 c.id (WritesNumber graph),
    .once "checkpointValue" 0 c.checkpointValue (WritesNumber graph),
    .once "name" "" c.name (WritesText graph),
    .once "state" "" c.state (WritesText graph),
    .once "message" "" c.message (WritesText graph),
    .never "parameters",
    .never "internalState"]

/-- A node that writes the description of an application. -/
def Application.PresentedBy (a : Application) : α → Prop :=
  IsMap graph [
    .once "application" "" a.name (WritesText graph),
    .once "applicationVersion" 0 a.version (WritesNumber graph),
    .once "engine" "" a.engine (WritesText graph),
    .once "engineVersion" 0 a.engineVersion (WritesNumber graph),
    .once "apiVersion" {} a.apiVersion (WritesVersion graph)]

/-- A node that writes a batch. -/
def SubmitInfo.PresentedBy (s : SubmitInfo) : α → Prop :=
  IsMap graph [
    .once "id" 0 s.id (WritesNumber graph),
    .once "state" "" s.state (WritesText graph),
    .once "CommandBuffers" [] s.commandBuffers (WritesList graph (WritesText graph)),
    .once "SignalSemaphores" [] s.signalSemaphores (WritesList graph (SemaphoreInfo.PresentedBy graph)),
    .once "WaitSemaphores" [] s.waitSemaphores (WritesList graph (SemaphoreInfo.PresentedBy graph))]

/-- A node that writes a command buffer. -/
def CommandBuffer.PresentedBy (b : CommandBuffer) : α → Prop :=
  IsMap graph [
    .once "state" "" b.state (WritesText graph),
    .once "handle" {} b.handle (WritesHandle graph),
    .once "commandPool" {} b.commandPool (WritesHandle graph),
    .once "queue" {} b.queue (WritesHandle graph),
    .once "fence" {} b.fence (WritesHandle graph),
    .once "submitInfoId" 0 b.submitInfoId (WritesNumber graph),
    .once "level" "" b.level (WritesText graph),
    .once "simultaneousUse" false b.simultaneousUse (WritesFlag graph),
    .once "beginValue" 0 b.beginValue (WritesNumber graph),
    .once "endValue" 0 b.endValue (WritesNumber graph),
    .once "topCheckpointValue" 0 b.topCheckpointValue (WritesNumber graph),
    .once "bottomCheckpointValue" 0 b.bottomCheckpointValue (WritesNumber graph),
    .once "lastStartedCommand" 0 b.lastStartedCommand (WritesNumber graph),
    .once "lastCompletedCommand" 0 b.lastCompletedCommand (WritesNumber graph),
    .once "Commands" [] b.commands (WritesList graph (Command.PresentedBy graph))]

/-- A node that writes an instance. -/
def Instance.PresentedBy (i : Instance) : α → Prop :=
  IsMap graph [
    .once "handle" {} i.handle (WritesHandle graph),
    .once "applicationInfo" {} i.application (Application.PresentedBy graph),
    .once "extensions" [] i.extensions (WritesList graph (WritesText graph))]

/-- A node that writes a submission. -/
def Submit.PresentedBy (s : Submit) : α → Prop :=
  IsMap graph [
    .once "id" 0 s.id (WritesNumber graph),
    .once "SubmitInfos" [] s.infos (WritesList graph (SubmitInfo.PresentedBy graph))]

/-- A node that writes a queue. -/
def Queue.PresentedBy (q : Queue) : α → Prop :=
  IsMap graph [
    .once "handle" {} q.handle (WritesHandle graph),
    .once "queueFamilyIndex" 0 q.familyIndex (WritesNumber graph),
    .once "index" 0 q.index (WritesNumber graph),
    .never "flags",
    .once "IncompleteSubmits" [] q.submits (WritesList graph (Submit.PresentedBy graph))]

/-- A node that writes a device. -/
def Device.PresentedBy (d : Device) : α → Prop :=
  IsMap graph [
    .once "handle" {} d.handle (WritesHandle graph),
    .once "deviceName" "" d.name (WritesText graph),
    .once "apiVersion" {} d.apiVersion (WritesVersion graph),
    .once "driverVersion" {} d.driverVersion (WritesVersion graph),
    .once "vendorID" 0 d.vendorId (WritesNumber graph),
    .once "deviceID" 0 d.deviceId (WritesNumber graph),
    .once "Queues" [] d.queues (WritesList graph (Queue.PresentedBy graph)),
    .once "IncompleteCommandBuffers" [] d.incompleteCommandBuffers
      (WritesList graph (CommandBuffer.PresentedBy graph)),
    .once "AllCommandBuffers" [] d.allCommandBuffers (WritesList graph (CommandBuffer.PresentedBy graph)),
    .once "extensions" [] d.extensions (WritesList graph (WritesText graph))]

/-- A node that writes a dump. -/
def Dump.PresentedBy (d : Dump) : α → Prop :=
  IsMap graph [
    .once "version" "" d.version (WritesText graph),
    .once "startTime" "" d.startTime (WritesText graph),
    .once "timeSinceStart" "" d.timeSinceStart (WritesText graph),
    .once "settings" [] d.settings (WritesSettings graph),
    .never "SystemInfo",
    .once "Instance" {} d.inst (Instance.PresentedBy graph),
    .each "Device" d.devices (Device.PresentedBy graph)]

end

end Postmortem
