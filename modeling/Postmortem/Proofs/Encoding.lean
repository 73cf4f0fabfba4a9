import Postmortem.Proofs.Alike
import Postmortem.Proofs.Presentation
set_option autoImplicit false

/-!
# Encoding: a presentation of each dump

Each dump has a tree that writes it: every field under its key, in the order of the schema, and one entry for each
device.  So what is said about presentations is never said about nothing.
-/

namespace Postmortem

open Postmortem.Node
open Postmortem.Text

/-! ## Entries -/

/-- The entries that give some keys their values. -/
def entriesOf (rows : List (String × List Tree)) : List (Tree × Tree) :=
  rows.flatMap fun row => row.2.map fun value => (.scalar row.1, value)

theorem entriesOf_cons (key : String) (values : List Tree) (rest : List (String × List Tree)) :
    entriesOf ((key, values) :: rest) = (values.map fun value => (.scalar key, value)) ++ entriesOf rest := rfl

theorem valuesUnder_map_self (key : String) (values : List Tree) :
    valuesUnder Tree.shape key (values.map fun value => (.scalar key, value)) = values := by
  induction values with
  | nil => rfl
  | cons value rest ih =>
    have hkey : Tree.shape (.scalar key) = .scalar key := rfl
    rw [List.map_cons, valuesUnder_cons_self hkey, ih]

theorem valuesUnder_map_of_ne {key name : String} (hne : key ≠ name) (values : List Tree) :
    valuesUnder Tree.shape name (values.map fun value => (.scalar key, value)) = [] := by
  induction values with
  | nil => rfl
  | cons value rest ih =>
    have hkey : Tree.shape (.scalar key) = .scalar key := rfl
    rw [List.map_cons, valuesUnder_cons_of_ne hkey hne, ih]

theorem valuesUnder_entriesOf_of_notMem {name : String} {rows : List (String × List Tree)}
    (h : name ∉ rows.map Prod.fst) : valuesUnder Tree.shape name (entriesOf rows) = [] := by
  induction rows with
  | nil => rfl
  | cons row rest ih =>
    obtain ⟨key, values⟩ := row
    rw [List.map_cons, List.mem_cons, not_or] at h
    rw [entriesOf_cons, valuesUnder_append, valuesUnder_map_of_ne (Ne.symm h.1), ih h.2, List.nil_append]

/-- The values under a key of such entries are those that it was given. -/
theorem valuesUnder_entriesOf {rows : List (String × List Tree)} (hnodup : (rows.map Prod.fst).Nodup)
    {key : String} {values : List Tree} (hrow : (key, values) ∈ rows) :
    valuesUnder Tree.shape key (entriesOf rows) = values := by
  induction rows with
  | nil => exact absurd hrow (by simp)
  | cons first rest ih =>
    obtain ⟨name, others⟩ := first
    rw [List.map_cons, List.nodup_cons] at hnodup
    rw [entriesOf_cons, valuesUnder_append]
    rcases List.mem_cons.mp hrow with heq | hrest
    · obtain ⟨rfl, rfl⟩ := Prod.mk.inj heq
      rw [valuesUnder_map_self, valuesUnder_entriesOf_of_notMem hnodup.1, List.append_nil]
    · have hne : name ≠ key := by
        intro heq
        exact hnodup.1 (List.mem_map.mpr ⟨(key, values), hrest, heq.symm⟩)
      rw [valuesUnder_map_of_ne hne, List.nil_append, ih hnodup.2 hrest]

/-- Values for the key of a field of which the field holds. -/
def Field.Takes (field : Field Tree) (row : String × List Tree) : Prop :=
  row.1 = field.key ∧ field.holds row.2

/-- A map with some fields is written by giving the key of each its values. -/
theorem isMap_entriesOf {fields : List (Field Tree)} {rows : List (String × List Tree)}
    (hnodup : (rows.map Prod.fst).Nodup) (h : List.Forall₂ Field.Takes fields rows) :
    IsMap Tree.shape fields (.map (entriesOf rows)) := by
  refine ⟨entriesOf rows, rfl, ?_, ?_⟩
  · intro entry hentry
    obtain ⟨row, hrow, hvalue⟩ := List.mem_flatMap.mp hentry
    obtain ⟨value, _, rfl⟩ := List.mem_map.mp hvalue
    obtain ⟨field, hfield, htakes⟩ := exists_of_forall₂_right h hrow
    exact ⟨field, hfield, congrArg Shape.scalar htakes.1⟩
  · intro field hfield
    obtain ⟨⟨key, values⟩, hrow, hkey, hholds⟩ := exists_of_forall₂_left h hfield
    obtain rfl : key = field.key := hkey
    rw [valuesUnder_entriesOf hnodup hrow]
    exact hholds

theorem takes_once {τ : Type} {key : String} {default value : τ} {writes : τ → Tree → Prop} {tree : Tree}
    (h : writes value tree) : (Field.once key default value writes).Takes (key, [tree]) :=
  ⟨rfl, Or.inr ⟨tree, rfl, h⟩⟩

theorem takes_never {key : String} : (Field.never key : Field Tree).Takes (key, []) := ⟨rfl, rfl⟩

/-- The tree of a list, given the trees of its members. -/
def listTree {τ : Type} (toTree : τ → Tree) (values : List τ) : Tree := .sequence (values.map toTree)

theorem forall₂_map {τ : Type} {writes : τ → Tree → Prop} {toTree : τ → Tree}
    (h : ∀ value, writes value (toTree value)) (values : List τ) :
    List.Forall₂ writes values (values.map toTree) := by
  rw [List.forall₂_map_right_iff, List.forall₂_same]
  exact fun value _ => h value

theorem takes_list {τ : Type} {key : String} {values : List τ} {writes : τ → Tree → Prop} {toTree : τ → Tree}
    (h : ∀ value, writes value (toTree value)) :
    (Field.once key [] values (WritesList Tree.shape writes)).Takes (key, [listTree toTree values]) :=
  takes_once ⟨values.map toTree, rfl, forall₂_map h values⟩

/-! ## Entities -/

/-- The tree of a semaphore. -/
def SemaphoreInfo.toTree (s : SemaphoreInfo) : Tree :=
  .map (entriesOf [
    ("handle", [.scalar s.handle.toText]),
    ("type", [.scalar s.type]),
    ("value", [.scalar (Numeral.decimal s.value)]),
    ("lastValue", [.scalar (Numeral.decimal s.lastValue)])])

theorem SemaphoreInfo.presentedBy_toTree (s : SemaphoreInfo) : s.PresentedBy Tree.shape s.toTree := by
  refine isMap_entriesOf (by simp) ?_
  refine .cons (takes_once rfl) ?_
  refine .cons (takes_once rfl) ?_
  refine .cons (takes_once rfl) ?_
  refine .cons (takes_once rfl) ?_
  exact .nil

/-- The tree of a command. -/
def Command.toTree (c : Command) : Tree :=
  .map (entriesOf [
    ("id", [.scalar (Numeral.decimal c.id)]),
    ("checkpointValue", [.scalar (Numeral.decimal c.checkpointValue)]),
    ("name", [.scalar c.name]),
    ("state", [.scalar c.state]),
    ("message", [.scalar c.message]),
    ("parameters", []),
    ("internalState", [])])

theorem Command.presentedBy_toTree (c : Command) : c.PresentedBy Tree.shape c.toTree := by
  refine isMap_entriesOf (by simp) ?_
  refine .cons (takes_once rfl) ?_
  refine .cons (takes_once rfl) ?_
  refine .cons (takes_once rfl) ?_
  refine .cons (takes_once rfl) ?_
  refine .cons (takes_once rfl) ?_
  refine .cons takes_never ?_
  refine .cons takes_never ?_
  exact .nil

/-- The tree of the description of an application. -/
def Application.toTree (a : Application) : Tree :=
  .map (entriesOf [
    ("application", [.scalar a.name]),
    ("applicationVersion", [.scalar (Numeral.decimal a.version)]),
    ("engine", [.scalar a.engine]),
    ("engineVersion", [.scalar (Numeral.decimal a.engineVersion)]),
    ("apiVersion", [.scalar a.apiVersion.text])])

theorem Application.presentedBy_toTree (a : Application) : a.PresentedBy Tree.shape a.toTree := by
  refine isMap_entriesOf (by simp) ?_
  refine .cons (takes_once rfl) ?_
  refine .cons (takes_once rfl) ?_
  refine .cons (takes_once rfl) ?_
  refine .cons (takes_once rfl) ?_
  refine .cons (takes_once rfl) ?_
  exact .nil

/-- The tree of a batch. -/
def SubmitInfo.toTree (s : SubmitInfo) : Tree :=
  .map (entriesOf [
    ("id", [.scalar (Numeral.decimal s.id)]),
    ("state", [.scalar s.state]),
    ("CommandBuffers", [listTree Tree.scalar s.commandBuffers]),
    ("SignalSemaphores", [listTree SemaphoreInfo.toTree s.signalSemaphores]),
    ("WaitSemaphores", [listTree SemaphoreInfo.toTree s.waitSemaphores])])

theorem SubmitInfo.presentedBy_toTree (s : SubmitInfo) : s.PresentedBy Tree.shape s.toTree := by
  refine isMap_entriesOf (by simp) ?_
  refine .cons (takes_once rfl) ?_
  refine .cons (takes_once rfl) ?_
  refine .cons (takes_list fun _ => rfl) ?_
  refine .cons (takes_list SemaphoreInfo.presentedBy_toTree) ?_
  refine .cons (takes_list SemaphoreInfo.presentedBy_toTree) ?_
  exact .nil

/-- The tree of a command buffer. -/
def CommandBuffer.toTree (b : CommandBuffer) : Tree :=
  .map (entriesOf [
    ("state", [.scalar b.state]),
    ("handle", [.scalar b.handle.toText]),
    ("commandPool", [.scalar b.commandPool.toText]),
    ("queue", [.scalar b.queue.toText]),
    ("fence", [.scalar b.fence.toText]),
    ("submitInfoId", [.scalar (Numeral.decimal b.submitInfoId)]),
    ("level", [.scalar b.level]),
    ("simultaneousUse", [.scalar (if b.simultaneousUse then "true" else "false")]),
    ("beginValue", [.scalar (Numeral.decimal b.beginValue)]),
    ("endValue", [.scalar (Numeral.decimal b.endValue)]),
    ("topCheckpointValue", [.scalar (Numeral.decimal b.topCheckpointValue)]),
    ("bottomCheckpointValue", [.scalar (Numeral.decimal b.bottomCheckpointValue)]),
    ("lastStartedCommand", [.scalar (Numeral.decimal b.lastStartedCommand)]),
    ("lastCompletedCommand", [.scalar (Numeral.decimal b.lastCompletedCommand)]),
    ("Commands", [listTree Command.toTree b.commands])])

theorem CommandBuffer.presentedBy_toTree (b : CommandBuffer) : b.PresentedBy Tree.shape b.toTree := by
  refine isMap_entriesOf (by simp) ?_
  refine .cons (takes_once rfl) ?_
  refine .cons (takes_once rfl) ?_
  refine .cons (takes_once rfl) ?_
  refine .cons (takes_once rfl) ?_
  refine .cons (takes_once rfl) ?_
  refine .cons (takes_once rfl) ?_
  refine .cons (takes_once rfl) ?_
  refine .cons (takes_once rfl) ?_
  refine .cons (takes_once rfl) ?_
  refine .cons (takes_once rfl) ?_
  refine .cons (takes_once rfl) ?_
  refine .cons (takes_once rfl) ?_
  refine .cons (takes_once rfl) ?_
  refine .cons (takes_once rfl) ?_
  refine .cons (takes_list Command.presentedBy_toTree) ?_
  exact .nil

/-- The tree of an instance. -/
def Instance.toTree (i : Instance) : Tree :=
  .map (entriesOf [
    ("handle", [.scalar i.handle.toText]),
    ("applicationInfo", [i.application.toTree]),
    ("extensions", [listTree Tree.scalar i.extensions])])

theorem Instance.presentedBy_toTree (i : Instance) : i.PresentedBy Tree.shape i.toTree := by
  refine isMap_entriesOf (by simp) ?_
  refine .cons (takes_once rfl) ?_
  refine .cons (takes_once i.application.presentedBy_toTree) ?_
  refine .cons (takes_list fun _ => rfl) ?_
  exact .nil

/-- The tree of a submission. -/
def Submit.toTree (s : Submit) : Tree :=
  .map (entriesOf [
    ("id", [.scalar (Numeral.decimal s.id)]),
    ("SubmitInfos", [listTree SubmitInfo.toTree s.infos])])

theorem Submit.presentedBy_toTree (s : Submit) : s.PresentedBy Tree.shape s.toTree := by
  refine isMap_entriesOf (by simp) ?_
  refine .cons (takes_once rfl) ?_
  refine .cons (takes_list SubmitInfo.presentedBy_toTree) ?_
  exact .nil

/-- The tree of a queue. -/
def Queue.toTree (q : Queue) : Tree :=
  .map (entriesOf [
    ("handle", [.scalar q.handle.toText]),
    ("queueFamilyIndex", [.scalar (Numeral.decimal q.familyIndex)]),
    ("index", [.scalar (Numeral.decimal q.index)]),
    ("flags", []),
    ("IncompleteSubmits", [listTree Submit.toTree q.submits])])

theorem Queue.presentedBy_toTree (q : Queue) : q.PresentedBy Tree.shape q.toTree := by
  refine isMap_entriesOf (by simp) ?_
  refine .cons (takes_once rfl) ?_
  refine .cons (takes_once rfl) ?_
  refine .cons (takes_once rfl) ?_
  refine .cons takes_never ?_
  refine .cons (takes_list Submit.presentedBy_toTree) ?_
  exact .nil

/-- The tree of a device. -/
def Device.toTree (d : Device) : Tree :=
  .map (entriesOf [
    ("handle", [.scalar d.handle.toText]),
    ("deviceName", [.scalar d.name]),
    ("apiVersion", [.scalar d.apiVersion.text]),
    ("driverVersion", [.scalar d.driverVersion.text]),
    ("vendorID", [.scalar (Numeral.decimal d.vendorId)]),
    ("deviceID", [.scalar (Numeral.decimal d.deviceId)]),
    ("Queues", [listTree Queue.toTree d.queues]),
    ("IncompleteCommandBuffers", [listTree CommandBuffer.toTree d.incompleteCommandBuffers]),
    ("AllCommandBuffers", [listTree CommandBuffer.toTree d.allCommandBuffers]),
    ("extensions", [listTree Tree.scalar d.extensions])])

theorem Device.presentedBy_toTree (d : Device) : d.PresentedBy Tree.shape d.toTree := by
  refine isMap_entriesOf (by simp) ?_
  refine .cons (takes_once rfl) ?_
  refine .cons (takes_once rfl) ?_
  refine .cons (takes_once rfl) ?_
  refine .cons (takes_once rfl) ?_
  refine .cons (takes_once rfl) ?_
  refine .cons (takes_once rfl) ?_
  refine .cons (takes_list Queue.presentedBy_toTree) ?_
  refine .cons (takes_list CommandBuffer.presentedBy_toTree) ?_
  refine .cons (takes_list CommandBuffer.presentedBy_toTree) ?_
  refine .cons (takes_list fun _ => rfl) ?_
  exact .nil

/-- The tree of settings. -/
def settingsTree (settings : List (String × String)) : Tree :=
  .map (settings.map fun setting => (.scalar setting.1, .scalar setting.2))

theorem writesSettings_settingsTree (settings : List (String × String)) :
    WritesSettings Tree.shape settings (settingsTree settings) := by
  refine ⟨_, rfl, ?_⟩
  rw [List.forall₂_map_right_iff, List.forall₂_same]
  exact fun _ _ => ⟨rfl, rfl⟩

/-- The tree of a dump. -/
def Dump.toTree (d : Dump) : Tree :=
  .map (entriesOf [
    ("version", [.scalar d.version]),
    ("startTime", [.scalar d.startTime]),
    ("timeSinceStart", [.scalar d.timeSinceStart]),
    ("settings", [settingsTree d.settings]),
    ("SystemInfo", []),
    ("Instance", [d.inst.toTree]),
    ("Device", d.devices.map Device.toTree)])

theorem Dump.presentedBy_toTree (d : Dump) : d.PresentedBy Tree.shape d.toTree := by
  refine isMap_entriesOf (by simp) ?_
  refine .cons (takes_once rfl) ?_
  refine .cons (takes_once rfl) ?_
  refine .cons (takes_once rfl) ?_
  refine .cons (takes_once (writesSettings_settingsTree d.settings)) ?_
  refine .cons takes_never ?_
  refine .cons (takes_once d.inst.presentedBy_toTree) ?_
  refine .cons ⟨rfl, forall₂_map Device.presentedBy_toTree d.devices⟩ ?_
  exact .nil

end Postmortem
