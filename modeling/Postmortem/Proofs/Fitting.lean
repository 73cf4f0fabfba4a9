import Postmortem.Proofs.Acceptance
import Postmortem.Proofs.Alike
import Postmortem.Proofs.Presentation
set_option autoImplicit false

/-!
# Fitting: what is read is within its bounds

Each dump that is read has numbers of the widths of their fields, handles of 64 bits with names on one line, settings
given once, and devices with one listing.  An entity fits if each of its slots does and the whole passes its check, so
a row of the schema has to be looked at once.  From there the argument is about steps: a value that is read fits the
slot that it fills, and a key that is given again fills its slot with what fits again.
-/

namespace Postmortem

open Postmortem.Node

/-! ## Slots -/

/-- The entities that fit. -/
def Entity.Fits : (e : Entity) → e.Value → Prop
  | .semaphoreInfo => SemaphoreInfo.Fits
  | .command => Command.Fits
  | .applicationInfo => Application.Fits
  | .submitInfo => SubmitInfo.Fits
  | .commandBuffer => CommandBuffer.Fits
  | .apiInstance => Instance.Fits
  | .submit => Submit.Fits
  | .queue => Queue.Fits
  | .device => Device.Fits
  | .dump => Dump.Fits

/-- The values that fit what a key asks for. -/
def Content.Fits {owner : Entity} : (content : Content owner) → content.Value → Prop
  | .uint width, (n : Nat) => n < width.limit
  | .handle, h => Handle.Fits h
  | .settings, (rows : List (String × String)) => (rows.map Prod.fst).Nodup
  | .one item _, x => item.Fits x
  | .many item _, (xs : List item.Value) => ∀ x ∈ xs, item.Fits x
  | .text, _ | .version, _ | .flag, _ | .texts, _ => True

/-- The values of the part of a rule that fit. -/
def Rule.Fits {e : Entity} : (rule : Rule e) → rule.Part → Prop
  | .store content _, x => content.Fits x
  | .merge part _ _, x => part.Fits x
  | .append item _ _, (xs : List item.Value) => ∀ x ∈ xs, item.Fits x
  | .ignore, _ => True

theorem Device.check_eq_ok_iff {d : Device} :
    d.check = .ok () ↔ d.incompleteCommandBuffers = [] ∨ d.allCommandBuffers = [] := by
  rw [Device.check]
  split <;> simp_all [List.isEmpty_iff]

namespace Entity

/-- An entity fits if each of its slots holds what fits and nothing is wrong with the whole. -/
theorem fits_iff_slots (e : Entity) (v : e.Value) :
    e.Fits v ↔ (∀ row ∈ e.schema, row.2.Fits (row.2.slot.get v)) ∧ e.check v = .ok () := by
  -- Each row is about one field; rows that ask for nothing are passed over.
  cases e with
  | semaphoreInfo =>
    simp only [schema, Schema.semaphoreInfo, List.forall_mem_cons]
    constructor
    · rintro ⟨handle, value, lastValue⟩
      exact ⟨⟨handle, trivial, value, lastValue, List.forall_mem_nil _⟩, rfl⟩
    · rintro ⟨⟨handle, _, value, lastValue, _⟩, _⟩
      exact ⟨handle, value, lastValue⟩
  | command =>
    simp only [schema, Schema.command, List.forall_mem_cons]
    constructor
    · rintro ⟨id, checkpointValue⟩
      exact ⟨⟨id, checkpointValue, trivial, trivial, trivial, trivial, trivial, List.forall_mem_nil _⟩, rfl⟩
    · rintro ⟨⟨id, checkpointValue, _, _, _, _, _, _⟩, _⟩
      exact ⟨id, checkpointValue⟩
  | applicationInfo =>
    simp only [schema, Schema.applicationInfo, List.forall_mem_cons]
    constructor
    · rintro ⟨version, engineVersion⟩
      exact ⟨⟨trivial, version, trivial, engineVersion, trivial, List.forall_mem_nil _⟩, rfl⟩
    · rintro ⟨⟨_, version, _, engineVersion, _, _⟩, _⟩
      exact ⟨version, engineVersion⟩
  | submitInfo =>
    simp only [schema, Schema.submitInfo, List.forall_mem_cons]
    constructor
    · rintro ⟨id, signal, wait⟩
      exact ⟨⟨id, trivial, trivial, signal, wait, List.forall_mem_nil _⟩, rfl⟩
    · rintro ⟨⟨id, _, _, signal, wait, _⟩, _⟩
      exact ⟨id, signal, wait⟩
  | commandBuffer =>
    simp only [schema, Schema.commandBuffer, List.forall_mem_cons]
    constructor
    · rintro ⟨handle, pool, queue, fence, submitInfoId, first, last, top, bottom, started, completed, commands⟩
      exact ⟨⟨trivial, handle, pool, queue, fence, submitInfoId, trivial, trivial, first, last, top, bottom, started,
        completed, commands, List.forall_mem_nil _⟩, rfl⟩
    · rintro ⟨⟨_, handle, pool, queue, fence, submitInfoId, _, _, first, last, top, bottom, started, completed,
        commands, _⟩, _⟩
      exact ⟨handle, pool, queue, fence, submitInfoId, first, last, top, bottom, started, completed, commands⟩
  | apiInstance =>
    simp only [schema, Schema.apiInstance, List.forall_mem_cons]
    constructor
    · rintro ⟨handle, application⟩
      exact ⟨⟨handle, application, trivial, List.forall_mem_nil _⟩, rfl⟩
    · rintro ⟨⟨handle, application, _, _⟩, _⟩
      exact ⟨handle, application⟩
  | submit =>
    simp only [schema, Schema.submit, List.forall_mem_cons]
    constructor
    · rintro ⟨id, infos⟩
      exact ⟨⟨id, infos, List.forall_mem_nil _⟩, rfl⟩
    · rintro ⟨⟨id, infos, _⟩, _⟩
      exact ⟨id, infos⟩
  | queue =>
    simp only [schema, Schema.queue, List.forall_mem_cons]
    constructor
    · rintro ⟨handle, familyIndex, index, submits⟩
      exact ⟨⟨handle, familyIndex, index, trivial, submits, List.forall_mem_nil _⟩, rfl⟩
    · rintro ⟨⟨handle, familyIndex, index, _, submits, _⟩, _⟩
      exact ⟨handle, familyIndex, index, submits⟩
  | device =>
    simp only [schema, Schema.device, List.forall_mem_cons]
    constructor
    · rintro ⟨handle, vendorId, deviceId, queues, incomplete, all, oneListing⟩
      exact ⟨⟨handle, trivial, trivial, trivial, vendorId, deviceId, queues, incomplete, all, trivial,
        List.forall_mem_nil _⟩, Device.check_eq_ok_iff.mpr oneListing⟩
    · rintro ⟨⟨handle, _, _, _, vendorId, deviceId, queues, incomplete, all, _, _⟩, oneListing⟩
      exact ⟨handle, vendorId, deviceId, queues, incomplete, all, Device.check_eq_ok_iff.mp oneListing⟩
  | dump =>
    simp only [schema, Schema.dump, List.forall_mem_cons]
    constructor
    · rintro ⟨settings, inst, devices⟩
      exact ⟨⟨trivial, trivial, trivial, settings, trivial, inst, devices, List.forall_mem_nil _⟩, rfl⟩
    · rintro ⟨⟨_, _, _, settings, _, inst, devices, _⟩, _⟩
      exact ⟨settings, inst, devices⟩

/-- What an empty map is read into fits. -/
theorem fits_initial (e : Entity) : e.Fits e.initial := by
  cases e with
  | semaphoreInfo => exact (by decide : SemaphoreInfo.Fits {})
  | command => exact (by decide : Command.Fits {})
  | applicationInfo => exact (by decide : Application.Fits {})
  | submitInfo => exact (by decide : SubmitInfo.Fits {})
  | commandBuffer => exact (by decide : CommandBuffer.Fits {})
  | apiInstance => exact (by decide : Instance.Fits {})
  | submit => exact (by decide : Submit.Fits {})
  | queue => exact (by decide : Queue.Fits {})
  | device => exact (by decide : Device.Fits {})
  | dump => exact (by decide : Dump.Fits {})

end Entity

/-! ## Values -/

theorem Handle.fits_of_isHandle {token : String} {h : Handle} (hhandle : IsHandle token h) : h.Fits := by
  obtain ⟨digits, spaces, name, _, _, _, _, hname, hvalue, rfl⟩ := hhandle
  exact ⟨hvalue, by simpa using hname⟩

section

variable {α : Type} {graph : Graph α}

/-- A scalar that is read was a text from which its value is read. -/
theorem exists_text_of_readWith {τ : Type} {target : Target} {read : String → Except Cause τ} {node : α} {value : τ}
    {remarks : List Remark} (h : Outcome.ofExcept ((graph node).readWith target read) = .ok (value, remarks)) :
    ∃ text, graph node = .scalar text ∧ read text = .ok value := by
  obtain ⟨hread, _⟩ := Outcome.ofExcept_eq_ok_iff.mp h
  cases hnode : graph node with
  | scalar text =>
    rw [hnode] at hread
    exact ⟨text, rfl, hread⟩
  | sequence items =>
    rw [hnode] at hread
    cases hread
  | map entries =>
    rw [hnode] at hread
    cases hread

/-- Each member of what a sequence is read to was read from an element. -/
theorem forall_of_readSequence {τ : Type} {read : α → Outcome τ} {p : τ → Prop}
    (hread : ∀ child value remarks, read child = .ok (value, remarks) → p value) {node : α} {values : List τ}
    {remarks : List Remark} (h : readSequence graph read node = .ok (values, remarks)) : ∀ value ∈ values, p value := by
  intro value hvalue
  obtain ⟨child, _, own, hown⟩ := exists_of_forall₂_right (forall₂_of_readSequence h) hvalue
  exact hread child value own hown

/-- Settings that are read have each key once. -/
theorem nodup_of_readSettings {node : α} {rows : List (String × String)} {remarks : List Remark}
    (h : readSettings graph node = .ok (rows, remarks)) : (rows.map Prod.fst).Nodup := by
  have hsucceeds : (readSettings graph node).Succeeds := ⟨rows, remarks, h⟩
  have hconforms := (agrees_readSettings node).succeeds.mp hsucceeds
  obtain ⟨entries, hnode, hentries, _⟩ := (conforms_map_iff rfl).mp hconforms
  have hread : Outcome.foldl (readSettingEntry graph) [] entries = .ok (rows, remarks) := by
    rw [readSettings, hnode] at h
    rw [← readSettingEntries_eq_foldl]
    exact h
  rw [keys_of_readSettingEntry hread]
  exact hentries.distinct rfl

section

variable {e : Entity} {lower : LowerReader α e}

/-- The readers for lower entities give what fits, from what fits. -/
def LowerFits (lower : LowerReader α e) : Prop :=
  ∀ item (h : item.rank < e.rank) start node value remarks, item.Fits start →
    lower item h start node = .ok (value, remarks) → item.Fits value

theorem fits_of_readContent (hlower : LowerFits lower) {content : Content e} {node : α} {value : content.Value}
    {remarks : List Remark} (h : readContent graph lower content node = .ok (value, remarks)) : content.Fits value := by
  cases content with
  | text => trivial
  | version => trivial
  | uint width =>
    obtain ⟨text, _, hread⟩ := exists_text_of_readWith h
    obtain ⟨n, _, _, hsmall, rfl⟩ := readUint_eq_ok_iff.mp hread
    exact hsmall
  | flag => trivial
  | handle =>
    obtain ⟨text, _, hread⟩ := exists_text_of_readWith h
    exact Handle.fits_of_isHandle (readHandle_eq_ok_iff.mp hread)
  | texts => trivial
  | settings => exact nodup_of_readSettings h
  | one item hrank => exact hlower item hrank item.initial node value remarks item.fits_initial h
  | many item hrank =>
    exact forall_of_readSequence (fun child x own => hlower item hrank item.initial child x own item.fits_initial) h

/-- A value under a key takes its slot from what fits to what fits. -/
theorem Rule.fits_of_read (hlower : LowerFits lower) {key : String} {rule : Rule e} {child : α} {x y : rule.Part}
    {remarks : List Remark} (hx : rule.Fits x) (h : rule.read graph lower key child x = .ok (y, remarks)) :
    rule.Fits y := by
  cases rule with
  | store content slot =>
    obtain ⟨own, hread, _⟩ := Outcome.below_eq_ok_iff.mp h
    exact fits_of_readContent hlower hread
  | merge part hrank slot =>
    obtain ⟨own, hread, _⟩ := Outcome.below_eq_ok_iff.mp h
    exact hlower part hrank x child y own hx hread
  | append item hrank slot =>
    obtain ⟨value, hvalue, rfl⟩ := Outcome.map_eq_ok_iff.mp h
    obtain ⟨_, hkey, _⟩ := Outcome.below_eq_ok_iff.mp hvalue
    obtain ⟨own, hread, _⟩ := Outcome.below_eq_ok_iff.mp hkey
    have hitem : item.Fits value := hlower item hrank item.initial child value own item.fits_initial hread
    exact List.forall_mem_append.mpr ⟨hx, List.forall_mem_singleton.mpr hitem⟩
  | ignore => trivial

/-- However often a key is given, its slot holds what fits. -/
theorem Rule.fits_of_fills (hlower : LowerFits lower) {key : String} {rule : Rule e} {x z : rule.Part}
    {values : List α} {remarks : List Remark} (hx : rule.Fits x) (h : rule.Fills graph lower key x values z remarks) :
    rule.Fits z := by
  induction h with
  | done x => exact hx
  | value first others ih => exact ih (Rule.fits_of_read hlower hx first)

/-- An entity that is kept passed its check. -/
theorem checked_eq_ok_iff {value result : e.Value} {remarks : List Remark} :
    checked e value = .ok (result, remarks) ↔ e.check value = .ok () ∧ value = result ∧ remarks = [] := by
  unfold checked
  cases e.check value <;> simp

theorem fits_of_readMap (hlower : LowerFits lower) {start value : e.Value} {node : α} {remarks : List Remark}
    (hstart : e.Fits start) (h : readMap graph lower start node = .ok (value, remarks)) : e.Fits value := by
  unfold readMap at h
  split at h
  · obtain ⟨result, own, more, hentries, hchecked, _⟩ := Outcome.andThen_eq_ok_iff.mp h
    obtain ⟨hcheck, rfl, _⟩ := checked_eq_ok_iff.mp hchecked
    refine (e.fits_iff_slots result).mpr ⟨?_, hcheck⟩
    intro row hrow
    obtain ⟨_, hfills⟩ := readEntries_fills hentries (Entity.rule?_of_mem_schema hrow)
    exact Rule.fits_of_fills hlower (((e.fits_iff_slots start).mp hstart).1 row hrow) hfills
  · exact absurd h (by simp)

end

/-- An entity that is read fits. -/
theorem fits_of_readEntity (e : Entity) {start value : e.Value} {node : α} {remarks : List Remark}
    (hstart : e.Fits start) (h : readEntity graph e start node = .ok (value, remarks)) : e.Fits value := by
  induction e using Entity.inductionOnRank generalizing node remarks with
  | holder e ih =>
    rw [readEntity_eq] at h
    refine fits_of_readMap ?_ hstart h
    intro item hitem start node value remarks hstart hread
    exact ih item hitem hstart hread

/-! ## Dumps -/

/-- A dump that is read fits, and it has a device for each value under the key of devices. -/
theorem fits_of_readDump {root : Option α} {dump : Dump} {remarks : List Remark}
    (h : readDump graph root = .ok (dump, remarks)) :
    dump.Fits ∧ ∃ node entries, root = some node ∧ graph node = .map entries ∧
      dump.devices.length = (valuesUnder graph "Device" entries).length := by
  cases root with
  | none => exact absurd h (by simp [readDump])
  | some node =>
    refine ⟨fits_of_readEntity .dump Entity.dump.fits_initial h, node, ?_⟩
    have hread : readEntity graph .dump Entity.dump.initial node = .ok (dump, remarks) := h
    rw [readEntity_eq, readMap] at hread
    split at hread
    · rename_i entries hnode
      obtain ⟨result, own, more, hentries, hchecked, _⟩ := Outcome.andThen_eq_ok_iff.mp hread
      obtain ⟨_, rfl, _⟩ := checked_eq_ok_iff.mp hchecked
      have hrule : Entity.dump.rule? "Device"
          = some (.append .device (by decide) ⟨Dump.devices, fun v (s : Dump) => { s with devices := v }⟩) := rfl
      obtain ⟨_, hfills⟩ := readEntries_fills hentries hrule
      have hlength := length_of_fills_append hfills
      exact ⟨entries, rfl, hnode, hlength.trans (Nat.zero_add _)⟩
    · exact absurd hread (by simp)

theorem exists_readDump_of_ofGraph {config : Config} {root : Option α} {file : DumpFile}
    (h : Reader.ofGraph config graph root = .ok file) : ∃ remarks, readDump graph root = .ok (file.content, remarks) := by
  obtain ⟨content, remarks, hread, rfl⟩ := Reader.ofGraph_eq_ok_iff.mp h
  exact ⟨remarks, hread⟩

/-- Whatever the document and the configuration, a dump that is read has each number below the limit of its width, each
handle below that of addresses and on one line, each setting once and at most one listing for each device; and it has as
many devices as the document has entries for them. -/
theorem ofGraph_fits {config : Config} {root : Option α} {file : DumpFile}
    (h : Reader.ofGraph config graph root = .ok file) :
    file.content.Fits ∧ ∃ node entries, root = some node ∧ graph node = .map entries ∧
      file.content.devices.length = (valuesUnder graph "Device" entries).length := by
  obtain ⟨remarks, hread⟩ := exists_readDump_of_ofGraph h
  exact fits_of_readDump hread

end

/-- Two devices.  The first lists one command buffer in each way, and then none as incomplete. -/
def relisted : Tree :=
  .map [
    (.scalar "Device", .map [
      (.scalar "IncompleteCommandBuffers", .sequence [.map [(.scalar "handle", .scalar "0x10 [cb]")]]),
      (.scalar "AllCommandBuffers", .sequence [.map [(.scalar "endValue", .scalar "4294967295")]]),
      (.scalar "IncompleteCommandBuffers", .sequence [])]),
    (.scalar "Device", .map [])]

/-- The listing that is given last counts, and the dump fits. -/
theorem ofGraph_fits_relisted :
    Reader.ofGraph {} Tree.shape (some relisted)
        = .ok { content := { devices := [{ allCommandBuffers := [{ endValue := 4294967295 }] }, {}] } } ∧
      Dump.Fits { devices := [{ allCommandBuffers := [{ endValue := 4294967295 }] }, {}] } := by
  have hread : Reader.ofGraph {} Tree.shape (some relisted)
      = .ok { content := { devices := [{ allCommandBuffers := [{ endValue := 4294967295 }] }, {}] } } := by
    decide +kernel
  exact ⟨hread, (ofGraph_fits hread).1⟩

/-! ## What the reader gives -/

namespace Reader

/-- The dumps that the reader gives with any parser: from a graph of nodes, from a text, from a file, and from a tree of
files. -/
inductive Gives : DumpFile → Prop
  | graph {α : Type} {config : Config} {graph : Graph α} {root : Option α} {file : DumpFile}
      (h : ofGraph config graph root = .ok file) : Gives file
  | text {config : Config} {text source : String} {parser : Yaml.Parser} {file : DumpFile}
      (h : ofText config text source parser = .ok file) : Gives file
  | file {config : Config} {path : String} {octets : List UInt8} {parser : Yaml.Parser} {file : DumpFile}
      (h : ofFile config path octets parser = .ok file) : Gives file
  | path {config : Config} {t : Files.Tree} {path : String} {parser : Yaml.Parser} {file : DumpFile}
      (h : ofPath config t path parser = .ok file) : Gives file
  | directory {config : Config} {t : Files.Tree} {directory : String} {parser : Yaml.Parser} {file : DumpFile}
      (h : ofDirectory config t directory parser = .ok file) : Gives file

/-- A dump is read from a graph of nodes if its content is. -/
def FromGraph (file : DumpFile) : Prop :=
  ∃ (α : Type) (graph : Graph α) (root : Option α) (remarks : List Remark),
    readDump graph root = .ok (file.content, remarks)

variable {config : Config} {parser : Yaml.Parser} {file : DumpFile}

theorem fromGraph_of_ofText {text source : String} (h : ofText config text source parser = .ok file) :
    FromGraph file := by
  unfold ofText at h
  split at h
  · cases h
  · rename_i document _
    obtain ⟨remarks, hread⟩ := exists_readDump_of_ofGraph h
    exact ⟨_, document.graph, document.root, remarks, hread⟩

/-- The path of a file is kept beside what its text is read into. -/
theorem fromGraph_of_ofFile {path : String} {octets : List UInt8} (h : ofFile config path octets parser = .ok file) :
    FromGraph file := by
  unfold ofFile at h
  split at h
  · cases h
  · split at h
    · cases h
    · rename_i read hread
      obtain rfl := Except.ok.inj h
      have hfrom : FromGraph read := fromGraph_of_ofText hread
      exact hfrom

theorem fromGraph_of_ofPath {t : Files.Tree} {path : String} (h : ofPath config t path parser = .ok file) :
    FromGraph file := by
  unfold ofPath at h
  split at h
  · cases h
  · split at h
    · cases h
    · -- Only a file is read.
      unfold ofEntry at h
      split at h
      · split at h
        · cases h
        · exact fromGraph_of_ofFile h
      · cases h
      · cases h

/-- A dump in a directory is that in the file which the search found. -/
theorem ofDirectory_eq_ok_iff {t : Files.Tree} {directory : String} :
    ofDirectory config t directory parser = .ok file ↔
      ∃ l, Files.locate t config.fileName directory = .ok l ∧ ofPath config t l.path parser = .ok file := by
  unfold ofDirectory
  cases Files.locate t config.fileName directory with
  | error other => simp
  | ok l => simp

/-- However a dump was reached, it was read from a graph of nodes. -/
theorem Gives.fromGraph (h : Gives file) : FromGraph file := by
  cases h with
  | graph h =>
    obtain ⟨remarks, hread⟩ := exists_readDump_of_ofGraph h
    exact ⟨_, _, _, remarks, hread⟩
  | text h => exact fromGraph_of_ofText h
  | file h => exact fromGraph_of_ofFile h
  | path h => exact fromGraph_of_ofPath h
  | directory h =>
    obtain ⟨_, _, hpath⟩ := ofDirectory_eq_ok_iff.mp h
    exact fromGraph_of_ofPath hpath

theorem Gives.fits (h : Gives file) : file.content.Fits := by
  obtain ⟨_, _, _, _, hread⟩ := h.fromGraph
  exact (fits_of_readDump hread).1

end Reader

end Postmortem
