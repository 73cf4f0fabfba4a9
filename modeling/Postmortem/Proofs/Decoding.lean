import Postmortem.Proofs.Encoding
import Postmortem.Proofs.HandleToken
import Postmortem.Proofs.Slots
import Postmortem.Reader
set_option autoImplicit false

/-!
# Decoding: a dump is read from whatever writes it

Reading a node that writes a dump gives back the dump, field by field and without a remark.  The rows of the schema are
matched with the fields of the presentation one by one; what is said about a row depends on the kind of its value only.
-/

namespace Postmortem

open Postmortem.Node
open Postmortem.Text

section

variable {α : Type} {graph : Graph α}

/-! ## Values -/

section

variable {e : Entity} {lower : LowerReader α e}

theorem readText_of_writesText {text : String} {node : α} (h : WritesText graph text node) :
    readText graph node = .ok (text, []) := by
  rw [readText, show graph node = _ from h]
  rfl

theorem readContent_of_writesText {text : String} {node : α} (h : WritesText graph text node) :
    readContent graph lower .text node = .ok (text, []) :=
  readText_of_writesText h

theorem readContent_of_writesVersion {v : Version} {node : α} (h : WritesVersion graph v node) :
    readContent graph lower .version node = .ok (v, []) := by
  rw [readContent, readText, show graph node = _ from h]
  rfl

theorem readContent_of_writesNumber {width : Width} {n : Nat} (hn : n < width.limit) {node : α}
    (h : WritesNumber graph n node) : readContent graph lower (.uint width) node = .ok (n, []) := by
  have hread : (graph node).readWith (.uint width) (readUint width) = .ok n := by
    rw [show graph node = _ from h]
    exact readUint_decimal hn
  exact Outcome.ofExcept_eq_ok_iff.mpr ⟨hread, rfl⟩

theorem readContent_of_writesFlag {value : Bool} {node : α} (h : WritesFlag graph value node) :
    readContent graph lower .flag node = .ok (value, []) := by
  have hread : (graph node).readWith .bool readBool = .ok value := by
    rw [show graph node = _ from h]
    change readBool (if value then "true" else "false") = .ok value
    cases value <;> decide +kernel
  exact Outcome.ofExcept_eq_ok_iff.mpr ⟨hread, rfl⟩

theorem readContent_of_writesHandle {h : Handle} (hfits : h.Fits) {node : α} (hnode : WritesHandle graph h node) :
    readContent graph lower .handle node = .ok (h, []) := by
  have hread : (graph node).readWith .string readHandle = .ok h := by
    rw [show graph node = _ from hnode]
    change readHandle h.toText = .ok h
    rw [readHandle, Handle.parse?_toText hfits.value hfits.name]
  exact Outcome.ofExcept_eq_ok_iff.mpr ⟨hread, rfl⟩

end

/-- A list is read from a sequence whose elements are read to its members. -/
theorem readSequence_of_writesList {τ : Type} {read : α → Outcome τ} {writes : τ → α → Prop} {values : List τ}
    (hread : ∀ value ∈ values, ∀ node, writes value node → read node = .ok (value, [])) {node : α}
    (h : WritesList graph writes values node) : readSequence graph read node = .ok (values, []) := by
  obtain ⟨items, hnode, hitems⟩ := h
  have hall : ∀ index, readItems read index items = .ok (values, []) := by
    clear hnode
    induction hitems with
    | nil => exact fun _ => rfl
    | @cons value _ _ _ hfirst _ ih =>
      intro index
      rw [List.forall_mem_cons] at hread
      rw [readItems]
      refine Outcome.andThen_eq_ok_iff.mpr ⟨value, [], [], ?_, ?_, rfl⟩
      · exact Outcome.below_eq_ok_iff.mpr ⟨[], hread.1 _ hfirst, rfl⟩
      · exact Outcome.map_eq_ok_iff.mpr ⟨_, ih hread.2 (index + 1), rfl⟩
  unfold readSequence
  rw [hnode]
  exact hall 0

theorem readContent_of_writesTexts {e : Entity} {lower : LowerReader α e} {texts : List String} {node : α}
    (h : WritesList graph (WritesText graph) texts node) : readContent graph lower .texts node = .ok (texts, []) :=
  readSequence_of_writesList (fun _ _ _ hnode => readText_of_writesText hnode) h

/-- Settings that are not given twice are read in order. -/
theorem readSettings_of_writesSettings {settings : List (String × String)}
    (hnodup : (settings.map Prod.fst).Nodup) {node : α} (h : WritesSettings graph settings node) :
    readSettings graph node = .ok (settings, []) := by
  obtain ⟨entries, hnode, hentries⟩ := h
  -- Whether a setting is new depends on those read before it, so they are part of the induction.
  have hall : ∀ seen : List (String × String), ((seen ++ settings).map Prod.fst).Nodup →
      readSettingEntries graph seen entries = .ok (seen ++ settings, []) := by
    clear hnode hnodup
    induction hentries with
    | nil =>
      intro seen _
      rw [List.append_nil]
      rfl
    | @cons setting entry rest others hfirst _ ih =>
      intro seen hseen
      obtain ⟨key, child⟩ := entry
      obtain ⟨name, text⟩ := setting
      have hkey : graph key = .scalar name := hfirst.1
      have hchild : graph child = .scalar text := hfirst.2
      have hnew : ¬ (seen.lookup name).isSome = true := by
        rw [List.lookup_isSome_iff]
        rintro ⟨pair, hpair, hname⟩
        rw [List.map_append, List.nodup_append] at hseen
        exact hseen.2.2 pair.1 (List.mem_map_of_mem hpair) name (by simp) (beq_iff_eq.mp hname).symm
      simp only [readSettingEntries, hkey, if_neg hnew]
      refine Outcome.andThen_eq_ok_iff.mpr ⟨text, [], [], ?_, ?_, rfl⟩
      · refine Outcome.below_eq_ok_iff.mpr ⟨[], ?_, rfl⟩
        rw [readText, hchild]
        rfl
      · have happend : seen ++ (name, text) :: rest = (seen ++ [(name, text)]) ++ rest := by simp
        rw [happend] at hseen ⊢
        exact ih _ hseen
  unfold readSettings
  rw [hnode]
  exact hall [] hnodup

/-! ## Rows and fields -/

section

variable {e : Entity} (graph) (lower : LowerReader α e)

/-- A row of the schema takes its slot from one value to another whenever a field holds of the values under its
key. -/
structure Covers (start result : e.Value) (row : String × Rule e) (field : Field α) : Prop where
  key : row.1 = field.key
  fills : ∀ nodes, field.holds nodes →
    row.2.Fills graph lower row.1 (row.2.slot.get start) nodes (row.2.slot.get result) []

variable {graph} {lower} {start result : e.Value} {key : String}

/-- A field that is written once at most covers a row whose rule reads it back. -/
theorem covers_once {rule : Rule e} {writes : rule.Part → α → Prop}
    (hread : ∀ node, writes (rule.slot.get result) node →
      rule.read graph lower key node (rule.slot.get start) = .ok (rule.slot.get result, [])) :
    Covers graph lower start result (key, rule)
      (.once key (rule.slot.get start) (rule.slot.get result) writes) := by
  refine ⟨rfl, ?_⟩
  rintro nodes (⟨rfl, hdefault⟩ | ⟨node, rfl, hnode⟩)
  · exact Rule.fills_nil_iff.mpr ⟨hdefault.symm, rfl⟩
  · exact Rule.fills_cons_iff.mpr ⟨_, [], [], hread node hnode, .done _, rfl⟩

theorem covers_store {content : Content e} {slot : Slot e.Value content.Value}
    {writes : content.Value → α → Prop}
    (hread : ∀ node, writes (slot.get result) node →
      readContent graph lower content node = .ok (slot.get result, [])) :
    Covers graph lower start result (key, .store content slot)
      (.once key (slot.get start) (slot.get result) writes) := by
  apply covers_once
  intro node hnode
  exact Outcome.below_eq_ok_iff.mpr ⟨[], hread node hnode, rfl⟩

theorem covers_many {item : Entity} {h : item.rank < e.rank} {slot : Slot e.Value (List item.Value)}
    {writes : item.Value → α → Prop}
    (hread : ∀ value ∈ slot.get result, ∀ node, writes value node →
      lower item h item.initial node = .ok (value, [])) :
    Covers graph lower start result (key, .store (.many item h) slot)
      (.once key (slot.get start) (slot.get result) (WritesList graph writes)) :=
  covers_store fun _ hnode => readSequence_of_writesList hread hnode

theorem covers_merge {part : Entity} {h : part.rank < e.rank} {slot : Slot e.Value part.Value}
    {writes : part.Value → α → Prop}
    (hread : ∀ node, writes (slot.get result) node →
      lower part h (slot.get start) node = .ok (slot.get result, [])) :
    Covers graph lower start result (key, .merge part h slot)
      (.once key (slot.get start) (slot.get result) writes) := by
  apply covers_once
  intro node hnode
  exact Outcome.below_eq_ok_iff.mpr ⟨[], hread node hnode, rfl⟩

theorem covers_append {item : Entity} {h : item.rank < e.rank} {slot : Slot e.Value (List item.Value)}
    {writes : item.Value → α → Prop} (hstart : slot.get start = [])
    (hread : ∀ value ∈ slot.get result, ∀ node, writes value node →
      lower item h item.initial node = .ok (value, [])) :
    Covers graph lower start result (key, .append item h slot) (.each key (slot.get result) writes) := by
  have hall : ∀ (values : List item.Value) (nodes : List α), List.Forall₂ writes values nodes →
      (∀ value ∈ values, ∀ node, writes value node → lower item h item.initial node = .ok (value, [])) →
      ∀ front : List item.Value,
        (Rule.append item h slot).Fills graph lower key front nodes (front ++ values) [] := by
    intro values nodes hnodes
    induction hnodes with
    | nil =>
      intro _ front
      rw [List.append_nil]
      exact .done _
    | @cons value node rest others hfirst _ ih =>
      intro hvalues front
      rw [List.forall_mem_cons] at hvalues
      refine Rule.fills_cons_iff.mpr ⟨front ++ [value], [], [], ?_, ?_, rfl⟩
      · refine Outcome.map_eq_ok_iff.mpr ⟨value, ?_, rfl⟩
        refine Outcome.below_eq_ok_iff.mpr ⟨[], ?_, rfl⟩
        exact Outcome.below_eq_ok_iff.mpr ⟨[], hvalues.1 node hfirst, rfl⟩
      · have happend : front ++ value :: rest = (front ++ [value]) ++ rest := by simp
        rw [happend]
        exact ih hvalues.2 _
  refine ⟨rfl, ?_⟩
  intro nodes hnodes
  have hfills := hall _ nodes hnodes hread (slot.get start)
  rw [hstart, List.nil_append, ← hstart] at hfills
  exact hfills

theorem covers_ignore : Covers graph lower start result (key, .ignore) (.never key) := by
  refine ⟨rfl, ?_⟩
  rintro nodes rfl
  exact .done _

/-- A map whose fields cover the rows of the schema is read to what its fields write. -/
theorem readMap_of_isMap {fields : List (Field α)}
    (hrows : List.Forall₂ (Covers graph lower start result) e.schema fields)
    (hcheck : e.check result = .ok ()) {node : α} (h : IsMap graph fields node) :
    readMap graph lower start node = .ok (result, []) := by
  obtain ⟨entries, hnode, hkeys, hholds⟩ := h
  have hknown : ∀ entry ∈ entries, ∃ name rule, graph entry.1 = .scalar name ∧ e.rule? name = some rule := by
    intro entry hentry
    obtain ⟨field, hfield, hname⟩ := hkeys entry hentry
    obtain ⟨row, hrow, hcovers⟩ := exists_of_forall₂_right hrows hfield
    exact ⟨field.key, row.2, hname, Entity.rule?_of_mem_schema (hcovers.key ▸ hrow)⟩
  have hfills : ∀ key rule, e.rule? key = some rule →
      rule.Fills graph lower key (rule.slot.get start) (valuesUnder graph key entries) (rule.slot.get result) [] := by
    intro key rule hrule
    obtain ⟨field, hfield, hcovers⟩ := exists_of_forall₂_left hrows (Entity.mem_schema_of_rule? hrule)
    have hkey : key = field.key := hcovers.key
    have hvalues := hholds field hfield
    rw [← hkey] at hvalues
    exact hcovers.fills _ hvalues
  unfold readMap
  rw [hnode]
  refine Outcome.andThen_eq_ok_iff.mpr ⟨result, [], [], readEntries_of_fills hknown hfills, ?_, rfl⟩
  unfold checked
  rw [hcheck]
  rfl

end

/-! ## Entities -/

/-- The reader of the entities that one entity holds. -/
abbrev lowerReader (graph : Graph α) (e : Entity) : LowerReader α e :=
  fun item _ start node => readEntity graph item start node

/-- An entity is read from a map whose fields cover the rows of its schema. -/
theorem readEntity_of_isMap {e : Entity} {result : e.Value} {fields : List (Field α)}
    (hrows : List.Forall₂ (Covers graph (lowerReader graph e) e.initial result) e.schema fields)
    (hcheck : e.check result = .ok ()) {node : α} (h : IsMap graph fields node) :
    readEntity graph e e.initial node = .ok (result, []) := by
  rw [readEntity_eq]
  exact readMap_of_isMap hrows hcheck h

theorem readEntity_semaphoreInfo {s : SemaphoreInfo} (hs : s.Fits) {node : α} (h : s.PresentedBy graph node) :
    readEntity graph .semaphoreInfo Entity.semaphoreInfo.initial node = .ok (s, []) := by
  refine readEntity_of_isMap ?_ rfl h
  refine .cons (covers_store fun _ => readContent_of_writesHandle hs.handle) ?_
  refine .cons (covers_store fun _ => readContent_of_writesText) ?_
  refine .cons (covers_store fun _ => readContent_of_writesNumber hs.value) ?_
  refine .cons (covers_store fun _ => readContent_of_writesNumber hs.lastValue) ?_
  exact .nil

theorem readEntity_command {c : Command} (hc : c.Fits) {node : α} (h : c.PresentedBy graph node) :
    readEntity graph .command Entity.command.initial node = .ok (c, []) := by
  refine readEntity_of_isMap ?_ rfl h
  refine .cons (covers_store fun _ => readContent_of_writesNumber hc.id) ?_
  refine .cons (covers_store fun _ => readContent_of_writesNumber hc.checkpointValue) ?_
  refine .cons (covers_store fun _ => readContent_of_writesText) ?_
  refine .cons (covers_store fun _ => readContent_of_writesText) ?_
  refine .cons (covers_store fun _ => readContent_of_writesText) ?_
  refine .cons covers_ignore ?_
  refine .cons covers_ignore ?_
  exact .nil

theorem readEntity_applicationInfo {a : Application} (ha : a.Fits) {node : α} (h : a.PresentedBy graph node) :
    readEntity graph .applicationInfo Entity.applicationInfo.initial node = .ok (a, []) := by
  refine readEntity_of_isMap ?_ rfl h
  refine .cons (covers_store fun _ => readContent_of_writesText) ?_
  refine .cons (covers_store fun _ => readContent_of_writesNumber ha.version) ?_
  refine .cons (covers_store fun _ => readContent_of_writesText) ?_
  refine .cons (covers_store fun _ => readContent_of_writesNumber ha.engineVersion) ?_
  refine .cons (covers_store fun _ => readContent_of_writesVersion) ?_
  exact .nil

theorem readEntity_submitInfo {s : SubmitInfo} (hs : s.Fits) {node : α} (h : s.PresentedBy graph node) :
    readEntity graph .submitInfo Entity.submitInfo.initial node = .ok (s, []) := by
  refine readEntity_of_isMap ?_ rfl h
  refine .cons (covers_store fun _ => readContent_of_writesNumber hs.id) ?_
  refine .cons (covers_store fun _ => readContent_of_writesText) ?_
  refine .cons (covers_store fun _ => readContent_of_writesTexts) ?_
  refine .cons (covers_many fun x hx _ => readEntity_semaphoreInfo (hs.signalSemaphores x hx)) ?_
  refine .cons (covers_many fun x hx _ => readEntity_semaphoreInfo (hs.waitSemaphores x hx)) ?_
  exact .nil

theorem readEntity_commandBuffer {b : CommandBuffer} (hb : b.Fits) {node : α} (h : b.PresentedBy graph node) :
    readEntity graph .commandBuffer Entity.commandBuffer.initial node = .ok (b, []) := by
  refine readEntity_of_isMap ?_ rfl h
  refine .cons (covers_store fun _ => readContent_of_writesText) ?_
  refine .cons (covers_store fun _ => readContent_of_writesHandle hb.handle) ?_
  refine .cons (covers_store fun _ => readContent_of_writesHandle hb.commandPool) ?_
  refine .cons (covers_store fun _ => readContent_of_writesHandle hb.queue) ?_
  refine .cons (covers_store fun _ => readContent_of_writesHandle hb.fence) ?_
  refine .cons (covers_store fun _ => readContent_of_writesNumber hb.submitInfoId) ?_
  refine .cons (covers_store fun _ => readContent_of_writesText) ?_
  refine .cons (covers_store fun _ => readContent_of_writesFlag) ?_
  refine .cons (covers_store fun _ => readContent_of_writesNumber hb.beginValue) ?_
  refine .cons (covers_store fun _ => readContent_of_writesNumber hb.endValue) ?_
  refine .cons (covers_store fun _ => readContent_of_writesNumber hb.topCheckpointValue) ?_
  refine .cons (covers_store fun _ => readContent_of_writesNumber hb.bottomCheckpointValue) ?_
  refine .cons (covers_store fun _ => readContent_of_writesNumber hb.lastStartedCommand) ?_
  refine .cons (covers_store fun _ => readContent_of_writesNumber hb.lastCompletedCommand) ?_
  refine .cons (covers_many fun x hx _ => readEntity_command (hb.commands x hx)) ?_
  exact .nil

theorem readEntity_apiInstance {i : Instance} (hi : i.Fits) {node : α} (h : i.PresentedBy graph node) :
    readEntity graph .apiInstance Entity.apiInstance.initial node = .ok (i, []) := by
  refine readEntity_of_isMap ?_ rfl h
  refine .cons (covers_store fun _ => readContent_of_writesHandle hi.handle) ?_
  refine .cons (covers_merge fun _ => readEntity_applicationInfo hi.application) ?_
  refine .cons (covers_store fun _ => readContent_of_writesTexts) ?_
  exact .nil

theorem readEntity_submit {s : Submit} (hs : s.Fits) {node : α} (h : s.PresentedBy graph node) :
    readEntity graph .submit Entity.submit.initial node = .ok (s, []) := by
  refine readEntity_of_isMap ?_ rfl h
  refine .cons (covers_store fun _ => readContent_of_writesNumber hs.id) ?_
  refine .cons (covers_many fun x hx _ => readEntity_submitInfo (hs.infos x hx)) ?_
  exact .nil

theorem readEntity_queue {q : Queue} (hq : q.Fits) {node : α} (h : q.PresentedBy graph node) :
    readEntity graph .queue Entity.queue.initial node = .ok (q, []) := by
  refine readEntity_of_isMap ?_ rfl h
  refine .cons (covers_store fun _ => readContent_of_writesHandle hq.handle) ?_
  refine .cons (covers_store fun _ => readContent_of_writesNumber hq.familyIndex) ?_
  refine .cons (covers_store fun _ => readContent_of_writesNumber hq.index) ?_
  refine .cons covers_ignore ?_
  refine .cons (covers_many fun x hx _ => readEntity_submit (hq.submits x hx)) ?_
  exact .nil

theorem check_device {d : Device} (hd : d.Fits) : Entity.device.check d = .ok () := by
  change Device.check d = .ok ()
  unfold Device.check
  rcases hd.oneListing with h | h
  · simp [h]
  · simp [h]

theorem readEntity_device {d : Device} (hd : d.Fits) {node : α} (h : d.PresentedBy graph node) :
    readEntity graph .device Entity.device.initial node = .ok (d, []) := by
  refine readEntity_of_isMap ?_ (check_device hd) h
  refine .cons (covers_store fun _ => readContent_of_writesHandle hd.handle) ?_
  refine .cons (covers_store fun _ => readContent_of_writesText) ?_
  refine .cons (covers_store fun _ => readContent_of_writesVersion) ?_
  refine .cons (covers_store fun _ => readContent_of_writesVersion) ?_
  refine .cons (covers_store fun _ => readContent_of_writesNumber hd.vendorId) ?_
  refine .cons (covers_store fun _ => readContent_of_writesNumber hd.deviceId) ?_
  refine .cons (covers_many fun x hx _ => readEntity_queue (hd.queues x hx)) ?_
  refine .cons (covers_many fun x hx _ => readEntity_commandBuffer (hd.incompleteCommandBuffers x hx)) ?_
  refine .cons (covers_many fun x hx _ => readEntity_commandBuffer (hd.allCommandBuffers x hx)) ?_
  refine .cons (covers_store fun _ => readContent_of_writesTexts) ?_
  exact .nil

theorem readEntity_dump {d : Dump} (hd : d.Fits) {node : α} (h : d.PresentedBy graph node) :
    readEntity graph .dump Entity.dump.initial node = .ok (d, []) := by
  refine readEntity_of_isMap ?_ rfl h
  refine .cons (covers_store fun _ => readContent_of_writesText) ?_
  refine .cons (covers_store fun _ => readContent_of_writesText) ?_
  refine .cons (covers_store fun _ => readContent_of_writesText) ?_
  refine .cons (covers_store fun _ => readSettings_of_writesSettings hd.settings) ?_
  refine .cons covers_ignore ?_
  refine .cons (covers_store fun _ => readEntity_apiInstance hd.inst) ?_
  refine .cons (covers_append rfl fun x hx _ => readEntity_device (hd.devices x hx)) ?_
  exact .nil

/-! ## Dumps -/

theorem readDump_of_presentedBy {d : Dump} (hd : d.Fits) {node : α} (h : d.PresentedBy graph node) :
    readDump graph (some node) = .ok (d, []) :=
  readEntity_dump hd h

/-- A dump that can be written is read from every node that writes it: each field of each entity is what it was, each
list has its members in order, and there is nothing to warn of. -/
theorem ofGraph_of_presentedBy (config : Config) {d : Dump} (hd : d.Fits) {node : α}
    (h : d.PresentedBy graph node) : Reader.ofGraph config graph (some node) = .ok { content := d } := by
  unfold Reader.ofGraph
  rw [readDump_of_presentedBy hd h]
  cases config.recordIgnored <;> rfl

end

/-- A dump with something in each of its entities. -/
def fullDump : Dump :=
  { version := "1.3", startTime := "12:00", settings := [("trace", "on"), ("dump", "all")]
    inst := { handle := ⟨0x7f00, "VkInstance"⟩, application := { name := "app", apiVersion := ⟨"1.3.0"⟩ } }
    devices := [
      { handle := ⟨0x10, "gpu"⟩, vendorId := 0x10de, extensions := ["a", "b"]
        queues := [
          { handle := ⟨0x20, "queue"⟩, index := 1
            submits := [
              { id := 4
                infos := [
                  { id := 9, commandBuffers := ["0x30 [cb]"]
                    signalSemaphores := [{ handle := ⟨0x40, "s"⟩, value := 18446744073709551615 }]
                    waitSemaphores := [{ handle := ⟨0x41, "w"⟩, lastValue := 3 }] }] }] }]
        allCommandBuffers := [
          { handle := ⟨0x30, "cb"⟩, queue := ⟨0x20, "queue"⟩, simultaneousUse := true, beginValue := 1
            endValue := 4294967295, commands := [{ id := 1, name := "vkCmdDraw", message := "no: it isn't" }] }] },
      { name := "second" }] }

theorem ofGraph_of_presentedBy_fullDump :
    fullDump.Fits ∧ fullDump.PresentedBy Tree.shape fullDump.toTree ∧
      Reader.ofGraph {} Tree.shape (some fullDump.toTree) = .ok { content := fullDump } := by
  have hfits : fullDump.Fits := by decide +kernel
  exact ⟨hfits, fullDump.presentedBy_toTree, ofGraph_of_presentedBy {} hfits fullDump.presentedBy_toTree⟩

end Postmortem
