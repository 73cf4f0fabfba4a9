import Postmortem.Proofs.Remarks
set_option autoImplicit false

/-!
# Log: the warnings of a dump

The warnings of a dump are a log of what was not looked at: a line for each unread entry of the document, in order.
There are few places in the format where nothing is asked, so few forms of a line, and none of them takes a character
from the document.  The main statement is `warnings_log`.
-/

namespace Postmortem

open Postmortem.Node

/-! ## Where something is unread -/

/-- Whether a form has places below it where nothing is asked. -/
def Form.hasUnread : Form → Bool
  | .sequence item => item.hasUnread
  | .entity e => e ∈ [Entity.command, .commandBuffer, .queue, .device, .dump]
  | _ => false

/-- The rows of an entity that lead to such places. -/
def Entity.unreadRows (e : Entity) : List (String × Form) :=
  e.format.filter fun row => row.2 = .anything || row.2.hasUnread

theorem Entity.hasUnread_of_row (e : Entity) :
    ∀ row ∈ e.format, row.2 = .anything ∨ row.2.hasUnread = true → (Form.entity e).hasUnread = true := by
  cases e <;> decide

theorem Leads.hasUnread {α : Type} {graph : Graph α} {form target : Form} {node place : α} {address : Address}
    {location : List Step} (h : Leads graph form node address location target place)
    (htarget : target.hasUnread = true) : form.hasUnread = true :=
  h.upward (p := fun form => form.hasUnread = true) (by decide) (fun _ hitem => hitem)
    (fun e row hrow hinner => e.hasUnread_of_row row hrow (Or.inr hinner)) htarget

section

variable {α : Type} {graph : Graph α} {node : α} {o : Occurrence α}

theorem Unread.hasUnread {form : Form} (h : Unread graph form node o) : form.hasUnread = true := by
  apply h.leads.hasUnread
  exact o.entity.hasUnread_of_row _ (Entity.mem_format h.unasked) (Or.inl rfl)

/-- An unread entry of an entity stands in a row that leads to it. -/
theorem Unread.row {e : Entity} (h : Unread graph (.entity e) node o) :
    ∃ name inner, (name, inner) ∈ e.unreadRows ∧
      ((inner = .anything ∧ o.entity = e ∧ o.key = name ∧ o.place = [.key name]) ∨
        ∃ child own move earlier, Unread graph inner child own ∧
          o = own.below move ((Form.entity e).stepsTo name earlier)) := by
  obtain ⟨front, entry, back, _, name, _, ⟨hunasked, rfl⟩ | ⟨inner, own, hknown, hown, rfl⟩⟩ := unread_entity_iff.mp h
  · exact ⟨name, .anything, List.mem_filter.mpr ⟨Entity.mem_format hunasked, by simp⟩, Or.inl ⟨rfl, rfl, rfl, rfl⟩⟩
  · exact ⟨name, inner, List.mem_filter.mpr ⟨Entity.mem_format hknown, by simp [hown.hasUnread]⟩,
      Or.inr ⟨_, own, _, _, hown, rfl⟩⟩

/-- An unread entry of a sequence is below one of its elements. -/
theorem Unread.item {item : Form} (h : Unread graph (.sequence item) node o) :
    ∃ child own move number, Unread graph item child own ∧ o = own.below move [.index number] := by
  obtain ⟨front, child, back, own, _, hown, rfl⟩ := unread_sequence_iff.mp h
  exact ⟨child, own, _, front.length, hown, rfl⟩

/-- The keys of a command that are not looked at. -/
def commandKeys : List String := ["parameters", "internalState"]

/-- The listings of command buffers. -/
def listingKeys : List String := ["IncompleteCommandBuffers", "AllCommandBuffers"]

theorem Unread.of_command (h : Unread graph (.entity .command) node o) :
    o.entity = .command ∧ o.key ∈ commandKeys ∧ o.place = [.key o.key] := by
  obtain ⟨name, inner, hrow, ⟨_, hentity, rfl, hplace⟩ | ⟨_, own, _, _, hown, _⟩⟩ := h.row
  · have hrows : Entity.command.unreadRows = commandKeys.map fun key => (key, .anything) := by decide
    rw [hrows] at hrow
    obtain ⟨key, hkey, heq⟩ := List.mem_map.mp hrow
    obtain ⟨rfl, _⟩ := Prod.mk.inj heq
    exact ⟨hentity, hkey, hplace⟩
  · have hleaf : ∀ row ∈ Entity.command.unreadRows, row.2.hasUnread = false := by decide
    exact absurd hown.hasUnread (by simp [hleaf _ hrow])

theorem Unread.of_commandBuffer (h : Unread graph (.entity .commandBuffer) node o) :
    o.entity = .command ∧ o.key ∈ commandKeys ∧
      ∃ command, o.place = [.key "Commands", .index command, .key o.key] := by
  have hrows : Entity.commandBuffer.unreadRows = [("Commands", .sequence (.entity .command))] := by decide
  obtain ⟨name, inner, hrow, hrest⟩ := h.row
  rw [hrows] at hrow
  obtain ⟨rfl, rfl⟩ := Prod.mk.inj (List.mem_singleton.mp hrow)
  rcases hrest with ⟨hanything, _⟩ | ⟨_, own, _, _, hown, rfl⟩
  · exact absurd hanything (by simp)
  · obtain ⟨_, inner, _, command, hinner, rfl⟩ := hown.item
    obtain ⟨hentity, hkey, hplace⟩ := hinner.of_command
    refine ⟨hentity, hkey, command, ?_⟩
    simp [hplace, Form.stepsTo]

theorem Unread.of_queue (h : Unread graph (.entity .queue) node o) :
    o.entity = .queue ∧ o.key = "flags" ∧ o.place = [.key "flags"] := by
  have hrows : Entity.queue.unreadRows = [("flags", .anything)] := by decide
  obtain ⟨name, inner, hrow, hrest⟩ := h.row
  rw [hrows] at hrow
  obtain ⟨rfl, rfl⟩ := Prod.mk.inj (List.mem_singleton.mp hrow)
  rcases hrest with ⟨_, hentity, hkey, hplace⟩ | ⟨_, own, _, _, hown, _⟩
  · exact ⟨hentity, hkey, hplace⟩
  · exact absurd hown not_unread_anything

theorem Unread.of_device (h : Unread graph (.entity .device) node o) :
    (o.entity = .queue ∧ o.key = "flags" ∧ ∃ queue, o.place = [.key "Queues", .index queue, .key "flags"]) ∨
      (o.entity = .command ∧ o.key ∈ commandKeys ∧ ∃ listing ∈ listingKeys, ∃ buffer command,
        o.place = [.key listing, .index buffer, .key "Commands", .index command, .key o.key]) := by
  have hrows : Entity.device.unreadRows = ("Queues", .sequence (.entity .queue)) ::
      listingKeys.map fun listing => (listing, .sequence (.entity .commandBuffer)) := by decide
  obtain ⟨name, inner, hrow, hrest⟩ := h.row
  rw [hrows, List.mem_cons, List.mem_map] at hrow
  rcases hrow with heq | ⟨listing, hlisting, heq⟩
  · obtain ⟨rfl, rfl⟩ := Prod.mk.inj heq
    rcases hrest with ⟨hanything, _⟩ | ⟨_, own, _, _, hown, rfl⟩
    · exact absurd hanything (by simp)
    · obtain ⟨_, inner, _, queue, hinner, rfl⟩ := hown.item
      obtain ⟨hentity, hkey, hplace⟩ := hinner.of_queue
      exact Or.inl ⟨hentity, hkey, queue, by simp [hplace, Form.stepsTo]⟩
  · obtain ⟨rfl, rfl⟩ := Prod.mk.inj heq
    rcases hrest with ⟨hanything, _⟩ | ⟨_, own, _, _, hown, rfl⟩
    · exact absurd hanything (by simp)
    · obtain ⟨_, inner, _, buffer, hinner, rfl⟩ := hown.item
      obtain ⟨hentity, hkey, command, hplace⟩ := hinner.of_commandBuffer
      exact Or.inr ⟨hentity, hkey, listing, hlisting, buffer, command, by simp [hplace, Form.stepsTo]⟩

open Text.Numeral in
/-- An entity, a key and a path at which a value is not looked at. -/
inductive LoggedAt : Entity → String → String → Prop
  | systemInfo : LoggedAt .dump "SystemInfo" "SystemInfo"
  | flags (device queue : Nat) :
      LoggedAt .queue "flags" ("Device[" ++ decimal device ++ "].Queues[" ++ decimal queue ++ "].flags")
  | command (device buffer command : Nat) {listing key : String} (hlisting : listing ∈ listingKeys)
      (hkey : key ∈ commandKeys) :
      LoggedAt .command key
        ("Device[" ++ decimal device ++ "]." ++ listing ++ "[" ++ decimal buffer ++ "].Commands[" ++ decimal command
          ++ "]." ++ key)

open Text.Numeral in
theorem pathOf_flags (device queue : Nat) :
    pathOf [.key "Device", .index device, .key "Queues", .index queue, .key "flags"] =
      "Device[" ++ decimal device ++ "].Queues[" ++ decimal queue ++ "].flags" := by
  apply String.toList_inj.mp
  simp [pathOf, shownStep]

open Text.Numeral in
theorem pathOf_command (device buffer command : Nat) (listing key : String) :
    pathOf [.key "Device", .index device, .key listing, .index buffer, .key "Commands", .index command, .key key] =
      "Device[" ++ decimal device ++ "]." ++ listing ++ "[" ++ decimal buffer ++ "].Commands[" ++ decimal command
        ++ "]." ++ key := by
  apply String.toList_inj.mp
  simp [pathOf, shownStep]

/-- An unread entry of a dump has one of these paths. -/
theorem Unread.loggedAt (h : Unread graph (.entity .dump) node o) : LoggedAt o.entity o.key (pathOf o.place) := by
  have hrows : Entity.dump.unreadRows = [("SystemInfo", .anything), ("Device", .entity .device)] := by decide
  obtain ⟨name, inner, hrow, hrest⟩ := h.row
  rw [hrows, List.mem_cons, List.mem_singleton] at hrow
  rcases hrow with heq | heq
  · obtain ⟨rfl, rfl⟩ := Prod.mk.inj heq
    rcases hrest with ⟨_, hentity, hkey, hplace⟩ | ⟨_, own, _, _, hown, _⟩
    · rw [hentity, hkey, hplace]
      exact .systemInfo
    · exact absurd hown not_unread_anything
  · obtain ⟨rfl, rfl⟩ := Prod.mk.inj heq
    rcases hrest with ⟨hanything, _⟩ | ⟨_, own, _, device, hown, rfl⟩
    · exact absurd hanything (by simp)
    · rcases hown.of_device with ⟨hentity, hkey, queue, hplace⟩ |
        ⟨hentity, hkey, listing, hlisting, buffer, command, hplace⟩
      · have hpath := LoggedAt.flags device queue
        rw [← pathOf_flags] at hpath
        rw [Occurrence.entity_below, Occurrence.key_below, Occurrence.place_below, hentity, hkey, hplace]
        exact hpath
      · have hpath := LoggedAt.command device buffer command hlisting hkey
        rw [← pathOf_command] at hpath
        rw [Occurrence.entity_below, Occurrence.key_below, Occurrence.place_below, hentity, hplace]
        exact hpath

end

/-! ## Lines -/

/-- A text of printable ASCII characters, which has no line break of any kind. -/
def IsPlain (text : String) : Prop := ∀ c ∈ text.toList, 0x20 ≤ c.toNat ∧ c.toNat < 0x7f

instance (text : String) : Decidable (IsPlain text) := List.decidableBAll _ text.toList

theorem isPlain_append {a b : String} (ha : IsPlain a) (hb : IsPlain b) : IsPlain (a ++ b) := by
  intro c hc
  rw [String.toList_append, List.mem_append] at hc
  exact hc.elim (ha c) (hb c)

theorem isPlain_decimal (n : Nat) : IsPlain (Text.Numeral.decimal n) := by
  have hdigit : ∀ n < 10, 0x20 ≤ (Nat.digitChar n).toNat ∧ (Nat.digitChar n).toNat < 0x7f := by decide
  intro c hc
  rw [Text.Numeral.decimal, String.toList_ofList] at hc
  exact forall_mem_digits (p := fun c => 0x20 ≤ c.toNat ∧ c.toNat < 0x7f) (by decide) hdigit n c hc

theorem Entity.isPlain_label (e : Entity) : IsPlain e.label := by
  cases e <;> decide

theorem LoggedAt.isPlain {e : Entity} {key path : String} (h : LoggedAt e key path) : IsPlain key ∧ IsPlain path := by
  have hkeys : ∀ key ∈ commandKeys, IsPlain key := by decide
  have hlistings : ∀ listing ∈ listingKeys, IsPlain listing := by decide
  cases h with
  | systemInfo => decide
  | flags device queue =>
    refine ⟨by decide, ?_⟩
    have hdevice := isPlain_append (by decide : IsPlain "Device[") (isPlain_decimal device)
    have hqueue := isPlain_append (isPlain_append hdevice (by decide : IsPlain "].Queues[")) (isPlain_decimal queue)
    exact isPlain_append hqueue (by decide)
  | command device buffer command hlisting hkey =>
    refine ⟨hkeys _ hkey, ?_⟩
    have hdevice := isPlain_append (by decide : IsPlain "Device[") (isPlain_decimal device)
    have hlist := isPlain_append (isPlain_append hdevice (by decide : IsPlain "].")) (hlistings _ hlisting)
    have hbuffer := isPlain_append (isPlain_append hlist (by decide : IsPlain "[")) (isPlain_decimal buffer)
    have hcommand := isPlain_append (isPlain_append hbuffer (by decide : IsPlain "].Commands["))
      (isPlain_decimal command)
    exact isPlain_append (isPlain_append hcommand (by decide : IsPlain "].")) (hkeys _ hkey)

/-- The line about an unread entry. -/
def Occurrence.line {α : Type} (o : Occurrence α) : String :=
  "Ignored " ++ o.entity.label ++ " key '" ++ o.key ++ "' at " ++ pathOf o.place

section

variable {α : Type} {graph : Graph α} {node : α} {o : Occurrence α}

theorem Unread.line_eq (h : Unread graph (.entity .dump) node o) : o.remark.line "" = o.line := by
  obtain ⟨_, hleads⟩ := h.leads_value
  rw [Remark.line, Occurrence.line, ← hleads.render_eq]
  rfl

theorem Unread.isPlain_line (h : Unread graph (.entity .dump) node o) : IsPlain o.line := by
  obtain ⟨hkey, hpath⟩ := h.loggedAt.isPlain
  have hlabel := isPlain_append (by decide : IsPlain "Ignored ") o.entity.isPlain_label
  have hkeyed := isPlain_append (isPlain_append hlabel (by decide : IsPlain " key '")) hkey
  exact isPlain_append (isPlain_append hkeyed (by decide : IsPlain "' at ")) hpath

end

/-! ## The log -/

/-- The log of a document: its unread entries with a line for each. -/
structure IsLog {α : Type} (graph : Graph α) (root : α) (log : List (Occurrence α)) (lines : List String) : Prop where
  /-- an entry is in the log if the format leads to it and nothing is asked of its value -/
  complete : ∀ o, o ∈ log ↔ Unread graph (.entity .dump) root o
  /-- no entry is in the log twice -/
  once : log.Nodup
  /-- the entries are in the order of the document -/
  ordered : log.Pairwise fun o o' => o.way.Before o'.way
  lines_eq : lines = log.map Occurrence.line
  /-- the path in a line leads to the value of the entry -/
  leads : ∀ o ∈ log, ∃ child, Leads graph (.entity .dump) root o.way o.place .anything child
  paths : ∀ o ∈ log, LoggedAt o.entity o.key (pathOf o.place)
  plain : ∀ line ∈ lines, IsPlain line

section

variable {α : Type} {graph : Graph α}

theorem isLog_unreadIn (root : α) :
    IsLog graph root (unreadIn graph (.entity .dump) root)
      ((unreadIn graph (.entity .dump) root).map Occurrence.line) := by
  constructor
  · exact fun o => mem_unreadIn_iff
  · refine (pairwise_unreadIn (.entity .dump) root).imp ?_
    intro o o' hbefore heq
    rw [heq] at hbefore
    exact hbefore.ne rfl
  · exact pairwise_unreadIn (.entity .dump) root
  · rfl
  · exact fun o ho => (mem_unreadIn_iff.mp ho).leads_value
  · exact fun o ho => (mem_unreadIn_iff.mp ho).loggedAt
  · intro line hline
    obtain ⟨o, ho, rfl⟩ := List.mem_map.mp hline
    exact (mem_unreadIn_iff.mp ho).isPlain_line

/-- A dump without its warnings. -/
def DumpFile.silent (file : DumpFile) : DumpFile := { file with warnings := [] }

/-- The remarks of a dump that was read, as lines, are the lines about its unread entries. -/
theorem lines_of_readDump {root : α} {content : Dump} {remarks : List Remark}
    (h : readDump graph (some root) = .ok (content, remarks)) :
    remarks.map (·.line "") = (unreadIn graph (.entity .dump) root).map Occurrence.line := by
  rw [remarks_of_readDump h, List.map_map]
  apply List.map_congr_left
  intro o ho
  exact (mem_unreadIn_iff.mp ho).line_eq

/-- The warnings about some unread entries, if any are recorded. -/
def Config.linesOf (config : Config) (log : List (Occurrence α)) : List String :=
  if config.recordIgnored then log.map Occurrence.line else []

theorem warnings_eq_linesOf {config : Config} {root : α} {file : DumpFile}
    (h : Reader.ofGraph config graph (some root) = .ok file) :
    file.warnings = config.linesOf (unreadIn graph (.entity .dump) root) := by
  obtain ⟨content, remarks, hread, rfl⟩ := Reader.ofGraph_eq_ok_iff.mp h
  simp only [Config.linesOf, lines_of_readDump hread]

/-- Recorded warnings are the remarks of the reading. -/
theorem warnings_of_ofGraph {config : Config} {root : Option α} {file : DumpFile} (hrecorded : config.recordIgnored = true)
    (h : Reader.ofGraph config graph root = .ok file) :
    ∃ remarks, readDump graph root = .ok (file.content, remarks) ∧ file.warnings = remarks.map (·.line "") := by
  obtain ⟨content, remarks, hread, rfl⟩ := Reader.ofGraph_eq_ok_iff.mp h
  exact ⟨remarks, hread, if_pos hrecorded⟩

end

/-! ## Without warnings -/

namespace Reader

variable (config : Config)

/-- Whether warnings are recorded changes nothing else about the reading of a document. -/
theorem ofGraph_quiet {α : Type} (graph : Graph α) (root : Option α) :
    ofGraph { config with recordIgnored := false } graph root = (ofGraph config graph root).map DumpFile.silent := by
  unfold ofGraph
  cases readDump graph root with
  | error refusal => rfl
  | ok result => rfl

variable (parser : Yaml.Parser)

theorem ofText_quiet (text source : String) :
    ofText { config with recordIgnored := false } text source parser =
      (ofText config text source parser).map DumpFile.silent := by
  unfold ofText
  cases document text source parser with
  | error fault => rfl
  | ok document => exact ofGraph_quiet config document.graph document.root

theorem ofFile_quiet (path : String) (octets : List UInt8) :
    ofFile { config with recordIgnored := false } path octets parser =
      (ofFile config path octets parser).map DumpFile.silent := by
  have hdecode : decode { config with recordIgnored := false } path octets = decode config path octets := rfl
  unfold ofFile
  rw [hdecode]
  cases decode config path octets with
  | error fault => rfl
  | ok text =>
    dsimp only
    rw [ofText_quiet]
    cases ofText config text path parser with
    | error fault => rfl
    | ok file => rfl

theorem ofPath_quiet (t : Files.Tree) (path : String) :
    ofPath { config with recordIgnored := false } t path parser =
      (ofPath config t path parser).map DumpFile.silent := by
  unfold ofPath
  cases t.place path with
  | error fault => rfl
  | ok l =>
    dsimp only
    cases t.target l with
    | error fault => rfl
    | ok entry =>
      dsimp only
      unfold ofEntry
      split
      · split
        · rfl
        · exact ofFile_quiet config parser l.path _
      · rfl
      · rfl

theorem ofDirectory_quiet (t : Files.Tree) (directory : String) :
    ofDirectory { config with recordIgnored := false } t directory parser =
      (ofDirectory config t directory parser).map DumpFile.silent := by
  unfold ofDirectory
  dsimp only
  cases Files.locate t config.fileName directory with
  | error fault => rfl
  | ok l => exact ofPath_quiet config parser t l.path

end Reader

/-- The warnings of a dump are the lines of the log of its document, if they are recorded.  If not, reading ends in the
same fault or in the same dump without warnings. -/
theorem warnings_log {α : Type} (config : Config) (graph : Graph α) (root : Option α) :
    (∀ file, Reader.ofGraph { config with recordIgnored := true } graph root = .ok file →
      ∃ node log, root = some node ∧ IsLog graph node log file.warnings) ∧
    Reader.ofGraph { config with recordIgnored := false } graph root =
      (Reader.ofGraph { config with recordIgnored := true } graph root).map DumpFile.silent := by
  refine ⟨?_, Reader.ofGraph_quiet { config with recordIgnored := true } graph root⟩
  intro file hread
  obtain ⟨remarks, hdump, hwarnings⟩ := warnings_of_ofGraph rfl hread
  cases root with
  | none => exact absurd hdump (by simp [readDump])
  | some node =>
    refine ⟨node, unreadIn graph (.entity .dump) node, rfl, ?_⟩
    rw [hwarnings, lines_of_readDump hdump]
    exact isLog_unreadIn node

/-- The first device gives its queues again, and its second queue is the only one of the second device too. -/
def requeued : Graph Nat
  | 0 => .map [(1, 2), (3, 4), (3, 5)]
  | 1 => .scalar "SystemInfo"
  | 2 => .map [(2, 2)]
  | 3 => .scalar "Device"
  | 4 => .map [(6, 7), (6, 8)]
  | 5 => .map [(6, 8)]
  | 6 => .scalar "Queues"
  | 7 => .sequence [9]
  | 8 => .sequence [10]
  | 9 => .map [(11, 1), (11, 0)]
  | 10 => .map [(11, 3)]
  | 11 => .scalar "flags"
  | _ => .scalar ""

/-- Flags in queues that are given again or shared are logged, those that are given twice are logged twice, and nothing
is logged about the map under a key that is not looked at. -/
theorem warnings_log_requeued :
    ∃ file log, Reader.ofGraph {} requeued (some 0) = .ok file ∧ file.warnings = [
        "Ignored top level key 'SystemInfo' at SystemInfo",
        "Ignored Queue key 'flags' at Device[0].Queues[0].flags",
        "Ignored Queue key 'flags' at Device[0].Queues[0].flags",
        "Ignored Queue key 'flags' at Device[0].Queues[0].flags",
        "Ignored Queue key 'flags' at Device[1].Queues[0].flags"] ∧
      IsLog requeued 0 log file.warnings ∧
      Reader.ofGraph { recordIgnored := false } requeued (some 0) = .ok file.silent := by
  have hread : ∃ file, Reader.ofGraph {} requeued (some 0) = .ok file ∧ file.warnings = [
        "Ignored top level key 'SystemInfo' at SystemInfo",
        "Ignored Queue key 'flags' at Device[0].Queues[0].flags",
        "Ignored Queue key 'flags' at Device[0].Queues[0].flags",
        "Ignored Queue key 'flags' at Device[0].Queues[0].flags",
        "Ignored Queue key 'flags' at Device[1].Queues[0].flags"] := by
    refine ⟨{ content := { devices := [{ queues := [{}] }, { queues := [{}] }] }, warnings := _ }, ?_, rfl⟩
    decide +kernel
  obtain ⟨file, hok, hwarnings⟩ := hread
  obtain ⟨hlog, hquiet⟩ := warnings_log {} requeued (some 0)
  obtain ⟨node, log, hroot, hislog⟩ := hlog file hok
  obtain rfl := Option.some.inj hroot
  refine ⟨file, log, hok, hwarnings, hislog, ?_⟩
  rw [hquiet, hok]
  rfl

end Postmortem
