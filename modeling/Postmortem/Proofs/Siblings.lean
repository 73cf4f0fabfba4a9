import Postmortem.Proofs.RepeatedKeys
import Postmortem.Proofs.SitedReading
set_option autoImplicit false

/-!
# Siblings: what is read does not depend on what is read beside it

A reader starts anew for each device and for each element of a sequence, and hands on nothing but the warnings so far.
So a device is read as in a document that holds nothing else, and where it stands shows in the paths that are reported
and nowhere else.  The main statement is `siblings_independent`.
-/

namespace Postmortem

open Postmortem.Node

/-! ## Documents with one entry -/

/-- The shape with its nodes renamed. -/
def Node.Shape.image {α β : Type} (f : α → β) : Shape α → Shape β
  | .scalar text => .scalar text
  | .sequence items => .sequence (items.map f)
  | .map entries => .map (entries.map fun entry => (f entry.1, f entry.2))

/-- The document whose root, a new node, holds one entry of another document and nothing else. -/
def onlyEntry {α : Type} (graph : Graph α) (entry : α × α) : Graph (Option α)
  | none => .map [(some entry.1, some entry.2)]
  | some node => (graph node).image some

theorem Node.Shape.matches_image {α β : Type} {r : α → β → Prop} {f : α → β} (h : ∀ node, r node (f node))
    (shape : Shape α) : shape.Matches r (shape.image f) := by
  cases shape with
  | scalar text => exact .scalar text
  | sequence items =>
    refine .sequence (List.forall₂_map_right_iff.mpr ?_)
    exact List.forall₂_same.mpr fun node _ => h node
  | map entries =>
    refine .map (List.forall₂_map_right_iff.mpr ?_)
    exact List.forall₂_same.mpr fun entry _ => ⟨h entry.1, h entry.2⟩

section

variable {α : Type} {graph : Graph α}

theorem alike_onlyEntry (entry : α × α) (levels : Nat) (node : α) :
    Alike graph (onlyEntry graph entry) levels node (some node) := by
  induction levels generalizing node with
  | zero => trivial
  | succ levels ih => exact Shape.matches_image ih (graph node)

/-- A document with one device is read as the device is by itself, one step below its root and number. -/
theorem readDump_onlyEntry {key child : α} (hkey : graph key = .scalar "Device") :
    readDump (onlyEntry graph (key, child)) (some none) =
      (((readEntity graph .device Entity.device.initial child).below (.index 0)).below (.key "Device")).map
        fun (d : Device) => ({ devices := [d] } : Dump) := by
  have hroot : onlyEntry graph (key, child) none = .map [(some key, some child)] := rfl
  have hname : onlyEntry graph (key, child) (some key) = .scalar "Device" := by rw [onlyEntry, hkey, Shape.image]
  have hrule : Entity.dump.rule? "Device"
      = some (.append .device (by decide) ⟨Dump.devices, fun v (s : Dump) => { s with devices := v }⟩) := rfl
  have hchild : readEntity (onlyEntry graph (key, child)) .device Entity.device.initial (some child) =
      readEntity graph .device Entity.device.initial child :=
    (readEntity_congr .device Entity.device.initial (alike_onlyEntry _ _ child)).symm
  have hread : readDump (onlyEntry graph (key, child)) (some none) =
      readEntity (onlyEntry graph (key, child)) .dump Entity.dump.initial none := rfl
  rw [hread, readEntity_eq, readMap, hroot]
  dsimp only
  simp only [readEntries, hname, hrule, applyRule, hchild]
  cases readEntity graph .device Entity.device.initial child with
  | error refusal => rfl
  | ok result =>
    simp only [Outcome.below, Outcome.map, Outcome.andThen, Outcome.pure, checked, Entity.check, List.append_nil]
    rfl

/-! ## Devices -/

/-- The path of a device, by its number. -/
def devicePath (number : Nat) : String := indexPath "Device" number

/-- A location below a device is shown behind the path of the device. -/
theorem render_device (number : Nat) (rest : List Step) :
    render "" (.key "Device" :: .index number :: rest) = devicePath number ++ shownBehind rest := by
  have hne : devicePath number ≠ "" := by
    intro h
    have hlength := congrArg String.length h
    simp [devicePath, indexPath] at hlength
  exact render_eq_append hne rest

/-- The entry at a place of one list is related to the entry at the same place of the other. -/
theorem exists_getElem?_of_forall₂ {β γ : Type} {r : β → γ → Prop} {front back : List β} {x : β} {list : List γ}
    (h : List.Forall₂ r (front ++ x :: back) list) : ∃ y, list[front.length]? = some y ∧ r x y := by
  induction front generalizing list with
  | nil =>
    cases h with
    | cons hfirst _ => exact ⟨_, rfl, hfirst⟩
  | cons _ rest ih =>
    cases h with
    | cons _ hrest =>
      obtain ⟨y, hy, hxy⟩ := ih hrest
      exact ⟨y, hy, hxy⟩

variable {root key child : α} {front back : List (α × α)}

/-- The device with a number is what its node is read to by itself. -/
theorem exists_device {content : Dump} {remarks : List Remark} (hkey : graph key = .scalar "Device")
    (hroot : graph root = .map (front ++ (key, child) :: back))
    (hread : readDump graph (some root) = .ok (content, remarks)) :
    ∃ (d : Device) (own : List Remark), readEntity graph .device Entity.device.initial child = .ok (d, own) ∧
      content.devices[(valuesUnder graph "Device" front).length]? = some d := by
  have hdump : readEntity graph .dump Entity.dump.initial root = .ok (content, remarks) := hread
  obtain ⟨entries, hentries, hlaws⟩ := followsLaws_of_readEntity hdump
  obtain rfl := Shape.map.inj (hroot.symm.trans hentries)
  have hrule : Entity.dump.rule? "Device"
      = some (.append .device (by decide) ⟨Dump.devices, fun v (s : Dump) => { s with devices := v }⟩) := rfl
  have hdevices := hlaws "Device" _ hrule
  rw [valuesUnder_append, valuesUnder_cons_self hkey] at hdevices
  obtain ⟨d, hd, own, hown⟩ := exists_getElem?_of_forall₂ hdevices
  exact ⟨d, own, hown, hd⟩

/-- What is unread at an entry of an entity is what is unread on the ways that start with the entry. -/
theorem filter_unreadIn_entity {e : Entity} {node : α} {entry : α × α}
    (hnode : graph node = .map (front ++ entry :: back)) :
    ((unreadIn graph (.entity e) node).filter fun o => o.way.head? = some (.entry front.length)) =
      unreadAt graph e (fun inner _ child => unreadIn graph inner child) node front entry := by
  have hothers : ∀ parts : List (List (α × α) × α × α), (∀ part ∈ parts, part.1.length ≠ front.length) →
      ((parts.flatMap fun part => unreadAt graph e (fun inner _ child => unreadIn graph inner child) node part.1
        part.2).filter fun o => o.way.head? = some (.entry front.length)) = [] := by
    intro parts hparts
    apply List.filter_eq_nil_iff.mpr
    intro o ho
    obtain ⟨part, hpart, hown⟩ := List.mem_flatMap.mp ho
    obtain ⟨rest, hway⟩ := way_of_mem_unreadAt hown
    simp [hway, hparts part hpart]
  rw [unreadIn_entity, pairsOf, hnode]
  dsimp only
  rw [withFronts_append, withFronts, List.flatMap_append, List.flatMap_cons, List.filter_append, List.filter_append,
    hothers _ ?_, hothers _ ?_, List.nil_append, List.append_nil]
  · apply List.filter_eq_self.mpr
    intro o ho
    obtain ⟨rest, hway⟩ := way_of_mem_unreadAt ho
    simp [hway]
  · intro part hpart
    obtain ⟨between, _, _, hpart⟩ := mem_withFronts_iff.mp hpart
    rw [hpart]
    simp
  · intro part hpart
    obtain ⟨after, hfront⟩ := mem_withFronts_nil_iff.mp hpart
    rw [hfront]
    simp

/-- A line about what is unread below a device has the path of the device in front. -/
theorem Occurrence.line_below_device (o : Occurrence α) (move : Move) (number : Nat) :
    (o.below move [.key "Device", .index number]).line =
      ignoredLine o.entity o.key (devicePath number ++ shownBehind o.place) := by
  have hplace : (o.below move [.key "Device", .index number]).place = .key "Device" :: .index number :: o.place := by
    simp
  rw [Occurrence.line, hplace, ← render_eq_pathOf (by decide), render_device]
  rfl

/-- What a document with one device is read to, by what the device is read to by itself. -/
theorem ofGraph_onlyEntry (config : Config) {d : Device} {own : List Remark} (hkey : graph key = .scalar "Device")
    (hread : readEntity graph .device Entity.device.initial child = .ok (d, own)) :
    Reader.ofGraph config (onlyEntry graph (key, child)) (some none) = .ok
      { content := { devices := [d] }
        warnings := if config.recordIgnored then (unreadIn graph (.entity .device) child).map fun o =>
          ignoredLine o.entity o.key (devicePath 0 ++ shownBehind o.place) else [] } := by
  have hown : own = (unreadIn graph (.entity .device) child).map Occurrence.remark :=
    (logs_readEntity .device Entity.device.initial (Or.inr rfl) child).eq_map hread
  have hsingle : ∃ remarks, readDump (onlyEntry graph (key, child)) (some none) = .ok ({ devices := [d] }, remarks) ∧
      remarks.map (·.line "") = (unreadIn graph (.entity .device) child).map fun o =>
        ignoredLine o.entity o.key (devicePath 0 ++ shownBehind o.place) := by
    rw [readDump_onlyEntry hkey, hread]
    refine ⟨_, rfl, ?_⟩
    rw [hown, List.map_map, List.map_map, List.map_map]
    apply List.map_congr_left
    intro o _
    simp only [Function.comp_apply, Remark.line, render_device]
    rfl
  obtain ⟨remarks, hdump, hlines⟩ := hsingle
  exact Reader.ofGraph_eq_ok_iff.mpr ⟨_, remarks, hdump, by rw [hlines]⟩

/-- Lines about the same unread entries under two paths. -/
theorem relabels_lines {τ : Type} (p q : String) (value : τ) (log : List (Occurrence α)) :
    Relabels p q [] [] (.ok (value, log.map fun o => ignoredLine o.entity o.key (p ++ shownBehind o.place)))
      (.ok (value, log.map fun o => ignoredLine o.entity o.key (q ++ shownBehind o.place))) := by
  have hlines : ∀ path, (log.map fun o => ignoredLine o.entity o.key (path ++ shownBehind o.place)) =
      [] ++ (log.map fun o => (o.entity, o.key, shownBehind o.place)).map fun line =>
        ignoredLine line.1 line.2.1 (path ++ line.2.2) := by
    intro path
    rw [List.map_map]
    rfl
  rw [hlines p, hlines q]
  exact .value value _

/-- A device of a document is that of a document which holds its entry alone, and the warnings from the entry are those
of that document, but for the number of the device in their paths. -/
def StandsAlone (config : Config) (graph : Graph α) (root : α) (front : List (α × α)) (entry : α × α)
    (file : DumpFile) : Prop :=
  ∃ single d log, Reader.ofGraph config (onlyEntry graph entry) (some none) = .ok single ∧
    single.content = { devices := [d] } ∧ file.content.devices[(valuesUnder graph "Device" front).length]? = some d ∧
    IsLog graph root log (log.map Occurrence.line) ∧ file.warnings = config.linesOf log ∧
    Relabels (devicePath 0) (devicePath (valuesUnder graph "Device" front).length) [] []
      (.ok (d, single.warnings))
      (.ok (d, config.linesOf (log.filter fun o => o.way.head? = some (.entry front.length))))

theorem standsAlone_of_ofGraph {config : Config} {file : DumpFile} (hkey : graph key = .scalar "Device")
    (hroot : graph root = .map (front ++ (key, child) :: back))
    (hread : Reader.ofGraph config graph (some root) = .ok file) :
    StandsAlone config graph root front (key, child) file := by
  obtain ⟨remarks, hdump⟩ := exists_readDump_of_ofGraph hread
  obtain ⟨d, own, hown, hd⟩ := exists_device hkey hroot hdump
  refine ⟨_, d, unreadIn graph (.entity .dump) root, ofGraph_onlyEntry config hkey hown, rfl, hd, isLog_unreadIn root,
    warnings_eq_linesOf hread, ?_⟩
  have hknown : (Form.entity .dump).under "Device" = some (.entity .device) := rfl
  have hsteps : (Form.entity .dump).stepsTo "Device" (valuesUnder graph "Device" front).length =
      [.key "Device", .index (valuesUnder graph "Device" front).length] := rfl
  rw [filter_unreadIn_entity hroot, unreadAt_of_asked hkey hknown (by simp), hsteps]
  unfold Config.linesOf
  split
  · rw [List.map_map]
    simp only [Function.comp_def, Occurrence.line_below_device]
    exact relabels_lines _ _ d _
  · exact .value d []

/-! ## Sequences -/

/-- A node is a map, and the members of each sequence of entities in the value are what the elements of the last
sequence under its key are read to by themselves. -/
def Entity.ElementsAlone (e : Entity) (graph : Graph α) (node : α) (value : e.Value) : Prop :=
  ∃ entries, graph node = .map entries ∧ ∀ (key : String) (item : Entity) (h : item.rank < e.rank)
      (slot : Slot e.Value (List item.Value)),
    e.rule? key = some (.store (.many item h) slot) →
      List.Forall₂ (fun node member => ∃ own, readEntity graph item item.initial node = .ok (member, own))
        (lastItems graph key entries) (slot.get value)

theorem elementsAlone_of_followsLaws {e : Entity} {node : α} {value : e.Value} (h : e.FollowsLaws graph node value) :
    e.ElementsAlone graph node value := by
  obtain ⟨entries, hnode, hlaws⟩ := h
  refine ⟨entries, hnode, ?_⟩
  intro key item hrank slot hrule
  have hempty : slot.get e.initial = [] := Entity.startsEmpty_of_rule? hrule
  have hlaw : Takes graph (.many item hrank) (slot.get e.initial) (valuesUnder graph key entries).getLast?
      (slot.get value) := hlaws key _ hrule
  unfold lastItems
  cases hlast : (valuesUnder graph key entries).getLast? with
  | none =>
    rw [hlast] at hlaw
    have hvalue : slot.get value = [] := Eq.trans hlaw hempty
    rw [hvalue]
    exact .nil
  | some last =>
    rw [hlast] at hlaw
    obtain ⟨remarks, hread⟩ := hlaw
    exact forall₂_of_readSequence hread

/-! ## Faults -/

/-- Behind entries that conform, a device that is refused by itself is refused for the same cause under its own path. -/
theorem ofGraph_of_device_fault {config : Config} {fault : Fault} (hkey : graph key = .scalar "Device")
    (hroot : graph root = .map (front ++ (key, child) :: back))
    (hfront : EntriesConform graph readable (.entity .dump) front)
    (hsingle : Reader.ofGraph config (onlyEntry graph (key, child)) (some none) = .error fault) :
    ∃ cause rest, fault = .node cause (devicePath 0 ++ rest) ∧
      Reader.ofGraph config graph (some root) =
        .error (.node cause (devicePath (valuesUnder graph "Device" front).length ++ rest)) := by
  obtain ⟨refusal, hdump, rfl⟩ := Reader.ofGraph_eq_error_iff.mp hsingle
  rw [readDump_onlyEntry hkey] at hdump
  obtain ⟨below, hindex, hlocation⟩ := Outcome.below_eq_error_iff.mp (Outcome.map_eq_error_iff.mp hdump)
  obtain ⟨inner, hdevice, hbelow⟩ := Outcome.below_eq_error_iff.mp hindex
  obtain ⟨address, hfault⟩ :=
    ((agrees_readEntity .device Entity.device.initial (Or.inr rfl) child).refuses _).mp hdevice
  have hviolation : FirstViolation graph readable (.entity .dump) root refusal.cause (.entry front.length :: address)
      ((Form.entity .dump).stepsTo "Device" (valuesUnder graph "Device" front).length ++ inner) :=
    .entry rfl hroot hfront hkey rfl (fun hsettings => absurd hsettings (by simp)) hfault
  have hread : readDump graph (some root) =
      .error ⟨refusal.cause, .key "Device" :: .index (valuesUnder graph "Device" front).length :: inner⟩ :=
    readDump_eq_error_iff.mpr (Or.inr ⟨root, _, rfl, hviolation⟩)
  refine ⟨refusal.cause, shownBehind inner, ?_, ?_⟩
  · rw [hlocation]
    change below = _ at hbelow
    rw [hbelow, render_device]
  · refine Reader.ofGraph_eq_error_iff.mpr ⟨_, hread, ?_⟩
    rw [render_device]

end

/-- An entity is read under any path and behind any log as it is read by itself, so that only the path in front of what
is reported differs.  Hence a device of a dump that is read is that of a document which holds nothing else, with the
same warnings under its own number; the members of a sequence of entities are what the elements are read to by
themselves; and a device that is refused by itself is refused for the same cause under its own path, if all before it
conforms. -/
theorem siblings_independent {α : Type} (graph : Graph α) :
    (∀ (e : Entity) (start : e.Value),
      (∀ node path log,
        readEntityAt graph e start ⟨some node, path⟩ log = (readEntity graph e start node).report path log) ∧
      ∀ node p q, p ≠ "" → q ≠ "" → ∀ log log',
        Relabels p q log log' (readEntityAt graph e start ⟨node, p⟩ log) (readEntityAt graph e start ⟨node, q⟩ log')) ∧
    (∀ (config : Config) (root : α) (file : DumpFile), Reader.ofGraph config graph (some root) = .ok file →
      (∀ front key child back, graph root = .map (front ++ (key, child) :: back) → graph key = .scalar "Device" →
        StandsAlone config graph root front (key, child) file) ∧
      ∀ e map address location, Leads graph (.entity .dump) root address location (.entity e) map →
        ∃ value remarks, readEntity graph e e.initial map = .ok (value, remarks) ∧ e.ElementsAlone graph map value) ∧
    ∀ (config : Config) (root : α) (fault : Fault) front key child back,
      graph root = .map (front ++ (key, child) :: back) → graph key = .scalar "Device" →
      EntriesConform graph readable (.entity .dump) front →
      Reader.ofGraph config (onlyEntry graph (key, child)) (some none) = .error fault →
      ∃ cause rest, fault = .node cause (devicePath 0 ++ rest) ∧
        Reader.ofGraph config graph (some root) =
          .error (.node cause (devicePath (valuesUnder graph "Device" front).length ++ rest)) := by
  refine ⟨?_, ?_, ?_⟩
  · intro e start
    refine ⟨readEntityAt_eq e start, ?_⟩
    intro node p q hp hq log log'
    exact relabels_readEntityAt e start node hp hq log log'
  · intro config root file hread
    refine ⟨fun front key child back hroot hkey => standsAlone_of_ofGraph hkey hroot hread, ?_⟩
    intro e map address location hleads
    obtain ⟨remarks, hdump⟩ := exists_readDump_of_ofGraph hread
    obtain ⟨value, own, hmap⟩ := exists_readEntity_of_leads ⟨_, _, hdump⟩ hleads
    exact ⟨value, own, hmap, elementsAlone_of_followsLaws (followsLaws_of_readEntity hmap)⟩
  · intro config root fault front key child back hroot hkey hfront hsingle
    exact ofGraph_of_device_fault hkey hroot hfront hsingle

/-- A document whose second device has a key that devices do not have. -/
def secondMisfit : Graph Nat
  | 0 => .map [(1, 2), (1, 3)]
  | 1 => .scalar "Device"
  | 2 => .map []
  | 3 => .map [(4, 5), (6, 5)]
  | 4 => .scalar "Queues"
  | 6 => .scalar "flags"
  | _ => .sequence []

theorem entriesConform_secondMisfit : EntriesConform secondMisfit readable (.entity .dump) [(1, 2)] := by
  have hdevice : Conforms secondMisfit readable (.entity .device) 2 :=
    .map rfl rfl (by simp) (by simp) (by simp) (Or.inl rfl)
  have hname : ∀ name, secondMisfit 1 = .scalar name → name = "Device" := fun name h => (Shape.scalar.inj h).symm
  refine ⟨?_, fun h => absurd h (by simp), ?_⟩
  · exact List.forall_mem_singleton.mpr ⟨"Device", _, rfl, rfl⟩
  · rw [List.forall_mem_singleton]
    intro name inner hkey hknown
    obtain rfl := hname name hkey
    obtain rfl := Option.some.inj hknown
    exact hdevice

/-- The second of two devices that share a queue is read and logged as in a document of its own, the queue is logged
under any other path in the same way, and a second device that is refused in a document of its own is refused for the
same key. -/
theorem siblings_independent_requeued :
    (∃ file, Reader.ofGraph {} requeued (some 0) = .ok file ∧
      StandsAlone {} requeued 0 [(1, 2), (3, 4)] (3, 5) file) ∧
    Relabels "p" "q" [] ["a line"] (readEntityAt requeued .queue Entity.queue.initial ⟨some 10, "p"⟩ [])
      (readEntityAt requeued .queue Entity.queue.initial ⟨some 10, "q"⟩ ["a line"]) ∧
    ∃ cause rest, .node (.unknownKey .device "flags") "Device[0]" = Fault.node cause (devicePath 0 ++ rest) ∧
      Reader.ofGraph {} secondMisfit (some 0) = .error (.node cause (devicePath 1 ++ rest)) := by
  obtain ⟨hpaths, hreads, _⟩ := siblings_independent requeued
  obtain ⟨_, _, hfaults⟩ := siblings_independent secondMisfit
  have hsingle : Reader.ofGraph {} (onlyEntry secondMisfit (1, 3)) (some none) =
      .error (.node (.unknownKey .device "flags") "Device[0]") := by decide +kernel
  have hread : Reader.ofGraph {} requeued (some 0) = .ok
      { content := { devices := [{ queues := [{}] }, { queues := [{}] }] }
        warnings := [
          "Ignored top level key 'SystemInfo' at SystemInfo",
          "Ignored Queue key 'flags' at Device[0].Queues[0].flags",
          "Ignored Queue key 'flags' at Device[0].Queues[0].flags",
          "Ignored Queue key 'flags' at Device[0].Queues[0].flags",
          "Ignored Queue key 'flags' at Device[1].Queues[0].flags"] } := by decide +kernel
  refine ⟨⟨_, hread, (hreads {} 0 _ hread).1 [(1, 2), (3, 4)] 3 5 [] rfl rfl⟩, ?_, ?_⟩
  · exact (hpaths .queue Entity.queue.initial).2 (some 10) "p" "q" (by decide) (by decide) [] ["a line"]
  · exact hfaults {} 0 _ [(1, 2)] 1 3 [] rfl rfl entriesConform_secondMisfit hsingle

end Postmortem
