import Postmortem.CommandLine.Run
import Postmortem.Progress.Lookup
import Postmortem.Proofs.Fitting
set_option autoImplicit false

/-!
# Listings: no command buffer is hidden

A device has two listings of command buffers, and whatever looks at its command buffers looks at one of them.  On a
device that was read at most one has anything in it, so nothing is passed over: the table has a row for each command
buffer of both listings, a lookup goes through them all in the order of the dump, and a run checks each of them.
-/

namespace Postmortem

open Postmortem.Progress

/-! ## Devices -/

/-- The listings of a device, one behind the other. -/
def Device.listings (d : Device) : List CommandBuffer := d.incompleteCommandBuffers ++ d.allCommandBuffers

theorem Device.Fits.commandBuffers_eq {d : Device} (h : d.Fits) : d.commandBuffers = d.listings := by
  rw [Device.commandBuffers, Device.listings]
  rcases h.oneListing with hincomplete | hall
  · simp [hincomplete]
  · cases d.incompleteCommandBuffers <;> simp [hall]

/-! ## The table -/

namespace Progress

/-- What the table says about a command buffer of a listing, by heading. -/
def rowFields (listing : String) (cb : CommandBuffer) : List (String × Cell) := [
  ("listing", .text listing), ("handle", .number cb.handle.value), ("handle_name", .text cb.handle.name),
  ("state", .text cb.state), ("level", .text cb.level), ("queue", .number cb.queue.value),
  ("submit_info_id", .number cb.submitInfoId), ("begin_value", .number cb.beginValue),
  ("end_value", .number cb.endValue), ("top_checkpoint_value", .number cb.topCheckpointValue),
  ("bottom_checkpoint_value", .number cb.bottomCheckpointValue),
  ("last_started_command", .number cb.lastStartedCommand),
  ("last_completed_command", .number cb.lastCompletedCommand), ("n_commands", .number cb.commands.length)]

/-- The row of a command buffer of a listing. -/
def row (listing : String) (cb : CommandBuffer) : List Cell := (rowFields listing cb).map Prod.snd

theorem bufferTable_headings (d : Device) (listing : String) (cb : CommandBuffer) :
    (bufferTable d).columns.map Column.heading = (rowFields listing cb).map Prod.fst := rfl

theorem bufferTable_rows (d : Device) : (bufferTable d).rows = d.commandBuffers.map (row (listingName d)) := rfl

/-- The one name for all rows is the name of the listing that each of them comes from. -/
theorem bufferTable_rows_of_fits {d : Device} (h : d.Fits) :
    (bufferTable d).rows =
      d.incompleteCommandBuffers.map (row "incomplete") ++ d.allCommandBuffers.map (row "all") := by
  rw [bufferTable_rows, listingName, Device.commandBuffers]
  rcases h.oneListing with hincomplete | hall
  · simp [hincomplete]
  · cases d.incompleteCommandBuffers <;> simp [hall]

/-! ## Lookups -/

/-- A numbered list splits where the list does, and the number there is the length of what stands before. -/
theorem zipIdx_eq_append_cons_iff {τ : Type} {list : List τ} {front back : List (τ × Nat)} {x : τ} {index : Nat} :
    list.zipIdx = front ++ (x, index) :: back ↔
      ∃ before after, list = before ++ x :: after ∧ before.length = index ∧ front = before.zipIdx ∧
        back = after.zipIdx (index + 1) := by
  rw [List.zipIdx_eq_append_iff]
  constructor
  · rintro ⟨before, rest, rfl, rfl, hrest⟩
    obtain ⟨y, after, rfl, hy, rfl⟩ := List.zipIdx_eq_cons_iff.mp hrest.symm
    obtain ⟨rfl, rfl⟩ := Prod.mk.inj hy
    exact ⟨before, after, rfl, (Nat.zero_add _).symm, rfl, rfl⟩
  · rintro ⟨before, after, rfl, rfl, rfl, rfl⟩
    exact ⟨before, x :: after, rfl, rfl, by simp⟩

theorem forall_mem_zipIdx_iff {τ : Type} {list : List τ} (p : τ → Prop) :
    (∀ placed ∈ list.zipIdx, p placed.1) ↔ ∀ x ∈ list, p x := by
  rw [← List.forall_mem_map, List.zipIdx_map_fst]

/-- Whether a command buffer has the address that is looked for. -/
def Sought.Names (sought : Sought) (cb : CommandBuffer) : Prop := (cb.handle.value : Int) = sought.value

theorem hasValue_iff_names {sought : Sought} {cb : CommandBuffer} :
    hasValue sought.value cb.handle = true ↔ sought.Names cb := by
  simp [hasValue, Sought.Names]

/-- The command buffers of a device with their places, the device standing at a place itself. -/
def placedOn (placed : Device × Nat) : List (CommandBuffer × Nat × Nat) :=
  placed.1.commandBuffers.zipIdx.map fun cb => (cb.1, placed.2, cb.2)

/-- What a lookup finds on a device. -/
def findOn (sought : Sought) (placed : Device × Nat) : Option (CommandBuffer × Nat × Nat) :=
  (placedOn placed).find? fun cb => hasValue sought.value cb.1.handle

theorem find?_placedCommandBuffers (dump : Dump) (sought : Sought) :
    ((placedCommandBuffers dump).find? fun cb => hasValue sought.value cb.1.handle)
      = dump.devices.zipIdx.findSome? (findOn sought) :=
  List.find?_flatMap

theorem findOn_eq_none_iff {sought : Sought} {placed : Device × Nat} :
    findOn sought placed = none ↔ ∀ cb ∈ placed.1.commandBuffers, ¬ sought.Names cb := by
  simp only [findOn, placedOn, List.find?_eq_none, List.forall_mem_map, hasValue_iff_names]
  exact forall_mem_zipIdx_iff fun cb => ¬ sought.Names cb

/-- Nothing is found on any device of a list. -/
theorem findNone_iff {sought : Sought} {devices : List Device} :
    (∀ placed ∈ devices.zipIdx, findOn sought placed = none) ↔
      ∀ d ∈ devices, ∀ cb ∈ d.commandBuffers, ¬ sought.Names cb := by
  simp only [findOn_eq_none_iff]
  exact forall_mem_zipIdx_iff fun d : Device => ∀ cb ∈ d.commandBuffers, ¬ sought.Names cb

theorem findOn_eq_some_iff {sought : Sought} {d : Device} {device place index : Nat} {cb : CommandBuffer} :
    findOn sought (d, device) = some (cb, place, index) ↔
      device = place ∧ ∃ before after, d.commandBuffers = before ++ cb :: after ∧ before.length = index ∧
        sought.Names cb ∧ ∀ other ∈ before, ¬ sought.Names other := by
  have hearlier : ∀ before : List CommandBuffer,
      (∀ placed ∈ before.zipIdx, (!hasValue sought.value placed.1.handle) = true) ↔
        ∀ other ∈ before, ¬ sought.Names other := by
    intro before
    simp only [Bool.not_eq_true', ← Bool.not_eq_true, hasValue_iff_names]
    exact forall_mem_zipIdx_iff fun other => ¬ sought.Names other
  rw [findOn, placedOn, List.find?_map, Option.map_eq_some_iff]
  constructor
  · rintro ⟨⟨x, i⟩, hfound, hplaced⟩
    obtain ⟨rfl, rfl, rfl⟩ : x = cb ∧ device = place ∧ i = index := by simpa using hplaced
    obtain ⟨hvalue, front, back, hsplit, hfront⟩ := List.find?_eq_some_iff_append.mp hfound
    obtain ⟨before, after, hlist, hindex, rfl, _⟩ := zipIdx_eq_append_cons_iff.mp hsplit
    exact ⟨rfl, before, after, hlist, hindex, hasValue_iff_names.mp hvalue, (hearlier before).mp hfront⟩
  · rintro ⟨rfl, before, after, hlist, hindex, hnames, hbefore⟩
    have hsplit := zipIdx_eq_append_cons_iff.mpr ⟨before, after, hlist, hindex, rfl, rfl⟩
    refine ⟨(cb, index), ?_, rfl⟩
    apply List.find?_eq_some_iff_append.mpr
    exact ⟨hasValue_iff_names.mpr hnames, before.zipIdx, _, hsplit, (hearlier before).mpr hbefore⟩

/-- A command buffer is the first one with an address among those that the devices of a dump are taken to list: no
device in front lists one, nor does its own device in front of it. -/
def IsFirst (lists : Device → List CommandBuffer) (dump : Dump) (sought : Sought) (cb : CommandBuffer)
    (device index : Nat) : Prop :=
  ∃ front d back before after, dump.devices = front ++ d :: back ∧ front.length = device ∧
    lists d = before ++ cb :: after ∧ before.length = index ∧ sought.Names cb ∧
    ∀ other ∈ front.flatMap lists ++ before, ¬ sought.Names other

theorem IsFirst.congr {lists lists' : Device → List CommandBuffer} {dump : Dump} {sought : Sought}
    {cb : CommandBuffer} {device index : Nat} (hsame : ∀ d ∈ dump.devices, lists d = lists' d)
    (h : IsFirst lists dump sought cb device index) : IsFirst lists' dump sought cb device index := by
  obtain ⟨front, d, back, before, after, hdevices, hlength, hlist, hindex, hnames, hearlier⟩ := h
  rw [hdevices, List.forall_mem_append, List.forall_mem_cons] at hsame
  rw [hsame.2.1] at hlist
  rw [List.flatMap_congr hsame.1] at hearlier
  exact ⟨front, d, back, before, after, hdevices, hlength, hlist, hindex, hnames, hearlier⟩

/-- Where a lookup looks: at each device in order, and there at the command buffers that it gives, in order. -/
theorem findCommandBuffer_eq_ok_iff {dump : Dump} {sought : Sought} {cb : CommandBuffer} {device index : Nat} :
    findCommandBuffer dump sought = .ok (cb, device, index) ↔
      IsFirst Device.commandBuffers dump sought cb device index := by
  have hfind : findCommandBuffer dump sought = .ok (cb, device, index) ↔
      dump.devices.zipIdx.findSome? (findOn sought) = some (cb, device, index) := by
    rw [findCommandBuffer, find?_placedCommandBuffers]
    cases dump.devices.zipIdx.findSome? (findOn sought) <;> simp
  rw [hfind, List.findSome?_eq_some_iff]
  constructor
  · rintro ⟨placedFront, ⟨d, place⟩, placedBack, hsplit, hfound, hnone⟩
    obtain ⟨rfl, before, after, hlist, hindex, hnames, hbefore⟩ := findOn_eq_some_iff.mp hfound
    obtain ⟨front, back, hdevices, hlength, rfl, _⟩ := zipIdx_eq_append_cons_iff.mp hsplit
    refine ⟨front, d, back, before, after, hdevices, hlength, hlist, hindex, hnames, ?_⟩
    rw [List.forall_mem_append, List.forall_mem_flatMap]
    exact ⟨findNone_iff.mp hnone, hbefore⟩
  · rintro ⟨front, d, back, before, after, hdevices, hlength, hlist, hindex, hnames, hearlier⟩
    rw [List.forall_mem_append, List.forall_mem_flatMap] at hearlier
    have hsplit := zipIdx_eq_append_cons_iff.mpr ⟨front, back, hdevices, hlength, rfl, rfl⟩
    have hfound : findOn sought (d, device) = some (cb, device, index) :=
      findOn_eq_some_iff.mpr ⟨rfl, before, after, hlist, hindex, hnames, hearlier.2⟩
    exact ⟨front.zipIdx, (d, device), _, hsplit, hfound, findNone_iff.mpr hearlier.1⟩

/-- A lookup fails if no device gives a command buffer with the address. -/
theorem findCommandBuffer_eq_error_iff {dump : Dump} {sought : Sought} {fault : Fault} :
    findCommandBuffer dump sought = .error fault ↔
      fault = .noCommandBuffer sought.value ∧ ∀ d ∈ dump.devices, ∀ cb ∈ d.commandBuffers, ¬ sought.Names cb := by
  rw [← findNone_iff, ← List.findSome?_eq_none_iff, findCommandBuffer, find?_placedCommandBuffers]
  cases dump.devices.zipIdx.findSome? (findOn sought) <;> simp [eq_comm]

end Progress

/-! ## Dumps -/

/-- The command buffers of all listings of a dump in order, with the places of their devices. -/
def Dump.listed (dump : Dump) : List (Nat × CommandBuffer) :=
  dump.devices.zipIdx.flatMap fun (d, device) => d.listings.map fun cb => (device, cb)

namespace Dump.Fits

variable {dump : Dump}

theorem commandBuffers_eq (h : dump.Fits) : ∀ d ∈ dump.devices, d.commandBuffers = d.listings :=
  fun d hmem => (h.devices d hmem).commandBuffers_eq

theorem findCommandBuffer_eq_ok_iff (h : dump.Fits) {sought : Sought} {cb : CommandBuffer} {device index : Nat} :
    findCommandBuffer dump sought = .ok (cb, device, index) ↔
      IsFirst Device.listings dump sought cb device index := by
  rw [Progress.findCommandBuffer_eq_ok_iff]
  constructor
  · exact IsFirst.congr h.commandBuffers_eq
  · exact IsFirst.congr fun d hmem => (h.commandBuffers_eq d hmem).symm

theorem findCommandBuffer_eq_error_iff (h : dump.Fits) {sought : Sought} {fault : Fault} :
    findCommandBuffer dump sought = .error fault ↔
      fault = .noCommandBuffer sought.value ∧ ∀ d ∈ dump.devices, ∀ cb ∈ d.listings, ¬ sought.Names cb := by
  have hsame : (∀ d ∈ dump.devices, ∀ cb ∈ d.commandBuffers, ¬ sought.Names cb) ↔
      ∀ d ∈ dump.devices, ∀ cb ∈ d.listings, ¬ sought.Names cb := by
    apply forall₂_congr
    intro d hmem
    rw [h.commandBuffers_eq d hmem]
  rw [Progress.findCommandBuffer_eq_error_iff, hsame]

theorem checkedBuffers_eq (h : dump.Fits) : CommandLine.checkedBuffers dump = dump.listed := by
  apply List.flatMap_congr
  intro placed hmem
  have hlists := h.commandBuffers_eq placed.1 (List.fst_mem_of_mem_zipIdx hmem)
  simp only [hlists]

end Dump.Fits

/-! ## Runs -/

namespace CommandLine

/-- What a run that checks the counters leaves behind if it checks these command buffers, one after the other. -/
def checkedResult (file : DumpFile) (checks : List (Nat × CommandBuffer)) : Result :=
  ⟨if checks.all fun (_, cb) => (Progress.check cb).ok then 0 else 1,
    printed (Summary.entries file ++ file.warnings.map warningLine ++ checks.flatMap fun (device, cb) =>
      (Progress.check cb).warnings.map fun w => warningLine (aboutBuffer device cb w.message)),
    printed (checks.flatMap fun (device, cb) =>
      (Progress.check cb).errors.map fun e => errorLine (aboutBuffer device cb e.message))⟩

/-- There is no error if each check is passed. -/
theorem progressErrors_isEmpty (dump : Dump) :
    (progressErrors dump).isEmpty = (checkedBuffers dump).all fun (_, cb) => (Progress.check cb).ok := by
  rw [progressErrors, Bool.eq_iff_iff, List.isEmpty_iff, List.flatMap_eq_nil_iff, List.all_eq_true]
  simp only [List.map_eq_nil_iff, Report.ok_iff_errors_eq_nil]

theorem report_of_checkProgress (file : DumpFile) :
    report true file = checkedResult file (checkedBuffers file.content) := by
  rw [checkedResult, ← progressErrors_isEmpty]
  rfl

theorem run_of_checkProgress {t : Files.Tree} {arguments : List String} {options : Options} {config : Config}
    {parser : Yaml.Parser} {file : DumpFile} (hrequest : Request.ofArguments arguments = .run options)
    (hchecks : options.checkProgress = true) (hconfig : options.config = .ok config)
    (hread : Reader.ofDirectory config t options.directory parser = .ok file) :
    run t arguments parser = .finished (checkedResult file (checkedBuffers file.content)) := by
  rw [run, hrequest, perform, runWith, hconfig]
  simp only [hread, hchecks, report_of_checkProgress]

end CommandLine

/-- Nothing in the listings of a dump file is passed over by what looks at its command buffers. -/
structure NoneHidden (file : DumpFile) : Prop where
  /-- a device gives the command buffers of its listings -/
  commandBuffers : ∀ d ∈ file.content.devices,
    d.commandBuffers = d.incompleteCommandBuffers ++ d.allCommandBuffers
  /-- the table has what it says about a command buffer below the headings for it -/
  headings : ∀ d ∈ file.content.devices, ∀ listing cb,
    (bufferTable d).columns.map Column.heading = (rowFields listing cb).map Prod.fst
  /-- the table has a row for each command buffer, which tells the listing that it comes from -/
  rows : ∀ d ∈ file.content.devices, (bufferTable d).rows =
    d.incompleteCommandBuffers.map (row "incomplete") ++ d.allCommandBuffers.map (row "all")
  /-- a lookup finds the first command buffer with the address -/
  found : ∀ sought cb device index, findCommandBuffer file.content sought = .ok (cb, device, index) ↔
    IsFirst Device.listings file.content sought cb device index
  /-- a lookup fails only if no listing has a command buffer with the address -/
  missing : ∀ sought fault, findCommandBuffer file.content sought = .error fault ↔
    fault = .noCommandBuffer sought.value ∧
      ∀ d ∈ file.content.devices, ∀ cb ∈ d.incompleteCommandBuffers ++ d.allCommandBuffers, ¬ sought.Names cb
  /-- the name of a handle plays no part in a lookup -/
  nameless : ∀ h : Handle,
    findCommandBuffer file.content (.handle h) = findCommandBuffer file.content (.number h.value)
  /-- the command buffers that a run checks are those of the listings, each once and in order -/
  checked : CommandLine.checkedBuffers file.content = file.content.listed
  /-- a run that reads the file, with any parser, and checks counters checks each of them -/
  checks : ∀ t arguments options config parser, CommandLine.Request.ofArguments arguments = .run options →
    options.checkProgress = true → options.config = .ok config →
    Reader.ofDirectory config t options.directory parser = .ok file →
    CommandLine.run t arguments parser = .finished (CommandLine.checkedResult file file.content.listed)

/-- A directory with a dump of two devices, one with each listing. -/
def bothListings : Files.Tree :=
  let text := "Device:\n IncompleteCommandBuffers:\n - handle: 0x1 []\n"
    ++ "Device:\n AllCommandBuffers:\n - endValue: 2\n - handle: 0x1 []\n"
  { top := [("cdl_dump.yaml", .file (text.toList.map fun c => c.val.toUInt8))] }

end Postmortem
