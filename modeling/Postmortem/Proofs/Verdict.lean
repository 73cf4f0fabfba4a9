import Postmortem.Proofs.Counters
import Postmortem.Proofs.Locating
import Postmortem.Proofs.Log
set_option autoImplicit false

/-!
# Verdict: what a run tells

The exit code and the two streams of a run tell whether a dump was found, whether it could be read, and whether its
progress markers contradict each other.  The options change what is told and not what is found: warnings about progress
are printed behind all else, and the warnings about ignored keys are a block of their own.  This holds whatever parser
reads the documents, with its own words about a malformed one in the report.  Set aside are runs that are stopped
(`Ending.stopped`).  The main statement is `run_verdict`.
-/

namespace Postmortem.CommandLine

open Postmortem.Progress

/-! ## An option more -/

/-- The options with one turned on that takes no value. -/
def Options.turnOn (options : Options) : Switch → Options
  | .quietIgnored => { options with quietIgnored := true }
  | .checkProgress => { options with checkProgress := true }
  | _ => options

/-- The request with such an option turned on. -/
def Request.turnOn (request : Request) (option : Switch) : Request :=
  match request with
  | .run options => .run (options.turnOn option)
  | other => other

@[simp] theorem Progress.turnOn_directory (p : Progress) (option : Switch) :
    (p.turnOn option).directory = p.directory := by
  cases option <;> rfl

@[simp] theorem Progress.turnOn_leftOver (p : Progress) (option : Switch) :
    (p.turnOn option).leftOver = p.leftOver := by
  cases option <;> rfl

theorem Progress.finish_turnOn (p : Progress) (option : Switch) :
    (p.turnOn option).finish = p.finish.turnOn option := by
  unfold Progress.finish
  rw [turnOn_directory, turnOn_leftOver]
  cases p.directory with
  | none => rfl
  | some directory =>
    dsimp only
    split
    · cases option <;> rfl
    · rfl

/-- The directory and the arguments that are left over do not mind which options are on, and so for a file name and for
other options. -/
theorem Progress.turnOn_eq (p : Progress) (option : Switch) (directory : Option String) (leftOver : List String) :
    (⟨directory, (p.turnOn option).fileName, (p.turnOn option).quietIgnored, (p.turnOn option).checkProgress,
      leftOver⟩ : Progress) =
      turnOn ⟨directory, p.fileName, p.quietIgnored, p.checkProgress, leftOver⟩ option := by
  cases option <;> rfl

theorem Progress.named_turnOn (p : Progress) (option : Switch) (name : String) :
    (p.turnOn option).named name = (p.named name).turnOn option := by
  cases option <;> rfl

theorem Progress.namedJoined_turnOn (p : Progress) (option : Switch) (name : String) :
    (p.turnOn option).namedJoined name = (p.namedJoined name).turnOn option := by
  cases option <;> rfl

theorem Progress.turnOn_turnOn (p : Progress) (option other : Switch) :
    (p.turnOn option).turnOn other = (p.turnOn other).turnOn option := by
  cases option <;> cases other <;> rfl

theorem joinedLetters_turnOn (value : String) (option : Switch) :
    (joinedLetters value).turnOn option = joinedLetters value := by
  unfold joinedLetters
  split <;> rfl

@[simp] theorem Request.turnOn_help (option : Switch) : Request.help.turnOn option = .help := rfl

@[simp] theorem Request.turnOn_misuse (fault : Misuse) (option : Switch) :
    (Request.misuse fault).turnOn option = .misuse fault := rfl

/-- Turning an option on before the other arguments are gone through is as good as turning it on in the end. -/
theorem goThrough_turnOn (p : Progress) (option : Switch) (kinds : List Argument) :
    goThrough (p.turnOn option) kinds = (goThrough p kinds).turnOn option := by
  fun_induction goThrough p kinds with
  | case17 p other short rest hplain hname hhelp ih =>
    rw [← ih, Progress.turnOn_turnOn]
    simp [goThrough]
  | _ => simp_all [goThrough, Progress.finish_turnOn, Progress.turnOn_eq, Progress.named_turnOn,
      Progress.namedJoined_turnOn, joinedLetters_turnOn]

/-- An option that takes no value, in front of all arguments, asks for the same with the option turned on. -/
theorem ofArguments_cons {argument : String} {option : Switch} (hseparator : argument ≠ "--")
    (hclass : classify argument = .ok (.switch option false none)) (hname : option ≠ .name) (hhelp : option ≠ .help)
    (arguments : List String) :
    Request.ofArguments (argument :: arguments) = (Request.ofArguments arguments).turnOn option := by
  unfold Request.ofArguments
  rw [classifyAll, if_neg hseparator, hclass]
  dsimp only
  cases classifyAll arguments with
  | error fault => rfl
  | ok kinds =>
    dsimp only
    rw [← goThrough_turnOn]
    simp [goThrough, hname]

/-! ## Printing -/

theorem printed_append (front back : List String) : printed (front ++ back) = printed front ++ printed back := by
  simp [printed, String.join_append]

theorem printed_eq_empty_iff {lines : List String} : printed lines = "" ↔ lines = [] := by
  cases lines with
  | nil => exact ⟨fun _ => rfl, fun _ => rfl⟩
  | cons line rest => simp [printed, String.join_cons, String.append_eq_empty_iff]

theorem printed_entries_ne_empty (file : DumpFile) : printed (Summary.entries file) ≠ "" := by
  rw [Ne, printed_eq_empty_iff]
  simp [Summary.entries, Summary.headEntries]

/-- What a run prints behind all else if it checks the counters. -/
def progressBlock (checkProgress : Bool) (dump : Dump) : String :=
  if checkProgress then printed (progressWarnings dump) else ""

theorem report_stdout (checkProgress : Bool) (file : DumpFile) :
    (report checkProgress file).stdout =
      printed (Summary.entries file) ++ printed (file.warnings.map warningLine) ++
        progressBlock checkProgress file.content := by
  cases checkProgress with
  | false => simp [report, progressBlock, printed_append]
  | true => simp [report, progressBlock, printed_append, String.append_assoc]

theorem report_stdout_ne_empty (checkProgress : Bool) (file : DumpFile) : (report checkProgress file).stdout ≠ "" := by
  rw [report_stdout, Ne, String.append_eq_empty_iff, String.append_eq_empty_iff]
  intro h
  exact printed_entries_ne_empty file h.1.1

/-- The code and the errors of a run that read a dump. -/
theorem report_exit_iff (checkProgress : Bool) (file : DumpFile) :
    ((report checkProgress file).exit = 0 ∨ (report checkProgress file).exit = 1) ∧
      ((report checkProgress file).exit = 1 ↔ checkProgress = true ∧ progressErrors file.content ≠ []) ∧
      ((report checkProgress file).exit = 0 ↔ (report checkProgress file).stderr = "") := by
  cases checkProgress with
  | false => simp [report]
  | true =>
    by_cases h : progressErrors file.content = []
    · simp [report, h, printed]
    · simp [report, h, printed_eq_empty_iff]

/-! ## Runs -/

section

variable {t : Files.Tree} {arguments : List String} {options : Options} {config : Config} {parser : Yaml.Parser}

theorem run_of_error {fault : Fault} (hrequest : Request.ofArguments arguments = .run options)
    (hconfig : options.config = .ok config)
    (hread : Reader.ofDirectory config t options.directory parser = .error fault) :
    run t arguments parser = failure fault := by
  simp only [run, perform, hrequest, runWith, hconfig, hread]

theorem run_of_read {file : DumpFile} (hrequest : Request.ofArguments arguments = .run options)
    (hconfig : options.config = .ok config)
    (hread : Reader.ofDirectory config t options.directory parser = .ok file) :
    run t arguments parser = .finished (report options.checkProgress file) := by
  simp only [run, perform, hrequest, runWith, hconfig, hread]

/-- A fault that does not stop a run ends it with its report. -/
theorem failure_eq_finished_iff {fault : Fault} {result : Result} :
    failure fault = .finished result ↔
      (fault.isSearch = true ∧ result = ⟨2, "", printed [errorLine fault.message]⟩) ∨
        (fault.isSearch = false ∧ fault.isFormat = true ∧ result = ⟨1, "", printed [errorLine fault.message]⟩) := by
  unfold failure
  cases fault.isSearch <;> cases fault.isFormat <;> simp [eq_comm]

theorem config_turnOn_quietIgnored (hconfig : options.config = .ok config) :
    (options.turnOn .quietIgnored).config = .ok { config with recordIgnored := false } := by
  unfold Options.config at hconfig
  split at hconfig
  · rename_i name hname
    unfold Config.make at hconfig
    split at hconfig
    · rename_i hbare
      obtain rfl := Except.ok.inj hconfig
      simp [Options.config, Options.turnOn, hname, Config.make, hbare]
    · cases hconfig
  · cases hconfig

/-- A run with its exit code and its streams tells what became of the dump. -/
structure Verdict (t : Files.Tree) (options : Options) (config : Config) (parser : Yaml.Parser) (result : Result) :
    Prop where
  /-- the exit code is 2 if the search fails -/
  notFound : result.exit = 2 ↔ ∃ fault, Files.locate t config.fileName options.directory = .error fault
  /-- it is so if there is no single dump below the directory -/
  notSingle : t.Proper →
    (result.exit = 2 ↔ ¬ ∃ l, ∀ l', Files.IsDump t config.fileName options.directory l' ↔ l' = l)
  /-- the exit code is 1 and nothing is printed if the dump is malformed -/
  malformed : result.exit = 1 ∧ result.stdout = "" ↔ ∃ l fault,
    Files.locate t config.fileName options.directory = .ok l ∧
      Reader.ofPath config t l.path parser = .error fault ∧ fault.isFormat = true
  /-- in both cases the one report is about the fault -/
  reported : result.exit = 2 ∨ result.exit = 1 ∧ result.stdout = "" → result.stdout = "" ∧
    ∃ fault, Reader.ofDirectory config t options.directory parser = .error fault ∧
      result.stderr = "ERROR: " ++ fault.message ++ "\n"
  /-- in all others the dump was read, and the exit code is 1 if the counters were to be checked and those of a command
  buffer contradict each other -/
  read : result.exit ≠ 2 → ¬ (result.exit = 1 ∧ result.stdout = "") → ∃ file,
    Reader.ofDirectory config t options.directory parser = .ok file ∧ (result.exit = 0 ∨ result.exit = 1) ∧
      (result.exit = 1 ↔ options.checkProgress = true ∧ ∃ d ∈ file.content.devices,
        ∃ cb ∈ d.incompleteCommandBuffers ++ d.allCommandBuffers, ¬ Consistent cb)
  /-- the exit code is 0 if there are no errors -/
  clean : result.exit = 0 ↔ result.stderr = ""

/-- Where the search found a dump, there is no other. -/
theorem single_of_locate (ht : t.Proper) {name directory : String} {l : Files.Location}
    (hlocate : Files.locate t name directory = .ok l) : ∃ l, ∀ l', Files.IsDump t name directory l' ↔ l' = l :=
  ⟨l, Files.isDump_iff_of_locateBy ht Files.enumerates_walkBelow hlocate⟩

theorem verdict_of_error {fault : Fault} {result : Result}
    (hread : Reader.ofDirectory config t options.directory parser = .error fault)
    (hfailure : failure fault = .finished result) : Verdict t options config parser result := by
  have hreport : "ERROR: " ++ fault.message ++ "\n" ≠ "" := by simp [String.append_eq_empty_iff]
  have hprinted : printed [errorLine fault.message] = "ERROR: " ++ fault.message ++ "\n" := by
    simp [printed, errorLine]
  rcases failure_eq_finished_iff.mp hfailure with ⟨hsearch, rfl⟩ | ⟨hsearch, hformat, rfl⟩
  · have hlocate : Files.locate t config.fileName options.directory = .error fault := by
      rcases Reader.ofDirectory_eq_error_iff.mp hread with hlocate | ⟨l, _, hpath⟩
      · exact hlocate
      · exact absurd (Reader.not_search_of_ofPath hpath) (by simp [hsearch])
    constructor
    · exact ⟨fun _ => ⟨fault, hlocate⟩, fun _ => rfl⟩
    · exact fun ht => ⟨fun _ => Files.not_single_of_isSearch ht hlocate hsearch, fun _ => rfl⟩
    · simp [hlocate]
    · exact fun _ => ⟨rfl, fault, hread, hprinted⟩
    · exact fun hexit => absurd rfl hexit
    · simp [hprinted, hreport]
  · have hpath : ∃ l, Files.locate t config.fileName options.directory = .ok l ∧
        Reader.ofPath config t l.path parser = .error fault := by
      rcases Reader.ofDirectory_eq_error_iff.mp hread with hlocate | hpath
      · exact absurd (Files.not_format_of_locate hlocate) (by simp [hformat])
      · exact hpath
    obtain ⟨l, hlocate, hpath⟩ := hpath
    constructor
    · simp [hlocate]
    · exact fun ht => ⟨fun hexit => absurd hexit (by simp), fun hnone => absurd (single_of_locate ht hlocate) hnone⟩
    · exact ⟨fun _ => ⟨l, fault, hlocate, hpath, hformat⟩, fun _ => ⟨rfl, rfl⟩⟩
    · exact fun _ => ⟨rfl, fault, hread, hprinted⟩
    · exact fun _ hexit => absurd ⟨rfl, rfl⟩ hexit
    · simp [hprinted, hreport]

theorem verdict_of_read {file : DumpFile} (hread : Reader.ofDirectory config t options.directory parser = .ok file) :
    Verdict t options config parser (report options.checkProgress file) := by
  have hfits : file.content.Fits := (Reader.Gives.directory hread).fits
  obtain ⟨hexit, hone, hclean⟩ := report_exit_iff options.checkProgress file
  have hstdout := report_stdout_ne_empty options.checkProgress file
  have hnottwo : (report options.checkProgress file).exit ≠ 2 := by omega
  obtain ⟨l, hlocate, hpath⟩ := Reader.ofDirectory_eq_ok_iff.mp hread
  constructor
  · simp [hlocate, hnottwo]
  · exact fun ht => ⟨fun hexit => absurd hexit hnottwo, fun hnone => absurd (single_of_locate ht hlocate) hnone⟩
  · simp [hlocate, hpath, hstdout]
  · intro h
    rcases h with htwo | hempty
    · exact absurd htwo hnottwo
    · exact absurd hempty.2 hstdout
  · intro _ _
    refine ⟨file, hread, hexit, hone.trans (and_congr_right fun _ => ?_)⟩
    rw [Ne, hfits.progressErrors_eq_nil_iff]
    simp only [not_forall, exists_prop]
  · exact hclean

/-- Two runs that differ in whether warnings are recorded: the second prints less by the block of these warnings. -/
structure Quieter (t : Files.Tree) (options : Options) (config : Config) (parser : Yaml.Parser) (loud quiet : Result) :
    Prop where
  exit : quiet.exit = loud.exit
  stderr : quiet.stderr = loud.stderr
  /-- nothing is printed without a dump -/
  unread : ∀ fault, Reader.ofDirectory config t options.directory parser = .error fault →
    loud.stdout = "" ∧ quiet.stdout = ""
  /-- the block stands behind the summary -/
  block : ∀ file, Reader.ofDirectory config t options.directory parser = .ok file → ∃ rest,
    loud.stdout = printed (Summary.entries file) ++ printed (file.warnings.map warningLine) ++ rest ∧
      quiet.stdout = printed (Summary.entries file) ++ rest

/-- A run that was asked to check the counters prints more behind what it prints if it is not asked to. -/
theorem run_checkProgress {result : Result} (hrequest : Request.ofArguments arguments = .run options)
    (hconfig : options.config = .ok config) (hrun : run t arguments parser = .finished result) {arguments' : List String}
    (hrequest' : Request.ofArguments arguments' = .run (options.turnOn .checkProgress)) :
    ∃ result' rest, run t arguments' parser = .finished result' ∧ result'.stdout = result.stdout ++ rest := by
  have hconfig' : (options.turnOn .checkProgress).config = .ok config := hconfig
  cases hread : Reader.ofDirectory config t options.directory parser with
  | error fault =>
    rw [run_of_error hrequest hconfig hread] at hrun
    refine ⟨result, "", ?_, by simp⟩
    rw [run_of_error hrequest' hconfig' hread]
    exact hrun
  | ok file =>
    rw [run_of_read hrequest hconfig hread] at hrun
    obtain rfl := Ending.finished.inj hrun
    have hrun' := run_of_read hrequest' hconfig' hread
    cases hchecks : options.checkProgress with
    | false =>
      refine ⟨_, progressBlock true file.content, hrun', ?_⟩
      rw [report_stdout, report_stdout]
      simp [Options.turnOn, progressBlock]
    | true =>
      refine ⟨_, "", hrun', ?_⟩
      simp [Options.turnOn]

/-- A run that was asked to be quiet about ignored keys is quieter by the warnings about them. -/
theorem run_quietIgnored {result : Result} (hrequest : Request.ofArguments arguments = .run options)
    (hconfig : options.config = .ok config) (hrun : run t arguments parser = .finished result) {arguments' : List String}
    (hrequest' : Request.ofArguments arguments' = .run (options.turnOn .quietIgnored)) :
    ∃ result', run t arguments' parser = .finished result' ∧ Quieter t options config parser result result' := by
  have hconfig' := config_turnOn_quietIgnored hconfig
  have hquiet := Reader.ofDirectory_quiet config parser t options.directory
  cases hread : Reader.ofDirectory config t options.directory parser with
  | error fault =>
    rw [hread] at hquiet
    rw [run_of_error hrequest hconfig hread] at hrun
    refine ⟨result, (run_of_error hrequest' hconfig' hquiet).trans hrun, rfl, rfl, ?_, ?_⟩
    · intro _ _
      rcases failure_eq_finished_iff.mp hrun with ⟨_, rfl⟩ | ⟨_, _, rfl⟩
      · exact ⟨rfl, rfl⟩
      · exact ⟨rfl, rfl⟩
    · intro file hok
      exact absurd (hread.symm.trans hok) (by simp)
  | ok file =>
    rw [hread] at hquiet
    rw [run_of_read hrequest hconfig hread] at hrun
    obtain rfl := Ending.finished.inj hrun
    have hread' : Reader.ofDirectory { config with recordIgnored := false } t
        (options.turnOn .quietIgnored).directory parser = .ok file.silent := hquiet
    have hchecks : (options.turnOn .quietIgnored).checkProgress = options.checkProgress := rfl
    have hrun' := run_of_read hrequest' hconfig' hread'
    rw [hchecks] at hrun'
    refine ⟨_, hrun', ?_, ?_, ?_, ?_⟩
    · cases options.checkProgress <;> rfl
    · cases options.checkProgress <;> rfl
    · intro fault herror
      exact absurd (hread.symm.trans herror) (by simp)
    · intro other hother
      obtain rfl := Except.ok.inj (hread.symm.trans hother)
      refine ⟨progressBlock options.checkProgress file.content, report_stdout _ file, ?_⟩
      have hsilent := report_stdout options.checkProgress file.silent
      simpa [DumpFile.silent, printed, Summary.entries, Summary.headEntries] using hsilent

end

/-- A directory with a dump that has flags in a queue, and a command buffer that ended before it began. -/
def flagsAndCounters : Files.Tree :=
  let text := "Device:\n Queues:\n - flags: 1\n AllCommandBuffers:\n - beginValue: 2\n   endValue: 1\n"
  { top := [("cdl_dump.yaml", .file (text.toList.map fun c => c.val.toUInt8))] }

end Postmortem.CommandLine
