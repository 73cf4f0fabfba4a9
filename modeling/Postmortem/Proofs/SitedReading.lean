import Postmortem.Dump.Reading
import Postmortem.Node.Site
import Postmortem.Proofs.ListReading
import Postmortem.Proofs.Reports
set_option autoImplicit false

/-!
# Sited reading: paths handed down, and one log for all

Another way to read a document goes from site to site.  Each reader is handed the path of its node and the lines that
were logged before, and hands the log on; a fault is reported under the path of the site where it is found.  It reads
every document as the readers do whose outcomes are relative to the node that is read: the main statement is
`readEntityAt_eq`.  So what is read at a path depends on the path only by its being put in front of what is reported
(`relabels_readEntityAt`), and not at all on the log.
-/

namespace Postmortem

open Postmortem.Node

/-! ## Reports -/

/-- A value with the lines logged so far, or the fault that ends the reading. -/
abbrev Report (τ : Type) : Type := Except Fault (τ × List String)

namespace Report

variable {σ τ : Type}

/-- A value that leaves the log as it is, or a fault. -/
def ofExcept (log : List String) : Except Fault τ → Report τ
  | .ok value => .ok (value, log)
  | .error fault => .error fault

/-- The report with its value changed. -/
def map (f : σ → τ) : Report σ → Report τ
  | .ok (value, log) => .ok (f value, log)
  | .error fault => .error fault

/-- A second report that depends on the first value and goes on with the log. -/
def andThen (first : Report σ) (next : σ → List String → Report τ) : Report τ :=
  match first with
  | .ok (value, log) => next value log
  | .error fault => .error fault

/-- Takes a state through some parts. -/
def foldl {ι : Type} (step : σ → List String → ι → Report σ) : σ → List String → List ι → Report σ
  | state, log, [] => .ok (state, log)
  | state, log, x :: rest => (step state log x).andThen fun next log => foldl step next log rest

/-- Takes a state through the parts of a listing, and ends as the listing does. -/
def goThrough {ι : Type} (step : σ → List String → ι → Report σ) (state : σ) (log : List String) (l : Listing ι) :
    Report σ :=
  (foldl step state log l.parts).andThen fun state log =>
    match l.stop with
    | none => .ok (state, log)
    | some fault => .error fault

end Report

namespace Outcome

variable {σ τ : Type}

/-- How an outcome is reported under the path of its node, behind the lines logged before. -/
def report (path : String) (log : List String) : Outcome τ → Report τ
  | .ok (value, remarks) => .ok (value, log ++ remarks.map (·.line path))
  | .error refusal => .error (.node refusal.cause (render path refusal.location))

@[simp] theorem report_pure (path : String) (log : List String) (value : τ) :
    (pure value).report path log = .ok (value, log) := by
  simp [report, pure]

@[simp] theorem report_refuse (path : String) (log : List String) (cause : Cause) :
    (refuse cause : Outcome τ).report path log = .error (.node cause path) := rfl

theorem report_map (f : σ → τ) (path : String) (log : List String) (o : Outcome σ) :
    (o.map f).report path log = (o.report path log).map f := by
  cases o <;> rfl

/-- What is below a step is reported under the path of the step. -/
theorem report_below (step : Step) (path : String) (log : List String) (o : Outcome τ) :
    (o.below step).report path log = o.report (stepPath path step) log := by
  cases o with
  | error refusal => rfl
  | ok result =>
    simp only [below, report, List.map_map]
    rfl

theorem report_andThen (path : String) (log : List String) (first : Outcome σ) (second : σ → Outcome τ) :
    (first.andThen second).report path log =
      (first.report path log).andThen fun value log => (second value).report path log := by
  cases first with
  | error refusal => rfl
  | ok result =>
    obtain ⟨value, remarks⟩ := result
    simp only [andThen, report, Report.andThen]
    cases second value with
    | error refusal => rfl
    | ok result => simp [List.append_assoc]

end Outcome

/-! ## Readers of sites -/

section

variable {α : Type} (graph : Graph α)

/-- Reads the sites of the elements of a sequence. -/
def readSitesAt {τ : Type} (read : Site α → List String → Report τ) : List String → List (Site α) → Report (List τ)
  | log, [] => .ok ([], log)
  | log, site :: rest =>
    (read site log).andThen fun value log => (readSitesAt read log rest).map (value :: ·)

/-- Reads a sequence at a site. -/
def readSequenceAt {τ : Type} (read : Site α → List String → Report τ) (site : Site α) (log : List String) :
    Report (List τ) :=
  match (site.items graph).all with
  | .error fault => .error fault
  | .ok sites => readSitesAt read log sites

/-- Reads a text at a site. -/
def readTextAt (site : Site α) (log : List String) : Report String := .ofExcept log (site.text graph)

/-- Reads one setting at the site of the settings, behind those that were read already. -/
def readSettingAt (site : Site α) (seen : List (String × String)) (log : List String) (part : String × Site α) :
    Report (List (String × String)) :=
  if (seen.lookup part.1).isSome then .error (site.fault (.duplicateSetting part.1))
  else (readTextAt graph part.2 log).map fun text => seen ++ [(part.1, text)]

/-- Reads the settings at a site. -/
def readSettingsAt (site : Site α) (log : List String) : Report (List (String × String)) :=
  Report.goThrough (readSettingAt graph site) [] log (site.entries graph)

/-- A reader at sites for the entities that one entity holds. -/
abbrev LowerSiteReader (α : Type) (owner : Entity) : Type :=
  (item : Entity) → item.rank < owner.rank → item.Value → Site α → List String → Report item.Value

/-- Reads the value of a key at its site. -/
def readContentAt {owner : Entity} (lower : LowerSiteReader α owner) :
    (content : Content owner) → Site α → List String → Report content.Value
  | .text, site, log => readTextAt graph site log
  | .version, site, log => (readTextAt graph site log).map Version.ofText
  | .uint width, site, log => .ofExcept log (site.uint graph width)
  | .flag, site, log => .ofExcept log (site.flag graph)
  | .handle, site, log => .ofExcept log (site.readWith graph .string readHandle)
  | .texts, site, log => readSequenceAt graph (readTextAt graph) site log
  | .settings, site, log => readSettingsAt graph site log
  | .one item h, site, log => lower item h item.initial site log
  | .many item h, site, log => readSequenceAt graph (lower item h item.initial) site log

/-- The line about a key of an entity whose value is not looked at. -/
def ignoredLine (e : Entity) (key path : String) : String :=
  "Ignored " ++ e.label ++ " key '" ++ key ++ "' at " ++ path

/-- Applies the rule for a key to its value.  What is added to a list is numbered anew. -/
def applyRuleAt {e : Entity} (lower : LowerSiteReader α e) (key : String) (child : Site α) (state : e.Value)
    (log : List String) : Rule e → Report e.Value
  | .store content slot => (readContentAt graph lower content child log).map (slot.set · state)
  | .merge part h slot => (lower part h (slot.get state) child log).map (slot.set · state)
  | .append item h slot =>
    (lower item h item.initial (child.withPath (indexPath child.path (slot.get state).length)) log).map
      fun value => slot.set (slot.get state ++ [value]) state
  | .ignore => .ok (state, log ++ [ignoredLine e key child.path])

/-- Reads one entry of an entity at the site of its map. -/
def readEntryAt {e : Entity} (lower : LowerSiteReader α e) (site : Site α) (state : e.Value) (log : List String)
    (part : String × Site α) : Report e.Value :=
  match e.rule? part.1 with
  | none => .error (site.fault (.unknownKey e part.1))
  | some rule => applyRuleAt graph lower part.1 part.2 state log rule

/-- An entity, unless it is refused as a whole. -/
def checkedAt (e : Entity) (site : Site α) (value : e.Value) (log : List String) : Report e.Value :=
  match e.check value with
  | .ok () => .ok (value, log)
  | .error cause => .error (site.fault cause)

/-- Reads the map of an entity at a site. -/
def readMapAt {e : Entity} (lower : LowerSiteReader α e) (start : e.Value) (site : Site α) (log : List String) :
    Report e.Value :=
  if site.isPresent then
    (Report.goThrough (readEntryAt graph lower site) start log (site.entries graph)).andThen (checkedAt e site)
  else .error (site.fault (.wrongShape (.entityMap e) .nothing))

/-- Reads an entity at a site. -/
def readEntityAt (e : Entity) (start : e.Value) (site : Site α) (log : List String) : Report e.Value :=
  readMapAt graph (fun item _ start site log => readEntityAt item start site log) start site log
termination_by e.rank

theorem readEntityAt_unfold (e : Entity) (start : e.Value) (site : Site α) (log : List String) :
    readEntityAt graph e start site log =
      readMapAt graph (fun item _ start site log => readEntityAt graph item start site log) start site log := by
  rw [readEntityAt]

/-! ## Both ways of reading agree -/

variable {graph}

/-- A reader of sites reports what a reader of nodes gives. -/
def Reports {τ : Type} (readAt : Site α → List String → Report τ) (read : α → Outcome τ) : Prop :=
  ∀ node path log, readAt ⟨some node, path⟩ log = (read node).report path log

theorem ofExcept_readWith {τ : Type} (target : Target) (read : String → Except Cause τ) (node : α) (path : String)
    (log : List String) :
    Report.ofExcept log (Site.readWith graph ⟨some node, path⟩ target read) =
      (Outcome.ofExcept ((graph node).readWith target read)).report path log := by
  simp only [Site.readWith, Option.map_some]
  cases (graph node).readWith target read with
  | error cause => rfl
  | ok value => exact (Outcome.report_pure path log value).symm

theorem reports_readText : Reports (readTextAt graph) (readText graph) := by
  intro node path log
  rw [readText, readTextAt, Site.text, ofExcept_readWith, Shape.readWith]
  cases (graph node).text .string <;> rfl

theorem readSitesAt_eq {τ : Type} {readAt : Site α → List String → Report τ} {read : α → Outcome τ}
    (hread : Reports readAt read) (path : String) (items : List α) (log : List String) (index : Nat) :
    readSitesAt readAt log (items.mapIdx fun number node => ⟨some node, indexPath path (index + number)⟩) =
      (readItems read index items).report path log := by
  induction items generalizing log index with
  | nil => exact (Outcome.report_pure path log []).symm
  | cons node rest ih =>
    have hrest : (rest.mapIdx fun number node => (⟨some node, indexPath path (index + (number + 1))⟩ : Site α)) =
        rest.mapIdx fun number node => ⟨some node, indexPath path (index + 1 + number)⟩ := by
      congr 1
      funext number node
      rw [Nat.add_assoc, Nat.add_comm 1]
    rw [List.mapIdx_cons, readSitesAt, readItems, Outcome.report_andThen, Outcome.report_below, hread, hrest]
    congr 1
    funext value log
    rw [ih log (index + 1), Outcome.report_map]

theorem reports_readSequence {τ : Type} {readAt : Site α → List String → Report τ} {read : α → Outcome τ}
    (hread : Reports readAt read) : Reports (readSequenceAt graph readAt) (readSequence graph read) := by
  intro node path log
  rw [readSequenceAt, readSequence, Site.items]
  simp only [Option.map_some]
  cases hnode : graph node with
  | sequence items =>
    have h := readSitesAt_eq hread path items log 0
    simp only [Nat.zero_add] at h
    exact h
  | scalar text => simp [Listing.all, Site.wrongShape, Site.kind, kindOf, Site.fault, hnode]
  | map entries => simp [Listing.all, Site.wrongShape, Site.kind, kindOf, Site.fault, hnode]

/-- The entries of a map are gone through up to the first key that is no scalar, and that key is refused. -/
theorem goThrough_listEntries {σ : Type} {stepAt : σ → List String → String × Site α → Report σ}
    {step : σ → α × α → Outcome σ} {path : String}
    (hplain : ∀ state log key child name, graph key = .scalar name →
      stepAt state log (name, ⟨some child, keyPath path name⟩) = (step state (key, child)).report path log)
    (hodd : ∀ state key child, (graph key).kind ≠ .scalar →
      step state (key, child) = .refuse (.wrongShape .scalarKey (graph key).kind))
    (entries : List (α × α)) (state : σ) (log : List String) :
    Report.goThrough stepAt state log (Site.listEntries graph path entries) =
      (Outcome.foldl step state entries).report path log := by
  induction entries generalizing state log with
  | nil => simp [Site.listEntries, Report.goThrough, Report.foldl, Report.andThen, Outcome.foldl]
  | cons entry rest ih =>
    obtain ⟨key, child⟩ := entry
    rw [Outcome.foldl, Outcome.report_andThen, Site.listEntries]
    have hrefused : ∀ shape, graph key = shape → shape.kind ≠ .scalar →
        Report.goThrough stepAt state log ⟨[], some (.node (.wrongShape .scalarKey shape.kind) path)⟩ =
          ((step state (key, child)).report path log).andThen fun next log =>
            (Outcome.foldl step next rest).report path log := by
      rintro _ rfl hkind
      rw [hodd state key child hkind]
      rfl
    cases hkey : graph key with
    | scalar name =>
      dsimp only
      rw [← hplain state log key child name hkey]
      simp only [Report.goThrough, Listing.cons, Report.foldl]
      cases stepAt state log (name, ⟨some child, keyPath path name⟩) with
      | error fault => rfl
      | ok result => exact ih result.1 result.2
    | sequence items => exact hrefused _ hkey (by simp [Shape.kind])
    | map entries => exact hrefused _ hkey (by simp [Shape.kind])

/-- What is no map has no entries, and is refused. -/
theorem goThrough_of_not_map {σ : Type} (step : σ → List String → String × Site α → Report σ) (state : σ)
    (log : List String) {node : α} (hnode : (graph node).kind ≠ .map) (path : String) :
    Report.goThrough step state log (Site.entries graph ⟨some node, path⟩) =
      .error (.node (.wrongShape .map (graph node).kind) path) := by
  rw [Site.entries]
  simp only [Option.map_some, Site.wrongShape, Site.kind, kindOf, Site.fault]
  cases hshape : graph node with
  | map entries => exact absurd (by rw [hshape]; rfl) hnode
  | scalar text => rfl
  | sequence items => rfl

theorem entries_of_map {node : α} {entries : List (α × α)} (hnode : graph node = .map entries) (path : String) :
    Site.entries graph ⟨some node, path⟩ = Site.listEntries graph path entries := by
  simp [Site.entries, hnode]

theorem readSettingEntry_of_odd {key child : α} {seen : List (String × String)} (h : (graph key).kind ≠ .scalar) :
    readSettingEntry graph seen (key, child) = .refuse (.wrongShape .scalarKey (graph key).kind) := by
  rw [readSettingEntry]
  cases hkey : graph key with
  | scalar name => exact absurd (by rw [hkey]; rfl) h
  | sequence items => rfl
  | map entries => rfl

theorem readEntry_of_odd {e : Entity} {lower : LowerReader α e} {key child : α} {state : e.Value}
    (h : (graph key).kind ≠ .scalar) :
    readEntry graph lower state (key, child) = .refuse (.wrongShape .scalarKey (graph key).kind) := by
  rw [readEntry]
  cases hkey : graph key with
  | scalar name => exact absurd (by rw [hkey]; rfl) h
  | sequence items => rfl
  | map entries => rfl

theorem reports_readSettings : Reports (readSettingsAt graph) (readSettings graph) := by
  intro node path log
  rw [readSettingsAt, readSettings]
  have hother : (graph node).kind ≠ .map →
      Report.goThrough (readSettingAt graph ⟨some node, path⟩) [] log (Site.entries graph ⟨some node, path⟩) =
        (Outcome.refuse (.wrongShape .map (graph node).kind) : Outcome (List (String × String))).report path log :=
    fun hkind => goThrough_of_not_map _ _ _ hkind path
  cases hnode : graph node with
  | map entries =>
    dsimp only
    rw [entries_of_map hnode, readSettingEntries_eq_foldl]
    apply goThrough_listEntries
    · intro seen log key child name hkey
      simp only [readSettingAt, readSettingEntry, hkey]
      split
      · rfl
      · rw [reports_readText, Outcome.report_map, Outcome.report_below]
        rfl
    · exact fun seen key child hkind => readSettingEntry_of_odd hkind
  | scalar text =>
    rw [hnode] at hother
    exact hother (by simp [Shape.kind])
  | sequence items =>
    rw [hnode] at hother
    exact hother (by simp [Shape.kind])

section

variable {e : Entity} {lowerAt : LowerSiteReader α e} {lower : LowerReader α e}

/-- The readers of sites for lower entities report what the readers of nodes give. -/
def LowerReports (lowerAt : LowerSiteReader α e) (lower : LowerReader α e) : Prop :=
  ∀ item (h : item.rank < e.rank) start, Reports (lowerAt item h start) (lower item h start)

theorem reports_readContent (hlower : LowerReports lowerAt lower) (content : Content e) :
    Reports (readContentAt graph lowerAt content) (readContent graph lower content) := by
  cases content with
  | text => exact reports_readText
  | version =>
    intro node path log
    have h := Outcome.report_map Version.ofText path log (readText graph node)
    rw [← reports_readText] at h
    exact h.symm
  | uint width => exact ofExcept_readWith _ _
  | flag => exact ofExcept_readWith _ _
  | handle => exact ofExcept_readWith _ _
  | texts => exact reports_readSequence reports_readText
  | settings => exact reports_readSettings
  | one item h => exact hlower item h item.initial
  | many item h => exact reports_readSequence (hlower item h item.initial)

theorem applyRuleAt_eq (hlower : LowerReports lowerAt lower) (rule : Rule e) (key : String) (child : α) (path : String)
    (state : e.Value) (log : List String) :
    applyRuleAt graph lowerAt key ⟨some child, keyPath path key⟩ state log rule =
      (applyRule graph lower key child state rule).report path log := by
  cases rule with
  | store content slot =>
    rw [applyRuleAt, applyRule, Outcome.report_map, Outcome.report_below, reports_readContent hlower]
    rfl
  | merge part h slot =>
    rw [applyRuleAt, applyRule, Outcome.report_map, Outcome.report_below, hlower]
    rfl
  | append item h slot =>
    rw [applyRuleAt, applyRule, Outcome.report_map, Outcome.report_below, Outcome.report_below, Site.withPath, hlower]
    rfl
  | ignore => rfl

theorem readEntryAt_eq (hlower : LowerReports lowerAt lower) {key : α} {name : String} (hkey : graph key = .scalar name)
    (site : Site α) (child : α) (state : e.Value) (log : List String) :
    readEntryAt graph lowerAt site state log (name, ⟨some child, keyPath site.path name⟩) =
      (readEntry graph lower state (key, child)).report site.path log := by
  rw [readEntryAt, readEntry, hkey]
  dsimp only
  cases e.rule? name with
  | none => rfl
  | some rule => exact applyRuleAt_eq hlower rule name child site.path state log

theorem reports_readMap (hlower : LowerReports lowerAt lower) (start : e.Value) :
    Reports (readMapAt graph lowerAt start) (readMap graph lower start) := by
  intro node path log
  have hother : (graph node).kind ≠ .map →
      (Report.goThrough (readEntryAt graph lowerAt ⟨some node, path⟩) start log
        (Site.entries graph ⟨some node, path⟩)).andThen (checkedAt e ⟨some node, path⟩) =
        (Outcome.refuse (.wrongShape .map (graph node).kind) : Outcome e.Value).report path log := by
    intro hkind
    rw [goThrough_of_not_map _ _ _ hkind]
    rfl
  rw [readMapAt, readMap, if_pos (show Site.isPresent ⟨some node, path⟩ = true from rfl)]
  cases hnode : graph node with
  | map entries =>
    dsimp only
    rw [entries_of_map hnode, readEntries_eq_foldl, Outcome.report_andThen]
    have hentries : Report.goThrough (readEntryAt graph lowerAt ⟨some node, path⟩) start log
        (Site.listEntries graph path entries) =
      (Outcome.foldl (readEntry graph lower) start entries).report path log := by
      apply goThrough_listEntries
      · exact fun state log key child name hkey => readEntryAt_eq hlower hkey ⟨some node, path⟩ child state log
      · exact fun state key child hkind => readEntry_of_odd hkind
    rw [hentries]
    congr 1
    funext value log
    rw [checkedAt, checked]
    cases e.check value with
    | error cause => rfl
    | ok _ => exact (Outcome.report_pure path log value).symm
  | scalar text =>
    rw [hnode] at hother
    exact hother (by simp [Shape.kind])
  | sequence items =>
    rw [hnode] at hother
    exact hother (by simp [Shape.kind])

end

/-- An entity is read at a site as at its node, and reported under the path of the site. -/
theorem readEntityAt_eq (e : Entity) (start : e.Value) :
    Reports (readEntityAt graph e start) (readEntity graph e start) := by
  -- As in the reader of nodes, it is the rank of the entity that goes down.
  induction e using Entity.inductionOnRank with
  | holder e ih =>
    intro node path log
    rw [readEntityAt_unfold, readEntity_eq]
    refine reports_readMap ?_ start node path log
    intro item hitem start
    exact ih item hitem start

end

/-! ## Other paths -/

/-- Two reports with different paths in front and different lines logged before: of one value with the same new lines,
or of one fault. -/
inductive Relabels {τ : Type} (p q : String) (log log' : List String) : Report τ → Report τ → Prop where
  /-- a line is about a key of an entity, and ends in a path -/
  | value (value : τ) (lines : List (Entity × String × String)) :
      Relabels p q log log'
        (.ok (value, log ++ lines.map fun line => ignoredLine line.1 line.2.1 (p ++ line.2.2)))
        (.ok (value, log' ++ lines.map fun line => ignoredLine line.1 line.2.1 (q ++ line.2.2)))
  | fault (cause : Cause) (rest : String) :
      Relabels p q log log' (.error (.node cause (p ++ rest))) (.error (.node cause (q ++ rest)))

/-- What is shown of a location behind a path. -/
def shownBehind (location : List Step) : String := String.join (location.map shownStep)

theorem Remark.line_eq {path : String} (h : path ≠ "") (r : Remark) :
    r.line path = ignoredLine r.entity r.key (path ++ shownBehind r.location) := by
  rw [Remark.line, render_eq_append h]
  rfl

theorem Outcome.relabels_report {τ : Type} {p q : String} (hp : p ≠ "") (hq : q ≠ "") (log log' : List String)
    (o : Outcome τ) : Relabels p q log log' (o.report p log) (o.report q log') := by
  cases o with
  | error refusal =>
    rw [report, report, render_eq_append hp, render_eq_append hq]
    exact .fault refusal.cause _
  | ok result =>
    obtain ⟨value, remarks⟩ := result
    have hlines : ∀ {path : String}, path ≠ "" → remarks.map (·.line path) =
        (remarks.map fun r => (r.entity, r.key, shownBehind r.location)).map fun line =>
          ignoredLine line.1 line.2.1 (path ++ line.2.2) := by
      intro path hpath
      rw [List.map_map]
      exact List.map_congr_left fun r _ => r.line_eq hpath
    rw [report, report, hlines hp, hlines hq]
    exact .value value _

/-- An entity is read under any path and behind any log to the same value or fault; only the path in front of what is
reported differs, and the lines logged before. -/
theorem relabels_readEntityAt {α : Type} {graph : Graph α} (e : Entity) (start : e.Value) (node : Option α)
    {p q : String} (hp : p ≠ "") (hq : q ≠ "") (log log' : List String) :
    Relabels p q log log' (readEntityAt graph e start ⟨node, p⟩ log) (readEntityAt graph e start ⟨node, q⟩ log') := by
  cases node with
  | none =>
    have h : Relabels p q log log' (.error (.node (.wrongShape (.entityMap e) .nothing) (p ++ "")) : Report e.Value)
        (.error (.node (.wrongShape (.entityMap e) .nothing) (q ++ ""))) := .fault _ ""
    rw [String.append_empty, String.append_empty] at h
    rw [readEntityAt_unfold, readEntityAt_unfold]
    exact h
  | some node =>
    rw [readEntityAt_eq, readEntityAt_eq]
    exact Outcome.relabels_report hp hq log log' _

end Postmortem
