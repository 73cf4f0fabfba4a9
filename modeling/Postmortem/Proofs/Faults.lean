import Postmortem.Proofs.Acceptance
set_option autoImplicit false

/-!
# Faults: where they come from

A search fails because there is no single dump, and reading fails because of what a file holds; either may also fail for
reasons that lie in the file system.  Which of these a fault is about tells where it came from: no search fails for the
format of a dump, and no reading for the lack of a single one.
-/

namespace Postmortem

/-! ## Searching -/

/-- A fault that stops a run: it is neither about the search nor about the format of the dump. -/
structure Fault.Stops (fault : Fault) : Prop where
  not_search : fault.isSearch = false
  not_format : fault.isFormat = false

namespace Files

theorem stops_of_target {t : Tree} {l : Location} {fault : Fault} (h : t.target l = .error fault) : fault.Stops := by
  unfold Tree.target at h
  split at h
  · cases h
  · obtain rfl := Except.error.inj h
    exact ⟨rfl, rfl⟩
  · cases h

/-- A path cannot be expanded because the home directory of the user in it is unknown, or the user cannot be asked for. -/
theorem expand_eq_error_iff {homes : Homes} {path : String} {fault : Fault} :
    homes.expand path = .error fault ↔ ∃ user rest, homeUser? path = some (user, rest) ∧
      (hasNull user = true ∧ fault = .nullInPath ∨
        hasNull user = false ∧ homes.of? user = none ∧ fault = .noHome) := by
  unfold Homes.expand
  cases homeUser? path with
  | none => simp
  | some placed =>
    obtain ⟨user, rest⟩ := placed
    unfold Homes.find
    cases hnull : hasNull user with
    | true => simpa [hnull] using eq_comm
    | false =>
      cases hhome : homes.of? user with
      | none => simpa [hnull, hhome] using eq_comm
      | some home => simp [hnull, hhome]

theorem stops_of_expand {homes : Homes} {path : String} {fault : Fault} (h : homes.expand path = .error fault) :
    fault.Stops := by
  obtain ⟨user, rest, _, ⟨_, rfl⟩ | ⟨_, _, rfl⟩⟩ := expand_eq_error_iff.mp h
  · exact ⟨rfl, rfl⟩
  · exact ⟨rfl, rfl⟩

theorem stops_of_destination {t : Tree} {path : String} {fault : Fault} (h : t.destination path = .error fault) :
    fault.Stops := by
  have hreachable : ∀ l, t.reachable l = .error fault → fault.Stops := by
    intro l hl
    unfold Tree.reachable at hl
    split at hl
    · obtain rfl := Except.error.inj hl
      exact ⟨rfl, rfl⟩
    · obtain rfl := Except.error.inj hl
      exact ⟨rfl, rfl⟩
    · cases hl
  unfold Tree.destination at h
  split at h
  · exact hreachable _ h
  · exact hreachable _ h
  · obtain rfl := Except.error.inj h
    exact ⟨rfl, rfl⟩

/-- A path leads nowhere because its home directory is unknown, or because it cannot be resolved. -/
theorem place_eq_error_iff {t : Tree} {path : String} {fault : Fault} :
    t.place path = .error fault ↔ t.homes.expand path = .error fault ∨
      ∃ expanded, t.homes.expand path = .ok expanded ∧ t.destination expanded = .error fault := by
  unfold Tree.place
  cases t.homes.expand path with
  | error other => simp
  | ok expanded => simp

theorem stops_of_place {t : Tree} {path : String} {fault : Fault} (h : t.place path = .error fault) : fault.Stops := by
  rcases place_eq_error_iff.mp h with hexpand | ⟨_, _, hdestination⟩
  · exact stops_of_expand hexpand
  · exact stops_of_destination hdestination

theorem stops_of_isFile {t : Tree} {l : Location} {fault : Fault} (h : t.isFile l = .error fault) : fault.Stops := by
  unfold Tree.isFile at h
  split at h
  · rename_i htarget
    obtain rfl := Except.error.inj h
    exact stops_of_target htarget
  · cases h
  · cases h

theorem decideWalk_cons (t : Tree) (name : String) (root : Location) (found : Option Location) (l : Location)
    (rest : List Location) :
    decideWalk t name root found (l :: rest) =
      match t.isFile l with
      | .error fault => .error fault
      | .ok isFile =>
        if isFile && l.getLast? == some name then
          match found with
          | none => decideWalk t name root (some l) rest
          | some first => .error (.ambiguous name first.path l.path)
        else decideWalk t name root found rest := by
  cases found <;> rfl

theorem not_format_of_decideWalk {t : Tree} {name : String} {root : Location} {found : Option Location}
    {locations : List Location} {fault : Fault} (h : decideWalk t name root found locations = .error fault) :
    fault.isFormat = false := by
  induction locations generalizing found with
  | nil =>
    cases found with
    | none =>
      obtain rfl := Except.error.inj h
      rfl
    | some l => cases h
  | cons l rest ih =>
    rw [decideWalk_cons] at h
    split at h
    · rename_i hfile
      obtain rfl := Except.error.inj h
      exact (stops_of_isFile hfile).not_format
    · split at h
      · split at h
        · exact ih h
        · obtain rfl := Except.error.inj h
          rfl
      · exact ih h

/-- A search does not fail for the format of a dump. -/
theorem not_format_of_locate {t : Tree} {name directory : String} {fault : Fault}
    (h : locate t name directory = .error fault) : fault.isFormat = false := by
  unfold locate at h
  split at h
  · rename_i hplace
    obtain rfl := Except.error.inj h
    exact (stops_of_place hplace).not_format
  · split at h
    · rename_i htarget
      obtain rfl := Except.error.inj h
      exact (stops_of_target htarget).not_format
    · exact not_format_of_decideWalk h
    · obtain rfl := Except.error.inj h
      rfl

end Files

/-! ## Reading -/

namespace Reader

variable {config : Config} {t : Files.Tree} {parser : Yaml.Parser} {fault : Fault}

theorem not_search_of_ofText {text source : String} (h : ofText config text source parser = .error fault) :
    fault.isSearch = false := by
  unfold ofText at h
  split at h
  · rename_i hdocument
    obtain rfl := Except.error.inj h
    unfold document at hdocument
    split at hdocument
    · obtain rfl := Except.error.inj hdocument
      rfl
    · cases hdocument
  · obtain ⟨refusal, _, rfl⟩ := ofGraph_eq_error_iff.mp h
    rfl

theorem not_search_of_ofFile {path : String} {octets : List UInt8}
    (h : ofFile config path octets parser = .error fault) : fault.isSearch = false := by
  unfold ofFile at h
  split at h
  · rename_i hdecode
    obtain rfl := Except.error.inj h
    unfold decode at hdecode
    split at hdecode
    · split at hdecode
      · obtain rfl := Except.error.inj hdecode
        rfl
      · obtain rfl := Except.error.inj hdecode
        rfl
    · split at hdecode
      · cases hdecode
      · obtain rfl := Except.error.inj hdecode
        rfl
      · obtain rfl := Except.error.inj hdecode
        rfl
  · split at h
    · rename_i htext
      obtain rfl := Except.error.inj h
      exact not_search_of_ofText htext
    · cases h

/-- Reading a file does not fail for the lack of one dump to read. -/
theorem not_search_of_ofPath {path : String} (h : ofPath config t path parser = .error fault) :
    fault.isSearch = false := by
  unfold ofPath at h
  split at h
  · rename_i hplace
    obtain rfl := Except.error.inj h
    exact (Files.stops_of_place hplace).not_search
  · split at h
    · rename_i htarget
      obtain rfl := Except.error.inj h
      exact (Files.stops_of_target htarget).not_search
    · unfold ofEntry at h
      split at h
      · split at h
        · obtain rfl := Except.error.inj h
          rfl
        · exact not_search_of_ofFile h
      · obtain rfl := Except.error.inj h
        split <;> rfl
      · obtain rfl := Except.error.inj h
        rfl

/-- Reading from a directory fails in the search, or in reading what was found. -/
theorem ofDirectory_eq_error_iff {directory : String} :
    ofDirectory config t directory parser = .error fault ↔
      Files.locate t config.fileName directory = .error fault ∨
        ∃ l, Files.locate t config.fileName directory = .ok l ∧ ofPath config t l.path parser = .error fault := by
  unfold ofDirectory
  cases Files.locate t config.fileName directory with
  | error other => simp
  | ok l => simp

end Reader

end Postmortem
