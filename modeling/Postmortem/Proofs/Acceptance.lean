import Postmortem.Proofs.Entities
import Postmortem.Reader
set_option autoImplicit false

/-!
# Acceptance: which documents are read

A document is read exactly if its root conforms to the format and no decimal numeral is longer than the reader can
take.  The length is a limit of the reader and not of the format: a document that conforms but for the length of its
numerals is refused for one that is too long.
-/

namespace Postmortem

open Postmortem.Node

variable {α : Type} {graph : Graph α}

/-! ## Outcomes of the reader -/

namespace Reader

theorem exists_ofGraph_eq_ok_iff {config : Config} {root : Option α} :
    (∃ file, ofGraph config graph root = .ok file) ↔ (readDump graph root).Succeeds := by
  unfold ofGraph
  cases h : readDump graph root with
  | error refusal => simp [Outcome.Succeeds]
  | ok pair => exact ⟨fun _ => ⟨pair.1, pair.2, rfl⟩, fun _ => ⟨_, rfl⟩⟩

theorem ofGraph_eq_ok_iff {config : Config} {root : Option α} {file : DumpFile} :
    ofGraph config graph root = .ok file ↔
      ∃ content remarks, readDump graph root = .ok (content, remarks) ∧
        file = { content := content, warnings := if config.recordIgnored then remarks.map (·.line "") else [] } := by
  unfold ofGraph
  cases h : readDump graph root with
  | error refusal => simp
  | ok pair =>
    obtain ⟨content, remarks⟩ := pair
    constructor
    · intro hfile
      exact ⟨content, remarks, rfl, (Except.ok.inj hfile).symm⟩
    · rintro ⟨_, _, hpair, rfl⟩
      obtain ⟨rfl, rfl⟩ := Prod.mk.inj (Except.ok.inj hpair)
      rfl

theorem ofGraph_eq_error_iff {config : Config} {root : Option α} {fault : Fault} :
    ofGraph config graph root = .error fault ↔
      ∃ refusal, readDump graph root = .error refusal ∧
        fault = .node refusal.cause (render "" refusal.location) := by
  unfold ofGraph
  cases h : readDump graph root with
  | error refusal => simp [eq_comm]
  | ok pair => simp

end Reader

/-! ## The length of numerals -/

theorem Writes.unlimited {limit : Option Nat} {form : Form} {text : String} (h : Writes limit form text) :
    Writes none form text := by
  cases h with
  | text => exact .text text
  | uint isNumeral _ small => exact .uint isNumeral (fun _ _ hmost => nomatch hmost) small
  | flag isTruth => exact .flag isTruth
  | handle isHandle => exact .handle isHandle

/-- What conforms under a limit on the length of numerals conforms without one. -/
theorem Conforms.unlimited {limit : Option Nat} {form : Form} {node : α} (h : Conforms graph limit form node) :
    Conforms graph none form node := by
  induction h with
  | anything node => exact .anything node
  | scalar shape writes => exact .scalar shape writes.unlimited
  | sequence shape _ ih => exact .sequence shape ih
  | map kind shape known distinct _ whole ih => exact .map kind shape known distinct ih whole

theorem Misreads.kind? {limit : Option Nat} {form : Form} {text : String} {cause : Cause}
    (h : Misreads limit form text cause) : form.kind? = some .scalar := by
  cases h <;> rfl

/-- A text that is a scalar of a form but for the length of its numeral is refused for that. -/
theorem Misreads.tooLong {form : Form} {text : String} {cause : Cause} (h : Misreads readable form text cause)
    (hwrites : Writes none form text) : ∃ digits, cause = .numeralTooLong digits := by
  cases h with
  | uint h =>
    cases hwrites with
    | uint isNumeral short small =>
      cases h with
      | unfit h => exact absurd (h _ isNumeral).2 (Nat.not_le.mpr small)
      | long _ _ => exact ⟨_, rfl⟩
  | flag h =>
    cases hwrites with
    | flag isTruth => exact absurd isTruth (h _)
  | handle h =>
    cases hwrites with
    | handle isHandle => exact absurd isHandle (h _)

/-- The only thing that is wrong with a node that conforms but for the length of numerals is that length. -/
theorem FirstViolation.tooLong {form : Form} {node : α} {cause : Cause} {address : Address}
    {location : List Step} (h : FirstViolation graph readable form node cause address location)
    (hconforms : Conforms graph none form node) : ∃ digits, cause = .numeralTooLong digits := by
  -- Each violation but the length of a numeral denies what conforming says of the same place.
  induction h with
  | shape asked other => exact absurd (kind_of_conforms asked hconforms) other
  | scalar shape misreads =>
    have hscalar : _ = some Kind.scalar := misreads.kind?
    obtain ⟨text, htext, hwrites⟩ := (conforms_scalar_iff hscalar).mp hconforms
    obtain rfl := Shape.scalar.inj (shape.symm.trans htext)
    exact misreads.tooLong hwrites
  | element shape before fault ih =>
    obtain ⟨items, hitems, hconform⟩ := conforms_sequence_iff.mp hconforms
    obtain rfl := Shape.sequence.inj (shape.symm.trans hitems)
    exact ih (hconform _ (by simp))
  | oddKey kind shape before odd =>
    obtain ⟨entries, hentries, hconform, _⟩ := (conforms_map_iff kind).mp hconforms
    obtain rfl := Shape.map.inj (shape.symm.trans hentries)
    obtain ⟨name, _, hname, _⟩ := hconform.known _ (List.mem_append_right _ List.mem_cons_self)
    exact absurd (by rw [hname]; rfl) odd
  | unknownKey shape before isKey unknown =>
    obtain ⟨entries, hentries, hconform, _⟩ := (conforms_map_iff rfl).mp hconforms
    obtain rfl := Shape.map.inj (shape.symm.trans hentries)
    obtain ⟨name, _, hname, hknown⟩ := hconform.known _ (List.mem_append_right _ List.mem_cons_self)
    obtain rfl := Shape.scalar.inj (isKey.symm.trans hname)
    exact absurd (unknown.symm.trans hknown) (by simp)
  | repeatedKey shape before isKey again =>
    obtain ⟨entries, hentries, hconform, _⟩ := (conforms_map_iff rfl).mp hconforms
    obtain rfl := Shape.map.inj (shape.symm.trans hentries)
    have hnodup := hconform.distinct rfl
    rw [keysOf_append, keysOf_cons isKey, List.nodup_append] at hnodup
    exact absurd rfl (hnodup.2.2 _ again _ (by simp))
  | entry kind shape before isKey known new fault ih =>
    obtain ⟨entries, hentries, hconform, _⟩ := (conforms_map_iff kind).mp hconforms
    obtain rfl := Shape.map.inj (shape.symm.trans hentries)
    exact ih (hconform.conform _ (List.mem_append_right _ List.mem_cons_self) _ _ isKey known)
  | bothListings shape entriesConform incomplete all =>
    obtain ⟨entries, hentries, _, hwhole⟩ := (conforms_map_iff rfl).mp hconforms
    obtain rfl := Shape.map.inj (shape.symm.trans hentries)
    exact absurd hwhole (by simp [Whole, incomplete, all])

/-! ## The reader accepts the format -/

/-- A dump is read from exactly the documents whose root conforms to the format, as long as no decimal numeral has
more digits than are read; and a document that is refused although its root conforms is refused for such a numeral. -/
theorem accepts_iff_conforms (config : Config) (graph : Graph α) (root : Option α) :
    ((∃ file, Reader.ofGraph config graph root = .ok file) ↔
      ∃ node, root = some node ∧ Conforms graph readable (.entity .dump) node) ∧
    ((∃ file, Reader.ofGraph config graph root = .ok file) ↔
      (∃ node, root = some node ∧ Conforms graph none (.entity .dump) node) ∧
        ∀ digits path, Reader.ofGraph config graph root ≠ .error (.node (.numeralTooLong digits) path)) := by
  have haccepts : (∃ file, Reader.ofGraph config graph root = .ok file) ↔
      ∃ node, root = some node ∧ Conforms graph readable (.entity .dump) node := by
    rw [Reader.exists_ofGraph_eq_ok_iff, succeeds_readDump_iff]
  refine ⟨haccepts, ?_⟩
  constructor
  · intro h
    obtain ⟨node, hroot, hconforms⟩ := haccepts.mp h
    obtain ⟨file, hfile⟩ := h
    refine ⟨⟨node, hroot, hconforms.unlimited⟩, ?_⟩
    intro digits path herror
    rw [hfile] at herror
    cases herror
  · rintro ⟨⟨node, hroot, hconforms⟩, hshort⟩
    cases hread : Reader.ofGraph config graph root with
    | ok file => exact ⟨file, rfl⟩
    | error fault =>
      obtain ⟨refusal, hrefused, rfl⟩ := Reader.ofGraph_eq_error_iff.mp hread
      rcases readDump_eq_error_iff.mp hrefused with ⟨hnone, _⟩ | ⟨other, address, hother, hviolation⟩
      · exact absurd (hroot.symm.trans hnone) (by simp)
      · obtain rfl := Option.some.inj (hroot.symm.trans hother)
        obtain ⟨digits, hcause⟩ := hviolation.tooLong hconforms
        rw [hcause] at hread
        exact absurd hread (hshort digits _)

end Postmortem
