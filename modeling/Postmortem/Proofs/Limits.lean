import Postmortem.Proofs.Composing
import Postmortem.Proofs.Reports
set_option autoImplicit false

/-!
# Limits: faults that do not lie in the format

Whatever is wrong with a text should be reported as a fault of its format.  Three things are not: an escape for a
number above the code points, a version with too many digits, and a decimal numeral with too many digits, each where
it is the first thing that is wrong.  There are no others.  This holds with any parser that blames nothing on a text but
what is in it; set aside are texts with an escape for a surrogate, because it is no character and no scalar can hold it.
The main statement is `reads_or_refuses_iff`.
-/

namespace Postmortem

open Postmortem.Node

/-! ## Parsers -/

namespace Yaml.Parser

/-- A parser blames on a text only what is in it: if it is not malformed, an escape for no character, or a version with
too many digits. -/
def Honest (parser : Parser) : Prop := ∀ text fault, parser.parse text = .error fault → Due text.toList fault

theorem honest_default : ({} : Parser).Honest := fun text _ h => (Document.ofText_yields text).of_error h

/-- It is not an escape for a surrogate that keeps a text from being a document. -/
def Holds (parser : Parser) (text : String) : Prop := ∀ number, parser.parse text ≠ .error (.surrogate number)

end Yaml.Parser

/-! ## Overruns -/

/-- A text overruns a limit of the reader, which ends in a fault that does not lie in the format. -/
inductive Overruns (parser : Yaml.Parser) (text source : String) : Fault → Prop where
  /-- the text is no document for an escape above the code points, which stands in it -/
  | escape {number : Nat} (refused : parser.parse text = .error (.codePoint number))
      (stands : Yaml.HasEscape text.toList number) (large : 0x10ffff < number) :
      Overruns parser text source (.yaml (.codePoint number) source (parser.complaint text))
  /-- the text is no document for the digits of a version, which stand in it -/
  | version {count : Nat} (refused : parser.parse text = .error (.versionDigits count))
      (stands : Yaml.HasLongRun text.toList count) :
      Overruns parser text source (.yaml (.versionDigits count) source (parser.complaint text))
  /-- the first violation of the format is a scalar for a number that is a decimal numeral with too many digits -/
  | numeral {document : Yaml.Document} {node place : Nat} {width : Width} {value : String} {digits : List Char}
      {address : Address} {location : List Step} (parsed : parser.parse text = .ok document)
      (root : document.root = some node)
      (first : FirstViolation document.graph readable (.entity .dump) node (.numeralTooLong digits.length) address
        location)
      (leads : Leads document.graph (.entity .dump) node address location (.uint width) place)
      (shape : document.graph place = .scalar value) (isNumeral : IsNumeral value ⟨10, digits⟩)
      (long : Text.Numeral.maxDecimalDigits < digits.length) :
      Overruns parser text source (.node (.numeralTooLong digits.length) (pathOf location))

section

variable {config : Config} {parser : Yaml.Parser} {text source : String} {fault : Fault}

theorem Overruns.not_isFormat (h : Overruns parser text source fault) : fault.isFormat = false := by
  cases h <;> rfl

namespace Reader

/-! ## Stages -/

theorem ofText_eq_error_iff :
    ofText config text source parser = .error fault ↔
      (∃ refused, parser.parse text = .error refused ∧ fault = .yaml refused source (parser.complaint text)) ∨
        ∃ document, parser.parse text = .ok document ∧
          ofGraph config document.graph document.root = .error fault := by
  unfold ofText document
  cases h : parser.parse text with
  | error refused => simp [eq_comm]
  | ok document => simp

/-- A fault of a document is one of the format, or it is about the first violation: a numeral that is too long. -/
theorem ofGraph_overruns {document : Yaml.Document} (hparsed : parser.parse text = .ok document)
    (hrefused : ofGraph config document.graph document.root = .error fault) (hformat : fault.isFormat = false) :
    Overruns parser text source fault := by
  obtain ⟨⟨cause, location⟩, hdump, rfl⟩ := ofGraph_eq_error_iff.mp hrefused
  rcases readDump_eq_error_iff.mp hdump with ⟨_, hnothing⟩ | ⟨node, address, hroot, hfirst⟩
  · obtain rfl := congrArg Refusal.cause hnothing
    cases hformat
  · obtain ⟨form, place, hleads, hjustifies⟩ := hfirst.justifies
    dsimp only at hfirst hleads hjustifies hformat ⊢
    rw [hleads.render_eq]
    cases hjustifies with
    | numeralTooLong shape isNumeral long => exact .numeral hparsed hroot hfirst hleads shape isNumeral long
    | unknownKey => cases hformat
    | malformedHandle => cases hformat
    | badNumber => cases hformat
    | badFlag => cases hformat
    | wrongKind => cases hformat
    | oddKey => cases hformat
    | duplicateSetting => cases hformat
    | bothListings => cases hformat

/-- A text that is no document is malformed, or has something in it that is beyond a limit. -/
theorem overruns_of_refused (hhonest : parser.Honest) (hholds : parser.Holds text) {refused : Yaml.Fault}
    {complaint : Option String} (hrefused : parser.parse text = .error refused)
    (hformat : (Fault.yaml refused source complaint).isFormat = false) :
    Overruns parser text source (.yaml refused source (parser.complaint text)) := by
  cases hhonest text refused hrefused with
  | malformed => cases hformat
  | escape stands hnone =>
    cases hnone with
    | codePoint large => exact .escape hrefused stands large
    | surrogate => exact absurd hrefused (hholds _)
  | versionDigits stands => exact .version hrefused stands

/-- The reader ends in the fault of an overrun. -/
theorem ofText_of_overruns (h : Overruns parser text source fault) :
    ofText config text source parser = .error fault := by
  rw [ofText_eq_error_iff]
  cases h with
  | escape refused => exact Or.inl ⟨_, refused, rfl⟩
  | version refused => exact Or.inl ⟨_, refused, rfl⟩
  | numeral parsed root first leads =>
    refine Or.inr ⟨_, parsed, ?_⟩
    rw [ofGraph_eq_error_iff]
    refine ⟨⟨_, _⟩, readDump_eq_error_iff.mpr (Or.inr ⟨_, _, root, first⟩), ?_⟩
    rw [leads.render_eq]

end Reader

end

namespace Reader

/-! ## Reading a text -/

/-- Reading a text gives a dump or a fault of its format unless the text overruns a limit, and then it ends in the
fault of the overrun. -/
theorem reads_or_refuses_iff {parser : Yaml.Parser} (hhonest : parser.Honest) {text : String}
    (hholds : parser.Holds text) (config : Config) (source : String) :
    (((∃ file, ofText config text source parser = .ok file) ∨
        ∃ fault, ofText config text source parser = .error fault ∧ fault.isFormat = true) ↔
      ¬ ∃ fault, Overruns parser text source fault) ∧
    ∀ fault, ofText config text source parser = .error fault ∧ fault.isFormat = false ↔
      Overruns parser text source fault := by
  have hfault : ∀ fault, ofText config text source parser = .error fault ∧ fault.isFormat = false ↔
      Overruns parser text source fault := by
    intro fault
    constructor
    · rintro ⟨hread, hformat⟩
      rcases ofText_eq_error_iff.mp hread with ⟨refused, hrefused, rfl⟩ | ⟨document, hparsed, hrefused⟩
      · exact overruns_of_refused hhonest hholds hrefused hformat
      · exact ofGraph_overruns hparsed hrefused hformat
    · intro h
      exact ⟨ofText_of_overruns h, h.not_isFormat⟩
  refine ⟨?_, hfault⟩
  constructor
  · rintro h ⟨fault, hoverruns⟩
    obtain ⟨hread, hformat⟩ := (hfault fault).mpr hoverruns
    rcases h with ⟨file, hfile⟩ | ⟨other, hother, hisFormat⟩
    · exact absurd (hread.symm.trans hfile) (by simp)
    · obtain rfl : fault = other := Except.error.inj (hread.symm.trans hother)
      exact absurd (hformat.symm.trans hisFormat) (by simp)
  · intro hnone
    cases hread : ofText config text source parser with
    | ok file => exact Or.inl ⟨file, rfl⟩
    | error fault =>
      refine Or.inr ⟨fault, rfl, ?_⟩
      cases hformat : fault.isFormat with
      | true => rfl
      | false => exact absurd ⟨fault, (hfault fault).mp ⟨hread, hformat⟩⟩ hnone

/-- A text with an escape by eight digits, which reach beyond the code points. -/
def largeEscape : String := "version: \"\\U00110000\""

/-- The fault of the escape does not lie in the format. -/
theorem reads_or_refuses_iff_largeEscape :
    ({} : Yaml.Parser).Honest ∧ ({} : Yaml.Parser).Holds largeEscape ∧
      ofText {} largeEscape anonymous = .error (.yaml (.codePoint 0x110000) anonymous none) ∧
      Overruns {} largeEscape anonymous (.yaml (.codePoint 0x110000) anonymous none) ∧
      ¬ ∃ file, ofText {} largeEscape anonymous = .ok file := by
  have hread : ofText {} largeEscape anonymous = .error (.yaml (.codePoint 0x110000) anonymous none) := by
    decide +kernel
  have hholds : ({} : Yaml.Parser).Holds largeEscape := by
    intro number hparsed
    have hother : ofText {} largeEscape anonymous = .error (.yaml (.surrogate number) anonymous none) :=
      ofText_eq_error_iff.mpr (Or.inl ⟨_, hparsed, rfl⟩)
    cases hread.symm.trans hother
  obtain ⟨hiff, hfault⟩ := reads_or_refuses_iff Yaml.Parser.honest_default hholds {} anonymous
  have hoverruns := (hfault _).mp ⟨hread, rfl⟩
  refine ⟨Yaml.Parser.honest_default, hholds, hread, hoverruns, ?_⟩
  intro hfile
  exact hiff.mp (Or.inl hfile) ⟨_, hoverruns⟩

end Reader

end Postmortem
