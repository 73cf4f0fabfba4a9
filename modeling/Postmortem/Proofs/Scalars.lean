import Postmortem.Proofs.Scanning
import Postmortem.Yaml.Scalar.Block
import Postmortem.Yaml.Scalar.Plain
import Postmortem.Yaml.Scalar.Quoted
set_option autoImplicit false

/-!
# Scalars: their faults and where they end

The readers of scalars stay within the text.  A plain scalar has no faults; a block scalar can only be malformed; and
a quoted scalar can hold an escape for a number that is that of no character.
-/

namespace Postmortem.Yaml

open Postmortem.Text

/-! ## Quoted scalars -/

namespace Quoted

theorem mem_of_escapeWidth? {letter : Char} {width : Nat} (h : escapeWidth? letter = some width) :
    (letter, width) ∈ [('x', 2), ('u', 4), ('U', 8)] := by
  unfold escapeWidth? at h
  split at h
  · obtain rfl := Option.some.inj h
    decide
  · obtain rfl := Option.some.inj h
    decide
  · obtain rfl := Option.some.inj h
    decide
  · cases h

theorem charOfNumber_yields (number : Nat) : Yields (fun _ => True) (NoCharacter number) (charOfNumber number) := by
  unfold charOfNumber
  by_cases hvalid : number.isValidChar
  · rw [dif_pos hvalid]
    exact .ok trivial
  · rw [dif_neg hvalid]
    unfold Nat.isValidChar at hvalid
    split
    · exact .error (.surrogate (by omega) (by omega))
    · rename_i hlarge
      exact .error (.codePoint (Nat.lt_of_not_le hlarge))

variable {text : List Char} {c : Cursor}

/-- An escape by code point is at fault for its digits, or for a number that is that of no character. -/
theorem readCodePoint_yields (width : Nat) :
    Yields (fun result => result.2.rest <:+ c.rest)
      (fun fault => fault = .malformed ∨ ∃ number digits back, NoCharacter number fault ∧
        c.rest = digits ++ back ∧ digits.length = width ∧ (∀ x ∈ digits, Numeral.isHex x = true) ∧
          Numeral.value 16 digits = number) (readCodePoint width c) := by
  unfold readCodePoint
  dsimp only
  split
  · rename_i hdigits
    have hchar := charOfNumber_yields (Numeral.value 16 (c.rest.take width))
    split
    · rename_i fault hfault
      rw [Bool.and_eq_true, beq_iff_eq, List.all_eq_true] at hdigits
      exact .error (Or.inr ⟨_, _, c.rest.drop width, hchar.of_error hfault,
        (List.take_append_drop width c.rest).symm, hdigits.1, hdigits.2, rfl⟩)
    · exact .ok (c.skip_suffix width)
  · exact .error (Or.inl rfl)

theorem readBreaks_reads (fuel : List Char) (hc : c.rest <:+ text) : Reads text (readBreaks fuel c) := by
  induction fuel generalizing c with
  | nil => exact .ok hc
  | cons _ fuel ih =>
    unfold readBreaks
    dsimp only
    have hstop := (c.dropWhile_suffix isSpaceOrTab).trans hc
    split
    · exact .error .malformed
    · split
      · exact .ok hstop
      · rename_i x below hbreak
        have hrest := ih ((Cursor.lineBreak?_suffix hbreak).trans hstop)
        split
        · rename_i fault hfault
          exact .error (hrest.of_error hfault)
        · rename_i more stop hmore
          exact .ok (within hrest hmore)

theorem readGap_reads (hc : c.rest <:+ text) : Reads text (readGap c) := by
  unfold readGap
  have hstop := (c.span_suffix isSpaceOrTab).trans hc
  dsimp only
  split
  · exact .ok hstop
  · rename_i x below hbreak
    have hbreaks := readBreaks_reads below.fuel ((Cursor.lineBreak?_suffix hbreak).trans hstop)
    split
    · rename_i fault hfault
      exact .error (hbreaks.of_error hfault)
    · rename_i others behind hothers
      exact .ok (within hbreaks hothers)

/-- An escape behind its backslash. -/
theorem readEscape_reads {more : List Char} (hc : c.rest = '\\' :: more) (htext : c.rest <:+ text) :
    Reads text (readEscape c.next) := by
  have hnext : c.next.rest = more := Cursor.next_rest hc
  have hwithin := c.next_suffix.trans htext
  unfold readEscape
  split
  · exact .error .malformed
  · rename_i letter hletter
    split
    · exact .ok (c.next.next_suffix.trans hwithin)
    · split
      · rename_i width hwidth
        have hpoint := readCodePoint_yields width (c := c.next.next)
        split
        · rename_i fault hfault
          refine .error ?_
          rcases hpoint.of_error hfault with rfl | ⟨number, digits, back, hnone, hrest, rfl, hhex, hvalue⟩
          · exact .malformed
          · obtain ⟨tail, htail⟩ : ∃ tail, c.next.rest = letter :: tail := List.head?_eq_some_iff.mp hletter
            rw [Cursor.next_rest htail] at hrest
            rw [hnext] at htail
            obtain ⟨front, hfront⟩ := htext
            refine .escape ⟨front, letter, digits, back, ?_, mem_of_escapeWidth? hwidth, hhex, hvalue⟩ hnone
            rw [← hfront, hc, htail, hrest]
        · rename_i x behind hpointed
          exact .ok ((hpoint.of_ok hpointed).trans (c.next.next_suffix.trans hwithin))
      · split
        · rename_i x below hbreak
          exact readBreaks_reads below.fuel ((Cursor.lineBreak?_suffix hbreak).trans hwithin)
        · exact .error .malformed

theorem readPart_yields (style : Style) (hc : c.rest <:+ text) :
    Yields (fun part => ∀ result ∈ part, result.2.rest <:+ text) (Due text) (readPart style c) := by
  unfold readPart
  split
  · exact .error .malformed
  · rename_i x hx
    have hnext := c.next_suffix.trans hc
    split
    · split
      · exact .ok (by simpa using c.next.next_suffix.trans hnext)
      · exact .ok (by simp)
    · split
      · have hgap := readGap_reads hc
        split
        · rename_i fault hfault
          exact .error (hgap.of_error hfault)
        · rename_i gap behind hok
          exact .ok (by simpa using hgap.of_ok hok)
      · split
        · rename_i hback
          obtain ⟨more, hmore⟩ : ∃ more, c.rest = x :: more := List.head?_eq_some_iff.mp hx
          rw [Bool.and_eq_true, beq_iff_eq] at hback
          rw [hback.1] at hmore
          have hescape := readEscape_reads hmore hc
          split
          · rename_i fault hfault
            exact .error (hescape.of_error hfault)
          · rename_i result behind hok
            exact .ok (by simpa using within hescape hok)
        · exact .ok (by simpa using hnext)

theorem readParts_reads (style : Style) (fuel : List Char) (hc : c.rest <:+ text) :
    Reads text (readParts style fuel c) := by
  induction fuel generalizing c with
  | nil => exact .error .malformed
  | cons _ fuel ih =>
    unfold readParts
    have hpart := readPart_yields style hc
    split
    · rename_i fault hfault
      exact .error (hpart.of_error hfault)
    · exact .ok (c.next_suffix.trans hc)
    · rename_i part behind hok
      have hrest := ih (hpart.of_ok hok _ rfl)
      split
      · rename_i fault hfault
        exact .error (hrest.of_error hfault)
      · rename_i more stop hmore
        exact .ok (within hrest hmore)

theorem read_reads (style : Style) (hc : c.rest <:+ text) : Reads text (read style c) := by
  unfold read
  have hparts := readParts_reads style c.fuel (c.next_suffix.trans hc)
  split
  · rename_i fault hfault
    exact .error (hparts.of_error hfault)
  · rename_i result behind hok
    exact .ok (within hparts hok)

end Quoted

/-! ## Plain scalars -/

namespace Plain

variable {text : List Char} {c : Cursor}

theorem readBreaks_suffix (fuel : List Char) (c : Cursor) : (readBreaks fuel c).2.rest <:+ c.rest := by
  induction fuel generalizing c with
  | nil => exact List.suffix_rfl
  | cons _ fuel ih =>
    unfold readBreaks
    dsimp only
    split
    · exact c.skipSpaces_suffix
    · rename_i x below hbreak
      have hbelow := (Cursor.lineBreak?_suffix hbreak).trans c.skipSpaces_suffix
      split
      · exact hbelow
      · have hrest := (ih below).trans hbelow
        split
        · rename_i more stop hmore
          rw [hmore] at hrest
          exact hrest
        · rename_i stop hmore
          rw [hmore] at hrest
          exact hrest

theorem readGap_suffix (c : Cursor) : (readGap c).2.rest <:+ c.rest := by
  have hstop := c.span_suffix (· == ' ')
  unfold readGap
  dsimp only
  split
  · exact hstop
  · rename_i x below hbreak
    have hbelow := (Cursor.lineBreak?_suffix hbreak).trans hstop
    split
    · exact hbelow
    · have hrest := (readBreaks_suffix below.fuel below).trans hbelow
      split
      · rename_i others stop hothers
        rw [hothers] at hrest
        exact hrest
      · rename_i stop hothers
        rw [hothers] at hrest
        exact hrest

theorem readRuns_suffix (context : Context) (indent : Nat) (fuel pending : List Char) (keyAllowed : Bool)
    (c : Cursor) : (readRuns context indent fuel pending keyAllowed c).2.2.rest <:+ c.rest := by
  induction fuel generalizing pending keyAllowed c with
  | nil => exact List.suffix_rfl
  | cons _ fuel ih =>
    have hstop := Cursor.spanWith_suffix (continues context) c.rest c.position
    unfold readRuns
    dsimp only
    split
    · exact List.suffix_rfl
    · have hgap := (readGap_suffix (Cursor.spanWith (continues context) c.rest c.position).2).trans hstop
      split
      · exact hgap
      · exact (ih _ _ _).trans hgap

theorem read_suffix (context : Context) (indent : Nat) (c : Cursor) :
    (read context indent c).2.2.rest <:+ c.rest := by
  unfold read
  exact readRuns_suffix context indent c.fuel [] false c

end Plain

/-! ## Block scalars -/

namespace Block

variable {text : List Char} {c : Cursor}

theorem readChomping_suffix (c : Cursor) : (readChomping c).2.rest <:+ c.rest := by
  unfold readChomping
  split
  · exact c.next_suffix
  · exact c.next_suffix
  · exact List.suffix_rfl

theorem readIncrement_reads (hc : c.rest <:+ text) : Reads text (readIncrement c) := by
  unfold readIncrement
  split
  · split
    · split
      · exact .error .malformed
      · exact .ok (c.next_suffix.trans hc)
    · exact .ok hc
  · exact .ok hc

theorem readHeader_reads (folded : Bool) (hc : c.rest <:+ text) : Reads text (readHeader folded c) := by
  have hfirst := (readChomping_suffix c.next).trans (c.next_suffix.trans hc)
  have hincrement := readIncrement_reads hfirst
  unfold readHeader
  dsimp only
  split
  · rename_i fault hfault
    exact .error (hincrement.of_error hfault)
  · rename_i increment stop hok
    have hstop := within hincrement hok
    have hsecond : (if (readChomping c.next).1.isSome then (none, stop) else readChomping stop).2.rest <:+ text := by
      split
      · exact hstop
      · exact (readChomping_suffix stop).trans hstop
    generalize (if (readChomping c.next).1.isSome then (none, stop) else readChomping stop) = second at hsecond ⊢
    split
    · have hline := second.2.finishLine_yields
      split
      · rename_i fault hfault
        obtain rfl := hline.of_error hfault
        exact .error .malformed
      · rename_i below hbelow
        exact .ok ((hline.of_ok hbelow).trans hsecond)
    · exact .error .malformed

theorem skipIndent_suffix (indent : Nat) (c : Cursor) : (skipIndent indent c).rest <:+ c.rest := c.skip_suffix _

theorem readBreaks_suffix (indent : Nat) (fuel : List Char) (c : Cursor) :
    (readBreaks indent fuel c).2.rest <:+ c.rest := by
  induction fuel generalizing c with
  | nil => exact List.suffix_rfl
  | cons _ fuel ih =>
    unfold readBreaks
    dsimp only
    split
    · exact skipIndent_suffix indent c
    · rename_i x below hbreak
      exact (ih below).trans ((Cursor.lineBreak?_suffix hbreak).trans (skipIndent_suffix indent c))

theorem readIndentation_suffix (fuel : List Char) (deepest : Nat) (c : Cursor) :
    (readIndentation fuel deepest c).2.2.rest <:+ c.rest := by
  induction fuel generalizing deepest c with
  | nil => exact List.suffix_rfl
  | cons _ fuel ih =>
    unfold readIndentation
    dsimp only
    split
    · exact c.skipSpaces_suffix
    · rename_i x below hbreak
      exact (ih _ below).trans ((Cursor.lineBreak?_suffix hbreak).trans c.skipSpaces_suffix)

theorem readLines_suffix (header : Header) (indent : Nat) (fuel breaks : List Char) (c : Cursor) :
    (readLines header indent fuel breaks c).2.rest <:+ c.rest := by
  induction fuel generalizing breaks c with
  | nil => exact List.suffix_rfl
  | cons _ fuel ih =>
    have hline := c.spanLine_suffix
    unfold readLines
    dsimp only
    split
    · rename_i x below hbreak
      have hbelow := (Cursor.lineBreak?_suffix hbreak).trans hline
      have hbehind := (readBreaks_suffix indent below.fuel below).trans hbelow
      split
      · exact (ih _ _).trans hbehind
      · exact hbehind
    · have hbehind := (readBreaks_suffix indent c.spanLine.2.fuel c.spanLine.2).trans hline
      split
      · exact (ih _ _).trans hbehind
      · exact hbehind

theorem readFront_suffix (header : Header) (least : Nat) (c : Cursor) :
    (readFront header least c).2.2.rest <:+ c.rest := by
  unfold readFront
  split
  · exact readIndentation_suffix c.fuel 0 c
  · exact readBreaks_suffix _ c.fuel c

theorem read_reads (folded : Bool) (outer : Nat) (hc : c.rest <:+ text) : Reads text (read folded outer c) := by
  have hheader := readHeader_reads folded hc
  unfold read
  split
  · rename_i fault hfault
    exact .error (hheader.of_error hfault)
  · rename_i header below hok
    have hstart := (readFront_suffix header (max outer 1) below).trans (within hheader hok)
    dsimp only
    split
    · exact .ok ((readLines_suffix _ _ _ _ _).trans hstart)
    · exact .ok hstart

end Block

end Postmortem.Yaml
