import Postmortem.Text.Numeral
import Postmortem.Yaml.Cursor
set_option autoImplicit false

/-!
# Scanning: where the readers stop and why they fail

A reader leaves a suffix of what it is given, and a fault that it reports is borne out by the text: an escape that names
no character stands there, or a version number that is too long.  Both are said of each reader at once, as `Reads`.
-/

namespace Postmortem.Yaml

open Postmortem.Text

/-! ## Outcomes -/

/-- Where an outcome may end: at a good value, or with a fault of a certain sort. -/
inductive Yields {β : Type} (good : β → Prop) (bad : Fault → Prop) : Except Fault β → Prop where
  | ok {value : β} (h : good value) : Yields good bad (.ok value)
  | error {fault : Fault} (h : bad fault) : Yields good bad (.error fault)

section

variable {β : Type} {good : β → Prop} {bad : Fault → Prop} {o : Except Fault β}

theorem Yields.of_ok {value : β} (h : Yields good bad o) (ho : o = .ok value) : good value := by
  subst ho
  cases h with
  | ok h => exact h

theorem Yields.of_error {fault : Fault} (h : Yields good bad o) (ho : o = .error fault) : bad fault := by
  subst ho
  cases h with
  | error h => exact h

end

/-! ## Faults that the text bears out -/

/-- A text has an escape for a number: a backslash, a letter, and as many digits as go with the letter. -/
def HasEscape (text : List Char) (number : Nat) : Prop :=
  ∃ front letter digits back, text = front ++ '\\' :: letter :: (digits ++ back) ∧
    (letter, digits.length) ∈ [('x', 2), ('u', 4), ('U', 8)] ∧ (∀ c ∈ digits, Numeral.isHex c = true) ∧
      Numeral.value 16 digits = number

/-- The fault of an escape for a number that is that of no character. -/
inductive NoCharacter (number : Nat) : Fault → Prop where
  /-- the number is above the code points -/
  | codePoint (large : 0x10ffff < number) : NoCharacter number (.codePoint number)
  /-- the number is that of a surrogate -/
  | surrogate (low : 0xd800 ≤ number) (high : number ≤ 0xdfff) : NoCharacter number (.surrogate number)

/-- A text has a run of decimal digits that is longer than a number that is read. -/
def HasLongRun (text : List Char) (count : Nat) : Prop :=
  ∃ front digits back, text = front ++ (digits ++ back) ∧ (∀ c ∈ digits, Numeral.isDecimal c = true) ∧
    digits.length = count ∧ Numeral.maxDecimalDigits < count

/-- A fault that a text bears out. -/
inductive Due (text : List Char) : Fault → Prop where
  | malformed : Due text .malformed
  | escape {number : Nat} {fault : Fault} (h : HasEscape text number) (hnone : NoCharacter number fault) : Due text fault
  | versionDigits {count : Nat} (h : HasLongRun text count) : Due text (.versionDigits count)

/-- A reader stops within a text, or reports a fault that the text bears out. -/
abbrev Reads {β : Type} (text : List Char) (o : Except Fault (β × Cursor)) : Prop :=
  Yields (fun result => result.2.rest <:+ text) (Due text) o

theorem within {β : Type} {text : List Char} {o : Except Fault (β × Cursor)} {value : β} {behind : Cursor}
    (h : Reads text o) (ho : o = .ok (value, behind)) : behind.rest <:+ text := by
  subst ho
  cases h with
  | ok h => exact h

/-! ## Cursors -/

namespace Cursor

theorem next_suffix (c : Cursor) : c.next.rest <:+ c.rest := by
  unfold next
  split
  · exact List.suffix_rfl
  · rename_i x more hrest
    rw [hrest]
    exact List.suffix_cons x more

theorem next_rest {c : Cursor} {x : Char} {more : List Char} (h : c.rest = x :: more) : c.next.rest = more := by
  unfold next
  rw [h]

theorem skip_suffix (c : Cursor) (n : Nat) : (c.skip n).rest <:+ c.rest := by
  induction n generalizing c with
  | zero => exact List.suffix_rfl
  | succ n ih => exact (ih c.next).trans c.next_suffix

theorem spanWith_suffix (test : Char → Option Char → Bool) (text : List Char) (here : Position) :
    (spanWith test text here).2.rest <:+ text :=
  ⟨_, spanWith_append test text here⟩

theorem span_suffix (c : Cursor) (test : Char → Bool) : (c.span test).2.rest <:+ c.rest :=
  spanWith_suffix _ _ _

theorem dropWhile_suffix (c : Cursor) (test : Char → Bool) : (c.dropWhile test).rest <:+ c.rest :=
  c.span_suffix test

theorem skipSpaces_suffix (c : Cursor) : c.skipSpaces.rest <:+ c.rest := c.dropWhile_suffix _

theorem spanLine_suffix (c : Cursor) : c.spanLine.2.rest <:+ c.rest := c.span_suffix _

theorem lineBreak?_suffix {c below : Cursor} {x : Char} (h : c.lineBreak? = some (x, below)) :
    below.rest <:+ c.rest := by
  unfold lineBreak? at h
  split at h
  · exact absurd h (by simp)
  · obtain rfl := (Prod.mk.inj (Option.some.inj h)).2
    exact c.next.next_suffix.trans c.next_suffix
  · split at h
    · obtain rfl := (Prod.mk.inj (Option.some.inj h)).2
      exact c.next_suffix
    · split at h
      · obtain rfl := (Prod.mk.inj (Option.some.inj h)).2
        exact c.next_suffix
      · exact absurd h (by simp)

theorem finishLine_yields (c : Cursor) :
    Yields (fun below => below.rest <:+ c.rest) (· = .malformed) c.finishLine := by
  unfold finishLine
  have hstop : (if c.skipSpaces.peek == some '#' then c.skipSpaces.spanLine.2 else c.skipSpaces).rest <:+ c.rest := by
    split
    · exact (spanLine_suffix _).trans c.skipSpaces_suffix
    · exact c.skipSpaces_suffix
  dsimp only
  generalize (if c.skipSpaces.peek == some '#' then c.skipSpaces.spanLine.2 else c.skipSpaces) = stop at hstop ⊢
  split
  · rename_i x below hbreak
    exact .ok ((lineBreak?_suffix hbreak).trans hstop)
  · split
    · exact .ok hstop
    · exact .error rfl

/-- The characters of a run pass its test. -/
theorem span_passes (c : Cursor) (test : Char → Bool) : ∀ x ∈ (c.span test).1, test x = true := by
  have hall : ∀ (text : List Char) (here : Position),
      ∀ x ∈ (spanWith (fun y _ => test y) text here).1, test x = true := by
    intro text
    induction text with
    | nil => exact fun _ x hx => absurd hx (by simp [spanWith])
    | cons y more ih =>
      intro here x hx
      simp only [spanWith] at hx
      split at hx
      · rename_i htest
        rcases List.mem_cons.mp hx with rfl | hx
        · exact htest
        · exact ih _ x hx
      · exact absurd hx (by simp)
  exact hall c.rest c.position

end Cursor

end Postmortem.Yaml
