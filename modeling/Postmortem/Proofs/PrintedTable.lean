import Postmortem.Proofs.Numeral
import Postmortem.Proofs.Pairs
import Postmortem.Summary
set_option autoImplicit false

/-!
# Printed tables: texts cannot forge numbers

The table of command buffers shows texts of the dump between its numbers, and these texts may hold anything: spaces,
digits, line breaks.  A row is one line all the same, and it begins and ends with numbers, so whoever reads a line by
its words finds the address first and the nine last numbers of the command buffer at the end.  This holds for every
printer that aligns the cells of a table and breaks no line within one (`Aligns.describes`), hence for `Table.print`; the
main statement is `entries_tabulate`.
-/

namespace Postmortem.Progress

open Postmortem.Text

/-! ## Words -/

/-- The words of a line: what stands between its spaces, as far as it is not empty. -/
def words (line : List Char) : List (List Char) := (line.splitOn ' ').filter (· ≠ [])

theorem words_append (front back : List Char) : words (front ++ ' ' :: back) = words front ++ words back := by
  simp only [words, List.splitOn_eq_splitOnP]
  rw [List.splitOnP_append_cons front back (by decide), List.filter_append]

@[simp] theorem words_nil : words [] = [] := rfl

theorem words_space (line : List Char) : words (' ' :: line) = words line := words_append [] line

theorem words_eq_singleton {word : List Char} (hne : word ≠ []) (hspace : ' ' ∉ word) : words word = [word] := by
  have hsplit : word.splitOn ' ' = [word] := by
    have hjoined : ([' '].intercalate [word]).splitOn ' ' = [word] :=
      List.splitOn_intercalate ' ' (by simpa using hspace) (by simp)
    rwa [List.intercalate_singleton] at hjoined
  simp [words, hsplit, hne]

theorem words_padLeft (width : Nat) (text : List Char) : words (padLeft width text) = words text := by
  rw [padLeft]
  induction width - text.length with
  | zero => rfl
  | succ spaces ih => rw [List.replicate_succ, List.cons_append, words_space, ih]

/-- The words of texts joined by spaces are those of the texts. -/
theorem words_intercalate (texts : List (List Char)) : words ([' '].intercalate texts) = texts.flatMap words := by
  induction texts with
  | nil => rfl
  | cons text rest ih =>
    cases rest with
    | nil => simp
    | cons next more =>
      rw [List.intercalate_cons_cons, List.append_assoc, List.singleton_append, words_append, ih, ← List.flatMap_cons]

/-! ## Widths -/

/-- Cells are not wider than their columns, and there is one for each column. -/
def FitIn (cells : List (List Char)) (columnWidths : List Nat) : Prop :=
  List.Forall₂ (fun cell width => cell.length ≤ width) cells columnWidths

/-- Columns as wide as they were, and as wide as the cells of one more row. -/
def widened (columnWidths : List Nat) (row : List (List Char)) : List Nat :=
  List.zipWith max columnWidths (row.map List.length)

section

variable {cells row : List (List Char)} {columnWidths : List Nat}

theorem length_widened (h : row.length = columnWidths.length) :
    (widened columnWidths row).length = columnWidths.length := by
  simp [widened, h]

theorem fitIn_widened (h : row.length = columnWidths.length) : FitIn row (widened columnWidths row) := by
  induction row generalizing columnWidths with
  | nil =>
    rw [List.length_eq_zero_iff.mp h.symm]
    exact .nil
  | cons cell rest ih =>
    cases columnWidths with
    | nil => exact absurd h (by simp)
    | cons width more => exact .cons (Nat.le_max_right _ _) (ih (Nat.succ.inj h))

theorem FitIn.widened (hfit : FitIn cells columnWidths) (h : row.length = columnWidths.length) :
    FitIn cells (widened columnWidths row) := by
  induction hfit generalizing row with
  | nil => exact .nil
  | cons hcell _ ih =>
    cases row with
    | nil => exact absurd h (by simp)
    | cons other rest => exact .cons (Nat.le_trans hcell (Nat.le_max_left _ _)) (ih (Nat.succ.inj h))

/-- Columns that are widened row by row hold what they held before and each of the rows. -/
theorem fitIn_foldl_widened {rows : List (List (List Char))} (h : ∀ row ∈ rows, row.length = columnWidths.length) :
    (∀ cells, FitIn cells columnWidths → FitIn cells (rows.foldl Progress.widened columnWidths)) ∧
      ∀ row ∈ rows, FitIn row (rows.foldl Progress.widened columnWidths) := by
  induction rows generalizing columnWidths with
  | nil => exact ⟨fun _ hfit => hfit, by simp⟩
  | cons first rest ih =>
    rw [List.forall_mem_cons] at h
    rw [List.foldl_cons]
    have hlengths : ∀ row ∈ rest, row.length = (Progress.widened columnWidths first).length := fun row hrow => by
      rw [length_widened h.1, h.2 row hrow]
    obtain ⟨hbefore, hrest⟩ := ih hlengths
    refine ⟨fun cells hfit => hbefore cells (hfit.widened h.1), ?_⟩
    exact List.forall_mem_cons.mpr ⟨hbefore first (fitIn_widened h.1), hrest⟩

end

/-- The columns of a table hold its headings and all of its rows. -/
theorem fitIn_widths {headings : List (List Char)} {rows : List (List (List Char))}
    (h : ∀ row ∈ rows, row.length = headings.length) : ∀ row ∈ headings :: rows, FitIn row (widths headings rows) := by
  have hlengths : FitIn headings (headings.map List.length) :=
    List.forall₂_map_right_iff.mpr (List.forall₂_same.mpr fun _ _ => Nat.le_refl _)
  have hcolumns : ∀ row ∈ rows, row.length = (headings.map List.length).length := by simpa using h
  obtain ⟨hheadings, hrows⟩ := fitIn_foldl_widened hcolumns
  exact List.forall_mem_cons.mpr ⟨hheadings headings hlengths, hrows⟩

/-! ## Lines -/

section

variable {cells : List (List Char)} {columnWidths : List Nat}

theorem length_padLeft {width : Nat} {text : List Char} (h : text.length ≤ width) :
    (padLeft width text).length = width := by
  rw [padLeft, List.length_append, List.length_replicate]
  omega

/-- The length of a line, with a space between two columns. -/
def lineLength : (columnWidths : List Nat) → Nat
  | [] => 0
  | [width] => width
  | width :: next :: more => width + 1 + lineLength (next :: more)

theorem length_intercalate (texts : List (List Char)) :
    ([' '].intercalate texts).length = lineLength (texts.map List.length) := by
  induction texts with
  | nil => rfl
  | cons text rest ih =>
    cases rest with
    | nil => simp [lineLength]
    | cons next more =>
      rw [List.intercalate_cons_cons, List.length_append, List.length_append, ih]
      rfl

/-- All lines in the same columns are equally long. -/
theorem length_printLine (h : FitIn cells columnWidths) :
    (printLine columnWidths cells).length = lineLength columnWidths := by
  have hcells : (List.zipWith padLeft columnWidths cells).map List.length = columnWidths := by
    induction h with
    | nil => rfl
    | cons hcell _ ih => rw [List.zipWith_cons_cons, List.map_cons, length_padLeft hcell, ih]
  rw [printLine, length_intercalate, hcells]

/-- A line has the words of its cells. -/
theorem words_printLine (h : FitIn cells columnWidths) : words (printLine columnWidths cells) = cells.flatMap words := by
  rw [printLine, words_intercalate]
  induction h with
  | nil => rfl
  | cons _ _ ih => rw [List.zipWith_cons_cons, List.flatMap_cons, List.flatMap_cons, words_padLeft, ih]

/-- A line begins with its first cell. -/
theorem printLine_cons {first second : List Char} (h : FitIn (first :: second :: cells) columnWidths) :
    ∃ spaces rest, printLine columnWidths (first :: second :: cells)
      = List.replicate spaces ' ' ++ first ++ ' ' :: rest := by
  cases h with
  | @cons _ width _ _ _ hrest =>
    cases hrest with
    | @cons _ next _ more _ _ =>
      refine ⟨width - first.length, printLine (next :: more) (second :: cells), ?_⟩
      simp [printLine, List.intercalate_cons_cons, padLeft]

theorem mem_intercalate {separator c : Char} {texts : List (List Char)} (h : c ∈ [separator].intercalate texts) :
    c = separator ∨ ∃ text ∈ texts, c ∈ text := by
  induction texts with
  | nil => exact absurd h (by simp [List.intercalate])
  | cons text rest ih =>
    cases rest with
    | nil => exact Or.inr ⟨text, List.mem_cons_self, by simpa using h⟩
    | cons next more =>
      rw [List.intercalate_cons_cons, List.mem_append, List.mem_append, List.mem_singleton] at h
      rcases h with (htext | hseparator) | hrest
      · exact Or.inr ⟨text, List.mem_cons_self, htext⟩
      · exact Or.inl hseparator
      · rcases ih hrest with hseparator | ⟨other, hother, hmem⟩
        · exact Or.inl hseparator
        · exact Or.inr ⟨other, List.mem_cons_of_mem _ hother, hmem⟩

/-- There is no line break in a line if there is none in its cells. -/
theorem lf_notMem_printLine (hfit : FitIn cells columnWidths) (h : ∀ cell ∈ cells, '\n' ∉ cell) :
    '\n' ∉ printLine columnWidths cells := by
  have hpadded : ∀ text ∈ List.zipWith padLeft columnWidths cells, '\n' ∉ text := by
    induction hfit with
    | nil => simp
    | cons _ _ ih =>
      rw [List.forall_mem_cons] at h
      rw [List.zipWith_cons_cons, List.forall_mem_cons]
      refine ⟨?_, ih h.2⟩
      simp [padLeft, h.1]
  intro hmem
  rcases mem_intercalate hmem with hspace | ⟨text, htext, hlf⟩
  · exact absurd hspace (by decide)
  · exact hpadded text htext hlf

end

/-! ## Cells -/

theorem space_notMem_digits (n : Nat) : ' ' ∉ Numeral.digits 10 n := fun hmem =>
  Node.forall_mem_digits (p := (· ≠ ' ')) (by decide) (by decide) n ' ' hmem rfl

theorem lf_notMem_digits (n : Nat) : '\n' ∉ Numeral.digits 10 n := fun hmem =>
  Node.forall_mem_digits (p := (· ≠ '\n')) (by decide) (by decide) n '\n' hmem rfl

/-- A numeral is a word. -/
theorem words_digits (n : Nat) : words (Numeral.digits 10 n) = [Numeral.digits 10 n] :=
  words_eq_singleton Nat.toDigits_ne_nil (space_notMem_digits n)

/-- Whatever a cell holds, it is printed without a line break. -/
theorem Cell.lf_notMem_print (cell : Cell) : '\n' ∉ cell.print := by
  cases cell with
  | number value => exact lf_notMem_digits value
  | text content =>
    intro hmem
    obtain ⟨c, _, hc⟩ := List.mem_flatMap.mp hmem
    unfold escapeCellChar at hc
    split at hc
    · exact absurd hc (by decide)
    · split at hc
      · exact absurd hc (by decide)
      · split at hc
        · exact absurd hc (by decide)
        · rename_i hlf
          exact hlf (List.mem_singleton.mp hc).symm

/-! ## Printers -/

/-- A cell may be shown so: a number by its numeral, and a text by anything on one line. -/
inductive Cell.Shows : Cell → List Char → Prop where
  | number (value : Nat) : Shows (.number value) (Numeral.digits 10 value)
  | text (content : String) {shown : List Char} (hline : '\n' ∉ shown) : Shows (.text content) shown

theorem Cell.Shows.lf_notMem {cell : Cell} {shown : List Char} (h : cell.Shows shown) : '\n' ∉ shown := by
  cases h with
  | number value => exact lf_notMem_digits value
  | text content hline => exact hline

theorem Cell.shows_print (cell : Cell) : cell.Shows cell.print := by
  cases cell with
  | number value => exact .number value
  | text content => exact .text content (Cell.text content).lf_notMem_print

/-- A table has a cell for each column in each row, and its headings are without line breaks. -/
structure Table.Regular (t : Table) : Prop where
  rows : ∀ row ∈ t.rows, row.length = t.columns.length
  headings : ∀ column ∈ t.columns, '\n' ∉ column.heading.toList

/-- Columns of some widths hold what is shown of the headings of a table and of the cells of its rows. -/
structure Aligned (t : Table) (columnWidths : List Nat) (headings : List (List Char)) (rows : List (List (List Char))) :
    Prop where
  fitHeadings : FitIn headings columnWidths
  headings : ∀ heading ∈ headings, '\n' ∉ heading
  rows : List.Forall₂ (fun row cells => FitIn cells columnWidths ∧ List.Forall₂ Cell.Shows row cells) t.rows rows

/-- What is asked of a printer of tables: a line of headings and a line for each row, in columns that hold them. -/
def Aligns (print : Table → String) : Prop :=
  ∀ t : Table, t.Regular → ∃ columnWidths headings rows, Aligned t columnWidths headings rows ∧
    print t = String.ofList (['\n'].intercalate ((headings :: rows).map (printLine columnWidths)))

theorem Column.lf_notMem_print {column : Column} (h : '\n' ∉ column.heading.toList) : '\n' ∉ column.print := by
  unfold Column.print
  split
  · simpa using h
  · exact h

theorem Table.aligns_print : Aligns Table.print := by
  intro t ht
  have hcells : ∀ row ∈ t.rows.map (List.map Cell.print), row.length = (t.columns.map Column.print).length := by
    simpa using ht.rows
  have hfit := fitIn_widths hcells
  rw [List.forall_mem_cons, List.forall_mem_map] at hfit
  refine ⟨_, _, _, ⟨hfit.1, ?_, ?_⟩, rfl⟩
  · rw [List.forall_mem_map]
    exact fun column hcolumn => Column.lf_notMem_print (ht.headings column hcolumn)
  · rw [List.forall₂_map_right_iff, List.forall₂_same]
    refine fun row hrow => ⟨hfit.2 row hrow, ?_⟩
    rw [List.forall₂_map_right_iff, List.forall₂_same]
    exact fun cell _ => cell.shows_print

/-! ## Tables -/

/-- The last nine numbers that a row tells about a command buffer. -/
def lastNumbers (cb : CommandBuffer) : List Nat := [
  cb.queue.value, cb.submitInfoId, cb.beginValue, cb.endValue, cb.topCheckpointValue, cb.bottomCheckpointValue,
  cb.lastStartedCommand, cb.lastCompletedCommand, cb.commands.length]

/-- A line tells about a command buffer: after spaces it begins with its address, and its last words are the numerals of
its nine last numbers. -/
structure TellsAbout (cb : CommandBuffer) (line : List Char) : Prop where
  address : ∃ spaces rest, line = List.replicate spaces ' ' ++ (Numeral.decimal cb.handle.value).toList ++ ' ' :: rest
  numbers : ∃ front, words line = front ++ (lastNumbers cb).map fun n => (Numeral.decimal n).toList

/-- What is shown of numbers are their numerals. -/
theorem eq_digits_of_shows {numbers : List Nat} {cells : List (List Char)}
    (h : List.Forall₂ Cell.Shows (numbers.map Cell.number) cells) : cells = numbers.map (Numeral.digits 10) := by
  rw [List.forall₂_map_left_iff] at h
  induction h with
  | nil => rfl
  | cons hfirst _ ih =>
    cases hfirst
    rw [ih, List.map_cons]

theorem tellsAbout_printLine {cb : CommandBuffer} {cells : List (List Char)} {columnWidths : List Nat}
    (h : FitIn cells columnWidths) (hshows : List.Forall₂ Cell.Shows (bufferCells cb) cells) :
    TellsAbout cb (printLine columnWidths cells) := by
  have hcells : bufferCells cb = .number cb.handle.value :: .text cb.handle.name :: .text cb.state :: .text cb.level ::
      (lastNumbers cb).map Cell.number := rfl
  rw [hcells] at hshows
  obtain ⟨_, _, haddress, hname, rfl⟩ := List.forall₂_cons_left_iff.mp hshows
  obtain ⟨name, _, _, hstate, rfl⟩ := List.forall₂_cons_left_iff.mp hname
  obtain ⟨state, _, _, hlevel, rfl⟩ := List.forall₂_cons_left_iff.mp hstate
  obtain ⟨level, _, _, hnumbers, rfl⟩ := List.forall₂_cons_left_iff.mp hlevel
  obtain rfl := eq_digits_of_shows hnumbers
  cases haddress
  constructor
  · rw [Numeral.decimal, String.toList_ofList]
    exact printLine_cons h
  · have hwords : ((lastNumbers cb).map (Numeral.digits 10)).flatMap words
        = (lastNumbers cb).map (Numeral.digits 10) := by
      rw [List.flatMap_map, ← List.flatMap_singleton' ((lastNumbers cb).map _), List.flatMap_map]
      exact List.flatMap_congr fun n _ => words_digits n
    refine ⟨words (Numeral.digits 10 cb.handle.value) ++ words name ++ words state ++ words level, ?_⟩
    rw [words_printLine h]
    simp only [List.flatMap_cons, hwords, Numeral.decimal, String.toList_ofList, List.append_assoc]

/-- A printed table is honest about the command buffers of a device: it has a line of headings and a line for each of
them, in order, that tells about it, and all lines are equally long. -/
structure Tabulates (d : Device) (table : String) : Prop where
  lines : (table.toList.splitOn '\n').length = d.commandBuffers.length + 1
  aligned : ∃ length, ∀ line ∈ table.toList.splitOn '\n', line.length = length
  rows : ∀ k cb, d.commandBuffers[k]? = some cb →
    ∃ line, (table.toList.splitOn '\n')[k + 1]? = some line ∧ TellsAbout cb line

theorem regular_bufferSummary (d : Device) : (bufferSummary d).Regular := by
  rw [bufferSummary_eq]
  constructor
  · rw [List.forall_mem_map]
    exact fun _ _ => rfl
  · exact (by decide : ∀ column ∈ bufferColumns, '\n' ∉ column.heading.toList)

theorem Aligns.tabulates {print : Table → String} (h : Aligns print) (d : Device) :
    Tabulates d (print (bufferSummary d)) := by
  obtain ⟨columnWidths, headings, rows, haligned, hprint⟩ := h _ (regular_bufferSummary d)
  have hrows := haligned.rows
  rw [bufferSummary_eq, List.forall₂_map_left_iff] at hrows
  have hfit : ∀ cells ∈ headings :: rows, FitIn cells columnWidths := by
    refine List.forall_mem_cons.mpr ⟨haligned.fitHeadings, fun cells hcells => ?_⟩
    obtain ⟨_, _, hfit, _⟩ := exists_of_forall₂_right hrows hcells
    exact hfit
  have hlines : ∀ cells ∈ headings :: rows, ∀ cell ∈ cells, '\n' ∉ cell := by
    refine List.forall_mem_cons.mpr ⟨haligned.headings, fun cells hcells cell hcell => ?_⟩
    obtain ⟨_, _, _, hshows⟩ := exists_of_forall₂_right hrows hcells
    obtain ⟨_, _, hshown⟩ := exists_of_forall₂_right hshows hcell
    exact hshown.lf_notMem
  have hsplit : (print (bufferSummary d)).toList.splitOn '\n' = (headings :: rows).map (printLine columnWidths) := by
    rw [hprint, String.toList_ofList]
    refine List.splitOn_intercalate '\n' ?_ (by simp)
    rw [List.forall_mem_map]
    exact fun cells hcells => lf_notMem_printLine (hfit cells hcells) (hlines cells hcells)
  constructor
  · rw [hsplit, List.length_map, List.length_cons, hrows.length_eq]
  · refine ⟨lineLength columnWidths, ?_⟩
    rw [hsplit, List.forall_mem_map]
    exact fun cells hcells => length_printLine (hfit cells hcells)
  · intro k cb hcb
    obtain ⟨cells, hcells, hfit, hshows⟩ := getElem?_of_forall₂ hrows hcb
    refine ⟨_, ?_, tellsAbout_printLine hfit hshows⟩
    rw [hsplit]
    simp [hcells]

end Postmortem.Progress

namespace Postmortem

open Postmortem.Progress

/-- The entries about a device: its line, and a table if it has command buffers. -/
def DescribesDevice (placed : Device × Nat) (entries : List String) : Prop :=
  (placed.1.commandBuffers = [] ∧ entries = [Summary.deviceLine placed.2 placed.1]) ∨
    (placed.1.commandBuffers ≠ [] ∧
      ∃ table, entries = [Summary.deviceLine placed.2 placed.1, table] ∧ Tabulates placed.1 table)

/-- The tables in a summary are honest if their printer aligns them. -/
theorem Progress.Aligns.describes {print : Table → String} (h : Aligns print) (file : DumpFile) :
    ∃ blocks, Summary.entries file print = Summary.headEntries file ++ blocks.flatten ∧
      List.Forall₂ DescribesDevice file.content.devices.zipIdx blocks := by
  refine ⟨file.content.devices.zipIdx.map fun placed => Summary.deviceEntries placed.2 placed.1 print, ?_, ?_⟩
  · rw [Summary.entries, List.flatMap_def]
  · rw [List.forall₂_map_right_iff, List.forall₂_same]
    intro placed _
    unfold Summary.deviceEntries
    cases hlist : placed.1.commandBuffers with
    | nil => exact Or.inl ⟨hlist, rfl⟩
    | cons first more => exact Or.inr ⟨by simp [hlist], _, rfl, h.tabulates placed.1⟩

/-- The summary of a dump has a table for each device that has command buffers, and for no other; each table has a line
for each of the command buffers that tells about it, whatever the texts in it hold. -/
theorem entries_tabulate (file : DumpFile) :
    ∃ blocks, Summary.entries file = Summary.headEntries file ++ blocks.flatten ∧
      List.Forall₂ DescribesDevice file.content.devices.zipIdx blocks :=
  Table.aligns_print.describes file

end Postmortem
