import Postmortem.Dump.Model
import Postmortem.Text.Numeral
set_option autoImplicit false

/-!
# Progress: tables

Command buffers and commands as tables, and how a table is printed.  A printed table has a line of headings and a line
for each row.  The cells of a column are aligned to the right, and cells are separated by a space.  Tabs and line
breaks in a cell are shown as escapes, so a row is one line.
-/

namespace Postmortem.Progress

open Postmortem.Text

/-! ## Tables -/

/-- What a column holds. -/
inductive ColumnKind where
  | number
  | text
  deriving DecidableEq, Repr

/-- A column: its heading and what it holds. -/
structure Column where
  heading : String
  kind : ColumnKind
  deriving DecidableEq, Repr

/-- A cell of a table. -/
inductive Cell where
  | number (value : Nat)
  | text (content : String)
  deriving DecidableEq, Repr

/-- A table.  Each row has a cell for each column. -/
structure Table where
  columns : List Column
  rows : List (List Cell)
  deriving DecidableEq, Repr

/-- The table without the columns that have a heading. -/
def Table.without (heading : String) (t : Table) : Table where
  columns := t.columns.filter (·.heading ≠ heading)
  rows := t.rows.map fun row => ((t.columns.zip row).filter fun placed => placed.1.heading ≠ heading).map Prod.snd

/-- A column of numbers. -/
def numbers (heading : String) : Column := ⟨heading, .number⟩

/-- A column of texts. -/
def texts (heading : String) : Column := ⟨heading, .text⟩

/-! ## Command buffers -/

/-- The columns that describe a command buffer by itself. -/
def bufferColumns : List Column := [
  numbers "handle", texts "handle_name", texts "state", texts "level", numbers "queue", numbers "submit_info_id",
  numbers "begin_value", numbers "end_value", numbers "top_checkpoint_value", numbers "bottom_checkpoint_value",
  numbers "last_started_command", numbers "last_completed_command", numbers "n_commands"]

/-- The cells that describe a command buffer by itself. -/
def bufferCells (cb : CommandBuffer) : List Cell := [
  .number cb.handle.value, .text cb.handle.name, .text cb.state, .text cb.level, .number cb.queue.value,
  .number cb.submitInfoId, .number cb.beginValue, .number cb.endValue, .number cb.topCheckpointValue,
  .number cb.bottomCheckpointValue, .number cb.lastStartedCommand, .number cb.lastCompletedCommand,
  .number cb.commands.length]

/-- The name of the listing that a device has its command buffers in. -/
def listingName (d : Device) : String :=
  if d.incompleteCommandBuffers.isEmpty then "all" else "incomplete"

/-- The command buffers of a device, each with the name of the listing that it is in. -/
def bufferTable (d : Device) : Table :=
  ⟨texts "listing" :: bufferColumns,
    d.commandBuffers.map fun cb => .text (listingName d) :: bufferCells cb⟩

/-- The command buffers of a device by themselves. -/
def bufferSummary (d : Device) : Table := (bufferTable d).without "listing"

theorem bufferSummary_eq (d : Device) : bufferSummary d = ⟨bufferColumns, d.commandBuffers.map bufferCells⟩ := by
  simp only [bufferSummary, bufferTable, Table.without, List.map_map]
  rfl

/-! ## Commands -/

/-- The commands of a command buffer. -/
def commandTable (cb : CommandBuffer) : Table :=
  ⟨[numbers "id", numbers "checkpoint_value", texts "name", texts "state", texts "message"],
    cb.commands.map fun c =>
      [.number c.id, .number c.checkpointValue, .text c.name, .text c.state, .text c.message]⟩

/-! ## Print -/

/-- A character of a cell; tabs and line breaks are shown as escapes. -/
def escapeCellChar (c : Char) : List Char :=
  if c = '\t' then ['\\', 't']
  else if c = '\r' then ['\\', 'r']
  else if c = '\n' then ['\\', 'n']
  else [c]

/-- A cell as it is printed. -/
def Cell.print : Cell → List Char
  | .number value => Numeral.digits 10 value
  | .text content => content.toList.flatMap escapeCellChar

/-- A heading as it is printed.  That of a column of numbers has a space in front. -/
def Column.print (c : Column) : List Char :=
  match c.kind with
  | .number => ' ' :: c.heading.toList
  | .text => c.heading.toList

/-- A text with spaces in front, up to a width. -/
def padLeft (width : Nat) (text : List Char) : List Char :=
  List.replicate (width - text.length) ' ' ++ text

/-- The widths of columns wide enough for their headings and for the cells of some rows. -/
def widths (headings : List (List Char)) (rows : List (List (List Char))) : List Nat :=
  rows.foldl (fun acc row => List.zipWith max acc (row.map List.length)) (headings.map List.length)

/-- A line of cells in columns of some widths. -/
def printLine (columnWidths : List Nat) (cells : List (List Char)) : List Char :=
  [' '].intercalate (List.zipWith padLeft columnWidths cells)

/-- The lines of a printed table. -/
def Table.printLines (t : Table) : List (List Char) :=
  let headings := t.columns.map Column.print
  let rows := t.rows.map fun row => row.map Cell.print
  (headings :: rows).map (printLine (widths headings rows))

/-- A printed table.  There is no line break at its end. -/
def Table.print (t : Table) : String := String.ofList (['\n'].intercalate t.printLines)

end Postmortem.Progress
