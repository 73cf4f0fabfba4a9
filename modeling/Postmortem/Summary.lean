import Postmortem.Progress.Table
import Postmortem.Reader
set_option autoImplicit false

/-!
# Summary

The summary of a dump: where it comes from, its times, its instance, and a line for each device, followed by the table
of the device's command buffers if it has any.  Tables may be printed in more than one way.
-/

namespace Postmortem

open Postmortem.Text

namespace Summary

/-- The number of submissions of a device that had not completed. -/
def pendingSubmits (d : Device) : Nat := (d.queues.flatMap fun q => q.submits).length

/-- The line about a device. -/
def deviceLine (index : Nat) (d : Device) : String :=
  "device[" ++ Numeral.decimal index ++ "]: " ++ quote d.name ++ " " ++ d.handle.toText
    ++ "  queues: " ++ Numeral.decimal d.queues.length
    ++ "  pending submits: " ++ Numeral.decimal (pendingSubmits d)
    ++ "  incomplete cbs: " ++ Numeral.decimal d.incompleteCommandBuffers.length
    ++ "  all cbs: " ++ Numeral.decimal d.allCommandBuffers.length

/-- The entries about a device: its line, and the table of its command buffers if it has any. -/
def deviceEntries (index : Nat) (d : Device) (print : Progress.Table → String := Progress.Table.print) : List String :=
  deviceLine index d :: if d.commandBuffers.isEmpty then [] else [print (Progress.bufferSummary d)]

/-- The entries about a dump and its instance. -/
def headEntries (f : DumpFile) : List String :=
  let dump := f.content
  ["dump: " ++ f.source.getD "None",
    "version: " ++ dump.version ++ "  startTime: " ++ dump.startTime ++ "  timeSinceStart: " ++ dump.timeSinceStart,
    "settings: " ++ Numeral.decimal dump.settings.length,
    "instance: " ++ dump.inst.handle.toText ++ "  application: " ++ quote dump.inst.application.name
      ++ "  extensions: " ++ Numeral.decimal dump.inst.extensions.length]

/-- The entries of a summary.  A table is one entry of several lines. -/
def entries (f : DumpFile) (print : Progress.Table → String := Progress.Table.print) : List String :=
  headEntries f ++ f.content.devices.zipIdx.flatMap fun (d, index) => deviceEntries index d print

end Summary

end Postmortem
