import PrintFormat.Journal
import PrintFormat.Sink.Writer

/-!
Emitters. An emitter keeps a journal and writes the line of each entry to a
writer as it takes the entry. If the writer fails, what it took of the line
stays with it, and the trace id of the entry is not given out again.
-/
namespace PrintFormat.Journal

/-- A journal whose lines go to a writer. -/
structure Emitter where
  journal : Journal
  writer : Writer := {}

namespace Emitter

/-- An operation of an emitter. -/
abbrev Step := EStateM WriterFailure Emitter

/-- An operation of the writer. -/
def onWriter (act : EStateM WriterFailure Writer Unit) : Step Unit := fun ⟨journal, writer⟩ =>
  match act writer with
  | .ok _ w => .ok () ⟨journal, w⟩
  | .error e w => .error e ⟨journal, w⟩

/-- Writes an entry as a line. -/
def writeLine (e : Entry) : Step Unit := do
  onWriter (Writer.writeAll (Text.encode e.line))
  onWriter (Writer.writeAll [10])

/-- An operation of the journal. The entries that it takes are written. -/
def taking {α : Type} (act : Journal → α × Journal) : Step α := do
  let before := (← get).journal
  let (a, after) := act before
  modify fun m => { m with journal := after }
  (after.entries.drop before.entries.length).forM writeLine
  return a

/-- Takes an entry, completes it and writes it. -/
def record (e : Entry) : Step Unit := taking fun j => ((), j.record e)

/-- Takes an event with the next trace id and writes it, and answers the entry
before it was completed. -/
def emit (timestamp : String) (level : Severity) (event : String) : Step Entry :=
  taking (Journal.emit timestamp level event)

/-- Sends on what the writer holds back. -/
def flush : Step Unit := onWriter Writer.flush

end Emitter
end PrintFormat.Journal
