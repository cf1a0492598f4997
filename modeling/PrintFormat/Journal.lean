import PrintFormat.Calendar.Text
import PrintFormat.Journal.Entry
import PrintFormat.Text.Utf8

/-!
Journals of runs. A journal completes the entries that it takes: one without a
trace id gets the next one of the run, one without a run id that of the journal.
Its text has one line for each entry, in the order they came.
-/
namespace PrintFormat

/-- The journal of a run: how many trace ids it gave out, and its entries. -/
structure Journal where
  runId : String
  count : Nat := 0
  entries : List Journal.Entry := []

namespace Journal

/-- A number of at least three digits. -/
def sequenceText (n : Nat) : String := Text.decodeLossy (zeroFilled 3 (natText n))

/-- The trace id with a number. -/
def traceId (j : Journal) (n : Nat) : String := j.runId ++ "::" ++ sequenceText n

/-- Gives out the next trace id. -/
def nextTraceId (j : Journal) : String × Journal :=
  (j.traceId (j.count + 1), { j with count := j.count + 1 })

/-- Takes an entry and completes it. -/
def record (e : Entry) (j : Journal) : Journal :=
  let (traceId, j) := if e.traceId = "" then j.nextTraceId else (e.traceId, j)
  let e := { e with traceId, runId := some (e.runId.getD j.runId) }
  { j with entries := j.entries ++ [e] }

/-- Takes an event with the next trace id, and answers the entry before it was
completed. -/
def emit (timestamp : String) (level : Severity) (event : String) (j : Journal) :
    Entry × Journal :=
  let (traceId, j) := j.nextTraceId
  let e : Entry := { timestamp, traceId, level, event }
  (e, j.record e)

/-- The lines of a journal. -/
def lines (j : Journal) : List String := j.entries.map Entry.line

/-- The text of a journal. -/
def text (j : Journal) : String := String.join (j.lines.map (· ++ "\n"))

/-- The timestamp of a count of seconds since the start of 1970. -/
def timestamp (seconds : Int) : String := Text.decodeLossy (CivilTime.ofUnixSeconds seconds).utcText

end Journal
end PrintFormat
