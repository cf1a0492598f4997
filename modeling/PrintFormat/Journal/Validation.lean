import PrintFormat.Fixture.Case
import PrintFormat.Journal.Entry
import PrintFormat.Json.Normal
import PrintFormat.Text.Parts

/-!
Validation of journals. A line is checked field by field first, so that all that
is wrong with it is reported, and only then read as an entry. In a file blank
lines do not count but keep their numbers.
-/
namespace PrintFormat.Journal

/-- What is wrong with a field, or with a whole line. -/
inductive Complaint
  | noJson
  | noObject
  | missing (field : String)
  | unknownName (field value : String)
  | malformedTraceId (value : String)
  | malformedTimestamp (value : String)
  | noEntry
  deriving DecidableEq

namespace Complaint

/-- The field that a complaint is about, or what stands for the whole line. -/
def field : Complaint → String
  | noJson => "<json>"
  | noObject => "<root>"
  | missing field => field
  | unknownName field _ => field
  | malformedTraceId _ => "trace_id"
  | malformedTimestamp _ => "timestamp"
  | noEntry => "<deserialization>"

/-- What is wrong. The parser's own text, which stands behind a colon after
"invalid JSON" and after "failed to deserialize", is left out. -/
def message : Complaint → String
  | noJson => "invalid JSON"
  | noObject => "expected JSON object"
  | missing _ => "required field missing"
  | unknownName field value => "invalid " ++ field ++ ": '" ++ value ++ "'"
  | malformedTraceId value =>
      "trace_id should follow <run_id>::<seq> format, got: '" ++ value ++ "'"
  | malformedTimestamp value => "expected YYYY-MM-DDThh:mm:ssZ, got: '" ++ value ++ "'"
  | noEntry => "failed to deserialize"

end Complaint

/-- A complaint about a line. -/
structure Problem where
  line : Nat
  complaint : Complaint
  deriving DecidableEq

/-- A problem as a sentence. -/
def Problem.text (p : Problem) : String :=
  "line " ++ toString p.line ++ ": field '" ++ p.complaint.field ++ "': " ++ p.complaint.message

/-- The pattern of timestamps; `0` stands for any digit. -/
def timestampPattern : Bytes := ascii "0000-00-00T00:00:00Z"

/-- Whether a byte fits a byte of a pattern. -/
def fits (pattern b : UInt8) : Bool := if pattern = zero then isDigit b else b = pattern

/-- A text of the shape of a timestamp. -/
def isTimestamp (text : String) : Bool :=
  let bytes := Text.encode text
  bytes.length = timestampPattern.length && (List.zipWith fits timestampPattern bytes).all id

/-- A text with two colons next to each other. -/
def hasDoubleColon : List Char → Bool
  | ':' :: ':' :: _ => true
  | _ :: rest => hasDoubleColon rest
  | [] => false

/-- A member of an object with names that spell texts. -/
def member? (members : List (Json.Quoted × Json)) (field : String) : Option Json :=
  members.lookup (some field)

/-- The text of a member that is a string. -/
def memberText? (members : List (Json.Quoted × Json)) (field : String) : Option String :=
  (member? members field).bind Json.text?

/-- The names that a field may have. -/
def knownNames : List (String × List String) :=
  [("level", Severity.levels.map Severity.name), ("outcome", Outcome.outcomes.map Outcome.name),
    ("sink", [Fixture.SinkKind.stream, .buffer, .url].map Fixture.SinkKind.name)]

/-- What is wrong with the members of a line. -/
def complaints (members : List (Json.Quoted × Json)) : List Complaint :=
  let missing := (Entry.requiredFields.filter fun f => (member? members f).isNone).map .missing
  let unknown := knownNames.filterMap fun (field, names) =>
    ((memberText? members field).filter (· ∉ names)).map (.unknownName field)
  let traceId := ((memberText? members "trace_id").filter fun t => !hasDoubleColon t.toList).map
    .malformedTraceId
  let timestamp := ((memberText? members "timestamp").filter fun t => !isTimestamp t).map
    .malformedTimestamp
  missing ++ unknown ++ traceId.toList ++ timestamp.toList

/-- The entry of a line, or what is wrong with it. -/
def checkText (text : String) : Except (List Complaint) Entry :=
  match Json.readValue? text with
  | none => .error [.noJson]
  | some (.object members) =>
      match complaints members, Entry.ofJson? (.object members) with
      | [], some e => .ok e
      | [], none => .error [.noEntry]
      | found, _ => .error found
  | some _ => .error [.noObject]

/-- The entry of a line with a number, or the problems that it has. -/
def checkLine (text : String) (number : Nat) : Except (List Problem) Entry :=
  (checkText text).mapError fun found => found.map fun complaint => ⟨number, complaint⟩

/-- The lines of a text. -/
def fileLines (text : String) : List String :=
  (Text.split (· = '\n') text.toList).map String.ofList

/-- The count of lines that are not blank, and the problems of all lines. -/
def checkLines : Nat → List String → Nat × List Problem
  | _, [] => (0, [])
  | number, line :: rest =>
      let (count, problems) := checkLines (number + 1) rest
      let line := Text.trim line
      if line = "" then (count, problems)
      else
        match checkLine line number with
        | .ok _ => (count + 1, problems)
        | .error found => (count + 1, found ++ problems)

/-- Checks the text of a journal. -/
def checkFile (text : String) : Nat × List Problem := checkLines 1 (fileLines text)

/-- Checks the contents of a journal's file, if they are text. -/
def checkContents? (contents : Bytes) : Option (Nat × List Problem) :=
  (Text.decode? contents).map checkFile

end PrintFormat.Journal
