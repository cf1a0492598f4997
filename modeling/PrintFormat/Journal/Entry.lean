import PrintFormat.Json.Layout
import PrintFormat.Json.Record

/-!
Journal entries. An entry is one JSON object on a line of its own. Timestamp,
trace id, level and event are always there; what else an entry may have is left
out where it has no value.
-/
namespace PrintFormat.Journal

/-- How grave an entry is. -/
inductive Severity
  | trace | debug | info | warn | error
  deriving DecidableEq

namespace Severity

def name : Severity → String
  | trace => "trace"
  | debug => "debug"
  | info => "info"
  | warn => "warn"
  | error => "error"

/-- All levels, from the least grave on. -/
def levels : List Severity := [trace, debug, info, warn, error]

def ofName? (name : String) : Option Severity := levels.find? fun s => s.name = name

theorem ofName?_name (s : Severity) : ofName? s.name = some s := by cases s <;> rfl

end Severity

/-- How something that was tried ended. -/
inductive Outcome
  | pass | fail | skip | error
  deriving DecidableEq

namespace Outcome

def name : Outcome → String
  | pass => "pass"
  | fail => "fail"
  | skip => "skip"
  | error => "error"

def outcomes : List Outcome := [pass, fail, skip, error]

def ofName? (name : String) : Option Outcome := outcomes.find? fun o => o.name = name

theorem ofName?_name (o : Outcome) : ofName? o.name = some o := by cases o <;> rfl

end Outcome

/-- One entry. -/
structure Entry where
  timestamp : String
  traceId : String
  level : Severity
  event : String
  runId : Option String := none
  fixture : Option String := none
  caseName : Option String := none
  sink : Option String := none
  outcome : Option Outcome := none
  durationNs : Option UInt64 := none
  details : Option Json := none

namespace Entry

/-- An entry as a document. -/
def toJson (e : Entry) : Json :=
  .ofMembers (
    [("timestamp", .ofText e.timestamp), ("trace_id", .ofText e.traceId),
      ("level", .ofText e.level.name), ("event", .ofText e.event)]
    ++ Json.optionalMember "run_id" .ofText e.runId
    ++ Json.optionalMember "fixture" .ofText e.fixture
    ++ Json.optionalMember "case" .ofText e.caseName
    ++ Json.optionalMember "sink" .ofText e.sink
    ++ Json.optionalMember "outcome" (fun o => .ofText o.name) e.outcome
    ++ Json.optionalMember "duration_ns" (fun n => .ofNat n.toNat) e.durationNs
    ++ Json.optionalMember "details" id e.details)

/-- The fields that an entry must have. -/
def requiredFields : List String := ["timestamp", "trace_id", "level", "event"]

/-- The fields that an entry may have. -/
def optionalFields : List String :=
  ["run_id", "fixture", "case", "sink", "outcome", "duration_ns", "details"]

/-- The entry that a document is. -/
def ofJson? (j : Json) : Option Entry := do
  let r ← j.record? (requiredFields ++ optionalFields) requiredFields.length
  return {
    timestamp := ← r.required "timestamp" Json.text?
    traceId := ← r.required "trace_id" Json.text?
    level := ← r.required "level" fun j => j.name?.bind Severity.ofName?
    event := ← r.required "event" Json.text?
    runId := ← r.optional "run_id" Json.text?
    fixture := ← r.optional "fixture" Json.text?
    caseName := ← r.optional "case" Json.text?
    sink := ← r.optional "sink" Json.text?
    outcome := ← r.optional "outcome" fun j => j.name?.bind Outcome.ofName?
    durationNs := ← r.optional "duration_ns" fun j => j.nat?.map Nat.toUInt64
    details := ← r.optional "details" some }

/-- An entry as a line, without the line feed that ends it. -/
def line (e : Entry) : String := e.toJson.compact

end Entry
end PrintFormat.Journal
