import PrintFormat.Fixture

/-!
Verification of render cases. A case passes if its render leaves the expected
bytes, where it expects any, and ends with the expected error or without one.
The report words what was expected and what came out in one notation, text with
the error behind it, and points at the first byte where the two differ.
-/
namespace PrintFormat

namespace Verification

/-- An output with the error that came with it. -/
def describe (output : String) (error : Option String) : String :=
  match error with
  | none => output
  | some kind => output ++ " [error: " ++ kind ++ "]"

/-- The length of what two lists have in common at their front. -/
def commonLength {α : Type} [DecidableEq α] : List α → List α → Nat
  | a :: as, b :: bs => if a = b then commonLength as bs + 1 else 0
  | _, _ => 0

/-- Two texts and the first byte where they differ. -/
def difference (expected actual : String) : String :=
  if expected = actual then "[identical]"
  else
    let start := commonLength (Text.encode expected) (Text.encode actual)
    "--- expected\n+++ actual\n@@ byte " ++ toString start ++ " @@\n-" ++ expected
      ++ "\n+" ++ actual ++ "\n"

/-- How one case went. -/
structure Result where
  caseName : String
  sink : String
  passed : Bool
  expected : String
  actual : String
  difference : Option String
  deriving DecidableEq

namespace Result

/-- A result as a document. -/
def toJson (r : Result) : Json :=
  .ofMembers [("case_name", .ofText r.caseName), ("sink", .ofText r.sink),
    ("passed", .bool r.passed), ("expected", .ofText r.expected), ("actual", .ofText r.actual),
    ("diff", (r.difference.map Json.ofText).getD .null)]

/-- The result that a document is. -/
def ofJson? (j : Json) : Option Result := do
  let r ← j.record? ["case_name", "sink", "passed", "expected", "actual", "diff"] 6
  return {
    caseName := ← r.required "case_name" Json.text?
    sink := ← r.required "sink" Json.text?
    passed := ← r.required "passed" Json.bool?
    expected := ← r.required "expected" Json.text?
    actual := ← r.required "actual" Json.text?
    difference := ← r.optional "diff" Json.text? }

end Result

/-- The results of a run. -/
structure Summary where
  results : List Result

namespace Summary

def total (s : Summary) : Nat := s.results.length

def passed (s : Summary) : Nat := s.results.countP Result.passed

def failed (s : Summary) : Nat := s.total - s.passed

def allPassed (s : Summary) : Bool := s.failed = 0

/-- A summary as a document. -/
def toJson (s : Summary) : Json :=
  .ofMembers [("total", .ofNat s.total), ("passed", .ofNat s.passed), ("failed", .ofNat s.failed),
    ("results", .array (s.results.map Result.toJson))]

/-- Reads a list of results. -/
def read? (text : String) : Option Summary :=
  ((Json.read? text).bind (Json.list? Result.ofJson?)).map Summary.mk

end Summary
end Verification

namespace Fixture.Case

/-- What a case expects, in the notation of the report. -/
def expectation (c : Case) : String :=
  Verification.describe (c.expectedOutput.getD "") c.expectedError

/-- Whether an output is what a case expects. -/
def accepts (c : Case) (out : Output) : Bool :=
  (c.expectedOutput.all fun text => Text.encode text = out.bytes)
    && c.expectedError = out.error.map FormatError.kind

/-- The report on a case, from its output or from what kept it from one. -/
def report (c : Case) (outcome : Except InvalidArgument Output) : Verification.Result :=
  let (actual, passed) :=
    match outcome with
    | .ok out =>
        (Verification.describe (Text.decodeLossy out.bytes) (out.error.map FormatError.kind),
          c.accepts out)
    | .error e => ("fixture error: " ++ e.message, false)
  { caseName := c.name
    sink := c.sink.name
    passed
    expected := c.expectation
    actual
    difference := if passed then none else some (Verification.difference c.expectation actual) }

/-- Renders a case and compares. -/
def verify (c : Case) (options : Options) : Except Panic Verification.Result :=
  (c.execute options).map c.report

end Fixture.Case
end PrintFormat
