import PrintFormat.Fixture.Case
import PrintFormat.Json.Layout

/-!
Fixtures: families of render cases, one family a file. A file is a JSON record;
it is written in the wide form.
-/
namespace PrintFormat

/-- A family of render cases. -/
structure Fixture where
  version : String
  family : String
  capturedAt : String
  cases : List Fixture.Case
  deriving DecidableEq

namespace Fixture

/-- A fixture as a document. -/
def toJson (f : Fixture) : Json :=
  .ofMembers [("version", .ofText f.version), ("family", .ofText f.family),
    ("captured_at", .ofText f.capturedAt), ("cases", .array (f.cases.map Case.toJson))]

/-- The fixture that a document is. -/
def ofJson? (j : Json) : Option Fixture := do
  let r ← j.record? ["version", "family", "captured_at", "cases"] 4
  return {
    version := ← r.required "version" Json.text?
    family := ← r.required "family" Json.text?
    capturedAt := ← r.required "captured_at" Json.text?
    cases := ← r.required "cases" (Json.list? Case.ofJson?) }

/-- The text of a fixture file. -/
def text (f : Fixture) : String := f.toJson.pretty

/-- Reads a fixture file. -/
def read? (text : String) : Option Fixture := (Json.read? text).bind ofJson?

end Fixture
end PrintFormat
