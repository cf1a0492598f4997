import PrintFormat.Context
import PrintFormat.Fixture.Argument

/-!
Render cases. A case is a format with arguments, the kind of sink that it is
rendered to, and what is expected of the render. In a fixture file all but name
and format may be left out.
-/
namespace PrintFormat.Fixture

/-- The sinks of cases. -/
inductive SinkKind
  | stream | buffer | url
  deriving DecidableEq

namespace SinkKind

def name : SinkKind → String
  | stream => "stream"
  | buffer => "buffer"
  | url => "url"

def ofName? (name : String) : Option SinkKind :=
  match name with
  | "stream" => some stream
  | "buffer" => some buffer
  | "url" => some url
  | _ => none

theorem ofName?_name (k : SinkKind) : ofName? k.name = some k := by cases k <;> rfl

end SinkKind

/-- A render case. -/
structure Case where
  name : String
  sink : SinkKind := .stream
  format : String
  arguments : List Argument := []
  capacity : Option UInt64 := none
  expectedOutput : Option String := none
  expectedError : Option String := none
  deriving DecidableEq

/-- The capacity of buffers that a case does not tell. -/
def defaultCapacity : Nat := 256

namespace Case

/-- A case as a document. What has no value is left out. -/
def toJson (c : Case) : Json :=
  .ofMembers (
    [("name", .ofText c.name), ("sink", .ofText c.sink.name), ("format", .ofText c.format),
      ("args", .array (c.arguments.map Argument.toJson))]
    ++ Json.optionalMember "capacity" (fun n => .ofNat n.toNat) c.capacity
    ++ Json.optionalMember "expected_output" .ofText c.expectedOutput
    ++ Json.optionalMember "expected_error" .ofText c.expectedError)

/-- The fields of a case. -/
def fields : List String :=
  ["name", "sink", "format", "args", "capacity", "expected_output", "expected_error"]

/-- The case that a document is. -/
def ofJson? (j : Json) : Option Case := do
  let r ← j.record? fields 3
  return {
    name := ← r.required "name" Json.text?
    sink := ← r.withDefault "sink" .stream fun j => j.name?.bind SinkKind.ofName?
    format := ← r.required "format" Json.text?
    arguments := ← r.withDefault "args" [] (Json.list? Argument.ofJson?)
    capacity := ← r.optional "capacity" Argument.unsigned?
    expectedOutput := ← r.optional "expected_output" Json.text?
    expectedError := ← r.optional "expected_error" Json.text? }

/-- The capacity of the buffer of a case. A stream has no use for it. -/
def bufferCapacity (c : Case) : Nat := (c.capacity.map UInt64.toNat).getD defaultCapacity

/-- The sink of a case before its render. -/
def destination (c : Case) : Except Panic Sink := do
  match c.sink with
  | .stream => return .toWriter {}
  | .buffer => Sink.ofCapacity c.bufferCapacity
  | .url => return (← Sink.ofCapacity c.bufferCapacity).encoded

/-- What a render left in its sink, and the error that it ended with. -/
structure Output where
  bytes : Bytes
  error : Option FormatError

/-- Renders a case. Its sink is made once all arguments are values. -/
def execute (c : Case) (options : Options) : Except Panic (Except InvalidArgument Output) := do
  match c.arguments.mapM Argument.toArg with
  | .error e => return .error e
  | .ok args =>
      let r := print (← c.destination) (Text.encode c.format) args options
      return .ok {
        bytes := r.sink.contents
        error := match r.outcome with
          | .ok _ => none
          | .error e => some e }

end Case
end PrintFormat.Fixture
