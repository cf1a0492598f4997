import PrintFormat.Context
import PrintFormat.LogLevel

/-!
Log lines, `file:line: project: header: message`. File, line and project can be
left out. Each part is rendered by itself, onto one sink and with the same
options; the first failure ends the line. The sink is flushed in any case.
-/
namespace PrintFormat

structure Logger where
  project : Option Bytes := none
  threshold : LogLevel := .info
  showFile : Bool := true
  showLine : Bool := true

/-- What one line is about. -/
structure LogLine where
  header : Bytes
  file : Bytes
  line : UInt32
  format : Bytes
  args : List Arg

namespace Logger

/-- Whether lines of a level are shown. -/
def enabled (l : Logger) (level : LogLevel) : Bool :=
  level ≠ .none && level.code ≤ l.threshold.code

/-- The formats of a line, in order, with their arguments. -/
def parts (l : Logger) (m : LogLine) : List (Bytes × List Arg) :=
  let file := Arg.str m.file
  let line := Arg.uint m.line.toUInt64
  let location :=
    match l.showFile, l.showLine with
    | true, true => [(ascii "%s:%u: ", [file, line])]
    | true, false => [(ascii "%s: ", [file])]
    | false, true => [(ascii "%u: ", [line])]
    | false, false => []
  let project := l.project.toList.map fun p => (ascii "%s: ", [Arg.str p])
  location ++ project ++ [(ascii "%s: ", [.str m.header]), (m.format, m.args)]

/-- Renders parts onto a sink until one fails. -/
def renderParts (options : Options) :
    List (Bytes × List Arg) → EStateM FormatError Sink Unit
  | [] => pure ()
  | (format, args) :: rest => fun s =>
      let r := render s format args options
      match r.outcome with
      | .ok _ => renderParts options rest r.sink
      | .error e => .error e r.sink

/-- Writes a line and the line feed that ends it. -/
def writeLine (l : Logger) (options : Options) (m : LogLine) : EStateM FormatError Sink Unit := do
  renderParts options (l.parts m)
  Sink.put (.bytes [10])

/-- Logs to a writer, if the level is shown, and answers the count of bytes. -/
def logTo (l : Logger) (options : Options) (w : Writer) (level : LogLevel) (m : LogLine) :
    Except FormatError Nat × Sink :=
  if l.enabled level then
    match l.writeLine options m (.toWriter w) with
    | .error e s =>
        match s.flush with
        | .ok _ s => (.error e, s)
        | .error _ s => (.error e, s)
    | .ok _ s =>
        match s.flush with
        | .ok _ s => (.ok s.written, s)
        | .error e s => (.error e, s)
  else (.ok 0, .toWriter w)

end Logger
end PrintFormat
