import PrintFormat.Host

/-!
How commands fail, the line that a failed command ends with, and its exit code.
A command line that is no command has an exit code of its own, and so has a
command that a panic ended.
-/
namespace PrintFormat

/-- Why a command failed. -/
inductive Failure
  | invalidArgument (e : Fixture.InvalidArgument)
  | unknownSink (name : String)
  | format (e : FormatError)
  | fixtures (e : FileError)
  | file (e : FileError)
  | noCases (path : String)
  | failedCases
  | panic (p : Panic)

/-- A format error as it is shown at the end of a command. -/
def FormatError.shown : FormatError → String
  | io cause => "Io(" ++ Text.shown cause.message ++ ")"
  | bufferOverflow capacity => "BufferOverflow \x7b capacity: " ++ toString capacity ++ " \x7d"
  | scratchOverflow => "ScratchOverflow"
  | missingArgument index => "MissingArgument \x7b index: " ++ toString index ++ " \x7d"
  | argumentMismatch index expected =>
      "ArgumentMismatch \x7b index: " ++ toString index ++ ", expected: "
        ++ Text.shown expected.phrase ++ " \x7d"

/-- A failure as it is shown at the end of a command. -/
def Failure.shown : Failure → String
  | invalidArgument e =>
      "InvalidArg \x7b value: " ++ Text.shown e.value ++ ", reason: "
        ++ Text.shown e.fault.message ++ " \x7d"
  | unknownSink name =>
      Text.shown ("Unsupported sink '" ++ name ++ "', expected stream|buffer|url")
  | format e => e.shown
  | fixtures e => "Io(" ++ e.shown ++ ")"
  | file e => e.shown
  | noCases path => Text.shown ("No fixture cases found in " ++ path)
  | failedCases => Text.shown "Fixture verification failed"
  | panic p => p.message

/-- The last line of a command that failed. What is told around the message of a
panic is left out. -/
def Failure.text (f : Failure) : String :=
  let front :=
    match f with
    | panic _ => ""
    | _ => "Error: "
  front ++ f.shown ++ "\n"

namespace Command

/-- The exit code of a command. -/
def exitCode : Except Failure Unit → Nat
  | .ok _ => 0
  | .error (.panic _) => 101
  | .error _ => 1

/-- The exit code of a line that is no command. -/
def usageCode : Nat := 2

end Command
end PrintFormat
