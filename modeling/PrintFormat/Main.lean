import PrintFormat.Command.Run
import Std.Time.DateTime.Timestamp

/-!
The command line program, on the system that it is started on.
-/
namespace PrintFormat

/-- The error that the system reported. -/
def FileError.ofSystem : IO.Error → FileError
  | .noFileOrDirectory _ _ _ => .notFound
  | .inappropriateType _ code details =>
      if code = 20 then .notADirectory
      else if code = 21 then .isADirectory
      else .other code.toNat details
  | .invalidArgument _ code details =>
      if code = 36 then .nameTooLong else .other code.toNat details
  | e => .other 0 (toString e)

/-- The result of an operation of the system. -/
def attempt {α : Type} (act : IO α) : IO (Except FileError α) := do
  match ← act.toBaseIO with
  | .ok a => return .ok a
  | .error e => return .error (.ofSystem e)

/-- The variables that settings are read from. -/
def variableNames : List String :=
  [Setting.rounding.variableName, Setting.intWidth.variableName, Setting.logLevel.variableName]

instance : Host IO where
  readFile path := attempt do return (← IO.FS.readBinFile path).toList
  isFile path := do
    let found ← attempt do return (← (← IO.FS.realPath path).metadata).type == .file
    return found.toOption.getD false
  listDirectory path := attempt do
    -- Opening the path first tells why it cannot be followed.
    let _ ← IO.FS.Handle.mk path .read
    return (← (← IO.FS.realPath path).readDir).toList.map fun entry => entry.fileName
  createFile path := attempt (IO.FS.writeBinFile path .empty)
  appendFile path bytes := attempt do
    (← IO.FS.Handle.mk path .append).write ⟨bytes.toArray⟩
  environment := variableNames.filterMapM fun name => do
    return (← IO.getEnv name).map fun value => (name, Text.encode value)
  now := return (← Std.Time.Timestamp.now).toSecondsSinceUnixEpoch.val
  nanoseconds := IO.monoNanosNow
  runName := return toString (← IO.monoNanosNow)
  output bytes := do (← IO.getStdout).write ⟨bytes.toArray⟩
  notify notice := IO.eprint notice.text

/-- How to call the program. -/
def usage : String :=
  "usage: render --format TEXT [--arg KIND:VALUE]... [--sink NAME] [--capacity N]\n"
    ++ "       verify --fixture PATH [--log PATH] [--report PATH]\n"

/-- Runs the program on the words of its command line. -/
def runProgram (words : List String) : IO UInt32 := do
  match Command.ofWords? words with
  | none =>
      IO.eprint usage
      return Command.usageCode.toUInt32
  | some c =>
      let result ← c.run
      if let .error failure := result then IO.eprint failure.text
      return (Command.exitCode result).toUInt32

end PrintFormat

def main (words : List String) : IO UInt32 := PrintFormat.runProgram words
