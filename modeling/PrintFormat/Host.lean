import PrintFormat.Settings
import PrintFormat.Text.Shown
import PrintFormat.Verification

/-!
The system that commands run on: files, an environment, a clock, and two
outputs, one for bytes and one for notices. Commands are written against the
operations of the class `Host` alone, so that they run on the real system and on
one that is held in memory.
-/
namespace PrintFormat

/-- Why an operation on a file was refused. -/
inductive FileError
  | notFound
  | notADirectory
  | isADirectory
  | nameTooLong
  | notText
  | other (code : Nat) (message : String)
  deriving DecidableEq

/-- An error as it is shown at the end of a command. -/
def FileError.shown (e : FileError) : String :=
  let system (code : Nat) (kind message : String) : String :=
    "Os \x7b code: " ++ toString code ++ ", kind: " ++ kind ++ ", message: " ++ Text.shown message
      ++ " \x7d"
  match e with
  | .notFound => system 2 "NotFound" "No such file or directory"
  | .notADirectory => system 20 "NotADirectory" "Not a directory"
  | .isADirectory => system 21 "IsADirectory" "Is a directory"
  | .nameTooLong => system 36 "InvalidFilename" "File name too long"
  | .other code message => system code "Other" message
  | .notText =>
      "Error \x7b kind: InvalidData, message: " ++ Text.shown "stream did not contain valid UTF-8"
        ++ " \x7d"

/-- What a command tells while it runs. -/
inductive Notice
  | verifying (fixture : String)
  | skipping (path : String)
  | failed (result : Verification.Result)
  | complete (summary : Verification.Summary)
  | wroteReport (path : String)

/-- A notice as text, with the line feeds that end it. -/
def Notice.text : Notice → String
  | verifying fixture => "Verifying against fixtures in " ++ fixture ++ "\n"
  | skipping path => "Skipping " ++ path ++ ": not a fixture file\n"
  | failed result =>
      "FAIL " ++ result.caseName ++ " [" ++ result.sink ++ "]\n" ++ result.difference.getD ""
  | complete summary =>
      "Verification complete: total=" ++ toString summary.total ++ ", passed="
        ++ toString summary.passed ++ ", failed=" ++ toString summary.failed ++ "\n"
  | wroteReport path => "Wrote report to " ++ path ++ "\n"

/-- The operations of a system. -/
class Host (m : Type → Type) where
  /-- The contents of a file. -/
  readFile (path : String) : m (Except FileError Bytes)
  /-- Whether a path leads to a file. -/
  isFile (path : String) : m Bool
  /-- The names in a directory, in any order. -/
  listDirectory (path : String) : m (Except FileError (List String))
  /-- Makes a file without contents, in the place of one that is there. -/
  createFile (path : String) : m (Except FileError Unit)
  /-- Puts bytes at the end of a file. -/
  appendFile (path : String) (bytes : Bytes) : m (Except FileError Unit)
  /-- The variables of the environment. -/
  environment : m Environment
  /-- The seconds since the start of 1970. -/
  now : m Int
  /-- Nanoseconds since some moment. -/
  nanoseconds : m Nat
  /-- A name that tells this run from others. -/
  runName : m String
  /-- Writes bytes to the output. -/
  output (bytes : Bytes) : m Unit
  /-- Tells what happens. -/
  notify (notice : Notice) : m Unit

namespace Host

variable {m : Type → Type} [Monad m] [Host m]

/-- The text of a file. -/
def readText (path : String) : m (Except FileError String) := do
  match ← readFile path with
  | .error e => return .error e
  | .ok bytes =>
      match Text.decode? bytes with
      | none => return .error .notText
      | some text => return .ok text

/-- Makes a file with contents, in the place of one that is there. -/
def writeFile (path : String) (bytes : Bytes) : m (Except FileError Unit) := do
  match ← createFile path with
  | .error e => return .error e
  | .ok _ => appendFile path bytes

end Host
end PrintFormat
