import PrintFormat.Host

/-!
Fixture files. A path stands for the file it leads to, or for the files with the
extension `json` in a directory, sorted by name.
-/
namespace PrintFormat.Fixture

/-- The extension of a file name: what is behind its last point, if there is
something in front of that too. -/
def extension? (name : String) : Option String :=
  let reversed := name.toList.reverse
  match Text.cut (· = '.') reversed with
  | (_, none) => none
  | (_, some []) => none
  | (back, some (_ :: _)) => if name = ".." then none else some (String.ofList back.reverse)

/-- The path of a name in a directory. -/
def pathOf (directory name : String) : String :=
  if directory = "" ∨ directory.endsWith "/" then directory ++ name
  else directory ++ "/" ++ name

/-- The names of fixture files among others, sorted. -/
def fixtureNames (names : List String) : List String :=
  (names.filter fun name => extension? name = some "json").mergeSort fun a b => a ≤ b

variable {m : Type → Type} [Monad m] [Host m]

/-- The fixture files that a path stands for. -/
def paths (path : String) : m (Except FileError (List String)) := do
  if ← Host.isFile path then return .ok [path]
  match ← Host.listDirectory path with
  | .error e => return .error e
  | .ok names => return .ok ((fixtureNames names).map (pathOf path))

/-- The fixture in the bytes of a file, if they are one. -/
def ofBytes? (bytes : Bytes) : Option Fixture := (Text.decode? bytes).bind read?

/-- Why a fixture could not be loaded. -/
inductive LoadError
  | file (e : FileError)
  | malformed

/-- Loads a fixture file. -/
def load (path : String) : m (Except LoadError Fixture) := do
  match ← Host.readText path with
  | .error e => return .error (.file e)
  | .ok text =>
      match read? text with
      | none => return .error .malformed
      | some f => return .ok f

end PrintFormat.Fixture
