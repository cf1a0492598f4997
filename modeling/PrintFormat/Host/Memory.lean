import PrintFormat.Host
import PrintFormat.Text.Parts

/-!
A system held in memory: a tree of files and directories, an environment, and
what was put out. Its clock stands still. A path is a way through the tree, name
by name from the root; `..` leads back one step and `.` stays, but only a
directory can be walked through or end in a slash. Paths and the names in them
are of limited length.
-/
namespace PrintFormat

/-- A file or a directory. -/
inductive FileNode
  | file (contents : Bytes)
  | directory (entries : List (String × FileNode))

namespace FileNode

/-- A directory without entries. -/
def empty : FileNode := directory []

/-- The entry of a name. -/
def entry? (name : String) : FileNode → Option FileNode
  | file _ => none
  | directory entries => entries.lookup name

/-- What names lead to, from a node on. -/
def find? : List String → FileNode → Option FileNode
  | [], node => some node
  | name :: rest, node => (node.entry? name).bind (find? rest)

def isDirectory : FileNode → Bool
  | file _ => false
  | directory _ => true

/-- Sets an entry among others. -/
def setEntry (name : String) (node : FileNode) : List (String × FileNode) → List (String × FileNode)
  | [] => [(name, node)]
  | (other, old) :: rest =>
      if other = name then (name, node) :: rest else (other, old) :: setEntry name node rest

/-- Puts a node where names lead, with the directories in between. -/
def put (node : FileNode) : List String → FileNode → FileNode
  | [], _ => node
  | name :: rest, file _ => directory [(name, put node rest empty)]
  | name :: rest, directory entries =>
      directory (setEntry name (put node rest ((entries.lookup name).getD empty)) entries)

end FileNode

/-- A system held in memory. What it put out is in the order it came. -/
structure Memory where
  root : FileNode := .empty
  environment : Environment := []
  clock : Int := 0
  runName : String := "0"
  written : Array UInt8 := #[]
  notices : List Notice := []

namespace Memory

/-- The parts of a path. -/
def parts (path : String) : List String := (Text.split (· = '/') path.toList).map String.ofList

/-- The bytes that a whole path stays below. -/
def pathLimit : Nat := 4096

/-- The most bytes that a name has. -/
def nameLimit : Nat := 255

/-- A path that can be walked at all. -/
def checkPath (path : String) : Except FileError Unit :=
  if path = "" then .error .notFound
  else if pathLimit ≤ path.utf8ByteSize then .error .nameTooLong
  else .ok ()

/-- The entry of a name among others. -/
def lookUp (entries : List (String × FileNode)) (name : String) :
    Except FileError (Option FileNode) :=
  if nameLimit < name.utf8ByteSize then .error .nameTooLong else .ok (entries.lookup name)

/-- One step of a walk: the names that lead from the root to where it is. -/
def walkPart (root : FileNode) (way : List String) (part : String) :
    Except FileError (List String) := do
  match root.find? way with
  | none => throw .notFound
  | some (.file _) => throw .notADirectory
  | some (.directory entries) =>
      if part = "" ∨ part = "." then return way
      if part = ".." then return way.dropLast
      if (← lookUp entries part).isSome then return way ++ [part]
      throw .notFound

/-- Where a path leads. -/
def resolve (s : Memory) (path : String) : Except FileError (List String × FileNode) := do
  checkPath path
  let way ← (parts path).foldlM (walkPart s.root) []
  match s.root.find? way with
  | some node => return (way, node)
  | none => throw .notFound

/-- Parts without the empty ones at the end, which slashes there make. -/
def withoutSlashes (names : List String) : List String :=
  (names.reverse.dropWhile (· = "")).reverse

/-- Where a path leads that is to become a file. All but the last name has to be
there; a path that ends in a slash or in dots is one of a directory then,
whatever it leads to. -/
def resolveNew (s : Memory) (path : String) : Except FileError (List String) := do
  checkPath path
  let names := withoutSlashes (parts path)
  let way ← names.dropLast.foldlM (walkPart s.root) []
  match s.root.find? way, names.getLast? with
  | some (.directory entries), some name =>
      if path.endsWith "/" ∨ name = "." ∨ name = ".." then throw .isADirectory
      match ← lookUp entries name with
      | some (.directory _) => throw .isADirectory
      | _ => return way ++ [name]
  | some (.directory _), none => throw .isADirectory
  | some (.file _), _ => throw .notADirectory
  | none, _ => throw .notFound

/-- The contents of a file. -/
def contents (s : Memory) (path : String) : Except FileError Bytes := do
  match ← s.resolve path with
  | (_, .file bytes) => return bytes
  | (_, .directory _) => throw .isADirectory

/-- The names in a directory. -/
def names (s : Memory) (path : String) : Except FileError (List String) := do
  match ← s.resolve path with
  | (_, .directory entries) => return entries.map Prod.fst
  | (_, .file _) => throw .notADirectory

/-- An operation on the system. -/
abbrev Run := StateM Memory

/-- Replaces the contents of a file by a function of them. -/
def edit (path : String) (change : Bytes → Bytes) : Run (Except FileError Unit) := fun s =>
  match s.resolveNew path with
  | .error e => (.error e, s)
  | .ok way =>
      let old :=
        match s.root.find? way with
        | some (.file bytes) => bytes
        | _ => []
      (.ok (), { s with root := .put (.file (change old)) way s.root })

instance : Host Run where
  readFile path := return (← get).contents path
  isFile path := return ((← get).contents path).isOk
  listDirectory path := return (← get).names path
  createFile path := edit path fun _ => []
  appendFile path bytes := edit path (· ++ bytes)
  environment := return (← get).environment
  now := return (← get).clock
  nanoseconds := return 0
  runName := return (← get).runName
  output bytes := modify fun s => { s with written := s.written ++ bytes }
  notify notice := modify fun s => { s with notices := s.notices ++ [notice] }

end Memory
end PrintFormat
