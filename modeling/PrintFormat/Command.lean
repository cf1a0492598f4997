import PrintFormat.Fixture.Argument

/-!
Command lines. A command is its name and then options, `--name value` or
`--name=value`. The option for arguments may be repeated, no other one; a value
of its own word does not start with a hyphen unless it is one; nothing may stand
by itself. A line that is not of this form is no command.
-/
namespace PrintFormat

/-- A format to render once. -/
structure RenderCommand where
  format : String
  arguments : List String := []
  sink : String := "stream"
  capacity : Option UInt64 := none
  deriving DecidableEq

/-- Fixtures to verify. -/
structure VerifyCommand where
  fixture : String
  log : Option String := none
  report : Option String := none
  deriving DecidableEq

inductive Command
  | render (c : RenderCommand)
  | verify (c : VerifyCommand)
  deriving DecidableEq

namespace Command

/-- An option with the value that it is given. -/
abbrev Assignment := String × String

/-- The name of an option, and its value if that is in the same word. -/
def splitOption? (word : String) : Option (String × Option String) :=
  match word.toList with
  | '-' :: '-' :: rest =>
      let (name, value) := Text.cut (· = '=') rest
      some (String.ofList name, value.map String.ofList)
  | _ => none

/-- A word that can be the value of the option in front of it. -/
def isValue (word : String) : Bool := word = "-" || !word.startsWith "-"

/-- The options in words. Two hyphens alone may end them. -/
def assignments? : List String → Option (List Assignment)
  | [] => some []
  | ["--"] => some []
  | word :: rest =>
      match splitOption? word with
      | none => none
      | some (name, some value) => (assignments? rest).map ((name, value) :: ·)
      | some (name, none) =>
          match rest with
          | [] => none
          | value :: rest =>
              if isValue value then (assignments? rest).map ((name, value) :: ·) else none

/-- The values of an option, in order. -/
def values (name : String) (assignments : List Assignment) : List String :=
  (assignments.filter fun s => s.1 = name).map Prod.snd

/-- The value of an option that may be there once. -/
def single? (name : String) (assignments : List Assignment) : Option (Option String) :=
  match values name assignments with
  | [] => some none
  | [value] => some (some value)
  | _ => none

/-- A value read in some way, if it is there. -/
def read? {α : Type} (read : String → Option α) : Option String → Option (Option α)
  | none => some none
  | some value => (read value).map some

/-- A path is not empty. -/
def path? (value : String) : Option String := if value = "" then none else some value

def knownOnly (names : List String) (assignments : List Assignment) : Bool :=
  assignments.all fun s => s.1 ∈ names

def render? (assignments : List Assignment) : Option RenderCommand := do
  guard (knownOnly ["format", "arg", "sink", "capacity"] assignments)
  return {
    format := ← ← single? "format" assignments
    arguments := values "arg" assignments
    sink := (← single? "sink" assignments).getD "stream"
    capacity := ← read? (fun v => Fixture.Argument.readUnsigned? v.toList)
      (← single? "capacity" assignments) }

def verify? (assignments : List Assignment) : Option VerifyCommand := do
  guard (knownOnly ["fixture", "log", "report"] assignments)
  return {
    fixture := ← path? (← ← single? "fixture" assignments)
    log := ← read? path? (← single? "log" assignments)
    report := ← read? path? (← single? "report" assignments) }

/-- The command that words are. -/
def ofWords? : List String → Option Command
  | "render" :: rest => ((assignments? rest).bind render?).map render
  | "verify" :: rest => ((assignments? rest).bind verify?).map verify
  | _ => none

end Command
end PrintFormat
