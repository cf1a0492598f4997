import PrintFormat.Command.Verify
import PrintFormat.Program

/-!
Carrying out commands. The command `render` puts out what the render delivers,
whatever the render ends with, and a line feed. Its options come from the
environment.
-/
namespace PrintFormat

namespace RenderCommand

/-- The kind of sink with a name, in any case and with blanks around it. -/
def sinkKind (name : String) : Except Failure Fixture.SinkKind :=
  let word := Text.fold (Text.trim name)
  match Fixture.SinkKind.ofName? word with
  | some kind => .ok kind
  | none => .error (.unknownSink word)

/-- The case that a command renders. -/
def toCase (c : RenderCommand) : Except Failure Fixture.Case := do
  let sink ← sinkKind c.sink
  let arguments ← (c.arguments.mapM Fixture.Argument.ofText).mapError .invalidArgument
  return { name := "cli", sink, format := c.format, arguments, capacity := c.capacity }

/-- What a command renders with the given options. -/
def execute (c : RenderCommand) (options : Options) : Except Failure Fixture.Case.Output := do
  let renderCase ← c.toCase
  let outcome ← (renderCase.execute options).mapError .panic
  outcome.mapError .invalidArgument

variable {m : Type → Type} [Monad m] [Host m]

/-- Carries out the command. -/
def run (c : RenderCommand) : m (Except Failure Unit) := do
  let environment ← Host.environment
  let (options, _) := Program.needOptions.run { environment }
  match c.execute options with
  | .error e => return .error e
  | .ok out =>
      Host.output (out.bytes ++ [10])
      match out.error with
      | none => return .ok ()
      | some e => return .error (.format e)

end RenderCommand

/-- Carries out a command. -/
def Command.run {m : Type → Type} [Monad m] [Host m] : Command → m (Except Failure Unit)
  | render c => c.run
  | verify c => c.run

end PrintFormat
