import PrintFormat.Logger
import PrintFormat.Settings

/-!
A running program: its environment, what it has read of its settings, the
context that its shared entry points use, and its two standard outputs. A call
with options of its own needs no setting; one without needs rounding and integer
width, in that order; a log line that is not shown needs none.
-/
namespace PrintFormat

structure Program where
  environment : Environment := []
  settings : Settings := {}
  shared : Context := {}
  output : Array UInt8 := #[]
  errors : Array UInt8 := #[]

namespace Program

/-- An action that a program carries out. -/
abbrev Run := StateM Program

/-- Sets a variable from now on. -/
def setVariable (name : String) (value : Bytes) : Run Unit :=
  modify fun p => { p with environment := (name, value) :: p.environment }

/-- Removes a variable from now on. -/
def unsetVariable (name : String) : Run Unit :=
  modify fun p => { p with environment := p.environment.without name }

def needRounding : Run Rounding := fun p =>
  let (value, cell) := Setting.rounding.need p.environment p.settings.rounding
  (value, { p with settings := { p.settings with rounding := cell } })

def needIntWidth : Run IntWidth := fun p =>
  let (value, cell) := Setting.intWidth.need p.environment p.settings.intWidth
  (value, { p with settings := { p.settings with intWidth := cell } })

def needLogLevel : Run LogLevel := fun p =>
  let (value, cell) := Setting.logLevel.need p.environment p.settings.logLevel
  (value, { p with settings := { p.settings with logLevel := cell } })

/-- The options of calls that bring none. -/
def needOptions : Run Options := do
  let rounding ← needRounding
  let intWidth ← needIntWidth
  return { rounding, intWidth }

/-- The options of a call: its own, or those of the program. -/
def optionsOr : Option Options → Run Options
  | some options => pure options
  | none => needOptions

/-- Prints onto a sink, with the shared context or with one of its own. -/
def printOn (shared : Bool) (options : Option Options) (sink : Sink) (format : Bytes)
    (args : List Arg) : Run Rendered := do
  let options ← optionsOr options
  if shared then
    let r := (← get).shared.print sink format args options
    modify fun p => { p with shared := r.context }
    return r
  else
    return PrintFormat.print sink format args options

/-- Prints to standard output. -/
def printOut (shared : Bool) (options : Option Options) (format : Bytes) (args : List Arg) :
    Run (Except FormatError Nat) := do
  let r ← printOn shared options (.toWriter {}) format args
  modify fun p => { p with output := p.output ++ r.sink.contents }
  return r.outcome

/-- Logs to a writer. -/
def logTo (logger : Logger) (w : Writer) (level : LogLevel) (m : LogLine) :
    Run (Except FormatError Nat × Sink) := do
  if logger.enabled level then
    return logger.logTo (← needOptions) w level m
  else
    return (.ok 0, .toWriter w)

/-- Logs to the standard outputs, errors to the second one. -/
def log (logger : Logger) (level : LogLevel) (m : LogLine) : Run (Except FormatError Nat) := do
  let (outcome, sink) ← logTo logger {} level m
  modify fun p =>
    if level = .error then { p with errors := p.errors ++ sink.contents }
    else { p with output := p.output ++ sink.contents }
  return outcome

/-- What a program can be asked for. -/
inductive Action
  | setVariable (name : String) (value : Bytes)
  | unsetVariable (name : String)
  | readRounding
  | readIntWidth
  | readLogLevel
  | readOptions
  | printOn (shared : Bool) (options : Option Options) (sink : Sink) (format : Bytes)
      (args : List Arg)
  | printOut (shared : Bool) (options : Option Options) (format : Bytes) (args : List Arg)
  | logTo (logger : Logger) (w : Writer) (level : LogLevel) (m : LogLine)
  | log (logger : Logger) (level : LogLevel) (m : LogLine)

/-- What a program answers. -/
inductive Reply
  | done
  | rounding (value : Rounding)
  | intWidth (value : IntWidth)
  | logLevel (value : LogLevel)
  | options (value : Options)
  | rendered (r : Rendered)
  | count (outcome : Except FormatError Nat)
  | logged (outcome : Except FormatError Nat) (sink : Sink)

/-- Carries out one action. -/
def act : Action → Run Reply
  | .setVariable name value => do setVariable name value; return .done
  | .unsetVariable name => do unsetVariable name; return .done
  | .readRounding => return .rounding (← needRounding)
  | .readIntWidth => return .intWidth (← needIntWidth)
  | .readLogLevel => return .logLevel (← needLogLevel)
  | .readOptions => return .options (← needOptions)
  | .printOn shared options sink format args =>
      return .rendered (← printOn shared options sink format args)
  | .printOut shared options format args =>
      return .count (← printOut shared options format args)
  | .logTo logger w level m => do
      let (outcome, sink) ← logTo logger w level m
      return .logged outcome sink
  | .log logger level m => return .count (← log logger level m)

end Program
end PrintFormat
