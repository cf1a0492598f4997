import PrintFormat.Text.Parts

/-!
The levels of log lines, ordered by their numbers, and their names. The first
and the last are thresholds only.
-/
namespace PrintFormat

inductive LogLevel
  | none | error | warning | info | debug | internal | all
  deriving DecidableEq

namespace LogLevel

def code : LogLevel → Nat
  | none => 0
  | error => 1
  | warning => 2
  | info => 3
  | debug => 4
  | internal => 5
  | all => 6

/-- The level with a number; numbers beyond the last are the last. -/
def ofCode : Nat → LogLevel
  | 0 => none
  | 1 => error
  | 2 => warning
  | 3 => info
  | 4 => debug
  | 5 => internal
  | _ => all

def label : LogLevel → String
  | none => "none"
  | error => "error"
  | warning => "warning"
  | info => "info"
  | debug => "debug"
  | internal => "internal"
  | all => "all"

/-- The level by name or number, in any case and with blanks around it. What is
unknown is `info`. -/
def ofName (name : String) : LogLevel :=
  let word := Text.fold (Text.trim name)
  if word ∈ ["none", "off", "0"] then none
  else if word ∈ ["error", "1"] then error
  else if word ∈ ["warning", "warn", "2"] then warning
  else if word ∈ ["info", "3"] then info
  else if word ∈ ["debug", "4"] then debug
  else if word ∈ ["internal", "trace", "5"] then internal
  else if word ∈ ["all", "6"] then all
  else info

theorem ofCode_code (l : LogLevel) : ofCode l.code = l := by cases l <;> rfl

end LogLevel
end PrintFormat
