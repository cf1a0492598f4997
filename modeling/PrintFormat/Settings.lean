import PrintFormat.LogLevel
import PrintFormat.Options
import PrintFormat.Text.Utf8

/-!
Settings from the environment. Each is read when it is first needed and kept
from then on, in a cell of one byte: 0 as long as the setting is unread, 255
while it is being read, and otherwise the code of its value plus one. A variable
that is missing or is not text leaves the default.
-/
namespace PrintFormat

/-- The variables of a program. A later binding of a name hides earlier ones. -/
abbrev Environment := List (String × Bytes)

/-- The text of a variable, if it is set and is text. -/
def Environment.text? (env : Environment) (name : String) : Option String :=
  (env.lookup name).bind Text.decode?

/-- The environment without a variable. -/
def Environment.without (env : Environment) (name : String) : Environment :=
  env.filter fun binding => binding.1 ≠ name

/-- A setting: its variable, and how its values are coded in a cell. -/
structure Setting (α : Type) where
  variableName : String
  parse : String → α
  default : α
  code : α → UInt8
  decode : UInt8 → α

namespace Setting

/-- The cell of a setting that was not read yet. -/
def unread : UInt8 := 0

/-- The cell of a setting that is being read. -/
def pending : UInt8 := 255

/-- The value of a setting and its cell once it is needed. -/
def need {α : Type} (s : Setting α) (env : Environment) (cell : UInt8) : α × UInt8 :=
  if cell = unread then
    let code := s.code (((env.text? s.variableName).map s.parse).getD s.default)
    (s.decode code, code + 1)
  else if cell = pending then (s.default, cell)
  else (s.decode (cell - 1), cell)

def rounding : Setting Rounding where
  variableName := "ECFMT_FLOAT_ROUNDING"
  parse := Rounding.ofName
  default := .nearest
  code
    | .truncate => 0
    | .nearest => 1
  decode c := if c = 0 then .truncate else .nearest

def intWidth : Setting IntWidth where
  variableName := "ECFMT_INT_WIDTH"
  parse := IntWidth.ofName
  default := .w32
  code
    | .w16 => 0
    | .w32 => 1
  decode c := if c = 0 then .w16 else .w32

def logLevel : Setting LogLevel where
  variableName := "ECFMT_LOG_LEVEL"
  parse := LogLevel.ofName
  default := .info
  code l := l.code.toUInt8
  decode c := .ofCode c.toNat

end Setting

/-- The cells of the three settings. -/
structure Settings where
  rounding : UInt8 := Setting.unread
  intWidth : UInt8 := Setting.unread
  logLevel : UInt8 := Setting.unread

end PrintFormat
