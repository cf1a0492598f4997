/-!
What can go wrong while a format is rendered. A malformed directive is no
error, it is copied; a format error is a condition that the engine meets and
reports. A panic is reported to nobody, it ends the program. Wording and short
names live in one function each.
-/
namespace PrintFormat

/-- The family of values that a directive asks its argument to be of. -/
inductive Demand
  | integer | float | text | time | ipv4 | ipv6 | mac
  deriving DecidableEq

/-- The demand as it is worded in a message. -/
def Demand.phrase : Demand → String
  | .integer => "an integer"
  | .float => "a float"
  | .text => "a string"
  | .time => "a time struct"
  | .ipv4 => "an IPv4 address"
  | .ipv6 => "an IPv6 address"
  | .mac => "a MAC address"

/-- Why a writer did not take what it was given. -/
inductive WriterFailure
  | full | tookNothing | flushFailed
  deriving DecidableEq

def WriterFailure.message : WriterFailure → String
  | .full => "writer full"
  | .tookNothing => "failed to write whole buffer"
  | .flushFailed => "flush failed"

/-- The five ways in which rendering fails. Arguments are counted from 0. -/
inductive FormatError
  | io (cause : WriterFailure)
  | bufferOverflow (capacity : Nat)
  | scratchOverflow
  | missingArgument (index : Nat)
  | argumentMismatch (index : Nat) (expected : Demand)
  deriving DecidableEq

namespace FormatError

/-- The stable short name that fixtures and journals use. -/
def kind : FormatError → String
  | io _ => "io"
  | bufferOverflow _ => "buffer_overflow"
  | scratchOverflow => "scratch_overflow"
  | missingArgument _ => "missing_argument"
  | argumentMismatch _ _ => "argument_mismatch"

/-- The sentence shown to a reader. -/
def message : FormatError → String
  | io cause => "io: " ++ cause.message
  | bufferOverflow capacity =>
      "destination buffer full (capacity " ++ toString capacity ++ " bytes)"
  | scratchOverflow => "numeric scratch buffer exhausted"
  | missingArgument index => "argument " ++ toString index ++ " missing"
  | argumentMismatch index expected =>
      "argument " ++ toString index ++ " is not " ++ expected.phrase

end FormatError

/-- What ends the whole program at once. -/
inductive Panic
  | capacityOverflow
  deriving DecidableEq

def Panic.message : Panic → String
  | .capacityOverflow => "capacity overflow"

end PrintFormat
