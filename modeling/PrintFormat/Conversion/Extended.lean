import PrintFormat.Argument
import PrintFormat.Calendar.Text
import PrintFormat.Directive
import PrintFormat.Field
import PrintFormat.Scratch
import PrintFormat.Text.Utf8

/-!
The extended conversions, behind `%!`: times and dates, numbers in groups of
binary, octal or hexadecimal digits, truth values, code points, telephone
numbers and network addresses. Their texts are composed in the scratch span and
padded with blanks. A telephone number has its width in digits instead of
padding.
-/
namespace PrintFormat

/-- What an extended directive converts. -/
inductive Extended
  | clockOfSeconds | clock | shortClockOfSeconds | shortClock | date | longDate | utc
  | binary | octal | hex | truth | codePoint | phone | ipv4 | ipv6 | mac | macUpper | dotted
  | dottedUpper
  deriving DecidableEq

namespace Extended

/-- The table of conversion bytes. -/
def ofByte? (b : UInt8) : Option Extended :=
  match Char.ofUInt8 b with
  | 't' => some clockOfSeconds
  | 'T' => some clock
  | 's' => some shortClockOfSeconds
  | 'S' => some shortClock
  | 'd' => some date
  | 'D' => some longDate
  | 'Z' => some utc
  | 'b' => some binary
  | 'o' => some octal
  | 'H' => some hex
  | 'B' => some truth
  | 'U' => some codePoint
  | 'P' => some phone
  | 'i' => some ipv4
  | 'I' => some ipv6
  | 'm' => some mac
  | 'M' => some macUpper
  | 'c' => some dotted
  | 'C' => some dottedUpper
  | _ => none

/-- The argument that a conversion asks for. -/
@[reducible] def demand : Extended → Demand
  | clock | shortClock | date | longDate | utc => .time
  | ipv4 => .ipv4
  | ipv6 => .ipv6
  | mac | macUpper | dotted | dottedUpper => .mac
  | clockOfSeconds | shortClockOfSeconds | binary | octal | hex | truth | codePoint | phone =>
      .integer

end Extended

/-- The digits of a telephone number without a positive width. -/
def defaultPhoneDigits : Nat := 12

/-- The most digits of a telephone number. -/
def maxPhoneDigits : Nat := 19

/-- The digits that a directive asks of a telephone number. -/
def Directive.phoneDigits (d : Directive) : Nat :=
  min (if d.width.isGiven ∧ 0 < d.width.value then d.width.value.toNat else defaultPhoneDigits)
    maxPhoneDigits

/-- A plus sign and the last digits of a number. -/
def phoneText (digits n : Nat) : Bytes :=
  ascii "+" ++ zeroFilled digits (natText (n % Nat.pow 10 digits))

/-- Puts a text in the span and pads it with blanks. -/
def composeText (d : Directive) (text : Bytes) : Scratch.Edit Field := do
  let _ ← Scratch.pushText text
  return { body := (← get).text, width := d.width.value }

/-- A number in groups of digits, filled with zeros to whole groups and to the
precision. -/
def composeGroups (d : Directive) (options : Options) (v : BitVec 64) (b : Base) (upper : Bool)
    (group : Nat) : Scratch.Edit Field := do
  let digits ← Scratch.pushText (b.text upper (v.setWidth (d.size.bits options.intWidth)).toNat)
  modify (Scratch.zeroPad (max ((digits + group - 1) / group * group) (d.places?.getD 0)))
  return { body := (← get).text, width := d.width.value }

/-- The time of day of a number of seconds; whole days do not count. -/
def timeOfDay (v : BitVec 64) : CivilTime := .ofSecondsOfDay (v.toNat % daySeconds)

/-- The field of an extended directive for the value it took. -/
def Extended.compose (d : Directive) (options : Options) :
    (c : Extended) → c.demand.Value → Scratch.Edit Field
  | .clockOfSeconds, v => composeText d ((timeOfDay v).clockText true d.alternate)
  | .clock, t => composeText d (CivilTime.clockText t true d.alternate)
  | .shortClockOfSeconds, v => composeText d ((timeOfDay v).clockText false d.alternate)
  | .shortClock, t => composeText d (CivilTime.clockText t false d.alternate)
  | .date, t => composeText d (CivilTime.dateText t false d.alternate)
  | .longDate, t => composeText d (CivilTime.dateText t true d.alternate)
  | .utc, t => composeText d (CivilTime.utcText t)
  | .binary, v => composeGroups d options v .binary false 8
  | .octal, v => composeGroups d options v .octal false 1
  | .hex, v => composeGroups d options v .hexadecimal d.alternate 2
  | .truth, v => pure
      { body := ascii (if (v : BitVec 64) ≠ 0 then "True" else "False"), width := d.width.value }
  | .codePoint, v => pure
      { body := CodePoint.encode ((v : BitVec 64).toNat % UInt32.size), width := d.width.value }
  | .phone, v => do
      let _ ← Scratch.pushText (phoneText d.phoneDigits (v : BitVec 64).toNat)
      return { body := (← get).text }
  | .ipv4, a => composeText d (IPv4.text a)
  | .ipv6, a => composeText d (IPv6.text a d.alternate)
  | .mac, a => composeText d (Mac.text a false)
  | .macUpper, a => composeText d (Mac.text a true)
  | .dotted, a => composeText d (Mac.dottedText a false)
  | .dottedUpper, a => composeText d (Mac.dottedText a true)

end PrintFormat
