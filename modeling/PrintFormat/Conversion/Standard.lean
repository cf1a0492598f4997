import PrintFormat.Argument
import PrintFormat.Decimal.Fixed
import PrintFormat.Directive
import PrintFormat.Field

/-!
The standard conversions. An integer is narrowed to the directive's width and
written in the scratch span, then come the zeros that its precision asks for,
its radix mark and its sign. Room for mark and sign is kept when zeros are
added, so that the span never overflows.
-/
namespace PrintFormat

/-- What a standard directive converts. -/
inductive Standard
  | signed | unsigned | octal | hex | hexUpper | float | floatUpper | text | character | pointer
  deriving DecidableEq

namespace Standard

/-- The table of conversion bytes. -/
def ofByte? (b : UInt8) : Option Standard :=
  match Char.ofUInt8 b with
  | 'd' | 'i' => some signed
  | 'u' => some unsigned
  | 'o' => some octal
  | 'x' => some hex
  | 'X' => some hexUpper
  | 'f' | 'e' | 'g' => some float
  | 'F' | 'E' | 'G' => some floatUpper
  | 's' | 'S' => some text
  | 'c' => some character
  | 'p' | 'z' | 'Z' | 't' => some pointer
  | _ => none

/-- The argument that a conversion asks for. -/
@[reducible] def demand : Standard → Demand
  | float | floatUpper => .float
  | text => .text
  | signed | unsigned | octal | hex | hexUpper | character | pointer => .integer

end Standard

/-- Puts the wanted sign in front of a number that has none, and answers how
long the sign in front now is. -/
def putSign (display : SignDisplay) (allowed : Bool) : Scratch.Edit Nat := do
  if (← get).text.head? = some minus then return 1
  if !allowed then return 0
  match display with
  | .omit => return 0
  | .plus => Scratch.push 43; return 1
  | .space => Scratch.push blank; return 1

/-- The mark of octal numbers, which any leading zero serves as. -/
def octalMark : Bytes := [zero]

/-- The zeros that a precision adds to the digits in the span. Zero with
precision 0 has no digits at all. -/
def padPrecision (d : Directive) (signed : Bool) (mark : Bytes) (precision : Nat)
    (s : Scratch) : Scratch :=
  let s := if precision = 0 ∧ s.text = [zero] then Scratch.empty else s
  let signLength := if s.text.head? = some minus then 1 else 0
  let addedSign := if signed ∧ signLength = 0 ∧ d.sign ≠ .omit then 1 else 0
  let reserved := if mark = octalMark then 0 else mark.length
  s.zeroPad (min (precision + signLength) (scratchCapacity - reserved - addedSign))

/-- Finishes an integer whose digits are in the span. -/
def finishInteger (d : Directive) (signed : Bool) (mark : Bytes) : Scratch.Edit Field := do
  if let some precision := d.places? then
    modify (padPrecision d signed mark precision)
  let served := mark = octalMark ∧ (← get).text.head? = some zero
  let mark := if served then [] else mark
  Scratch.prepend mark
  let signLength ← if signed then putSign d.sign true else pure 0
  return {
    body := (← get).text
    width := d.width.value
    head := mark.length + signLength
    zeroFill := d.zeroFill && d.places?.isNone }

/-- Writes an unsigned number of some bits and finishes it. The mark is told
the digits. -/
def convertUnsigned (d : Directive) (bits : Nat) (v : BitVec 64) (b : Base) (upper : Bool)
    (mark : Bytes → Bytes) : Scratch.Edit Field := do
  let text := b.text upper (v.setWidth bits).toNat
  let _ ← Scratch.pushText text
  finishInteger d false (mark text)

/-- Writes a float and finishes it. -/
def convertFloat (d : Directive) (options : Options) (v : Binary64) (upper : Bool) :
    Scratch.Edit Field := do
  let _ ← Scratch.pushFloat v options.rounding (d.places?.getD defaultPlaces) upper
  let signLength ← putSign d.sign (!v.isNaN)
  return {
    body := (← get).text
    width := d.width.value
    head := signLength
    zeroFill := d.zeroFill && v.isFinite }

/-- The field of a standard directive for the value it took. -/
def Standard.compose (d : Directive) (options : Options) :
    (c : Standard) → c.demand.Value → Scratch.Edit Field
  | .signed, v => do
      let n := (BitVec.setWidth (d.size.bits options.intWidth) v).toInt
      let _ ← Scratch.pushText (intText n)
      finishInteger d true []
  | .unsigned, v =>
      convertUnsigned d (d.size.bits options.intWidth) v .decimal false fun _ => []
  | .octal, v =>
      convertUnsigned d (d.size.bits options.intWidth) v .octal false fun _ =>
        if d.alternate then octalMark else []
  | .hex, v =>
      convertUnsigned d (d.size.bits options.intWidth) v .hexadecimal false fun text =>
        if d.alternate ∧ text ≠ [zero] then ascii "0x" else []
  | .hexUpper, v =>
      convertUnsigned d (d.size.bits options.intWidth) v .hexadecimal true fun text =>
        if d.alternate ∧ text ≠ [zero] then ascii "0X" else []
  | .float, v => convertFloat d options v false
  | .floatUpper, v => convertFloat d options v true
  | .text, s => pure
      { body := match d.places? with
          | none => s
          | some n => s.take n
        width := d.width.value }
  | .character, v => pure { body := [(v : BitVec 64).toNat.toUInt8], width := d.width.value }
  | .pointer, v => convertUnsigned d 64 v .decimal false fun _ => []

end PrintFormat
