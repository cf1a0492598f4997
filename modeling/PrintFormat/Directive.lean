import PrintFormat.Bytes
import PrintFormat.Options

/-!
What a directive asks for. A directive has two numbers, the width in front of
its point and the precision behind it, each with flags of its own; a star says
that the number comes from the arguments instead. No number is ever beyond
`measureLimit` in size, so that every width has a negative.
-/
namespace PrintFormat

/-- The mode that a format is read in: literal text, a standard directive or an
extended one. -/
inductive Mode
  | raw | standard | extended
  deriving DecidableEq

/-- The width of an integer argument that a length modifier selects. -/
inductive SizeClass
  | byte | half | normal | long | longLong
  deriving DecidableEq

/-- The bits that are looked at. -/
def SizeClass.bits (normal : IntWidth) : SizeClass → Nat
  | .byte => 8
  | .half => 16
  | .normal => normal.bits
  | .long => 32
  | .longLong => 64

/-- What stands in front of a number that is not negative. -/
inductive SignDisplay
  | omit | plus | space
  deriving DecidableEq

/-- The largest size of a width or precision. -/
def measureLimit : Nat := 0x7FFFFFFF

/-- A width or a precision as a directive gives it. -/
structure Measure where
  value : Int := 0
  isGiven : Bool := false
  negative : Bool := false
  star : Bool := false
  deriving DecidableEq

/-- All that a directive says. Without a conversion the format ended first. -/
structure Directive where
  width : Measure := {}
  precision : Measure := {}
  zeroFill : Bool := false
  size : SizeClass := .normal
  sign : SignDisplay := .omit
  alternate : Bool := false
  extended : Bool := false
  conversion : Option UInt8 := none
  deriving DecidableEq

/-- The nearest number within the limit. -/
def clampMeasure (n : Int) : Int := max (-measureLimit) (min n measureLimit)

namespace Directive

def mode (d : Directive) : Mode := if d.extended then .extended else .standard

/-- The precision, if one holds. Its sign does not count. -/
def places? (d : Directive) : Option Nat :=
  if d.precision.isGiven then some d.precision.value.natAbs else none

/-- A width from the arguments. Under the flag `-` its sign does not count. -/
def withStarWidth (d : Directive) (n : Int) : Directive :=
  let w := clampMeasure n
  { d with width := { d.width with
      value := if d.width.negative then -(w.natAbs : Int) else w
      isGiven := true } }

/-- A precision from the arguments. A negative one is none. -/
def withStarPrecision (d : Directive) (n : Int) : Directive :=
  { d with precision := { d.precision with
      value := if n < 0 then 0 else clampMeasure n
      isGiven := 0 ≤ n } }

end Directive
end PrintFormat
