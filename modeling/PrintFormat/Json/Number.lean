import PrintFormat.Decimal.Reading
import PrintFormat.Decimal.Shortest
import PrintFormat.Json.Numeral

/-!
What numerals mean. A numeral without point and exponent is an integer if one
of the two kinds of 64-bit words holds it; there is no integer minus zero. Any
other numeral is a float: as many of its leading digits as fit a 64-bit word,
rounded to a float, times or over a power of ten that is a float too, rounded
once more. A numeral beyond the floats means nothing.

The other way an integer is written by its digits and a float by the fewest
digits that read back, always with a point or an exponent.
-/
namespace PrintFormat.Json

/-- What a numeral means. -/
inductive Number
  | integer (n : Int)
  | real (v : Binary64)
  deriving DecidableEq

/-- The largest exponent of ten that one factor covers. -/
def maxScale : Nat := 308

/-- The power of ten that a float is scaled by. -/
def powerOfTen (exponent : Nat) : Binary64 := Decimal.nearest false 1 exponent

/-- A float over a power of ten, in steps that are each rounded. -/
def shrink (v : Binary64) (exponent : Nat) : Binary64 :=
  if exponent ≤ maxScale then v.dividedBy (powerOfTen exponent)
  else if v.bits = 0 then v
  else shrink (v.dividedBy (powerOfTen maxScale)) (exponent - maxScale)
termination_by exponent
decreasing_by
  simp only [maxScale] at *
  omega

/-- A float times a power of ten, if it stays finite. -/
def grow? (v : Binary64) (exponent : Nat) : Option Binary64 :=
  if v.bits = 0 then some v
  else if exponent ≤ maxScale then (some (v.times (powerOfTen exponent))).filter Binary64.isFinite
  else none

/-- A whole number of a power of ten, as a float. -/
def scaled? (count : Nat) (exponent : Int) : Option Binary64 :=
  let v := Binary64.ofRatio false count 1
  if 0 ≤ exponent then grow? v exponent.toNat else some (shrink v exponent.natAbs)

/-- Appends digits to a number as long as it stays below the bound of a 64-bit
word. Answers the digits that were left too. -/
def absorb (n : Nat) : List Nat → Nat × List Nat
  | [] => (n, [])
  | d :: rest => if n * 10 + d < UInt64.size then absorb (n * 10 + d) rest else (n, d :: rest)

namespace Numeral

/-- The meaning of a numeral, if it has one. -/
def value? (n : Numeral) : Option Number :=
  let (count, left) := absorb 0 (Base.decimal.digits n.whole)
  let (count, dropped) := absorb count (n.fraction.map Fin.val)
  let exponent : Int :=
    (left.length : Int) - (n.fraction.length - dropped.length : Nat) + n.exponent.getD 0
  let real := (scaled? count exponent).map fun v => Number.real (v.withSign n.negative)
  if n.fraction = [] ∧ n.exponent = none ∧ left = [] then
    if !n.negative then some (.integer count)
    else if 0 < count ∧ count ≤ 0x8000000000000000 then some (.integer (-count))
    else real
  else real

/-- The numeral of an integer. -/
def ofInt (n : Int) : Numeral := { negative := n < 0, whole := n.natAbs }

/-- Digits with the point behind a number of them, zeros where it is further
out than they reach, and at least one digit behind it. -/
def positional (digits : List Nat) (point : Int) : Numeral :=
  let fraction := List.replicate (-point).toNat 0 ++ digits.drop point.toNat
  { whole := ofDigits 10 (digits.take point.toNat) * Nat.pow 10 (point.toNat - digits.length)
    fraction := (if fraction = [] then [0] else fraction).map decimalDigit }

/-- Digits with the point behind the first one and an exponent. -/
def scientific (digits : List Nat) (point : Int) : Numeral where
  whole := digits.headD 0
  fraction := digits.tail.map decimalDigit
  exponent := some (point - 1)

/-- The least position of the point that is written without an exponent. -/
def leastPoint : Int := -4

/-- The greatest position of the point that is written without an exponent. -/
def greatestPoint : Int := 16

/-- The numeral of a finite float. -/
def ofFloat (v : Binary64) : Numeral :=
  let magnitude :=
    if v.ratio.1 = 0 then positional [0] 1
    else
      let (count, grid) := v.shortest
      let digits := Base.decimal.digits count
      let point := digits.length + grid
      if leastPoint ≤ point ∧ point ≤ greatestPoint then positional digits point
      else scientific digits point
  { magnitude with negative := v.isNegative }

end Numeral

/-- The numeral of a number. -/
def Number.numeral : Number → Numeral
  | integer n => .ofInt n
  | real v => .ofFloat v

/-- The float nearest to a number. -/
def Number.toFloat : Number → Binary64
  | integer n => .ofInt n
  | real v => v

end PrintFormat.Json
