import PrintFormat.Binary64
import PrintFormat.Numeral
import PrintFormat.Options
import PrintFormat.Scratch

/-!
Floats with a fixed count of fraction digits. The digits are those of the exact
magnitude times a power of ten, cut or rounded to a whole number once; at most
17 of them are taken from the value and the rest, up to 40, are zeros. From 2
to the power 128 on a float has no text.
-/
namespace PrintFormat

/-- The most fraction digits that are taken from a value. -/
def significantPlaces : Nat := 17

/-- The most fraction digits that are written. -/
def maxPlaces : Nat := 40

/-- The fraction digits of a directive that names no precision. -/
def defaultPlaces : Nat := 6

namespace Binary64

/-- The magnitude in units of a power of ten, as a whole number. -/
def scaled (v : Binary64) (rounding : Rounding) (places : Nat) : Nat :=
  let (num, den) := v.ratio
  match rounding with
  | .truncate => num * Nat.pow 10 places / den
  | .nearest => (2 * (num * Nat.pow 10 places) + den) / (2 * den)

/-- The digits of a finite number below the bound, with its sign if it has the
sign bit. -/
def fixedText (v : Binary64) (rounding : Rounding) (precision : Nat) : Bytes :=
  let shown := min precision maxPlaces
  let taken := min shown significantPlaces
  let n := v.scaled rounding taken
  let whole := natText (n / Nat.pow 10 taken)
  let fraction :=
    if shown = 0 then []
    else ascii "." ++ (places 10 taken n).map (digitByte false)
      ++ List.replicate (shown - taken) zero
  (if v.isNegative then [minus] else []) ++ whole ++ fraction

/-- A finite number whose whole part would not fit 128 bits. -/
def isHuge (v : Binary64) : Bool :=
  let (num, den) := v.ratio
  Nat.pow 2 128 * den ≤ num

end Binary64

/-- Puts a float in front of the span and answers how many bytes that took.
Infinity and what is not a number are spelled out. -/
def Scratch.pushFloat (v : Binary64) (rounding : Rounding) (precision : Nat) (upper : Bool) :
    Scratch.Edit Nat := do
  if v.isNaN then
    prepend (ascii (if upper then "NAN" else "nan"))
    return 3
  else if v.isInfinite then
    prepend (ascii (if upper then "INF" else "inf"))
    if v.isNegative then
      push minus
      return 4
    else
      return 3
  else if v.isHuge then
    throw .scratchOverflow
  else
    pushText (v.fixedText rounding precision)

end PrintFormat
