import PrintFormat.Binary64
import PrintFormat.Numeral

/-!
Decimals read to the nearest float. The text is an optional sign and then a
decimal with optional point and exponent, or a spelled-out infinity or
not-a-number in any case.
-/
namespace PrintFormat.Decimal

/-- The value of a run of decimal digits. -/
def digitsValue (cs : List Char) : Nat :=
  cs.foldl (fun n c => n * 10 + (c.toNat - 48)) 0

/-- The float nearest to a count of a power of ten. Where bounds on the number
of digits show that the result is infinity or zero, the power is not computed. -/
def nearest (negative : Bool) (count : Nat) (grid : Int) : Binary64 :=
  if count = 0 then Binary64.ofRatio negative 0 1
  else
    let atLeast : Int := (count.log2 * 3 / 10 : Nat) + grid
    let below : Int := ((count.log2 + 1) * 31 / 100 + 1 : Nat) + grid
    if 310 ≤ atLeast then Binary64.infinity negative
    else if below ≤ -330 then Binary64.ofRatio negative 0 1
    else if 0 ≤ grid then Binary64.ofRatio negative (count * Nat.pow 10 grid.toNat) 1
    else Binary64.ofRatio negative count (Nat.pow 10 (-grid).toNat)

/-- An optional sign in front of a text. -/
def splitSign : List Char → Bool × List Char
  | '-' :: rest => (true, rest)
  | '+' :: rest => (false, rest)
  | cs => (false, cs)

/-- The exponent at the end of a decimal: nothing, or `e`, a sign and at least
one digit. -/
def readExponent? : List Char → Option Int
  | [] => some 0
  | e :: rest =>
      if e = 'e' ∨ e = 'E' then
        let (negative, digits) := splitSign rest
        if digits ≠ [] ∧ digits.all Char.isDigit then
          let n : Int := digitsValue digits
          some (if negative then -n else n)
        else none
      else none

/-- A decimal without its sign: digits, perhaps a point and more digits, at
least one digit in all, perhaps an exponent. Answers count and power of ten. -/
def readUnsigned? (cs : List Char) : Option (Nat × Int) :=
  let whole := cs.takeWhile Char.isDigit
  let afterWhole := cs.dropWhile Char.isDigit
  let (fraction, rest) :=
    match afterWhole with
    | '.' :: more => (more.takeWhile Char.isDigit, more.dropWhile Char.isDigit)
    | more => ([], more)
  if whole = [] ∧ fraction = [] then none
  else
    (readExponent? rest).map fun e =>
      (digitsValue (whole ++ fraction), e - fraction.length)

/-- Reads a float. -/
def read? (text : String) : Option Binary64 :=
  let (negative, rest) := splitSign text.toList
  let word := String.ofList (rest.map Char.toLower)
  if word = "inf" ∨ word = "infinity" then some (.infinity negative)
  else if word = "nan" then some (.nan negative)
  else (readUnsigned? rest).map fun (count, grid) => nearest negative count grid

end PrintFormat.Decimal
