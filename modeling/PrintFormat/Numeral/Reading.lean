import PrintFormat.Numeral

/-!
Integers read from text: an optional sign and at least one digit, all of the
text, with a value in a given range. A minus sign is read only where negative
numbers are in range; leading zeros do not matter.
-/
namespace PrintFormat

/-- The value of a character as a digit of a base. Letters of both cases count
from ten on. -/
def digitValue? (base : Nat) (c : Char) : Option Nat :=
  let value :=
    if c.isDigit then some (c.toNat - 48)
    else if c.isLower then some (c.toNat - 87)
    else if c.isUpper then some (c.toNat - 55)
    else none
  value.filter (· < base)

/-- The number that digits write. -/
def readDigits? (base : Nat) (cs : List Char) : Option Nat :=
  if cs = [] then none else (cs.mapM (digitValue? base)).map (ofDigits base)

/-- A natural number below a bound. -/
def readNat? (base bound : Nat) (cs : List Char) : Option Nat :=
  let digits :=
    match cs with
    | '+' :: rest => rest
    | cs => cs
  (readDigits? base digits).filter (· < bound)

/-- An integer below a bound and not below its negative. -/
def readInt? (bound : Nat) : List Char → Option Int
  | '-' :: digits => ((readDigits? 10 digits).filter (· ≤ bound)).map fun n => -(n : Int)
  | cs => (readNat? 10 bound cs).map Int.ofNat

/-- A byte. -/
def readByte? (base : Nat) (cs : List Char) : Option UInt8 :=
  (readNat? base 256 cs).map Nat.toUInt8

end PrintFormat
