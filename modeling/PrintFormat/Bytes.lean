/-!
Byte strings. A format, an argument's text and everything delivered is a list
of bytes. The classes below are the ASCII ones; a byte outside ASCII is in none
of them.
-/
namespace PrintFormat

/-- A byte string. -/
abbrev Bytes := List UInt8

/-- The bytes of a text of ASCII characters, one byte a character. -/
def ascii (text : String) : Bytes := text.toList.map Char.toUInt8

/-- The byte that opens a directive, `%`. -/
def percent : UInt8 := 37

/-- The digit `0`, which is also what numbers are filled with. -/
def zero : UInt8 := 48

/-- The byte of a minus sign. -/
def minus : UInt8 := 45

/-- The space, which pads fields. -/
def blank : UInt8 := 32

/-- A decimal digit. -/
def isDigit (b : UInt8) : Bool := 48 ≤ b && b ≤ 57

/-- A letter or a decimal digit. -/
def isAlphanumeric (b : UInt8) : Bool :=
  isDigit b || (65 ≤ b && b ≤ 90) || (97 ≤ b && b ≤ 122)

/-- Text brought to a least length by zeros in front of it. -/
def zeroFilled (length : Nat) (text : Bytes) : Bytes :=
  List.replicate (length - text.length) zero ++ text

theorem length_zeroFilled (n : Nat) (text : Bytes) :
    (zeroFilled n text).length = max n text.length := by
  simp only [zeroFilled, List.length_append, List.length_replicate]
  omega

theorem zeroFilled_of_le {n : Nat} {text : Bytes} (h : n ≤ text.length) :
    zeroFilled n text = text := by
  simp [zeroFilled, Nat.sub_eq_zero_of_le h]

end PrintFormat
