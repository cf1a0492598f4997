/-!
Floating-point numbers by their bit patterns. A finite number is a significand
times a power of two, with a sign bit of its own, so that its magnitude is an
exact ratio of natural numbers; `ofRatio` goes back to the nearest pattern, a
tie to the even one.
-/
namespace PrintFormat

/-- A number of 64 bits: sign, eleven bits of exponent, 52 of fraction. -/
structure Binary64 where
  bits : UInt64
  deriving DecidableEq

namespace Binary64

/-- The weight of the sign bit. -/
def signBit : Nat := 0x8000000000000000

/-- The weight above the 52 bits of the fraction, where the exponent starts. -/
def implicitBit : Nat := 0x10000000000000

/-- Whether the sign bit is set, which zeros and infinities have too. -/
def isNegative (v : Binary64) : Bool := signBit ≤ v.bits.toNat

def exponentField (v : Binary64) : Nat := v.bits.toNat / implicitBit % 2048

def fraction (v : Binary64) : Nat := v.bits.toNat % implicitBit

def isNaN (v : Binary64) : Bool := v.exponentField = 2047 && v.fraction ≠ 0

def isInfinite (v : Binary64) : Bool := v.exponentField = 2047 && v.fraction = 0

def isFinite (v : Binary64) : Bool := v.exponentField ≠ 2047

/-- The significand of a finite number. -/
def significand (v : Binary64) : Nat :=
  if v.exponentField = 0 then v.fraction else implicitBit + v.fraction

/-- The exponent of two that a finite number's significand is taken times. -/
def exponent (v : Binary64) : Int := (max v.exponentField 1 : Nat) - 1075

/-- A significand times a power of two, as a ratio. -/
def dyadic (significand : Nat) (exponent : Int) : Nat × Nat :=
  if 0 ≤ exponent then (significand * Nat.pow 2 exponent.toNat, 1)
  else (significand, Nat.pow 2 (-exponent).toNat)

/-- The magnitude of a finite number, as a ratio. -/
def ratio (v : Binary64) : Nat × Nat := dyadic v.significand v.exponent

theorem dyadic_snd_pos (m : Nat) (q : Int) : 0 < (dyadic m q).2 := by
  unfold dyadic
  split
  · exact Nat.one_pos
  · exact Nat.two_pow_pos _

theorem ratio_snd_pos (v : Binary64) : 0 < v.ratio.2 := dyadic_snd_pos _ _

/-! ## The nearest number to a ratio -/

/-- A ratio rounded to a whole number, a tie to the even one. -/
def roundHalfEven (num den : Nat) : Nat :=
  let q := num / den
  let rest := 2 * (num % den)
  if rest < den ∨ (rest = den ∧ q % 2 = 0) then q else q + 1

/-- A ratio over a power of two. -/
def scaleDown (num den : Nat) (exponent : Int) : Nat × Nat :=
  if 0 ≤ exponent then (num, den * Nat.pow 2 exponent.toNat)
  else (num * Nat.pow 2 (-exponent).toNat, den)

/-- The exponent of the highest power of two not above a ratio that is not
zero. -/
def floorLog2 (num den : Nat) : Int :=
  let guess : Int := (num.log2 : Int) - den.log2
  let (n, d) := scaleDown num den guess
  if n < d then guess - 1 else guess

/-- The bits of an infinity without its sign. -/
def infinityBits : Nat := 2047 * implicitBit

/-- The bits of the number nearest to a ratio, without a sign. What is too
large becomes infinity. -/
def magnitudeBits (num den : Nat) : Nat :=
  if num = 0 then 0
  else
    let exponent := max (floorLog2 num den - 52) (-1074)
    let (n, d) := scaleDown num den exponent
    min ((exponent + 1074).toNat * implicitBit + roundHalfEven n d) infinityBits

/-- A number from its sign and the rest of its bits. -/
def signed (negative : Bool) (magnitude : Nat) : Binary64 :=
  ⟨((if negative then signBit else 0) + magnitude).toUInt64⟩

/-- The number nearest to a ratio. -/
def ofRatio (negative : Bool) (num den : Nat) : Binary64 :=
  signed negative (magnitudeBits num den)

def infinity (negative : Bool) : Binary64 := signed negative infinityBits

def nan (negative : Bool) : Binary64 := signed negative (infinityBits + implicitBit / 2)

/-- The number nearest to an integer. -/
def ofInt (n : Int) : Binary64 := ofRatio (n < 0) n.natAbs 1

/-- The number nearest to the product of two finite ones that have no sign. -/
def times (v w : Binary64) : Binary64 :=
  ofRatio false (v.ratio.1 * w.ratio.1) (v.ratio.2 * w.ratio.2)

/-- The number nearest to the quotient of two finite ones that have no sign. -/
def dividedBy (v w : Binary64) : Binary64 :=
  ofRatio false (v.ratio.1 * w.ratio.2) (v.ratio.2 * w.ratio.1)

/-- The number with a sign of its own, or without. -/
def withSign (negative : Bool) (v : Binary64) : Binary64 :=
  signed negative (v.bits.toNat % signBit)

/-- A number of 32 bits, widened. -/
def ofSingle (bits : UInt32) : Binary64 :=
  let negative := decide (0x80000000 ≤ bits.toNat)
  let field := bits.toNat / 0x800000 % 256
  let fraction := bits.toNat % 0x800000
  if field = 255 then
    if fraction = 0 then infinity negative
    else signed negative (infinityBits + (fraction % 0x400000 + 0x400000) * 0x20000000)
  else
    let m := if field = 0 then fraction else 0x800000 + fraction
    let (num, den) := dyadic m ((max field 1 : Nat) - 150)
    ofRatio negative num den

end Binary64
end PrintFormat
