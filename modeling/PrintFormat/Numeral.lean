import PrintFormat.Bytes

/-!
Positional numerals. `Base.digits` are the digits of a number without leading
zeros, `places` a fixed count of its low-order digits, and `ofDigits` the value
that digits stand for. Words are written from their bit pattern: in base 10 a
signed word has a minus sign, in every other base the pattern itself is
written.
-/
namespace PrintFormat

/-- A number base that the digits and letters can write. -/
structure Base where
  value : Nat
  two_le : 2 ≤ value
  le_max : value ≤ 36

namespace Base

def binary : Base := ⟨2, by decide, by decide⟩
def octal : Base := ⟨8, by decide, by decide⟩
def decimal : Base := ⟨10, by decide, by decide⟩
def hexadecimal : Base := ⟨16, by decide, by decide⟩

/-- The base nearest to a number that need not be one. -/
def clamp (n : Nat) : Base := ⟨min (max n 2) 36, by omega, by omega⟩

/-- The digits of a number, the highest first; zero has the one digit 0. -/
def digits (b : Base) (n : Nat) : List Nat :=
  if n < b.value then [n] else b.digits (n / b.value) ++ [n % b.value]
termination_by n
decreasing_by
  have := b.two_le
  exact Nat.div_lt_self (by omega) (by omega)

end Base

/-- The last `count` digits of a number, leading zeros included. -/
def places (base : Nat) : Nat → Nat → List Nat
  | 0, _ => []
  | count + 1, n => places base count (n / base) ++ [n % base]

/-- The number that digits stand for, the highest first. -/
def ofDigits (base : Nat) (digits : List Nat) : Nat :=
  digits.foldl (fun n d => n * base + d) 0

theorem length_places (base count n : Nat) : (places base count n).length = count := by
  induction count generalizing n with
  | zero => rfl
  | succ count ih => simp [places, ih]

theorem ofDigits_append_singleton (base : Nat) (ds : List Nat) (d : Nat) :
    ofDigits base (ds ++ [d]) = ofDigits base ds * base + d := by
  simp [ofDigits]

theorem ofDigits_digits (b : Base) (n : Nat) : ofDigits b.value (b.digits n) = n := by
  fun_induction Base.digits b n with
  | case1 n h => simp [ofDigits]
  | case2 n h ih => rw [ofDigits_append_singleton, ih, Nat.mul_comm, Nat.div_add_mod]

theorem ofDigits_places (base count n : Nat) :
    ofDigits base (places base count n) = n % Nat.pow base count := by
  induction count generalizing n with
  | zero => simp [places, ofDigits, Nat.mod_one]
  | succ count ih =>
    have h : Nat.pow base (count + 1) = base * Nat.pow base count := Nat.mul_comm _ _
    rw [places, ofDigits_append_singleton, ih, h, Nat.mod_mul, Nat.mul_comm, Nat.add_comm]

/-- The byte of a digit: decimal digits, then letters. -/
def digitByte (upper : Bool) (d : Nat) : UInt8 :=
  if d < 10 then (48 + d).toUInt8
  else if upper then (55 + d).toUInt8
  else (87 + d).toUInt8

/-- The numeral of a number. -/
def Base.text (b : Base) (upper : Bool) (n : Nat) : Bytes :=
  (b.digits n).map (digitByte upper)

/-- The decimal numeral of a natural number. -/
def natText (n : Nat) : Bytes := Base.decimal.text false n

/-- The decimal numeral of an integer. -/
def intText (n : Int) : Bytes :=
  if n < 0 then minus :: natText n.natAbs else natText n.natAbs

/-- A group of hexadecimal digits with leading zeros. -/
def hexGroup (upper : Bool) (width n : Nat) : Bytes :=
  zeroFilled width (Base.hexadecimal.text upper n)

/-- The numeral of a machine word. Only base 10 shows a sign. -/
def wordText (b : Base) (upper signed : Bool) {width : Nat} (v : BitVec width) : Bytes :=
  if b.value = 10 && signed then intText v.toInt else b.text upper v.toNat

end PrintFormat
