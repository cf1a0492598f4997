import PrintFormat.Numeral

/-!
Numbers as JSON text writes them: an optional minus sign, a whole part without
leading zeros, perhaps a point with digits, perhaps an exponent. `Numeral.take?`
takes the longest numeral off a text, `Numeral.text` writes one. The text of an
exponent always has a sign and no leading zeros.
-/
namespace PrintFormat.Json

/-- A number as it is written. -/
structure Numeral where
  negative : Bool := false
  whole : Nat := 0
  fraction : List (Fin 10) := []
  exponent : Option Int := none
  deriving DecidableEq

/-- The character of a decimal digit. -/
def digitChar (d : Nat) : Char := Char.ofNat (48 + d)

/-- The last decimal digit of a number. -/
def decimalDigit (n : Nat) : Fin 10 := ⟨n % 10, Nat.mod_lt n (by decide)⟩

/-- The decimal digit that a character is. -/
def digitOf (c : Char) : Fin 10 := decimalDigit (c.toNat - 48)

/-- The decimal digits of a natural number. -/
def digitsText (n : Nat) : List Char := (Base.decimal.digits n).map digitChar

namespace Numeral

def fractionText (fraction : List (Fin 10)) : List Char :=
  if fraction = [] then [] else '.' :: fraction.map fun (d : Fin 10) => digitChar d.val

def exponentText : Option Int → List Char
  | none => []
  | some e => 'e' :: (if e < 0 then '-' else '+') :: digitsText e.natAbs

/-- A number's text. -/
def text (n : Numeral) : List Char :=
  (if n.negative then ['-'] else []) ++ digitsText n.whole ++ fractionText n.fraction
    ++ exponentText n.exponent

/-- Takes a run of digits off a text. -/
def takeDigits (cs : List Char) : List (Fin 10) × List Char :=
  ((cs.takeWhile Char.isDigit).map digitOf, cs.dropWhile Char.isDigit)

/-- The number that a run of digits writes. -/
def digitsValue (digits : List (Fin 10)) : Nat := ofDigits 10 (digits.map Fin.val)

/-- Takes the whole part off a text: a zero, or digits that start with another
one. -/
def takeWhole? : List Char → Option (Nat × List Char)
  | [] => none
  | c :: rest =>
      if c = '0' then some (0, rest)
      else if c.isDigit then
        let (digits, rest) := takeDigits (c :: rest)
        some (digitsValue digits, rest)
      else none

/-- Takes a point and the digits behind it off a text, if a point stands
there. -/
def takeFraction? : List Char → Option (List (Fin 10) × List Char)
  | [] => some ([], [])
  | c :: rest =>
      if c = '.' then
        let taken := takeDigits rest
        if taken.1 = [] then none else some taken
      else some ([], c :: rest)

/-- Takes a sign off the front of an exponent. -/
def takeSign : List Char → Bool × List Char
  | [] => (false, [])
  | c :: rest =>
      if c = '-' then (true, rest) else if c = '+' then (false, rest) else (false, c :: rest)

/-- Takes an exponent off a text, if its letter stands there. -/
def takeExponent? : List Char → Option (Option Int × List Char)
  | [] => some (none, [])
  | c :: rest =>
      if c = 'e' ∨ c = 'E' then
        let sign := takeSign rest
        let taken := takeDigits sign.2
        let n : Int := digitsValue taken.1
        if taken.1 = [] then none else some (some (if sign.1 then -n else n), taken.2)
      else some (none, c :: rest)

/-- Takes a number off a text. -/
def take? (cs : List Char) : Option (Numeral × List Char) := do
  let negative := cs.head? = some '-'
  let (whole, cs) ← takeWhole? (if negative then cs.tail else cs)
  let (fraction, cs) ← takeFraction? cs
  let (exponent, cs) ← takeExponent? cs
  return ({ negative, whole, fraction, exponent }, cs)

/-! ## What is left is shorter -/

theorem length_takeDigits (cs : List Char) : (takeDigits cs).2.length ≤ cs.length :=
  (List.dropWhile_sublist _).length_le

theorem length_takeWhole? {cs rest : List Char} {n : Nat}
    (h : takeWhole? cs = some (n, rest)) : rest.length < cs.length := by
  unfold takeWhole? at h
  split at h
  · simp at h
  · next c r =>
    split at h
    · simp only [Option.some.injEq, Prod.mk.injEq] at h
      simp [← h.2]
    · split at h
      · next hd =>
        simp only [takeDigits, Option.some.injEq, Prod.mk.injEq] at h
        have := (List.dropWhile_sublist Char.isDigit (l := r)).length_le
        rw [← h.2, List.dropWhile_cons_of_pos hd, List.length_cons]
        omega
      · simp at h

theorem length_takeFraction? {cs rest : List Char} {digits : List (Fin 10)}
    (h : takeFraction? cs = some (digits, rest)) : rest.length ≤ cs.length := by
  unfold takeFraction? at h
  split at h
  · simp_all
  · next c r =>
    have hr := length_takeDigits r
    split at h
    · simp only [Option.ite_none_left_eq_some, Option.some.injEq] at h
      rw [h.2] at hr
      exact Nat.le_succ_of_le hr
    · simp_all

theorem length_takeSign (cs : List Char) : (takeSign cs).2.length ≤ cs.length := by
  unfold takeSign
  split
  · simp
  · split
    · simp
    · split <;> simp

theorem length_takeExponent? {cs rest : List Char} {e : Option Int}
    (h : takeExponent? cs = some (e, rest)) : rest.length ≤ cs.length := by
  unfold takeExponent? at h
  split at h
  · simp_all
  · next c r =>
    have hs := length_takeSign r
    have hr := length_takeDigits (takeSign r).2
    split at h
    · simp only [Option.ite_none_left_eq_some, Option.some.injEq, Prod.mk.injEq] at h
      rw [h.2.2] at hr
      exact Nat.le_succ_of_le (Nat.le_trans hr hs)
    · simp_all

theorem length_take? {cs rest : List Char} {n : Numeral} (h : take? cs = some (n, rest)) :
    rest.length < cs.length := by
  simp only [take?, Option.bind_eq_bind, Option.bind_eq_some_iff, Prod.exists,
    Option.pure_def, Option.some.injEq, Prod.mk.injEq] at h
  obtain ⟨whole, r1, h1, fraction, r2, h2, e, r3, h3, -, rfl⟩ := h
  have l1 := length_takeWhole? h1
  have l2 := length_takeFraction? h2
  have l3 := length_takeExponent? h3
  split at l1
  · simp only [List.length_tail] at l1
    omega
  · omega

end Numeral
end PrintFormat.Json
