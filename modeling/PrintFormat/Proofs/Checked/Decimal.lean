import PrintFormat.Proofs.Checked.Numeral
import PrintFormat.Proofs.Decimal.Finite

/-!
Fraction digits in words of 128 bits. The fraction of a float is a numerator
over a power of two of at most 124 bits, so that ten times the numerator still
fits; the digits come off its front one by one, and what is left of it decides
the rounding. Bits below the 124 are folded into one, which is enough for
numbers so small. The digits and the whole part come out as those of the exact
value scaled and rounded once.
-/
namespace PrintFormat

namespace Checked

variable {σ : Type}

/-- The most bits that a fraction is given with. -/
def maxFractionBits : Nat := 124

/-- The fraction of a finite number as a numerator and the bits of its
denominator. -/
def exactFraction (v : Binary64) : Checked σ (Nat × Nat) := do
  if 0 ≤ v.exponent then
    return (0, 0)
  else
    let bits := v.exponent.natAbs
    if bits ≤ maxFractionBits then
      let mask ← sub (← shiftLeft 128 1 bits) 1
      return (v.significand &&& mask, bits)
    else
      let shift ← sub bits maxFractionBits
      if 64 ≤ shift then
        return (if v.significand = 0 then 0 else 1, maxFractionBits)
      else
        let kept ← shiftRight 64 v.significand shift
        let mask ← sub (← shiftLeft 64 1 shift) 1
        return (kept ||| (if v.significand &&& mask = 0 then 0 else 1), maxFractionBits)

/-- The first digit of a fraction and what is left of it. -/
def nextDigit (bits rest : Nat) : Checked σ (Nat × Nat) := do
  let rest ← word 128 (rest * 10)
  let digit ← shiftRight 128 rest bits
  let _ ← require (digit ≤ 9)
  let mask ← sub (← shiftLeft 128 1 bits) 1
  return (digit, rest &&& mask)

/-- The first digits of a fraction and what is left of it. -/
def fractionDigits (bits : Nat) : Nat → Nat → Checked σ (List Nat × Nat)
  | 0, rest => return ([], rest)
  | count + 1, rest => do
      let (digit, rest) ← nextDigit bits rest
      let (digits, rest) ← fractionDigits bits count rest
      return (digit :: digits, rest)

/-- Whether what is left of a fraction rounds its digits up. -/
def roundsUp (rounding : Rounding) (bits rest : Nat) : Checked σ Bool := do
  if rounding = .nearest ∧ 0 < bits then
    let half ← shiftLeft 128 1 (← sub bits 1)
    return half ≤ rest
  else
    return false

/-- Adds one to digits, the lowest first, and tells whether one is carried out
of them. -/
def increment : List Nat → Checked σ (List Nat × Bool)
  | [] => return ([], true)
  | digit :: digits => do
      if digit = 9 then
        let (digits, carry) ← increment digits
        return (0 :: digits, carry)
      else
        return ((← word 8 (digit + 1)) :: digits, false)

/-- The whole part and the fraction digits of a finite number, rounded. There is
a cell for each digit that is taken. -/
def decimal (v : Binary64) (rounding : Rounding) (places : Nat) : Checked σ (Nat × List Nat) := do
  let _ ← require (places ≤ significantPlaces)
  let whole ← word 128 (v.ratio.1 / v.ratio.2)
  let (rest, bits) ← exactFraction v
  let (digits, rest) ← fractionDigits bits places rest
  if ← roundsUp rounding bits rest then
    let (reversed, carry) ← increment digits.reverse
    let whole ← if carry then word 128 (whole + 1) else pure whole
    return (whole, reversed.reverse)
  else
    return (whole, digits)

/-! ### The fraction -/

theorem shiftLeft_one {bits k : Nat} (h : k < bits) :
    (shiftLeft bits 1 k : Checked σ Nat) = pure (2 ^ k) := by
  rw [shiftLeft_of h, Nat.one_mul, Nat.mod_eq_of_lt (Nat.pow_lt_pow_right (by decide) h)]

/-- A numerator over a power of two that has the fraction digits of a number, as
many as are taken, and is rounded like it. -/
structure IsFraction (v : Binary64) (rest bits : Nat) : Prop where
  bits_le : bits ≤ maxFractionBits
  lt : rest < 2 ^ bits
  digits : ∀ k ≤ significantPlaces,
    rest * 10 ^ k / 2 ^ bits = v.ratio.1 % v.ratio.2 * 10 ^ k / v.ratio.2
  half : ∀ k ≤ significantPlaces, (0 < bits ∧ 2 ^ bits ≤ 2 * (rest * 10 ^ k % 2 ^ bits)) ↔
    v.ratio.2 ≤ 2 * (v.ratio.1 % v.ratio.2 * 10 ^ k % v.ratio.2)

theorem significand_lt (v : Binary64) : v.significand < 2 ^ 53 := by
  have hfraction : v.fraction < Binary64.implicitBit := Nat.mod_lt _ (by decide)
  unfold Binary64.significand
  unfold Binary64.implicitBit at *
  split <;> omega

theorem ratio_of_nonneg {v : Binary64} (h : 0 ≤ v.exponent) : v.ratio.2 = 1 := by
  rw [Binary64.ratio, Binary64.dyadic, if_pos h]

theorem ratio_of_neg {v : Binary64} (h : ¬0 ≤ v.exponent) :
    v.ratio = (v.significand, 2 ^ v.exponent.natAbs) := by
  have hneg : (-v.exponent).toNat = v.exponent.natAbs := by omega
  rw [Binary64.ratio, Binary64.dyadic, if_neg h, hneg, Nat.pow_eq]

/-- Below 2 to the power -71 all digits that are taken are zeros, and so they
are for any numerator of 53 bits. -/
theorem isFraction_of_small {v : Binary64} (hexp : ¬0 ≤ v.exponent)
    (hbits : maxFractionBits < v.exponent.natAbs) {rest : Nat} (hrest : rest < 2 ^ 53) :
    IsFraction v rest maxFractionBits := by
  have hsmall {n k bits : Nat} (hn : n < 2 ^ 53) (hk : k ≤ significantPlaces)
      (hb : maxFractionBits ≤ bits) : 2 * (n * 10 ^ k) < 2 ^ bits :=
    calc 2 * (n * 10 ^ k) ≤ 2 * (2 ^ 53 * 10 ^ significantPlaces) :=
          Nat.mul_le_mul_left 2 (Nat.mul_le_mul hn.le (Nat.pow_le_pow_right (by decide) hk))
      _ < 2 ^ maxFractionBits := by decide
      _ ≤ 2 ^ bits := Nat.pow_le_pow_right (by decide) hb
  have hm := significand_lt v
  have hmod : v.significand % 2 ^ v.exponent.natAbs = v.significand := by
    have := hsmall (k := 0) hm (Nat.zero_le _) hbits.le
    exact Nat.mod_eq_of_lt (by omega)
  have hratio := ratio_of_neg hexp
  refine ⟨Nat.le_refl _, Nat.lt_trans hrest (by decide), fun k hk => ?_, fun k hk => ?_⟩
  · have h := hsmall hrest hk (Nat.le_refl _)
    have h' := hsmall hm hk hbits.le
    rw [hratio, hmod, Nat.div_eq_of_lt (by omega), Nat.div_eq_of_lt (by omega)]
  · have h := hsmall hrest hk (Nat.le_refl _)
    have h' := hsmall hm hk hbits.le
    rw [hratio, hmod, Nat.mod_eq_of_lt (by omega), Nat.mod_eq_of_lt (by omega)]
    omega

theorem exactFraction_eq (v : Binary64) : ∃ rest bits,
    (exactFraction v : Checked σ (Nat × Nat)) = pure (rest, bits) ∧ IsFraction v rest bits := by
  unfold exactFraction
  by_cases hexp : 0 ≤ v.exponent
  · refine ⟨0, 0, by rw [if_pos hexp], by decide, by decide, fun k _ => ?_, fun k _ => ?_⟩
    · simp [ratio_of_nonneg hexp, Nat.mod_one]
    · simp [ratio_of_nonneg hexp, Nat.mod_one]
  rw [if_neg hexp]
  have hratio := ratio_of_neg hexp
  by_cases hbits : v.exponent.natAbs ≤ maxFractionBits
  · have hlt : v.exponent.natAbs < 128 := Nat.lt_of_le_of_lt hbits (by decide)
    refine ⟨v.significand % 2 ^ v.exponent.natAbs, v.exponent.natAbs, ?_, hbits,
      Nat.mod_lt _ (Nat.two_pow_pos _), fun k _ => by rw [hratio], fun k _ => ?_⟩
    · rw [if_pos hbits, shiftLeft_one hlt, pure_bind, sub_of (Nat.two_pow_pos _), pure_bind,
        Nat.and_two_pow_sub_one_eq_mod]
    · rw [hratio]
      exact and_iff_right (by omega)
  rw [if_neg hbits, sub_of (by omega), pure_bind]
  have hbits : maxFractionBits < v.exponent.natAbs := by omega
  have hm := significand_lt v
  by_cases hshift : 64 ≤ v.exponent.natAbs - maxFractionBits
  · refine ⟨_, _, by rw [if_pos hshift], isFraction_of_small hexp hbits ?_⟩
    split <;> decide
  · rw [if_neg hshift, shiftRight_of (by omega), pure_bind, shiftLeft_one (by omega), pure_bind,
      sub_of (Nat.two_pow_pos _), pure_bind]
    refine ⟨_, _, rfl, isFraction_of_small hexp hbits (Nat.or_lt_two_pow ?_ ?_)⟩
    · exact Nat.lt_of_le_of_lt (Nat.div_le_self _ _) hm
    · split <;> decide

/-! ### The digits -/

theorem nextDigit_eq {bits rest : Nat} (hbits : bits ≤ maxFractionBits) (hrest : rest < 2 ^ bits) :
    (nextDigit bits rest : Checked σ (Nat × Nat)) =
      pure (rest * 10 / 2 ^ bits, rest * 10 % 2 ^ bits) := by
  have hword : bits < 128 := Nat.lt_of_le_of_lt hbits (by decide)
  have hten : rest * 10 < 2 ^ 128 :=
    calc rest * 10 ≤ 2 ^ bits * 10 := Nat.mul_le_mul_right 10 hrest.le
      _ ≤ 2 ^ maxFractionBits * 10 :=
        Nat.mul_le_mul_right 10 (Nat.pow_le_pow_right (by decide) hbits)
      _ < 2 ^ 128 := by decide
  have hdigit : rest * 10 / 2 ^ bits ≤ 9 :=
    Nat.le_of_lt_succ (Nat.div_lt_of_lt_mul (Nat.mul_lt_mul_of_pos_right hrest (by decide)))
  rw [nextDigit, word_of hten, pure_bind, shiftRight_of hword, pure_bind, require_of hdigit,
    pure_bind, shiftLeft_one hword, pure_bind, sub_of (Nat.two_pow_pos _), pure_bind,
    Nat.and_two_pow_sub_one_eq_mod]

theorem fractionDigits_eq {bits : Nat} (hbits : bits ≤ maxFractionBits) (count : Nat) {rest : Nat}
    (hrest : rest < 2 ^ bits) :
    (fractionDigits bits count rest : Checked σ (List Nat × Nat)) =
      pure (places 10 count (rest * 10 ^ count / 2 ^ bits), rest * 10 ^ count % 2 ^ bits) := by
  induction count generalizing rest with
  | zero => simp [fractionDigits, places, Nat.mod_eq_of_lt hrest]
  | succ count ih =>
    have hpos : 0 < 2 ^ bits := Nat.two_pow_pos bits
    rw [fractionDigits, nextDigit_eq hbits hrest, pure_bind]
    dsimp only
    rw [ih (Nat.mod_lt _ hpos), pure_bind]
    -- the first digit is above the places of the others
    generalize hdigit : rest * 10 / 2 ^ bits = digit
    generalize hleft : rest * 10 % 2 ^ bits = left
    have hsplit : rest * 10 ^ (count + 1) =
        2 ^ bits * (digit * 10 ^ count) + left * 10 ^ count := by
      have := Nat.div_add_mod (rest * 10) (2 ^ bits)
      rw [hdigit, hleft] at this
      rw [pow_succ', ← Nat.mul_assoc, ← this, Nat.add_mul, Nat.mul_assoc]
    have hlow : left * 10 ^ count / 2 ^ bits < 10 ^ count :=
      Nat.div_lt_of_lt_mul (Nat.mul_lt_mul_of_pos_right (hleft ▸ Nat.mod_lt _ hpos)
        (Nat.pow_pos (by decide)))
    have hten : digit < 10 :=
      hdigit ▸ Nat.div_lt_of_lt_mul (Nat.mul_lt_mul_of_pos_right hrest (by decide))
    rw [hsplit, Nat.mul_add_div hpos, Nat.mul_add_mod, places_succ,
      places_add_mul (by decide), Nat.add_comm, Nat.add_mul_div_right _ _ (Nat.pow_pos (by decide)),
      Nat.div_eq_of_lt hlow, Nat.zero_add, Nat.mod_eq_of_lt hten]

/-- Rounding half up adds one exactly if what is cut off is at least a half. -/
theorem half_up (n : Nat) {den : Nat} (hden : 0 < den) :
    (2 * n + den) / (2 * den) = n / den + if den ≤ 2 * (n % den) then 1 else 0 := by
  have hn : 2 * n + den = 2 * den * (n / den) + (2 * (n % den) + den) := by
    have := Nat.div_add_mod n den
    rw [Nat.mul_assoc]
    omega
  have hlt := Nat.mod_lt n hden
  rw [hn, Nat.mul_add_div (by omega)]
  congr 1
  split
  · rw [Nat.div_eq_of_lt_le] <;> omega
  · exact Nat.div_eq_of_lt (by omega)

theorem roundsUp_eq (rounding : Rounding) {bits : Nat} (hbits : bits ≤ maxFractionBits)
    (rest : Nat) :
    (roundsUp rounding bits rest : Checked σ Bool) =
      pure (decide (rounding = .nearest ∧ 0 < bits ∧ 2 ^ bits ≤ 2 * rest)) := by
  unfold maxFractionBits at hbits
  unfold roundsUp
  split
  · next h =>
    have hhalf : 2 ^ bits = 2 * 2 ^ (bits - 1) := by
      rw [← pow_succ', Nat.sub_add_cancel h.2]
    rw [sub_of h.2, pure_bind, shiftLeft_one (by omega), pure_bind, hhalf]
    congr 1
    simp [h.1, h.2]
  · next h => simp [h, ← and_assoc]

theorem increment_eq (count n : Nat) :
    (increment (places 10 count n).reverse : Checked σ (List Nat × Bool)) =
      pure ((places 10 count (n + 1)).reverse, decide (10 ^ count ≤ n % 10 ^ count + 1)) := by
  induction count generalizing n with
  | zero => simp [places, increment]
  | succ count ih =>
    have hmod : n % 10 ^ (count + 1) = n % 10 + 10 * (n / 10 % 10 ^ count) := by
      rw [pow_succ', Nat.mod_mul]
    have hpow : 10 ^ (count + 1) = 10 * 10 ^ count := pow_succ' 10 count
    have hlt : n / 10 % 10 ^ count < 10 ^ count := Nat.mod_lt _ (Nat.pow_pos (by decide))
    simp only [places, List.reverse_append, List.reverse_singleton, List.singleton_append]
    rw [increment, hmod, hpow]
    split
    · next h =>
      have hdiv : (n + 1) / 10 = n / 10 + 1 := by omega
      have hlast : (n + 1) % 10 = 0 := by omega
      have hcarry : 10 ^ count ≤ n / 10 % 10 ^ count + 1 ↔
          10 * 10 ^ count ≤ 9 + 10 * (n / 10 % 10 ^ count) + 1 := by omega
      rw [ih, pure_bind, hdiv, hlast, h]
      dsimp only
      rw [decide_eq_decide.mpr hcarry]
    · next h =>
      have hdiv : (n + 1) / 10 = n / 10 := by omega
      have hlast : (n + 1) % 10 = n % 10 + 1 := by omega
      rw [word_of (by omega), pure_bind, hdiv, hlast]
      congr 2
      exact (decide_eq_false (by omega)).symm

/-- A number with a fraction is below 53 bits. -/
theorem ratio_lt {v : Binary64} (h : v.ratio.2 ≠ 1) : v.ratio.1 < 2 ^ 53 := by
  rw [ratio_of_neg fun hexp => h (ratio_of_nonneg hexp)]
  exact significand_lt v

/-- Whether the exact value is rounded up behind a count of places. -/
def IsRoundedUp (v : Binary64) (rounding : Rounding) (count : Nat) : Prop :=
  rounding = .nearest ∧ v.ratio.2 ≤ 2 * (v.ratio.1 % v.ratio.2 * 10 ^ count % v.ratio.2)

instance (v : Binary64) (rounding : Rounding) (count : Nat) :
    Decidable (IsRoundedUp v rounding count) :=
  inferInstanceAs (Decidable (_ ∧ _))

/-- The scaled value by its whole part and its fraction. -/
theorem scaled_eq (v : Binary64) (rounding : Rounding) (count : Nat) :
    v.scaled rounding count = v.ratio.1 / v.ratio.2 * 10 ^ count +
      (v.ratio.1 % v.ratio.2 * 10 ^ count / v.ratio.2 +
        if IsRoundedUp v rounding count then 1 else 0) := by
  have hden := v.ratio_snd_pos
  have hsplit : v.ratio.1 * 10 ^ count = v.ratio.2 * (v.ratio.1 / v.ratio.2 * 10 ^ count) +
      v.ratio.1 % v.ratio.2 * 10 ^ count := by
    rw [← Nat.mul_assoc, ← Nat.add_mul, Nat.div_add_mod]
  unfold IsRoundedUp
  cases rounding with
  | truncate =>
    rw [Binary64.scaled_truncate, Nat.pow_eq, hsplit, Nat.mul_add_div hden]
    simp
  | nearest =>
    rw [Binary64.scaled_nearest, Nat.pow_eq, half_up _ hden, hsplit, Nat.mul_add_div hden,
      Nat.mul_add_mod, Nat.add_assoc]
    simp

theorem decimal_eq {v : Binary64} (h : v.isHuge = false) (rounding : Rounding) {count : Nat}
    (hcount : count ≤ significantPlaces) :
    (decimal v rounding count : Checked σ (Nat × List Nat)) =
      pure (v.scaled rounding count / 10 ^ count, places 10 count (v.scaled rounding count)) := by
  obtain ⟨rest, bits, hfraction, hbits, hrest, hdigits, hhalf⟩ := exactFraction_eq (σ := σ) v
  have hpow : 0 < 10 ^ count := Nat.pow_pos (by decide)
  have hround : (roundsUp rounding bits (rest * 10 ^ count % 2 ^ bits) : Checked σ Bool) =
      pure (decide (IsRoundedUp v rounding count)) := by
    rw [roundsUp_eq rounding hbits]
    congr 1
    exact decide_eq_decide.mpr (and_congr_right fun _ => hhalf count hcount)
  have hlow : v.ratio.1 % v.ratio.2 * 10 ^ count / v.ratio.2 < 10 ^ count :=
    Nat.div_lt_of_lt_mul (Nat.mul_lt_mul_of_pos_right (Nat.mod_lt _ v.ratio_snd_pos) hpow)
  have hwhole : v.ratio.1 / v.ratio.2 < 2 ^ 128 := by
    refine Nat.div_lt_of_lt_mul ?_
    rw [Nat.mul_comm]
    exact Nat.lt_of_not_le (of_decide_eq_false h)
  unfold decimal
  rw [require_of hcount, pure_bind, word_of hwhole, pure_bind, hfraction, pure_bind]
  dsimp only
  rw [fractionDigits_eq hbits count hrest, pure_bind]
  dsimp only
  rw [hround, pure_bind, hdigits count hcount, scaled_eq, places_add_mul (by decide),
    Nat.add_comm (_ * _), Nat.add_mul_div_right _ _ hpow]
  generalize v.ratio.1 % v.ratio.2 * 10 ^ count / v.ratio.2 = low at hlow ⊢
  by_cases hup : IsRoundedUp v rounding count
  · rw [if_pos (decide_eq_true hup), if_pos hup, increment_eq, pure_bind, Nat.mod_eq_of_lt hlow]
    dsimp only
    rw [List.reverse_reverse]
    split
    · next hcarry =>
      have hcarry : low + 1 = 10 ^ count := by
        have : 10 ^ count ≤ low + 1 := by simpa using hcarry
        omega
      -- one is carried only where there is a fraction, and then the whole part is small
      have hden : v.ratio.2 ≠ 1 := fun hone => by
        have := hup.2
        rw [hone] at this
        omega
      have hsmall : v.ratio.1 / v.ratio.2 + 1 < 2 ^ 128 :=
        calc v.ratio.1 / v.ratio.2 + 1 ≤ v.ratio.1 + 1 := Nat.succ_le_succ (Nat.div_le_self _ _)
          _ ≤ 2 ^ 53 := ratio_lt hden
          _ < 2 ^ 128 := by decide
      rw [word_of hsmall, pure_bind, hcarry, Nat.div_self hpow, Nat.add_comm]
    · next hcarry =>
      have hcarry : low + 1 < 10 ^ count := by simpa using hcarry
      rw [pure_bind, Nat.div_eq_of_lt hcarry, Nat.zero_add]
  · rw [if_neg (by simpa using hup), if_neg hup, Nat.add_zero, Nat.div_eq_of_lt hlow, Nat.zero_add]

end Checked

namespace Span

/-- Puts a digit in front. -/
def pushDigit (digit : Nat) : Checked Span Unit := do
  push (← Checked.word 8 (48 + digit)).toUInt8

/-- Puts a finite number in front. -/
def pushFixed (v : Binary64) (rounding : Rounding) (precision : Nat) : Checked Span Unit := do
  let shown := min precision maxPlaces
  let taken := min shown significantPlaces
  let (whole, digits) ← Checked.decimal v rounding taken
  (List.replicate (shown - taken) zero).forM push
  digits.reverse.forM pushDigit
  (if 0 < shown then ascii "." else []).forM push
  pushSigned .decimal false v.isNegative whole

/-- Puts infinity in front. -/
def pushInfinity (negative upper : Bool) : Checked Span Unit := do
  prepend (ascii (if upper then "INF" else "inf"))
  if negative then push minus

/-- Puts a float in front and answers how many bytes that took. -/
def pushFloat (v : Binary64) (rounding : Rounding) (precision : Nat) (upper : Bool) :
    Checked Span Nat :=
  counted <|
    if v.isNaN then prepend (ascii (if upper then "NAN" else "nan"))
    else if v.isInfinite then pushInfinity v.isNegative upper
    else if v.isHuge then throw (.error .scratchOverflow)
    else pushFixed v rounding precision

/-! ### Carried out -/

theorem forM_pushDigit {digits : List Nat} (h : ∀ d ∈ digits, d < 10) :
    digits.forM pushDigit = (digits.map (digitByte false)).forM push := by
  induction digits with
  | nil => rfl
  | cons d rest ih =>
    have hd : d < 10 := h d List.mem_cons_self
    have hpush : pushDigit d = push (digitByte false d) := by
      rw [pushDigit, Checked.word_of (by omega), pure_bind, digitByte, if_pos hd]
    show (pushDigit d >>= fun _ => rest.forM pushDigit) =
      push (digitByte false d) >>= fun _ => (rest.map (digitByte false)).forM push
    rw [hpush, ih fun c hc => h c (List.mem_cons_of_mem _ hc)]

/-- The text of a number in the order in which it is put in front. -/
theorem reverse_fixedText (v : Binary64) (rounding : Rounding) (precision : Nat) :
    let shown := min precision maxPlaces
    let taken := min shown significantPlaces
    let n := v.scaled rounding taken
    (v.fixedText rounding precision).reverse =
      List.replicate (shown - taken) zero ++ ((places 10 taken n).reverse.map (digitByte false) ++
        ((if 0 < shown then ascii "." else []) ++
          ((if v.isNegative then [minus] else []) ++
            Base.decimal.text false (n / 10 ^ taken)).reverse)) := by
  intro shown taken n
  have hfraction : (if shown = 0 then ([] : Bytes)
      else ascii "." ++ (places 10 taken n).map (digitByte false)
        ++ List.replicate (shown - taken) zero) =
      (if 0 < shown then ascii "." else []) ++ (places 10 taken n).map (digitByte false) ++
        List.replicate (shown - taken) zero := by
    by_cases hshown : shown = 0
    · have htaken : taken = 0 := by omega
      simp [hshown, htaken, places]
    · rw [if_neg hshown, if_pos (Nat.pos_of_ne_zero hshown)]
  have hpoint : (if 0 < shown then ascii "." else []).reverse =
      if 0 < shown then ascii "." else [] := by
    split <;> rfl
  have htext : v.fixedText rounding precision = (if v.isNegative then [minus] else []) ++
      natText (n / Nat.pow 10 taken) ++ (if shown = 0 then ([] : Bytes)
        else ascii "." ++ (places 10 taken n).map (digitByte false)
          ++ List.replicate (shown - taken) zero) := rfl
  rw [htext, hfraction]
  simp only [List.reverse_append, List.reverse_replicate, List.map_reverse, hpoint,
    List.append_assoc, natText, Nat.pow_eq]

theorem pushFixed_carriesOut {v : Binary64} (h : v.isHuge = false) (rounding : Rounding)
    (precision : Nat) :
    Checked.CarriesOut view (pushFixed v rounding precision)
      ((v.fixedText rounding precision).reverse.forM Scratch.push) := by
  unfold pushFixed
  dsimp only
  rw [reverse_fixedText, Checked.decimal_eq h rounding (Nat.min_le_right _ _), pure_bind]
  simp only [Action.forM_append]
  refine (Checked.CarriesOut.forM push_carriesOut _).bind fun _ => ?_
  rw [forM_pushDigit fun d hd => lt_of_mem_places (by decide) (List.mem_reverse.mp hd)]
  refine (Checked.CarriesOut.forM push_carriesOut _).bind fun _ => ?_
  refine (Checked.CarriesOut.forM push_carriesOut _).bind fun _ => ?_
  exact pushSigned_carriesOut _ _ _ _

theorem pushInfinity_carriesOut (negative upper : Bool) :
    Checked.CarriesOut view (pushInfinity negative upper) (do
      Scratch.prepend (ascii (if upper then "INF" else "inf"))
      if negative then Scratch.push minus) :=
  (prepend_carriesOut _).bind fun _ => .ite (fun _ => push_carriesOut minus) fun _ => .pure ()

theorem pushFloat_carriesOut (v : Binary64) (rounding : Rounding) (precision : Nat)
    (upper : Bool) :
    Checked.CarriesOut view (pushFloat v rounding precision upper)
      (Scratch.pushFloat v rounding precision upper) := by
  have hletters (text : Bytes) (h : text.length = 3) : Scratch.Grows (Scratch.prepend text) 3 :=
    h ▸ Scratch.grows_prepend text
  unfold pushFloat Scratch.pushFloat
  split
  · exact counted_carriesOut (prepend_carriesOut _) (hletters _ (by cases upper <;> rfl))
  split
  · have h := hletters (ascii (if upper then "INF" else "inf")) (by cases upper <;> rfl)
    cases v.isNegative with
    | false =>
      have hplain := counted_carriesOut (pushInfinity_carriesOut false upper)
        (h.andThen Scratch.grows_pure)
      rw [bind_assoc] at hplain
      exact hplain
    | true =>
      have hsigned := counted_carriesOut (pushInfinity_carriesOut true upper)
        (h.andThen (Scratch.grows_push minus))
      rw [bind_assoc] at hsigned
      exact hsigned
  split
  · exact counted_carriesOut (Checked.CarriesOut.throw _) (Scratch.grows_throw _ 0)
  · next hhuge =>
    exact counted_pushText (pushFixed_carriesOut (by simpa using hhuge) rounding precision)

end Span

end PrintFormat
