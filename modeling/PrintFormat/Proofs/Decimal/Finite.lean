import PrintFormat.Decimal.Fixed
import PrintFormat.Proofs.Numeral.Digits
import PrintFormat.Proofs.Scratch.Spans

/-!
Floats as exact numbers, and the room that their digits take. A finite float is
huge exactly if its magnitude is 2 to the power 128 or more; below that the
whole part has 39 digits at most, also where rounding carries into it, so that
sign, digits, point and 40 places just fit the span.
-/
namespace PrintFormat

namespace Binary64

/-- The exact value of a finite number without its sign. -/
def magnitude (v : Binary64) : ℚ := v.significand * 2 ^ v.exponent

theorem dyadic_eq (m : Nat) (q : Int) :
    ((dyadic m q).1 : ℚ) / (dyadic m q).2 = m * 2 ^ q := by
  unfold dyadic
  split
  · next h =>
    obtain ⟨k, rfl⟩ := Int.eq_ofNat_of_zero_le h
    simp
  · next h =>
    obtain ⟨k, hk⟩ := Int.eq_ofNat_of_zero_le (show 0 ≤ -q by omega)
    obtain rfl : q = -(k : Int) := by omega
    simp [div_eq_mul_inv]

theorem magnitude_eq (v : Binary64) : v.magnitude = (v.ratio.1 : ℚ) / v.ratio.2 :=
  (dyadic_eq _ _).symm

/-- A number is huge if its magnitude is beyond 128 bits. -/
theorem isHuge_iff (v : Binary64) : v.isHuge = true ↔ 2 ^ 128 ≤ v.magnitude := by
  have hden : (0 : ℚ) < v.ratio.2 := Nat.cast_pos.mpr v.ratio_snd_pos
  have hnat : v.isHuge = true ↔ 2 ^ 128 * v.ratio.2 ≤ v.ratio.1 := decide_eq_true_iff
  rw [hnat, magnitude_eq, le_div_iff₀ hden]
  exact_mod_cast Iff.rfl

theorem isFinite_iff (v : Binary64) :
    v.isFinite = true ↔ v.isNaN = false ∧ v.isInfinite = false := by
  simp only [isFinite, isNaN, isInfinite]
  by_cases h : v.exponentField = 2047 <;> by_cases h' : v.fraction = 0 <;> simp [h, h']

/-! ## Digits -/

theorem scaled_truncate (v : Binary64) (places : Nat) :
    v.scaled .truncate places = v.ratio.1 * Nat.pow 10 places / v.ratio.2 := rfl

theorem scaled_nearest (v : Binary64) (places : Nat) :
    v.scaled .nearest places =
      (2 * (v.ratio.1 * Nat.pow 10 places) + v.ratio.2) / (2 * v.ratio.2) := rfl

/-- The whole part of a number that is not huge, with what is carried into it. -/
theorem scaled_div_le {v : Binary64} (h : v.isHuge = false) (rounding : Rounding) (places : Nat) :
    v.scaled rounding places / Nat.pow 10 places ≤ 2 ^ 128 := by
  have hden := v.ratio_snd_pos
  have hpow : 0 < Nat.pow 10 places := Nat.pow_pos (by decide)
  have hnum : v.ratio.1 < 2 ^ 128 * v.ratio.2 := Nat.lt_of_not_le (of_decide_eq_false h)
  have hscaled : v.ratio.1 * Nat.pow 10 places ≤ 2 ^ 128 * Nat.pow 10 places * v.ratio.2 := by
    rw [Nat.mul_right_comm]
    exact Nat.mul_le_mul_right _ hnum.le
  -- rounding up reaches the bound at most, since what is rounded is below it
  suffices v.scaled rounding places < 2 ^ 128 * Nat.pow 10 places + 1 by
    rw [← Nat.mul_div_cancel (2 ^ 128) hpow]
    exact Nat.div_le_div_right (Nat.le_of_lt_succ this)
  cases rounding with
  | truncate =>
    rw [scaled_truncate]
    refine Nat.div_lt_of_lt_mul ?_
    rw [Nat.mul_comm v.ratio.2, Nat.add_mul]
    omega
  | nearest =>
    rw [scaled_nearest]
    refine Nat.div_lt_of_lt_mul ?_
    rw [Nat.mul_comm (2 * v.ratio.2), Nat.add_mul, Nat.mul_left_comm _ 2 v.ratio.2]
    omega

/-- The digits of a number that is not huge fit the span behind a sign. -/
theorem length_fixedText_le {v : Binary64} (h : v.isHuge = false) (rounding : Rounding)
    (precision : Nat) :
    (v.fixedText rounding precision).length ≤ (if v.isNegative then 81 else 80) := by
  have hwhole := length_natText_le (k := 39) (by decide)
    ((scaled_div_le h rounding (min (min precision maxPlaces) significantPlaces)).trans_lt
      (by decide))
  have hpoint : (ascii ".").length = 1 := rfl
  have hplaces : min precision maxPlaces ≤ 40 := Nat.min_le_right _ _
  unfold fixedText
  generalize min precision maxPlaces = shown at *
  simp only [List.length_append, apply_ite List.length, List.length_map, length_places,
    List.length_replicate, List.length_cons, List.length_nil, hpoint]
  split <;> split <;> omega

theorem head_fixedText_of_isNegative {v : Binary64} (h : v.isNegative = true) (rounding : Rounding)
    (precision : Nat) : (v.fixedText rounding precision).head? = some minus := by
  simp only [fixedText, h, if_true]
  rfl

end Binary64

namespace Scratch

variable {v : Binary64} {s : Scratch} (rounding : Rounding) (precision : Nat) (upper : Bool)

theorem pushFloat_nan (h : v.isNaN = true) :
    pushFloat v rounding precision upper empty =
      .ok 3 ⟨ascii (if upper then "NAN" else "nan"), by cases upper <;> decide⟩ := by
  cases upper <;> simp only [pushFloat, h, if_true] <;> rfl

theorem pushFloat_infinite (hn : v.isNaN = false) (h : v.isInfinite = true) :
    pushFloat v rounding precision upper empty =
      .ok (if v.isNegative then 4 else 3)
        ⟨(if v.isNegative then [minus] else []) ++ ascii (if upper then "INF" else "inf"), by
          cases v.isNegative <;> cases upper <;> decide⟩ := by
  cases hneg : v.isNegative <;> cases upper <;> simp only [pushFloat, hn, h, hneg] <;> rfl

theorem pushFloat_huge (hf : v.isFinite = true) (h : v.isHuge = true) :
    pushFloat v rounding precision upper s = .error .scratchOverflow s := by
  obtain ⟨hn, hi⟩ := v.isFinite_iff.mp hf
  simp only [pushFloat, hn, hi, h]
  rfl

theorem pushFloat_finite (hf : v.isFinite = true) (h : v.isHuge = false) :
    pushFloat v rounding precision upper s = pushText (v.fixedText rounding precision) s := by
  obtain ⟨hn, hi⟩ := v.isFinite_iff.mp hf
  simp only [pushFloat, hn, hi, h]
  rfl

end Scratch
end PrintFormat
