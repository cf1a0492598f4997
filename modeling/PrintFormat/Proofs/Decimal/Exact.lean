import PrintFormat.Proofs.Checked.Decimal
import PrintFormat.Proofs.Numeral.Reading

/-!
The text of a float in terms of its exact value. The magnitude is a rational
number; times a power of ten it is cut, or rounded half up, to a whole number
once, and the quotient and remainder of that number by the power are what stands
in front of the point and behind it. `fixedText_eq` says that the digits of the
conversion are these, and `pushFloat_decimal` that they are put on an empty span
without a breach, whatever is left over in its cells.
-/
namespace PrintFormat

namespace Binary64

/-- The magnitude in units of a power of ten, as a whole number. -/
def units (v : Binary64) (rounding : Rounding) (places : Nat) : Nat :=
  match rounding with
  | .truncate => ⌊v.magnitude * 10 ^ places⌋₊
  | .nearest => ⌊v.magnitude * 10 ^ places + 1 / 2⌋₊

/-- The text of a finite number. -/
def decimalText (v : Binary64) (rounding : Rounding) (precision : Nat) : String :=
  let q := min precision 40
  let s := min q 17
  let n := v.units rounding s
  (if v.isNegative then "-" else "") ++ toString (n / 10 ^ s) ++
    if 0 < q then
      "." ++ String.leftpad s '0' (toString (n % 10 ^ s)) ++
        String.ofList (List.replicate (q - s) '0')
    else ""

/-- What the ratio of a number is scaled to is its exact value scaled. -/
theorem scaled_eq_units (v : Binary64) (rounding : Rounding) (places : Nat) :
    v.scaled rounding places = v.units rounding places := by
  have hden : (v.ratio.2 : ℚ) ≠ 0 := Nat.cast_ne_zero.mpr v.ratio_snd_pos.ne'
  have hscaled : v.magnitude * 10 ^ places =
      ((v.ratio.1 * Nat.pow 10 places : ℕ) : ℚ) / (v.ratio.2 : ℕ) := by
    rw [magnitude_eq, Nat.pow_eq]
    push_cast
    ring
  cases rounding with
  | truncate =>
    rw [scaled_truncate, units, hscaled, Nat.floor_div_eq_div]
  | nearest =>
    have hhalf : v.magnitude * 10 ^ places + 1 / 2 =
        ((2 * (v.ratio.1 * Nat.pow 10 places) + v.ratio.2 : ℕ) : ℚ) / (2 * v.ratio.2 : ℕ) := by
      rw [hscaled]
      push_cast
      field_simp
    rw [scaled_nearest, units, hhalf, Nat.floor_div_eq_div]

/-- Zeros as text. -/
theorem encode_zeros (k : Nat) :
    Text.encode (String.ofList (List.replicate k '0')) = List.replicate k zero := by
  have hascii : IsAscii (List.replicate k zero) := by
    intro b hb
    rw [List.eq_of_mem_replicate hb]
    decide
  have hchars : List.replicate k '0' = chars (List.replicate k zero) := by
    rw [chars, List.map_replicate]
    rfl
  rw [Text.encode_ofList, hchars, Text.encodeChars_chars hascii]

/-- The digits of a number are those of its exact value. -/
theorem fixedText_eq (v : Binary64) (rounding : Rounding) (precision : Nat) :
    v.fixedText rounding precision = Text.encode (v.decimalText rounding precision) := by
  have hpoint : Text.encode "." = ascii "." := rfl
  have hsign : Text.encode (if v.isNegative then "-" else "") =
      if v.isNegative then [minus] else [] := by
    cases v.isNegative <;> rfl
  unfold fixedText decimalText maxPlaces significantPlaces
  dsimp only
  rw [scaled_eq_units, Nat.pow_eq]
  generalize min precision 40 = shown
  generalize v.units rounding (min shown 17) = n
  rw [Text.encode_append, Text.encode_append, hsign, encode_toString]
  congr 1
  by_cases hshown : shown = 0
  · rw [if_pos hshown, if_neg (by omega)]
    rfl
  · have htaken : 0 < min shown 17 := by omega
    have hplaces := Base.decimal.map_places false htaken n
    rw [if_neg hshown, if_pos (Nat.pos_of_ne_zero hshown), Text.encode_append, Text.encode_append,
      hpoint, encode_leftpad, encode_zeros]
    exact congrArg (fun digits => ascii "." ++ digits ++ List.replicate (shown - min shown 17) zero)
      hplaces

theorem isHuge_of_lt {v : Binary64} (h : v.magnitude < 2 ^ 128) : v.isHuge = false := by
  by_contra hhuge
  exact absurd (v.isHuge_iff.mp (by simpa using hhuge)) (not_le.mpr h)

end Binary64

/-! ## On the span -/

section

variable {v : Binary64} (hfinite : v.isFinite = true) (hbound : v.magnitude < 2 ^ 128)
  (rounding : Rounding) (precision : Nat) (upper : Bool)

include hfinite hbound

/-- The text of a number below the bound is put on the empty span. -/
theorem Scratch.pushFloat_decimal :
    let text := Text.encode (v.decimalText rounding precision)
    ∃ t : Scratch, pushFloat v rounding precision upper .empty = .ok text.length t ∧
      t.text = text := by
  intro text
  have hhuge := Binary64.isHuge_of_lt hbound
  have hroom : text.length ≤ scratchCapacity := by
    have hlength := Binary64.length_fixedText_le hhuge rounding precision
    rw [Binary64.fixedText_eq] at hlength
    exact hlength.trans (by split <;> decide)
  refine ⟨⟨text, hroom⟩, ?_, rfl⟩
  rw [pushFloat_finite rounding precision upper hfinite hhuge, Binary64.fixedText_eq]
  exact pushText_empty hroom

/-- The cells of an empty span take the text without a breach. -/
theorem Span.pushFloat_decimal {s : Span} (hs : s.view = .empty) :
    let text := Text.encode (v.decimalText rounding precision)
    ∃ t : Span, pushFloat v rounding precision upper s = .ok text.length t ∧
      t.view.text = text := by
  intro text
  obtain ⟨t, hpush, htext⟩ := Scratch.pushFloat_decimal hfinite hbound rounding precision upper
  rw [← hs] at hpush
  obtain ⟨s', hrun, hview⟩ := (pushFloat_carriesOut v rounding precision upper s).ok hpush
  exact ⟨s', hrun, hview ▸ htext⟩

end

end PrintFormat
