import PrintFormat.Conversion
import PrintFormat.Proofs.Conversion.Extended
import PrintFormat.Proofs.Conversion.Integer
import PrintFormat.Proofs.Decimal.Finite

/-!
Which conversions run out of scratch room: those of finite floats from 2 to the
power 128 on, and no others. Every other conversion has a field, whatever its
directive, its options and its value are.
-/
namespace PrintFormat

/-! ## Integers -/

theorem convertUnsigned_ok (d : Directive) (bits : Nat) (v : BitVec 64) (b : Base) (upper : Bool)
    {mark : Bytes → Bytes} (hmark : ∀ text, (mark text).length ≤ 2) :
    ∃ f s, convertUnsigned d bits v b upper mark .empty = .ok f s := by
  have hlen := b.length_text_word_le upper v bits
  have hsign := b.isSign_head_text upper (v.setWidth bits).toNat
  generalize htext : b.text upper (v.setWidth bits).toNat = text at *
  have hroom : text.length ≤ scratchCapacity := Nat.le_trans hlen (by decide)
  have hboth : (mark text).length + text.length ≤ scratchCapacity :=
    Nat.le_trans (Nat.add_le_add (hmark text) hlen) (by decide)
  have hfits := length_marked_le d (mark text) (s := ⟨text, hroom⟩) hsign hboth
  simp only [convertUnsigned, htext]
  exact ⟨_, _, (Action.bind_ok (Scratch.pushText_empty hroom)).trans
    (finishInteger_unsigned rfl hfits)⟩

theorem length_intText_le {n : Int} (h : n.natAbs ≤ 2 ^ 63) : (intText n).length ≤ 20 := by
  have hn : (natText n.natAbs).length ≤ 19 :=
    length_natText_le (by decide) (Nat.lt_of_le_of_lt h (by decide))
  unfold intText
  split
  · rw [List.length_cons]
    omega
  · omega

theorem natAbs_toInt_setWidth_le {bits : Nat} (hbits : bits ≤ 64) (v : BitVec 64) :
    (v.setWidth bits).toInt.natAbs ≤ 2 ^ 63 := by
  have hlo := (v.setWidth bits).le_two_mul_toInt
  have hhi := (v.setWidth bits).two_mul_toInt_lt
  have hpow : (2 : Int) ^ bits ≤ 2 ^ 64 := by
    exact_mod_cast Nat.pow_le_pow_right Nat.two_pos hbits
  omega

theorem SizeClass.bits_le (size : SizeClass) (normal : IntWidth) : size.bits normal ≤ 64 := by
  cases size <;> cases normal <;> decide

theorem convertSigned_ok (d : Directive) (options : Options) (v : BitVec 64) :
    ∃ f s, Standard.signed.compose d options v .empty = .ok f s := by
  have hlen := length_intText_le
    (natAbs_toInt_setWidth_le (d.size.bits_le options.intWidth) v)
  generalize htext : intText (v.setWidth (d.size.bits options.intWidth)).toInt = text at *
  have hroom : text.length < scratchCapacity := Nat.lt_of_le_of_lt hlen (by decide)
  have hfits := length_signed_le d (s := ⟨text, hroom.le⟩) hroom
  simp only [Standard.compose, htext]
  exact ⟨_, _, (Action.bind_ok (Scratch.pushText_empty hroom.le)).trans
    (finishInteger_signed rfl hfits)⟩

/-! ## Floats -/

/-- A sign goes in front of a float's text if it fits there or is there already. -/
theorem convertFloat_of_pushFloat {d : Directive} {options : Options} {v : Binary64} {upper : Bool}
    {n : Nat} {s : Scratch} (hnan : v.isNaN = false)
    (h : Scratch.pushFloat v options.rounding (d.places?.getD defaultPlaces) upper .empty = .ok n s)
    (hroom : s.text.length < scratchCapacity ∨ s.text.head? = some minus) :
    ∃ t, convertFloat d options v upper .empty =
      .ok {
        body := d.sign.added s.text ++ s.text
        width := d.width.value
        head := d.sign.length s.text
        zeroFill := d.zeroFill && v.isFinite } t := by
  have hfits : (d.sign.added s.text ++ s.text).length ≤ scratchCapacity := by
    rw [List.length_append]
    obtain hroom | hminus := hroom
    · have := d.sign.length_added_le s.text
      omega
    · rw [SignDisplay.added, if_pos hminus, List.length_nil, Nat.zero_add]
      exact s.fits
  have hsign := putSign_allowed hfits
  unfold convertFloat
  rw [hnan]
  exact ⟨_, (Action.bind_ok h).trans (Action.bind_ok hsign)⟩

/-- The field of a finite float that is not huge. -/
theorem convertFloat_finite (d : Directive) (options : Options) {v : Binary64} (upper : Bool)
    (hf : v.isFinite = true) (hh : v.isHuge = false) :
    let text := v.fixedText options.rounding (d.places?.getD defaultPlaces)
    ∃ t, convertFloat d options v upper .empty =
      .ok {
        body := d.sign.added text ++ text
        width := d.width.value
        head := d.sign.length text
        zeroFill := d.zeroFill && v.isFinite } t := by
  intro text
  have hlen : text.length ≤ if v.isNegative then 81 else 80 :=
    Binary64.length_fixedText_le hh options.rounding (d.places?.getD defaultPlaces)
  have hroom : text.length ≤ scratchCapacity := hlen.trans (by split <;> decide)
  have hpush := (Scratch.pushFloat_finite options.rounding (d.places?.getD defaultPlaces) upper
    hf hh).trans (Scratch.pushText_empty hroom)
  refine convertFloat_of_pushFloat (v.isFinite_iff.mp hf).1 hpush ?_
  -- a text with a minus sign may fill the span, any other leaves room for a sign
  by_cases hneg : v.isNegative = true
  · exact .inr (Binary64.head_fixedText_of_isNegative hneg _ _)
  · rw [if_neg hneg] at hlen
    exact .inl (Nat.lt_of_le_of_lt hlen (by decide))

/-- A float is written unless it is finite and huge. -/
theorem convertFloat_ok (d : Directive) (options : Options) {v : Binary64} (upper : Bool)
    (h : v.isFinite = true → v.isHuge = false) :
    ∃ f s, convertFloat d options v upper .empty = .ok f s := by
  by_cases hf : v.isFinite = true
  · obtain ⟨t, ht⟩ := convertFloat_finite d options upper hf (h hf)
    exact ⟨_, t, ht⟩
  cases hn : v.isNaN with
  | true =>
    have hpush := Scratch.pushFloat_nan options.rounding (d.places?.getD defaultPlaces) upper hn
    unfold convertFloat
    rw [hn]
    exact ⟨_, _, (Action.bind_ok hpush).trans (Action.bind_ok (putSign_not_allowed d.sign _))⟩
  | false =>
    have hi : v.isInfinite = true := by
      by_contra hi
      exact hf (v.isFinite_iff.mpr ⟨hn, by simpa using hi⟩)
    obtain ⟨t, ht⟩ := convertFloat_of_pushFloat (d := d) hn
      (Scratch.pushFloat_infinite options.rounding (d.places?.getD defaultPlaces) upper hn hi)
      (.inl (by cases v.isNegative <;> cases upper <;> decide))
    exact ⟨_, t, ht⟩

theorem convertFloat_huge (d : Directive) (options : Options) {v : Binary64} (upper : Bool)
    (hf : v.isFinite = true) (hh : v.isHuge = true) :
    convertFloat d options v upper .empty = .error .scratchOverflow .empty :=
  Action.bind_error (Scratch.pushFloat_huge _ _ upper hf hh)

/-! ## All conversions -/

/-- A finite float that is too large to be written. -/
def Binary64.TooLarge (v : Binary64) : Prop := v.isFinite = true ∧ 2 ^ 128 ≤ v.magnitude

theorem Binary64.tooLarge_iff (v : Binary64) :
    v.TooLarge ↔ v.isFinite = true ∧ v.isHuge = true := by
  rw [TooLarge, isHuge_iff]

namespace Standard

/-- A value that is too large for its conversion. -/
def Overflows : (c : Standard) → c.demand.Value → Prop
  | .float, v => Binary64.TooLarge v
  | .floatUpper, v => Binary64.TooLarge v
  | _, _ => False

variable (d : Directive) (options : Options) (c : Standard)

theorem compose_ok {v : c.demand.Value} (h : ¬ c.Overflows v) :
    ∃ f s, c.compose d options v .empty = .ok f s := by
  cases c with
  | signed => exact convertSigned_ok d options v
  | unsigned =>
    simp only [compose]
    exact convertUnsigned_ok d _ v .decimal false fun _ => Nat.zero_le 2
  | octal =>
    simp only [compose]
    refine convertUnsigned_ok d _ v .octal false fun _ => ?_
    split <;> decide
  | hex =>
    simp only [compose]
    refine convertUnsigned_ok d _ v .hexadecimal false fun _ => ?_
    split <;> decide
  | hexUpper =>
    simp only [compose]
    refine convertUnsigned_ok d _ v .hexadecimal true fun _ => ?_
    split <;> decide
  | float =>
    refine convertFloat_ok d options false fun hf => ?_
    rw [Overflows, Binary64.tooLarge_iff, not_and, Bool.not_eq_true] at h
    exact h hf
  | floatUpper =>
    refine convertFloat_ok d options true fun hf => ?_
    rw [Overflows, Binary64.tooLarge_iff, not_and, Bool.not_eq_true] at h
    exact h hf
  | text => exact ⟨_, _, rfl⟩
  | character => exact ⟨_, _, rfl⟩
  | pointer =>
    simp only [compose]
    exact convertUnsigned_ok d _ v .decimal false fun _ => Nat.zero_le 2

theorem compose_overflow {v : c.demand.Value} (h : c.Overflows v) :
    c.compose d options v .empty = .error .scratchOverflow .empty := by
  cases c with
  | float =>
    rw [Overflows, Binary64.tooLarge_iff] at h
    exact convertFloat_huge d options false h.1 h.2
  | floatUpper =>
    rw [Overflows, Binary64.tooLarge_iff] at h
    exact convertFloat_huge d options true h.1 h.2
  | _ => exact absurd h id

theorem compose_overflow_iff {v : c.demand.Value} :
    (∃ s, c.compose d options v .empty = .error .scratchOverflow s) ↔ c.Overflows v := by
  constructor
  · rintro ⟨s, he⟩
    by_contra hv
    obtain ⟨f, t, hok⟩ := c.compose_ok d options hv
    rw [he] at hok
    cases hok
  · exact fun hv => ⟨_, c.compose_overflow d options hv⟩

end Standard
end PrintFormat
