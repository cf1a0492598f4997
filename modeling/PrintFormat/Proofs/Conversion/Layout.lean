import PrintFormat.Proofs.Conversion.Overflow

/-!
The fields of integers, part by part. A precision brings the digits to a length
by zeros, as far as sign and mark keep their room in the span; zero with
precision 0 has no digits. `convertUnsigned_field` and `convertSigned_field` say
what the whole field is, the sign or the mark being its head.
-/
namespace PrintFormat

theorem Base.text_eq_zero_iff (b : Base) (upper : Bool) (n : Nat) :
    b.text upper n = [zero] ↔ n = 0 := by
  constructor
  · intro h
    obtain ⟨d, hd, hzero⟩ := List.map_eq_singleton_iff.mp h
    have hsmall : d < 36 := (b.lt_of_mem_digits (hd ▸ List.mem_singleton_self d)).trans_le b.le_max
    have key : ∀ upper, ∀ d : Fin 36, digitByte upper d = zero → d = 0 := by decide
    have hd0 : d = 0 := congrArg Fin.val (key upper ⟨d, hsmall⟩ hzero)
    rw [← ofDigits_digits b n, hd, hd0]
    simp [ofDigits]
  · rintro rfl
    have hlt : 0 < b.value := Nat.lt_of_lt_of_le Nat.two_pos b.two_le
    rw [Base.text, b.digits_of_lt hlt]
    cases upper <;> rfl

/-! ## Precision -/

/-- The digits that are shown of a numeral: none of zero with precision 0. -/
def shownDigits (precision : Option Nat) (text : Bytes) : Bytes :=
  if precision = some 0 ∧ text = [zero] then [] else text

/-- The zeros that bring digits to a precision within some room. -/
def precisionZeros (precision : Option Nat) (room : Nat) (digits : Bytes) : Bytes :=
  match precision with
  | none => []
  | some p => List.replicate (min p room - digits.length) zero

/-- The room that a mark keeps. -/
def reservedMark (mark : Bytes) : Nat := if mark = octalMark then 0 else mark.length

theorem withoutZero_text (p : Nat) (s : Scratch) :
    (withoutZero p s).text = shownDigits (some p) s.text := by
  unfold withoutZero shownDigits
  simp only [Option.some.injEq]
  split <;> rfl

theorem head_shownDigits {precision : Option Nat} {text : Bytes}
    (h : ∀ b ∈ text.head?, Scratch.isSign b = false) :
    ∀ b ∈ (shownDigits precision text).head?, Scratch.isSign b = false := by
  unfold shownDigits
  split
  · nofun
  · exact h

theorem head_precisionZeros {digits : Bytes} (h : ∀ b ∈ digits.head?, Scratch.isSign b = false)
    (precision : Option Nat) (room : Nat) :
    ∀ b ∈ (precisionZeros precision room digits ++ digits).head?, Scratch.isSign b = false := by
  cases precision with
  | none => exact h
  | some p =>
    show ∀ b ∈ (List.replicate (min p room - digits.length) zero ++ digits).head?, _
    cases min p room - digits.length with
    | zero => exact h
    | succ k =>
      rintro b ⟨⟩
      decide

theorem text_padPrecision_eq (d : Directive) (signed : Bool) (mark : Bytes) (p : Nat)
    (s : Scratch) :
    let text := (withoutZero p s).text
    let sign := if text.head? = some minus then 1 else 0
    let added := if signed ∧ sign = 0 ∧ d.sign ≠ .omit then 1 else 0
    (padPrecision d signed mark p s).text =
      Scratch.padded
        (min (min (p + sign) (scratchCapacity - reservedMark mark - added)) scratchCapacity) text :=
  rfl

namespace Directive

variable (d : Directive)

/-- An unsigned number once its precision has added zeros. -/
theorem withPrecision_unsigned (mark : Bytes) {s : Scratch}
    (hs : ∀ b ∈ s.text.head?, Scratch.isSign b = false) :
    let digits := shownDigits d.places? s.text
    (d.withPrecision false mark s).text =
      precisionZeros d.places? (scratchCapacity - reservedMark mark) digits ++ digits := by
  unfold withPrecision
  cases d.places? with
  | none => rfl
  | some p =>
    have hdigits := @head_shownDigits (some p) _ hs
    have hminus : (shownDigits (some p) s.text).head? ≠ some minus := fun h =>
      absurd (hdigits minus h) (by decide)
    have htext := text_padPrecision_eq d false mark p s
    have hroom : min (min p (scratchCapacity - reservedMark mark)) scratchCapacity =
        min p (scratchCapacity - reservedMark mark) := by omega
    simp only [withoutZero_text, hminus, if_false, Bool.false_eq_true, false_and, Nat.add_zero,
      Nat.sub_zero, hroom, Scratch.padded_of_not_isSign hdigits] at htext
    exact htext

/-- A signed number once its precision has added zeros. They go behind its own
sign, and they leave the room of the sign that it has or gets. -/
theorem withPrecision_signed {n : Int} {s : Scratch} (hs : s.text = intText n) :
    let sign := if n < 0 then [minus] else d.sign.text
    let digits := shownDigits d.places? (natText n.natAbs)
    (d.withPrecision true [] s).text = (if n < 0 then [minus] else []) ++
      (precisionZeros d.places? (scratchCapacity - sign.length) digits ++ digits) := by
  intro sign digits
  unfold withPrecision
  by_cases hneg : n < 0
  -- the sign is the number's own, and zero is not negative
  · have hs : s.text = minus :: natText n.natAbs := by rw [hs, intText, if_pos hneg]
    have hdigits : digits = natText n.natAbs := by
      have hzero : natText n.natAbs ≠ [zero] :=
        mt (Base.decimal.text_eq_zero_iff false _).mp (by omega)
      exact if_neg fun h => hzero h.2
    rw [show sign = [minus] from if_pos hneg, if_pos hneg, hdigits]
    cases d.places? with
    | none => exact hs
    | some p =>
      have hshown : (withoutZero p s).text = minus :: natText n.natAbs := by
        rw [withoutZero_text, hs]
        exact if_neg fun h => absurd (List.cons.inj h.2).1 (by decide)
      have hwidth : min (min (p + 1) (scratchCapacity - reservedMark [] - 0)) scratchCapacity - 1 =
          min p 80 := by
        rw [scratchCapacity, show reservedMark [] = 0 from rfl]
        omega
      have htext := text_padPrecision_eq d true [] p s
      rw [hshown] at htext
      refine htext.trans ?_
      rw [Scratch.padded_of_isSign (by decide)]
      exact congrArg (fun width => minus :: zeroFilled width (natText n.natAbs)) hwidth
  · have hs : s.text = natText n.natAbs := by rw [hs, intText, if_neg hneg]
    have hdigits : ∀ b ∈ digits.head?, Scratch.isSign b = false :=
      head_shownDigits (Base.decimal.isSign_head_text false _)
    rw [show sign = d.sign.text from if_neg hneg, if_neg hneg, List.nil_append]
    cases hp : d.places? with
    | none => simpa [digits, shownDigits, hp, precisionZeros] using hs
    | some p =>
      have hshown : (withoutZero p s).text = digits := by rw [withoutZero_text, hs, ← hp]
      have hminus : digits.head? ≠ some minus := fun h => absurd (hdigits minus h) (by decide)
      have hwidth : min (min p (scratchCapacity - d.sign.text.length)) scratchCapacity =
          min p (scratchCapacity - d.sign.text.length) := by omega
      have htext := text_padPrecision_eq d true [] p s
      simp only [hshown, hminus, if_false, true_and, Nat.add_zero,
        show reservedMark [] = 0 from rfl, Nat.sub_zero, ne_eq, ite_not, ← SignDisplay.length_text,
        hwidth, Scratch.padded_of_not_isSign hdigits] at htext
      exact htext

end Directive

/-! ## Fields -/

/-- A number in digits, behind its own sign, gets the sign that is asked for if
it has none. -/
theorem SignDisplay.added_append (display : SignDisplay) (negative : Prop) [Decidable negative]
    {digits : Bytes} (h : ∀ b ∈ digits.head?, Scratch.isSign b = false) :
    let text := (if negative then [minus] else []) ++ digits
    let sign := if negative then [minus] else display.text
    display.added text ++ text = sign ++ digits ∧ display.length text = sign.length := by
  intro text sign
  by_cases hneg : negative
  · have htext : text = minus :: digits := by simp only [text, hneg, if_true]; rfl
    have hsign : sign = [minus] := if_pos hneg
    have hhead : text.head? = some minus := by rw [htext]; rfl
    rw [added, length, if_pos hhead, if_pos hhead, hsign, htext]
    exact ⟨rfl, rfl⟩
  · have htext : text = digits := by simp only [text, hneg, if_false, List.nil_append]
    have hsign : sign = display.text := if_neg hneg
    have hhead : text.head? ≠ some minus := fun hm =>
      absurd (h minus (htext ▸ hm)) (by decide)
    rw [added, length, if_neg hhead, if_neg hhead, hsign, htext]
    exact ⟨rfl, rfl⟩

/-- The field of an unsigned number. -/
theorem convertUnsigned_field (d : Directive) (bits : Nat) (v : BitVec 64) (b : Base)
    (upper : Bool) {mark : Bytes → Bytes} (hmark : ∀ text, (mark text).length ≤ 2) :
    let text := b.text upper (v.setWidth bits).toNat
    let digits := shownDigits d.places? text
    let room := scratchCapacity - reservedMark (mark text)
    let rest := precisionZeros d.places? room digits ++ digits
    ∃ t, convertUnsigned d bits v b upper mark .empty =
      .ok {
        body := shownMark (mark text) rest ++ rest
        width := d.width.value
        head := (shownMark (mark text) rest).length
        zeroFill := d.zeroFill && d.places?.isNone } t := by
  intro text digits room rest
  have hlen := b.length_text_word_le upper v bits
  have hsign := b.isSign_head_text upper (v.setWidth bits).toNat
  have hroom : text.length ≤ scratchCapacity := Nat.le_trans hlen (by decide)
  have hboth : (mark text).length + text.length ≤ scratchCapacity :=
    Nat.le_trans (Nat.add_le_add (hmark text) hlen) (by decide)
  have hfits := length_marked_le d (mark text) (s := ⟨text, hroom⟩) hsign hboth
  have hrest := d.withPrecision_unsigned (mark text) (s := ⟨text, hroom⟩) hsign
  have hfinish := finishInteger_unsigned rfl hfits
  simp only [hrest] at hfinish
  exact ⟨_, (Action.bind_ok (Scratch.pushText_empty hroom)).trans hfinish⟩

/-- The field of a signed number. -/
theorem convertSigned_field (d : Directive) (options : Options) (v : BitVec 64) :
    let n := (v.setWidth (d.size.bits options.intWidth)).toInt
    let sign := if n < 0 then [minus] else d.sign.text
    let digits := shownDigits d.places? (natText n.natAbs)
    let rest := precisionZeros d.places? (scratchCapacity - sign.length) digits ++ digits
    ∃ t, Standard.signed.compose d options v .empty =
      .ok {
        body := sign ++ rest
        width := d.width.value
        head := sign.length
        zeroFill := d.zeroFill && d.places?.isNone } t := by
  intro n sign digits rest
  have hlen := length_intText_le (natAbs_toInt_setWidth_le (d.size.bits_le options.intWidth) v)
  have hroom : (intText n).length < scratchCapacity := Nat.lt_of_le_of_lt hlen (by decide)
  have hfits := length_signed_le d (s := ⟨intText n, hroom.le⟩) hroom
  have htext : (d.withPrecision true [] ⟨intText n, hroom.le⟩).text =
      (if n < 0 then [minus] else []) ++ rest := d.withPrecision_signed rfl
  have hhead : ∀ b ∈ rest.head?, Scratch.isSign b = false :=
    head_precisionZeros (head_shownDigits (Base.decimal.isSign_head_text false _)) _ _
  obtain ⟨hbody, hlength⟩ := d.sign.added_append (n < 0) hhead
  have hfinish := finishInteger_signed rfl hfits
  simp only [htext, hbody, hlength] at hfinish
  exact ⟨_, (Action.bind_ok (Scratch.pushText_empty hroom.le)).trans hfinish⟩

end PrintFormat
