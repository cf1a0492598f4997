import PrintFormat.Proofs.Conversion.Layout
import PrintFormat.Proofs.Conversion.Table
import PrintFormat.Proofs.Render.Measures
import PrintFormat.Proofs.Render.Plain

/-!
Directives of integers without a width. `Spelling.integerText` is the text that
such a directive asks for, part by part: the sign, the mark of hexadecimal
numbers, the zero of octal ones, the zeros of the precision and the digits. The
precision fills up the scratch span at most, where sign and mark keep their
room. `Context.integer_text` says that this text is what is delivered.
-/
namespace PrintFormat

/-! ## Digits -/

theorem digitByte_eq (upper : Bool) {d : Nat} (h : d < 16) :
    digitByte upper d =
      (if upper then (Nat.digitChar d).toUpper else Nat.digitChar d).toUInt8 := by
  have key : ∀ upper, ∀ d : Fin 16, digitByte upper d =
      (if upper then (Nat.digitChar d).toUpper else Nat.digitChar d).toUInt8 := by decide
  exact key upper ⟨d, h⟩

theorem Base.map_digits (b : Base) (n : Nat) :
    (b.digits n).map Nat.digitChar = Nat.toDigits b.value n := by
  fun_induction Base.digits b n with
  | case1 n h => rw [Nat.toDigits_of_lt_base h, List.map_singleton]
  | case2 n h ih =>
    rw [Nat.toDigits_of_base_le b.two_le (not_lt.mp h), List.map_append, ih, List.map_singleton]

/-- A numeral is the digits of its number, in small or in capital letters. -/
theorem Base.text_eq {b : Base} (hb : b.value ≤ 16) (upper : Bool) (n : Nat) :
    b.text upper n =
      (Nat.toDigits b.value n).map fun c => (if upper then c.toUpper else c).toUInt8 := by
  rw [← b.map_digits, Base.text, List.map_map]
  refine List.map_congr_left fun d hd => ?_
  exact digitByte_eq upper ((b.lt_of_mem_digits hd).trans_le hb)

/-! ## Texts -/

/-- The number that an integer-like argument stands for. -/
def Arg.integer? : Arg → Option Int
  | .int v => some v.toInt
  | .uint v => some v.toNat
  | .char c => some c.toNat
  | .bool b => some (if b then 1 else 0)
  | .pointer p => some p.toNat
  | _ => none

namespace Spelling

variable (s : Spelling)

/-- The bits of a number that are looked at. -/
def integerBits (options : Options) : Nat :=
  if s.IsOneOf "pzZt" then 64
  else match s.modifier with
    | none => options.intWidth.bits
    | some .hh => 8
    | some .h => 16
    | some .l => 32
    | some .ll | some .capitalL | some .q => 64

/-- The number that those bits stand for. -/
def integerValue (options : Options) (n : Int) : Int :=
  if s.IsOneOf "di" then n.bmod (2 ^ s.integerBits options) else n % 2 ^ s.integerBits options

/-- The base of the digits. -/
def integerBase : Nat := if s.IsOneOf "o" then 8 else if s.IsOneOf "xX" then 16 else 10

/-- The digits, none of which are shown of zero with precision 0. -/
def integerDigits (precision : Option Nat) (n : Int) : Bytes :=
  if precision = some 0 ∧ n = 0 then []
  else (Nat.toDigits s.integerBase n.natAbs).map fun c =>
    (if s.IsOneOf "X" then c.toUpper else c).toUInt8

/-- The sign of a number, or what is asked for in place of one. -/
def integerSign (n : Int) : Bytes :=
  if n < 0 then ascii "-"
  else if ¬s.IsOneOf "di" then []
  else if 43 ∈ s.flags then ascii "+"
  else if blank ∈ s.flags then ascii " "
  else []

/-- The mark in front of hexadecimal digits. -/
def radixMark (n : Int) : Bytes :=
  if 35 ∈ s.flags ∧ n ≠ 0 then
    if s.IsOneOf "x" then ascii "0x" else if s.IsOneOf "X" then ascii "0X" else []
  else []

/-- The mark in front of octal digits, unless they open with a zero. -/
def octalZero (rest : Bytes) : Bytes :=
  if s.IsOneOf "o" ∧ 35 ∈ s.flags ∧ rest.head? ≠ some zero then ascii "0" else []

/-- The text of a directive without a width for a number. -/
def integerText (options : Options) (precision : Option Nat) (value : Int) : Bytes :=
  let n := s.integerValue options value
  let sign := s.integerSign n
  let mark := s.radixMark n
  let digits := s.integerDigits precision n
  let rest := precisionZeros precision (81 - sign.length - mark.length) digits ++ digits
  sign ++ mark ++ s.octalZero rest ++ rest

/-- A directive of integers that has no width. -/
structure IsPlainInteger : Prop where
  bang : s.bang = false
  conversion : s.IsOneOf "diuoxXpzZt"
  widthDigits : s.widthDigits = []
  widthStar : 42 ∉ s.widthFlags

end Spelling

/-! ## Values -/

theorem Arg.pattern?_of_integer? {arg : Arg} {n : Int} (h : arg.integer? = some n) :
    arg.pattern? = some (BitVec.ofInt 64 n) := by
  have natural {v : BitVec 64} {k : Nat} (hv : v.toNat = k) :
      some v = some (BitVec.ofInt 64 (k : Int)) := by
    rw [BitVec.ofInt_natCast, ← hv, BitVec.ofNat_toNat, BitVec.setWidth_eq]
  cases arg with
  | int v =>
    cases h
    exact congrArg some BitVec.ofInt_toInt.symm
  | uint v =>
    cases h
    exact natural rfl
  | char c =>
    cases h
    refine natural ?_
    rw [BitVec.toNat_setWidth]
    exact Nat.mod_eq_of_lt (c.toNat_lt.trans (by decide))
  | bool b =>
    cases h
    cases b <;> rfl
  | pointer p =>
    cases h
    exact natural rfl
  | float | str | time | ipv4 | ipv6 | mac => cases h

section Reduced

variable {bits : Nat} (h : bits ≤ 64) (n : Int)

include h

theorem emod_emod_word : n % (2 ^ 64 : Nat) % (2 ^ bits : Nat) = n % (2 ^ bits : Nat) :=
  Int.emod_emod_of_dvd n (Int.natCast_dvd_natCast.mpr (Nat.pow_dvd_pow 2 h))

theorem toNat_setWidth_ofInt :
    (((BitVec.ofInt 64 n).setWidth bits).toNat : Int) = n % 2 ^ bits := by
  have hnonneg : 0 ≤ n % (2 ^ 64 : Nat) := Int.emod_nonneg _ (by decide)
  rw [BitVec.toNat_setWidth, BitVec.toNat_ofInt, Int.natCast_mod, Int.toNat_of_nonneg hnonneg,
    emod_emod_word h]
  norm_cast

theorem toInt_setWidth_ofInt :
    ((BitVec.ofInt 64 n).setWidth bits).toInt = n.bmod (2 ^ bits) := by
  have hnonneg : 0 ≤ n % (2 ^ 64 : Nat) := Int.emod_nonneg _ (by decide)
  rw [BitVec.toInt_setWidth, BitVec.toNat_ofInt, Int.toNat_of_nonneg hnonneg,
    ← Int.emod_bmod (n % (2 ^ 64 : Nat)), emod_emod_word h, Int.emod_bmod]

end Reduced

/-! ## Fields -/

/-- What is beyond the limit of a precision is beyond the room. -/
theorem precisionZeros_limited {room : Nat} (h : room ≤ scratchCapacity) (precision : Option Nat)
    (digits : Bytes) :
    precisionZeros (precision.map (min · measureLimit)) room digits =
      precisionZeros precision room digits := by
  cases precision with
  | none => rfl
  | some p =>
    have hmin : min (min p measureLimit) room = min p room := by
      rw [scratchCapacity] at h
      rw [measureLimit]
      omega
    show List.replicate (min (min p measureLimit) room - _) zero = _
    rw [hmin]
    rfl

theorem shownDigits_numeral (precision : Option Nat) (b : Base) (upper : Bool) (m : Nat) :
    shownDigits (precision.map (min · measureLimit)) (b.text upper m) =
      if precision = some 0 ∧ m = 0 then [] else b.text upper m := by
  have hzero : precision.map (min · measureLimit) = some 0 ↔ precision = some 0 := by
    cases precision with
    | none => simp
    | some p => simp [measureLimit]
  simp only [shownDigits, b.text_eq_zero_iff, hzero]

/-! ## Conversions -/

namespace Standard

/-- The conversions of unsigned numbers. They differ in their bits, base, letters
and mark. -/
def unsignedOnes : List Standard := [unsigned, octal, hex, hexUpper, pointer]

/-- The bits that an unsigned conversion looks at. -/
def bits (d : Directive) (options : Options) : Standard → Nat
  | pointer => 64
  | _ => d.size.bits options.intWidth

/-- The base of an unsigned conversion. -/
def base : Standard → Base
  | octal => .octal
  | hex | hexUpper => .hexadecimal
  | _ => .decimal

/-- The mark of an unsigned conversion for digits. -/
def mark (d : Directive) (c : Standard) (text : Bytes) : Bytes :=
  match c with
  | octal => if d.alternate then octalMark else []
  | hex => if d.alternate ∧ text ≠ [zero] then ascii "0x" else []
  | hexUpper => if d.alternate ∧ text ≠ [zero] then ascii "0X" else []
  | _ => []

variable {c : Standard}

theorem base_value : ∀ c ∈ signed :: unsignedOnes,
    c.base.value = if c = octal then 8 else if c = hex ∨ c = hexUpper then 16 else 10 := by
  decide

theorem mark_length_le (d : Directive) (text : Bytes) : (c.mark d text).length ≤ 2 := by
  unfold mark
  split
  · split <;> decide
  · split <;> decide
  · split <;> decide
  · exact Nat.zero_le 2

/-- What an unsigned conversion writes for the argument that it takes. -/
theorem taken_unsigned (hc : c ∈ unsignedOnes) {d : Directive} {options : Options} {arg : Arg}
    {v : BitVec 64} (hpick : arg.pattern? = some v) {f : Field} {t : Scratch}
    (hf : convertUnsigned d (c.bits d options) v c.base (c = hexUpper) (c.mark d) .empty = .ok f t)
    (more : List Arg) (k : Nat) :
    (Conversion.standard c).taken d options ⟨arg :: more, k⟩ = .ok f ⟨more, k + 1⟩ := by
  simp only [unsignedOnes, List.mem_cons, List.not_mem_nil, or_false] at hc
  obtain rfl | rfl | rfl | rfl | rfl := hc
  · exact Conversion.taken_standard (c := .unsigned) hpick hf more k
  · exact Conversion.taken_standard (c := .octal) hpick hf more k
  · exact Conversion.taken_standard (c := .hex) hpick hf more k
  · exact Conversion.taken_standard (c := .hexUpper) hpick hf more k
  · exact Conversion.taken_standard (c := .pointer) hpick hf more k

end Standard

/-! ## Directives -/

namespace Spelling

variable {s : Spelling} {options : Options} {precision : Option Nat} {n : Int}

/-- The conversion that a directive of integers asks for, told by its byte. -/
structure Asks (s : Spelling) (c : Standard) : Prop where
  signed : s.IsOneOf "di" ↔ c = .signed
  octal : s.IsOneOf "o" ↔ c = .octal
  hex : s.IsOneOf "x" ↔ c = .hex
  hexUpper : s.IsOneOf "X" ↔ c = .hexUpper
  hexadecimal : s.IsOneOf "xX" ↔ c = .hex ∨ c = .hexUpper
  pointer : s.IsOneOf "pzZt" ↔ c = .pointer

theorem ofByte?_integer : ∀ b ∈ ascii "diuoxXpzZt",
    ∃ c ∈ Standard.signed :: Standard.unsignedOnes, Standard.ofByte? b = some c ∧
      (b ∈ ascii "di" ↔ c = .signed) ∧ (b ∈ ascii "o" ↔ c = .octal) ∧
      (b ∈ ascii "x" ↔ c = .hex) ∧ (b ∈ ascii "X" ↔ c = .hexUpper) ∧
      (b ∈ ascii "xX" ↔ c = .hex ∨ c = .hexUpper) ∧ (b ∈ ascii "pzZt" ↔ c = .pointer) := by
  decide +kernel

/-- A directive of integers asks for one of their conversions. -/
theorem IsPlainInteger.asks (hs : s.IsPlainInteger) :
    ∃ c ∈ Standard.signed :: Standard.unsignedOnes,
      s.directive.conversion? = some (.standard c) ∧ s.Asks c := by
  obtain ⟨b, hb, hconversion⟩ := hs.conversion
  obtain ⟨c, hc, hbyte, hclasses⟩ := ofByte?_integer b hb
  simp only [← isOneOf_iff hconversion] at hclasses
  obtain ⟨hdi, ho, hx, hX, hxX, hword⟩ := hclasses
  exact ⟨c, hc, conversion?_of_standard hs.bang hconversion hbyte, hdi, ho, hx, hX, hxX, hword⟩

theorem integerBits_le (s : Spelling) (options : Options) : s.integerBits options ≤ 64 := by
  unfold integerBits
  split
  · exact Nat.le_refl 64
  split
  · cases options.intWidth <;> decide
  all_goals decide

/-- The size of a directive that a length modifier gives. -/
theorem bits_directive (h : ¬s.IsOneOf "pzZt") (options : Options) :
    s.directive.size.bits options.intWidth = s.integerBits options := by
  rw [integerBits, if_neg h, directive]
  cases s.modifier with
  | none => rfl
  | some m => cases m <;> rfl

section

variable {c : Standard} (h : s.Asks c)
include h

theorem Asks.base_eq (hc : c ∈ Standard.signed :: Standard.unsignedOnes) :
    s.integerBase = c.base.value := by
  rw [Standard.base_value c hc, integerBase]
  simp only [h.octal, h.hexadecimal]

theorem Asks.not_signed (hc : c ∈ Standard.unsignedOnes) : ¬s.IsOneOf "di" := by
  rw [h.signed]
  rintro rfl
  exact absurd hc (by decide)

/-- The bits of an unsigned conversion are those that the directive looks at. -/
theorem Asks.bits_eq {d : Directive} (hsize : d.size = s.directive.size) (options : Options) :
    c.bits d options = s.integerBits options := by
  by_cases hpointer : c = .pointer
  · rw [integerBits, if_pos (h.pointer.mpr hpointer), hpointer, Standard.bits]
  · rw [← bits_directive (mt h.pointer.mp hpointer), ← hsize]
    cases c <;> first | rfl | exact absurd rfl hpointer

/-- The mark of an unsigned conversion is the one that the directive asks for. -/
theorem Asks.mark_eq (hc : c ∈ Standard.unsignedOnes) {d : Directive}
    (halternate : d.alternate = true ↔ 35 ∈ s.flags) (m : Nat) :
    c.mark d (c.base.text (c = .hexUpper) m) =
      if s.IsOneOf "o" ∧ 35 ∈ s.flags then octalMark else s.radixMark m := by
  simp only [radixMark, h.octal, h.hex, h.hexUpper]
  simp only [Standard.unsignedOnes, List.mem_cons, List.not_mem_nil, or_false] at hc
  obtain rfl | rfl | rfl | rfl | rfl := hc <;>
    simp [Standard.mark, halternate, Base.text_eq_zero_iff]

/-- The text of an unsigned number, from its numeral and its mark. -/
theorem Asks.integerText_eq (hc : c ∈ Standard.unsignedOnes) {d : Directive}
    (halternate : d.alternate = true ↔ 35 ∈ s.flags) {m : Nat}
    (hm : (m : Int) = s.integerValue options n) :
    let text := c.base.text (c = .hexUpper) m
    let digits := shownDigits (precision.map (min · measureLimit)) text
    let rest := precisionZeros (precision.map (min · measureLimit))
      (scratchCapacity - reservedMark (c.mark d text)) digits ++ digits
    shownMark (c.mark d text) rest ++ rest = s.integerText options precision n := by
  intro text digits rest
  have hbase := h.base_eq (List.mem_cons_of_mem _ hc)
  have hmark := h.mark_eq hc halternate m
  have hdigits : digits = s.integerDigits precision m := by
    have hb : c.base.value ≤ 16 := by cases c <;> decide
    simp only [digits, text, shownDigits_numeral, integerDigits, Int.natCast_eq_zero,
      Int.natAbs_natCast, hbase, Base.text_eq hb, h.hexUpper, decide_eq_true_eq]
  have hsign : s.integerSign m = [] := by
    rw [integerSign, if_neg (by omega), if_pos (h.not_signed hc)]
  -- a mark is octal, and then a zero at the front stands in for it, or it is shown
  have hmarks : reservedMark (c.mark d text) = (s.radixMark m).length ∧
      shownMark (c.mark d text) rest = s.radixMark m ++ s.octalZero rest := by
    by_cases ho : s.IsOneOf "o" ∧ 35 ∈ s.flags
    · rw [if_pos ho] at hmark
      have hradix : s.radixMark m = [] := by
        simp [radixMark, h.hex, h.hexUpper, h.octal.mp ho.1]
      rw [hmark, hradix]
      refine ⟨rfl, ?_⟩
      simp only [shownMark, octalZero, ho, true_and, ne_eq, ite_not, List.nil_append]
      rfl
    · rw [if_neg ho] at hmark
      have hradix : s.radixMark m ≠ octalMark := by
        unfold radixMark
        split
        · split
          · decide
          split <;> decide
        · decide
      have hnone : s.octalZero rest = [] := if_neg fun h => ho ⟨h.1, h.2.1⟩
      rw [hmark, hnone, List.append_nil]
      exact ⟨if_neg hradix, if_neg fun h => hradix h.1⟩
  obtain ⟨hreserved, hshown⟩ := hmarks
  have hrest : rest = precisionZeros precision (81 - (s.radixMark m).length) digits ++ digits := by
    show precisionZeros _ _ digits ++ digits = _
    rw [precisionZeros_limited (Nat.sub_le _ _), hreserved]
    rfl
  rw [integerText, ← hm, hsign, hshown]
  simp only [List.length_nil, Nat.sub_zero, List.nil_append, ← hdigits, ← hrest]

/-- The field of an unsigned number without a width. -/
theorem Asks.unsigned (hc : c ∈ Standard.unsignedOnes) {d : Directive} (hwidth : d.width.value = 0)
    (hplaces : d.places? = precision.map (min · measureLimit))
    (halternate : d.alternate = true ↔ 35 ∈ s.flags) (hsize : d.size = s.directive.size)
    (options : Options) (n : Int) :
    ∃ f t, convertUnsigned d (c.bits d options) (BitVec.ofInt 64 n) c.base (c = .hexUpper)
        (c.mark d) .empty = .ok f t ∧
      f.width = 0 ∧ f.body = s.integerText options precision n := by
  obtain ⟨t, hf⟩ := convertUnsigned_field d (c.bits d options) (BitVec.ofInt 64 n) c.base
    (c = .hexUpper) (c.mark_length_le d)
  have hm : (((BitVec.ofInt 64 n).setWidth (c.bits d options)).toNat : Int) =
      s.integerValue options n := by
    rw [integerValue, if_neg (h.not_signed hc), h.bits_eq hsize,
      toNat_setWidth_ofInt (s.integerBits_le options)]
  refine ⟨_, t, hf, hwidth, ?_⟩
  dsimp only
  rw [hplaces]
  exact h.integerText_eq hc halternate hm

end

/-- The field of a signed number without a width. -/
theorem Asks.signed_compose (h : s.Asks .signed) {d : Directive} (hwidth : d.width.value = 0)
    (hplaces : d.places? = precision.map (min · measureLimit)) (hsign : d.sign = s.directive.sign)
    (hsize : d.size = s.directive.size) (options : Options) (n : Int) :
    ∃ f t, Standard.signed.compose d options (BitVec.ofInt 64 n) .empty = .ok f t ∧
      f.width = 0 ∧ f.body = s.integerText options precision n := by
  obtain ⟨t, hf⟩ := convertSigned_field d options (BitVec.ofInt 64 n)
  have hbits : d.size.bits options.intWidth = s.integerBits options := h.bits_eq hsize options
  have hvalue : ((BitVec.ofInt 64 n).setWidth (d.size.bits options.intWidth)).toInt =
      s.integerValue options n := by
    rw [hbits, toInt_setWidth_ofInt (s.integerBits_le options), integerValue,
      if_pos (h.signed.mpr rfl)]
  have hX : ¬s.IsOneOf "X" := by simp [h.hexUpper]
  have hbase : s.integerBase = 10 := h.base_eq List.mem_cons_self
  have hdigits : (if precision = some 0 ∧ (s.integerValue options n).natAbs = 0 then []
      else Base.decimal.text false (s.integerValue options n).natAbs) =
      s.integerDigits precision (s.integerValue options n) := by
    simp only [integerDigits, Int.natAbs_eq_zero, hbase, hX, if_false,
      Base.text_eq (show Base.decimal.value ≤ 16 by decide), Bool.false_eq_true]
    rfl
  have hfront : (if s.integerValue options n < 0 then [minus] else s.directive.sign.text) =
      s.integerSign (s.integerValue options n) := by
    have hasked : s.directive.sign =
        if 43 ∈ s.flags then .plus else if blank ∈ s.flags then .space else .omit := rfl
    rw [hasked, integerSign, if_neg (not_not_intro (h.signed.mpr rfl))]
    split
    · rfl
    split
    · rfl
    split <;> rfl
  have hmark : s.radixMark (s.integerValue options n) = [] := by
    simp [radixMark, h.hex, h.hexUpper]
  have hzero (rest : Bytes) : s.octalZero rest = [] := by simp [octalZero, h.octal]
  refine ⟨_, t, hf, hwidth, ?_⟩
  dsimp only
  rw [hvalue, hplaces, hsign, natText, shownDigits_numeral, hdigits, hfront,
    precisionZeros_limited (Nat.sub_le _ _), integerText]
  simp only [hmark, hzero, List.append_nil, List.length_nil, Nat.sub_zero]
  rfl

/-- A directive of integers converts the number with the text that it asks for. -/
theorem IsPlainInteger.taken (hs : s.IsPlainInteger) (hcaret : s.caret = false) {w p : Measure}
    (hwidth : w.value = 0) (hplaces : p.places? = precision.map (min · measureLimit)) {arg : Arg}
    (harg : arg.integer? = some n) (options : Options) (more : List Arg) (k : Nat) :
    ∃ c f, s.directive.conversion? = some c ∧
      c.taken { s.directive with width := w, precision := p } options ⟨arg :: more, k⟩ =
        .ok f ⟨more, k + 1⟩ ∧
      f.width = 0 ∧ f.body = s.integerText options precision n := by
  obtain ⟨c, hc, hconversion, h⟩ := hs.asks
  have halternate : s.directive.alternate = true ↔ 35 ∈ s.flags := by
    simp only [directive, hcaret, Bool.false_or, decide_eq_true_iff]
  generalize hd : { s.directive with width := w, precision := p } = d
  have hwidth : d.width.value = 0 := by rw [← hd, hwidth]
  have hplaces : d.places? = precision.map (min · measureLimit) := by rw [← hd, ← hplaces]; rfl
  have hsign : d.sign = s.directive.sign := by rw [← hd]
  have hsize : d.size = s.directive.size := by rw [← hd]
  have halternate : d.alternate = true ↔ 35 ∈ s.flags := by rw [← hd, ← halternate]
  have hpick := Arg.pattern?_of_integer? harg
  refine ⟨.standard c, ?_⟩
  obtain rfl | hc := List.mem_cons.mp hc
  · obtain ⟨f, t, hf, htext⟩ := h.signed_compose hwidth hplaces hsign hsize options n
    exact ⟨f, hconversion, Conversion.taken_standard (c := .signed) hpick hf more k, htext⟩
  · obtain ⟨f, t, hf, htext⟩ := h.unsigned hc hwidth hplaces halternate hsize options n
    exact ⟨f, hconversion, Standard.taken_unsigned hc hpick hf more k, htext⟩

end Spelling

/-- A directive of integers without a width, in front of any rest of a format,
takes its precision and a number, delivers the sign, the mark, the zeros and the
digits that it asks for, and the rest goes on with the arguments that are left. -/
theorem Context.integer_text {written g : Bytes} {s : Spelling}
    (hread : Spelling.read written = (s, g)) (hs : s.IsPlainInteger) {stars : List Arg}
    {precision : Option Nat} (hprecision : s.HasPrecision stars precision) {arg : Arg} {value : Int}
    (harg : arg.integer? = some value) (context : Context) (held : Array UInt8)
    (options : Options) (more : List Arg) :
    let text := s.integerText options precision value
    context.deliver held (percent :: written) (stars ++ arg :: more) options =
      Delivery.followedBy ⟨.ok text.length, text, stars.length + 1⟩
        (context.deliver held g more options) := by
  intro text
  have hgreedy := ((s.read_iff _ _).mp hread).2
  have hcaret : s.caret = false := by
    have := hgreedy.caret
    rwa [hs.bang, if_neg Bool.false_ne_true] at this
  obtain ⟨w, p, hwidth, hplaces, hresolved⟩ :=
    hprecision.resolved hs.widthStar hs.widthDigits (arg :: more) 0
  obtain ⟨c, f, hc, htaken, hzero, hbody⟩ :=
    hs.taken hcaret hwidth hplaces harg options more (0 + stars.length)
  have houtput : (Segment.directive s).output options ⟨stars ++ arg :: more, 0⟩ =
      .ok f.pieces ⟨more, 0 + stars.length + 1⟩ := by
    rw [Segment.output_converted hc, Directive.output_eq, Action.bind_ok hresolved,
      Action.bind_ok htaken]
    rfl
  have hlength : 0 + stars.length + 1 = (stars ++ [arg]).length := by
    rw [List.length_append, Nat.zero_add]
    rfl
  rw [hlength, List.append_cons] at houtput
  have hdeliver := deliver_first hread houtput context held
  rwa [Field.flatMap_pieces hzero, hbody, List.append_assoc, List.length_append] at hdeliver

/-- Zero with precision 0 behind the mark of octal numbers, and a precision that
is beyond the room, where the mark of hexadecimal numbers keeps its own. -/
theorem Context.integer_text_bounded :
    let octal : Spelling :=
      { widthFlags := ascii "#0", precision := some ([], ascii "0"), conversion := some 111 }
    let hex : Spelling :=
      { widthFlags := ascii "#", precision := some (ascii "*", []), modifier := some .hh,
        conversion := some 120 }
    Spelling.read (ascii "#0.0o|") = (octal, ascii "|") ∧ octal.IsPlainInteger ∧
      octal.HasPrecision [] (some 0) ∧ Arg.integer? (.bool false) = some 0 ∧
      Context.deliver {} #[] (ascii "%#0.0o|") [.bool false] {} =
        Delivery.followedBy ⟨.ok 1, ascii "0", 1⟩ (Context.deliver {} #[] (ascii "|") [] {}) ∧
      Spelling.read (ascii "#.*hhx") = (hex, []) ∧ hex.IsPlainInteger ∧
      hex.HasPrecision [.int 200] (some 200) ∧ Arg.integer? (.int (-1)) = some (-1) ∧
      Context.deliver {} #[] (ascii "%#.*hhx") [.int 200, .int (-1)] {} =
        Delivery.followedBy ⟨.ok 81, ascii "0x" ++ List.replicate 77 zero ++ ascii "ff", 2⟩
          (Context.deliver {} #[] [] [] {}) := by
  intro octal hex
  have hreadOctal : Spelling.read (ascii "#0.0o|") = (octal, ascii "|") := by cbv
  have hreadHex : Spelling.read (ascii "#.*hhx") = (hex, []) := by cbv
  have hoctal : octal.IsPlainInteger := ⟨rfl, by decide, rfl, by decide⟩
  have hhex : hex.IsPlainInteger := ⟨rfl, by decide, rfl, by decide⟩
  have hnone : octal.HasPrecision [] (some 0) :=
    @Spelling.HasPrecision.written octal [] (ascii "0") rfl (by decide)
  have htwo : hex.HasPrecision [.int 200] (some 200) := .taken (n := 200) rfl (by decide) rfl
  have hzero : Arg.integer? (.bool false) = some 0 := rfl
  have hone : Arg.integer? (.int (-1)) = some (-1) := rfl
  have htextOctal : octal.integerText {} (some 0) 0 = ascii "0" := by decide
  have htextHex : hex.integerText {} (some 200) (-1) =
      ascii "0x" ++ List.replicate 77 zero ++ ascii "ff" := by decide
  have hdeliverOctal := Context.integer_text hreadOctal hoctal hnone hzero {} #[] {} []
  have hdeliverHex := Context.integer_text hreadHex hhex htwo hone {} #[] {} []
  rw [htextOctal] at hdeliverOctal
  rw [htextHex] at hdeliverHex
  exact ⟨hreadOctal, hoctal, hnone, hzero, hdeliverOctal, hreadHex, hhex, htwo, hone, hdeliverHex⟩

end PrintFormat
