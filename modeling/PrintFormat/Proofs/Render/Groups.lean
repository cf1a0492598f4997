import PrintFormat.Proofs.Numeral.Reading
import PrintFormat.Proofs.Render.Integer

/-!
Digits of extended directives. `%!b`, `%!o` and `%!H` write a number in groups of
digits, with zeros in front up to whole groups and to the precision
(`Spelling.groupedText`). `%!P` writes a count of digits, which is its width
(`phoneCount`). `Context.extended_digits` says of both what they deliver for a
number, and that the digits are read back.
-/
namespace PrintFormat

/-! ## Texts -/

namespace Spelling

variable (s : Spelling)

/-- A directive of groups of digits that has no width. -/
structure IsGrouped : Prop where
  bang : s.bang = true
  conversion : s.IsOneOf "boH"
  widthDigits : s.widthDigits = []
  widthStar : 42 ∉ s.widthFlags

/-- A directive of telephone numbers. -/
structure IsTelephone : Prop where
  bang : s.bang = true
  conversion : s.IsOneOf "P"

/-- The base of the digits. -/
def groupBase : Base :=
  if s.IsOneOf "b" then .binary else if s.IsOneOf "o" then .octal else .hexadecimal

/-- The digits of a group. -/
def groupSize : Nat := if s.IsOneOf "b" then 8 else if s.IsOneOf "o" then 1 else 2

/-- The digits of a number, in capital letters for `%!^H` and `%!#H`. -/
def groupDigits (n : Nat) : Bytes :=
  (Nat.toDigits s.groupBase.value n).map fun c =>
    (if s.IsOneOf "H" ∧ (s.caret = true ∨ 35 ∈ s.flags) then c.toUpper else c).toUInt8

/-- The text of a directive without a width for a number: whole groups of digits,
or as many as the precision asks for, but none beyond 81 for that. -/
def groupedText (precision : Option Nat) (n : Nat) : Bytes :=
  let digits := s.groupDigits n
  zeroFilled (max (digits.length ⌈/⌉ s.groupSize * s.groupSize) (min (precision.getD 0) 81)) digits

end Spelling

/-- The digits of a telephone number in a width. -/
def phoneCount (width : Int) : Nat := min (if 0 < width then width.toNat else 12) 19

/-! ## Fields -/

/-- The field of a number in groups of digits. -/
theorem composeGroups_field (d : Directive) (options : Options) (v : BitVec 64) (b : Base)
    (upper : Bool) (group : Nat) :
    let digits := b.text upper (v.setWidth (d.size.bits options.intWidth)).toNat
    let length := max ((digits.length + group - 1) / group * group) (d.places?.getD 0)
    ∃ t, composeGroups d options v b upper group .empty =
      .ok { body := zeroFilled (min length scratchCapacity) digits, width := d.width.value } t := by
  intro digits length
  have hroom : digits.length ≤ scratchCapacity :=
    Nat.le_trans (b.length_text_word_le upper v _) (by decide)
  have hzeros : Scratch.padded (min length scratchCapacity) digits =
      zeroFilled (min length scratchCapacity) digits :=
    Scratch.padded_of_not_isSign (b.isSign_head_text upper _) _
  rw [← hzeros]
  exact ⟨_, Action.bind_ok (Scratch.pushText_empty hroom)⟩

/-- The field of a telephone number. -/
theorem composePhone_field (d : Directive) (options : Options) (v : BitVec 64) :
    ∃ t, Extended.phone.compose d options v .empty =
      .ok { body := phoneText d.phoneDigits v.toNat } t := by
  have hroom : (phoneText d.phoneDigits v.toNat).length ≤ scratchCapacity := by
    have hmax : d.phoneDigits ≤ 19 := Nat.min_le_right _ _
    rw [length_phoneText d.phoneDigits_pos, scratchCapacity]
    omega
  exact ⟨_, Action.bind_ok (Scratch.pushText_empty hroom)⟩

/-- A telephone number is a plus sign, and digits in a count that is the width. -/
theorem phoneText_digits {d : Directive} {width : Int} (hwidth : d.width.IsWidth width) (n : Nat) :
    ∃ digits, phoneText d.phoneDigits n = ascii "+" ++ digits ∧
      digits.length = phoneCount width ∧
      readDigits? 10 (chars digits) = some (n % 10 ^ phoneCount width) := by
  have hcount : d.phoneDigits = phoneCount width := hwidth.phoneDigits
  have hlength := length_phoneText d.phoneDigits_pos n
  refine ⟨_, rfl, ?_, ?_⟩
  · rw [phoneText, List.length_append, Nat.add_comm] at hlength
    rw [← hcount]
    exact Nat.succ.inj hlength
  · rw [← hcount]
    exact readDigits?_zeroFilled .decimal false _ _

/-! ## Directives -/

namespace Spelling

variable {s : Spelling} {options : Options} {precision : Option Nat} {n : Int}

theorem groupDigits_eq (s : Spelling) (n : Nat) :
    s.groupDigits n =
      s.groupBase.text (decide (s.IsOneOf "H" ∧ (s.caret = true ∨ 35 ∈ s.flags))) n := by
  have hb : s.groupBase.value ≤ 16 := by
    unfold groupBase
    split
    · decide
    split <;> decide
  rw [Base.text_eq hb, groupDigits]
  simp only [decide_eq_true_eq]

theorem groupSize_cases (s : Spelling) : s.groupSize = 8 ∨ s.groupSize = 1 ∨ s.groupSize = 2 := by
  unfold groupSize
  split
  · exact .inl rfl
  split
  · exact .inr (.inl rfl)
  · exact .inr (.inr rfl)

theorem length_groupedText (s : Spelling) (precision : Option Nat) (n : Nat) :
    (s.groupedText precision n).length =
      max ((s.groupDigits n).length ⌈/⌉ s.groupSize * s.groupSize) (min (precision.getD 0) 81) := by
  have hwhole : (s.groupDigits n).length ≤
      (s.groupDigits n).length ⌈/⌉ s.groupSize * s.groupSize := by
    rw [Nat.ceilDiv_eq_add_pred_div]
    obtain h | h | h := s.groupSize_cases <;> (rw [h]; omega)
  rw [groupedText, length_zeroFilled]
  omega

theorem read_groupedText (s : Spelling) (precision : Option Nat) (n : Nat) :
    readDigits? s.groupBase.value (chars (s.groupedText precision n)) = some n := by
  simp only [groupedText, groupDigits_eq]
  exact readDigits?_zeroFilled _ _ _ _

/-- The field of a number in groups of digits without a width. -/
theorem composeGroups_text {d : Directive} (hwidth : d.width.value = 0)
    (hplaces : d.places? = precision.map (min · measureLimit))
    (hbits : d.size.bits options.intWidth = s.integerBits options) (b : Base) (upper : Bool)
    (group : Nat) (hbase : b = s.groupBase) (hgroup : group = s.groupSize)
    (hupper : upper = decide (s.IsOneOf "H" ∧ (s.caret = true ∨ 35 ∈ s.flags))) (n : Int) :
    ∃ f t, composeGroups d options (BitVec.ofInt 64 n) b upper group .empty = .ok f t ∧
      f.width = 0 ∧ f.body = s.groupedText precision (n % 2 ^ s.integerBits options).toNat := by
  subst hbase hgroup hupper
  obtain ⟨t, hf⟩ := composeGroups_field d options (BitVec.ofInt 64 n) s.groupBase
    (decide (s.IsOneOf "H" ∧ (s.caret = true ∨ 35 ∈ s.flags))) s.groupSize
  refine ⟨_, t, hf, hwidth, ?_⟩
  have hvalue : ((BitVec.ofInt 64 n).setWidth (d.size.bits options.intWidth)).toNat =
      (n % 2 ^ s.integerBits options).toNat := by
    rw [hbits, ← toNat_setWidth_ofInt (s.integerBits_le options), Int.toNat_natCast]
  have hroom := s.groupBase.length_text_word_le
    (decide (s.IsOneOf "H" ∧ (s.caret = true ∨ 35 ∈ s.flags))) (BitVec.ofInt 64 n)
    (d.size.bits options.intWidth)
  dsimp only
  rw [hvalue, ← groupDigits_eq] at hroom ⊢
  rw [groupedText, hplaces, Nat.ceilDiv_eq_add_pred_div]
  congr 1
  -- whole groups of 64 digits are within the room
  have hwhole : ((s.groupDigits (n % 2 ^ s.integerBits options).toNat).length + s.groupSize - 1) /
      s.groupSize * s.groupSize ≤ 64 := by
    obtain h | h | h := s.groupSize_cases <;> (rw [h]; omega)
  have hprecision : min ((precision.map (min · measureLimit)).getD 0) 81 =
      min (precision.getD 0) 81 := by
    cases precision with
    | none => rfl
    | some p =>
      show min (min p measureLimit) 81 = min p 81
      rw [measureLimit]
      omega
  rw [← hprecision, scratchCapacity]
  omega

/-- The conversions of groups by their bytes. -/
theorem ofByte?_grouped : ∀ b ∈ ascii "boH",
    ∃ c ∈ [Extended.binary, .octal, .hex], Extended.ofByte? b = some c ∧
      (b ∈ ascii "b" ↔ c = .binary) ∧ (b ∈ ascii "o" ↔ c = .octal) ∧ (b ∈ ascii "H" ↔ c = .hex) ∧
      b ∉ ascii "pzZt" := by
  decide +kernel

theorem IsGrouped.taken (hs : s.IsGrouped) {w p : Measure} (hwidth : w.value = 0)
    (hplaces : p.places? = precision.map (min · measureLimit)) {arg : Arg}
    (harg : arg.integer? = some n) (options : Options) (more : List Arg) (k : Nat) :
    ∃ c f, s.directive.conversion? = some c ∧
      c.taken { s.directive with width := w, precision := p } options ⟨arg :: more, k⟩ =
        .ok f ⟨more, k + 1⟩ ∧
      f.width = 0 ∧ f.body = s.groupedText precision (n % 2 ^ s.integerBits options).toNat := by
  obtain ⟨b, hb, hconversion⟩ := hs.conversion
  have hpick := Arg.pattern?_of_integer? harg
  obtain ⟨c, hkind, hc, hbinary, hoctal, hhex, hword⟩ := ofByte?_grouped b hb
  simp only [← isOneOf_iff hconversion] at hbinary hoctal hhex hword
  generalize hd : { s.directive with width := w, precision := p } = d
  have hwidth : d.width.value = 0 := by rw [← hd, hwidth]
  have hplaces : d.places? = precision.map (min · measureLimit) := by rw [← hd, ← hplaces]; rfl
  have hbits : d.size.bits options.intWidth = s.integerBits options := by
    rw [← bits_directive hword, ← hd]
  have halternate : d.alternate = decide (s.caret = true ∨ 35 ∈ s.flags) := by
    simp [← hd, directive]
  refine ⟨.extended c, ?_⟩
  rw [conversion?_of_extended hs.bang hconversion hc]
  cases c <;>
    simp only [List.mem_cons, List.not_mem_nil, reduceCtorEq, iff_true, iff_false, or_self,
      or_false, or_true] at hkind hbinary hoctal hhex
  case binary =>
    obtain ⟨f, t, hf, htext⟩ := composeGroups_text hwidth hplaces hbits .binary false 8
      (by simp [groupBase, hbinary])
      (by simp [groupSize, hbinary]) (by simp [hhex]) n
    exact ⟨f, rfl, Conversion.taken_extended (c := .binary) hpick hf more k, htext⟩
  case octal =>
    obtain ⟨f, t, hf, htext⟩ := composeGroups_text hwidth hplaces hbits .octal false 1
      (by simp [groupBase, hbinary, hoctal])
      (by simp [groupSize, hbinary, hoctal]) (by simp [hhex]) n
    exact ⟨f, rfl, Conversion.taken_extended (c := .octal) hpick hf more k, htext⟩
  case hex =>
    obtain ⟨f, t, hf, htext⟩ := composeGroups_text hwidth hplaces hbits .hexadecimal d.alternate 2
      (by simp [groupBase, hbinary, hoctal]) (by simp [groupSize, hbinary, hoctal])
      (by simp [hhex, halternate]) n
    exact ⟨f, rfl, Conversion.taken_extended (c := .hex) hpick hf more k, htext⟩

theorem IsTelephone.taken (hs : s.IsTelephone) {w p : Measure} {width : Int}
    (hwidth : w.IsWidth width) {arg : Arg} (harg : arg.integer? = some n) (options : Options)
    (more : List Arg) (k : Nat) :
    ∃ c digits, s.directive.conversion? = some c ∧
      c.taken { s.directive with width := w, precision := p } options ⟨arg :: more, k⟩ =
        .ok { body := ascii "+" ++ digits } ⟨more, k + 1⟩ ∧
      digits.length = phoneCount width ∧
      readDigits? 10 (chars digits) = some ((n % 2 ^ 64).toNat % 10 ^ phoneCount width) := by
  obtain ⟨b, hb, hconversion⟩ := hs.conversion
  change b ∈ [80] at hb
  obtain rfl := List.mem_singleton.mp hb
  have hpick := Arg.pattern?_of_integer? harg
  let d : Directive := { s.directive with width := w, precision := p }
  have hvalue : (BitVec.ofInt 64 n).toNat = (n % 2 ^ 64).toNat := by
    rw [BitVec.toNat_ofInt, Nat.cast_pow]
    rfl
  obtain ⟨digits, htext, hlength, hread⟩ :=
    phoneText_digits (d := d) hwidth (BitVec.ofInt 64 n).toNat
  obtain ⟨t, hcompose⟩ := composePhone_field d options (BitVec.ofInt 64 n)
  rw [htext] at hcompose
  rw [hvalue] at hread
  exact ⟨_, digits, conversion?_of_extended hs.bang hconversion rfl,
    Conversion.taken_extended (c := .phone) hpick hcompose more k, hlength, hread⟩

end Spelling

/-! ## Renders -/

namespace Context

variable {written g : Bytes} {s : Spelling} {widthStars stars : List Arg} {width value : Int}
  {precision : Option Nat} {arg : Arg}

/-- A directive whose measures are known, in front of any rest of a format,
delivers the field that its conversion makes of a number. -/
theorem deliver_resolved (hread : Spelling.read written = (s, g)) {options : Options}
    {more : List Arg} {d : Directive}
    (hresolved : s.directive.resolved ⟨widthStars ++ (stars ++ arg :: more), 0⟩ =
      .ok d ⟨arg :: more, 0 + widthStars.length + stars.length⟩) {c : Conversion}
    (hc : s.directive.conversion? = some c) {f : Field}
    (htaken : c.taken d options ⟨arg :: more, 0 + widthStars.length + stars.length⟩ =
      .ok f ⟨more, 0 + widthStars.length + stars.length + 1⟩) (hwidth : f.width = 0)
    (context : Context) (held : Array UInt8) :
    context.deliver held (percent :: written) (widthStars ++ (stars ++ arg :: more)) options =
      Delivery.followedBy ⟨.ok f.body.length, f.body, widthStars.length + stars.length + 1⟩
        (context.deliver held g more options) := by
  have houtput : (Segment.directive s).output options ⟨widthStars ++ (stars ++ arg :: more), 0⟩ =
      .ok f.pieces ⟨more, 0 + widthStars.length + stars.length + 1⟩ := by
    rw [Segment.output_converted hc, Directive.output_eq, Action.bind_ok hresolved,
      Action.bind_ok htaken]
    rfl
  have hdeliver := deliver_taken hread houtput context held
  rwa [Field.flatMap_pieces hwidth] at hdeliver

/-- What extended directives deliver for a number, in front of any rest of a
format. One of groups, without a width, delivers the digits of the bits that are
looked at, behind zeros that bring them to whole groups and to the precision. One
of telephone numbers delivers a plus sign and as many digits as its width says,
however that is given, and nothing else. The digits are read back as the number
that is left of the argument. -/
theorem extended_digits (hread : Spelling.read written = (s, g))
    (hprecision : s.HasPrecision stars precision) (harg : arg.integer? = some value)
    (context : Context) (held : Array UInt8) (options : Options) (more : List Arg) :
    (s.IsGrouped →
      let n := (value % 2 ^ s.integerBits options).toNat
      let text := s.groupedText precision n
      context.deliver held (percent :: written) (stars ++ arg :: more) options =
          Delivery.followedBy ⟨.ok text.length, text, stars.length + 1⟩
            (context.deliver held g more options) ∧
        text.length = max ((s.groupDigits n).length ⌈/⌉ s.groupSize * s.groupSize)
          (min (precision.getD 0) 81) ∧
        readDigits? s.groupBase.value (chars text) = some n) ∧
    (s.IsTelephone → ∀ widthStars width, s.HasWidth widthStars width →
      let count := phoneCount width
      ∃ digits, digits.length = count ∧
        readDigits? 10 (chars digits) = some ((value % 2 ^ 64).toNat % 10 ^ count) ∧
        context.deliver held (percent :: written) (widthStars ++ (stars ++ arg :: more)) options =
          Delivery.followedBy
            ⟨.ok (count + 1), ascii "+" ++ digits, widthStars.length + stars.length + 1⟩
            (context.deliver held g more options)) := by
  obtain ⟨p, hplaces, hdrawn⟩ := hprecision.drawn
  refine ⟨fun hs => ?_, fun hs widthStars width hwidth => ?_⟩
  · intro n text
    have hnone := Spelling.hasWidth_zero hs.widthStar hs.widthDigits
    obtain ⟨w, hw, hresolved⟩ := Spelling.resolved_of hnone hdrawn
    obtain ⟨c, f, hc, htaken, hzero, hbody⟩ :=
      hs.taken hw.value hplaces harg options more (0 + [].length + stars.length)
    have hdeliver := deliver_resolved hread (hresolved (arg :: more) 0) hc htaken hzero context held
    rw [hbody, List.length_nil, Nat.zero_add] at hdeliver
    exact ⟨hdeliver, s.length_groupedText precision n, s.read_groupedText precision n⟩
  · intro count
    obtain ⟨w, hw, hresolved⟩ := Spelling.resolved_of hwidth hdrawn
    obtain ⟨c, digits, hc, htaken, hlength, hdigits⟩ :=
      hs.taken hw harg options more (0 + widthStars.length + stars.length)
    have hdeliver := deliver_resolved hread (hresolved (arg :: more) 0) hc htaken rfl context held
    have htext : (ascii "+" ++ digits).length = count + 1 := by
      rw [List.length_append, hlength, Nat.add_comm]
      rfl
    rw [htext] at hdeliver
    exact ⟨digits, hlength, hdigits, hdeliver⟩

/-- The bits of −1 in groups with a precision by a star, and a telephone number in
a width by a star. -/
theorem extended_digits_star :
    let s : Spelling :=
      { bang := true, widthFlags := ascii "#", precision := some (ascii "*", []),
        modifier := some .h, conversion := some 72 }
    let t : Spelling := { bang := true, widthFlags := ascii "-*", conversion := some 80 }
    Spelling.read (ascii "!#.*hH|") = (s, ascii "|") ∧ s.HasPrecision [.int 6] (some 6) ∧
      Arg.integer? (.int (-1)) = some (-1) ∧ s.IsGrouped ∧
      Context.deliver {} #[] (ascii "%!#.*hH|") [.int 6, .int (-1)] {} =
        Delivery.followedBy ⟨.ok 6, ascii "00FFFF", 2⟩ (Context.deliver {} #[] (ascii "|") [] {}) ∧
      Spelling.read (ascii "!-*P") = (t, []) ∧ t.HasPrecision [] none ∧
      Arg.integer? (.uint 4930123456) = some 4930123456 ∧ t.IsTelephone ∧
      t.HasWidth [.int 4] (-4) ∧
      ∃ digits, digits.length = 12 ∧ readDigits? 10 (chars digits) = some 4930123456 ∧
        Context.deliver {} #[] (ascii "%!-*P") [.int 4, .uint 4930123456] {} =
          Delivery.followedBy ⟨.ok 13, ascii "+" ++ digits, 2⟩
            (Context.deliver {} #[] [] [] {}) := by
  intro s t
  have hreadGroups : Spelling.read (ascii "!#.*hH|") = (s, ascii "|") := by cbv
  have hreadPhone : Spelling.read (ascii "!-*P") = (t, []) := by cbv
  have hgrouped : s.IsGrouped := ⟨rfl, by decide, rfl, by decide⟩
  have htelephone : t.IsTelephone := ⟨rfl, by decide⟩
  have hsix : s.HasPrecision [.int 6] (some 6) := .taken (n := 6) rfl (by decide) rfl
  have hnone : t.HasPrecision [] none := .absent rfl
  have hwidth : t.HasWidth [.int 4] (-4) := .taken (n := 4) (by decide) rfl
  have hone : Arg.integer? (.int (-1)) = some (-1) := rfl
  have hnumber : Arg.integer? (.uint 4930123456) = some 4930123456 := rfl
  have hgroups := (extended_digits hreadGroups hsix hone {} #[] {} []).1 hgrouped
  have htext : s.groupedText (some 6) 65535 = ascii "00FFFF" := by decide +kernel
  have hphone := (extended_digits hreadPhone hnone hnumber {} #[] {} []).2 htelephone [.int 4] (-4)
    hwidth
  have hdeliver := hgroups.1
  rw [show ((-1 : Int) % 2 ^ s.integerBits {}).toNat = 65535 by decide +kernel, htext] at hdeliver
  exact ⟨hreadGroups, hsix, hone, hgrouped, hdeliver, hreadPhone, hnone, hnumber, htelephone,
    hwidth, hphone⟩

end Context
end PrintFormat
