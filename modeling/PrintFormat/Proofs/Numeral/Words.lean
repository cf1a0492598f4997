import PrintFormat.Proofs.Checked.Numeral
import PrintFormat.Proofs.Numeral.Reading

/-!
Machine words written in a base. The digits come off a word by divisions that
stay within its width (`Scratch.pushWord`), and a word of 64 bits does for every
number below 2 to the power 64. `Scratch.pushWord_eq` says that what is put is
the numeral of the word's number, at any width that the bases fit in; so the two
widths put the same, and `Scratch.pushInteger_text` says of integers of every
size what the span holds afterwards, and that the text reads back.
-/
namespace PrintFormat

/-- The digits of a number, the highest first. Zero has one. -/
def digitsOf (base n : Nat) : List Nat :=
  if n = 0 then [0] else (Nat.digits base n).reverse

theorem Base.digits_eq (b : Base) (n : Nat) : b.digits n = digitsOf b.value n := by
  have hpos : 0 < b.value := Nat.lt_of_lt_of_le Nat.two_pos b.two_le
  have hone : 1 < b.value := b.two_le
  fun_induction Base.digits b n with
  | case1 n h =>
    unfold digitsOf
    split
    · next hzero => rw [hzero]
    · next hn => rw [Nat.digits_of_lt _ _ hn h, List.reverse_singleton]
  | case2 n h ih =>
    have hn : n ≠ 0 := by omega
    have hdiv : n / b.value ≠ 0 := by
      rw [Ne, Nat.div_eq_zero_iff]
      omega
    rw [ih, digitsOf, digitsOf, if_neg hdiv, if_neg hn,
      Nat.digits_def' hone (Nat.pos_of_ne_zero hn), List.reverse_cons]

namespace Scratch

/-! ## Room -/

/-- Bytes that there is no room for are put until the room is filled. -/
theorem forM_push_overflow {bytes : Bytes} {s : Scratch} (h : s.room < bytes.length) :
    ∃ t, bytes.forM push s = .error .scratchOverflow t ∧ t.room = 0 ∧
      t.text = (bytes.take s.room).reverse ++ s.text := by
  induction bytes generalizing s with
  | nil => exact absurd h (Nat.not_lt_zero _)
  | cons b rest ih =>
    by_cases hroom : s.text.length < scratchCapacity
    · have hnext : s.room = (⟨b :: s.text, hroom⟩ : Scratch).room + 1 := by
        simp only [room, List.length_cons]
        omega
      rw [List.length_cons, hnext] at h
      obtain ⟨t, ht, hfull, htext⟩ := ih (Nat.lt_of_succ_lt_succ h)
      refine ⟨t, (Action.forM_cons_ok (push_ok b hroom) rest).trans ht, hfull, ?_⟩
      rw [htext, hnext, List.take_succ_cons, List.reverse_cons, List.append_assoc]
      rfl
    · have hfull : s.room = 0 := by
        rw [room]
        omega
      have hpush : push b s = .error .scratchOverflow s := by simp only [push, dif_neg hroom]
      refine ⟨s, Action.forM_cons_error hpush rest, hfull, ?_⟩
      rw [hfull]
      rfl

/-- A text is put in front if there is room for it. Otherwise as much of its end
is put as there is room for. -/
theorem pushText_cases (text : Bytes) (s : Scratch) :
    if text.length ≤ s.room then
      ∃ t, pushText text s = .ok text.length t ∧ t.text = text ++ s.text
    else ∃ t, pushText text s = .error .scratchOverflow t ∧ t.room = 0 ∧
      t.text = text.drop (text.length - s.room) ++ s.text := by
  have hfits := s.fits
  split
  · next h =>
    have hroom : (text ++ s.text).length ≤ scratchCapacity := by
      rw [room] at h
      rw [List.length_append]
      omega
    exact ⟨_, pushText_ok hroom, rfl⟩
  · next h =>
    have hover : s.room < text.reverse.length := by
      rw [List.length_reverse]
      omega
    obtain ⟨t, ht, hfull, htext⟩ := forM_push_overflow hover
    refine ⟨t, Action.bind_error ht, hfull, ?_⟩
    rw [htext, ← List.reverse_reverse (text.reverse.take _), List.reverse_take,
      List.reverse_reverse, List.length_reverse, List.reverse_reverse]

/-! ## Digits of a word -/

/-- A base as a word. -/
theorem toNat_base {width : Nat} (hwidth : 6 ≤ width) (b : Base) :
    (BitVec.ofNat width b.value).toNat = b.value := by
  rw [BitVec.toNat_ofNat]
  refine Nat.mod_eq_of_lt ?_
  calc b.value ≤ 36 := b.le_max
    _ < 2 ^ 6 := by decide
    _ ≤ 2 ^ width := Nat.pow_le_pow_right Nat.two_pos hwidth

/-- Puts the digits of a word in front, the lowest one first, until nothing is
left of the word. -/
def pushWord {width : Nat} (hwidth : 6 ≤ width) (b : Base) (upper : Bool) (v : BitVec width) :
    Edit Unit := do
  push (digitByte upper (v % BitVec.ofNat width b.value).toNat)
  if _ : v / BitVec.ofNat width b.value = 0 then
    return
  else
    pushWord hwidth b upper (v / BitVec.ofNat width b.value)
termination_by v.toNat
decreasing_by
  rename_i h
  have hbase := toNat_base hwidth b
  have hne : v.toNat ≠ 0 := by
    intro hzero
    obtain rfl : v = BitVec.ofNat width 0 := BitVec.eq_of_toNat_eq hzero
    exact h BitVec.zero_udiv
  rw [BitVec.toNat_udiv, hbase]
  exact Nat.div_lt_self (Nat.pos_of_ne_zero hne) b.two_le

/-- The digits of a word are those of its number. -/
theorem pushWord_eq {width : Nat} (hwidth : 6 ≤ width) (b : Base) (upper : Bool)
    (v : BitVec width) :
    pushWord hwidth b upper v = (b.text upper v.toNat).reverse.forM push := by
  have hbase := toNat_base hwidth b
  have hdigit (v : BitVec width) :
      (v % BitVec.ofNat width b.value).toNat = v.toNat % b.value := by
    rw [BitVec.toNat_umod, hbase]
  have hquotient (v : BitVec width) :
      (v / BitVec.ofNat width b.value).toNat = v.toNat / b.value := by
    rw [BitVec.toNat_udiv, hbase]
  have hlast (v : BitVec width) :
      v / BitVec.ofNat width b.value = 0 ↔ v.toNat / b.value = 0 := by
    rw [← hquotient, ← BitVec.toNat_inj]
    rfl
  induction hn : v.toNat using Nat.strongRecOn generalizing v with
  | ind n ih =>
    subst hn
    rw [pushWord, hdigit, Base.text]
    by_cases h : v.toNat < b.value
    · rw [dif_pos ((hlast v).mpr (Nat.div_eq_of_lt h)), b.digits_of_lt h, Nat.mod_eq_of_lt h]
      rfl
    · have hdiv : v.toNat / b.value ≠ 0 := by
        rw [Ne, Nat.div_eq_zero_iff]
        have := b.two_le
        omega
      have hless : v.toNat / b.value < v.toNat :=
        Nat.div_lt_self (by have := b.two_le; omega) b.two_le
      rw [dif_neg (mt (hlast v).mp hdiv), ih _ hless _ (hquotient v), b.digits_of_le (not_lt.mp h),
        List.map_append, List.reverse_append]
      rfl

/-! ## Integers -/

/-- Puts the digits of a word of 128 bits in front, in words of 64 bits if it is
one of them. -/
def pushMagnitude (b : Base) (upper : Bool) (v : BitVec 128) : Edit Unit :=
  if v.toNat < 2 ^ 64 then pushWord (by decide) b upper (v.setWidth 64)
  else pushWord (by decide) b upper v

theorem pushMagnitude_eq (b : Base) (upper : Bool) (v : BitVec 128) :
    pushMagnitude b upper v = (b.text upper v.toNat).reverse.forM push := by
  unfold pushMagnitude
  split
  · next h => rw [pushWord_eq, BitVec.toNat_setWidth, Nat.mod_eq_of_lt h]
  · rw [pushWord_eq]

/-- Puts an integer in front in a base, and answers by how many bytes the text
has grown. Base 10 shows the sign, every other base the bit pattern. -/
def pushInteger {width : Nat} (base : Nat) (upper signed : Bool) (v : BitVec width) :
    Edit Nat := do
  let b := Base.clamp base
  let decimal : Bool := b.value = 10 && signed
  let magnitude : BitVec 128 :=
    if decimal then BitVec.ofNat 128 v.toInt.natAbs else v.setWidth 128
  let before := (← get).text.length
  pushMagnitude b upper magnitude
  if decimal && v.toInt < 0 then push minus
  return (← get).text.length - before

/-- The number that an integer shows in a base, without its sign. -/
def shownMagnitude {width : Nat} (b : Base) (signed : Bool) (v : BitVec width) : Nat :=
  if b.value = 10 && signed then v.toInt.natAbs else v.toNat

theorem natText_of_ten {b : Base} (hb : b.value = 10) (upper : Bool) (n : Nat) :
    b.text upper n = natText n := by
  obtain rfl : b = Base.decimal := by
    cases b
    cases hb
    rfl
  refine List.map_congr_left fun d hd => ?_
  have key : ∀ upper : Bool, ∀ d : Fin 10, digitByte upper d = digitByte false d := by decide
  exact key upper ⟨d, Base.decimal.lt_of_mem_digits hd⟩

/-- The numeral of a machine word, from its magnitude and its sign. -/
theorem wordText_eq {width : Nat} (b : Base) (upper signed : Bool) (v : BitVec width) :
    wordText b upper signed v =
      (if b.value = 10 ∧ signed = true ∧ v.toInt < 0 then [minus] else []) ++
        b.text upper (shownMagnitude b signed v) := by
  unfold wordText shownMagnitude
  by_cases hdecimal : (b.value = 10 && signed) = true
  · obtain ⟨hb, hsigned⟩ : b.value = 10 ∧ signed = true := by simpa using hdecimal
    rw [if_pos hdecimal, if_pos hdecimal, natText_of_ten hb, intText]
    simp only [hb, hsigned, true_and]
    split <;> rfl
  · rw [if_neg hdecimal, if_neg hdecimal, if_neg, List.nil_append]
    rintro ⟨hb, hsigned, -⟩
    exact hdecimal (by simp [hb, hsigned])

theorem shownMagnitude_lt {width : Nat} (hwidth : width ≤ 128) (b : Base) (signed : Bool)
    (v : BitVec width) : shownMagnitude b signed v < 2 ^ 128 := by
  have hpow : 2 ^ width ≤ 2 ^ 128 := Nat.pow_le_pow_right Nat.two_pos hwidth
  unfold shownMagnitude
  split
  · have hlow := v.le_two_mul_toInt
    have hhigh := v.two_mul_toInt_lt
    have hpow' : (2 : Int) ^ width ≤ 2 ^ 128 := by exact_mod_cast hpow
    omega
  · exact v.isLt.trans_le hpow

/-- What puts a text byte by byte, counted by its growth. -/
theorem pushText_counted (text : Bytes) :
    pushText text = (do
      let before := (← get).text.length
      text.reverse.forM push
      return (← get).text.length - before) := by
  funext s
  cases h : text.reverse.forM push s with
  | error e t => exact (Action.bind_error h).trans (Action.bind_error h).symm
  | ok _ t =>
    have hgrown := grows_forM_push text.reverse s t h
    have hcount : t.text.length - s.text.length = text.length := by
      rw [hgrown, List.length_reverse, Nat.add_sub_cancel]
    refine (Action.bind_ok h).trans (.trans ?_ (Action.bind_ok h).symm)
    show EStateM.Result.ok text.length t = .ok (t.text.length - s.text.length) t
    rw [hcount]

/-- Both loops together put the numeral of the integer. -/
theorem pushInteger_eq {width : Nat} (hwidth : width ≤ 128) (base : Nat) (upper signed : Bool)
    (v : BitVec width) :
    pushInteger base upper signed v = pushText (wordText (.clamp base) upper signed v) := by
  rw [pushText_counted, wordText_eq, List.reverse_append, Action.forM_append]
  simp only [pushInteger, pushMagnitude_eq]
  generalize Base.clamp base = b
  have hlt := shownMagnitude_lt hwidth b signed v
  have hmagnitude : (if b.value = 10 && signed then BitVec.ofNat 128 v.toInt.natAbs
      else v.setWidth 128).toNat = shownMagnitude b signed v := by
    unfold shownMagnitude at hlt ⊢
    split at hlt
    · next h => rw [if_pos h, if_pos h, BitVec.toNat_ofNat, Nat.mod_eq_of_lt hlt]
    · next h => rw [if_neg h, if_neg h, BitVec.toNat_setWidth, Nat.mod_eq_of_lt hlt]
  rw [hmagnitude]
  by_cases hshown : b.value = 10 ∧ signed = true ∧ v.toInt < 0
  · have hsign : (b.value = 10 && signed && v.toInt < 0) = true := by
      simpa [and_assoc] using hshown
    rw [if_pos hshown, List.reverse_singleton, Action.forM_singleton]
    simp only [if_pos hsign, bind_assoc]
  · have hsign : ¬(b.value = 10 && signed && v.toInt < 0) = true := by
      simpa [and_assoc] using hshown
    rw [if_neg hshown]
    simp only [if_neg hsign, bind_assoc]
    rfl

/-! ## What the span holds -/

/-- The numeral of an integer: in base 10 a minus sign if it is negative, and the
digits of its absolute value; in every other base those of its bit pattern. -/
def integerNumeral {width : Nat} (base : Nat) (upper signed : Bool) (v : BitVec width) : Bytes :=
  (if base = 10 ∧ signed = true ∧ v.toInt < 0 then [minus] else []) ++
    (digitsOf base (if base = 10 ∧ signed = true then v.toInt.natAbs else v.toNat)).map
      (digitByte upper)

theorem wordText_eq_integerNumeral {width : Nat} (b : Base) (upper signed : Bool)
    (v : BitVec width) : wordText b upper signed v = integerNumeral b.value upper signed v := by
  rw [wordText_eq, integerNumeral, Base.text, b.digits_eq, shownMagnitude]
  simp only [Bool.and_eq_true, decide_eq_true_eq]

/-- A numeral reads back, the bit pattern where that is written. -/
theorem read_wordText {width : Nat} (b : Base) (upper signed : Bool) (v : BitVec width) :
    if b.value = 10 ∧ signed = true then
      readInt? (2 ^ (width - 1)) (chars (wordText b upper signed v)) = some v.toInt
    else readDigits? b.value (chars (wordText b upper signed v)) = some v.toNat := by
  unfold wordText
  split
  · next h =>
    rw [if_pos (by simpa using h)]
    refine readInt?_intText ?_ ?_
    · have hlow := v.le_toInt
      exact_mod_cast hlow
    · have hhigh := v.toInt_lt
      exact_mod_cast hhigh
  · next h =>
    rw [if_neg (by simpa using h)]
    have hread := readDigits?_zeroFilled b upper 0 v.toNat
    rwa [zeroFilled_of_le (Nat.zero_le _)] at hread

/-- An integer of any of the five sizes is put in front of what the span holds as
its numeral in the nearest base there is, which reads back to it. If there is no
room for all of it, the room is filled with the end of it, and what the span held
stays behind that. It does not matter how wide the words are that the digits are
taken off from. -/
theorem pushInteger_text {width : Nat} (hwidth : width ∈ [8, 16, 32, 64, 128]) (base : Nat)
    (upper signed : Bool) (v : BitVec width) (s : Scratch) :
    let b := max 2 (min base 36)
    let text := integerNumeral b upper signed v
    (if text.length ≤ s.room then
      ∃ t, pushInteger base upper signed v s = .ok text.length t ∧ t.text = text ++ s.text
    else ∃ t, pushInteger base upper signed v s = .error .scratchOverflow t ∧ t.room = 0 ∧
      t.text = text.drop (text.length - s.room) ++ s.text) ∧
    (if b = 10 ∧ signed = true then readInt? (2 ^ (width - 1)) (chars text) = some v.toInt
      else readDigits? b (chars text) = some v.toNat) ∧
    pushInteger base upper signed v s = pushText (wordText (.clamp base) upper signed v) s ∧
    ∀ m : BitVec 64, pushWord (by decide) (.clamp base) upper m =
      pushWord (by decide) (.clamp base) upper (m.setWidth 128) := by
  intro b text
  have hle : width ≤ 128 := by
    simp only [List.mem_cons, List.not_mem_nil, or_false] at hwidth
    omega
  have hb : (Base.clamp base).value = b := by
    show min (max base 2) 36 = max 2 (min base 36)
    omega
  have htext : wordText (.clamp base) upper signed v = text := by
    rw [wordText_eq_integerNumeral, hb]
  have hrun := pushText_cases text s
  have hread := read_wordText (.clamp base) upper signed v
  rw [hb, htext] at hread
  rw [pushInteger_eq hle, htext]
  refine ⟨hrun, hread, rfl, fun m => ?_⟩
  have hwide : m.toNat % 2 ^ 128 = m.toNat :=
    Nat.mod_eq_of_lt (m.isLt.trans (by decide))
  rw [pushWord_eq, pushWord_eq, BitVec.toNat_setWidth, hwide]

/-- The least number of 8 bits in front of a fraction, and the greatest one of 128
bits in base 2, which there is no room for. -/
theorem pushInteger_text_least :
    let s : Scratch := ⟨ascii ".5", by decide⟩
    8 ∈ [8, 16, 32, 64, 128] ∧ 128 ∈ [8, 16, 32, 64, 128] ∧
      (∃ t, pushInteger 10 false true (BitVec.ofInt 8 (-128)) s = .ok 4 t ∧
        t.text = ascii "-128.5") ∧
      readInt? (2 ^ 7) (chars (ascii "-128")) = some (-128) ∧
      ∃ t, pushInteger 2 false false (BitVec.allOnes 128) s = .error .scratchOverflow t ∧
        t.room = 0 ∧ t.text = List.replicate 79 49 ++ ascii ".5" := by
  intro s
  have hwidth : 8 ∈ [8, 16, 32, 64, 128] := by decide
  have hwidth' : 128 ∈ [8, 16, 32, 64, 128] := by decide
  have htext : integerNumeral 10 false true (BitVec.ofInt 8 (-128)) = ascii "-128" := by
    decide +kernel
  have htext' : integerNumeral 2 false false (BitVec.allOnes 128) = List.replicate 128 49 := by
    decide +kernel
  have h := pushInteger_text hwidth 10 false true (BitVec.ofInt 8 (-128)) s
  have h' := pushInteger_text hwidth' 2 false false (BitVec.allOnes 128) s
  simp only [show max 2 (min 10 36) = 10 from rfl, htext] at h
  simp only [show max 2 (min 2 36) = 2 from rfl, htext', List.length_replicate] at h'
  exact ⟨hwidth, hwidth', h.1, h.2.1, h'.1⟩

end Scratch
end PrintFormat
