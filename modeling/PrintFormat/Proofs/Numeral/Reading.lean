import PrintFormat.Numeral.Reading
import PrintFormat.Proofs.Numeral.Digits
import PrintFormat.Proofs.Text.Parts

/-!
Numerals read back. The digits of a number, with any zeros in front, read to
the number (`readDigits?_zeroFilled`), and what reads to a number holds digits
alone, so neither a sign nor a separator is among its characters
(`isSome_digitValue?`). With that the readers of naturals, integers and bytes
give back what was written if it is in their range.
-/
namespace PrintFormat

/-! ## Digits -/

/-- The character that a digit is written with has its value. -/
theorem digitValue?_digitByte {base : Nat} (hbase : base ≤ 36) (upper : Bool) {d : Nat}
    (hd : d < base) : digitValue? base (Char.ofUInt8 (digitByte upper d)) = some d := by
  have hvalue : ∀ upper : Bool, ∀ d : Fin 36,
      digitValue? 36 (Char.ofUInt8 (digitByte upper d)) = some d.val := by decide
  have hread := hvalue upper ⟨d, Nat.lt_of_lt_of_le hd hbase⟩
  simp only [digitValue?, Option.filter_eq_some_iff, decide_eq_true_eq] at hread ⊢
  exact ⟨hread.1, hd⟩

theorem mapM_digitValue? {base : Nat} (hbase : base ≤ 36) (upper : Bool) {ds : List Nat}
    (hds : ∀ d ∈ ds, d < base) :
    (chars (ds.map (digitByte upper))).mapM (digitValue? base) = some ds := by
  induction ds with
  | nil => rfl
  | cons d ds ih =>
    have hd := digitValue?_digitByte hbase upper (hds d List.mem_cons_self)
    have hrest := ih fun e he => hds e (List.mem_cons_of_mem d he)
    rw [List.map_cons, chars, List.map_cons, List.mapM_cons, hd]
    change (chars (ds.map (digitByte upper))).mapM (digitValue? base) >>= _ = _
    rw [hrest]
    rfl

/-- Zeros in front do not change a number. -/
theorem ofDigits_replicate_append (base k : Nat) (ds : List Nat) :
    ofDigits base (List.replicate k 0 ++ ds) = ofDigits base ds := by
  induction k with
  | zero => rfl
  | succ k ih =>
    rw [List.replicate_succ, List.cons_append, ← ih]
    simp [ofDigits]

/-- A numeral with zeros in front as digits. -/
theorem zeroFilled_text (b : Base) (upper : Bool) (k n : Nat) :
    zeroFilled k (b.text upper n) =
      (List.replicate (k - (b.digits n).length) 0 ++ b.digits n).map (digitByte upper) := by
  have hzero : digitByte upper 0 = zero := rfl
  rw [zeroFilled, Base.length_text, List.map_append, List.map_replicate, hzero]
  rfl

theorem Base.digits_ne_nil (b : Base) (n : Nat) : b.digits n ≠ [] := by
  rw [digits]
  split
  · exact List.cons_ne_nil _ _
  · exact List.append_ne_nil_of_right_ne_nil _ (List.cons_ne_nil _ _)

/-- A numeral is read back, with or without zeros in front. -/
theorem readDigits?_zeroFilled (b : Base) (upper : Bool) (k n : Nat) :
    readDigits? b.value (chars (zeroFilled k (b.text upper n))) = some n := by
  have hdigits : ∀ d ∈ List.replicate (k - (b.digits n).length) 0 ++ b.digits n, d < b.value := by
    intro d hd
    rcases List.mem_append.mp hd with hd | hd
    · rw [List.eq_of_mem_replicate hd]
      exact Nat.lt_of_lt_of_le Nat.two_pos b.two_le
    · exact b.lt_of_mem_digits hd
  have hne : chars (zeroFilled k (b.text upper n)) ≠ [] := by
    simp [chars, zeroFilled_text, b.digits_ne_nil]
  rw [readDigits?, if_neg hne, zeroFilled_text, mapM_digitValue? b.le_max upper hdigits,
    Option.map_some, ofDigits_replicate_append, ofDigits_digits]

theorem readDigits?_natText (n : Nat) : readDigits? 10 (chars (natText n)) = some n := by
  have h := readDigits?_zeroFilled .decimal false 0 n
  rwa [zeroFilled_of_le (Nat.zero_le _)] at h

theorem readDigits?_hexGroup (upper : Bool) (k n : Nat) :
    readDigits? 16 (chars (hexGroup upper k n)) = some n :=
  readDigits?_zeroFilled .hexadecimal upper k n

/-! ## Numbers in range -/

section

variable {base n : Nat} {cs : List Char}

/-- What reads to a number has a digit at each place. -/
theorem isSome_digitValue? (h : readDigits? base cs = some n) {c : Char} (hc : c ∈ cs) :
    (digitValue? base c).isSome = true := by
  unfold readDigits? at h
  split at h
  · cases h
  · obtain ⟨ds, hds, -⟩ := Option.map_eq_some_iff.mp h
    clear h
    induction cs generalizing ds with
    | nil => cases hc
    | cons d rest ih =>
      simp only [List.mapM_cons, Option.bind_eq_bind, Option.bind_eq_some_iff] at hds
      obtain ⟨v, hv, vs, hvs, -⟩ := hds
      rcases List.mem_cons.mp hc with rfl | hc
      · rw [hv]
        rfl
      · cases rest with
        | nil => cases hc
        | cons e rest => exact ih hc (List.cons_ne_nil _ _) vs hvs

theorem not_mem_of_readDigits? (h : readDigits? base cs = some n) {c : Char}
    (hc : digitValue? base c = none) : c ∉ cs := by
  intro hmem
  have := isSome_digitValue? h hmem
  rw [hc] at this
  cases this

theorem ne_nil_of_readDigits? (h : readDigits? base cs = some n) : cs ≠ [] := by
  rintro rfl
  cases h

theorem digitValue?_sign (base : Nat) : digitValue? base '+' = none ∧ digitValue? base '-' = none :=
  ⟨rfl, rfl⟩

theorem readNat?_digits (h : readDigits? base cs = some n) {bound : Nat} (hn : n < bound) :
    readNat? base bound cs = some n := by
  have hplus := not_mem_of_readDigits? h (digitValue?_sign base).1
  unfold readNat?
  split
  · exact absurd List.mem_cons_self hplus
  · dsimp only
    rw [h, Option.filter_some, if_pos (decide_eq_true hn)]

theorem readByte?_digits (h : readDigits? base cs = some n) (hn : n < 256) :
    readByte? base cs = some n.toUInt8 := by
  rw [readByte?, readNat?_digits h hn]
  rfl

theorem readInt?_digits (h : readDigits? 10 cs = some n) {bound : Nat} (hn : n < bound) :
    readInt? bound cs = some (n : Int) := by
  have hminus := not_mem_of_readDigits? h (digitValue?_sign 10).2
  unfold readInt?
  split
  · exact absurd List.mem_cons_self hminus
  · rw [readNat?_digits h hn]
    rfl

end

/-- An integer is read back from its numeral. -/
theorem readInt?_intText {bound : Nat} {n : Int} (hlow : -(bound : Int) ≤ n)
    (hhigh : n < bound) : readInt? bound (chars (intText n)) = some n := by
  by_cases hn : n < 0
  · rw [intText, if_pos hn]
    have hread := readDigits?_natText n.natAbs
    have hbound : n.natAbs ≤ bound := by omega
    have hsign : chars (minus :: natText n.natAbs) = '-' :: chars (natText n.natAbs) := rfl
    rw [hsign, readInt?, hread, Option.filter_some, if_pos (decide_eq_true hbound)]
    change some (-(n.natAbs : Int)) = some n
    congr 1
    omega
  · rw [intText, if_neg hn, readInt?_digits (readDigits?_natText n.natAbs) (by omega)]
    congr 1
    omega

/-! ## Decimal numerals -/

theorem digitValue?_ten (c : Char) :
    digitValue? 10 c = if c.isDigit then some (c.toNat - 48) else none := by
  unfold digitValue?
  have hlower : c.isLower → 97 ≤ c.toNat := by
    intro h
    simp [Char.isLower] at h
    exact h.1
  have hupper : c.isUpper → 65 ≤ c.toNat := by
    intro h
    simp [Char.isUpper] at h
    exact h.1
  have hdigit : c.isDigit → 48 ≤ c.toNat ∧ c.toNat ≤ 57 := by
    intro h
    simp [Char.isDigit] at h
    exact h
  dsimp only
  split_ifs with h₁ h₂ h₃
  · have := hdigit h₁
    rw [Option.filter_some, if_pos (by simp; omega)]
  · have := hlower h₂
    rw [Option.filter_some, if_neg (by simp; omega)]
  · have := hupper h₃
    rw [Option.filter_some, if_neg (by simp; omega)]
  · rfl

theorem digitValue?_ten_iff {c : Char} {d : Nat} :
    digitValue? 10 c = some d ↔ c.isDigit = true ∧ d = c.toNat - 48 := by
  rw [digitValue?_ten]
  split
  · next h =>
    rw [Option.some.injEq]
    exact ⟨fun hd => ⟨h, hd.symm⟩, fun hd => hd.2.symm⟩
  · next h => exact ⟨nofun, fun hd => absurd hd.1 h⟩

theorem mapM_digitValue?_ten {cs : List Char} {ds : List Nat} :
    cs.mapM (digitValue? 10) = some ds ↔
      (∀ c ∈ cs, c.isDigit = true) ∧ ds = cs.map (·.toNat - 48) := by
  induction cs generalizing ds with
  | nil => exact ⟨fun h => ⟨nofun, (Option.some.inj h).symm⟩, fun h => congrArg some h.2.symm⟩
  | cons c cs ih =>
    simp only [List.mapM_cons, Option.bind_eq_bind, Option.bind_eq_some_iff, Option.pure_def,
      Option.some.injEq, ih, digitValue?_ten_iff, List.forall_mem_cons, List.map_cons]
    constructor
    · rintro ⟨d, ⟨hd, rfl⟩, rest, ⟨hrest, rfl⟩, rfl⟩
      exact ⟨⟨hd, hrest⟩, rfl⟩
    · rintro ⟨⟨hd, hrest⟩, rfl⟩
      exact ⟨_, ⟨hd, rfl⟩, _, ⟨hrest, rfl⟩, rfl⟩

theorem readDigits?_ten_iff {cs : List Char} {n : Nat} :
    readDigits? 10 cs = some n ↔
      cs ≠ [] ∧ (∀ c ∈ cs, c.isDigit = true) ∧ ofDigits 10 (cs.map (·.toNat - 48)) = n := by
  unfold readDigits?
  split
  · next h => simp [h]
  · next h =>
    simp only [Option.map_eq_some_iff, mapM_digitValue?_ten, ne_eq, h, not_false_eq_true, true_and]
    constructor
    · rintro ⟨ds, ⟨hdigits, rfl⟩, hn⟩
      exact ⟨hdigits, hn⟩
    · rintro ⟨hdigits, hn⟩
      exact ⟨_, ⟨hdigits, rfl⟩, hn⟩

/-- A numeral of a number: its decimal digits with any zeros in front, and a plus
sign in front of these or none. -/
def IsNumeral (cs : List Char) (n : Nat) : Prop :=
  ∃ digits, (cs = digits ∨ cs = '+' :: digits) ∧ digits ≠ [] ∧
    (∀ c ∈ digits, c.isDigit = true) ∧ ofDigits 10 (digits.map (·.toNat - 48)) = n

/-- Besides digits only a plus sign is in a numeral. -/
theorem IsNumeral.not_mem {cs : List Char} {n : Nat} (h : IsNumeral cs n) {c : Char}
    (hdigit : c.isDigit = false) (hplus : c ≠ '+') : c ∉ cs := by
  obtain ⟨digits, hcs, -, hdigits, -⟩ := h
  have hfree : c ∉ digits := fun hc => by simp [hdigits c hc] at hdigit
  obtain rfl | rfl := hcs
  · exact hfree
  · simp [hplus, hfree]

theorem readNat?_ten_iff {cs : List Char} {bound n : Nat} :
    readNat? 10 bound cs = some n ↔ IsNumeral cs n ∧ n < bound := by
  unfold readNat? IsNumeral
  split
  · next rest =>
    simp only [Option.filter_eq_some_iff, readDigits?_ten_iff, decide_eq_true_eq]
    refine and_congr_left fun _ => ⟨fun h => ⟨rest, .inr rfl, h⟩, ?_⟩
    rintro ⟨digits, rfl | hcs, h⟩
    · exact absurd (h.2.1 '+' List.mem_cons_self) (by decide)
    · cases hcs
      exact h
  · next hplus =>
    simp only [Option.filter_eq_some_iff, readDigits?_ten_iff, decide_eq_true_eq]
    refine and_congr_left fun _ => ⟨fun h => ⟨cs, .inl rfl, h⟩, ?_⟩
    rintro ⟨digits, rfl | rfl, h⟩
    · exact h
    · exact absurd rfl (hplus digits)

theorem readByte?_ten_iff {cs : List Char} {b : UInt8} :
    readByte? 10 cs = some b ↔ IsNumeral cs b.toNat := by
  simp only [readByte?, Option.map_eq_some_iff, readNat?_ten_iff]
  constructor
  · rintro ⟨n, ⟨hn, hlt⟩, rfl⟩
    rwa [Nat.toUInt8_eq, UInt8.toNat_ofNat_of_lt' hlt]
  · intro h
    exact ⟨b.toNat, ⟨h, b.toNat_lt⟩, by rw [Nat.toUInt8_eq, UInt8.ofNat_toNat]⟩

/-- Without a minus sign an integer is read from a numeral. -/
theorem readInt?_iff {cs : List Char} (hminus : '-' ∉ cs) {bound : Nat} {n : Int} :
    readInt? bound cs = some n ↔ 0 ≤ n ∧ n < bound ∧ IsNumeral cs n.natAbs := by
  unfold readInt?
  split
  · exact absurd List.mem_cons_self hminus
  · simp only [Option.map_eq_some_iff, readNat?_ten_iff]
    constructor
    · rintro ⟨k, ⟨hk, hlt⟩, rfl⟩
      exact ⟨Int.natCast_nonneg k, Int.ofNat_lt.mpr hlt, hk⟩
    · rintro ⟨hn, hlt, h⟩
      exact ⟨n.natAbs, ⟨h, by omega⟩, Int.natAbs_of_nonneg hn⟩

/-! ## First digits -/

/-- Only zero begins with the digit zero. -/
theorem Base.head?_digits (b : Base) {n : Nat} (h : (b.digits n).head? = some 0) : n = 0 := by
  fun_induction digits b n with
  | case1 n hn => simpa using h
  | case2 n hn ih =>
    rw [List.head?_append_of_ne_nil _ (b.digits_ne_nil _)] at h
    have hdiv := (Nat.div_eq_zero_iff).mp (ih h)
    have := b.two_le
    omega

/-- Only the numeral of zero begins with the character of zero. -/
theorem head?_chars_natText {n : Nat} (h : (chars (natText n)).head? = some '0') : n = 0 := by
  rw [natText, Base.text, chars, List.map_map, List.head?_map, Option.map_eq_some_iff] at h
  obtain ⟨d, hd, hzero⟩ := h
  have hlt : d < 10 := Base.decimal.lt_of_mem_digits (List.mem_of_mem_head? hd)
  have hvalue := digitValue?_digitByte (by decide) false hlt
  obtain rfl : 0 = d := by
    rw [Function.comp_apply] at hzero
    rw [hzero] at hvalue
    exact Option.some.inj hvalue
  exact Base.decimal.head?_digits hd

theorem head?_natText {n : Nat} (h : (natText n).head? = some zero) : n = 0 := by
  refine head?_chars_natText ?_
  rw [chars, List.head?_map, h]
  rfl

/-! ## Words in parts -/

/-- A word is what its places stand for, if there are enough of them. -/
theorem ofNat_ofDigits_places {width base count : Nat} (v : BitVec width)
    (h : 2 ^ width ≤ Nat.pow base count) :
    BitVec.ofNat width (ofDigits base (places base count v.toNat)) = v := by
  have hlt : v.toNat < Nat.pow base count := Nat.lt_of_lt_of_le v.isLt h
  rw [ofDigits_places, Nat.mod_eq_of_lt hlt, BitVec.ofNat_toNat, BitVec.setWidth_eq]

/-! ## ASCII -/

theorem toNat_digitByte_lt (upper : Bool) {d : Nat} (h : d < 36) :
    (digitByte upper d).toNat < 0x80 := by
  have key : ∀ upper : Bool, ∀ d : Fin 36, (digitByte upper d).toNat < 0x80 := by decide
  exact key upper ⟨d, h⟩

theorem Base.isAscii_text (b : Base) (upper : Bool) (n : Nat) : IsAscii (b.text upper n) := by
  intro c hc
  obtain ⟨d, hd, rfl⟩ := List.mem_map.mp hc
  exact toNat_digitByte_lt upper (Nat.lt_of_lt_of_le (b.lt_of_mem_digits hd) b.le_max)

theorem isAscii_zeroFilled {text : Bytes} (h : IsAscii text) (k : Nat) :
    IsAscii (zeroFilled k text) := by
  refine isAscii_append.mpr ⟨?_, h⟩
  intro c hc
  rw [List.eq_of_mem_replicate hc]
  decide

theorem isAscii_natText (n : Nat) : IsAscii (natText n) := Base.decimal.isAscii_text false n

/-- The decimal numeral of a number is the one that a natural number has. -/
theorem chars_natText (n : Nat) : chars (natText n) = (toString n).toList := by
  have hdigit : ∀ d : Fin 10, Char.ofUInt8 (digitByte false d) = Nat.digitChar d := by decide
  have hmap : ∀ n, (Base.decimal.digits n).map (fun d => Char.ofUInt8 (digitByte false d)) =
      Nat.toDigits 10 n := by
    intro n
    induction n using Nat.strongRecOn with
    | ind n ih =>
      rw [Nat.toDigits_eq_if (by decide)]
      by_cases hn : n < 10
      · rw [Base.decimal.digits_of_lt hn, if_pos hn]
        exact congrArg (fun c => [c]) (hdigit ⟨n, hn⟩)
      · have hlast := hdigit ⟨n % 10, Nat.mod_lt n (by decide)⟩
        have hfront := ih (n / 10) (by omega)
        rw [Base.decimal.digits_of_le (not_lt.mp hn), if_neg hn, List.map_append, ← hfront]
        exact congrArg (fun c => _ ++ [c]) hlast
  rw [show toString n = n.repr from rfl, Nat.toList_repr, ← hmap, chars, natText, Base.text,
    List.map_map]
  rfl

/-- The decimal numeral of a number with zeros in front. -/
theorem encode_leftpad (k n : Nat) :
    Text.encode (String.leftpad k '0' (toString n)) = zeroFilled k (natText n) := by
  have hascii : IsAscii (zeroFilled k (natText n)) := isAscii_zeroFilled (isAscii_natText n) k
  have hlength : (natText n).length = (toString n).toList.length := by
    rw [← chars_natText, chars, List.length_map]
  have hchars : chars (zeroFilled k (natText n)) = List.leftpad k '0' (toString n).toList := by
    rw [zeroFilled, chars_append, chars_natText, List.leftpad, hlength, chars, List.map_replicate]
    rfl
  rw [String.leftpad, ← hchars, Text.encode_ofList, Text.encodeChars_chars hascii]

theorem encode_toString (n : Nat) : Text.encode (toString n) = natText n := by
  rw [Text.encode, ← chars_natText, Text.encodeChars_chars (isAscii_natText n)]

/-- The places of a number are what is left of it below them, with zeros in
front. -/
theorem Base.map_places (b : Base) (upper : Bool) {count : Nat} (hcount : 0 < count) (n : Nat) :
    (places b.value count n).map (digitByte upper) =
      zeroFilled count (b.text upper (n % b.value ^ count)) := by
  have hpos : 0 < b.value := Nat.lt_of_lt_of_le Nat.two_pos b.two_le
  have hzeros (count : Nat) : places b.value count 0 = List.replicate count 0 := by
    induction count with
    | zero => rfl
    | succ count ih => rw [places, Nat.zero_div, Nat.zero_mod, ih, List.replicate_succ']
  rw [zeroFilled_text]
  congr 1
  induction count generalizing n with
  | zero => exact absurd hcount (Nat.lt_irrefl 0)
  | succ count ih =>
    have hlast : n % b.value ^ (count + 1) % b.value = n % b.value :=
      Nat.mod_mod_of_dvd n (dvd_pow_self b.value count.succ_ne_zero)
    have hfront : n % b.value ^ (count + 1) / b.value = n / b.value % b.value ^ count := by
      rw [pow_succ', Nat.mod_mul_right_div_self]
    rw [places]
    by_cases hone : n % b.value ^ (count + 1) < b.value
    · -- all places but the last are zeros
      have hzero : n / b.value % b.value ^ count = 0 := by
        rw [← hfront, Nat.div_eq_of_lt hone]
      have hplaces : places b.value count (n / b.value) = List.replicate count 0 := by
        rw [← hzeros, ← Nat.div_add_mod (n / b.value) (b.value ^ count), hzero, Nat.add_zero,
          Nat.mul_comm]
        exact places_add_mul hpos count 0 _
      rw [hplaces, b.digits_of_lt hone, ← hlast, Nat.mod_eq_of_lt hone, List.length_singleton,
        Nat.add_sub_cancel]
    · have hrest : 0 < count := by
        rcases Nat.eq_zero_or_pos count with rfl | h
        · rw [Nat.zero_add, Nat.pow_one] at hone
          exact absurd (Nat.mod_lt n hpos) hone
        · exact h
      rw [ih hrest, b.digits_of_le (not_lt.mp hone), hfront, hlast, List.length_append,
        List.length_singleton, Nat.add_sub_add_right, List.append_assoc]

theorem isAscii_hexGroup (upper : Bool) (k n : Nat) : IsAscii (hexGroup upper k n) :=
  isAscii_zeroFilled (Base.hexadecimal.isAscii_text upper n) k

/-- Numbers written by a function and put together with a separator. -/
theorem isAscii_separated_map {separator : Bytes} (hsep : IsAscii separator) {write : Nat → Bytes}
    (h : ∀ n, IsAscii (write n)) (ns : List Nat) :
    IsAscii (separated separator (ns.map write)) := by
  refine isAscii_separated hsep ?_
  intro text htext
  obtain ⟨n, -, rfl⟩ := List.mem_map.mp htext
  exact h n

theorem isAscii_intText (n : Int) : IsAscii (intText n) := by
  unfold intText
  split
  · exact List.forall_mem_cons.mpr ⟨by decide, isAscii_natText _⟩
  · exact isAscii_natText _

end PrintFormat
