import Mathlib
import PrintFormat.Text.Utf8

/-!
UTF-8, both ways. A character's bytes are read back whatever stands behind
them, so a text is what its bytes read to. The other way holds for well-formed
byte strings alone: what such a string reads to has these bytes again. A part
that is no character is lost in reading.
-/
namespace PrintFormat.Text

/-! ### Continuation bytes -/

theorem toNat_continuation (bits : Nat) :
    (CodePoint.continuation bits).toNat = 0x80 + bits % 0x40 := by
  simp only [CodePoint.continuation, Nat.toUInt8_eq, UInt8.toNat_ofNat']
  omega

/-- A byte of the continuation range is the continuation of the bits that it
carries. -/
theorem eq_continuation {b : UInt8} {bits : Nat} (hlow : 0x80 ≤ b.toNat) (hhigh : b.toNat ≤ 0xBF)
    (h : b.toNat % 0x40 = bits % 0x40) : b = CodePoint.continuation bits := by
  rw [← UInt8.toNat_inj, toNat_continuation]
  omega

/-- A byte is given by its number. -/
theorem eq_toUInt8 {b : UInt8} {n : Nat} (h : b.toNat = n) : b = n.toUInt8 := by
  rw [← h, Nat.toUInt8_eq, UInt8.ofNat_toNat]

/-- Bytes followed are one more byte and what follows behind it. -/
theorem follow_succ_eq_some {bits n v : Nat} {low high : UInt8} {text rest : Bytes} :
    follow bits low high (n + 1) text = (some v, rest) ↔
      ∃ b text', text = b :: text' ∧ (low.toNat ≤ b.toNat ∧ b.toNat ≤ high.toNat) ∧
        follow (bits * 0x40 + b.toNat % 0x40) 0x80 0xBF n text' = (some v, rest) := by
  cases text with
  | nil => simp [follow]
  | cons b text' =>
    simp only [follow, UInt8.le_iff_toNat_le]
    split
    · rename_i hb
      constructor
      · exact fun h => ⟨b, text', rfl, hb, h⟩
      · rintro ⟨_, _, hcons, -, h⟩
        obtain ⟨rfl, rfl⟩ := List.cons.inj hcons
        exact h
    · rename_i hb
      constructor
      · simp
      · rintro ⟨_, _, hcons, hb', -⟩
        obtain ⟨rfl, rfl⟩ := List.cons.inj hcons
        exact absurd hb' hb

/-- A continuation byte in its range is followed. -/
theorem follow_continuation {bits n x : Nat} {low high : UInt8} {rest : Bytes}
    (hlow : low.toNat ≤ 0x80 + x % 0x40) (hhigh : 0x80 + x % 0x40 ≤ high.toNat) :
    follow bits low high (n + 1) (CodePoint.continuation x :: rest) =
      follow (bits * 0x40 + x % 0x40) 0x80 0xBF n rest := by
  have hx := toNat_continuation x
  simp only [follow, UInt8.le_iff_toNat_le, hx, hlow, hhigh, and_self, if_true]
  congr 2
  omega

/-! ### Leads -/

namespace Lead

/-- The lead of a character of one byte. -/
def one (b : Nat) : Lead := { following := 0, bits := b }

/-- The lead of a character of two bytes. -/
def two (b : Nat) : Lead := { following := 1, bits := b % 0x20 }

/-- The lead of a character of three bytes. The byte behind 0xE0 leaves out what
two bytes can tell, the byte behind 0xED leaves out surrogates. -/
def three (b : Nat) : Lead where
  following := 2
  low := if b = 0xE0 then 0xA0 else 0x80
  high := if b = 0xED then 0x9F else 0xBF
  bits := b % 0x10

/-- The lead of a character of four bytes. The byte behind 0xF0 leaves out what
three bytes can tell, the byte behind 0xF4 what is beyond Unicode. -/
def four (b : Nat) : Lead where
  following := 3
  low := if b = 0xF0 then 0x90 else 0x80
  high := if b = 0xF4 then 0x8F else 0xBF
  bits := b % 8

/-- The table of leads by ranges. -/
theorem ofByte?_eq (b : UInt8) :
    ofByte? b =
      if b.toNat < 0x80 then some (one b.toNat)
      else if b.toNat < 0xC2 then none
      else if b.toNat < 0xE0 then some (two b.toNat)
      else if b.toNat < 0xF0 then some (three b.toNat)
      else if b.toNat < 0xF5 then some (four b.toNat)
      else none := by
  simp only [ofByte?, UInt8.lt_iff_toNat_lt, ← UInt8.toNat_inj, UInt8.reduceToNat]
  generalize b.toNat = n
  by_cases h1 : n < 0x80
  · rw [if_pos h1, if_pos h1]
    rfl
  by_cases h2 : n < 0xC2
  · rw [if_neg h1, if_neg h1, if_pos h2, if_pos h2]
  by_cases h3 : n < 0xE0
  · rw [if_neg h1, if_neg h1, if_neg h2, if_neg h2, if_pos h3, if_pos h3]
    rfl
  rw [if_neg h1, if_neg h1, if_neg h2, if_neg h2, if_neg h3, if_neg h3]
  by_cases h4 : n < 0xF0
  · rw [if_pos h4]
    by_cases he0 : n = 0xE0
    · subst he0
      rfl
    by_cases hed : n = 0xED
    · subst hed
      rfl
    rw [if_neg he0, if_neg hed, if_pos h4, three, if_neg he0, if_neg hed]
  · have he0 : n ≠ 0xE0 := by omega
    have hed : n ≠ 0xED := by omega
    rw [if_neg he0, if_neg hed, if_neg h4, if_neg h4]
    by_cases hf0 : n = 0xF0
    · subst hf0
      rfl
    by_cases hf4 : n = 0xF4
    · subst hf4
      rfl
    rw [if_neg hf0, if_neg hf4]
    by_cases h5 : n < 0xF4
    · rw [if_pos h5, if_pos (by omega), four, if_neg hf0, if_neg hf4]
    · rw [if_neg h5, if_neg (by omega)]

/-- The bytes that are leads, by the count of bytes of their characters. -/
theorem ofByte?_eq_some {b : UInt8} {lead : Lead} :
    ofByte? b = some lead ↔
      (b.toNat < 0x80 ∧ lead = one b.toNat) ∨
      ((0xC2 ≤ b.toNat ∧ b.toNat < 0xE0) ∧ lead = two b.toNat) ∨
      ((0xE0 ≤ b.toNat ∧ b.toNat < 0xF0) ∧ lead = three b.toNat) ∨
      ((0xF0 ≤ b.toNat ∧ b.toNat < 0xF5) ∧ lead = four b.toNat) := by
  rw [ofByte?_eq]
  constructor
  · intro h
    split_ifs at h with h1 h2 h3 h4 h5
    · exact .inl ⟨h1, (Option.some.inj h).symm⟩
    · exact .inr (.inl ⟨by omega, (Option.some.inj h).symm⟩)
    · exact .inr (.inr (.inl ⟨by omega, (Option.some.inj h).symm⟩))
    · exact .inr (.inr (.inr ⟨by omega, (Option.some.inj h).symm⟩))
  · rintro (⟨h, rfl⟩ | ⟨h, rfl⟩ | ⟨h, rfl⟩ | ⟨h, rfl⟩)
    · rw [if_pos h]
    · rw [if_neg (by omega), if_neg (by omega), if_pos h.2]
    · rw [if_neg (by omega), if_neg (by omega), if_neg (by omega), if_pos h.2]
    · rw [if_neg (by omega), if_neg (by omega), if_neg (by omega), if_neg (by omega), if_pos h.2]

end Lead

/-! ### Characters -/

/-- A character's bytes begin with a lead, and following it reads the
character. -/
theorem follow_encode {n : Nat} (hn : n.isValidChar) (rest : Bytes) :
    ∃ b tail lead, CodePoint.encode n = b :: tail ∧ Lead.ofByte? b = some lead ∧
      follow lead.bits lead.low lead.high lead.following (tail ++ rest) = (some n, rest) := by
  unfold Nat.isValidChar at hn
  unfold CodePoint.encode
  split
  · rename_i h1
    have hb : n.toUInt8.toNat = n := by simp; omega
    refine ⟨_, _, Lead.one n, rfl, ?_, by simp [follow, Lead.one]⟩
    exact Lead.ofByte?_eq_some.mpr (.inl ⟨by omega, by rw [hb]⟩)
  split
  · rename_i h1 h2
    have hb : (0xC0 + n / 0x40).toUInt8.toNat = 0xC0 + n / 0x40 := by simp; omega
    refine ⟨_, _, Lead.two (0xC0 + n / 0x40), rfl, ?_, ?_⟩
    · exact Lead.ofByte?_eq_some.mpr (.inr (.inl ⟨by omega, by rw [hb]⟩))
    · rw [Lead.two, List.cons_append, follow_continuation (by simp) (by simp; omega)]
      simp only [follow, List.nil_append, Prod.mk.injEq, Option.some.injEq, and_true]
      omega
  split
  · rename_i h1 h2 h3
    have hb : (0xE0 + n / 0x1000).toUInt8.toNat = 0xE0 + n / 0x1000 := by simp; omega
    refine ⟨_, _, Lead.three (0xE0 + n / 0x1000), rfl, ?_, ?_⟩
    · exact Lead.ofByte?_eq_some.mpr (.inr (.inr (.inl ⟨by omega, by rw [hb]⟩)))
    · rw [Lead.three, List.cons_append, List.cons_append,
        follow_continuation (by split_ifs <;> simp <;> omega) (by split_ifs <;> simp <;> omega),
        follow_continuation (by simp) (by simp; omega)]
      simp only [follow, List.nil_append, Prod.mk.injEq, Option.some.injEq, and_true]
      omega
  · rename_i h1 h2 h3
    have hb : (0xF0 + n / 0x40000 % 8).toUInt8.toNat = 0xF0 + n / 0x40000 % 8 := by simp; omega
    refine ⟨_, _, Lead.four (0xF0 + n / 0x40000 % 8), rfl, ?_, ?_⟩
    · exact Lead.ofByte?_eq_some.mpr (.inr (.inr (.inr ⟨by omega, by rw [hb]⟩)))
    · rw [Lead.four, List.cons_append, List.cons_append, List.cons_append,
        follow_continuation (by split_ifs <;> simp <;> omega) (by split_ifs <;> simp <;> omega),
        follow_continuation (by simp) (by simp; omega),
        follow_continuation (by simp) (by simp; omega)]
      simp only [follow, List.nil_append, Prod.mk.injEq, Option.some.injEq, and_true]
      omega

/-- What is read by following a lead is a character, and these are its bytes. -/
theorem encode_follow {b : UInt8} {lead : Lead} {text rest : Bytes} {n : Nat}
    (hlead : Lead.ofByte? b = some lead)
    (h : follow lead.bits lead.low lead.high lead.following text = (some n, rest)) :
    n.isValidChar ∧ b :: text = CodePoint.encode n ++ rest := by
  unfold Nat.isValidChar CodePoint.encode
  obtain ⟨hb, rfl⟩ | ⟨hb, rfl⟩ | ⟨hb, rfl⟩ | ⟨hb, rfl⟩ := Lead.ofByte?_eq_some.mp hlead
  · obtain ⟨rfl, rfl⟩ : b.toNat = n ∧ text = rest := by simpa [Lead.one, follow] using h
    refine ⟨by omega, ?_⟩
    rw [if_pos hb, ← eq_toUInt8 rfl]
    rfl
  · obtain ⟨c, _, rfl, hc, h⟩ := follow_succ_eq_some.mp h
    obtain ⟨hn, rfl⟩ : _ = n ∧ _ = rest := by simpa [follow] using h
    simp only [Lead.two, UInt8.reduceToNat] at hc hn
    refine ⟨by omega, ?_⟩
    rw [if_neg (by omega), if_pos (by omega), ← eq_toUInt8 (b := b) (by omega),
      ← eq_continuation (b := c) hc.1 hc.2 (by omega)]
    rfl
  · obtain ⟨c, _, rfl, hc, h⟩ := follow_succ_eq_some.mp h
    obtain ⟨d, _, rfl, hd, h⟩ := follow_succ_eq_some.mp h
    obtain ⟨hn, rfl⟩ : _ = n ∧ _ = rest := by simpa [follow] using h
    simp only [Lead.three, UInt8.reduceToNat] at hc hd hn
    -- behind two of the leads the next byte has a narrower range
    have hc' : (0x80 ≤ c.toNat ∧ c.toNat ≤ 0xBF) ∧ (b.toNat = 0xE0 → 0xA0 ≤ c.toNat) ∧
        (b.toNat = 0xED → c.toNat ≤ 0x9F) := by
      split_ifs at hc <;> simp only [UInt8.reduceToNat] at hc <;> omega
    refine ⟨by omega, ?_⟩
    rw [if_neg (by omega), if_neg (by omega), if_pos (by omega),
      ← eq_toUInt8 (b := b) (by omega),
      ← eq_continuation (b := c) hc'.1.1 hc'.1.2 (by omega),
      ← eq_continuation (b := d) hd.1 hd.2 (by omega)]
    rfl
  · obtain ⟨c, _, rfl, hc, h⟩ := follow_succ_eq_some.mp h
    obtain ⟨d, _, rfl, hd, h⟩ := follow_succ_eq_some.mp h
    obtain ⟨e, _, rfl, he, h⟩ := follow_succ_eq_some.mp h
    obtain ⟨hn, rfl⟩ : _ = n ∧ _ = rest := by simpa [follow] using h
    simp only [Lead.four, UInt8.reduceToNat] at hc hd he hn
    have hc' : (0x80 ≤ c.toNat ∧ c.toNat ≤ 0xBF) ∧ (b.toNat = 0xF0 → 0x90 ≤ c.toNat) ∧
        (b.toNat = 0xF4 → c.toNat ≤ 0x8F) := by
      split_ifs at hc <;> simp only [UInt8.reduceToNat] at hc <;> omega
    refine ⟨by omega, ?_⟩
    rw [if_neg (by omega), if_neg (by omega), if_neg (by omega),
      ← eq_toUInt8 (b := b) (by omega),
      ← eq_continuation (b := c) hc'.1.1 hc'.1.2 (by omega),
      ← eq_continuation (b := d) hd.1 hd.2 (by omega),
      ← eq_continuation (b := e) he.1 he.2 (by omega)]
    rfl

/-! ### Texts -/

/-- A character in front of any bytes is read, and they are read behind it. -/
theorem decodeParts_encode (c : Char) (rest : Bytes) :
    decodeParts (CodePoint.encode c.toNat ++ rest) = some c :: decodeParts rest := by
  obtain ⟨b, tail, lead, hencode, hlead, hfollow⟩ := follow_encode c.valid rest
  have hc : c.toNat = c.val.toNat := rfl
  rw [hc, hencode, List.cons_append, decodeParts, hlead]
  simp only [hfollow, Option.map_some, ← hc, Char.ofNat_toNat]

theorem decodeParts_encodeChars (cs : List Char) :
    decodeParts (encodeChars cs) = cs.map some := by
  induction cs with
  | nil => rw [encodeChars, List.flatMap_nil, decodeParts, List.map_nil]
  | cons c cs ih =>
    rw [encodeChars, List.flatMap_cons, decodeParts_encode, ← encodeChars, ih, List.map_cons]

/-- Bytes that read to characters, without a part that is none, are the bytes
of these. -/
theorem encodeChars_of_decodeParts {text : Bytes} {cs : List Char}
    (h : decodeParts text = cs.map some) : encodeChars cs = text := by
  fun_induction decodeParts text generalizing cs with
  | case1 =>
    obtain rfl : cs = [] := by simpa using h.symm
    rfl
  | case2 b rest hlead ih => cases cs <;> simp at h
  | case3 b rest lead hlead read =>
    rename_i ih
    cases cs with
    | nil => simp at h
    | cons c cs =>
      rw [List.map_cons, List.cons.injEq, Option.map_eq_some_iff] at h
      obtain ⟨⟨n, hn, rfl⟩, hrest⟩ := h
      obtain ⟨hvalid, hencode⟩ := encode_follow hlead (Prod.ext hn rfl)
      have hn : (Char.ofNat n).toNat = n := by rw [Char.toNat_ofNat, if_pos hvalid]
      rw [encodeChars, List.flatMap_cons, ← encodeChars, ih hrest, hn, hencode]

/-- Options are all there with certain values. -/
theorem mapM_id_eq_some {α : Type} {xs : List (Option α)} {ys : List α} :
    xs.mapM id = some ys ↔ xs = ys.map some := by
  induction xs generalizing ys with
  | nil => cases ys <;> simp
  | cons x xs ih =>
    cases x with
    | none => cases ys <;> simp
    | some x => cases ys <;> simp [Option.bind_eq_some_iff, ih, and_comm]

/-- A byte string reads to a text exactly if it is the text's bytes. -/
theorem decode?_eq_some {text : Bytes} {s : String} : decode? text = some s ↔ text = encode s := by
  simp only [decode?, Option.map_eq_some_iff, mapM_id_eq_some]
  constructor
  · rintro ⟨cs, hcs, rfl⟩
    rw [encode, String.toList_ofList, encodeChars_of_decodeParts hcs]
  · rintro rfl
    exact ⟨s.toList, decodeParts_encodeChars s.toList, String.ofList_toList⟩

/-- A text comes back from its bytes, also through a reading that replaces
what is not well-formed. -/
@[simp] theorem decodeLossy_encode (s : String) : decodeLossy (encode s) = s := by
  simp [decodeLossy, encode, decodeParts_encodeChars]

theorem encode_injective : Function.Injective encode :=
  Function.LeftInverse.injective decodeLossy_encode

/-! ### The standard encoding -/

/-- The bytes of a character are its UTF-8. -/
theorem encode_toNat (c : Char) : CodePoint.encode c.toNat = String.utf8EncodeChar c := by
  have hvalid := c.valid
  have hn : c.toNat = c.val.toNat := rfl
  unfold CodePoint.encode String.utf8EncodeChar CodePoint.continuation
  unfold UInt32.isValidChar Nat.isValidChar at hvalid
  rw [hn]
  generalize c.val.toNat = n at hvalid
  simp only [Nat.toUInt8_eq]
  by_cases h1 : n < 0x80
  · rw [if_pos h1, if_pos (by omega)]
  by_cases h2 : n < 0x800
  · rw [if_neg h1, if_pos h2, if_neg (by omega), if_pos (by omega)]
    simp only [List.cons.injEq, and_true]
    exact ⟨congrArg UInt8.ofNat (by omega), congrArg UInt8.ofNat (by omega)⟩
  by_cases h3 : n < 0x10000
  · rw [if_neg h1, if_neg h2, if_pos h3, if_neg (by omega), if_neg (by omega), if_pos (by omega)]
    simp only [List.cons.injEq, and_true]
    exact ⟨congrArg UInt8.ofNat (by omega), congrArg UInt8.ofNat (by omega),
      congrArg UInt8.ofNat (by omega)⟩
  · rw [if_neg h1, if_neg h2, if_neg h3, if_neg (by omega), if_neg (by omega), if_neg (by omega)]
    simp only [List.cons.injEq, and_true]
    exact ⟨congrArg UInt8.ofNat (by omega), congrArg UInt8.ofNat (by omega),
      congrArg UInt8.ofNat (by omega), congrArg UInt8.ofNat (by omega)⟩

/-- The bytes of a text are its UTF-8. -/
theorem encode_eq_toUTF8 (s : String) : encode s = s.toUTF8.data.toList := by
  have hchars : encodeChars s.toList = s.toList.flatMap String.utf8EncodeChar := by
    simp only [encodeChars, encode_toNat]
  rw [encode, hchars, String.toUTF8, ← String.utf8Encode_toList, List.utf8Encode,
    List.data_toByteArray, List.toList_toArray]

end PrintFormat.Text
