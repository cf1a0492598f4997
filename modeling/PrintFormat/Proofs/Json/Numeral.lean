import PrintFormat.Json.Number
import PrintFormat.Proofs.Numeral.Reading

/-!
Numerals read back. A numeral is taken off a text as it was written if the text
behind it does not go on with a digit, a point or an exponent (`Stops`). Integers
of 64 bits mean what they were written for: the digits of one are absorbed to the
last.
-/
namespace PrintFormat.Json

/-! ## Digits -/

theorem isDigit_digitChar (d : Fin 10) : (digitChar d).isDigit = true := by
  revert d
  decide

theorem digitOf_digitChar (d : Fin 10) : digitOf (digitChar d) = d := by
  revert d
  decide

/-- The decimal digits of a number. -/
def decimalDigits (n : Nat) : List (Fin 10) := (Base.decimal.digits n).map decimalDigit

theorem map_val_decimalDigits (n : Nat) : (decimalDigits n).map Fin.val = Base.decimal.digits n := by
  rw [decimalDigits, List.map_map]
  refine (List.map_congr_left fun d hd => ?_).trans (List.map_id _)
  exact Nat.mod_eq_of_lt (Base.decimal.lt_of_mem_digits hd)

theorem digitsText_eq (n : Nat) :
    digitsText n = (decimalDigits n).map fun (d : Fin 10) => digitChar d.val := by
  rw [digitsText, ← map_val_decimalDigits, List.map_map]
  rfl

theorem decimalDigits_ne_nil (n : Nat) : decimalDigits n ≠ [] := by
  rw [decimalDigits, Ne, List.map_eq_nil_iff]
  exact Base.decimal.digits_ne_nil n

/-- Each character of a number's digits is a digit. -/
theorem isDigit_digitsText (n : Nat) : ∀ c ∈ digitsText n, c.isDigit = true := by
  intro c hc
  rw [digitsText_eq] at hc
  obtain ⟨d, -, rfl⟩ := List.mem_map.mp hc
  exact isDigit_digitChar d

namespace Numeral

theorem digitsValue_decimalDigits (n : Nat) : digitsValue (decimalDigits n) = n := by
  rw [digitsValue, map_val_decimalDigits]
  exact ofDigits_digits Base.decimal n

/-! ## Reading -/

/-- A text does not go on with a digit. -/
def NoDigitFront (rest : List Char) : Prop := ∀ c ∈ rest.head?, c.isDigit = false

/-- A text does not go on with what a numeral could go on with. -/
def Stops (rest : List Char) : Prop :=
  ∀ c ∈ rest.head?, c.isDigit = false ∧ c ≠ '.' ∧ c ≠ 'e' ∧ c ≠ 'E'

theorem stops_nil : Stops [] := nofun

theorem stops_cons {c : Char} (h : c.isDigit = false ∧ c ≠ '.' ∧ c ≠ 'e' ∧ c ≠ 'E')
    (rest : List Char) : Stops (c :: rest) := by
  intro d hd
  cases hd
  exact h

theorem Stops.noDigitFront {rest : List Char} (h : Stops rest) : NoDigitFront rest :=
  fun c hc => (h c hc).1

theorem takeDigits_append (ds : List (Fin 10)) {rest : List Char} (h : NoDigitFront rest) :
    takeDigits ((ds.map fun (d : Fin 10) => digitChar d.val) ++ rest) = (ds, rest) := by
  have hall : ∀ c ∈ ds.map (fun (d : Fin 10) => digitChar d.val), c.isDigit = true := by
    intro c hc
    obtain ⟨d, -, rfl⟩ := List.mem_map.mp hc
    exact isDigit_digitChar d
  have hdigits : (ds.map fun (d : Fin 10) => digitChar d.val).map digitOf = ds := by
    rw [List.map_map]
    refine (List.map_congr_left fun d _ => ?_).trans (List.map_id _)
    exact digitOf_digitChar d
  have hrest : rest.takeWhile Char.isDigit = [] ∧ rest.dropWhile Char.isDigit = rest := by
    cases rest with
    | nil => simp
    | cons c rest => simp [h c rfl]
  rw [takeDigits, List.takeWhile_append_of_pos hall, List.dropWhile_append_of_pos hall, hrest.1,
    hrest.2, List.append_nil, hdigits]

theorem takeWhole?_append (n : Nat) {rest : List Char} (h : NoDigitFront rest) :
    takeWhole? (digitsText n ++ rest) = some (n, rest) := by
  have htaken := takeDigits_append (decimalDigits n) h
  rw [← digitsText_eq] at htaken
  cases hd : Base.decimal.digits n with
  | nil => exact absurd hd (Base.decimal.digits_ne_nil n)
  | cons d ds =>
    have hlt : d < 10 := Base.decimal.lt_of_mem_digits (hd ▸ List.mem_cons_self)
    have htext : digitsText n = digitChar d :: ds.map digitChar := by rw [digitsText, hd]; rfl
    have hdigit : (digitChar d).isDigit = true := isDigit_digitChar ⟨d, hlt⟩
    by_cases hzero : digitChar d = '0'
    · -- a number that begins with a zero is zero
      have hd0 : d = 0 := by
        have key : ∀ d : Fin 10, digitChar d = '0' → d.val = 0 := by decide
        exact key ⟨d, hlt⟩ hzero
      have hn : n = 0 := Base.decimal.head?_digits (by rw [hd, hd0]; rfl)
      obtain ⟨-, rfl⟩ : d = 0 ∧ ds = [] := by
        rw [hn, Base.digits_of_lt _ (by decide)] at hd
        exact ⟨hd0, (List.cons.inj hd).2.symm⟩
      rw [htext, List.cons_append, takeWhole?, if_pos hzero, hn]
      rfl
    · rw [htext, List.cons_append] at htaken ⊢
      simp only [takeWhole?, hzero, if_false, hdigit, if_true, htaken, digitsValue_decimalDigits]

theorem takeFraction?_append (ds : List (Fin 10)) {rest : List Char} (h : NoDigitFront rest)
    (hpoint : ∀ c ∈ rest.head?, c ≠ '.') :
    takeFraction? (fractionText ds ++ rest) = some (ds, rest) := by
  unfold fractionText
  by_cases hds : ds = []
  · rw [if_pos hds, List.nil_append, hds]
    cases rest with
    | nil => rfl
    | cons c rest => rw [takeFraction?, if_neg (hpoint c rfl)]
  · rw [if_neg hds, List.cons_append, takeFraction?, if_pos rfl]
    simp only [takeDigits_append ds h, hds, if_false]

theorem takeExponent?_append (e : Option Int) {rest : List Char} (h : Stops rest) :
    takeExponent? (exponentText e ++ rest) = some (e, rest) := by
  cases e with
  | none =>
    rw [exponentText, List.nil_append]
    cases rest with
    | nil => rfl
    | cons c rest =>
      have hc := h c rfl
      rw [takeExponent?, if_neg (by simp [hc.2.2])]
  | some e =>
    have htaken := takeDigits_append (decimalDigits e.natAbs) h.noDigitFront
    rw [← digitsText_eq] at htaken
    rw [exponentText, List.cons_append, takeExponent?, if_pos (.inl rfl), List.cons_append]
    by_cases he : e < 0
    · simp only [he, if_true, takeSign, htaken, decimalDigits_ne_nil, if_false,
        digitsValue_decimalDigits]
      congr 3
      omega
    · have hplus : ¬ ('+' : Char) = '-' := by decide
      simp only [he, if_false, takeSign, hplus, if_true, htaken, decimalDigits_ne_nil,
        digitsValue_decimalDigits, Bool.false_eq_true]
      congr 3
      omega

/-- Behind the digits of a numeral neither a digit nor a point goes on. -/
theorem noDigitFront_exponentText (e : Option Int) {rest : List Char} (h : Stops rest) :
    NoDigitFront (exponentText e ++ rest) ∧ ∀ c ∈ (exponentText e ++ rest).head?, c ≠ '.' := by
  cases e with
  | none => exact ⟨h.noDigitFront, fun c hc => (h c hc).2.1⟩
  | some e => simp [exponentText, NoDigitFront]

theorem noDigitFront_fractionText (ds : List (Fin 10)) {rest : List Char} (h : NoDigitFront rest) :
    NoDigitFront (fractionText ds ++ rest) := by
  unfold fractionText
  split
  · exact h
  · simp [NoDigitFront]

/-- Digits do not begin with a minus sign. -/
theorem head?_digitsText_ne (n : Nat) (rest : List Char) :
    (digitsText n ++ rest).head? ≠ some '-' := by
  intro hhead
  have hne : digitsText n ≠ [] := by
    rw [digitsText_eq, Ne, List.map_eq_nil_iff]
    exact decimalDigits_ne_nil n
  rw [List.head?_append_of_ne_nil _ hne] at hhead
  exact absurd (isDigit_digitsText n '-' (List.mem_of_mem_head? hhead)) (by decide)

/-- A numeral is taken off a text that does not go on with one. -/
theorem take?_text (n : Numeral) {rest : List Char} (h : Stops rest) :
    take? (n.text ++ rest) = some (n, rest) := by
  obtain ⟨hdigit, hpoint⟩ := noDigitFront_exponentText n.exponent h
  have hwhole := takeWhole?_append n.whole (noDigitFront_fractionText n.fraction hdigit)
  have hfraction := takeFraction?_append n.fraction hdigit hpoint
  have hexponent := takeExponent?_append n.exponent h
  have hhead := head?_digitsText_ne n.whole
    (fractionText n.fraction ++ (exponentText n.exponent ++ rest))
  obtain ⟨negative, whole, fraction, exponent⟩ := n
  simp only [text, List.append_assoc] at *
  cases negative with
  | true =>
    simp only [take?, if_true, List.cons_append, List.nil_append, List.head?_cons, List.tail_cons,
      decide_true, hwhole, hfraction, hexponent, Option.bind_eq_bind, Option.bind_some]
    rfl
  | false =>
    simp only [take?, Bool.false_eq_true, if_false, List.nil_append, hhead, decide_false, hwhole,
      hfraction, hexponent, Option.bind_eq_bind, Option.bind_some]
    rfl

/-! ## Fronts -/

/-- A numeral begins with a digit or a minus sign. -/
theorem exists_front (n : Numeral) :
    ∃ c tail, n.text = c :: tail ∧ (c.isDigit = true ∨ c = '-') := by
  cases hn : n.negative with
  | true => exact ⟨'-', _, by rw [text, hn]; rfl, .inr rfl⟩
  | false =>
    cases hd : digitsText n.whole with
    | nil =>
      rw [digitsText_eq, List.map_eq_nil_iff] at hd
      exact absurd hd (decimalDigits_ne_nil n.whole)
    | cons c tail =>
      refine ⟨c, _, by rw [text, hn, hd]; rfl, .inl ?_⟩
      exact isDigit_digitsText n.whole c (hd ▸ List.mem_cons_self)

theorem not_control_of_isDigit {c : Char} (h : c.isDigit = true) : 0x20 ≤ c.toNat := by
  simp only [Char.isDigit, Bool.and_eq_true, decide_eq_true_eq, UInt32.le_iff_toNat_le] at h
  have hlow : (48 : Nat) ≤ c.toNat := h.1
  omega

/-- No control character is written. -/
theorem not_control_text (n : Numeral) : ∀ c ∈ n.text, 0x20 ≤ c.toNat := by
  have hdigits (m : Nat) : ∀ c ∈ digitsText m, 0x20 ≤ c.toNat :=
    fun c hc => not_control_of_isDigit (isDigit_digitsText m c hc)
  have hfraction : ∀ c ∈ fractionText n.fraction, 0x20 ≤ c.toNat := by
    unfold fractionText
    split
    · simp
    · intro c hc
      rcases List.mem_cons.mp hc with rfl | hc
      · simp
      · obtain ⟨d, -, rfl⟩ := List.mem_map.mp hc
        exact not_control_of_isDigit (isDigit_digitChar d)
  have hexponent : ∀ c ∈ exponentText n.exponent, 0x20 ≤ c.toNat := by
    cases n.exponent with
    | none => simp [exponentText]
    | some e =>
      intro c hc
      simp only [exponentText, List.mem_cons] at hc
      rcases hc with rfl | rfl | hc
      · simp
      · split <;> simp
      · exact hdigits _ c hc
  intro c hc
  simp only [text, List.mem_append] at hc
  rcases hc with ((hc | hc) | hc) | hc
  · split at hc
    · rw [List.mem_singleton.mp hc]
      simp
    · simp at hc
  · exact hdigits _ c hc
  · exact hfraction c hc
  · exact hexponent c hc

/-! ## Integers -/

/-- Digits of a number that fits a word are absorbed. -/
theorem absorb_eq {ds : List Nat} {n : Nat}
    (h : ds.foldl (fun n d => n * 10 + d) n < UInt64.size) :
    absorb n ds = (ds.foldl (fun n d => n * 10 + d) n, []) := by
  induction ds generalizing n with
  | nil => rfl
  | cons d ds ih =>
    have hgrow : ∀ (ds : List Nat) (m : Nat), m ≤ ds.foldl (fun n d => n * 10 + d) m := by
      intro ds
      induction ds with
      | nil => exact fun m => Nat.le_refl m
      | cons e ds ih =>
        intro m
        have := ih (m * 10 + e)
        rw [List.foldl_cons]
        omega
    have hfits : n * 10 + d < UInt64.size := Nat.lt_of_le_of_lt (hgrow ds (n * 10 + d)) h
    rw [absorb, if_pos hfits]
    exact ih h

/-- An integer of 64 bits, with or without sign, is what its numeral means. -/
theorem value?_ofInt {n : Int} (hlow : -0x8000000000000000 ≤ n) (hhigh : n < 0x10000000000000000) :
    (ofInt n).value? = some (.integer n) := by
  have hvalue : (Base.decimal.digits n.natAbs).foldl (fun n d => n * 10 + d) 0 = n.natAbs :=
    ofDigits_digits Base.decimal n.natAbs
  have hsize : UInt64.size = 0x10000000000000000 := rfl
  have habsorb := absorb_eq (by rw [hvalue]; omega)
  rw [hvalue] at habsorb
  have hnil : absorb n.natAbs [] = (n.natAbs, []) := rfl
  simp only [value?, ofInt, habsorb, List.map_nil, hnil, and_self, if_true]
  by_cases hn : n < 0
  · have hrange : 0 < n.natAbs ∧ n.natAbs ≤ 0x8000000000000000 := by omega
    simp only [hn, decide_true, Bool.not_true, Bool.false_eq_true, if_false, hrange, and_self,
      if_true]
    congr 2
    omega
  · simp only [hn, decide_false, Bool.not_false, if_true]
    congr 2
    omega

end Numeral
end PrintFormat.Json
