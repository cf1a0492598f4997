import Mathlib
import PrintFormat.Numeral
import PrintFormat.Scratch

/-!
The digits of a number: how many there are and what bytes they are written
with. A number below a power of the base has no more digits than the exponent
says, so that a machine word has 64 at most in any base. No digit is written
with the byte of a sign.
-/
namespace PrintFormat

namespace Base

variable (b : Base)

theorem digits_of_lt {n : Nat} (h : n < b.value) : b.digits n = [n] := by
  rw [digits, if_pos h]

theorem digits_of_le {n : Nat} (h : b.value ≤ n) :
    b.digits n = b.digits (n / b.value) ++ [n % b.value] := by
  rw [digits, if_neg (by omega)]

/-- A number below a power of the base has no more digits than that. -/
theorem length_digits_le {n k : Nat} (hk : 0 < k) (h : n < b.value ^ k) :
    (b.digits n).length ≤ k := by
  induction k generalizing n with
  | zero => omega
  | succ k ih =>
    by_cases hn : n < b.value
    · rw [digits_of_lt b hn, List.length_singleton]
      omega
    · have hdiv : n / b.value < b.value ^ k := Nat.div_lt_of_lt_mul (by rwa [← Nat.pow_succ'])
      have hk' : 0 < k := by
        rcases Nat.eq_zero_or_pos k with rfl | hpos
        · rw [Nat.zero_add, Nat.pow_one] at h
          exact absurd h hn
        · exact hpos
      rw [digits_of_le b (by omega), List.length_append, List.length_singleton]
      exact Nat.succ_le_succ (ih hk' hdiv)

/-- A number has enough digits for it. -/
theorem lt_pow_length_digits (n : Nat) : n < b.value ^ (b.digits n).length := by
  fun_induction digits b n with
  | case1 n h => rwa [List.length_singleton, pow_one]
  | case2 n h ih =>
    rw [List.length_append, List.length_singleton, pow_succ]
    exact (Nat.div_lt_iff_lt_mul (Nat.lt_of_lt_of_le Nat.two_pos b.two_le)).mp ih

theorem lt_of_mem_digits {n d : Nat} (h : d ∈ b.digits n) : d < b.value := by
  have hpos : 0 < b.value := Nat.lt_of_lt_of_le Nat.two_pos b.two_le
  fun_induction digits b n with
  | case1 n hn => rwa [List.mem_singleton.mp h]
  | case2 n hn ih =>
    rw [List.mem_append, List.mem_singleton] at h
    obtain h | rfl := h
    · exact ih h
    · exact Nat.mod_lt n hpos

theorem length_text (upper : Bool) (n : Nat) : (b.text upper n).length = (b.digits n).length :=
  List.length_map _

theorem length_text_le (upper : Bool) {n k : Nat} (hk : 0 < k) (h : n < b.value ^ k) :
    (b.text upper n).length ≤ k := by
  rw [length_text]
  exact b.length_digits_le hk h

/-- A word has no more digits than it has bits. -/
theorem length_text_word_le (upper : Bool) (v : BitVec 64) (bits : Nat) :
    (b.text upper (v.setWidth bits).toNat).length ≤ 64 := by
  refine b.length_text_le upper (by decide) ?_
  rw [BitVec.toNat_setWidth]
  calc v.toNat % 2 ^ bits ≤ v.toNat := Nat.mod_le _ _
    _ < 2 ^ 64 := v.isLt
    _ ≤ b.value ^ 64 := Nat.pow_le_pow_left b.two_le 64

end Base

/-! ## Bytes -/

/-- Digits are not written with the bytes of signs. -/
theorem isSign_digitByte (upper : Bool) {d : Nat} (h : d < 36) :
    Scratch.isSign (digitByte upper d) = false := by
  have key : ∀ upper : Bool, ∀ d : Fin 36, Scratch.isSign (digitByte upper d) = false := by decide
  exact key upper ⟨d, h⟩

theorem Base.isSign_head_text (b : Base) (upper : Bool) (n : Nat) :
    ∀ c ∈ (b.text upper n).head?, Scratch.isSign c = false := by
  intro c hc
  obtain ⟨d, hd, rfl⟩ := List.mem_map.mp (List.mem_of_mem_head? hc)
  exact isSign_digitByte upper (Nat.lt_of_lt_of_le (b.lt_of_mem_digits hd) b.le_max)

theorem length_natText_le {n k : Nat} (hk : 0 < k) (h : n < 10 ^ k) : (natText n).length ≤ k :=
  Base.decimal.length_text_le false hk h

/-- A decimal numeral is read back as its number. -/
theorem ofDigits_natText (n : Nat) : ofDigits 10 ((natText n).map fun b => b.toNat - 48) = n := by
  have hdigit : ∀ d ∈ Base.decimal.digits n, (digitByte false d).toNat - 48 = d := by
    intro d hd
    have key : ∀ d : Fin 10, (digitByte false d).toNat - 48 = d := by decide
    exact key ⟨d, Base.decimal.lt_of_mem_digits hd⟩
  have hdigits : (natText n).map (fun b => b.toNat - 48) = Base.decimal.digits n := by
    rw [natText, Base.text, List.map_map]
    exact (List.map_congr_left (g := id) hdigit).trans (List.map_id _)
  rw [hdigits]
  exact ofDigits_digits Base.decimal n

theorem natText_inj {m n : Nat} : natText m = natText n ↔ m = n := by
  constructor
  · intro h
    rw [← ofDigits_natText m, h, ofDigits_natText]
  · intro h
    rw [h]

theorem mem_natText {n : Nat} {b : UInt8} (h : b ∈ natText n) : b ∈ ascii "0123456789" := by
  obtain ⟨d, hd, rfl⟩ := List.mem_map.mp h
  have hdigit : ∀ d : Fin 10, digitByte false d ∈ ascii "0123456789" := by decide +kernel
  exact hdigit ⟨d, Base.decimal.lt_of_mem_digits hd⟩

theorem length_hexGroup {n k : Nat} (upper : Bool) (hk : 0 < k) (h : n < 16 ^ k) :
    (hexGroup upper k n).length = k := by
  have := Base.hexadecimal.length_text_le upper hk h
  rw [hexGroup, length_zeroFilled]
  omega

/-- Places from the highest one on. -/
theorem places_succ (base count n : Nat) :
    places base (count + 1) n = n / base ^ count % base :: places base count n := by
  induction count generalizing n with
  | zero => simp [places]
  | succ count ih =>
    rw [places, ih, Nat.div_div_eq_div_mul, ← pow_succ', List.cons_append]
    rfl

/-- What is above the places does not count. -/
theorem places_add_mul {base : Nat} (hbase : 0 < base) (count n a : Nat) :
    places base count (a * base ^ count + n) = places base count n := by
  induction count generalizing n with
  | zero => rfl
  | succ count ih =>
    have hshift : a * base ^ (count + 1) + n = n + base * (a * base ^ count) := by ring
    rw [places, places, hshift, Nat.add_mul_mod_self_left, Nat.add_mul_div_left _ _ hbase,
      Nat.add_comm, ih]

theorem lt_of_mem_places {base count n d : Nat} (hbase : 0 < base) (h : d ∈ places base count n) :
    d < base := by
  induction count generalizing n with
  | zero => exact absurd h List.not_mem_nil
  | succ count ih =>
    rw [places, List.mem_append, List.mem_singleton] at h
    obtain h | rfl := h
    · exact ih h
    · exact Nat.mod_lt n hbase

end PrintFormat
