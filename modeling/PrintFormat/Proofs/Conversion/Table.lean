import Mathlib
import PrintFormat.Conversion
import PrintFormat.Directive.Spelling

/-!
The conversion of a directive by its bytes. A class of conversions that leaves
out the percent sign is, among directives, a class of conversion bytes for each
mode, if it is one in the table of that mode (`Spelling.conversion_in_iff`).
-/
namespace PrintFormat.Spelling

/-- The conversion byte is one of a text. -/
def IsOneOf (s : Spelling) (bytes : String) : Prop := ∃ b ∈ ascii bytes, s.conversion = some b

instance (s : Spelling) (bytes : String) : Decidable (s.IsOneOf bytes) :=
  inferInstanceAs (Decidable (∃ b ∈ ascii bytes, s.conversion = some b))

theorem isOneOf_iff {s : Spelling} {b : UInt8} (hb : s.conversion = some b) {bytes : String} :
    s.IsOneOf bytes ↔ b ∈ ascii bytes := by
  constructor
  · rintro ⟨b', hmem, hb'⟩
    rw [hb, Option.some.injEq] at hb'
    exact hb' ▸ hmem
  · exact fun hmem => ⟨b, hmem, hb⟩

theorem conversion?_directive (s : Spelling) :
    s.directive.conversion? = s.conversion.bind fun b =>
      if b = percent then some .percentSign
      else if s.bang then (Extended.ofByte? b).map .extended
      else (Standard.ofByte? b).map .standard := rfl

theorem conversion?_of_extended {s : Spelling} {b : UInt8} {c : Extended} (hbang : s.bang = true)
    (hb : s.conversion = some b) (hc : Extended.ofByte? b = some c) :
    s.directive.conversion? = some (.extended c) := by
  have hne : b ≠ percent := by
    rintro rfl
    cases hc
  simp [conversion?_directive, hb, hbang, hne, hc]

theorem conversion?_of_standard {s : Spelling} {b : UInt8} {c : Standard} (hbang : s.bang = false)
    (hb : s.conversion = some b) (hc : Standard.ofByte? b = some c) :
    s.directive.conversion? = some (.standard c) := by
  have hne : b ≠ percent := by
    rintro rfl
    cases hc
  simp [conversion?_directive, hb, hbang, hne, hc]

theorem conversion?_eq_extended_iff {s : Spelling} {c : Extended} :
    s.directive.conversion? = some (.extended c) ↔
      s.bang = true ∧ ∃ b, s.conversion = some b ∧ Extended.ofByte? b = some c := by
  refine ⟨fun h => ?_, fun ⟨hbang, b, hb, hc⟩ => conversion?_of_extended hbang hb hc⟩
  obtain ⟨b, hb, h⟩ := Option.bind_eq_some_iff.mp h
  split_ifs at h with hpercent hbang
  · cases h
  · obtain ⟨k, hk, hkc⟩ := Option.map_eq_some_iff.mp h
    exact ⟨hbang, b, hb, Conversion.extended.inj hkc ▸ hk⟩
  · obtain ⟨k, -, hkc⟩ := Option.map_eq_some_iff.mp h
    nomatch hkc

theorem conversion?_eq_standard_iff {s : Spelling} {c : Standard} :
    s.directive.conversion? = some (.standard c) ↔
      s.bang = false ∧ ∃ b, s.conversion = some b ∧ Standard.ofByte? b = some c := by
  refine ⟨fun h => ?_, fun ⟨hbang, b, hb, hc⟩ => conversion?_of_standard hbang hb hc⟩
  obtain ⟨b, hb, h⟩ := Option.bind_eq_some_iff.mp h
  split_ifs at h with hpercent hbang
  · cases h
  · obtain ⟨k, -, hkc⟩ := Option.map_eq_some_iff.mp h
    nomatch hkc
  · obtain ⟨k, hk, hkc⟩ := Option.map_eq_some_iff.mp h
    exact ⟨Bool.eq_false_iff.mpr hbang, b, hb, Conversion.standard.inj hkc ▸ hk⟩

theorem conversion_in_iff {P : Conversion → Prop} {standard extended : Bytes}
    (hpercent : ¬ P .percentSign)
    (hstandard : ∀ b, (∃ c, Standard.ofByte? b = some c ∧ P (.standard c)) ↔ b ∈ standard)
    (hextended : ∀ b, (∃ c, Extended.ofByte? b = some c ∧ P (.extended c)) ↔ b ∈ extended)
    (s : Spelling) :
    (∃ c, s.directive.conversion? = some c ∧ P c) ↔
      ∃ b, s.conversion = some b ∧ b ∈ if s.bang then extended else standard := by
  constructor
  · rintro ⟨c, hc, hP⟩
    cases c with
    | percentSign => exact absurd hP hpercent
    | standard c =>
      obtain ⟨hbang, b, hb, hk⟩ := conversion?_eq_standard_iff.mp hc
      refine ⟨b, hb, ?_⟩
      rw [hbang, if_neg Bool.false_ne_true]
      exact (hstandard b).mp ⟨c, hk, hP⟩
    | extended c =>
      obtain ⟨hbang, b, hb, hk⟩ := conversion?_eq_extended_iff.mp hc
      refine ⟨b, hb, ?_⟩
      rw [hbang, if_pos rfl]
      exact (hextended b).mp ⟨c, hk, hP⟩
  · rintro ⟨b, hb, hmem⟩
    cases hbang : s.bang with
    | true =>
      rw [hbang, if_pos rfl] at hmem
      obtain ⟨c, hc, hP⟩ := (hextended b).mpr hmem
      exact ⟨.extended c, conversion?_of_extended hbang hb hc, hP⟩
    | false =>
      rw [hbang, if_neg Bool.false_ne_true] at hmem
      obtain ⟨c, hc, hP⟩ := (hstandard b).mpr hmem
      exact ⟨.standard c, conversion?_of_standard hbang hb hc, hP⟩

end PrintFormat.Spelling
