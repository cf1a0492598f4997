import PrintFormat.Proofs.Directive.Grammar
import PrintFormat.Proofs.Render.Verbatim

/-!
Recognized directives as they are written. The conversion byte of such a
directive is no part of what can stand in front of it, so that every part ends
where the next one begins. Hence `Spelling.Recognized.read_text_iff`: a
recognized directive is read as it is written exactly if its parts are made of
their own bytes and the digits of its width do not open with a zero, which is a
flag there.
-/
namespace PrintFormat.Spelling

/-- The conversion byte is in the table of the mode. -/
def Recognized (s : Spelling) : Prop := ∃ b ∈ conversionBytes s.bang, s.conversion = some b

instance (s : Spelling) : Decidable s.Recognized :=
  inferInstanceAs (Decidable (∃ b ∈ conversionBytes s.bang, s.conversion = some b))

theorem recognized_iff (s : Spelling) :
    s.Recognized ↔ ∃ c, s.directive.conversion? = some c := by
  rw [← Option.isSome_iff_exists, Option.isSome_iff_ne_none, Ne, ← unrecognized_iff, Unrecognized,
    Recognized]
  push Not
  exact exists_congr fun b => and_comm

/-- Parts that are made of the bytes that may stand there. -/
structure WellFormed (s : Spelling) : Prop where
  caret : s.bang = false → s.caret = false
  widthFlags : ∀ b ∈ s.widthFlags, b ∈ ascii "-+ #*0"
  widthDigits : ∀ b ∈ s.widthDigits, b ∈ ascii "0123456789"
  leadingDigit : s.widthDigits.head? ≠ some zero
  precisionFlags : ∀ b ∈ s.precisionFlags, b ∈ ascii "-+ #*"
  precisionDigits : ∀ b ∈ s.precisionDigits, b ∈ ascii "0123456789"

theorem Greedy.wellFormed {s : Spelling} {behind : Bytes} (h : s.Greedy behind) :
    s.WellFormed where
  caret hbang := by
    have hcaret := h.caret
    rwa [hbang, if_neg Bool.false_ne_true] at hcaret
  widthFlags := h.widthFlags.all
  widthDigits := h.widthDigits.all
  leadingDigit hzero := by
    refine h.widthFlags.ends zero ?_ (by decide)
    rw [List.head?_append, hzero]
    rfl
  precisionFlags := by
    have hends := h.precision
    unfold precisionFlags
    cases hs : s.precision with
    | none => exact nofun
    | some side =>
      rw [hs] at hends
      exact hends.1.all
  precisionDigits := by
    have hends := h.precision
    unfold precisionDigits
    cases hs : s.precision with
    | none => exact nofun
    | some side =>
      rw [hs] at hends
      exact hends.2.all

/-! ## What stands behind a part -/

namespace Recognized

variable {s : Spelling} (hs : s.Recognized)

include hs

/-- A conversion byte is none of the bytes that stand in front of it. -/
theorem conversion_eq : ∃ c, s.conversion = some c ∧ c ∉ ascii "-+ #*0123456789!^.hlLq" := by
  obtain ⟨c, hc, hconversion⟩ := hs
  have key : ∀ extended, ∀ c ∈ conversionBytes extended,
      c ∉ ascii "-+ #*0123456789!^.hlLq" := by decide +kernel
  exact ⟨c, hconversion, key _ c hc⟩

theorem head_behindPrecision (behind : Bytes) :
    ∀ b ∈ (s.behindPrecision behind).head?, b ∉ ascii "-+ #*0123456789!^." := by
  obtain ⟨c, hconversion, hc⟩ := hs.conversion_eq
  unfold behindPrecision behindModifier
  cases s.modifier with
  | some m => cases m <;> (rintro b ⟨⟩; decide)
  | none =>
    rw [hconversion]
    rintro b ⟨⟩ hb
    have hsub : ascii "-+ #*0123456789!^." ⊆ ascii "-+ #*0123456789!^.hlLq" := by decide +kernel
    exact hc (hsub hb)

theorem head_behindWidth (behind : Bytes) :
    ∀ b ∈ (s.behindWidth behind).head?, b ∉ ascii "-+ #*0123456789!^" := by
  have hrest := hs.head_behindPrecision behind
  unfold behindWidth
  cases s.precision with
  | some side =>
    rintro b ⟨⟩
    decide
  | none =>
    have hsub : ascii "-+ #*0123456789!^" ⊆ ascii "-+ #*0123456789!^." := by decide +kernel
    exact fun b hb h => hrest b hb (hsub h)

end Recognized

/-- Behind the mode stands no other mark of a mode. -/
theorem WellFormed.head_behindMode {s : Spelling} (h : s.WellFormed) (hs : s.Recognized)
    (behind : Bytes) : ∀ b ∈ (s.behindMode behind).head?, b ≠ 33 ∧ b ≠ 94 := by
  intro b hb
  have hflags : ∀ b ∈ ascii "-+ #*0", b ≠ 33 ∧ b ≠ 94 := by decide +kernel
  have hdigits : ∀ b ∈ ascii "0123456789", b ≠ 33 ∧ b ≠ 94 := by decide +kernel
  rw [behindMode, List.head?_append, Option.mem_def, Option.or_eq_some_iff] at hb
  obtain hb | ⟨-, hb⟩ := hb
  · exact hflags b (h.widthFlags b (List.mem_of_mem_head? hb))
  rw [List.head?_append, Option.or_eq_some_iff] at hb
  obtain hb | ⟨-, hb⟩ := hb
  · exact hdigits b (h.widthDigits b (List.mem_of_mem_head? hb))
  · have hbyte := hs.head_behindWidth behind b hb
    refine ⟨?_, ?_⟩ <;> (rintro rfl; exact hbyte (by decide))

/-- No length modifier goes on with a conversion byte. -/
theorem isLongest_of_not_mem {c : UInt8} (hc : c ∉ ascii "hlLq") (modifier : Option LengthModifier)
    (behind : Bytes) : IsLongest modifier (c :: behind) := by
  intro m hm
  by_contra hlong
  have hletters : ∀ b ∈ m.text, b ∈ ascii "hlLq" := by cases m <;> decide +kernel
  have hopens : modifierText modifier ++ [c] <+: m.text := by
    refine List.prefix_of_prefix_length_le ?_ hm ?_
    · exact ⟨behind, by rw [List.append_assoc, List.singleton_append]⟩
    · rw [List.length_append, List.length_singleton]
      omega
  exact hc (hletters c (hopens.subset (by simp)))

theorem WellFormed.precisionEnds {s : Spelling} (h : s.WellFormed) (hs : s.Recognized)
    (behind : Bytes) : PrecisionEnds s.precision (s.behindPrecision behind) := by
  have hbehind := hs.head_behindPrecision behind
  have hflags := h.precisionFlags
  have hdigits := h.precisionDigits
  unfold Spelling.precisionFlags at hflags
  unfold Spelling.precisionDigits at hdigits
  cases hp : s.precision with
  | none => exact fun hhead => hbehind 46 hhead (by decide)
  | some side =>
    rw [hp] at hflags hdigits
    refine ⟨⟨hflags, fun b hb hflag => ?_⟩, ⟨hdigits, fun b hb hdigit => ?_⟩⟩
    · rw [List.head?_append, Option.mem_def, Option.or_eq_some_iff] at hb
      obtain hb | ⟨-, hb⟩ := hb
      · have hno : ∀ b ∈ ascii "0123456789", b ∉ ascii "-+ #*" := by decide +kernel
        exact hno b (hdigits b (List.mem_of_mem_head? hb)) hflag
      · have hsub : ascii "-+ #*" ⊆ ascii "-+ #*0123456789!^." := by decide +kernel
        exact hbehind b hb (hsub hflag)
    · have hsub : ascii "0123456789" ⊆ ascii "-+ #*0123456789!^." := by decide +kernel
      exact hbehind b hb (hsub hdigit)

/-- Behind a recognized directive nothing would be taken for a part of it. -/
theorem WellFormed.greedy {s : Spelling} (h : s.WellFormed) (hs : s.Recognized) (behind : Bytes) :
    s.Greedy behind := by
  obtain ⟨c, hconversion, hc⟩ := hs.conversion_eq
  have hmode := h.head_behindMode hs behind
  have hflags : ascii "-+ #*0" ⊆ ascii "-+ #*0123456789!^" := by decide +kernel
  have hdigits : ascii "0123456789" ⊆ ascii "-+ #*0123456789!^" := by decide +kernel
  refine ⟨fun hbang hhead => ?_, ?_, ⟨h.widthFlags, fun b hb hflag => ?_⟩,
    ⟨h.widthDigits, fun b hb hdigit => ?_⟩, ?_, ?_, fun hnone => ?_⟩
  · have hbehind : s.behindBang behind = s.behindMode behind := by
      rw [behindBang, h.caret hbang]
      rfl
    rw [hbehind] at hhead
    exact (hmode 33 hhead).1 rfl
  · cases hbang : s.bang with
    | false =>
      rw [if_neg Bool.false_ne_true]
      exact h.caret hbang
    | true =>
      rw [if_pos rfl]
      exact fun _ hhead => (hmode 94 hhead).2 rfl
  · -- a digit is a flag as well only if it is zero
    rw [List.head?_append, Option.mem_def, Option.or_eq_some_iff] at hb
    obtain hb | ⟨-, hb⟩ := hb
    · have hzero : ∀ b ∈ ascii "-+ #*0", b ∈ ascii "0123456789" → b = zero := by decide +kernel
      obtain rfl := hzero b hflag (h.widthDigits b (List.mem_of_mem_head? hb))
      exact h.leadingDigit hb
    · exact hs.head_behindWidth behind b hb (hflags hflag)
  · exact hs.head_behindWidth behind b hb (hdigits hdigit)
  · exact h.precisionEnds hs behind
  · have hletters : ascii "hlLq" ⊆ ascii "-+ #*0123456789!^.hlLq" := by decide +kernel
    rw [behindModifier, hconversion]
    exact isLongest_of_not_mem (fun hmem => hc (hletters hmem)) s.modifier behind
  · rw [hconversion] at hnone
    cases hnone

/-- A recognized directive is read as it is written exactly if it is well formed. -/
theorem Recognized.read_text_iff {s : Spelling} (hs : s.Recognized) :
    read s.text = (s, []) ↔ s.WellFormed := by
  rw [read_iff, List.append_nil, eq_self, true_and]
  exact ⟨Greedy.wellFormed, fun h => h.greedy hs []⟩

end PrintFormat.Spelling
