import Mathlib
import PrintFormat.Address
import PrintFormat.Text.Parts
import PrintFormat.Text.Utf8

/-!
Texts made of parts. Bytes of ASCII are characters one by one (`chars`), and a
text whose parts hold no separator is cut between them: `cut_append` and
`split_append` take one part off in front of any rest, and `split_separated`
gives all the parts back.
-/
namespace PrintFormat

/-! ## ASCII -/

/-- All bytes are ASCII characters. -/
def IsAscii (text : Bytes) : Prop := ∀ b ∈ text, b.toNat < 0x80

instance (text : Bytes) : Decidable (IsAscii text) :=
  inferInstanceAs (Decidable (∀ b ∈ text, b.toNat < 0x80))

/-- The characters of bytes, one a byte. -/
def chars (text : Bytes) : List Char := text.map Char.ofUInt8

theorem isAscii_append {s t : Bytes} : IsAscii (s ++ t) ↔ IsAscii s ∧ IsAscii t :=
  List.forall_mem_append

theorem chars_append (s t : Bytes) : chars (s ++ t) = chars s ++ chars t := List.map_append

section

variable {text : String} (h : ∀ c ∈ text.toList, c.toNat < 0x80)
include h

theorem toNat_toUInt8 {c : Char} (hc : c ∈ text.toList) : c.toUInt8.toNat = c.toNat :=
  UInt8.toNat_ofNat_of_lt' (Nat.lt_trans (h c hc) (by decide))

/-- A text of ASCII characters as bytes and back. -/
theorem chars_ascii : chars (ascii text) = text.toList := by
  rw [chars, ascii, List.map_map]
  refine (List.map_congr_left fun c hc => ?_).trans (List.map_id _)
  exact Char.toNat_inj.mp (toNat_toUInt8 h hc)

theorem isAscii_ascii : IsAscii (ascii text) := by
  intro b hb
  obtain ⟨c, hc, rfl⟩ := List.mem_map.mp hb
  rw [toNat_toUInt8 h hc]
  exact h c hc

end

/-- The texts between separators are ASCII if the parts and the separator are. -/
theorem isAscii_separated {separator : Bytes} (hsep : IsAscii separator) {texts : List Bytes}
    (h : ∀ text ∈ texts, IsAscii text) : IsAscii (separated separator texts) := by
  induction texts with
  | nil => exact nofun
  | cons text rest ih =>
    have htext := h text List.mem_cons_self
    have hrest := ih fun t ht => h t (List.mem_cons_of_mem text ht)
    cases rest with
    | nil => exact htext
    | cons next rest => exact isAscii_append.mpr ⟨isAscii_append.mpr ⟨htext, hsep⟩, hrest⟩

namespace Text

theorem encodeChars_append (s t : List Char) :
    encodeChars (s ++ t) = encodeChars s ++ encodeChars t := List.flatMap_append

theorem encode_append (s t : String) : encode (s ++ t) = encode s ++ encode t := by
  rw [encode, String.toList_append, encodeChars_append]
  rfl

theorem encode_empty : encode "" = [] := rfl

theorem encode_ofList (cs : List Char) : encode (String.ofList cs) = encodeChars cs := by
  rw [encode, String.toList_ofList]

/-- An ASCII character is one byte. -/
theorem encode_ofUInt8 {b : UInt8} (h : b.toNat < 0x80) :
    CodePoint.encode (Char.ofUInt8 b).toNat = [b] := by
  have hvalue : (Char.ofUInt8 b).toNat = b.toNat := rfl
  rw [hvalue, CodePoint.encode, if_pos h, Nat.toUInt8_eq, UInt8.ofNat_toNat]

theorem encodeChars_chars {text : Bytes} (h : IsAscii text) : encodeChars (chars text) = text := by
  induction text with
  | nil => rfl
  | cons b rest ih =>
    have hb := encode_ofUInt8 (h b List.mem_cons_self)
    have hrest := ih fun c hc => h c (List.mem_cons_of_mem b hc)
    rw [chars, List.map_cons, encodeChars, List.flatMap_cons, hb]
    exact congrArg (b :: ·) hrest

/-! ## Cuts -/

variable {p : Char → Bool} {part : List Char}

/-- A text is cut behind a part without separators. -/
theorem cut_append (h : ∀ c ∈ part, p c = false) {c : Char} (hc : p c = true) (rest : List Char) :
    cut p (part ++ c :: rest) = (part, some rest) := by
  induction part with
  | nil => simp only [List.nil_append, cut, hc, if_true]
  | cons d part ih =>
    have hd : p d = false := h d List.mem_cons_self
    simp only [List.cons_append, cut, hd, Bool.false_eq_true, if_false,
      ih fun e he => h e (List.mem_cons_of_mem d he)]

theorem cut_of_none (h : ∀ c ∈ part, p c = false) : cut p part = (part, none) := by
  induction part with
  | nil => rfl
  | cons d part ih =>
    have hd : p d = false := h d List.mem_cons_self
    simp only [cut, hd, Bool.false_eq_true, if_false, ih fun e he => h e (List.mem_cons_of_mem d he)]

theorem split_ne_nil (text : List Char) : split p text ≠ [] := by
  cases text with
  | nil => exact List.cons_ne_nil _ _
  | cons c text =>
    rw [split]
    split
    · exact List.cons_ne_nil _ _
    · split <;> exact List.cons_ne_nil _ _

/-- There is one part more than there are separators. -/
theorem length_split (text : List Char) : (split p text).length = text.countP p + 1 := by
  induction text with
  | nil => rfl
  | cons c rest ih =>
    rw [split]
    split
    · next hc => rw [List.length_cons, ih, List.countP_cons_of_pos hc]
    · next hc =>
      rw [List.countP_cons_of_neg hc]
      split
      · next hnil => exact absurd hnil (split_ne_nil rest)
      · next part parts hparts => rw [hparts] at ih; exact ih

/-- A separator splits what is in front of it from what is behind it. -/
theorem split_between {c : Char} (hc : p c = true) (front back : List Char) :
    split p (front ++ c :: back) = split p front ++ split p back := by
  induction front with
  | nil => simp only [List.nil_append, split, hc, if_true, List.singleton_append]
  | cons d front ih =>
    rw [List.cons_append, split, split, ih]
    split
    · rfl
    · cases hfront : split p front with
      | nil => exact absurd hfront (split_ne_nil front)
      | cons part parts => rfl

theorem split_of_none (h : ∀ c ∈ part, p c = false) : split p part = [part] := by
  induction part with
  | nil => rfl
  | cons d part ih =>
    have hd : p d = false := h d List.mem_cons_self
    simp only [split, hd, Bool.false_eq_true, if_false, ih fun e he => h e (List.mem_cons_of_mem d he)]

/-- A text is split behind a part without separators. -/
theorem split_append (h : ∀ c ∈ part, p c = false) {c : Char} (hc : p c = true)
    (rest : List Char) : split p (part ++ c :: rest) = part :: split p rest := by
  rw [split_between hc, split_of_none h, List.singleton_append]

/-- Parts with a separator behind each of them are split into themselves, and
there is nothing behind the last one. -/
theorem split_ended {c : Char} (hc : p c = true) {parts : List (List Char)}
    (h : ∀ part ∈ parts, ∀ d ∈ part, p d = false) :
    split p (parts.flatMap (· ++ [c])) = parts ++ [[]] := by
  induction parts with
  | nil => rfl
  | cons part parts ih =>
    have hpart := h part List.mem_cons_self
    have hrest := ih fun q hq => h q (List.mem_cons_of_mem part hq)
    rw [List.flatMap_cons, List.append_assoc, List.singleton_append, split_append hpart hc, hrest]
    rfl

/-- Three parts without separators are what a text is cut in at the first two
of them. -/
theorem cutThree?_append {second : List Char} (h₁ : ∀ c ∈ part, p c = false)
    (h₂ : ∀ c ∈ second, p c = false) {c d : Char} (hc : p c = true) (hd : p d = true)
    (third : List Char) :
    cutThree? p (part ++ c :: (second ++ d :: third)) = some (part, second, third) := by
  simp only [cutThree?, cut_append h₁ hc, cut_append h₂ hd]

theorem no_mark {mark : Char} (h : mark ∉ part) : ∀ c ∈ part, decide (c = mark) = false :=
  fun _ hc => decide_eq_false fun heq => h (heq ▸ hc)

/-- A text is cut at the first mark in it, if there is one. -/
theorem cut_mark (mark : Char) (text : List Char) :
    text = (cut (· = mark) text).1 ++ ((cut (· = mark) text).2.map (mark :: ·)).getD [] ∧
      mark ∉ (cut (· = mark) text).1 := by
  fun_induction cut (· = mark) text with
  | case1 => simp
  | case2 c rest h => simpa using h
  | case3 c rest h front back hcut ih =>
    rw [hcut] at ih
    have hne : mark ≠ c := by simpa [eq_comm] using h
    exact ⟨congrArg (c :: ·) ih.1, by simpa [hne] using ih.2⟩

theorem cutThree?_mark_iff {mark : Char} {text first second third : List Char} :
    cutThree? (· = mark) text = some (first, second, third) ↔
      text = first ++ mark :: (second ++ mark :: third) ∧ mark ∉ first ∧ mark ∉ second := by
  constructor
  · intro h
    obtain ⟨htext, hfirst⟩ := cut_mark mark text
    unfold cutThree? at h
    split at h
    · cases h
    · next front rest hcut =>
      obtain ⟨hrest, hsecond⟩ := cut_mark mark rest
      rw [hcut] at htext hfirst
      split at h
      · cases h
      · next front' rest' hcut' =>
        cases h
        rw [hcut'] at hrest hsecond
        refine ⟨?_, hfirst, hsecond⟩
        rw [htext, hrest]
        rfl
  · rintro ⟨rfl, hfirst, hsecond⟩
    exact cutThree?_append (no_mark hfirst) (no_mark hsecond) (decide_eq_true rfl)
      (decide_eq_true rfl) third

/-- Nothing is trimmed off a text between two characters that are not blank. -/
theorem trimChars_eq {c d : Char} (hc : isBlank c = false) (hd : isBlank d = false)
    (inner : List Char) : trimChars (c :: (inner ++ [d])) = c :: (inner ++ [d]) := by
  have hfront : (c :: (inner ++ [d])).dropWhile isBlank = c :: (inner ++ [d]) :=
    List.dropWhile_cons_of_neg (by rw [hc]; exact Bool.false_ne_true)
  have hback : (c :: (inner ++ [d])).reverse = d :: (inner.reverse ++ [c]) := by
    rw [List.reverse_cons, List.reverse_append]
    rfl
  rw [trimChars, hfront, hback, List.dropWhile_cons_of_neg (by rw [hd]; exact Bool.false_ne_true),
    ← hback, List.reverse_reverse]

end Text

/-! ## Separated parts -/

/-- Behind the first part each part has a separator in front. -/
theorem separated_cons (separator text : Bytes) (rest : List Bytes) :
    separated separator (text :: rest) = text ++ rest.flatMap (separator ++ ·) := by
  induction rest generalizing text with
  | nil => simp [separated]
  | cons next rest ih => simp only [separated, ih, List.flatMap_cons, List.append_assoc]

/-- Parts put together with a separator of one byte are split into themselves. -/
theorem Text.split_separated {p : Char → Bool} (separator : UInt8)
    (hsep : p (Char.ofUInt8 separator) = true) {texts : List Bytes} (hne : texts ≠ [])
    (h : ∀ text ∈ texts, ∀ c ∈ chars text, p c = false) :
    split p (chars (separated [separator] texts)) = texts.map chars := by
  induction texts with
  | nil => exact absurd rfl hne
  | cons text rest ih =>
    have htext := h text List.mem_cons_self
    cases rest with
    | nil => exact split_of_none htext
    | cons next rest =>
      have hrest := ih (List.cons_ne_nil _ _) fun t ht => h t (List.mem_cons_of_mem text ht)
      have hparts : chars (separated [separator] (text :: next :: rest)) =
          chars text ++ Char.ofUInt8 separator :: chars (separated [separator] (next :: rest)) := by
        simp only [separated, chars_append, List.append_assoc]
        rfl
      rw [hparts, split_append htext hsep, hrest]
      rfl

end PrintFormat
