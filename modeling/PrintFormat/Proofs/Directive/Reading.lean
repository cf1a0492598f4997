import Mathlib
import PrintFormat.Directive.Spelling

/-!
A directive is decided by its own bytes. `Local` says of a reader that bytes
behind those it leaves over have no part in what it reads, and that it does not
look beyond them: with one byte left over at least, it reads the same from a
text and from the text with more behind it. Readers in a row are local if each
of them is. The main statement, `Spelling.read_append_iff`, is that for the
reading of a directive, in which the byte left over is the conversion byte.
-/
namespace PrintFormat

/-- A reader that answers what it read and the rest of the text. -/
structure Local {α : Type} (read : Bytes → α × Bytes) : Prop where
  suffix : ∀ text, (read text).2 <:+ text
  iff : ∀ x y behind a, y ≠ [] → (read (x ++ behind) = (a, y ++ behind) ↔ read x = (a, y))

/-- Two readers in a row. -/
def readBoth {α β : Type} (f : Bytes → α × Bytes) (g : α → Bytes → β × Bytes) (text : Bytes) :
    (α × β) × Bytes :=
  (((f text).1, (g (f text).1 (f text).2).1), (g (f text).1 (f text).2).2)

theorem readBoth_eq_iff {α β : Type} {f : Bytes → α × Bytes} {g : α → Bytes → β × Bytes}
    {text y : Bytes} {a : α} {b : β} :
    readBoth f g text = ((a, b), y) ↔ ∃ middle, f text = (a, middle) ∧ g a middle = (b, y) := by
  constructor
  · intro h
    cases h
    exact ⟨_, rfl, rfl⟩
  · rintro ⟨middle, hf, hg⟩
    simp only [readBoth, hf, hg]

namespace Local

theorem suffix_of_eq {α : Type} {read : Bytes → α × Bytes} (h : Local read) {text y : Bytes} {a : α}
    (he : read text = (a, y)) : y <:+ text := by
  have := h.suffix text
  rwa [he] at this

theorem readBoth {α β : Type} {f : Bytes → α × Bytes} {g : α → Bytes → β × Bytes} (hf : Local f)
    (hg : ∀ a, Local (g a)) : Local (readBoth f g) where
  suffix text := ((hg _).suffix _).trans (hf.suffix text)
  iff x y behind := by
    rintro ⟨a, b⟩ hy
    rw [readBoth_eq_iff, readBoth_eq_iff]
    constructor
    · rintro ⟨middle, hfm, hgm⟩
      -- what the second reader left over is behind the first one's rest
      obtain ⟨front, rfl⟩ := (hg a).suffix_of_eq hgm
      have hm : front ++ y ≠ [] := by simp [hy]
      rw [← List.append_assoc] at hfm hgm
      exact ⟨front ++ y, (hf.iff x _ behind a hm).mp hfm, ((hg a).iff _ y behind b hy).mp hgm⟩
    · rintro ⟨middle, hfm, hgm⟩
      have hm : middle ≠ [] := by
        rintro rfl
        exact hy (List.suffix_nil.mp ((hg a).suffix_of_eq hgm))
      exact ⟨middle ++ behind, (hf.iff x _ behind a hm).mpr hfm,
        ((hg a).iff _ y behind b hy).mpr hgm⟩

/-- Nothing is left over of a text that a reader does not get to. -/
theorem ne_of_nil {α : Type} {read : Bytes → α × Bytes} (hs : ∀ text, (read text).2 <:+ text)
    (a : α) {y : Bytes} (hy : y ≠ []) (behind : Bytes) : read behind ≠ (a, y ++ behind) := by
  intro h
  have hle := (hs behind).length_le
  rw [h, List.length_append] at hle
  exact hy (List.length_eq_zero_iff.mp (by omega))

theorem of_cons {α : Type} {read : Bytes → α × Bytes} (hs : ∀ text, (read text).2 <:+ text)
    (h : ∀ b x y behind a, y ≠ [] →
      (read (b :: x ++ behind) = (a, y ++ behind) ↔ read (b :: x) = (a, y))) : Local read where
  suffix := hs
  iff x y behind a hy := by
    cases x with
    | nil =>
      have h1 := ne_of_nil hs a hy behind
      have h2 := ne_of_nil hs a hy []
      rw [List.append_nil] at h2
      exact iff_of_false h1 h2
    | cons b x => exact h b x y behind a hy

theorem pass {α : Type} (a : α) : Local fun text => (a, text) where
  suffix text := List.suffix_rfl
  iff x y behind b _ := by simp only [Prod.mk.injEq, List.append_cancel_right_eq]

theorem takeByte (b : UInt8) : Local (takeByte b) := by
  refine of_cons (fun text => ⟨_, takeByte_append b text⟩) fun c x y behind a _ => ?_
  simp only [PrintFormat.takeByte, List.cons_append]
  split
  · simp only [Prod.mk.injEq, List.append_cancel_right_eq]
  · rw [← List.cons_append, Prod.mk.injEq, Prod.mk.injEq, List.append_cancel_right_eq]

theorem span (p : UInt8 → Bool) : Local fun text => (text.takeWhile p, text.dropWhile p) where
  suffix text := List.dropWhile_suffix p
  iff x y behind a hy := by
    induction x generalizing a with
    | nil =>
      have hs (text : Bytes) : (text.takeWhile p, text.dropWhile p).2 <:+ text :=
        List.dropWhile_suffix p
      have h1 := ne_of_nil hs a hy behind
      have h2 := ne_of_nil hs a hy []
      rw [List.append_nil] at h2
      exact iff_of_false h1 h2
    | cons b x ih =>
      by_cases hb : p b
      · simp only [List.cons_append, List.takeWhile_cons, List.dropWhile_cons, hb, if_true]
        cases a with
        | nil => simp
        | cons c a =>
          have := ih a
          simp only [Prod.mk.injEq, List.cons.injEq] at this ⊢
          rw [and_assoc, this, and_assoc]
      · simp only [List.cons_append, List.takeWhile_cons, List.dropWhile_cons, hb]
        rw [← List.cons_append]
        simp only [Bool.false_eq_true, if_false, Prod.mk.injEq, List.append_cancel_right_eq]

end Local

/-! ## The parts of a directive -/

namespace LengthModifier

/-- No modifier looks further than two bytes. -/
theorem first?_append (b c : UInt8) (x behind : Bytes) :
    first? (b :: c :: x ++ behind) = first? (b :: c :: x) := by
  have h : ∀ m : LengthModifier, m.text.isPrefixOf (b :: c :: x ++ behind) =
      m.text.isPrefixOf (b :: c :: x) := by
    intro m
    cases m <;> rfl
  simp only [first?, h]

/-- Whether a text opens with a modifier is a matter of its first byte. -/
theorem first?_eq_none_iff (b : UInt8) (rest : Bytes) :
    first? (b :: rest) = none ↔ b ≠ 104 ∧ b ≠ 108 ∧ b ≠ 76 ∧ b ≠ 113 := by
  have hh : ascii "h" = [104] := rfl
  have hhh : ascii "hh" = [104, 104] := rfl
  have hl : ascii "l" = [108] := rfl
  have hll : ascii "ll" = [108, 108] := rfl
  have hL : ascii "L" = [76] := rfl
  have hq : ascii "q" = [113] := rfl
  simp only [first?, List.find?_eq_none, List.mem_cons, List.not_mem_nil, or_false,
    forall_eq_or_imp, forall_eq, text, hh, hhh, hl, hll, hL, hq, List.isPrefixOf_cons_cons,
    List.isPrefixOf_nil_left, Bool.and_true, Bool.and_eq_true, beq_iff_eq, not_and]
  constructor
  · rintro ⟨-, h1, -, h2, h3, h4⟩
    exact ⟨Ne.symm h1, Ne.symm h2, Ne.symm h3, Ne.symm h4⟩
  · rintro ⟨h1, h2, h3, h4⟩
    exact ⟨fun h => absurd h.symm h1, Ne.symm h1, fun h => absurd h.symm h2, Ne.symm h2,
      Ne.symm h3, Ne.symm h4⟩

theorem length_text (m : LengthModifier) : 1 ≤ m.text.length ∧ m.text.length ≤ 2 := by
  cases m <;> decide

end LengthModifier

namespace Spelling

theorem readModifier_of_none {text : Bytes} (h : LengthModifier.first? text = none) :
    readModifier text = (none, text) := by
  simp only [readModifier, h]

theorem readModifier_of_some {text : Bytes} {m : LengthModifier}
    (h : LengthModifier.first? text = some m) :
    readModifier text = (some m, text.drop m.text.length) := by
  simp only [readModifier, h]

/-- Nothing is left over of one byte that is taken as a modifier. -/
theorem readModifier_ne (a : Option LengthModifier) {text y : Bytes} {m : LengthModifier}
    (h : LengthModifier.first? text = some m) (behind : Bytes)
    (hlen : text.length ≤ behind.length + 1) (hy : y ≠ []) :
    readModifier text ≠ (a, y ++ behind) := by
  intro he
  have hm := m.length_text
  have hpos := List.length_pos_of_ne_nil hy
  rw [readModifier_of_some h] at he
  have hrest := congrArg (fun p : Option LengthModifier × Bytes => p.2.length) he
  simp only [List.length_drop, List.length_append] at hrest
  omega

theorem local_readModifier : Local readModifier := by
  refine Local.of_cons (fun text => ⟨_, readModifier_append text⟩) fun b x y behind a hy => ?_
  cases x with
  | nil =>
    cases h : LengthModifier.first? [b] with
    | none =>
      have h' : LengthModifier.first? ([b] ++ behind) = none :=
        (LengthModifier.first?_eq_none_iff b behind).mpr
          ((LengthModifier.first?_eq_none_iff b []).mp h)
      rw [readModifier_of_none h, readModifier_of_none h', Prod.mk.injEq, Prod.mk.injEq,
        List.append_cancel_right_eq]
    -- the byte is taken as a modifier, so that neither side leaves anything of it
    | some m =>
      cases h' : LengthModifier.first? ([b] ++ behind) with
      | none =>
        rw [(LengthModifier.first?_eq_none_iff b []).mpr
          ((LengthModifier.first?_eq_none_iff b behind).mp h')] at h
        cases h
      | some m' =>
        have hlong := readModifier_ne a h' behind (by simp) hy
        have hshort := readModifier_ne a h [] (by simp) hy
        rw [List.append_nil] at hshort
        exact iff_of_false hlong hshort
  | cons c x =>
    have hsame := LengthModifier.first?_append b c x behind
    cases h : LengthModifier.first? (b :: c :: x) with
    | none =>
      rw [h] at hsame
      rw [readModifier_of_none h, readModifier_of_none hsame, Prod.mk.injEq, Prod.mk.injEq,
        List.append_cancel_right_eq]
    | some m =>
      rw [h] at hsame
      have hm : m.text.length ≤ (b :: c :: x).length := by
        have := m.length_text
        simp only [List.length_cons]
        omega
      rw [readModifier_of_some h, readModifier_of_some hsame, List.drop_append_of_le_length hm,
        Prod.mk.injEq, Prod.mk.injEq, List.append_cancel_right_eq]

/-- The flags and digits behind the point of a precision. -/
def readSide : Bytes → (Bytes × Bytes) × Bytes :=
  readBoth (fun text => (text.takeWhile isFlag, text.dropWhile isFlag)) fun _ text =>
    (text.takeWhile isDigit, text.dropWhile isDigit)

theorem local_readSide : Local readSide :=
  (Local.span isFlag).readBoth fun _ => Local.span isDigit

theorem readPrecision_point (text : Bytes) :
    readPrecision (46 :: text) = (some (readSide text).1, (readSide text).2) := rfl

theorem readPrecision_of_ne {b : UInt8} (h : b ≠ 46) (text : Bytes) :
    readPrecision (b :: text) = (none, b :: text) := by
  simp only [readPrecision, takeByte, h, if_false]

theorem local_readPrecision : Local readPrecision := by
  refine Local.of_cons (fun text => ⟨_, readPrecision_append text⟩) fun b x y behind a hy => ?_
  rw [List.cons_append]
  by_cases hb : b = 46
  · subst hb
    rw [readPrecision_point, readPrecision_point]
    cases a with
    | none => simp
    | some side =>
      have := local_readSide.iff x y behind side hy
      simp only [Prod.ext_iff, Option.some.injEq] at this ⊢
      exact this
  · rw [readPrecision_of_ne hb, readPrecision_of_ne hb, ← List.cons_append, Prod.mk.injEq,
      Prod.mk.injEq, List.append_cancel_right_eq]

/-- The parts of a directive in front of its conversion byte. -/
def readParts : Bytes →
    (Bool × Bool × Bytes × Bytes × Option (Bytes × Bytes) × Option LengthModifier) × Bytes :=
  readBoth (takeByte 33) fun bang =>
    readBoth (fun text => if bang then takeByte 94 text else (false, text)) fun _ =>
    readBoth (fun text => (text.takeWhile isWidthFlag, text.dropWhile isWidthFlag)) fun _ =>
    readBoth (fun text => (text.takeWhile isDigit, text.dropWhile isDigit)) fun _ =>
    readBoth readPrecision fun _ => readModifier

theorem read_eq (text : Bytes) :
    read text =
      let ((bang, caret, widthFlags, widthDigits, precision, modifier), rest) := readParts text
      ({ bang, caret, widthFlags, widthDigits, precision, modifier, conversion := rest.head? },
        rest.tail) := rfl

theorem local_readParts : Local readParts := by
  refine (Local.takeByte 33).readBoth fun bang => Local.readBoth ?_ fun _ =>
    (Local.span isWidthFlag).readBoth fun _ => (Local.span isDigit).readBoth fun _ =>
    local_readPrecision.readBoth fun _ => local_readModifier
  cases bang with
  | true => exact Local.takeByte 94
  | false => exact Local.pass false

/-- A directive that got its conversion byte, in terms of the parts in front. -/
theorem read_eq_iff {s : Spelling} {c : UInt8} (hc : s.conversion = some c) (text z : Bytes) :
    read text = (s, z) ↔
      readParts text = ((s.bang, s.caret, s.widthFlags, s.widthDigits, s.precision, s.modifier),
        c :: z) := by
  rw [read_eq]
  obtain ⟨⟨bang, caret, widthFlags, widthDigits, precision, modifier⟩, rest⟩ := readParts text
  obtain ⟨bang', caret', widthFlags', widthDigits', precision', modifier', conversion'⟩ := s
  simp only at hc
  subst hc
  cases rest <;> simp [and_assoc]

/-- A directive is read from a text as from the text with more behind it, if it
got its conversion byte. -/
theorem read_append_iff {s : Spelling} (hs : s.conversion.isSome) (x y behind : Bytes) :
    read (x ++ behind) = (s, y ++ behind) ↔ read x = (s, y) := by
  obtain ⟨c, hc⟩ := Option.isSome_iff_exists.mp hs
  rw [read_eq_iff hc, read_eq_iff hc]
  exact local_readParts.iff x (c :: y) behind _ (List.cons_ne_nil c y)

/-- A directive without a conversion byte ends the text. -/
theorem read_eq_nil {text : Bytes} (h : (read text).1.conversion = none) : (read text).2 = [] := by
  rw [read_eq] at h ⊢
  have hnil : (readParts text).2 = [] := List.head?_eq_none_iff.mp h
  exact (congrArg List.tail hnil).trans List.tail_nil

/-- A directive is read from its text as from the format around it, with any
front of what was behind it. -/
theorem read_front {text front behind : Bytes} (h : (read text).2 = front ++ behind) :
    read ((read text).1.text ++ front) = ((read text).1, front) := by
  have htext := text_read text
  cases hc : (read text).1.conversion with
  | some c =>
    refine (read_append_iff (by rw [hc]; rfl) _ _ behind).mp ?_
    rw [List.append_assoc, ← h, htext]
  | none =>
    have hnil := read_eq_nil hc
    rw [hnil] at h htext
    obtain ⟨rfl, -⟩ := List.append_eq_nil_iff.mp h.symm
    rw [htext, ← hnil]

end Spelling
end PrintFormat
