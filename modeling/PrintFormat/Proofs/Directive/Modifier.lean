import PrintFormat.Proofs.Segment.Cut

/-!
Length modifiers put into directives. Such a modifier opens with a byte that no
part in front of it takes, so that those parts end in front of it as they did in
front of the conversion byte. `Avoids` says that of a reader, and passes to
readers in a row. The main statements: a directive is read back with its new
modifier (`Spelling.read_putModifier`), and a format in which the widths of its
integers are written out has the segments that one would expect
(`Segment.ofFormat_withWidth`).
-/
namespace PrintFormat

/-- A local reader that does not take a byte: where it leaves some byte over, it
leaves this one over as well. -/
structure Avoids {α : Type} (b : UInt8) (read : Bytes → α × Bytes) : Prop extends Local read where
  stops : ∀ x c z w a, read (x ++ c :: z) = (a, c :: z) → read (x ++ b :: w) = (a, b :: w)

namespace Avoids

theorem pass {α : Type} (b : UInt8) (a : α) : Avoids b fun text => (a, text) where
  toLocal := Local.pass a
  stops x c z w a' h := by
    rw [Prod.mk.injEq] at h ⊢
    obtain ⟨ha, hx⟩ := h
    obtain rfl : x = [] := List.append_cancel_right hx
    exact ⟨ha, rfl⟩

theorem takeByte {b d : UInt8} (hb : b ≠ d) : Avoids b (takeByte d) where
  toLocal := Local.takeByte d
  stops x c z w a h := by
    have hx := takeByte_append d (x ++ c :: z)
    rw [h, List.append_cancel_right_eq] at hx
    cases a with
    | false =>
      obtain rfl : [] = x := hx
      exact if_neg hb
    | true =>
      obtain rfl : [d] = x := hx
      exact if_pos rfl

theorem span {b : UInt8} {p : UInt8 → Bool} (hb : p b = false) :
    Avoids b fun text => (text.takeWhile p, text.dropWhile p) where
  toLocal := Local.span p
  stops x c z w a h := by
    rw [Prod.mk.injEq] at h ⊢
    obtain ⟨rfl, hdrop⟩ := h
    have htake := List.takeWhile_append_dropWhile (p := p) (l := x ++ c :: z)
    rw [hdrop, List.append_cancel_right_eq] at htake
    have hx : ∀ d ∈ x, p d := by
      intro d hd
      rw [← htake] at hd
      exact List.mem_takeWhile_imp hd
    have hneg : ¬ p b := by simp [hb]
    rw [htake, List.takeWhile_append_of_pos hx, List.dropWhile_append_of_pos hx,
      List.takeWhile_cons_of_neg hneg, List.dropWhile_cons_of_neg hneg, List.append_nil]
    exact ⟨rfl, rfl⟩

theorem readBoth {α β : Type} {b : UInt8} {f : Bytes → α × Bytes} {g : α → Bytes → β × Bytes}
    (hf : Avoids b f) (hg : ∀ a, Avoids b (g a)) : Avoids b (readBoth f g) where
  toLocal := hf.toLocal.readBoth fun a => (hg a).toLocal
  stops x c z w a h := by
    rw [readBoth_eq_iff] at h ⊢
    obtain ⟨middle, hfirst, hsecond⟩ := h
    obtain ⟨front, rfl⟩ := (hg a.1).suffix_of_eq hsecond
    cases front with
    | nil =>
      exact ⟨b :: w, hf.stops x c z w a.1 hfirst, (hg a.1).stops [] c z w a.2 hsecond⟩
    -- the first reader stops in front of the change
    | cons d front =>
      have hne : d :: front ≠ [] := List.cons_ne_nil d front
      have hread := (hf.iff x (d :: front) (c :: z) a.1 hne).mp hfirst
      exact ⟨d :: front ++ b :: w, (hf.iff x (d :: front) (b :: w) a.1 hne).mpr hread,
        (hg a.1).stops (d :: front) c z w a.2 hsecond⟩

end Avoids

namespace Spelling

/-! ## The parts in front of a modifier -/

/-- A byte that is no part of a directive in front of its length modifier. -/
def IsOutside (b : UInt8) : Prop :=
  b ≠ 33 ∧ b ≠ 94 ∧ b ≠ 46 ∧ isWidthFlag b = false ∧ isFlag b = false ∧ isDigit b = false

instance (b : UInt8) : Decidable (IsOutside b) := by
  unfold IsOutside
  infer_instance

theorem avoids_readPrecision {b : UInt8} (hb : IsOutside b) : Avoids b readPrecision where
  toLocal := local_readPrecision
  stops x c z w a h := by
    obtain ⟨-, -, hpoint, -, hflag, hdigit⟩ := hb
    have hside : Avoids b readSide := (Avoids.span hflag).readBoth fun _ => Avoids.span hdigit
    have hx := readPrecision_append (x ++ c :: z)
    rw [h, List.append_cancel_right_eq] at hx
    cases a with
    | none =>
      obtain rfl : [] = x := hx
      exact readPrecision_of_ne hpoint w
    | some side =>
      obtain rfl : 46 :: (side.1 ++ side.2) = x := hx
      rw [List.cons_append, readPrecision_point, Prod.mk.injEq, Option.some.injEq] at h ⊢
      have hread := hside.stops (side.1 ++ side.2) c z w side (Prod.ext h.1 h.2)
      exact ⟨congrArg Prod.fst hread, congrArg Prod.snd hread⟩

/-- The parts of a directive in front of its length modifier. -/
def readFront : Bytes → (Bool × Bool × Bytes × Bytes × Option (Bytes × Bytes)) × Bytes :=
  readBoth (takeByte 33) fun bang =>
    readBoth (fun text => if bang then takeByte 94 text else (false, text)) fun _ =>
    readBoth (fun text => (text.takeWhile isWidthFlag, text.dropWhile isWidthFlag)) fun _ =>
    readBoth (fun text => (text.takeWhile isDigit, text.dropWhile isDigit)) fun _ =>
    readPrecision

theorem avoids_readFront {b : UInt8} (hb : IsOutside b) : Avoids b readFront := by
  have hprecision := avoids_readPrecision hb
  obtain ⟨hbang, hcaret, -, hwidth, -, hdigit⟩ := hb
  refine (Avoids.takeByte hbang).readBoth fun bang => Avoids.readBoth ?_ fun _ =>
    (Avoids.span hwidth).readBoth fun _ => (Avoids.span hdigit).readBoth fun _ => hprecision
  cases bang with
  | true => exact Avoids.takeByte hcaret
  | false => exact Avoids.pass b false

theorem readParts_eq_iff {text rest : Bytes} {bang caret : Bool} {widthFlags widthDigits : Bytes}
    {precision : Option (Bytes × Bytes)} {modifier : Option LengthModifier} :
    readParts text = ((bang, caret, widthFlags, widthDigits, precision, modifier), rest) ↔
      ∃ middle, readFront text = ((bang, caret, widthFlags, widthDigits, precision), middle) ∧
        readModifier middle = (modifier, rest) := by
  have hparts : readParts text =
      (((readFront text).1.1, (readFront text).1.2.1, (readFront text).1.2.2.1,
        (readFront text).1.2.2.2.1, (readFront text).1.2.2.2.2,
        (readModifier (readFront text).2).1), (readModifier (readFront text).2).2) := rfl
  rw [hparts]
  obtain ⟨⟨bang', caret', flags', digits', precision'⟩, middle⟩ := readFront text
  constructor
  · intro h
    cases h
    exact ⟨middle, rfl, rfl⟩
  · rintro ⟨middle, hfront, hmodifier⟩
    cases hfront
    rw [hmodifier]

/-- The parts in front of a modifier as they were written. -/
def front (s : Spelling) : Bytes :=
  (if s.bang then [33] else []) ++ (if s.caret then [94] else []) ++ s.widthFlags
    ++ s.widthDigits ++ precisionText s.precision

theorem text_eq (s : Spelling) :
    s.text = s.front ++ (modifierText s.modifier ++ s.conversion.toList) := by
  rw [← List.append_assoc]
  rfl

/-- A modifier opens with a byte that is no part of what is in front of it. -/
theorem exists_isOutside (m : LengthModifier) : ∃ b rest, m.text = b :: rest ∧ IsOutside b := by
  cases m with
  | hh => exact ⟨104, [104], rfl, by decide⟩
  | h => exact ⟨104, [], rfl, by decide⟩
  | l => exact ⟨108, [], rfl, by decide⟩
  | ll => exact ⟨108, [108], rfl, by decide⟩
  | capitalL => exact ⟨76, [], rfl, by decide⟩
  | q => exact ⟨113, [], rfl, by decide⟩

/-- A directive that is read from its text is read with a modifier put in front
of its conversion byte, if the two are not taken for another modifier. -/
theorem read_putModifier {s : Spelling} (hs : read s.text = (s, [])) (hnone : s.modifier = none)
    {c : UInt8} (hc : s.conversion = some c) {m : LengthModifier}
    (hm : LengthModifier.first? (m.text ++ [c]) = some m) :
    read { s with modifier := some m }.text = ({ s with modifier := some m }, []) := by
  obtain ⟨b, rest, htext, hb⟩ := exists_isOutside m
  rw [read_eq_iff hc, readParts_eq_iff] at hs
  obtain ⟨middle, hfront, hmiddle⟩ := hs
  have hrest := readModifier_append middle
  rw [hmiddle, hnone] at hrest
  obtain rfl : [c] = middle := hrest
  rw [text_eq, hnone, hc] at hfront
  have hput := (avoids_readFront hb).stops s.front c [] (rest ++ [c]) _ hfront
  rw [← List.cons_append, ← htext] at hput
  rw [read_eq_iff (s := { s with modifier := some m }) hc, readParts_eq_iff, text_eq]
  refine ⟨m.text ++ [c], ?_, ?_⟩
  · simp only [hc]
    exact hput
  · rw [readModifier_of_some hm, List.drop_left]

end Spelling

/-! ## Widths written out -/

/-- The modifier that asks for a width. -/
def IntWidth.modifier : IntWidth → LengthModifier
  | .w16 => .h
  | .w32 => .l

/-- It is not doubled by a byte behind it that is another letter. -/
theorem IntWidth.first?_modifier (w : IntWidth) {c : UInt8} (hh : c ≠ 104) (hl : c ≠ 108) :
    LengthModifier.first? (w.modifier.text ++ [c]) = some w.modifier := by
  cases w with
  | w16 =>
    have hdouble : List.isPrefixOf [(104 : UInt8)] [c] = false := by
      simp [List.isPrefixOf, hh.symm]
    have htwo : ascii "hh" = [104, 104] := rfl
    have hone : ascii "h" = [104] := rfl
    simp [modifier, LengthModifier.first?, LengthModifier.text, htwo, hone, hdouble]
  | w32 =>
    have hdouble : List.isPrefixOf [(108 : UInt8)] [c] = false := by
      simp [List.isPrefixOf, hl.symm]
    have htwo : ascii "ll" = [108, 108] := rfl
    have hone : ascii "l" = [108] := rfl
    have hother : ascii "hh" = [104, 104] ∧ ascii "h" = [104] := ⟨rfl, rfl⟩
    simp [modifier, LengthModifier.first?, LengthModifier.text, htwo, hone, hother, hdouble]

namespace Spelling

/-- A directive for an integer that does not say how wide the integer is. -/
def lacksWidth (s : Spelling) : Bool :=
  s.modifier.isNone && s.conversion.any fun c =>
    c ∈ if s.bang then ascii "boH" else ascii "diuoxX"

/-- The directive with its width written out, in front of the conversion byte. -/
def withWidth (w : IntWidth) (s : Spelling) : Spelling :=
  if s.lacksWidth then { s with modifier := some w.modifier } else s

theorem conversion_withWidth (w : IntWidth) (s : Spelling) :
    (s.withWidth w).conversion = s.conversion := by
  unfold withWidth
  split <;> rfl

theorem lacksWidth_iff {s : Spelling} :
    s.lacksWidth ↔ s.modifier = none ∧ ∃ c, s.conversion = some c ∧
      c ∈ if s.bang then ascii "boH" else ascii "diuoxX" := by
  simp only [lacksWidth, Bool.and_eq_true, Option.isNone_iff_eq_none, Option.any_eq_true,
    decide_eq_true_eq]

theorem read_withWidth (w : IntWidth) {s : Spelling} (hs : read s.text = (s, [])) :
    read (s.withWidth w).text = (s.withWidth w, []) := by
  unfold withWidth
  split
  · next h =>
    obtain ⟨hnone, c, hc, hmem⟩ := lacksWidth_iff.mp h
    have hother : c ≠ 104 ∧ c ≠ 108 := by
      have hall : ∀ c ∈ ascii "boH" ++ ascii "diuoxX", c ≠ 104 ∧ c ≠ 108 := by
        decide +kernel
      refine hall c (List.mem_append.mpr ?_)
      split at hmem
      · exact .inl hmem
      · exact .inr hmem
    exact read_putModifier hs hnone hc (w.first?_modifier hother.1 hother.2)
  · exact hs

/-- The same with a text behind the directive. -/
theorem read_withWidth_append (w : IntWidth) (text : Bytes) {behind : Bytes}
    (hbehind : (read text).1.conversion = none → behind = []) :
    read (((read text).1.withWidth w).text ++ behind) = ((read text).1.withWidth w, behind) := by
  have hself : read (read text).1.text = ((read text).1, []) := by
    have hsplit : (read text).2 = [] ++ (read text).2 := rfl
    have hfront := read_front hsplit
    rwa [List.append_nil] at hfront
  have hread := read_withWidth w hself
  cases hc : (read text).1.conversion with
  | none => rw [hbehind hc, List.append_nil, hread]
  | some c =>
    refine (read_append_iff ?_ _ [] behind).mpr hread
    rw [conversion_withWidth, hc]
    rfl

end Spelling

namespace Segment

/-- The segment with the width of its integer written out. -/
def withWidth (w : IntWidth) : Segment → Segment
  | literal text => literal text
  | directive s => directive (s.withWidth w)

/-- The format with the widths of its integers written out. -/
def formatWithWidth (w : IntWidth) (format : Bytes) : Bytes :=
  ((ofFormat format).map (withWidth w)).flatMap source

/-- A format that does not open with a literal run does not do so afterwards. -/
theorem head_formatWithWidth (w : IntWidth) {format : Bytes}
    (h : ∀ c ∈ format.head?, isLiteral c = false) :
    ∀ c ∈ (formatWithWidth w format).head?, isLiteral c = false := by
  cases format with
  | nil =>
    rw [formatWithWidth, ofFormat_nil]
    exact h
  | cons b rest =>
    have hb : b = percent := by simpa [isLiteral] using h b rfl
    rw [formatWithWidth, hb, ofFormat_percent]
    intro c hc
    obtain rfl : percent = c := Option.some.inj hc
    rfl

theorem ofFormat_withWidth (w : IntWidth) (format : Bytes) :
    ofFormat (formatWithWidth w format) = (ofFormat format).map (withWidth w) := by
  fun_induction ofFormat format with
  | case1 => rw [formatWithWidth, ofFormat_nil]; exact ofFormat_nil
  | case2 b rest hb ih =>
    have hhead := head_formatWithWidth w (head_dropWhile rest)
    rw [formatWithWidth, ofFormat_literal hb, List.map_cons, List.flatMap_cons,
      withWidth, source, List.cons_append, ← formatWithWidth, ofFormat_run hb mem_takeWhile hhead,
      ih]
  | case3 b rest hb ih =>
    have hb' : b = percent := by simpa [isLiteral] using hb
    have hend : (Spelling.read rest).1.conversion = none →
        formatWithWidth w (Spelling.read rest).2 = [] := by
      intro hnone
      rw [Spelling.read_eq_nil hnone, formatWithWidth, ofFormat_nil]
      rfl
    rw [formatWithWidth, hb', ofFormat_percent, List.map_cons, List.flatMap_cons, withWidth,
      source, Spelling.source, List.cons_append, ← formatWithWidth, ofFormat_percent,
      Spelling.read_withWidth_append w rest hend, ih]

end Segment
end PrintFormat
