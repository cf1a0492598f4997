import PrintFormat.Proofs.Checked.Directive
import PrintFormat.Proofs.Render.Transcript
import PrintFormat.Proofs.Segment.Cut

/-!
The grammar of directives. `Spelling.Greedy` says, part by part, that nothing
more could have been taken for a part from what is written behind it, and
`Spelling.Means` what the parts ask for. A reader `Takes` a grammar if it reads
what was written, and no more, exactly where the grammar leaves the rest over;
readers in a row take the grammars in a row, so that the reading of a directive
takes the greedy spellings (`Spelling.read_iff`). The main statement,
`Checked.extract_grammar`, is about the reading by index: at every percent sign
of a format it finds the only greedy spelling, ends behind it and answers what
this means.
-/
namespace PrintFormat

/-! ## Readers and grammars -/

/-- A run of listed bytes that goes on as far as it can: no listed byte opens
what is behind it. -/
structure IsRun (bytes run behind : Bytes) : Prop where
  all : ∀ b ∈ run, b ∈ bytes
  ends : ∀ b ∈ behind.head?, b ∉ bytes

/-- A reader that takes what `write` writes of a part, where the part leaves the
rest over. -/
structure Takes {α : Type} (read : Bytes → α × Bytes) (write : α → Bytes)
    (leaves : α → Bytes → Prop) : Prop where
  iff : ∀ text a rest, read text = (a, rest) ↔ text = write a ++ rest ∧ leaves a rest

namespace Takes

theorem readBoth {α β : Type} {f : Bytes → α × Bytes} {g : α → Bytes → β × Bytes}
    {writeFirst : α → Bytes} {leavesFirst : α → Bytes → Prop} {write : α → β → Bytes}
    {leaves : α → β → Bytes → Prop} (hf : Takes f writeFirst leavesFirst)
    (hg : ∀ a, Takes (g a) (write a) (leaves a)) :
    Takes (readBoth f g) (fun p => writeFirst p.1 ++ write p.1 p.2)
      (fun p rest => leavesFirst p.1 (write p.1 p.2 ++ rest) ∧ leaves p.1 p.2 rest) where
  iff text p rest := by
    obtain ⟨a, b⟩ := p
    simp only [readBoth_eq_iff, hf.iff, (hg a).iff, List.append_assoc]
    constructor
    · rintro ⟨middle, ⟨rfl, hfirst⟩, rfl, hsecond⟩
      exact ⟨rfl, hfirst, hsecond⟩
    · rintro ⟨rfl, hfirst, hsecond⟩
      exact ⟨_, ⟨rfl, hfirst⟩, rfl, hsecond⟩

theorem takeByte (b : UInt8) :
    Takes (takeByte b) (fun taken => if taken then [b] else [])
      (fun taken rest => taken = false → rest.head? ≠ some b) where
  iff text taken rest := by
    constructor
    · intro h
      have htext := takeByte_append b text
      rw [h] at htext
      refine ⟨htext.symm, ?_⟩
      rintro rfl hhead
      obtain ⟨rest, rfl⟩ := List.head?_eq_some_iff.mp hhead
      rw [← htext] at h
      simp [PrintFormat.takeByte] at h
    · rintro ⟨rfl, hends⟩
      cases taken with
      | true => simp [PrintFormat.takeByte]
      | false =>
        cases rest with
        | nil => rfl
        | cons c rest =>
          have hc : c ≠ b := by simpa using hends rfl
          simp [PrintFormat.takeByte, hc]

/-- The longest front of listed bytes is a run of them. -/
theorem span {p : UInt8 → Bool} {bytes : Bytes} (hp : ∀ b, p b = true ↔ b ∈ bytes) :
    Takes (fun text => (text.takeWhile p, text.dropWhile p)) id (IsRun bytes) where
  iff text run rest := by
    constructor
    · intro h
      obtain ⟨rfl, rfl⟩ := Prod.mk.injEq .. ▸ h
      refine ⟨List.takeWhile_append_dropWhile.symm, fun b hb => (hp b).mp ?_, fun b hb => ?_⟩
      · exact List.mem_takeWhile_imp hb
      · have hnot := List.head?_dropWhile_not p text
        rw [Option.mem_def.mp hb] at hnot
        exact mt (hp b).mpr (by simpa using hnot)
    · rintro ⟨rfl, hrun⟩
      have hall : ∀ b ∈ run, p b = true := fun b hb => (hp b).mpr (hrun.all b hb)
      rw [id, List.takeWhile_append_of_pos hall, List.dropWhile_append_of_pos hall]
      cases rest with
      | nil => rw [List.takeWhile_nil, List.dropWhile_nil, List.append_nil]
      | cons b rest =>
        have hb : ¬p b = true := mt (hp b).mp (hrun.ends b rfl)
        rw [List.takeWhile_cons_of_neg hb, List.dropWhile_cons_of_neg hb, List.append_nil]

end Takes

/-! ## The parts of a directive -/

theorem isFlag_iff (b : UInt8) : isFlag b = true ↔ b ∈ ascii "-+ #*" := decide_eq_true_iff

theorem isWidthFlag_iff (b : UInt8) : isWidthFlag b = true ↔ b ∈ ascii "-+ #*0" := by
  rw [isWidthFlag, Bool.or_eq_true, isFlag_iff, beq_iff_eq,
    show ascii "-+ #*0" = ascii "-+ #*" ++ [zero] from rfl, List.mem_append, List.mem_singleton]

theorem isDigit_iff (b : UInt8) : isDigit b = true ↔ b ∈ ascii "0123456789" := by
  have h : ∀ n : Fin 256, isDigit (UInt8.ofFin n) = true ↔ UInt8.ofFin n ∈ ascii "0123456789" := by
    decide +kernel
  exact h b.toFin

namespace LengthModifier

theorem text_inj {m n : LengthModifier} (h : m.text = n.text) : m = n := by
  cases m <;> cases n <;> first | rfl | exact absurd h (by decide)

/-- The modifier that is found is the longest of those that a text opens with: a
doubled letter is looked for before the single one. -/
theorem length_le_of_first? {text : Bytes} {m n : LengthModifier} (hm : first? text = some m)
    (hn : n.text <+: text) : n.text.length ≤ m.text.length := by
  have hprefix := List.isPrefixOf_iff_prefix.mpr hn
  have hlength := m.length_text
  cases n with
  | hh =>
    have hfound : first? text = some hh := List.find?_cons_of_pos hprefix
    rw [hm, Option.some.injEq] at hfound
    rw [hfound]
  | ll =>
    -- a text that opens with the one letter does not open with the other
    have hfound : first? text = some ll := by
      obtain ⟨rest, rfl⟩ := hn
      rfl
    rw [hm, Option.some.injEq] at hfound
    rw [hfound]
  | h | l | capitalL | q => exact hlength.1

end LengthModifier

namespace Spelling

/-- No modifier is longer than the one that was taken, of all that a text opens
with. -/
def IsLongest (modifier : Option LengthModifier) (rest : Bytes) : Prop :=
  ∀ m : LengthModifier, m.text <+: modifierText modifier ++ rest →
    m.text.length ≤ (modifierText modifier).length

theorem isLongest_readModifier (text : Bytes) :
    IsLongest (readModifier text).1 (readModifier text).2 := by
  intro m hm
  rw [readModifier_append] at hm
  cases h : LengthModifier.first? text with
  | none =>
    have hnot := List.find?_eq_none.mp h m (by cases m <;> decide)
    exact absurd (List.isPrefixOf_iff_prefix.mpr hm) hnot
  | some found =>
    rw [readModifier_of_some h]
    exact LengthModifier.length_le_of_first? h hm

/-- One of two modifiers that a text opens with is longer. -/
theorem IsLongest.modifierText_eq {a b : Option LengthModifier} {x y : Bytes}
    (h : modifierText a ++ x = modifierText b ++ y) (ha : IsLongest a x) (hb : IsLongest b y) :
    modifierText a = modifierText b := by
  have hle {a b : Option LengthModifier} {x y : Bytes}
      (h : modifierText a ++ x = modifierText b ++ y) (ha : IsLongest a x) :
      (modifierText b).length ≤ (modifierText a).length := by
    cases b with
    | none => exact Nat.zero_le _
    | some m => exact ha m ⟨y, h.symm⟩
  exact List.append_inj_left h ((hle h.symm hb).antisymm (hle h ha))

theorem modifierText_inj {a b : Option LengthModifier} (h : modifierText a = modifierText b) :
    a = b := by
  have hlength (m : LengthModifier) : m.text ≠ [] := List.ne_nil_of_length_pos m.length_text.1
  cases a with
  | none =>
    cases b with
    | none => rfl
    | some n => exact absurd h.symm (hlength n)
  | some m =>
    cases b with
    | none => exact absurd h (hlength m)
    | some n => exact congrArg some (LengthModifier.text_inj h)

theorem takes_readModifier : Takes readModifier modifierText IsLongest where
  iff text modifier rest := by
    have htext := readModifier_append text
    have hlongest := isLongest_readModifier text
    constructor
    · intro h
      rw [h] at htext hlongest
      exact ⟨htext.symm, hlongest⟩
    · rintro ⟨rfl, hrest⟩
      have hsame := hlongest.modifierText_eq htext hrest
      rw [hsame, List.append_cancel_left_eq] at htext
      exact Prod.ext (modifierText_inj hsame) htext

/-- A precision that could not have been longer: without one no point follows,
and with one its flags and its digits are runs. -/
def PrecisionEnds : Option (Bytes × Bytes) → Bytes → Prop
  | none, rest => rest.head? ≠ some 46
  | some (flags, digits), rest =>
      IsRun (ascii "-+ #*") flags (digits ++ rest) ∧ IsRun (ascii "0123456789") digits rest

theorem takes_readSide :
    Takes readSide (fun p => p.1 ++ p.2) (fun p => PrecisionEnds (some p)) :=
  (Takes.span isFlag_iff).readBoth fun _ => Takes.span isDigit_iff

theorem readPrecision_of_head {text : Bytes} (h : text.head? ≠ some 46) :
    readPrecision text = (none, text) := by
  cases text with
  | nil => rfl
  | cons b text => exact readPrecision_of_ne (fun hb => h (hb ▸ rfl)) text

theorem takes_readPrecision : Takes readPrecision precisionText PrecisionEnds where
  iff text precision rest := by
    by_cases hpoint : text.head? = some 46
    · obtain ⟨behind, rfl⟩ := List.head?_eq_some_iff.mp hpoint
      rw [readPrecision_point]
      cases precision with
      | none =>
        refine iff_of_false (by simp) ?_
        rintro ⟨rfl, hno⟩
        exact hno rfl
      | some side =>
        have hside := takes_readSide.iff behind side rest
        rw [Prod.mk.injEq, Option.some.injEq, ← Prod.mk.injEq, hside, precisionText,
          List.cons_append, List.cons.injEq, eq_self, true_and]
    · rw [readPrecision_of_head hpoint]
      cases precision with
      | none =>
        constructor
        · rintro ⟨⟩
          exact ⟨rfl, hpoint⟩
        · rintro ⟨rfl, -⟩
          rfl
      | some side =>
        refine iff_of_false (by simp) ?_
        rintro ⟨rfl, -⟩
        exact hpoint rfl

/-! ## Spellings -/

section Behind

variable (s : Spelling) (behind : Bytes)

/-- What is written behind the length modifier. -/
def behindModifier : Bytes := s.conversion.toList ++ behind

/-- What is written behind the precision. -/
def behindPrecision : Bytes := modifierText s.modifier ++ s.behindModifier behind

/-- What is written behind the digits of the width. -/
def behindWidth : Bytes := precisionText s.precision ++ s.behindPrecision behind

/-- What is written behind the exclamation mark and the caret. -/
def behindMode : Bytes := s.widthFlags ++ (s.widthDigits ++ s.behindWidth behind)

/-- What is written behind the exclamation mark. -/
def behindBang : Bytes := (if s.caret then [94] else []) ++ s.behindMode behind

/-- No part could have been longer, in front of what is written behind it. -/
structure Greedy : Prop where
  bang : s.bang = false → (s.behindBang behind).head? ≠ some 33
  caret : if s.bang then s.caret = false → (s.behindMode behind).head? ≠ some 94
    else s.caret = false
  widthFlags : IsRun (ascii "-+ #*0") s.widthFlags (s.widthDigits ++ s.behindWidth behind)
  widthDigits : IsRun (ascii "0123456789") s.widthDigits (s.behindWidth behind)
  precision : PrecisionEnds s.precision (s.behindPrecision behind)
  modifier : IsLongest s.modifier (s.behindModifier behind)
  conversion : s.conversion = none → behind = []

theorem text_append :
    s.text ++ behind = (if s.bang then [33] else []) ++ s.behindBang behind := by
  simp only [text, behindBang, behindMode, behindWidth, behindPrecision, behindModifier,
    List.append_assoc]

end Behind

theorem takes_caret (bang : Bool) :
    Takes (fun text => if bang then takeByte 94 text else (false, text))
      (fun caret => if caret then [94] else [])
      (fun caret rest => if bang then caret = false → rest.head? ≠ some 94 else caret = false) where
  iff text caret rest := by
    cases bang with
    | true => exact (Takes.takeByte 94).iff text caret rest
    | false =>
      constructor
      · rintro ⟨⟩
        exact ⟨rfl, rfl⟩
      · rintro ⟨rfl, hno⟩
        obtain rfl : caret = false := hno
        rfl

/-- The parts in front of the conversion byte are taken as they are written. -/
theorem readParts_iff (s : Spelling) (text behind : Bytes) :
    readParts text = ((s.bang, s.caret, s.widthFlags, s.widthDigits, s.precision, s.modifier),
        s.behindModifier behind) ↔
      text = (if s.bang then [33] else []) ++ s.behindBang behind ∧
      (s.bang = false → (s.behindBang behind).head? ≠ some 33) ∧
      (if s.bang then s.caret = false → (s.behindMode behind).head? ≠ some 94
        else s.caret = false) ∧
      IsRun (ascii "-+ #*0") s.widthFlags (s.widthDigits ++ s.behindWidth behind) ∧
      IsRun (ascii "0123456789") s.widthDigits (s.behindWidth behind) ∧
      PrecisionEnds s.precision (s.behindPrecision behind) ∧
      IsLongest s.modifier (s.behindModifier behind) := by
  have h := ((Takes.takeByte 33).readBoth fun bang => (takes_caret bang).readBoth fun _ =>
    (Takes.span isWidthFlag_iff).readBoth fun _ => (Takes.span isDigit_iff).readBoth fun _ =>
    takes_readPrecision.readBoth fun _ => takes_readModifier).iff text
      (s.bang, s.caret, s.widthFlags, s.widthDigits, s.precision, s.modifier)
      (s.behindModifier behind)
  simp only [id, List.append_assoc] at h
  exact h

/-- The conversion byte is the next one, and without one nothing is left. -/
theorem head_tail_iff {rest behind : Bytes} {conversion : Option UInt8} :
    rest.head? = conversion ∧ rest.tail = behind ↔
      rest = conversion.toList ++ behind ∧ (conversion = none → behind = []) := by
  cases conversion with
  | none =>
    constructor
    · rintro ⟨hhead, rfl⟩
      obtain rfl := List.head?_eq_none_iff.mp hhead
      exact ⟨rfl, fun _ => rfl⟩
    · rintro ⟨rfl, hbehind⟩
      obtain rfl := hbehind rfl
      exact ⟨rfl, rfl⟩
  | some b =>
    constructor
    · rintro ⟨hhead, rfl⟩
      exact ⟨List.eq_cons_of_mem_head? hhead, nofun⟩
    · rintro ⟨rfl, -⟩
      exact ⟨rfl, rfl⟩

theorem read_iff_readParts (s : Spelling) (text behind : Bytes) :
    read text = (s, behind) ↔
      readParts text = ((s.bang, s.caret, s.widthFlags, s.widthDigits, s.precision, s.modifier),
        s.behindModifier behind) ∧ (s.conversion = none → behind = []) := by
  rw [read_eq]
  obtain ⟨⟨bang, caret, widthFlags, widthDigits, precision, modifier⟩, rest⟩ := readParts text
  obtain ⟨bang', caret', widthFlags', widthDigits', precision', modifier', conversion'⟩ := s
  simp only [behindModifier, Prod.mk.injEq, Spelling.mk.injEq, and_assoc, head_tail_iff]

/-- A directive is read where it is written and could not have been longer. -/
theorem read_iff (s : Spelling) (text behind : Bytes) :
    read text = (s, behind) ↔ text = s.text ++ behind ∧ s.Greedy behind := by
  rw [read_iff_readParts, readParts_iff, text_append]
  constructor
  · rintro ⟨⟨htext, hbang, hcaret, hflags, hdigits, hprecision, hmodifier⟩, hend⟩
    exact ⟨htext, hbang, hcaret, hflags, hdigits, hprecision, hmodifier, hend⟩
  · rintro ⟨htext, hbang, hcaret, hflags, hdigits, hprecision, hmodifier, hend⟩
    exact ⟨⟨htext, hbang, hcaret, hflags, hdigits, hprecision, hmodifier⟩, hend⟩

/-- A directive is read from its own text as it is read in front of a rest. -/
theorem Greedy.read_text {s : Spelling} {behind : Bytes} (h : s.Greedy behind) :
    read s.text = (s, []) := by
  have hread := (read_iff s _ behind).mpr ⟨rfl, h⟩
  have hrest : (read (s.text ++ behind)).2 = [] ++ behind := congrArg Prod.snd hread
  have hfront := read_front hrest
  rwa [hread, List.append_nil] at hfront

/-! ## Meanings -/

/-- The number that decimal digits write. -/
def number (digits : Bytes) : Nat := ofDigits 10 (digits.map fun b => b.toNat - 48)

/-- What flags and digits say of a width or a precision. -/
structure MeansMeasure (flags digits : Bytes) (given : Prop) (m : Measure) : Prop where
  value : m.value = if minus ∈ flags then -(min (number digits : Int) (2 ^ 31 - 1))
    else min (number digits : Int) (2 ^ 31 - 1)
  isGiven : m.isGiven = true ↔ given
  negative : m.negative = true ↔ minus ∈ flags
  star : m.star = true ↔ 42 ∈ flags

/-- The flags behind the point. -/
def precisionFlags (s : Spelling) : Bytes := (s.precision.map Prod.fst).getD []

/-- The digits behind the point. -/
def precisionDigits (s : Spelling) : Bytes := (s.precision.map Prod.snd).getD []

/-- What the parts of a directive say. -/
structure Means (s : Spelling) (d : Directive) : Prop where
  extended : d.extended = true ↔ s.bang = true
  width : MeansMeasure s.widthFlags s.widthDigits (s.widthDigits ≠ []) d.width
  precision : MeansMeasure s.precisionFlags s.precisionDigits (s.precision ≠ none) d.precision
  zeroFill : d.zeroFill = true ↔ zero ∈ s.widthFlags
  size : d.size = match s.modifier with
    | none => .normal
    | some .hh => .byte
    | some .h => .half
    | some .l => .long
    | some .ll | some .capitalL | some .q => .longLong
  sign : d.sign =
    if 43 ∈ s.widthFlags ∨ 43 ∈ s.precisionFlags then .plus
    else if blank ∈ s.widthFlags ∨ blank ∈ s.precisionFlags then .space
    else .omit
  alternate : d.alternate = true ↔
    35 ∈ s.widthFlags ∨ 35 ∈ s.precisionFlags ∨ s.caret = true
  conversion : d.conversion = s.conversion

theorem meansMeasure_measure (flags digits : Bytes) (given : Bool) :
    MeansMeasure flags digits (given = true) (measure flags digits given) := by
  have hlimit : (measureValue digits : Int) = min (number digits : Int) (2 ^ 31 - 1) := by
    unfold measureValue measureLimit number
    omega
  refine ⟨?_, Iff.rfl, decide_eq_true_iff, decide_eq_true_iff⟩
  rw [← hlimit]
  rfl

theorem means_directive (s : Spelling) : s.Means s.directive := by
  have hflags : s.flags = s.widthFlags ++ s.precisionFlags := rfl
  refine ⟨Iff.rfl, ?_, ?_, decide_eq_true_iff, ?_, ?_, ?_, rfl⟩
  · have := meansMeasure_measure s.widthFlags s.widthDigits (!s.widthDigits.isEmpty)
    simp only [Bool.not_eq_true', List.isEmpty_eq_false_iff] at this
    exact this
  · cases h : s.precision with
    | none =>
      have := meansMeasure_measure [] [] false
      simp only [Bool.false_eq_true] at this
      simp only [directive, precisionFlags, precisionDigits, h, ne_eq, not_true_eq_false]
      exact this
    | some side =>
      have := meansMeasure_measure side.1 side.2 true
      simp only [directive, precisionFlags, precisionDigits, h, ne_eq, reduceCtorEq,
        not_false_eq_true]
      simp only at this
      exact this
  · cases h : s.modifier with
    | none => simp only [directive, h]; rfl
    | some m => cases m <;> simp only [directive, h] <;> rfl
  · simp only [directive, hflags, List.mem_append]
  · simp only [directive, hflags, List.mem_append, Bool.or_eq_true, decide_eq_true_eq]
    tauto

theorem MeansMeasure.unique {flags digits : Bytes} {given : Prop} {m n : Measure}
    (hm : MeansMeasure flags digits given m) (hn : MeansMeasure flags digits given n) : m = n := by
  have hvalue := hm.value.trans hn.value.symm
  have hgiven := Bool.eq_iff_iff.mpr (hm.isGiven.trans hn.isGiven.symm)
  have hnegative := Bool.eq_iff_iff.mpr (hm.negative.trans hn.negative.symm)
  have hstar := Bool.eq_iff_iff.mpr (hm.star.trans hn.star.symm)
  cases m
  cases n
  simp_all only

theorem means_iff (s : Spelling) (d : Directive) : s.Means d ↔ d = s.directive := by
  constructor
  · intro h
    have hs := s.means_directive
    have hextended := Bool.eq_iff_iff.mpr (h.extended.trans hs.extended.symm)
    have hwidth := h.width.unique hs.width
    have hprecision := h.precision.unique hs.precision
    have hzero := Bool.eq_iff_iff.mpr (h.zeroFill.trans hs.zeroFill.symm)
    have hsize := h.size.trans hs.size.symm
    have hsign := h.sign.trans hs.sign.symm
    have halternate := Bool.eq_iff_iff.mpr (h.alternate.trans hs.alternate.symm)
    have hconversion := h.conversion.trans hs.conversion.symm
    cases d
    simp_all only
  · rintro rfl
    exact s.means_directive

end Spelling

/-! ## Directives of a format -/

namespace Directive

theorem resolveStars_plain {d : Directive} (hwidth : d.width.star = false)
    (hprecision : d.precision.star = false) (c : Cursor) : d.resolveStars c = .ok () (d, c) := by
  simp only [resolveStars, hwidth, hprecision, Bool.false_eq_true, if_false]

end Directive

namespace Rendering

/-- The directive that a render has entered last. -/
def Holds (d : Directive) (r : Rendering) : Prop := r.context.directive = d

variable {d : Directive} {options : Options} {r : Rendering}

theorem holds_deliver (pieces : List Piece) (h : r.Holds d) :
    (Action.left (deliver pieces r)).Holds d := by
  obtain ⟨context, cursor, sink⟩ := r
  unfold deliver
  cases hput : Sink.putAll pieces sink <;> simp only [hput] <;> exact h

theorem holds_resolveStars (hwidth : d.width.star = false) (hprecision : d.precision.star = false)
    (h : r.Holds d) : (Action.left (resolveStars r)).Holds d := by
  have hstars := Directive.resolveStars_plain hwidth hprecision r.cursor
  rw [← show r.context.directive = d from h] at hstars
  rw [resolveStars_ok hstars]
  exact h

theorem holds_compose (c : Conversion) (h : r.Holds d) :
    (Action.left (compose options c r)).Holds d := by
  obtain ⟨context, cursor, sink⟩ := r
  unfold compose
  cases hfield : c.field context.directive options ⟨context.scratch, cursor⟩ <;>
    simp only [hfield] <;> exact h

/-- A directive without stars is held to the end of its segment, whatever was
held before. -/
theorem holds_segment {s : Spelling} (hwidth : s.directive.width.star = false)
    (hprecision : s.directive.precision.star = false) (r : Rendering) :
    (Action.left (segment options (.directive s) r)).Holds s.directive := by
  have houtput (r : Rendering) (h : r.Holds s.directive) :
      (Action.left (output options s r)).Holds s.directive := by
    unfold output
    cases s.directive.conversion? with
    | none => exact h
    | some c =>
      refine Action.bind_left (holds_resolveStars hwidth hprecision h) fun _ r h => ?_
      exact Action.bind_left (holds_compose c h) fun _ _ h => h
  have henter : (Action.left (enter s.directive r)).Holds s.directive := rfl
  refine Action.bind_left henter fun _ r h => ?_
  refine Action.bind_left (houtput r h) fun pieces r h => ?_
  exact Action.bind_left (holds_deliver pieces h) fun _ _ h => h

end Rendering

theorem Context.directive_render {s : Spelling} (hread : Spelling.read s.text = (s, []))
    (hwidth : s.directive.width.star = false) (hprecision : s.directive.precision.star = false)
    (context : Context) (sink : Sink) (args : List Arg) (options : Options) :
    (context.render sink s.source args options).context.directive = s.directive := by
  have hsegments : Segment.ofFormat s.source = [.directive s] := by
    rw [Spelling.source, Segment.ofFormat_percent, hread, Segment.ofFormat_nil]
  have h := @Rendering.holds_segment options _ hwidth hprecision ⟨context, ⟨args, 0⟩, sink⟩
  unfold render
  rw [hsegments, Rendering.segments, Action.forM_singleton]
  cases hrun : Rendering.segment options (.directive s) ⟨context, ⟨args, 0⟩, sink⟩ with
  | ok _ r =>
    rw [hrun] at h
    exact h
  | error e r =>
    rw [hrun] at h
    exact h

/-- At a percent sign of a format stands one greedy spelling of a directive, and
only one. The reading by index ends right behind it and answers the one
directive that it means, without a breach; a doubled percent sign is the
conversion of that name and nothing else. A render of the directive goes on with
that reading, whatever its context held before. -/
theorem Checked.extract_grammar {format : Bytes} {position : Nat}
    (h : format[position]? = some percent) :
    (∃ (s : Spelling) (behind : Bytes),
      format.drop position = s.source ++ behind ∧ s.Greedy behind) ∧
    ∀ (s : Spelling) (behind : Bytes), format.drop position = s.source ++ behind →
      s.Greedy behind →
        Spelling.read (format.drop (position + 1)) = (s, behind) ∧
        (∀ d, s.Means d ↔ d = s.directive) ∧
        (∀ σ : Type, (extract format position : Checked σ (Nat × Directive)) =
          pure (position + s.source.length, s.directive)) ∧
        (format[position + 1]? = some percent →
          s.source = ascii "%%" ∧ s.directive = { conversion := some percent }) ∧
        ∀ (context : PrintFormat.Context) (sink : Sink) (args : List Arg) (options : Options),
          42 ∉ s.widthFlags → 42 ∉ s.precisionFlags →
            (context.render sink s.source args options).context.directive = s.directive := by
  obtain ⟨hlt, hbyte⟩ := List.getElem?_eq_some_iff.mp h
  have hfirst : format.drop position = percent :: format.drop (position + 1) := by
    rw [List.drop_eq_getElem_cons hlt, hbyte]
  have hfrom : From format position (percent :: format.drop (position + 1)) := ⟨hfirst, hlt.le⟩
  have hread (s : Spelling) (behind : Bytes) :
      format.drop position = s.source ++ behind ∧ s.Greedy behind ↔
        Spelling.read (format.drop (position + 1)) = (s, behind) := by
    rw [Spelling.read_iff, hfirst, Spelling.source, List.cons_append, List.cons.injEq, eq_self,
      true_and]
  refine ⟨⟨_, _, (hread _ _).mpr rfl⟩, fun s behind hdrop hgreedy => ?_⟩
  have hs := (hread s behind).mp ⟨hdrop, hgreedy⟩
  refine ⟨hs, s.means_iff, fun σ => ?_, fun hsecond => ?_, ?_⟩
  · rw [extract_eq hfrom, hs]
  · -- a percent sign is no part of a directive but its conversion byte
    have htext : format.drop (position + 1) = percent :: format.drop (position + 2) := by
      obtain ⟨hlt, hbyte⟩ := List.getElem?_eq_some_iff.mp hsecond
      rw [List.drop_eq_getElem_cons hlt, hbyte]
    rw [htext, read_percent, Prod.mk.injEq] at hs
    obtain ⟨rfl, -⟩ := hs
    exact ⟨rfl, rfl⟩
  · intro context sink args options hwidth hprecision
    have hno := s.means_directive
    have hwidth : s.directive.width.star = false :=
      Bool.eq_false_iff.mpr (mt hno.width.star.mp hwidth)
    have hprecision : s.directive.precision.star = false :=
      Bool.eq_false_iff.mpr (mt hno.precision.star.mp hprecision)
    exact context.directive_render hgreedy.read_text hwidth hprecision sink args options

/-- A directive with every part, in front of a byte that it leaves over. -/
theorem Checked.extract_grammar_full :
    let format := ascii "a%!^-0*12.+-99999999999llqz"
    let s : Spelling :=
      { bang := true, caret := true, widthFlags := ascii "-0*", widthDigits := ascii "12",
        precision := some (ascii "+-", ascii "99999999999"), modifier := some .ll,
        conversion := some 113 }
    let d : Directive :=
      { width := ⟨-12, true, true, true⟩, precision := ⟨-2147483647, true, true, false⟩,
        zeroFill := true, size := .longLong, sign := .plus, alternate := true, extended := true,
        conversion := some 113 }
    format[1]? = some percent ∧ format.drop 1 = s.source ++ ascii "z" ∧ s.Greedy (ascii "z") ∧
      s.Means d ∧ (extract format 1 : Checked Unit (Nat × Directive)) = pure (26, d) := by
  intro format s d
  have hpercent : format[1]? = some percent := by decide
  have hdrop : format.drop 1 = s.source ++ ascii "z" := by decide
  have hread : Spelling.read (ascii "!^-0*12.+-99999999999llqz") = (s, ascii "z") := by
    show _ = (Spelling.mk true true (ascii "-0*") (ascii "12")
      (some (ascii "+-", ascii "99999999999")) (some .ll) (some 113), ascii "z")
    cbv
  have hgreedy := ((s.read_iff _ _).mp hread).2
  obtain ⟨-, hmeans, hextract, -, -⟩ := (extract_grammar hpercent).2 s _ hdrop hgreedy
  have hd : d = s.directive := by decide +kernel
  have hlength : 1 + s.source.length = 26 := by decide
  refine ⟨hpercent, hdrop, hgreedy, (hmeans d).mpr hd, ?_⟩
  rw [hextract Unit, hlength, hd]

end PrintFormat
