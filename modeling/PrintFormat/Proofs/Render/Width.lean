import PrintFormat.Proofs.Directive.Modifier
import PrintFormat.Proofs.Render.Overflow

/-!
What the options of a render act on. The width is only seen together with the
size that a directive names, by the conversions of integers, and the rounding
only by those of floats (`Conversion.taken_resize`). Hence a render under some
width is the render, under any width, of the format in which that width is
written out, and a format without floats renders alike under every rounding
(`Context.render_options`).
-/
namespace PrintFormat

/-! ## Conversions -/

namespace Conversion

/-- A conversion that looks at as many bits of its argument as it is told. -/
def looksAtWidth : Conversion → Bool
  | standard .signed | standard .unsigned | standard .octal | standard .hex | standard .hexUpper
  | extended .binary | extended .octal | extended .hex => true
  | _ => false

/-- Sizes and options that a conversion does not tell apart: if it looks at a
width, then at as many bits, and if it is one of floats, then it rounds alike. -/
structure Unmoved (c : Conversion) (size : SizeClass) (options : Options) (size' : SizeClass)
    (options' : Options) : Prop where
  bits : c.looksAtWidth → size.bits options.intWidth = size'.bits options'.intWidth
  rounding : c.IsFloat → options.rounding = options'.rounding

end Conversion

/-- The directive with another size. -/
def Directive.resize (size : SizeClass) (d : Directive) : Directive := { d with size }

section Compose

variable {d : Directive} {size : SizeClass} {options options' : Options}

theorem Standard.compose_resize {c : Standard}
    (h : (Conversion.standard c).Unmoved d.size options size options') :
    c.compose (d.resize size) options' = c.compose d options := by
  obtain ⟨hbits, hrounding⟩ := h
  funext v
  cases c with
  | signed | unsigned | octal | hex | hexUpper =>
    have hsize : (d.resize size).size.bits options'.intWidth = d.size.bits options.intWidth :=
      (hbits rfl).symm
    unfold compose
    dsimp only
    rw [hsize]
    rfl
  | float | floatUpper =>
    have hround : options'.rounding = options.rounding :=
      (hrounding (by simp [Conversion.IsFloat])).symm
    unfold compose convertFloat
    dsimp only
    rw [hround]
    rfl
  | text | character | pointer => rfl

theorem composeGroups_resize
    (h : d.size.bits options.intWidth = size.bits options'.intWidth) (v : BitVec 64) (b : Base)
    (upper : Bool) (group : Nat) :
    composeGroups (d.resize size) options' v b upper group =
      composeGroups d options v b upper group := by
  have hsize : (d.resize size).size.bits options'.intWidth = d.size.bits options.intWidth :=
    h.symm
  unfold composeGroups
  rw [hsize]
  rfl

theorem Extended.compose_resize {c : Extended}
    (h : (Conversion.extended c).Unmoved d.size options size options') :
    c.compose (d.resize size) options' = c.compose d options := by
  funext v
  cases c with
  | binary => exact composeGroups_resize (h.bits rfl) v .binary false 8
  | octal => exact composeGroups_resize (h.bits rfl) v .octal false 1
  | hex => exact composeGroups_resize (h.bits rfl) v .hexadecimal d.alternate 2
  | clockOfSeconds | clock | shortClockOfSeconds | shortClock | date | longDate | utc | truth
  | codePoint | phone | ipv4 | ipv6 | mac | macUpper | dotted | dottedUpper => rfl

theorem Conversion.taken_resize {c : Conversion} (h : c.Unmoved d.size options size options') :
    c.taken (d.resize size) options' = c.taken d options := by
  cases c with
  | percentSign => rfl
  | standard c => simp only [taken, Standard.compose_resize h]
  | extended c => simp only [taken, Extended.compose_resize h]

end Compose

/-! ## Directives -/

namespace Directive

/-- A directive for the number that a star takes, or the same one without a
star. -/
def drawStar (star : Bool) (f : Int → Directive) (d : Directive) :
    EStateM FormatError Cursor Directive :=
  if star then do
    return f (BitVec.toInt (← Cursor.take .integer))
  else
    return d

theorem drawStar_resize (size : SizeClass) (star : Bool) (f : Int → Directive) (d : Directive) :
    drawStar star (fun n => (f n).resize size) (d.resize size) = do
      return (← drawStar star f d).resize size := by
  unfold drawStar
  split
  · rw [bind_assoc]
    rfl
  · rfl

/-- Stars and size do not touch each other. -/
theorem resolved_resize (size : SizeClass) (d : Directive) :
    (d.resize size).resolved = do return (← d.resolved).resize size := by
  have hwidth : (d.resize size).starWidth = do return (← d.starWidth).resize size :=
    drawStar_resize size d.width.star d.withStarWidth d
  have hprecision (d : Directive) :
      (d.resize size).starPrecision = do return (← d.starPrecision).resize size :=
    drawStar_resize size d.precision.star d.withStarPrecision d
  unfold resolved
  rw [hwidth, bind_assoc, bind_assoc]
  refine bind_congr fun d' => ?_
  rw [pure_bind]
  exact hprecision d'

theorem size_resolved {d d' : Directive} {c rest : Cursor} (h : d.resolved c = .ok d' rest) :
    d'.size = d.size := by
  have hself := congrFun (resolved_resize d.size d) c
  rw [Action.bind_ok h] at hself
  have hsame : d.resolved c = .ok (d'.resize d.size) rest := hself
  rw [h, EStateM.Result.ok.injEq] at hsame
  rw [hsame.1]
  rfl

/-- A directive whose size is changed along with the options. -/
theorem output_resize {d : Directive} {size : SizeClass} {options options' : Options}
    {c : Conversion} (h : c.Unmoved d.size options size options') :
    (d.resize size).output options' c = d.output options c := by
  rw [output_eq, output_eq, resolved_resize, bind_assoc]
  funext cursor
  cases hd : d.resolved cursor with
  | error e rest => rw [Action.bind_error hd, Action.bind_error hd]
  | ok d' rest =>
    rw [← size_resolved hd] at h
    rw [Action.bind_ok hd, Action.bind_ok hd, pure_bind, Conversion.taken_resize h]

theorem output_options {d : Directive} {options options' : Options} {c : Conversion}
    (h : c.Unmoved d.size options d.size options') : d.output options' c = d.output options c :=
  output_resize h

end Directive

/-! ## Segments -/

theorem Spelling.looksAtWidth_iff (s : Spelling) :
    (∃ c, s.directive.conversion? = some c ∧ c.looksAtWidth) ↔
      ∃ b, s.conversion = some b ∧ b ∈ if s.bang then ascii "boH" else ascii "diuoxX" := by
  have hstandard (b : UInt8) :
      (∃ c, Standard.ofByte? b = some c ∧ (Conversion.standard c).looksAtWidth) ↔
        b ∈ ascii "diuoxX" := by
    have key : ∀ n : Fin 256,
        (Standard.ofByte? (.ofFin n)).any (fun c => (Conversion.standard c).looksAtWidth) ↔
          .ofFin n ∈ ascii "diuoxX" := by decide +kernel
    rw [← Option.any_eq_true]
    exact key b.toFin
  have hextended (b : UInt8) :
      (∃ c, Extended.ofByte? b = some c ∧ (Conversion.extended c).looksAtWidth) ↔
        b ∈ ascii "boH" := by
    have key : ∀ n : Fin 256,
        (Extended.ofByte? (.ofFin n)).any (fun c => (Conversion.extended c).looksAtWidth) ↔
          .ofFin n ∈ ascii "boH" := by decide +kernel
    rw [← Option.any_eq_true]
    exact key b.toFin
  exact conversion_in_iff Bool.false_ne_true hstandard hextended s

namespace Segment

/-- A directive whose width is written out looks at no other width. -/
theorem output_withWidth (w v : IntWidth) (rounding : Rounding) (seg : Segment) :
    (seg.withWidth w).output ⟨rounding, v⟩ = seg.output ⟨rounding, w⟩ := by
  cases seg with
  | literal text => rfl
  | directive s =>
    by_cases hlacks : s.lacksWidth
    · have hwritten : s.withWidth w = { s with modifier := some w.modifier } := if_pos hlacks
      obtain ⟨hnone, hbyte⟩ := Spelling.lacksWidth_iff.mp hlacks
      obtain ⟨c, hc, -⟩ := s.looksAtWidth_iff.mpr hbyte
      have hsize : s.directive.size = .normal := by
        rw [Spelling.directive, hnone]
        rfl
      have hdirective : (s.withWidth w).directive = s.directive.resize w.modifier.size := by
        rw [hwritten]
        rfl
      have hc' : (s.withWidth w).directive.conversion? = some c := by
        rw [hdirective]
        exact hc
      rw [withWidth, output_converted hc', output_converted hc, hdirective]
      refine Directive.output_resize ⟨fun _ => ?_, fun _ => rfl⟩
      rw [hsize]
      cases w <;> rfl
    · have hwritten : s.withWidth w = s := if_neg hlacks
      rw [withWidth, hwritten]
      cases hc : s.directive.conversion? with
      | none => rw [output_copied hc, output_copied hc]
      | some c =>
        rw [output_converted hc, output_converted hc]
        refine Directive.output_options ⟨fun hlooks => ?_, fun _ => rfl⟩
        -- the width is written out already
        cases hm : s.modifier with
        | none => exact absurd (Spelling.lacksWidth_iff.mpr
            ⟨hm, s.looksAtWidth_iff.mp ⟨c, hc, hlooks⟩⟩) hlacks
        | some m =>
          rw [Spelling.directive, hm]
          cases m <;> rfl

/-- A directive that is not for a float does not round. -/
theorem output_rounding (w : IntWidth) (rounding rounding' : Rounding) {seg : Segment}
    (h : ∀ s, seg = directive s →
      ¬ (s.bang = false ∧ ∃ b ∈ ascii "fFeEgG", s.conversion = some b)) :
    seg.output ⟨rounding', w⟩ = seg.output ⟨rounding, w⟩ := by
  cases seg with
  | literal text => rfl
  | directive s =>
    cases hc : s.directive.conversion? with
    | none => rw [output_copied hc, output_copied hc]
    | some c =>
      rw [output_converted hc, output_converted hc]
      refine Directive.output_options ⟨fun _ => rfl, fun hfloat => ?_⟩
      exact absurd (s.isFloat_iff.mp ⟨c, hc, hfloat⟩) (h s rfl)

end Segment

namespace Transcript

theorem ofSegments_map {options options' : Options} {f : Segment → Segment}
    {parts : List Segment}
    (h : ∀ seg ∈ parts, (f seg).output options' = seg.output options) (c : Cursor) :
    ofSegments options' (parts.map f) c = ofSegments options parts c := by
  induction parts generalizing c with
  | nil => rfl
  | cons seg rest ih =>
    have hrest := ih fun s hs => h s (List.mem_cons_of_mem seg hs)
    simp only [List.map_cons, ofSegments, h seg List.mem_cons_self, hrest]

theorem ofFormat_withWidth (w v : IntWidth) (rounding : Rounding) (format : Bytes)
    (args : List Arg) :
    ofFormat ⟨rounding, v⟩ (Segment.formatWithWidth w format) args =
      ofFormat ⟨rounding, w⟩ format args := by
  rw [ofFormat, Segment.ofFormat_withWidth]
  exact ofSegments_map (fun seg _ => seg.output_withWidth w v rounding) _

theorem ofFormat_rounding (w : IntWidth) (rounding rounding' : Rounding) {format : Bytes}
    (h : ∀ s, .directive s ∈ Segment.ofFormat format →
      ¬ (s.bang = false ∧ ∃ b ∈ ascii "fFeEgG", s.conversion = some b)) (args : List Arg) :
    ofFormat ⟨rounding', w⟩ format args = ofFormat ⟨rounding, w⟩ format args := by
  have houtput : ∀ seg ∈ Segment.ofFormat format,
      (id seg).output ⟨rounding', w⟩ = seg.output ⟨rounding, w⟩ := by
    intro seg hseg
    refine Segment.output_rounding w rounding rounding' ?_
    rintro s rfl
    exact h s hseg
  have hmap := ofSegments_map houtput ⟨args, 0⟩
  rwa [List.map_id] at hmap

end Transcript

/-! ## Renders -/

/-- The width of the options is the width of those integers whose directives do
not say theirs: a render under it comes to what the format comes to, under any
width, once that width is written out. Without a directive for a float the
rounding of the options is not seen either. -/
theorem Context.render_options (context : Context) (sink : Sink) (format : Bytes)
    (args : List Arg) :
    (∀ w v rounding, (context.render sink format args ⟨rounding, w⟩).Same
      (context.render sink (Segment.formatWithWidth w format) args ⟨rounding, v⟩)) ∧
    ((∀ s, .directive s ∈ Segment.ofFormat format →
        ¬ (s.bang = false ∧ ∃ b ∈ ascii "fFeEgG", s.conversion = some b)) →
      ∀ w rounding rounding', (context.render sink format args ⟨rounding, w⟩).Same
        (context.render sink format args ⟨rounding', w⟩)) := by
  refine ⟨?_, ?_⟩
  · intro w v rounding
    have hsame := Transcript.ofFormat_withWidth w v rounding format args
    exact context.render_same sink (by rw [hsame]) (by rw [hsame])
  · intro hfloats w rounding rounding'
    have hsame := Transcript.ofFormat_rounding w rounding rounding' hfloats args
    exact context.render_same sink (by rw [hsame]) (by rw [hsame])

/-- A signed number, one whose width is written out already, a group of bits and
a pointer, all beyond 16 bits: under that width, and with it written out. -/
theorem Context.render_options_pointer :
    let format := ascii "%+d %lx %!b %p"
    let args : List Arg := [.int 70000, .int (-1), .uint 65538, .pointer 70000]
    let whole := Context.render {} .empty format args ⟨.nearest, .w16⟩
    whole.sink.contents = ascii "+4464 ffffffff 00000010 70000" ∧
      Segment.formatWithWidth .w16 format = ascii "%+hd %lx %!hb %p" ∧
      whole.Same (Context.render {} .empty (ascii "%+hd %lx %!hb %p") args ⟨.nearest, .w32⟩) ∧
      whole.Same (Context.render {} .empty format args ⟨.truncate, .w16⟩) := by
  have hsplit : Segment.ofFormat (ascii "%+d %lx %!b %p") =
      [.directive { widthFlags := ascii "+", conversion := some 100 }, .literal (ascii " "),
        .directive { modifier := some .l, conversion := some 120 }, .literal (ascii " "),
        .directive { bang := true, conversion := some 98 }, .literal (ascii " "),
        .directive { conversion := some 112 }] := by cbv
  have hwritten : Segment.formatWithWidth .w16 (ascii "%+d %lx %!b %p") =
      ascii "%+hd %lx %!hb %p" := by
    rw [Segment.formatWithWidth, hsplit]
    rfl
  obtain ⟨hwidth, hrounding⟩ := Context.render_options {} .empty (ascii "%+d %lx %!b %p")
    [.int 70000, .int (-1), .uint 65538, .pointer 70000]
  refine ⟨by cbv, hwritten, hwritten ▸ hwidth .w16 .w32 .nearest,
    hrounding ?_ .w16 .nearest .truncate⟩
  intro s hs
  rw [hsplit] at hs
  simp only [List.mem_cons, Segment.directive.injEq, reduceCtorEq, List.not_mem_nil, or_false,
    false_or] at hs
  rcases hs with rfl | rfl | rfl | rfl <;> decide +kernel

end PrintFormat
