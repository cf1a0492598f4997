import PrintFormat.Proofs.Conversion.Table
import PrintFormat.Proofs.Render.Concatenation

/-!
Directives that stand for their own text. A directive is recognized by its
conversion byte, which has to be in the table of its mode; any other, and one
that the end of the format cuts short, is put out as it was written, and what
its stars ask for is not taken. `Context.deliver_verbatim` says it of whole
formats without a recognized directive, alone and in the middle of others.
-/
namespace PrintFormat

/-- The bytes that the table of extended or of standard directives lists. -/
def conversionBytes (extended : Bool) : Bytes :=
  if extended then ascii "tTsSdDZboHBUPiImMcC%" else ascii "diuoxXfFeEgGsScpzZt%"

/-- A directive whose conversion byte is missing or not in the table of its
mode. -/
def Spelling.Unrecognized (s : Spelling) : Prop :=
  ∀ b ∈ s.conversion, b ∉ conversionBytes s.bang

/-- A format in which no directive is recognized. -/
def Segment.Verbatim (format : Bytes) : Prop :=
  ∀ s, directive s ∈ ofFormat format → s.Unrecognized

/-! ## Tables -/

theorem Standard.ofByte?_eq_none_iff (b : UInt8) :
    b ≠ percent ∧ ofByte? b = none ↔ b ∉ conversionBytes false := by
  have key : ∀ n : Fin 256,
      UInt8.ofFin n ≠ percent ∧ ofByte? (.ofFin n) = none ↔
        UInt8.ofFin n ∉ conversionBytes false := by decide +kernel
  exact key b.toFin

theorem Extended.ofByte?_eq_none_iff (b : UInt8) :
    b ≠ percent ∧ ofByte? b = none ↔ b ∉ conversionBytes true := by
  have key : ∀ n : Fin 256,
      UInt8.ofFin n ≠ percent ∧ ofByte? (.ofFin n) = none ↔
        UInt8.ofFin n ∉ conversionBytes true := by decide +kernel
  exact key b.toFin

theorem Spelling.unrecognized_iff (s : Spelling) :
    s.Unrecognized ↔ s.directive.conversion? = none := by
  rw [conversion?_directive, Option.bind_eq_none_iff]
  refine forall₂_congr fun b _ => ?_
  cases s.bang with
  | true =>
    rw [← Extended.ofByte?_eq_none_iff]
    by_cases hb : b = percent <;> simp [hb]
  | false =>
    rw [← Standard.ofByte?_eq_none_iff]
    by_cases hb : b = percent <;> simp [hb]

/-! ## Output -/

namespace Transcript

variable {options : Options} {format : Bytes}

/-- Segments without a recognized directive put out what they were written as,
and leave the arguments alone. -/
theorem ofSegments_unrecognized {parts : List Segment}
    (h : ∀ s, .directive s ∈ parts → s.Unrecognized) (c : Cursor) :
    ofSegments options parts c = ⟨parts.map fun seg => .bytes seg.source, .ok (), c⟩ := by
  induction parts with
  | nil => rfl
  | cons seg rest ih =>
    have hseg : seg.output options c = .ok [.bytes seg.source] c := by
      cases seg with
      | literal text => rfl
      | directive s =>
        have hs := s.unrecognized_iff.mp (h s List.mem_cons_self)
        rw [Segment.output_copied hs]
        rfl
    rw [ofSegments_cons_ok hseg, ih fun s hs => h s (List.mem_cons_of_mem _ hs)]
    rfl

theorem ofSegments_verbatim (options : Options) (h : Segment.Verbatim format) (c : Cursor) :
    let t := ofSegments options (Segment.ofFormat format) c
    t.verdict = .ok () ∧ t.text = format ∧ t.cursor = c := by
  intro t
  have ht : t = _ := ofSegments_unrecognized h c
  rw [ht]
  refine ⟨rfl, ?_, rfl⟩
  rw [text, List.flatMap_map]
  exact Segment.source_ofFormat format

/-- A format without a recognized directive in front of another. -/
theorem delivery_verbatim_append (hu : Segment.Complete format) (h : Segment.Verbatim format)
    (g : Bytes) (args : List Arg) :
    (ofFormat options (format ++ g) args).delivery =
      (ofFormat options g args).delivery.after format := by
  obtain ⟨hverdict, htext, hcursor⟩ := ofSegments_verbatim options h ⟨args, 0⟩
  rw [ofFormat, Segment.ofFormat_append hu, delivery_join, ofSegments_append_ok hverdict,
    delivery_after, hcursor]
  exact congrArg (Delivery.after · _) htext

end Transcript

/-- A format without a recognized directive renders to itself, byte for byte,
whatever the arguments are, and takes none of them. Behind a format that does
not end within a directive, and in front of any other, it goes to its place
between the outputs of these two. -/
theorem Context.deliver_verbatim (context : Context) (held : Array UInt8) (args : List Arg)
    (options : Options) :
    (∀ format, Segment.Verbatim format →
      context.deliver held format args options = ⟨.ok format.length, format, 0⟩) ∧
    ∀ f u g, Segment.Complete f → Segment.Complete u → Segment.Verbatim u →
      let first := context.deliver held f args options
      let last := context.deliver held g (args.drop first.consumed) options
      context.deliver held (f ++ u ++ g) args options = first.followedBy (last.after u) := by
  constructor
  · intro format h
    obtain ⟨hverdict, htext, hcursor⟩ := Transcript.ofSegments_verbatim options h ⟨args, 0⟩
    rw [deliver_eq, Transcript.delivery, Transcript.ofFormat, hverdict, htext, hcursor]
    rfl
  · intro f u g hf hu h
    simp only [deliver_eq]
    rw [List.append_assoc, Transcript.ofFormat, Segment.ofFormat_append hf,
      Transcript.delivery_join, Transcript.delivery_append]
    exact congrArg _ (Transcript.delivery_verbatim_append hu h g _)

/-- Unknown bytes in both modes and a directive that is cut short; and a star
that is not taken, between directives that take arguments. -/
theorem Context.deliver_verbatim_star :
    let plain := ascii "%! x|%-*.3lQ%5"
    let f := ascii "%d-"
    let u := ascii "%*Q"
    let g := ascii "%x"
    let args := [.int 7, .uint 26]
    let first := Context.deliver {} #[] f args {}
    let last := Context.deliver {} #[] g (args.drop first.consumed) {}
    Segment.Verbatim plain ∧ Segment.Complete f ∧ Segment.Complete u ∧ Segment.Verbatim u ∧
      Context.deliver {} #[] plain args {} = ⟨.ok plain.length, plain, 0⟩ ∧
      Context.deliver {} #[] (f ++ u ++ g) args {} = first.followedBy (last.after u) ∧
      (Context.deliver {} #[] (f ++ u ++ g) args {}).bytes = ascii "7-%*Q1a" := by
  have hplain : Segment.ofFormat (ascii "%! x|%-*.3lQ%5") =
      [.directive (Spelling.read (ascii "! x")).1, .literal (ascii "|"),
        .directive (Spelling.read (ascii "-*.3lQ")).1,
        .directive (Spelling.read (ascii "5")).1] := by
    cbv
  have hf : Segment.ofFormat (ascii "%d-") =
      [.directive (Spelling.read (ascii "d")).1, .literal (ascii "-")] := by cbv
  have hu : Segment.ofFormat (ascii "%*Q") = [.directive (Spelling.read (ascii "*Q")).1] := by cbv
  have hverbatim : Segment.Verbatim (ascii "%! x|%-*.3lQ%5") := by
    intro s hs
    rw [hplain] at hs
    simp only [List.mem_cons, Segment.directive.injEq, reduceCtorEq, List.not_mem_nil, or_false,
      false_or] at hs
    rw [Spelling.unrecognized_iff]
    rcases hs with rfl | rfl | rfl <;> rfl
  have hcomplete : Segment.Complete (ascii "%d-") := by
    intro s hs
    rw [hf] at hs
    obtain rfl : s = (Spelling.read (ascii "d")).1 := by simpa using hs
    rfl
  have hcomplete' : Segment.Complete (ascii "%*Q") := by
    intro s hs
    rw [hu] at hs
    obtain rfl : s = (Spelling.read (ascii "*Q")).1 := by simpa using hs
    rfl
  have hverbatim' : Segment.Verbatim (ascii "%*Q") := by
    intro s hs
    rw [hu] at hs
    obtain rfl : s = (Spelling.read (ascii "*Q")).1 := by simpa using hs
    exact (Spelling.unrecognized_iff _).mpr rfl
  obtain ⟨halone, hbetween⟩ := Context.deliver_verbatim {} #[] [.int 7, .uint 26] {}
  exact ⟨hverbatim, hcomplete, hcomplete', hverbatim', halone _ hverbatim,
    hbetween _ _ _ hcomplete hcomplete' hverbatim', by cbv⟩

end PrintFormat
