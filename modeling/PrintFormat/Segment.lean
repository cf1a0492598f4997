import PrintFormat.Directive.Spelling

/-!
A format as a sequence of segments: runs of literal bytes, and directives. A
run ends at the next `%` or at the end. The main statement, `source_ofFormat`,
says that the segments' texts in order are the format, byte for byte.
-/
namespace PrintFormat

/-- A part of a format. -/
inductive Segment
  | literal (text : Bytes)
  | directive (spelling : Spelling)
  deriving DecidableEq

namespace Segment

/-- The text of a segment. -/
def source : Segment → Bytes
  | literal text => text
  | directive spelling => spelling.source

/-- A byte that belongs to a literal run. -/
def isLiteral (b : UInt8) : Bool := b ≠ percent

/-- The segments of a format. -/
def ofFormat (format : Bytes) : List Segment :=
  match format with
  | [] => []
  | b :: rest =>
      if isLiteral b then
        literal (b :: rest.takeWhile isLiteral) :: ofFormat (rest.dropWhile isLiteral)
      else
        directive (Spelling.read rest).1 :: ofFormat (Spelling.read rest).2
termination_by format.length
decreasing_by
  · have := (List.dropWhile_sublist isLiteral (l := rest)).length_le
    simp only [List.length_cons]
    omega
  · have := Spelling.length_read rest
    simp only [List.length_cons]
    omega

theorem source_ofFormat (format : Bytes) : (ofFormat format).flatMap source = format := by
  fun_induction ofFormat format with
  | case1 => rfl
  | case2 b rest hb ih => simp [source, ih]
  | case3 b rest hb ih =>
    have hb' : b = percent := by simpa [isLiteral] using hb
    rw [List.flatMap_cons, ih, source, Spelling.source, List.cons_append, Spelling.text_read, hb']

end Segment
end PrintFormat
