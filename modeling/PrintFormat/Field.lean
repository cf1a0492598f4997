import PrintFormat.Bytes

/-!
Fields. A field is the finished text of one directive together with the width
it is brought to. Zeros go behind its head, the sign or radix mark, if zero
fill is asked for and the width is positive; otherwise blanks go in front of
the text, or behind it if the width is negative. Text is never cut. A field
comes out as pieces, which is what destinations take.
-/
namespace PrintFormat

/-- The most fill that one field gets. -/
def maxFieldWidth : Nat := 4096

/-- Output in the order it is produced: bytes, or one byte a number of times. -/
inductive Piece
  | bytes (text : Bytes)
  | fill (byte : UInt8) (count : Nat)
  deriving DecidableEq

/-- The bytes a piece stands for. -/
def Piece.text : Piece → Bytes
  | .bytes text => text
  | .fill byte count => List.replicate count byte

/-- The fill that brings a text of some length to a width. -/
def fillCount (width : Int) (length : Nat) : Nat := min width.natAbs maxFieldWidth - length

/-- A text brought to a width. -/
def aligned (width : Int) (byte : UInt8) (text : Bytes) : List Piece :=
  let fill := Piece.fill byte (fillCount width text.length)
  if 0 ≤ width then [fill, .bytes text] else [.bytes text, fill]

/-- The finished text of a directive. -/
structure Field where
  body : Bytes
  width : Int := 0
  head : Nat := 0
  zeroFill : Bool := false

/-- A field as output. -/
def Field.pieces (f : Field) : List Piece :=
  if f.zeroFill && 0 < f.width then
    [.bytes (f.body.take f.head), .fill zero (fillCount f.width f.body.length),
      .bytes (f.body.drop f.head)]
  else aligned f.width blank f.body

end PrintFormat
