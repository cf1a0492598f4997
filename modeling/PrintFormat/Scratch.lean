import PrintFormat.Error
import PrintFormat.Bytes

/-!
The scratch span: the text of one number while it is built. Text grows towards
the front and never beyond a fixed room of 81 bytes, enough for the sign, 39
integer digits, point and 40 fraction digits of a float. `push` and `prepend`
leave the span alone when they fail; `pushText` goes byte by byte from the end
of its text, so that a text too long leaves the low-order part that fitted;
`zeroPad` never fails.
-/
namespace PrintFormat

/-- The bytes a scratch span has room for. -/
def scratchCapacity : Nat := 81

/-- A span of text within the scratch room. -/
structure Scratch where
  text : Bytes
  fits : text.length ≤ scratchCapacity

namespace Scratch

/-- An operation on the span that can fail and says what is left either way. -/
abbrev Edit := EStateM FormatError Scratch

/-- The span without text. -/
def empty : Scratch := ⟨[], Nat.zero_le _⟩

/-- The room in front of the span. -/
def room (s : Scratch) : Nat := scratchCapacity - s.text.length

/-- Puts one byte in front of the span. -/
def push (byte : UInt8) : Edit Unit := fun s =>
  if h : s.text.length < scratchCapacity then
    .ok () ⟨byte :: s.text, h⟩
  else
    .error .scratchOverflow s

/-- Puts a text in front of the span, all of it or nothing. -/
def prepend (text : Bytes) : Edit Unit := fun s =>
  if h : (text ++ s.text).length ≤ scratchCapacity then
    .ok () ⟨text ++ s.text, h⟩
  else
    .error .scratchOverflow s

/-- Puts a text in front of the span byte by byte, its last byte first, and
answers its length. Where room runs out the bytes already put stay. -/
def pushText (text : Bytes) : Edit Nat := do
  text.reverse.forM push
  return text.length

/-- A byte that counts as the sign of the number it opens. -/
def isSign (b : UInt8) : Bool := b == minus || b == 43 || b == blank

/-- The bytes of a span brought to a length by zeros, which go behind a leading
sign. -/
def padded (width : Nat) : Bytes → Bytes
  | [] => List.replicate width zero
  | b :: rest =>
      if isSign b then b :: zeroFilled (width - 1) rest
      else zeroFilled width (b :: rest)

theorem length_padded (width : Nat) (text : Bytes) :
    (padded width text).length = max width text.length := by
  unfold padded
  split
  · simp
  · split <;> simp only [List.length_cons, length_zeroFilled]
    omega

/-- Brings the span to a length by zeros. A leading sign stays in front and
counts; a length beyond the room counts as the room. -/
def zeroPad (width : Nat) (s : Scratch) : Scratch where
  text := padded (min width scratchCapacity) s.text
  fits := by
    have := s.fits
    rw [length_padded]
    omega

theorem text_zeroPad (width : Nat) (s : Scratch) :
    (s.zeroPad width).text = padded (min width scratchCapacity) s.text := rfl

theorem padded_of_le {width : Nat} {text : Bytes} (h : width ≤ text.length) :
    padded width text = text := by
  unfold padded
  split
  · simp only [List.length_nil, Nat.le_zero] at h
    simp [h]
  · simp only [List.length_cons] at h
    split
    · rw [zeroFilled_of_le (by omega)]
    · rw [zeroFilled_of_le (by simp only [List.length_cons]; omega)]

theorem push_ok {s : Scratch} (byte : UInt8) (h : s.text.length < scratchCapacity) :
    push byte s = .ok () ⟨byte :: s.text, h⟩ := by
  simp [push, h]

end Scratch
end PrintFormat
