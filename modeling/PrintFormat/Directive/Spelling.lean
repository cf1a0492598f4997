import PrintFormat.Directive
import PrintFormat.Numeral

/-!
How a directive is written. Behind the `%` stand, each part as long as it can
be and all but the last one possibly empty: `!` and then `^`; flags, among them
`0`, and the digits of the width; a point with flags and the digits of the
precision; a length modifier; the conversion byte. No text is malformed: what
is no part of the above is the conversion byte, which may also be missing at the
end. `Spelling.read` takes the parts off a text, `Spelling.text` writes them,
and `Spelling.directive` is what they mean. The main statement, `text_read`,
says that reading loses nothing.
-/
namespace PrintFormat

/-- A length modifier. -/
inductive LengthModifier
  | hh | h | l | ll | capitalL | q
  deriving DecidableEq

namespace LengthModifier

def text : LengthModifier → Bytes
  | hh => ascii "hh"
  | h => ascii "h"
  | l => ascii "l"
  | ll => ascii "ll"
  | capitalL => ascii "L"
  | q => ascii "q"

def size : LengthModifier → SizeClass
  | hh => .byte
  | h => .half
  | l => .long
  | ll | capitalL | q => .longLong

/-- The modifier at the front of a text, a doubled letter before a single one. -/
def first? (text : Bytes) : Option LengthModifier :=
  [hh, h, ll, l, capitalL, q].find? fun m => m.text.isPrefixOf text

end LengthModifier

/-- The parts of a directive behind its `%`. -/
structure Spelling where
  bang : Bool := false
  caret : Bool := false
  widthFlags : Bytes := []
  widthDigits : Bytes := []
  precision : Option (Bytes × Bytes) := none
  modifier : Option LengthModifier := none
  conversion : Option UInt8 := none
  deriving DecidableEq

/-- A byte that is a flag wherever flags stand. -/
def isFlag (b : UInt8) : Bool := b ∈ ascii "-+ #*"

/-- A byte that is a flag in front of the width. -/
def isWidthFlag (b : UInt8) : Bool := isFlag b || b == zero

/-- Takes one byte off a text if it stands there. -/
def takeByte (b : UInt8) : Bytes → Bool × Bytes
  | [] => (false, [])
  | c :: rest => if c = b then (true, rest) else (false, c :: rest)

theorem takeByte_append (b : UInt8) (text : Bytes) :
    (if (takeByte b text).1 then [b] else []) ++ (takeByte b text).2 = text := by
  unfold takeByte
  split
  · rfl
  · split <;> simp_all

namespace Spelling

/-- Takes a point with flags and digits off a text if it stands there. -/
def readPrecision (text : Bytes) : Option (Bytes × Bytes) × Bytes :=
  match takeByte 46 text with
  | (false, rest) => (none, rest)
  | (true, rest) =>
      let flags := rest.takeWhile isFlag
      let rest := rest.dropWhile isFlag
      (some (flags, rest.takeWhile isDigit), rest.dropWhile isDigit)

/-- Takes a length modifier off a text if it stands there. -/
def readModifier (text : Bytes) : Option LengthModifier × Bytes :=
  match LengthModifier.first? text with
  | none => (none, text)
  | some m => (some m, text.drop m.text.length)

/-- Takes the parts of a directive off the text behind its `%`. -/
def read (text : Bytes) : Spelling × Bytes :=
  let (bang, rest) := takeByte 33 text
  let (caret, rest) := if bang then takeByte 94 rest else (false, rest)
  let widthFlags := rest.takeWhile isWidthFlag
  let rest := rest.dropWhile isWidthFlag
  let widthDigits := rest.takeWhile isDigit
  let rest := rest.dropWhile isDigit
  let (precision, rest) := readPrecision rest
  let (modifier, rest) := readModifier rest
  ({ bang, caret, widthFlags, widthDigits, precision, modifier, conversion := rest.head? },
    rest.tail)

/-! ## Writing the parts -/

def precisionText : Option (Bytes × Bytes) → Bytes
  | none => []
  | some (flags, digits) => 46 :: (flags ++ digits)

def modifierText : Option LengthModifier → Bytes
  | none => []
  | some m => m.text

/-- The parts as they were written. -/
def text (s : Spelling) : Bytes :=
  (if s.bang then [33] else []) ++ (if s.caret then [94] else []) ++ s.widthFlags
    ++ s.widthDigits ++ precisionText s.precision ++ modifierText s.modifier
    ++ s.conversion.toList

/-- The directive's whole text, from its `%` on. -/
def source (s : Spelling) : Bytes := percent :: s.text

theorem readPrecision_append (text : Bytes) :
    precisionText (readPrecision text).1 ++ (readPrecision text).2 = text := by
  have h := takeByte_append 46 text
  unfold readPrecision
  split
  · next rest he =>
    rw [he] at h
    simpa [precisionText] using h
  · next rest he =>
    rw [he] at h
    simp only [if_true, List.cons_append, List.nil_append] at h
    simp only [precisionText, List.cons_append, List.append_assoc,
      List.takeWhile_append_dropWhile, h]

theorem readModifier_append (text : Bytes) :
    modifierText (readModifier text).1 ++ (readModifier text).2 = text := by
  unfold readModifier
  split
  · rfl
  · next m he =>
    have h := List.find?_some he
    obtain ⟨rest, hr⟩ := List.isPrefixOf_iff_prefix.mp h
    simp only [modifierText, ← hr, List.drop_left]

theorem text_read (text : Bytes) : (read text).1.text ++ (read text).2 = text := by
  have hb := takeByte_append 33 text
  unfold read
  generalize takeByte 33 text = first at *
  obtain ⟨bang, afterBang⟩ := first
  dsimp only at hb ⊢
  have hc : (if (if bang then takeByte 94 afterBang else (false, afterBang)).1
        then [(94 : UInt8)] else [])
      ++ (if bang then takeByte 94 afterBang else (false, afterBang)).2 = afterBang := by
    split
    · exact takeByte_append 94 afterBang
    · rfl
  generalize (if bang then takeByte 94 afterBang else (false, afterBang)) = second at *
  obtain ⟨caret, afterCaret⟩ := second
  dsimp only at hc ⊢
  have hp := readPrecision_append ((afterCaret.dropWhile isWidthFlag).dropWhile isDigit)
  generalize readPrecision ((afterCaret.dropWhile isWidthFlag).dropWhile isDigit) = third at *
  obtain ⟨precision, afterPrecision⟩ := third
  have hm := readModifier_append afterPrecision
  generalize readModifier afterPrecision = fourth at *
  obtain ⟨modifier, last⟩ := fourth
  have ht : last.head?.toList ++ last.tail = last := by cases last <;> rfl
  simp only [Spelling.text, List.append_assoc, ht, hm, hp, List.takeWhile_append_dropWhile,
    hc, hb]

theorem length_read (text : Bytes) : (read text).2.length ≤ text.length := by
  have h := congrArg List.length (text_read text)
  rw [List.length_append] at h
  omega

/-! ## What the parts mean -/

/-- The number that digits write, or the limit if it is beyond. -/
def measureValue (digits : Bytes) : Nat :=
  min (ofDigits 10 (digits.map fun b => b.toNat - 48)) measureLimit

/-- A width or precision from its flags and digits. -/
def measure (flags digits : Bytes) (isGiven : Bool) : Measure where
  value := if minus ∈ flags then -(measureValue digits : Int) else measureValue digits
  isGiven := isGiven
  negative := minus ∈ flags
  star := 42 ∈ flags

/-- The flags on both sides of the point. -/
def flags (s : Spelling) : Bytes :=
  s.widthFlags ++ (s.precision.map Prod.fst).getD []

/-- What the parts ask for. -/
def directive (s : Spelling) : Directive where
  width := measure s.widthFlags s.widthDigits (!s.widthDigits.isEmpty)
  precision :=
    match s.precision with
    | none => {}
    | some (flags, digits) => measure flags digits true
  zeroFill := zero ∈ s.widthFlags
  size := (s.modifier.map LengthModifier.size).getD .normal
  sign := if 43 ∈ s.flags then .plus else if blank ∈ s.flags then .space else .omit
  alternate := s.caret || 35 ∈ s.flags
  extended := s.bang
  conversion := s.conversion

end Spelling
end PrintFormat
