import PrintFormat.Proofs.Render.Arguments

/-!
What a conversion sees of its directive. Of the width it sees the number, and
whether it makes a count of digits for a telephone number; of the precision it
sees the number if one holds; of the rest zero fill, size, sign and the
alternate form. Directives that agree in these (`Directive.Alike`) are the same
to every conversion (`Conversion.taken_alike`), however their measures came to
be.
-/
namespace PrintFormat

/-- Two directives that no conversion tells apart. -/
structure Directive.Alike (d d' : Directive) : Prop where
  width : d.width.value = d'.width.value
  phoneDigits : d.phoneDigits = d'.phoneDigits
  places? : d.places? = d'.places?
  zeroFill : d.zeroFill = d'.zeroFill
  size : d.size = d'.size
  sign : d.sign = d'.sign
  alternate : d.alternate = d'.alternate

namespace Directive.Alike

variable {d d' : Directive} (h : d.Alike d') (options : Options)

include h

theorem finishInteger (signed : Bool) (mark : Bytes) :
    finishInteger d signed mark = finishInteger d' signed mark := by
  have hpad (precision : Nat) : padPrecision d signed mark precision =
      padPrecision d' signed mark precision := by
    funext s
    simp only [padPrecision, h.sign]
  simp only [PrintFormat.finishInteger, hpad, h.places?, h.sign, h.width, h.zeroFill]

theorem convertUnsigned (bits : Nat) (v : BitVec 64) (b : Base) (upper : Bool)
    (mark : Bytes → Bytes) :
    convertUnsigned d bits v b upper mark = convertUnsigned d' bits v b upper mark := by
  simp only [PrintFormat.convertUnsigned, h.finishInteger]

theorem convertFloat (v : Binary64) (upper : Bool) :
    convertFloat d options v upper = convertFloat d' options v upper := by
  simp only [PrintFormat.convertFloat, h.places?, h.sign, h.width, h.zeroFill]

theorem composeText (text : Bytes) : composeText d text = composeText d' text := by
  simp only [PrintFormat.composeText, h.width]

theorem composeGroups (v : BitVec 64) (b : Base) (upper : Bool) (group : Nat) :
    composeGroups d options v b upper group = composeGroups d' options v b upper group := by
  simp only [PrintFormat.composeGroups, h.places?, h.width]
  rw [h.size]

theorem composeStandard (c : Standard) (v : c.demand.Value) :
    c.compose d options v = c.compose d' options v := by
  cases c with
  | signed =>
    simp only [Standard.compose, h.finishInteger]
    rw [h.size]
  | unsigned | pointer => simp only [Standard.compose, h.size, h.convertUnsigned]
  | octal | hex | hexUpper => simp only [Standard.compose, h.size, h.alternate, h.convertUnsigned]
  | float | floatUpper => simp only [Standard.compose, h.convertFloat]
  | text | character => simp only [Standard.compose, h.places?, h.width]

theorem composeExtended (c : Extended) (v : c.demand.Value) :
    c.compose d options v = c.compose d' options v := by
  cases c with
  | phone => simp only [Extended.compose, h.phoneDigits]
  | truth | codePoint => simp only [Extended.compose, h.width]
  | binary | octal | hex => simp only [Extended.compose, h.alternate, h.composeGroups]
  | clockOfSeconds | clock | shortClockOfSeconds | shortClock | date | longDate | utc
  | ipv4 | ipv6 | mac | macUpper | dotted | dottedUpper =>
    simp only [Extended.compose, h.alternate, h.composeText]

end Directive.Alike

/-- A conversion does the same for directives that it does not tell apart. -/
theorem Conversion.taken_alike {d d' : Directive} (h : d.Alike d') (options : Options)
    (c : Conversion) : c.taken d options = c.taken d' options := by
  cases c with
  | percentSign => rfl
  | standard c => simp only [taken, h.composeStandard]
  | extended c => simp only [taken, h.composeExtended]

end PrintFormat
