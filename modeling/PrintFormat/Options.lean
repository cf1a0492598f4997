import PrintFormat.Text.Parts

/-!
What a render can be told besides its format: how the last digit of a float is
chosen, and how wide an integer is whose directive names no width. Both have
names that settings use; an unknown name means the default.
-/
namespace PrintFormat

/-- How the last requested digit of a float is chosen: by dropping what is
beyond it, or by rounding half up on the exact value. -/
inductive Rounding
  | truncate | nearest
  deriving DecidableEq

/-- The width of an integer whose directive has no length modifier. -/
inductive IntWidth
  | w16 | w32
  deriving DecidableEq

def IntWidth.bits : IntWidth → Nat
  | .w16 => 16
  | .w32 => 32

/-- The name of a rounding, in any case and with blanks around it. -/
def Rounding.ofName (name : String) : Rounding :=
  if Text.fold (Text.trim name) ∈ ["truncate", "trunc", "floor", "down"] then .truncate
  else .nearest

/-- The name of a width, with blanks around it. -/
def IntWidth.ofName (name : String) : IntWidth :=
  if Text.trim name ∈ ["16", "w16", "W16", "short"] then .w16 else .w32

/-- The options of one render. -/
structure Options where
  rounding : Rounding := .nearest
  intWidth : IntWidth := .w32
  deriving DecidableEq

end PrintFormat
