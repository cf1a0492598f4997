import PrintFormat.Conversion.Extended
import PrintFormat.Conversion.Standard

/-!
Conversions of both tables. A directive looks its conversion byte up in the
table of its mode; the percent sign is in both and takes no argument. Without an
entry the directive has no conversion and stands for its own text.
-/
namespace PrintFormat

inductive Conversion
  | percentSign
  | standard (c : Standard)
  | extended (c : Extended)
  deriving DecidableEq

/-- The conversion of a directive, if its byte is in the table of its mode. -/
def Directive.conversion? (d : Directive) : Option Conversion :=
  d.conversion.bind fun b =>
    if b = percent then some .percentSign
    else if d.extended then (Extended.ofByte? b).map .extended
    else (Standard.ofByte? b).map .standard

/-- The state that one directive is worked out on: the scratch span and the
arguments. -/
structure Bench where
  scratch : Scratch
  cursor : Cursor

namespace Bench

/-- An operation on the bench that can fail. -/
abbrev Work := EStateM FormatError Bench

def onCursor {α : Type} (act : EStateM FormatError Cursor α) : Work α := fun b =>
  match act b.cursor with
  | .ok a c => .ok a { b with cursor := c }
  | .error e c => .error e { b with cursor := c }

def onScratch {α : Type} (act : Scratch.Edit α) : Work α := fun b =>
  match act b.scratch with
  | .ok a s => .ok a { b with scratch := s }
  | .error e s => .error e { b with scratch := s }

end Bench

/-- Takes the argument of a conversion and composes its field. -/
def Conversion.field (d : Directive) (options : Options) : Conversion → Bench.Work Field
  | .percentSign => pure { body := [percent] }
  | .standard c => do
      let v ← Bench.onCursor (Cursor.take c.demand)
      Bench.onScratch (c.compose d options v)
  | .extended c => do
      let v ← Bench.onCursor (Cursor.take c.demand)
      Bench.onScratch (c.compose d options v)

end PrintFormat
