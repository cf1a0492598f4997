import PrintFormat.Conversion
import PrintFormat.Segment
import PrintFormat.Sink

/-!
Rendering. A context holds what one render works on: the scratch span, the
directive read last and the mode. It may be used for any number of renders; a
directive starts with an emptied span and with its own reading, so nothing of an
earlier render shows. A directive is worked out completely, arguments and span,
before the first of its pieces goes to the sink.
-/
namespace PrintFormat

/-- The state that renders are carried out on. -/
structure Context where
  scratch : Scratch := .empty
  directive : Directive := {}
  mode : Mode := .raw

namespace Directive

/-- A directive whose stars are replaced by numbers from the arguments, width
first. It also says what the directive became if an argument fails. -/
def resolveStars (d : Directive) (c : Cursor) : EStateM.Result FormatError (Directive × Cursor) Unit :=
  let width : EStateM.Result FormatError (Directive × Cursor) Unit :=
    if d.width.star then
      match Cursor.take .integer c with
      | .ok v c => .ok () (d.withStarWidth (BitVec.toInt v), c)
      | .error e c => .error e (d, c)
    else .ok () (d, c)
  match width with
  | .error e s => .error e s
  | .ok _ (d, c) =>
      if d.precision.star then
        match Cursor.take .integer c with
        | .ok v c => .ok () (d.withStarPrecision (BitVec.toInt v), c)
        | .error e c => .error e (d, c)
      else .ok () (d, c)

end Directive

/-- What a render goes through: its context, its arguments and its sink. -/
structure Rendering where
  context : Context
  cursor : Cursor
  sink : Sink

namespace Rendering

/-- A step of a render. -/
abbrev Step := EStateM FormatError Rendering

/-- Delivers output. -/
def deliver (pieces : List Piece) : Step Unit := fun ⟨context, cursor, sink⟩ =>
  match Sink.putAll pieces sink with
  | .ok _ s => .ok () ⟨context, cursor, s⟩
  | .error e s => .error e ⟨context, cursor, s⟩

/-- Enters a directive: its reading replaces the one before, and the span is
emptied. -/
def enter (d : Directive) : Step Unit :=
  modify fun ⟨_, cursor, sink⟩ => ⟨⟨.empty, d, d.mode⟩, cursor, sink⟩

/-- Replaces the stars of the directive that was entered. -/
def resolveStars : Step Unit := fun ⟨context, cursor, sink⟩ =>
  match context.directive.resolveStars cursor with
  | .ok _ (d, c) => .ok () ⟨{ context with directive := d }, c, sink⟩
  | .error e (d, c) => .error e ⟨{ context with directive := d }, c, sink⟩

/-- Takes the argument of the directive that was entered and composes its
field. -/
def compose (options : Options) (c : Conversion) : Step Field := fun ⟨context, cursor, sink⟩ =>
  match c.field context.directive options ⟨context.scratch, cursor⟩ with
  | .ok f b => .ok f ⟨{ context with scratch := b.scratch }, b.cursor, sink⟩
  | .error e b => .error e ⟨{ context with scratch := b.scratch }, b.cursor, sink⟩

/-- The output of the directive that was entered: its own text if it has no
conversion, and no argument is taken then. -/
def output (options : Options) (spelling : Spelling) : Step (List Piece) := do
  match spelling.directive.conversion? with
  | none => return [.bytes spelling.source]
  | some c =>
      resolveStars
      return (← compose options c).pieces

/-- Renders one segment. -/
def segment (options : Options) : Segment → Step Unit
  | .literal text => deliver [.bytes text]
  | .directive spelling => do
      enter spelling.directive
      deliver (← output options spelling)
      modify fun ⟨context, cursor, sink⟩ => ⟨{ context with mode := .raw }, cursor, sink⟩

/-- Renders segments in order until one fails. -/
def segments (options : Options) (parts : List Segment) : Step Unit :=
  parts.forM (segment options)

end Rendering

/-- How a render ended: the count of bytes delivered or the error, and what it
left. -/
structure Rendered where
  outcome : Except FormatError Nat
  context : Context
  sink : Sink
  consumed : Nat

/-- Renders a format with arguments onto a sink. -/
def Context.render (context : Context) (sink : Sink) (format : Bytes) (args : List Arg)
    (options : Options) : Rendered :=
  let before := sink.written
  let finish (outcome : Except FormatError Nat) (r : Rendering) : Rendered :=
    ⟨outcome, { r.context with mode := .raw }, r.sink, r.cursor.consumed⟩
  match Rendering.segments options (Segment.ofFormat format) ⟨context, ⟨args, 0⟩, sink⟩ with
  | .ok _ r => finish (.ok (r.sink.written - before)) r
  | .error e r => finish (.error e) r

/-- Renders onto a sink and then flushes it, after an error too. The error of
the render goes before that of the flush. -/
def Context.print (context : Context) (sink : Sink) (format : Bytes) (args : List Arg)
    (options : Options) : Rendered :=
  let r := context.render sink format args options
  match r.outcome, Sink.flush r.sink with
  | .ok n, .ok _ s => { r with outcome := .ok n, sink := s }
  | .ok _, .error e s => { r with outcome := .error e, sink := s }
  | .error e, .ok _ s => { r with outcome := .error e, sink := s }
  | .error e, .error _ s => { r with outcome := .error e, sink := s }

/-- Renders with a context of its own. -/
def render (sink : Sink) (format : Bytes) (args : List Arg) (options : Options) : Rendered :=
  Context.render {} sink format args options

/-- Prints with a context of its own. -/
def print (sink : Sink) (format : Bytes) (args : List Arg) (options : Options) : Rendered :=
  Context.print {} sink format args options

/-- The bytes that a format renders to. -/
def formatBytes (format : Bytes) (args : List Arg) (options : Options) :
    Except FormatError Bytes :=
  let r := render .empty format args options
  r.outcome.map fun _ => r.sink.contents

end PrintFormat
