import PrintFormat.Sink.Percent
import PrintFormat.Sink.Writer

/-!
Sinks, where output goes. A target is memory that grows, a buffer over a
destination of fixed size, or a stream to a writer. A buffer that a write does
not fit takes what fits and reports the overflow; a stream counts only the writes that were
taken whole. A sink is a target behind any number of percent encodings, and
passes each piece of output to its target unit by unit until one fails.
-/
namespace PrintFormat

/-- A destination of fixed size that is filled from its front. The cells behind
the filled ones hold whatever they held before. -/
structure Buffer where
  cells : Array UInt8
  length : Nat := 0
  fits : length ≤ cells.size := by simp

namespace Buffer

/-- The count of bytes that the destination holds in all. -/
def capacity (b : Buffer) : Nat := b.cells.size

/-- The bytes that were delivered. -/
def filled (b : Buffer) : Array UInt8 := b.cells.extract 0 b.length

/-- The room that is left. -/
def room (b : Buffer) : Nat := b.capacity - b.length

/-- Cells with bytes in the place of those from a position on. -/
def overwrite (cells : Array UInt8) (start : Nat) : Bytes → Array UInt8
  | [] => cells
  | b :: rest => overwrite (cells.setIfInBounds start b) (start + 1) rest

theorem size_overwrite (cells : Array UInt8) (start : Nat) (bytes : Bytes) :
    (overwrite cells start bytes).size = cells.size := by
  induction bytes generalizing cells start with
  | nil => rfl
  | cons b rest ih => rw [overwrite, ih, Array.size_setIfInBounds]

/-- The buffer with as many bytes more as it has room for. -/
def fill (b : Buffer) (bytes : Bytes) : Buffer where
  cells := overwrite b.cells b.length (bytes.take b.room)
  length := b.length + min bytes.length b.room
  fits := by
    have := b.fits
    rw [size_overwrite, room, capacity]
    omega

end Buffer

/-- Where bytes end up. -/
inductive Target
  | memory (held : Array UInt8)
  | buffer (b : Buffer)
  | stream (writer : Writer) (written : Nat)

namespace Target

/-- Writes bytes. -/
def write (bytes : Bytes) : EStateM FormatError Target Unit := fun t =>
  match t with
  | memory held => .ok () (memory (held ++ bytes))
  | buffer b =>
      if bytes.length ≤ b.room then .ok () (buffer (b.fill bytes))
      else .error (.bufferOverflow b.capacity) (buffer (b.fill bytes))
  | stream writer written =>
      match writer.writeAll bytes with
      | .ok _ w => .ok () (stream w (written + bytes.length))
      | .error e w => .error (.io e) (stream w written)

/-- The count of bytes that were delivered. -/
def written : Target → Nat
  | memory held => held.size
  | buffer b => b.length
  | stream _ n => n

/-- The bytes that were delivered, those of unfinished writes included. -/
def contents : Target → Bytes
  | memory held => held.toList
  | buffer b => b.filled.toList
  | stream writer _ => writer.held.toList

/-- Flushes a stream; nothing else holds bytes back. -/
def flush : EStateM FormatError Target Unit := fun t =>
  match t with
  | stream writer n =>
      match writer.flush with
      | .ok _ w => .ok () (stream w n)
      | .error e w => .error (.io e) (stream w n)
  | other => .ok () other

end Target

/-- A target behind a number of percent encodings. -/
structure Sink where
  encodings : Nat := 0
  target : Target

namespace Sink

/-- A growing sink without contents. -/
def empty : Sink := { target := .memory #[] }

/-- A stream to a writer. -/
def toWriter (w : Writer) : Sink := { target := .stream w 0 }

/-- An empty buffer over a destination. -/
def onto (cells : Array UInt8) : Sink := { target := .buffer { cells } }

/-- The most bytes that can be asked for at once. As far as that, memory is taken to
be there. -/
def capacityLimit : Nat := 0x7FFFFFFFFFFFFFFF

/-- An empty buffer over a new destination of zeros. -/
def ofCapacity (capacity : Nat) : Except Panic Sink :=
  if capacity ≤ capacityLimit then .ok (onto (Array.replicate capacity 0))
  else .error .capacityOverflow

/-- The sink behind one more percent encoding. -/
def encoded (s : Sink) : Sink := { s with encodings := s.encodings + 1 }

/-- An operation of the target. -/
def onTarget {α : Type} (act : EStateM FormatError Target α) : EStateM FormatError Sink α :=
  fun ⟨encodings, target⟩ =>
    match act target with
    | .ok a t => .ok a ⟨encodings, t⟩
    | .error e t => .error e ⟨encodings, t⟩

/-- Delivers one piece of output. -/
def put (p : Piece) : EStateM FormatError Sink Unit := fun s =>
  onTarget ((Percent.expand s.encodings p).forM Target.write) s

/-- Delivers pieces in order until one fails. -/
def putAll (pieces : List Piece) : EStateM FormatError Sink Unit := pieces.forM put

/-- Flushes the target. -/
def flush : EStateM FormatError Sink Unit := onTarget Target.flush

/-- The count of bytes that reached the target. -/
def written (s : Sink) : Nat := s.target.written

/-- The bytes that reached the target. -/
def contents (s : Sink) : Bytes := s.target.contents

/-- A destination once what reached the target is put at its front. -/
def overlay (s : Sink) (destination : Bytes) : Bytes :=
  s.contents ++ destination.drop s.contents.length

end Sink
end PrintFormat
