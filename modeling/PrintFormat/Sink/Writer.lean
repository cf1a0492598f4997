import PrintFormat.Bytes
import PrintFormat.Error

/-!
Writers. A writer takes part of what it is offered, up to a limit in total and
up to a chunk at a time, and it may have a pace besides, a bound on the next
piece that changes as it goes. One that takes nothing either reports that it is
full or just takes nothing, which ends the writing too. `writeAll` offers the rest
until all is taken. A writer counts how often it is asked to flush.
-/
namespace PrintFormat

/-- A destination outside the program. -/
structure Writer where
  limit : Option Nat := none
  chunk : Option Nat := none
  /-- The bound on the next piece, by the count of bytes that are held. -/
  pace : Nat → Option Nat := fun _ => none
  stalls : Bool := false
  flushFails : Bool := false
  held : Array UInt8 := #[]
  flushes : Nat := 0

namespace Writer

/-- The largest count of bytes, up to a given one, that a bound allows. -/
def within (bound : Option Nat) (n : Nat) : Nat :=
  match bound with
  | none => n
  | some b => min n b

theorem within_le (bound : Option Nat) (n : Nat) : within bound n ≤ n := by
  unfold within
  split <;> omega

/-- How many bytes one write takes of a number that is offered. -/
def accepts (w : Writer) (offered : Nat) : Nat :=
  within (w.limit.map (· - w.held.size)) (within w.chunk (within (w.pace w.held.size) offered))

theorem accepts_le (w : Writer) (offered : Nat) : w.accepts offered ≤ offered :=
  Nat.le_trans (within_le _ _) (Nat.le_trans (within_le _ _) (within_le _ _))

/-- The failure of a writer that took nothing. -/
def refusal (w : Writer) : WriterFailure := if w.stalls then .tookNothing else .full

/-- Offers bytes until all are taken or none is. What was taken stays. -/
def writeAll (bytes : Bytes) : EStateM WriterFailure Writer Unit := fun w =>
  if bytes = [] then .ok () w
  else
    let n := w.accepts bytes.length
    if n = 0 then .error w.refusal w
    else writeAll (bytes.drop n) { w with held := w.held ++ bytes.take n }
termination_by bytes.length
decreasing_by
  rename_i hb hn
  have := List.length_pos_iff.mpr hb
  simp only [List.length_drop]
  omega

/-- The writer once it was asked to flush. -/
def flushed (w : Writer) : Writer := { w with flushes := w.flushes + 1 }

/-- Sends on what is held back. -/
def flush : EStateM WriterFailure Writer Unit := fun w =>
  if w.flushFails then .error .flushFailed w.flushed else .ok () w.flushed

end Writer
end PrintFormat
