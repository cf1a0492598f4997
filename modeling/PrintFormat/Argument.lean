import PrintFormat.Address
import PrintFormat.Binary64
import PrintFormat.Calendar
import PrintFormat.Error

/-!
Arguments and the cursor that directives take them from. A directive demands a
family of values. Integers, characters, truth values and pointers are one
family, seen through the 64 bits of their pattern, and a packed integer also
stands for an IPv4 or a hardware address. A failed take leaves the cursor where
it was.
-/
namespace PrintFormat

/-- One argument of a render. -/
inductive Arg
  | int (value : Int64)
  | uint (value : UInt64)
  | float (value : Binary64)
  | char (byte : UInt8)
  | bool (value : Bool)
  | str (text : Bytes)
  | pointer (address : UInt64)
  | time (value : CivilTime)
  | ipv4 (address : IPv4)
  | ipv6 (address : IPv6)
  | mac (address : Mac)
  deriving DecidableEq

/-- The bit pattern of an integer-like argument. -/
def Arg.pattern? : Arg → Option (BitVec 64)
  | .int v => some v.toBitVec
  | .uint v => some v.toBitVec
  | .char c => some (c.toBitVec.setWidth 64)
  | .bool b => some (if b then 1 else 0)
  | .pointer p => some p.toBitVec
  | _ => none

/-- The values that a demand is met with. -/
abbrev Demand.Value : Demand → Type
  | .integer => BitVec 64
  | .float => Binary64
  | .text => Bytes
  | .time => CivilTime
  | .ipv4 => IPv4
  | .ipv6 => IPv6
  | .mac => Mac

/-- The value an argument meets a demand with, if it does. -/
def Demand.pick : (d : Demand) → Arg → Option d.Value
  | .integer, arg => arg.pattern?
  | .float, .float v => some v
  | .text, .str s => some s
  | .time, .time t => some t
  | .ipv4, .ipv4 a => some a
  | .ipv4, arg => arg.pattern?.map fun v => ⟨v.setWidth 32⟩
  | .ipv6, .ipv6 a => some a
  | .mac, .mac a => some a
  | .mac, arg => arg.pattern?.map Mac.ofWord
  | _, _ => none

/-- The arguments of one render, and how many of them are taken. -/
structure Cursor where
  remaining : List Arg
  consumed : Nat := 0

namespace Cursor

/-- Takes the next argument. -/
def take (demand : Demand) : EStateM FormatError Cursor demand.Value := fun c =>
  match c.remaining with
  | [] => .error (.missingArgument c.consumed) c
  | arg :: rest =>
      match demand.pick arg with
      | none => .error (.argumentMismatch c.consumed demand) c
      | some v => .ok v ⟨rest, c.consumed + 1⟩

end Cursor
end PrintFormat
