import PrintFormat.Json
import PrintFormat.Json.Number

/-!
Documents of an expected shape. A record is an object that has some fields by
name, or an array that has them in their order; what other members an object has
does not matter, but no field may be there twice. A field may be required, have
a default, or be optional, and only then it may be null. A name out of a list is
a string, or an object with a single member that is null.
-/
namespace PrintFormat.Json

/-! ## Reading values -/

/-- The text of a string. -/
def text? : Json → Option String
  | string s => s
  | _ => none

def bool? : Json → Option Bool
  | bool b => some b
  | _ => none

/-- The integer of a number that is one. -/
def int? : Json → Option Int
  | number n =>
      match n.value? with
      | some (.integer n) => some n
      | _ => none
  | _ => none

/-- An integer that is not negative. -/
def nat? (j : Json) : Option Nat := (j.int?.filter (0 ≤ ·)).map Int.toNat

/-- The float of any number. -/
def float? : Json → Option Binary64
  | number n => n.value?.map Number.toFloat
  | _ => none

/-- The one character of a string. -/
def char? (j : Json) : Option Char :=
  match j.text?.map String.toList with
  | some [c] => some c
  | _ => none

/-- The items of an array, each read in the same way. -/
def list? {α : Type} (read : Json → Option α) : Json → Option (List α)
  | array items => items.mapM read
  | _ => none

/-- A name, as a string or as the only member of an object. -/
def name? : Json → Option String
  | string s => s
  | object [(name, null)] => name
  | _ => none

/-! ## Records -/

/-- The fields of a record that are there. -/
abbrev Record := List (String × Json)

/-- A record with the given fields, of which an array has at least the first
ones. -/
def record? (fields : List String) (least : Nat) : Json → Option Record
  | array items =>
      if least ≤ items.length ∧ items.length ≤ fields.length then some (fields.zip items)
      else none
  | object members => do
      let members ← members.mapM fun m => m.1.map (·, m.2)
      let known := members.filter fun m => m.1 ∈ fields
      if (known.map Prod.fst).Nodup then some known else none
  | _ => none

namespace Record

/-- A field that has to be there. -/
def required {α : Type} (r : Record) (field : String) (read : Json → Option α) : Option α :=
  (r.lookup field).bind read

/-- A field that has a default. -/
def withDefault {α : Type} (r : Record) (field : String) (default : α) (read : Json → Option α) :
    Option α :=
  match r.lookup field with
  | none => some default
  | some j => read j

/-- A field that may be missing or null. -/
def optional {α : Type} (r : Record) (field : String) (read : Json → Option α) :
    Option (Option α) :=
  match r.lookup field with
  | none => some none
  | some null => some none
  | some j => (read j).map some

end Record

/-! ## Writing values -/

def ofInt (n : Int) : Json := number (.ofInt n)

def ofNat (n : Nat) : Json := ofInt n

/-- The number that a float is; what is not finite is null. -/
def ofFloat (v : Binary64) : Json := if v.isFinite then number (.ofFloat v) else null

/-- A field of a record that is left out if it has no value. -/
def optionalMember {α : Type} (field : String) (write : α → Json) : Option α → List (String × Json)
  | none => []
  | some v => [(field, write v)]

end PrintFormat.Json
