import PrintFormat.Json
import PrintFormat.Json.Number

/-!
Normal documents. A document read as a value, without a shape that it is
expected to have, loses what no value keeps: numerals become those of the
numbers they mean, of repeated names the last one counts, and members are
sorted by name. `Json.normal?` answers nothing where a numeral means no number,
a string spells no text or containers are nested too deep.
-/
namespace PrintFormat.Json

/-- The containers that a value may have inside each other. -/
def maxDepth : Nat := 127

/-- Puts a member among sorted ones, in the place of one with its name. -/
def insertMember (name : String) (value : Json) : List (String × Json) → List (String × Json)
  | [] => [(name, value)]
  | (other, kept) :: rest =>
      if name < other then (name, value) :: (other, kept) :: rest
      else if name = other then (name, value) :: rest
      else (other, kept) :: insertMember name value rest

/-- Members sorted by name, the last one of each name. -/
def sortMembers (members : List (String × Json)) : List (String × Json) :=
  members.foldl (fun sorted m => insertMember m.1 m.2 sorted) []

mutual

/-- The normal form of a document, with containers nested up to a depth. -/
def normalWithin? (depth : Nat) : Json → Option Json
  | null => some null
  | bool b => some (bool b)
  | number n => n.value?.map fun v => number v.numeral
  | string s => s.map ofText
  | array items =>
      match depth with
      | 0 => none
      | depth + 1 => (normalItems? depth items).map array
  | object members =>
      match depth with
      | 0 => none
      | depth + 1 => (normalMembers? depth members).map fun ms => ofMembers (sortMembers ms)

/-- The normal form of each item. -/
def normalItems? (depth : Nat) : List Json → Option (List Json)
  | [] => some []
  | item :: rest => do
      let item ← normalWithin? depth item
      return item :: (← normalItems? depth rest)

/-- The normal form of each member, in the order that they have. -/
def normalMembers? (depth : Nat) : List (Quoted × Json) → Option (List (String × Json))
  | [] => some []
  | (name, value) :: rest => do
      let name ← name
      let value ← normalWithin? depth value
      return (name, value) :: (← normalMembers? depth rest)

end

/-- The normal form of a document. -/
def normal? (j : Json) : Option Json := j.normalWithin? maxDepth

/-- Reads a document as a value. -/
def readValue? (text : String) : Option Json := (read? text).bind normal?

end PrintFormat.Json
