import PrintFormat.Json.Token

/-!
JSON documents. A document keeps what its text says: numbers as numerals,
members in their order and with repeated names, strings even if they spell no
text. Reading goes through the tokens once, with a stack of the containers that
are open.
-/
namespace PrintFormat

/-- A document. -/
inductive Json
  | null
  | bool (b : Bool)
  | number (n : Json.Numeral)
  | string (s : Json.Quoted)
  | array (items : List Json)
  | object (members : List (Json.Quoted × Json))

namespace Json

/-- A string that spells a text. -/
def ofText (s : String) : Json := string (some s)

/-- An object with names that spell texts. -/
def ofMembers (members : List (String × Json)) : Json :=
  object (members.map fun m => (some m.1, m.2))

/-! ## The tokens of a document -/

mutual

/-- The tokens of a document. -/
def tokens : Json → List Token
  | null => [.null]
  | bool b => [.bool b]
  | number n => [.number n]
  | string s => [.string s]
  | array items => .openArray :: ([Token.comma].intercalate (itemTokens items) ++ [.closeArray])
  | object members =>
      .openObject :: ([Token.comma].intercalate (memberTokens members) ++ [.closeObject])

/-- The tokens of each item. -/
def itemTokens : List Json → List (List Token)
  | [] => []
  | item :: rest => item.tokens :: itemTokens rest

/-- The tokens of each member. -/
def memberTokens : List (Quoted × Json) → List (List Token)
  | [] => []
  | (name, value) :: rest => (.string name :: .colon :: value.tokens) :: memberTokens rest

end

/-! ## Reading -/

/-- An open container: what is complete of it, the latest part first. An object
is open for the value of a name. -/
inductive Frame
  | array (before : List Json)
  | object (before : List (Quoted × Json)) (name : Quoted)

/-- What reading waits for, within the containers that are open. -/
inductive Reader
  | value (frames : List Frame)
  | itemOrEnd (frames : List Frame)
  | nameOrEnd (frames : List Frame)
  | name (before : List (Quoted × Json)) (frames : List Frame)
  | colon (before : List (Quoted × Json)) (name : Quoted) (frames : List Frame)
  | complete (document : Json) (frames : List Frame)

namespace Reader

/-- Reads a token where a value starts. -/
def start (frames : List Frame) : Token → Option Reader
  | .null => some (complete .null frames)
  | .bool b => some (complete (.bool b) frames)
  | .number n => some (complete (.number n) frames)
  | .string s => some (complete (.string s) frames)
  | .openArray => some (itemOrEnd frames)
  | .openObject => some (nameOrEnd frames)
  | _ => none

/-- Reads a token behind a complete value of the innermost container. -/
def proceed (document : Json) : List Frame → Token → Option Reader
  | .array before :: frames, .comma => some (value (.array (document :: before) :: frames))
  | .array before :: frames, .closeArray =>
      some (complete (.array (document :: before).reverse) frames)
  | .object before label :: frames, .comma => some (name ((label, document) :: before) frames)
  | .object before label :: frames, .closeObject =>
      some (complete (.object ((label, document) :: before).reverse) frames)
  | _, _ => none

/-- Reads one token. -/
def step : Reader → Token → Option Reader
  | value frames, token => start frames token
  | itemOrEnd frames, .closeArray => some (complete (.array []) frames)
  | itemOrEnd frames, token => start (.array [] :: frames) token
  | nameOrEnd frames, .closeObject => some (complete (.object []) frames)
  | nameOrEnd frames, .string label => some (colon [] label frames)
  | name before frames, .string label => some (colon before label frames)
  | colon before label frames, .colon => some (value (.object before label :: frames))
  | complete document frames, token => proceed document frames token
  | _, _ => none

/-- The document that was read, once nothing is open. -/
def result? : Reader → Option Json
  | complete document [] => some document
  | _ => none

end Reader

/-- The document that tokens are. -/
def ofTokens? (tokens : List Token) : Option Json :=
  (tokens.foldlM Reader.step (.value [])).bind Reader.result?

/-- Reads a document, with nothing but space around it. -/
def read? (text : String) : Option Json := (Token.ofText? text.toList).bind ofTokens?

end Json
end PrintFormat
