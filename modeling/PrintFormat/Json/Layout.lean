import PrintFormat.Json

/-!
The written forms of documents. The compact form is the tokens without anything
between them. The wide form has each item and each member on a line of its own,
two blanks further in than its container, and a blank behind each colon; empty
containers stay closed.
-/
namespace PrintFormat.Json

/-- A token, or the space between two tokens. -/
inductive Lexeme
  | token (t : Token)
  | blank
  | line (indent : Nat)
  deriving DecidableEq

namespace Lexeme

def text : Lexeme → List Char
  | token t => t.text
  | blank => [' ']
  | line indent => '\n' :: List.replicate (2 * indent) ' '

/-- The token, if it is one. -/
def token? : Lexeme → Option Token
  | token t => some t
  | _ => none

/-- Parts between an opening and a closing token, each on a line of its own. -/
def bracketed (level : Nat) (opening closing : Token) (parts : List (List Lexeme)) :
    List Lexeme :=
  if parts = [] then [token opening, token closing]
  else
    [token opening, line (level + 1)] ++ [token .comma, line (level + 1)].intercalate parts
      ++ [line level, token closing]

end Lexeme

mutual

/-- The wide form of a document inside a number of containers. -/
def wide (level : Nat) : Json → List Lexeme
  | array items => Lexeme.bracketed level .openArray .closeArray (wideItems (level + 1) items)
  | object members =>
      Lexeme.bracketed level .openObject .closeObject (wideMembers (level + 1) members)
  | null => [.token .null]
  | bool b => [.token (.bool b)]
  | number n => [.token (.number n)]
  | string s => [.token (.string s)]

/-- The wide form of each item. -/
def wideItems (level : Nat) : List Json → List (List Lexeme)
  | [] => []
  | item :: rest => item.wide level :: wideItems level rest

/-- The wide form of each member. -/
def wideMembers (level : Nat) : List (Quoted × Json) → List (List Lexeme)
  | [] => []
  | (name, value) :: rest =>
      (.token (.string name) :: .token .colon :: .blank :: value.wide level)
        :: wideMembers level rest

end

/-- The compact form. -/
def compact (j : Json) : String := String.ofList (j.tokens.flatMap Token.text)

/-- The wide form. -/
def pretty (j : Json) : String := String.ofList ((j.wide 0).flatMap Lexeme.text)

end PrintFormat.Json
