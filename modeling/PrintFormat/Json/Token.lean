import PrintFormat.Json.Numeral
import PrintFormat.Json.Quoted

/-!
The tokens of JSON text. `Token.ofText?` cuts a text into tokens, with space
allowed between any two; `Token.text` writes one. Two tokens next to each other
need not be apart here: no value lets a number or a word follow another.
-/
namespace PrintFormat.Json

inductive Token
  | openArray | closeArray | openObject | closeObject | comma | colon
  | null
  | bool (b : Bool)
  | number (n : Numeral)
  | string (s : Quoted)
  deriving DecidableEq

namespace Token

/-- A token's text. -/
def text : Token → List Char
  | openArray => ['[']
  | closeArray => [']']
  | openObject => ['\x7b']
  | closeObject => ['\x7d']
  | comma => [',']
  | colon => [':']
  | null => "null".toList
  | bool true => "true".toList
  | bool false => "false".toList
  | number n => n.text
  | string s => s.text

/-- The token that a single character is. -/
def ofChar? : Char → Option Token
  | '[' => some openArray
  | ']' => some closeArray
  | '\x7b' => some openObject
  | '\x7d' => some closeObject
  | ',' => some comma
  | ':' => some colon
  | _ => none

/-- The tokens that are words. -/
def words : List Token := [null, bool true, bool false]

/-- Takes a word off a text. -/
def takeWord? (cs : List Char) : Option (Token × List Char) :=
  (words.find? fun w => w.text.isPrefixOf cs).map fun w => (w, cs.drop w.text.length)

/-- Takes a token off a text. -/
def take? : List Char → Option (Token × List Char)
  | [] => none
  | c :: rest =>
      match ofChar? c with
      | some token => some (token, rest)
      | none =>
          if c = '"' then (Quoted.take? rest).map fun (s, rest) => (string s, rest)
          else if c.isAlpha then takeWord? (c :: rest)
          else (Numeral.take? (c :: rest)).map fun (n, rest) => (number n, rest)

/-- The characters that may stand between tokens. -/
def isSpace (c : Char) : Bool := c = ' ' || c = '\n' || c = '\t' || c = '\r'

theorem length_takeWord? {cs rest : List Char} {token : Token}
    (h : takeWord? cs = some (token, rest)) : rest.length < cs.length := by
  simp only [takeWord?, Option.map_eq_some_iff, Prod.mk.injEq] at h
  obtain ⟨w, hw, rfl, rfl⟩ := h
  have hm := List.mem_of_find?_eq_some hw
  have hs := List.find?_some hw
  obtain ⟨tail, ht⟩ := List.isPrefixOf_iff_prefix.mp hs
  have hp : 0 < w.text.length := by
    simp only [words, List.mem_cons, List.not_mem_nil, or_false] at hm
    rcases hm with rfl | rfl | rfl <;> decide
  rw [← ht]
  simp only [List.drop_left, List.length_append]
  omega

theorem length_take? {cs rest : List Char} {token : Token}
    (h : take? cs = some (token, rest)) : rest.length < cs.length := by
  unfold take? at h
  split at h
  · simp at h
  · next c r =>
    split at h
    · simp only [Option.some.injEq, Prod.mk.injEq] at h
      simp [← h.2]
    · split at h
      · simp only [Option.map_eq_some_iff, Prod.exists, Prod.mk.injEq] at h
        obtain ⟨s, r', h, -, rfl⟩ := h
        exact Nat.lt_succ_of_lt (Quoted.length_take? h)
      · split at h
        · exact length_takeWord? h
        · simp only [Option.map_eq_some_iff, Prod.exists, Prod.mk.injEq] at h
          obtain ⟨n, r', h, -, rfl⟩ := h
          exact Numeral.length_take? h

/-- The tokens of a text. -/
def ofText? (cs : List Char) : Option (List Token) :=
  match cs with
  | [] => some []
  | c :: rest =>
      if isSpace c then ofText? rest
      else
        match _h : take? (c :: rest) with
        | none => none
        | some (token, rest') => (ofText? rest').map (token :: ·)
termination_by cs.length
decreasing_by
  · simp
  · exact length_take? (by assumption)

end Token
end PrintFormat.Json
