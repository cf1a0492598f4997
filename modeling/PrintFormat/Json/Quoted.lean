/-!
Strings as JSON text writes them, between quotes. A character outside the first
65536 may be escaped as two code units, a surrogate and its partner; a surrogate
that stands alone spells no character, and a string with one spells no text.
Such a string can still be read over.
-/
namespace PrintFormat.Json

/-- A string as it is read: its text, if it spells one. -/
abbrev Quoted := Option String

namespace Quoted

/-! ## Reading -/

/-- One symbol of a written string: a character, or the code unit of an escape. -/
inductive Symbol
  | char (c : Char)
  | unit (code : Nat)

/-- The value of a hexadecimal digit. -/
def hexValue? (c : Char) : Option Nat :=
  if c.isDigit then some (c.toNat - 48)
  else if 'a' ≤ c ∧ c ≤ 'f' then some (c.toNat - 87)
  else if 'A' ≤ c ∧ c ≤ 'F' then some (c.toNat - 55)
  else none

/-- The code unit that four hexadecimal digits write. -/
def codeUnit? (a b c d : Char) : Option Nat := do
  return (((← hexValue? a) * 16 + (← hexValue? b)) * 16 + (← hexValue? c)) * 16 + (← hexValue? d)

/-- The character that a letter stands for behind a backslash. -/
def unescape? : Char → Option Char
  | '"' => some '"'
  | '\\' => some '\\'
  | '/' => some '/'
  | 'b' => some '\x08'
  | 'f' => some '\x0c'
  | 'n' => some '\n'
  | 'r' => some '\r'
  | 't' => some '\t'
  | _ => none

/-- Takes symbols off a text up to the closing quote. Control characters may
only be written as escapes. -/
def takeSymbols? : List Char → Option (List Symbol × List Char)
  | [] => none
  | '"' :: rest => some ([], rest)
  | '\\' :: 'u' :: a :: b :: c :: d :: rest =>
      match codeUnit? a b c d with
      | none => none
      | some code => (takeSymbols? rest).map fun (symbols, rest) => (.unit code :: symbols, rest)
  | '\\' :: e :: rest =>
      match unescape? e with
      | none => none
      | some c => (takeSymbols? rest).map fun (symbols, rest) => (.char c :: symbols, rest)
  | c :: rest =>
      if c.toNat < 0x20 then none
      else (takeSymbols? rest).map fun (symbols, rest) => (.char c :: symbols, rest)

/-- The character of a surrogate and its partner. -/
def pairChar (high low : Nat) : Char :=
  Char.ofNat (0x10000 + (high - 0xD800) * 0x400 + (low - 0xDC00))

/-- The characters that symbols spell. -/
def spell? : List Symbol → Option (List Char)
  | [] => some []
  | .char c :: rest => (spell? rest).map (c :: ·)
  | .unit high :: .unit low :: rest =>
      if high < 0xD800 ∨ 0xDFFF < high then
        (spell? (.unit low :: rest)).map (Char.ofNat high :: ·)
      else if high ≤ 0xDBFF ∧ 0xDC00 ≤ low ∧ low ≤ 0xDFFF then
        (spell? rest).map (pairChar high low :: ·)
      else none
  | .unit code :: rest =>
      if code < 0xD800 ∨ 0xDFFF < code then (spell? rest).map (Char.ofNat code :: ·) else none

/-- Takes a string off a text that stands behind its opening quote. -/
def take? (cs : List Char) : Option (Quoted × List Char) :=
  (takeSymbols? cs).map fun (symbols, rest) => ((spell? symbols).map String.ofList, rest)

/-! ## Writing -/

/-- The character of a hexadecimal digit. -/
def hexChar (d : Nat) : Char := if d < 10 then Char.ofNat (48 + d) else Char.ofNat (87 + d)

/-- A character inside quotes. -/
def escape (c : Char) : List Char :=
  match c with
  | '"' => ['\\', '"']
  | '\\' => ['\\', '\\']
  | '\x08' => ['\\', 'b']
  | '\x0c' => ['\\', 'f']
  | '\n' => ['\\', 'n']
  | '\r' => ['\\', 'r']
  | '\t' => ['\\', 't']
  | c =>
      if c.toNat < 0x20 then
        ['\\', 'u', '0', '0', hexChar (c.toNat / 16), hexChar (c.toNat % 16)]
      else [c]

/-- What a string holds between its quotes. One that spells no text is written
as a surrogate alone. -/
def body : Quoted → List Char
  | some s => s.toList.flatMap escape
  | none => "\\ud800".toList

/-- A string with its quotes. -/
def text (s : Quoted) : List Char := '"' :: (body s ++ ['"'])

/-! ## What is left is shorter -/

theorem length_takeSymbols? {cs rest : List Char} {symbols : List Symbol}
    (h : takeSymbols? cs = some (symbols, rest)) : rest.length < cs.length := by
  fun_induction takeSymbols? cs generalizing symbols with
  | case1 => simp at h
  | case2 r =>
    simp only [Option.some.injEq, Prod.mk.injEq] at h
    simp [← h.2]
  | case3 => simp at h
  | case4 a b c d r code _ ih =>
    simp only [Option.map_eq_some_iff, Prod.exists, Prod.mk.injEq] at h
    obtain ⟨s, r', h, -, rfl⟩ := h
    have := ih h
    simp only [List.length_cons]
    omega
  | case5 => simp at h
  | case6 e r _ c _ ih =>
    simp only [Option.map_eq_some_iff, Prod.exists, Prod.mk.injEq] at h
    obtain ⟨s, r', h, -, rfl⟩ := h
    have := ih h
    simp only [List.length_cons]
    omega
  | case7 => simp at h
  | case8 c r _ _ _ _ ih =>
    simp only [Option.map_eq_some_iff, Prod.exists, Prod.mk.injEq] at h
    obtain ⟨s, r', h, -, rfl⟩ := h
    have := ih h
    simp only [List.length_cons]
    omega

theorem length_take? {cs rest : List Char} {s : Quoted} (h : take? cs = some (s, rest)) :
    rest.length < cs.length := by
  simp only [take?, Option.map_eq_some_iff, Prod.exists, Prod.mk.injEq] at h
  obtain ⟨symbols, r, h, -, rfl⟩ := h
  exact length_takeSymbols? h

end Quoted
end PrintFormat.Json
