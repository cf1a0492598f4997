import Mathlib
import PrintFormat.Json.Quoted

/-!
Strings read back. Each character that is written inside quotes is taken off
again as one symbol, whatever stands behind it, and the symbols of a text spell
it: an escape by number is only written for a control character, which is no
surrogate. A string that spells no text stays one. Nothing that is written is a
control character, so a string never breaks a line.
-/
namespace PrintFormat.Json.Quoted

/-- Control characters without a letter of their own. -/
def isNumbered (c : Char) : Bool :=
  c.toNat < 0x20 && !(c ∈ ['\x08', '\x0c', '\n', '\r', '\t'])

/-- The symbol that a character is written as. -/
def symbolOf (c : Char) : Symbol := if isNumbered c then .unit c.toNat else .char c

/-! ## Escapes -/

/-- A written character, by cases: an escape of two characters, one by number, or
the character itself. -/
theorem escape_cases (c : Char) :
    (∃ e, escape c = ['\\', e] ∧ e ≠ 'u' ∧ unescape? e = some c ∧ isNumbered c = false) ∨
    (∃ h l, escape c = ['\\', 'u', '0', '0', h, l] ∧ codeUnit? '0' '0' h l = some c.toNat ∧
      isNumbered c = true) ∨
    (escape c = [c] ∧ c ≠ '"' ∧ c ≠ '\\' ∧ 0x20 ≤ c.toNat ∧ isNumbered c = false) := by
  unfold escape
  split
  · exact .inl ⟨'"', rfl, by decide, rfl, rfl⟩
  · exact .inl ⟨'\\', rfl, by decide, rfl, rfl⟩
  · exact .inl ⟨'b', rfl, by decide, rfl, rfl⟩
  · exact .inl ⟨'f', rfl, by decide, rfl, rfl⟩
  · exact .inl ⟨'n', rfl, by decide, rfl, rfl⟩
  · exact .inl ⟨'r', rfl, by decide, rfl, rfl⟩
  · exact .inl ⟨'t', rfl, by decide, rfl, rfl⟩
  · rename_i hquote hslash hback hfeed hline hreturn htab
    split
    · rename_i hcontrol
      have hunit : ∀ n : Fin 32,
          codeUnit? '0' '0' (hexChar (n / 16)) (hexChar (n % 16)) = some n.val := by decide
      refine .inr (.inl ⟨_, _, rfl, hunit ⟨c.toNat, hcontrol⟩, ?_⟩)
      simp [isNumbered, hcontrol]
      exact ⟨hback, hfeed, hline, hreturn, htab⟩
    · rename_i hcontrol
      refine .inr (.inr ⟨rfl, hquote, hslash, by omega, ?_⟩)
      simp [isNumbered, hcontrol]

/-- A written character is taken off as its symbol. -/
theorem takeSymbols?_escape (c : Char) (rest : List Char) :
    takeSymbols? (escape c ++ rest) =
      (takeSymbols? rest).map fun taken => (symbolOf c :: taken.1, taken.2) := by
  obtain ⟨e, hescape, hu, hread, hkind⟩ | ⟨h, l, hescape, hunit, hkind⟩ |
      ⟨hescape, hquote, hslash, hcontrol, hkind⟩ := escape_cases c
  · have hsymbol : symbolOf c = .char c := by simp [symbolOf, hkind]
    rw [hescape, hsymbol, List.cons_append, List.cons_append, List.nil_append, takeSymbols?, hread]
    intro a b c d rest' he
    exact absurd he hu
  · have hsymbol : symbolOf c = .unit c.toNat := by simp [symbolOf, hkind]
    simp only [hescape, hsymbol, List.cons_append, List.nil_append, takeSymbols?, hunit]
  · have hsymbol : symbolOf c = .char c := by simp [symbolOf, hkind]
    rw [hescape, hsymbol, List.cons_append, List.nil_append, takeSymbols?, if_neg (by omega)]
    · exact hquote
    · intro a b c' d rest' hc
      exact absurd hc hslash
    · intro e rest' hc
      exact absurd hc hslash

/-- Symbols of a text are taken off up to the quote behind it. -/
theorem takeSymbols?_body (cs rest : List Char) :
    takeSymbols? (cs.flatMap escape ++ '"' :: rest) = some (cs.map symbolOf, rest) := by
  induction cs with
  | nil => rfl
  | cons c cs ih =>
    rw [List.flatMap_cons, List.append_assoc, takeSymbols?_escape, ih]
    rfl

/-! ## Spelling -/

/-- A code unit that is no surrogate is a character. -/
theorem spell?_unit {code : Nat} (h : code < 0xD800) (symbols : List Symbol) :
    spell? (.unit code :: symbols) = (spell? symbols).map (Char.ofNat code :: ·) := by
  rcases symbols with _ | ⟨next, symbols⟩
  · simp [spell?, h]
  · cases next with
    | char c => simp [spell?, h]
    | unit low => rw [spell?, if_pos (.inl h)]

/-- The symbols of a text spell it. -/
theorem spell?_map_symbolOf (cs : List Char) : spell? (cs.map symbolOf) = some cs := by
  induction cs with
  | nil => rfl
  | cons c cs ih =>
    rw [List.map_cons, symbolOf]
    by_cases hc : isNumbered c = true
    · have hlt : c.toNat < 0xD800 := by
        simp only [isNumbered, Bool.and_eq_true, decide_eq_true_eq] at hc
        omega
      rw [if_pos hc, spell?_unit hlt, ih, Option.map_some, Char.ofNat_toNat]
    · rw [if_neg hc, spell?, ih, Option.map_some]

/-- A string is taken off the text behind its opening quote. -/
theorem take?_body (s : Quoted) (rest : List Char) :
    take? (body s ++ '"' :: rest) = some (s, rest) := by
  cases s with
  | none => rfl
  | some s =>
    rw [body, take?, takeSymbols?_body]
    show some ((spell? (s.toList.map symbolOf)).map String.ofList, rest) = _
    rw [spell?_map_symbolOf, Option.map_some, String.ofList_toList]

/-! ## Control characters -/

theorem toNat_hexChar (d : Nat) (h : d < 16) : 0x20 ≤ (hexChar d).toNat := by
  have key : ∀ d : Fin 16, 0x20 ≤ (hexChar d).toNat := by decide
  exact key ⟨d, h⟩

theorem not_control_escape (c : Char) : ∀ d ∈ escape c, 0x20 ≤ d.toNat := by
  unfold escape
  split
  case h_8 =>
    split
    · rename_i hcontrol
      have hhigh := toNat_hexChar (c.toNat / 16) (by omega)
      have hlow := toNat_hexChar (c.toNat % 16) (by omega)
      simp [hhigh, hlow]
    · simp
      omega
  all_goals simp

/-- No control character is written. -/
theorem not_control_text (s : Quoted) : ∀ d ∈ text s, 0x20 ≤ d.toNat := by
  have hbody : ∀ d ∈ body s, 0x20 ≤ d.toNat := by
    cases s with
    | none => simp [body]
    | some s =>
      intro d hd
      obtain ⟨c, -, hc⟩ := List.mem_flatMap.mp hd
      exact not_control_escape c d hc
  intro d hd
  simp only [text, List.mem_cons, List.mem_append, List.not_mem_nil, or_false] at hd
  rcases hd with rfl | hd | rfl
  · decide
  · exact hbody d hd
  · decide

end PrintFormat.Json.Quoted
