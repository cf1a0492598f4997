import PrintFormat.Json.Layout
import PrintFormat.Proofs.Json.Numeral
import PrintFormat.Proofs.Json.Quoted

/-!
Documents read back. A token is taken off a text as it was written, but a number
only if nothing behind it could belong to it; in the tokens of a document no two
numbers are next to each other, so the text of the document is cut into these
tokens again, with space between them or without (`ofText?_lexemes`). Reading the
tokens of a document where a value may stand completes that document, whatever
containers are open around it (`run_tokens`), by induction on the document.
`read?_compact` and `read?_pretty` put the two together.
-/
namespace PrintFormat.Json

namespace Token

/-! ## Tokens -/

/-- A token that is a number. -/
def isNumber : Token → Bool
  | number _ => true
  | _ => false

/-- How a token begins: not with space, and if it is no number, not with what a
number goes on with. -/
theorem exists_front (t : Token) :
    ∃ c tail, t.text = c :: tail ∧ isSpace c = false ∧
      (t.isNumber = false → c.isDigit = false ∧ c ≠ '.' ∧ c ≠ 'e' ∧ c ≠ 'E') := by
  have front (c : Char) (tail : List Char) (h : isSpace c = false ∧
      c.isDigit = false ∧ c ≠ '.' ∧ c ≠ 'e' ∧ c ≠ 'E') :
      ∃ d rest, c :: tail = d :: rest ∧ isSpace d = false ∧
        (t.isNumber = false → d.isDigit = false ∧ d ≠ '.' ∧ d ≠ 'e' ∧ d ≠ 'E') :=
    ⟨c, tail, rfl, h.1, fun _ => h.2⟩
  cases t with
  | openArray => exact front '[' [] (by decide)
  | closeArray => exact front ']' [] (by decide)
  | openObject => exact front '\x7b' [] (by decide)
  | closeObject => exact front '\x7d' [] (by decide)
  | comma => exact front ',' [] (by decide)
  | colon => exact front ':' [] (by decide)
  | null => exact front 'n' ['u', 'l', 'l'] (by decide)
  | bool b =>
    cases b with
    | true => exact front 't' ['r', 'u', 'e'] (by decide)
    | false => exact front 'f' ['a', 'l', 's', 'e'] (by decide)
  | string s => exact front '"' _ (by decide)
  | number n =>
    obtain ⟨c, tail, htext, hc⟩ := n.exists_front
    refine ⟨c, tail, htext, ?_, nofun⟩
    rcases hc with hdigit | rfl
    · unfold isSpace
      simp only [Bool.or_eq_false_iff, decide_eq_false_iff_not]
      refine ⟨⟨⟨?_, ?_⟩, ?_⟩, ?_⟩ <;> rintro rfl <;> exact absurd hdigit (by decide)
    · decide

/-- What a number begins with, no other token does. -/
theorem number_front {c : Char} (h : c.isDigit = true ∨ c = '-') :
    ofChar? c = none ∧ c ≠ '"' ∧ c.isAlpha = false := by
  rcases h with hdigit | rfl
  · have hchar (d : Char) (hd : d.isDigit = false) : c ≠ d := by
      rintro rfl
      rw [hdigit] at hd
      cases hd
    refine ⟨?_, hchar '"' (by decide), ?_⟩
    · unfold ofChar?
      split
      iterate 6 exact absurd rfl (hchar _ (by decide))
      rfl
    · simp only [Char.isDigit, Bool.and_eq_true, decide_eq_true_eq,
        UInt32.le_iff_toNat_le] at hdigit
      have hhigh : c.val.toNat ≤ 57 := hdigit.2
      simp only [Char.isAlpha, Char.isUpper, Char.isLower, Bool.or_eq_false_iff,
        Bool.and_eq_false_iff, decide_eq_false_iff_not, UInt32.le_iff_toNat_le, ge_iff_le]
      change ¬ (65 ≤ c.val.toNat ∧ c.val.toNat ≤ 90) ∧
        (¬ 97 ≤ c.val.toNat ∨ ¬ c.val.toNat ≤ 122)
      omega
  · decide

/-- A token is taken off a text. -/
theorem take?_text (t : Token) {rest : List Char} (h : t.isNumber = true → Numeral.Stops rest) :
    take? (t.text ++ rest) = some (t, rest) := by
  cases t with
  | openArray => rfl
  | closeArray => rfl
  | openObject => rfl
  | closeObject => rfl
  | comma => rfl
  | colon => rfl
  | null => rfl
  | bool b => cases b <;> rfl
  | string s =>
    have hbody : Quoted.take? (Quoted.body s ++ ['"'] ++ rest) = some (s, rest) := by
      rw [List.append_assoc]
      exact Quoted.take?_body s rest
    show (Quoted.take? (Quoted.body s ++ ['"'] ++ rest)).map _ = _
    rw [hbody]
    rfl
  | number n =>
    obtain ⟨c, tail, htext, hc⟩ := n.exists_front
    have hread := n.take?_text (h rfl)
    have hother := number_front hc
    rw [text, htext, List.cons_append] at *
    simp only [take?, hother, Bool.false_eq_true, if_false, hread, Option.map_some]

/-- A token in front of a text is read, and the text is read behind it. -/
theorem ofText?_append (t : Token) {rest : List Char}
    (h : t.isNumber = true → Numeral.Stops rest) :
    ofText? (t.text ++ rest) = (ofText? rest).map (t :: ·) := by
  obtain ⟨c, tail, htext, hspace, -⟩ := t.exists_front
  have htake := t.take?_text h
  rw [htext, List.cons_append] at htake ⊢
  rw [ofText?, if_neg (by rw [hspace]; exact Bool.false_ne_true)]
  split
  · rename_i hnone
    rw [htake] at hnone
    cases hnone
  · rename_i hsome
    rw [htake] at hsome
    cases hsome
    rfl

theorem ofText?_space {c : Char} (h : isSpace c = true) (rest : List Char) :
    ofText? (c :: rest) = ofText? rest := by
  rw [ofText?, if_pos h]

/-- Tokens of which no two numbers are next to each other. -/
def Apart (tokens : List Token) : Prop :=
  tokens.IsChain fun s t => s.isNumber = true → t.isNumber = false

/-- No control character is written. -/
theorem not_control_text (t : Token) : ∀ c ∈ t.text, 0x20 ≤ c.toNat := by
  have closed (cs : List Char) (h : (cs.all fun c => 0x20 ≤ c.toNat) = true) :
      ∀ c ∈ cs, 0x20 ≤ c.toNat := by
    simpa using h
  cases t with
  | number n => exact n.not_control_text
  | string s => exact Quoted.not_control_text s
  | null => exact closed ['n', 'u', 'l', 'l'] rfl
  | bool b =>
    cases b with
    | true => exact closed ['t', 'r', 'u', 'e'] rfl
    | false => exact closed ['f', 'a', 'l', 's', 'e'] rfl
  | openArray => exact closed ['['] rfl
  | closeArray => exact closed [']'] rfl
  | openObject => exact closed ['\x7b'] rfl
  | closeObject => exact closed ['\x7d'] rfl
  | comma => exact closed [','] rfl
  | colon => exact closed [':'] rfl

end Token

/-! ## Texts of tokens -/

namespace Lexeme

theorem ofText?_replicate_space (n : Nat) (rest : List Char) :
    Token.ofText? (List.replicate n ' ' ++ rest) = Token.ofText? rest := by
  induction n with
  | zero => rfl
  | succ n ih => rw [List.replicate_succ, List.cons_append, Token.ofText?_space rfl, ih]

/-- What is behind a number stops it, unless that is another number. -/
theorem stops_flatMap {lexemes : List Lexeme}
    (h : ∀ t ∈ (lexemes.filterMap token?).head?, t.isNumber = false) :
    Numeral.Stops (lexemes.flatMap text) := by
  cases lexemes with
  | nil => exact Numeral.stops_nil
  | cons lexeme rest =>
    cases lexeme with
    | blank => exact Numeral.stops_cons (by decide) _
    | line indent => exact Numeral.stops_cons (by decide) _
    | token t =>
      obtain ⟨c, tail, htext, -, hfront⟩ := t.exists_front
      have hshown : (token t :: rest).flatMap text = c :: (tail ++ rest.flatMap text) := by
        rw [List.flatMap_cons, text, htext, List.cons_append]
      rw [hshown]
      exact Numeral.stops_cons (hfront (h t rfl)) _

/-- Tokens are read from their text, whatever space is between them. -/
theorem ofText?_lexemes {lexemes : List Lexeme} (h : Token.Apart (lexemes.filterMap token?)) :
    Token.ofText? (lexemes.flatMap text) = some (lexemes.filterMap token?) := by
  induction lexemes with
  | nil => rw [List.flatMap_nil, Token.ofText?]; rfl
  | cons lexeme rest ih =>
    cases lexeme with
    | blank =>
      show Token.ofText? (' ' :: rest.flatMap text) = _
      rw [Token.ofText?_space rfl]
      exact ih h
    | line indent =>
      show Token.ofText? ('\n' :: (List.replicate (2 * indent) ' ' ++ rest.flatMap text)) = _
      rw [Token.ofText?_space rfl, ofText?_replicate_space]
      exact ih h
    | token t =>
      have hchain : Token.Apart (t :: rest.filterMap token?) := h
      rw [Token.Apart, List.isChain_cons] at hchain
      have hstops : t.isNumber = true → Numeral.Stops (rest.flatMap text) :=
        fun ht => stops_flatMap fun next hnext => hchain.1 next hnext ht
      show Token.ofText? (t.text ++ rest.flatMap text) = _
      rw [Token.ofText?_append t hstops, ih hchain.2]
      rfl

end Lexeme

/-! ## Tokens of documents -/

open Token in
/-- Parts with commas between are apart if each is. -/
theorem apart_intercalate {parts : List (List Token)} (h : ∀ part ∈ parts, Apart part) :
    Apart ([comma].intercalate parts) := by
  induction parts with
  | nil => exact List.IsChain.nil
  | cons part parts ih =>
    have hpart := h part List.mem_cons_self
    have hrest := ih fun p hp => h p (List.mem_cons_of_mem part hp)
    cases parts with
    | nil => rwa [List.intercalate_singleton]
    | cons next parts =>
      rw [List.intercalate_cons_cons, List.append_assoc]
      refine List.isChain_append.mpr ⟨hpart, ?_, ?_⟩
      · exact List.isChain_cons.mpr ⟨fun _ _ => nofun, hrest⟩
      · intro s _ t ht _
        cases ht
        rfl

open Token in
/-- Tokens between brackets are apart if they are apart themselves. -/
theorem apart_bracketed {opening closing : Token} (hopen : opening.isNumber = false)
    (hclose : closing.isNumber = false) {tokens : List Token} (h : Apart tokens) :
    Apart (opening :: (tokens ++ [closing])) := by
  refine List.isChain_cons.mpr ⟨fun _ _ ht => ?_, ?_⟩
  · rw [hopen] at ht
    cases ht
  · refine List.isChain_append.mpr ⟨h, List.isChain_singleton closing, ?_⟩
    intro s _ t ht _
    cases ht
    exact hclose

mutual

/-- In the tokens of a document no two numbers are next to each other. -/
theorem apart_tokens : (j : Json) → Token.Apart j.tokens
  | null | bool _ | number _ | string _ => List.isChain_singleton _
  | array items =>
    apart_bracketed rfl rfl (apart_intercalate (apart_itemTokens items))
  | object members =>
    apart_bracketed rfl rfl (apart_intercalate (apart_memberTokens members))

theorem apart_itemTokens : (items : List Json) → ∀ part ∈ itemTokens items, Token.Apart part
  | [] => nofun
  | item :: rest => List.forall_mem_cons.mpr ⟨apart_tokens item, apart_itemTokens rest⟩

theorem apart_memberTokens : (members : List (Quoted × Json)) →
    ∀ part ∈ memberTokens members, Token.Apart part
  | [] => nofun
  | (_, value) :: rest =>
    List.forall_mem_cons.mpr ⟨List.isChain_cons.mpr ⟨fun _ _ => nofun,
      List.isChain_cons.mpr ⟨fun _ _ => nofun, apart_tokens value⟩⟩, apart_memberTokens rest⟩

end

/-! ## Reading tokens -/

namespace Reader

/-- The first token of a document does not close an array. -/
theorem exists_first (j : Json) : ∃ t tokens, j.tokens = t :: tokens ∧ t ≠ .closeArray := by
  cases j with
  | null => exact ⟨_, _, rfl, nofun⟩
  | bool b => exact ⟨_, _, rfl, nofun⟩
  | number n => exact ⟨_, _, rfl, nofun⟩
  | string s => exact ⟨_, _, rfl, nofun⟩
  | array items => exact ⟨_, _, rfl, nofun⟩
  | object members => exact ⟨_, _, rfl, nofun⟩

/-- Where an item may stand, a value that starts is the first item. -/
theorem run_firstItem (j : Json) (tokens : List Token) (frames : List Frame) :
    (j.tokens ++ tokens).foldlM step (itemOrEnd frames) =
      (j.tokens ++ tokens).foldlM step (value (.array [] :: frames)) := by
  obtain ⟨t, rest, htokens, ht⟩ := exists_first j
  have hstep : step (itemOrEnd frames) t = step (value (.array [] :: frames)) t := by
    cases t with
    | closeArray => exact absurd rfl ht
    | _ => rfl
  rw [htokens, List.cons_append, List.foldlM_cons, List.foldlM_cons, hstep]

mutual

/-- The tokens of a document are read to it within any open containers. -/
theorem run_tokens : (j : Json) → (frames : List Frame) → (rest : List Token) →
    (j.tokens ++ rest).foldlM step (value frames) = rest.foldlM step (complete j frames)
  | null, _, _ => rfl
  | bool _, _, _ => rfl
  | number _, _, _ => rfl
  | string _, _, _ => rfl
  | array [], _, _ => rfl
  | array (item :: items), frames, rest => by
    have hitems := run_items (item :: items) (List.cons_ne_nil _ _) [] frames rest
    have hfirst : ([Token.comma].intercalate (itemTokens (item :: items)) ++
        .closeArray :: rest).foldlM step (itemOrEnd frames) =
        ([Token.comma].intercalate (itemTokens (item :: items)) ++
          .closeArray :: rest).foldlM step (value (.array [] :: frames)) := by
      cases items with
      | nil =>
        rw [itemTokens, itemTokens, List.intercalate_singleton]
        exact run_firstItem item _ frames
      | cons next items =>
        rw [itemTokens, itemTokens, List.intercalate_cons_cons, List.append_assoc,
          List.append_assoc]
        exact run_firstItem item _ frames
    rw [tokens, List.cons_append, List.append_assoc]
    exact hfirst.trans hitems
  | object [], _, _ => rfl
  | object ((label, v) :: members), frames, rest => by
    have hmembers := run_members ((label, v) :: members) (List.cons_ne_nil _ _) [] frames rest
    have hfirst : ([Token.comma].intercalate (memberTokens ((label, v) :: members)) ++
        .closeObject :: rest).foldlM step (nameOrEnd frames) =
        ([Token.comma].intercalate (memberTokens ((label, v) :: members)) ++
          .closeObject :: rest).foldlM step (name [] frames) := by
      cases members with
      | nil => rfl
      | cons next members => rfl
    rw [tokens, List.cons_append, List.append_assoc]
    exact hfirst.trans hmembers

/-- Items with commas between are read up to the end of their array. -/
theorem run_items : (items : List Json) → items ≠ [] → (before : List Json) →
    (frames : List Frame) → (rest : List Token) →
    ([Token.comma].intercalate (itemTokens items) ++ .closeArray :: rest).foldlM step
        (value (.array before :: frames)) =
      rest.foldlM step (complete (.array (before.reverse ++ items)) frames)
  | [], hne, _, _, _ => absurd rfl hne
  | [item], _, before, frames, rest => by
    have hitem := run_tokens item (.array before :: frames) (.closeArray :: rest)
    rw [itemTokens, itemTokens, List.intercalate_singleton, hitem, ← List.reverse_cons]
    rfl
  | item :: next :: items, _, before, frames, rest => by
    have hitem := run_tokens item (.array before :: frames)
      (.comma :: ([Token.comma].intercalate (itemTokens (next :: items)) ++ .closeArray :: rest))
    have hrest := run_items (next :: items) (List.cons_ne_nil _ _) (item :: before) frames rest
    rw [List.reverse_cons, List.append_assoc] at hrest
    rw [itemTokens, itemTokens, List.intercalate_cons_cons, List.append_assoc, List.append_assoc]
    exact hitem.trans hrest

/-- Members with commas between are read up to the end of their object. -/
theorem run_members : (members : List (Quoted × Json)) → members ≠ [] →
    (before : List (Quoted × Json)) → (frames : List Frame) → (rest : List Token) →
    ([Token.comma].intercalate (memberTokens members) ++ .closeObject :: rest).foldlM step
        (name before frames) =
      rest.foldlM step (complete (.object (before.reverse ++ members)) frames)
  | [], hne, _, _, _ => absurd rfl hne
  | [(label, v)], _, before, frames, rest => by
    have hvalue := run_tokens v (.object before label :: frames) (.closeObject :: rest)
    rw [memberTokens, memberTokens, List.intercalate_singleton, ← List.reverse_cons]
    exact hvalue
  | (label, v) :: next :: members, _, before, frames, rest => by
    have hvalue := run_tokens v (.object before label :: frames)
      (.comma :: ([Token.comma].intercalate (memberTokens (next :: members)) ++
        .closeObject :: rest))
    have hrest := run_members (next :: members) (List.cons_ne_nil _ _)
      ((label, v) :: before) frames rest
    rw [List.reverse_cons, List.append_assoc] at hrest
    rw [memberTokens, memberTokens, List.intercalate_cons_cons, List.append_assoc,
      List.append_assoc]
    exact hvalue.trans hrest

end

end Reader

/-- The tokens of a document are read to it. -/
theorem ofTokens?_tokens (j : Json) : ofTokens? j.tokens = some j := by
  have hrun := Reader.run_tokens j [] []
  rw [List.append_nil] at hrun
  rw [ofTokens?, hrun]
  rfl

/-- A document is read back from its compact form. -/
theorem read?_compact (j : Json) : read? j.compact = some j := by
  have htokens : (j.tokens.map Lexeme.token).filterMap Lexeme.token? = j.tokens := by
    rw [List.filterMap_map]
    exact List.filterMap_some
  have hapart : Token.Apart ((j.tokens.map Lexeme.token).filterMap Lexeme.token?) := by
    rw [htokens]
    exact apart_tokens j
  have hread := Lexeme.ofText?_lexemes hapart
  rw [htokens, List.flatMap_map] at hread
  have htext : Token.ofText? (j.tokens.flatMap Token.text) = some j.tokens := hread
  rw [read?, compact, String.toList_ofList, htext, Option.bind_some, ofTokens?_tokens]

theorem compact_injective : Function.Injective compact := by
  intro j k h
  have hread := read?_compact j
  rw [h, read?_compact] at hread
  exact (Option.some.inj hread).symm

/-- A compact form has no control character in it. -/
theorem not_control_compact (j : Json) : ∀ c ∈ j.compact.toList, 0x20 ≤ c.toNat := by
  intro c hc
  rw [compact, String.toList_ofList] at hc
  obtain ⟨t, -, ht⟩ := List.mem_flatMap.mp hc
  exact t.not_control_text c ht

/-- An object is written from brace to brace. -/
theorem exists_compact_object (members : List (Quoted × Json)) :
    ∃ inner, (object members).compact.toList = '\x7b' :: (inner ++ ['\x7d']) := by
  refine ⟨([Token.comma].intercalate (memberTokens members)).flatMap Token.text, ?_⟩
  rw [compact, String.toList_ofList, tokens, List.flatMap_cons, List.flatMap_append]
  rfl

/-! ## The wide form -/

namespace Lexeme

/-- Space in the separator is not among the tokens of what it separates. -/
theorem filterMap_intercalate (separator : List Lexeme) (parts : List (List Lexeme)) :
    (separator.intercalate parts).filterMap token? =
      (separator.filterMap token?).intercalate (parts.map (List.filterMap token?)) := by
  induction parts with
  | nil => rfl
  | cons part rest ih =>
    cases rest with
    | nil => rw [List.map_singleton, List.intercalate_singleton, List.intercalate_singleton]
    | cons next rest =>
      simp only [List.map_cons] at ih ⊢
      rw [List.intercalate_cons_cons, List.intercalate_cons_cons, List.filterMap_append,
        List.filterMap_append, ih]

theorem filterMap_bracketed (level : Nat) (opening closing : Token) (parts : List (List Lexeme)) :
    (bracketed level opening closing parts).filterMap token? =
      opening :: ([Token.comma].intercalate (parts.map (List.filterMap token?)) ++ [closing]) := by
  unfold bracketed
  split
  · next h =>
    subst h
    rfl
  · rw [List.filterMap_append, List.filterMap_append, filterMap_intercalate]
    rfl

end Lexeme

mutual

/-- The tokens of the wide form are those of the document. -/
theorem filterMap_wide : (j : Json) → (level : Nat) →
    (j.wide level).filterMap Lexeme.token? = j.tokens
  | null, _ | bool _, _ | number _, _ | string _, _ => rfl
  | array items, level => by
    rw [wide, Lexeme.filterMap_bracketed, map_wideItems items (level + 1), tokens]
  | object members, level => by
    rw [wide, Lexeme.filterMap_bracketed, map_wideMembers members (level + 1), tokens]

theorem map_wideItems : (items : List Json) → (level : Nat) →
    (wideItems level items).map (List.filterMap Lexeme.token?) = itemTokens items
  | [], _ => rfl
  | item :: rest, level => by
    rw [wideItems, List.map_cons, filterMap_wide item level, map_wideItems rest level, itemTokens]

theorem map_wideMembers : (members : List (Quoted × Json)) → (level : Nat) →
    (wideMembers level members).map (List.filterMap Lexeme.token?) = memberTokens members
  | [], _ => rfl
  | (name, value) :: rest, level => by
    have hvalue : (Lexeme.token (.string name) :: .token .colon :: .blank ::
        value.wide level).filterMap Lexeme.token? = .string name :: .colon :: value.tokens := by
      rw [← filterMap_wide value level]
      rfl
    rw [wideMembers, List.map_cons, hvalue, map_wideMembers rest level, memberTokens]

end

/-- A document is read back from its wide form. -/
theorem read?_pretty (j : Json) : read? j.pretty = some j := by
  have hwide := j.filterMap_wide 0
  have hread := Lexeme.ofText?_lexemes (hwide ▸ apart_tokens j)
  rw [hwide] at hread
  rw [read?, pretty, String.toList_ofList, hread, Option.bind_some, ofTokens?_tokens]

end PrintFormat.Json
