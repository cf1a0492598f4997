import PrintFormat.Proofs.Conversion.Layout
import PrintFormat.Proofs.Numeral.Reading

/-!
What a width does to a field. The width has no part in what is converted, so that
a conversion composes the same field under every width, but for telling it the
width (`Standard.compose_withWidth`, `Extended.compose_withWidth`). Filling with
zeros puts them behind the head of the field, which is the sign or the mark that
its text opens with (`Field.Headed.zeros`); `Standard.compose_fills` says which
fields are filled so.
-/
namespace PrintFormat

/-! ## Fields told a width -/

/-- The field with another width. -/
def Field.withWidth (width : Int) (f : Field) : Field := { f with width }

/-- The directive with another width. -/
def Directive.withWidth (w : Measure) (d : Directive) : Directive := { d with width := w }

section WithWidth

variable {d : Directive} {w : Measure} {options : Options}

/-- Two actions that come to the same, each from its own state, do so with one
behind them. -/
theorem bind_eq_of_eq {ε σ α β : Type} {x y : EStateM ε σ α} {s t : σ} (h : x s = y t)
    (f : α → EStateM ε σ β) : (x >>= f) s = (y >>= f) t := by
  show EStateM.bind x f s = EStateM.bind y f t
  simp only [EStateM.bind, h]

theorem finishInteger_withWidth (signed : Bool) (mark : Bytes) :
    finishInteger (d.withWidth w) signed mark = do
      return (← finishInteger d signed mark).withWidth w.value := by
  funext s
  refine (finishInteger_eq (d.withWidth w) signed mark s).trans ?_
  refine Eq.trans ?_ (bind_eq_of_eq (finishInteger_eq d signed mark s) _).symm
  cases signed <;>
    simp only [Bool.false_eq_true, if_false, if_true, bind_assoc, pure_bind] <;>
    rfl

theorem convertUnsigned_withWidth (bits : Nat) (v : BitVec 64) (b : Base) (upper : Bool)
    (mark : Bytes → Bytes) :
    convertUnsigned (d.withWidth w) bits v b upper mark = do
      return (← convertUnsigned d bits v b upper mark).withWidth w.value := by
  simp only [convertUnsigned, finishInteger_withWidth, bind_assoc]

theorem convertFloat_withWidth (v : Binary64) (upper : Bool) :
    convertFloat (d.withWidth w) options v upper = do
      return (← convertFloat d options v upper).withWidth w.value := by
  simp only [convertFloat, bind_assoc, pure_bind]
  rfl

theorem Standard.compose_withWidth (c : Standard) (v : c.demand.Value) :
    c.compose (d.withWidth w) options v = do
      return (← c.compose d options v).withWidth w.value := by
  cases c with
  | signed =>
    simp only [compose, finishInteger_withWidth, bind_assoc]
    rfl
  | unsigned | octal | hex | hexUpper | pointer =>
    simp only [compose]
    exact convertUnsigned_withWidth ..
  | float | floatUpper =>
    simp only [compose]
    exact convertFloat_withWidth ..
  | text | character =>
    simp only [compose, pure_bind]
    rfl

theorem composeText_withWidth (text : Bytes) :
    composeText (d.withWidth w) text = do
      return (← composeText d text).withWidth w.value := by
  simp only [composeText, bind_assoc, pure_bind]
  rfl

/-- All but telephone numbers, whose width is a count of digits. -/
theorem Extended.compose_withWidth {c : Extended} (hc : c ≠ .phone) (v : c.demand.Value) :
    c.compose (d.withWidth w) options v = do
      return (← c.compose d options v).withWidth w.value := by
  cases c with
  | phone => exact absurd rfl hc
  | binary | octal | hex =>
    simp only [compose, composeGroups, bind_assoc, pure_bind]
    rfl
  | truth | codePoint => rfl
  | clockOfSeconds | clock | shortClockOfSeconds | shortClock | date | longDate | utc
  | ipv4 | ipv6 | mac | macUpper | dotted | dottedUpper =>
    simp only [compose]
    exact composeText_withWidth _

end WithWidth

/-! ## Texts brought to a width -/

/-- A text brought to a length by zeros behind its first bytes. -/
def zerosBehind (head length : Nat) (text : Bytes) : Bytes :=
  text.take head ++ List.replicate (length - text.length) zero ++ text.drop head

/-- The length of the sign or of the hexadecimal mark that a text opens with. -/
def leadLength (text : Bytes) : Nat :=
  if ascii "0x" <+: text ∨ ascii "0X" <+: text then 2
  else if text.head? ∈ [some minus, some 43, some blank] then 1
  else 0

theorem zerosBehind_sublist (head length : Nat) (text : Bytes) :
    text.Sublist (zerosBehind head length text) := by
  unfold zerosBehind
  conv_lhs => rw [← List.take_append_drop head text]
  rw [List.append_assoc]
  exact List.Sublist.append_left (List.sublist_append_right _ _) _

theorem length_zerosBehind (head length : Nat) (text : Bytes) :
    (zerosBehind head length text).length = max text.length length := by
  simp only [zerosBehind, List.length_append, List.length_replicate, List.length_take,
    List.length_drop]
  omega

theorem Field.text_pieces (f : Field) :
    f.pieces.flatMap Piece.text =
      if f.zeroFill = true ∧ 0 < f.width then
        zerosBehind f.head (min f.width.natAbs maxFieldWidth) f.body
      else if 0 ≤ f.width then f.body.leftpad (min f.width.natAbs maxFieldWidth) blank
      else f.body.rightpad (min f.width.natAbs maxFieldWidth) blank := by
  unfold pieces
  by_cases hzero : f.zeroFill = true ∧ 0 < f.width
  · rw [if_pos (by simpa using hzero), if_pos hzero]
    simp only [List.flatMap_cons, List.flatMap_nil, Piece.text, fillCount, zerosBehind,
      List.append_nil, List.append_assoc]
  · rw [if_neg (by simpa using hzero), if_neg hzero]
    unfold aligned
    split
    · simp [Piece.text, fillCount, List.leftpad]
    · simp [Piece.text, fillCount, List.rightpad]

/-- A field that opens with a sign or with a mark, and whose head that is. The
octal mark is a zero among zeros. -/
structure Field.Headed (f : Field) (lead rest : Bytes) : Prop where
  body : f.body = lead ++ rest
  head : f.head = lead.length
  lead : lead ∈ [[], ascii "-", ascii "+", ascii " ", ascii "0x", ascii "0X", ascii "0"]
  sign : ∀ b ∈ rest.head?, Scratch.isSign b = false
  mark : ∀ b ∈ rest, b ≠ 120 ∧ b ≠ 88

theorem leadLength_digits {text : Bytes} (hsign : ∀ b ∈ text.head?, Scratch.isSign b = false)
    (hmark : ∀ b ∈ text, b ≠ 120 ∧ b ≠ 88) : leadLength text = 0 := by
  have hx : ¬(ascii "0x" <+: text ∨ ascii "0X" <+: text) := by
    rintro (h | h)
    · exact (hmark 120 (h.subset (by decide))).1 rfl
    · exact (hmark 88 (h.subset (by decide))).2 rfl
  have hhead : text.head? ∉ [some minus, some 43, some blank] := by
    intro h
    simp only [List.mem_cons, List.not_mem_nil, or_false] at h
    obtain h | h | h := h
    · exact absurd (hsign _ h) (by decide)
    · exact absurd (hsign _ h) (by decide)
    · exact absurd (hsign _ h) (by decide)
  rw [leadLength, if_neg hx, if_neg hhead]

theorem leadLength_sign {b : UInt8} (h : b ∈ [minus, 43, blank]) (rest : Bytes) :
    leadLength (b :: rest) = 1 := by
  have hne : b ≠ zero := by
    rintro rfl
    exact absurd h (by decide)
  have hx : ¬(ascii "0x" <+: b :: rest ∨ ascii "0X" <+: b :: rest) := by
    rintro (h | h)
    · exact hne (List.cons_prefix_cons.mp h).1.symm
    · exact hne (List.cons_prefix_cons.mp h).1.symm
  have hhead : (b :: rest).head? ∈ [some minus, some 43, some blank] := List.mem_map_of_mem h
  rw [leadLength, if_neg hx, if_pos hhead]

theorem leadLength_mark {lead : Bytes} (h : lead = ascii "0x" ∨ lead = ascii "0X")
    (rest : Bytes) : leadLength (lead ++ rest) = 2 := by
  obtain rfl | rfl := h
  · exact if_pos (.inl (List.prefix_append _ _))
  · exact if_pos (.inr (List.prefix_append _ _))

/-- Zeros in front of a zero and behind it are the same. -/
theorem zerosBehind_zero (length : Nat) (rest : Bytes) :
    zerosBehind 1 length (zero :: rest) = zerosBehind 0 length (zero :: rest) := by
  unfold zerosBehind
  generalize length - (zero :: rest).length = k
  show zero :: (List.replicate k zero ++ rest) = List.replicate k zero ++ zero :: rest
  rw [← List.cons_append, ← List.replicate_succ, List.replicate_succ', List.append_assoc]
  rfl

/-- Where zeros go in a field can be told from its text. -/
theorem Field.Headed.zeros {f : Field} {lead rest : Bytes} (h : f.Headed lead rest)
    (length : Nat) :
    zerosBehind f.head length f.body = zerosBehind (leadLength f.body) length f.body := by
  have hlead := h.lead
  rw [h.head, h.body]
  simp only [List.mem_cons, List.not_mem_nil, or_false] at hlead
  obtain rfl | rfl | rfl | rfl | rfl | rfl | rfl := hlead
  · rw [List.nil_append, leadLength_digits h.sign h.mark]
    rfl
  · exact congrArg (zerosBehind · length _) (leadLength_sign (by decide) rest).symm
  · exact congrArg (zerosBehind · length _) (leadLength_sign (by decide) rest).symm
  · exact congrArg (zerosBehind · length _) (leadLength_sign (by decide) rest).symm
  · exact congrArg (zerosBehind · length _) (leadLength_mark (.inl rfl) rest).symm
  · exact congrArg (zerosBehind · length _) (leadLength_mark (.inr rfl) rest).symm
  -- the octal mark is not told from the digits, and need not be
  · have hnone : leadLength (zero :: rest) = 0 := by
      refine leadLength_digits (fun b hb => ?_) (fun b hb => ?_)
      · cases hb
        decide
      · obtain rfl | hb := List.mem_cons.mp hb
        · decide
        · exact h.mark b hb
    exact (zerosBehind_zero length rest).trans (congrArg (zerosBehind · length _) hnone.symm)

/-! ## Fields that are filled with zeros -/

/-- Whether a conversion has its field filled with zeros, if that is asked for. -/
def Standard.fills (d : Directive) : (c : Standard) → c.demand.Value → Bool
  | .float, v => Binary64.isFinite v
  | .floatUpper, v => Binary64.isFinite v
  | .text, _ => false
  | .character, _ => false
  | _, _ => d.places?.isNone

theorem ne_mark_digitByte (upper : Bool) {d : Nat} (h : d < 16) :
    digitByte upper d ≠ 120 ∧ digitByte upper d ≠ 88 := by
  have key : ∀ upper, ∀ d : Fin 16, digitByte upper d ≠ 120 ∧ digitByte upper d ≠ 88 := by decide
  exact key upper ⟨d, h⟩

theorem Base.ne_mark_text {b : Base} (hb : b.value ≤ 16) (upper : Bool) (n : Nat) :
    ∀ c ∈ b.text upper n, c ≠ 120 ∧ c ≠ 88 := by
  intro c hc
  obtain ⟨d, hd, rfl⟩ := List.mem_map.mp hc
  exact ne_mark_digitByte upper ((b.lt_of_mem_digits hd).trans_le hb)

section Fills

variable {d : Directive} {options : Options} {f : Field} {t : Scratch}

/-- What is said of the field of a conversion: whether it is filled with zeros,
and if so, that its head is what it opens with. -/
def Field.Fills (f : Field) (d : Directive) (fills : Bool) : Prop :=
  f.zeroFill = (d.zeroFill && fills) ∧ (f.zeroFill = true → ∃ lead rest, f.Headed lead rest)

theorem convertUnsigned_fills {bits : Nat} {v : BitVec 64} {b : Base} {upper : Bool}
    {mark : Bytes → Bytes} (hb : b.value ≤ 16)
    (hmark : ∀ text, mark text ∈ [[], ascii "0x", ascii "0X", ascii "0"])
    (h : convertUnsigned d bits v b upper mark .empty = .ok f t) :
    f.Fills d d.places?.isNone := by
  have hlength (text : Bytes) : (mark text).length ≤ 2 := by
    have key : ∀ lead ∈ [[], ascii "0x", ascii "0X", ascii "0"], lead.length ≤ 2 := by decide
    exact key _ (hmark text)
  obtain ⟨t', hfield⟩ := convertUnsigned_field d bits v b upper hlength
  rw [h, EStateM.Result.ok.injEq] at hfield
  obtain ⟨rfl, -⟩ := hfield
  refine ⟨rfl, fun hzero => ?_⟩
  have hnone : d.places? = none := by
    rw [Bool.and_eq_true] at hzero
    exact Option.isNone_iff_eq_none.mp hzero.2
  refine ⟨_, _, rfl, rfl, ?_, ?_, ?_⟩
  · unfold shownMark
    split
    · decide
    · have := hmark (b.text upper (v.setWidth bits).toNat)
      simp only [List.mem_cons, List.not_mem_nil, or_false] at this ⊢
      tauto
  · rw [hnone]
    exact b.isSign_head_text upper _
  · rw [hnone]
    exact b.ne_mark_text hb upper _

theorem SignDisplay.lead (display : SignDisplay) (negative : Prop) [Decidable negative] :
    (if negative then [minus] else display.text) ∈
      [[], ascii "-", ascii "+", ascii " ", ascii "0x", ascii "0X", ascii "0"] := by
  split
  · decide
  · cases display <;> decide

theorem convertSigned_fills {v : BitVec 64}
    (h : Standard.signed.compose d options v .empty = .ok f t) : f.Fills d d.places?.isNone := by
  obtain ⟨t', hfield⟩ := convertSigned_field d options v
  rw [h, EStateM.Result.ok.injEq] at hfield
  obtain ⟨rfl, -⟩ := hfield
  refine ⟨rfl, fun hzero => ?_⟩
  have hnone : d.places? = none := by
    rw [Bool.and_eq_true] at hzero
    exact Option.isNone_iff_eq_none.mp hzero.2
  refine ⟨_, _, rfl, rfl, d.sign.lead _, ?_, ?_⟩
  · rw [hnone]
    exact Base.decimal.isSign_head_text false _
  · rw [hnone]
    exact Base.ne_mark_text (by decide) false _

/-- The digits of a finite float, behind its own sign. -/
theorem Binary64.fixedText_digits (v : Binary64) (rounding : Rounding) (precision : Nat) :
    ∃ digits, v.fixedText rounding precision =
        (if v.isNegative = true then [minus] else []) ++ digits ∧
      (∀ b ∈ digits.head?, Scratch.isSign b = false) ∧ ∀ b ∈ digits, b ≠ 120 ∧ b ≠ 88 := by
  refine ⟨_, List.append_assoc .., ?_, ?_⟩
  · intro b hb
    rw [List.head?_append_of_ne_nil] at hb
    · exact Base.decimal.isSign_head_text false _ b hb
    · exact List.map_eq_nil_iff.not.mpr (Base.decimal.digits_ne_nil _)
  · intro b hb
    obtain hb | hb := List.mem_append.mp hb
    · exact Base.ne_mark_text (by decide) false _ b hb
    · split at hb
      · nomatch hb
      · simp only [List.mem_append, List.mem_map] at hb
        obtain (hb | ⟨k, hk, rfl⟩) | hb := hb
        · rw [List.mem_singleton.mp hb]
          decide
        · exact ne_mark_digitByte false ((lt_of_mem_places (by decide) hk).trans (by decide))
        · rw [List.eq_of_mem_replicate hb]
          decide

theorem convertFloat_fills {v : Binary64} {upper : Bool}
    (h : convertFloat d options v upper .empty = .ok f t) : f.Fills d v.isFinite := by
  by_cases hfinite : v.isFinite = true
  · have hhuge : v.isHuge = false := by
      by_contra hhuge
      rw [convertFloat_huge d options upper hfinite (by simpa using hhuge)] at h
      cases h
    obtain ⟨t', hfield⟩ := convertFloat_finite d options upper hfinite hhuge
    obtain ⟨digits, htext, hsign, hmark⟩ :=
      v.fixedText_digits options.rounding (d.places?.getD defaultPlaces)
    obtain ⟨hbody, hlength⟩ := d.sign.added_append (v.isNegative = true) hsign
    rw [h, EStateM.Result.ok.injEq] at hfield
    obtain ⟨rfl, -⟩ := hfield
    refine ⟨rfl, fun _ => ⟨_, digits, ?_, ?_, d.sign.lead (v.isNegative = true), hsign, hmark⟩⟩
    · dsimp only
      rw [htext, hbody]
    · dsimp only
      rw [htext, hlength]
  · obtain ⟨n, s, -, h⟩ := Action.bind_eq_ok_iff.mp h
    obtain ⟨sign, s', -, h⟩ := Action.bind_eq_ok_iff.mp h
    cases h
    refine ⟨rfl, fun hzero => ?_⟩
    rw [Bool.and_eq_true] at hzero
    exact absurd hzero.2 hfinite

theorem Standard.compose_fills {c : Standard} {v : c.demand.Value}
    (h : c.compose d options v .empty = .ok f t) : f.Fills d (c.fills d v) := by
  have never {text : Bytes}
      (h : (pure { body := text, width := d.width.value } : Scratch.Edit Field) .empty = .ok f t) :
      f.Fills d false := by
    cases h
    exact ⟨(Bool.and_false _).symm, nofun⟩
  cases c with
  | signed => exact convertSigned_fills h
  | unsigned | pointer =>
    simp only [compose] at h
    exact convertUnsigned_fills (by decide) (fun _ => by decide) h
  | octal | hex | hexUpper =>
    simp only [compose] at h
    exact convertUnsigned_fills (by decide) (fun _ => by split <;> decide) h
  | float | floatUpper =>
    simp only [compose] at h
    exact convertFloat_fills h
  | text | character =>
    simp only [compose] at h
    exact never h

theorem zeroFill_composeText {text : Bytes} (h : composeText d text .empty = .ok f t) :
    f.zeroFill = false := by
  obtain ⟨n, s, -, h⟩ := Action.bind_eq_ok_iff.mp h
  cases h
  rfl

/-- No extended conversion has its field filled with zeros. -/
theorem Extended.zeroFill_compose {c : Extended} {v : c.demand.Value}
    (h : c.compose d options v .empty = .ok f t) : f.zeroFill = false := by
  cases c with
  | binary | octal | hex =>
    simp only [compose, composeGroups] at h
    obtain ⟨n, s, -, h⟩ := Action.bind_eq_ok_iff.mp h
    obtain ⟨u, s', -, h⟩ := Action.bind_eq_ok_iff.mp h
    cases h
    rfl
  | truth | codePoint =>
    simp only [compose] at h
    cases h
    rfl
  | phone =>
    simp only [compose] at h
    obtain ⟨n, s, -, h⟩ := Action.bind_eq_ok_iff.mp h
    cases h
    rfl
  | clockOfSeconds | clock | shortClockOfSeconds | shortClock | date | longDate | utc
  | ipv4 | ipv6 | mac | macUpper | dotted | dottedUpper =>
    simp only [compose] at h
    exact zeroFill_composeText h

end Fills

end PrintFormat
