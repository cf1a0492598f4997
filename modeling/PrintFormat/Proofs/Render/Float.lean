import PrintFormat.Proofs.Decimal.Exact
import PrintFormat.Proofs.Render.Measures
import PrintFormat.Proofs.Render.Overflow
import PrintFormat.Proofs.Render.Plain

/-!
Directives of floats without a width. The precision is written in the directive
or taken by its star, and without one it is six; the sign that is asked for goes
in front of a number that has none. `finite_float_decimal` says what such a
directive delivers for a number below 2 to the power 128, together with what the
conversion behind it puts on an empty span.
-/
namespace PrintFormat

/-! ## Precision -/

/-- No more than forty places are shown. -/
theorem Binary64.decimalText_congr {p q : Nat} (h : min p 40 = min q 40) (v : Binary64)
    (rounding : Rounding) : v.decimalText rounding p = v.decimalText rounding q := by
  unfold decimalText
  rw [h]

/-- Sizes beyond the limit of a precision are beyond forty places too. -/
theorem min_places_eq {places precision : Option Nat}
    (h : places = precision.map (min · measureLimit)) :
    min (places.getD defaultPlaces) 40 = min (precision.getD 6) 40 := by
  subst h
  cases precision with
  | none => rfl
  | some n =>
    simp only [Option.map_some, Option.getD_some, measureLimit]
    omega

/-! ## Signs -/

/-- The sign that a directive asks for in front of a number without one. -/
def Spelling.signText (s : Spelling) (negative : Bool) : String :=
  if negative then "" else if 43 ∈ s.flags then "+" else if blank ∈ s.flags then " " else ""

/-- What a directive without a width makes of a finite number. -/
def Spelling.floatText (s : Spelling) (v : Binary64) (rounding : Rounding)
    (precision : Option Nat) : String :=
  s.signText v.isNegative ++ v.decimalText rounding (precision.getD 6)

theorem Binary64.head_fixedText (v : Binary64) (rounding : Rounding) (precision : Nat) :
    (v.fixedText rounding precision).head? = some minus ↔ v.isNegative = true := by
  refine ⟨fun h => ?_, fun h => head_fixedText_of_isNegative h rounding precision⟩
  by_contra hneg
  rw [fixedText, if_neg hneg, List.nil_append, List.head?_append_of_ne_nil] at h
  · exact absurd (Base.decimal.isSign_head_text false _ minus h) (by decide)
  · exact List.map_eq_nil_iff.not.mpr (Base.decimal.digits_ne_nil _)

theorem Spelling.sign_added (s : Spelling) (v : Binary64) (rounding : Rounding) (precision : Nat) :
    s.directive.sign.added (v.fixedText rounding precision) =
      Text.encode (s.signText v.isNegative) := by
  have hsign : s.directive.sign =
      if 43 ∈ s.flags then .plus else if blank ∈ s.flags then .space else .omit := rfl
  by_cases hneg : v.isNegative = true
  · rw [SignDisplay.added, if_pos ((v.head_fixedText rounding precision).mpr hneg), signText,
      if_pos hneg]
    rfl
  · rw [SignDisplay.added, if_neg (mt (v.head_fixedText rounding precision).mp hneg), signText,
      if_neg hneg, hsign]
    split
    · rfl
    split <;> rfl

/-! ## Directives -/

/-- A directive of floats that has no width. -/
structure Spelling.IsPlainFloat (s : Spelling) : Prop where
  bang : s.bang = false
  conversion : ∃ b ∈ ascii "fFeEgG", s.conversion = some b
  widthDigits : s.widthDigits = []
  widthStar : 42 ∉ s.widthFlags

/-- What a directive without a width puts out for a number. -/
theorem Segment.output_float {s : Spelling} (hs : s.IsPlainFloat) {stars : List Arg}
    {precision : Option Nat} (hprecision : s.HasPrecision stars precision) {v : Binary64}
    (hfinite : v.isFinite = true) (hbound : v.magnitude < 2 ^ 128) (options : Options)
    (more : List Arg) (k : Nat) :
    ∃ pieces, (directive s).output options ⟨stars ++ .float v :: more, k⟩ =
        .ok pieces ⟨more, k + (stars.length + 1)⟩ ∧
      pieces.flatMap Piece.text =
        Text.encode (s.floatText v options.rounding precision) := by
  obtain ⟨w, p, hzero, hp, hresolved⟩ :=
    hprecision.resolved hs.widthStar hs.widthDigits (.float v :: more) k
  have hhuge := Binary64.isHuge_of_lt hbound
  generalize hd : { s.directive with width := w, precision := p } = d at hresolved
  have hwidth : d.width.value = 0 := by rw [← hd, hzero]
  have hsign : d.sign = s.directive.sign := by rw [← hd]
  have hplaces : min (d.places?.getD defaultPlaces) 40 = min (precision.getD 6) 40 := by
    rw [← min_places_eq hp, ← hd]
    rfl
  obtain ⟨c, hc, hfloat⟩ := s.isFloat_iff.mpr ⟨hs.bang, hs.conversion⟩
  -- both conversions of floats write a finite number alike
  have htaken : ∃ head zeroFill, c.taken d options ⟨.float v :: more, k + stars.length⟩ =
      .ok {
        body := Text.encode (s.floatText v options.rounding precision)
        head, zeroFill } ⟨more, k + stars.length + 1⟩ := by
    have hbody : d.sign.added (v.fixedText options.rounding (d.places?.getD defaultPlaces)) ++
        v.fixedText options.rounding (d.places?.getD defaultPlaces) =
        Text.encode (s.floatText v options.rounding precision) := by
      rw [hsign, s.sign_added, Binary64.fixedText_eq, ← Text.encode_append,
        Binary64.decimalText_congr hplaces, Spelling.floatText]
    have hfield (upper : Bool) := convertFloat_finite d options upper hfinite hhuge
    simp only [hbody, hwidth] at hfield
    obtain rfl | rfl := hfloat
    · obtain ⟨t, ht⟩ := hfield false
      exact ⟨_, _, Conversion.taken_standard (c := .float) rfl ht more _⟩
    · obtain ⟨t, ht⟩ := hfield true
      exact ⟨_, _, Conversion.taken_standard (c := .floatUpper) rfl ht more _⟩
  obtain ⟨head, zeroFill, htaken⟩ := htaken
  refine ⟨aligned 0 blank (Text.encode (s.floatText v options.rounding precision)), ?_,
    flatMap_aligned_zero _ _⟩
  have hnone : (zeroFill && decide ((0 : Int) < 0)) = false := by simp
  rw [output_converted hc, Directive.output_eq, Action.bind_ok hresolved, Action.bind_ok htaken,
    Field.pieces, hnone, if_neg Bool.false_ne_true]
  rfl

/-- A finite number below 2 to the power 128, on an empty span and through a
directive. The conversion puts the decimal text of its exact value on the span,
answers the length and meets no breach on the way, whatever the cells hold. A
directive of floats without a width, in front of any rest of a format, takes its
precision and the number, delivers the wanted sign and that text, and the rest
goes on with the arguments that are left. -/
theorem Context.finite_float_decimal {v : Binary64} (hfinite : v.isFinite = true)
    (hbound : v.magnitude < 2 ^ 128) :
    (∀ rounding precision upper,
      let text := Text.encode (v.decimalText rounding precision)
      (∃ t : Scratch, Scratch.pushFloat v rounding precision upper .empty = .ok text.length t ∧
        t.text = text) ∧
      ∀ s : Span, s.view = .empty →
        ∃ t, Span.pushFloat v rounding precision upper s = .ok text.length t ∧
          t.view.text = text) ∧
    ∀ (context : Context) (held : Array UInt8) (options : Options) (written g : Bytes)
      (s : Spelling) (stars more : List Arg) (precision : Option Nat),
      Spelling.read written = (s, g) → s.IsPlainFloat → s.HasPrecision stars precision →
        let text := Text.encode (s.floatText v options.rounding precision)
        context.deliver held (percent :: written) (stars ++ .float v :: more) options =
          Delivery.followedBy ⟨.ok text.length, text, stars.length + 1⟩
            (context.deliver held g more options) := by
  refine ⟨fun rounding precision upper => ⟨?_, fun s hs => ?_⟩, ?_⟩
  · exact Scratch.pushFloat_decimal hfinite hbound rounding precision upper
  · exact Span.pushFloat_decimal hfinite hbound rounding precision upper hs
  · intro context held options written g s stars more precision hread hs hprecision text
    obtain ⟨pieces, houtput, htext⟩ :=
      Segment.output_float hs hprecision hfinite hbound options more 0
    have hlength : 0 + (stars.length + 1) = (stars ++ [Arg.float v]).length := by
      rw [List.length_append, Nat.zero_add]
      rfl
    rw [hlength, List.append_cons] at houtput
    have hdeliver := Context.deliver_first hread houtput context held
    rwa [htext, List.append_assoc, List.length_append] at hdeliver

/-- The number 9.996, whose digits are carried into the whole part, on a span
that has left digits in all its cells, and behind a sign with the precision taken
by a star. -/
theorem Context.finite_float_decimal_carried :
    let v : Binary64 := ⟨0x4023FDF3B645A1CB⟩
    let s : Spelling :=
      { widthFlags := ascii "+", precision := some (ascii "*", []), conversion := some 102 }
    let span : Span := ⟨List.replicate 81 57, 81, rfl, Nat.le_refl _⟩
    v.isFinite = true ∧ v.magnitude < 2 ^ 128 ∧ span.view = .empty ∧
      Spelling.read (ascii "+.*f|") = (s, ascii "|") ∧ s.IsPlainFloat ∧
      s.HasPrecision [.int 2] (some 2) ∧
      (∃ t, Span.pushFloat v .nearest 2 false span = .ok 5 t ∧ t.view.text = ascii "10.00") ∧
      Context.deliver {} #[] (ascii "%+.*f|") [.int 2, .float v] {} =
        Delivery.followedBy ⟨.ok 6, ascii "+10.00", 2⟩
          (Context.deliver {} #[] (ascii "|") [] {}) := by
  intro v s span
  have hfinite : v.isFinite = true := by decide
  have hbound : v.magnitude < 2 ^ 128 :=
    not_le.mp (mt v.isHuge_iff.mpr (by decide))
  have hspan : span.view = .empty := Span.view_eq rfl
  have hread : Spelling.read (ascii "+.*f|") = (s, ascii "|") := by cbv
  have hplain : s.IsPlainFloat := ⟨rfl, ⟨102, by decide, rfl⟩, rfl, by decide⟩
  have hprecision : s.HasPrecision [.int 2] (some 2) := .taken (n := 2) rfl (by decide) rfl
  have hunits : v.units .nearest 2 = 1000 := by
    rw [← Binary64.scaled_eq_units]
    decide +kernel
  have htext : Text.encode (v.decimalText .nearest 2) = ascii "10.00" := by
    have hshown : min (min 2 40) 17 = 2 := rfl
    rw [Binary64.decimalText, hshown, hunits]
    cbv
  have hsigned : Text.encode (s.floatText v .nearest (some 2)) = ascii "+10.00" := by
    have hsign : Text.encode (s.signText v.isNegative) = ascii "+" := by cbv
    rw [Spelling.floatText, Text.encode_append, hsign, Option.getD_some, htext]
    rfl
  obtain ⟨hspans, hdirectives⟩ := Context.finite_float_decimal hfinite hbound
  have hpush := (hspans .nearest 2 false).2 span hspan
  have hdeliver := hdirectives {} #[] {} _ _ s [.int 2] [] (some 2) hread hplain hprecision
  simp only [htext] at hpush
  simp only [hsigned] at hdeliver
  exact ⟨hfinite, hbound, hspan, hread, hplain, hprecision, hpush, hdeliver⟩

end PrintFormat
