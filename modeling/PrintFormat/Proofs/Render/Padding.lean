import PrintFormat.Proofs.Conversion.Padding
import PrintFormat.Proofs.Conversion.Table
import PrintFormat.Proofs.Directive.Recognized
import PrintFormat.Proofs.Render.Measures
import PrintFormat.Proofs.Render.Plain

/-!
What a width does to a directive. `Spelling.withoutWidth` is a directive without
its width and without the star of that. Both compose the same field, but for the
width (`Spelling.IsPadded.field`), so that the bytes delivered with the width are
those delivered without it, brought to the width by zeros or by blanks
(`Context.width_pads`).
-/
namespace PrintFormat

/-! ## Values -/

theorem Scratch.onEmpty_map (edit : Scratch.Edit Field) (g : Field → Field) :
    Scratch.onEmpty (do return g (← edit)) = do return g (← Scratch.onEmpty edit) := by
  funext c
  cases h : edit .empty with
  | ok f s =>
    have hmap : (do return g (← edit) : Scratch.Edit Field) .empty = .ok (g f) s :=
      Action.bind_ok h
    have honly : Scratch.onEmpty edit c = .ok f c := by simp only [Scratch.onEmpty, h]
    rw [Action.bind_ok honly]
    simp only [Scratch.onEmpty, hmap]
    rfl
  | error e s =>
    have hmap : (do return g (← edit) : Scratch.Edit Field) .empty = .error e s :=
      Action.bind_error h
    have honly : Scratch.onEmpty edit c = .error e c := by simp only [Scratch.onEmpty, h]
    rw [Action.bind_error honly]
    simp only [Scratch.onEmpty, hmap]

theorem Conversion.taken_withWidth {d : Directive} {w : Measure} {options : Options}
    {c : Conversion} (hpercent : c ≠ .percentSign) (hphone : c ≠ .extended .phone) :
    c.taken (d.withWidth w) options = do
      return (← c.taken d options).withWidth w.value := by
  cases c with
  | percentSign => exact absurd rfl hpercent
  | standard c =>
    simp only [taken, Standard.compose_withWidth, Scratch.onEmpty_map, bind_assoc]
  | extended c =>
    have hc : c ≠ .phone := fun h => hphone (congrArg _ h)
    simp only [taken, Extended.compose_withWidth hc, Scratch.onEmpty_map, bind_assoc]

namespace Conversion

variable {d : Directive} {options : Options} {c : Conversion} {cursor rest : Cursor} {f : Field}

/-- What a conversion takes, and the field that it composes of that. -/
def Composes (c : Conversion) (d : Directive) (options : Options) (arg : Arg) (f : Field) : Prop :=
  (∃ k v t, c = .standard k ∧ k.demand.pick arg = some v ∧ k.compose d options v .empty = .ok f t) ∨
  ∃ k v t, c = .extended k ∧ k.demand.pick arg = some v ∧ k.compose d options v .empty = .ok f t

theorem Composes.taken {arg : Arg} (h : c.Composes d options arg f) (more : List Arg) (k : Nat) :
    c.taken d options ⟨arg :: more, k⟩ = .ok f ⟨more, k + 1⟩ := by
  obtain ⟨c, v, t, rfl, hpick, hcompose⟩ | ⟨c, v, t, rfl, hpick, hcompose⟩ := h
  · exact taken_standard hpick hcompose more k
  · exact taken_extended hpick hcompose more k

theorem composes_of_taken (hpercent : c ≠ .percentSign)
    (h : c.taken d options cursor = .ok f rest) :
    ∃ arg, cursor.remaining = arg :: rest.remaining ∧ c.Composes d options arg f := by
  have edit {e : Scratch.Edit Field} {middle : Cursor}
      (h : Scratch.onEmpty e middle = .ok f rest) : middle = rest ∧ ∃ t, e .empty = .ok f t := by
    cases he : e .empty with
    | ok g t =>
      simp only [Scratch.onEmpty, he] at h
      cases h
      exact ⟨rfl, t, rfl⟩
    | error err t => simp only [Scratch.onEmpty, he, reduceCtorEq] at h
  cases c with
  | percentSign => exact absurd rfl hpercent
  | standard c =>
    obtain ⟨v, middle, htake, hcompose⟩ := Action.bind_eq_ok_iff.mp h
    obtain ⟨arg, hpick, hargs⟩ := Cursor.take_inv htake
    obtain ⟨rfl, t, hcompose⟩ := edit hcompose
    exact ⟨arg, hargs, .inl ⟨c, v, t, rfl, hpick, hcompose⟩⟩
  | extended c =>
    obtain ⟨v, middle, htake, hcompose⟩ := Action.bind_eq_ok_iff.mp h
    obtain ⟨arg, hpick, hargs⟩ := Cursor.take_inv htake
    obtain ⟨rfl, t, hcompose⟩ := edit hcompose
    exact ⟨arg, hargs, .inr ⟨c, v, t, rfl, hpick, hcompose⟩⟩

/-- Under every width the same field is composed, but for that width. -/
theorem Composes.widthless (hpercent : c ≠ .percentSign) (hphone : c ≠ .extended .phone)
    {w : Measure} {arg : Arg} (h : c.Composes (d.withWidth w) options arg f) :
    ∃ g, c.Composes d options arg g ∧ f = g.withWidth w.value ∧ g.width = d.width.value := by
  -- a directive told its own width composes the field that it composes anyway
  have hself := congrFun
    (taken_withWidth hpercent hphone : c.taken (d.withWidth d.width) options = _) ⟨[arg], 0⟩
  have htaken := h.taken [] 0
  rw [taken_withWidth hpercent hphone] at htaken
  obtain ⟨g, rest, htaken, hpure⟩ := Action.bind_eq_ok_iff.mp htaken
  cases hpure
  rw [Action.bind_ok htaken] at hself
  have hsame : c.taken d options ⟨[arg], 0⟩ = .ok (g.withWidth d.width.value) ⟨[], 1⟩ := hself
  rw [htaken, EStateM.Result.ok.injEq] at hsame
  obtain ⟨arg', harg, hcomposes⟩ := composes_of_taken hpercent htaken
  obtain ⟨rfl, -⟩ := List.cons.inj harg
  exact ⟨g, hcomposes, rfl, congrArg Field.width hsame.1⟩

end Conversion

/-! ## Directives without their width -/

/-- An argument that is a finite float. -/
def Arg.isFinite : Arg → Bool
  | .float v => v.isFinite
  | _ => false

namespace Spelling

/-- A directive whose width is one of its text: all but percent signs and
telephone numbers. -/
def IsPadded (s : Spelling) : Prop :=
  s.IsOneOf (if s.bang then "tTsSdDZboHBUiImMcC" else "diuoxXfFeEgGsScpzZt")

instance (s : Spelling) : Decidable s.IsPadded := inferInstanceAs (Decidable (s.IsOneOf _))

/-- The directive without its width and without the star of that. -/
def withoutWidth (s : Spelling) : Spelling :=
  { s with widthFlags := s.widthFlags.filter (· ≠ 42), widthDigits := [] }

/-- Zeros bring the text to the width, if that is positive: those of an integer
without a precision or of a finite float under the flag `0`. -/
def FillsZeros (s : Spelling) (precision : Option Nat) (value : Arg) : Prop :=
  zero ∈ s.widthFlags ∧ s.bang = false ∧
    (s.IsOneOf "diuoxXpzZt" ∧ precision = none ∨ s.IsOneOf "fFeEgG" ∧ value.isFinite = true)

instance (s : Spelling) (precision : Option Nat) (value : Arg) :
    Decidable (s.FillsZeros precision value) :=
  inferInstanceAs (Decidable (_ ∧ _))

/-- What a width makes of the bytes that are delivered without it. -/
def widened (s : Spelling) (width : Int) (precision : Option Nat) (value : Arg) (bytes : Bytes) :
    Bytes :=
  let length := min width.natAbs 4096
  if s.FillsZeros precision value ∧ 0 < width then zerosBehind (leadLength bytes) length bytes
  else if 0 ≤ width then bytes.leftpad length blank
  else bytes.rightpad length blank

/-- Nothing is cut, and the length is that of the width or as before. -/
theorem widened_grows (s : Spelling) (width : Int) (precision : Option Nat) (value : Arg)
    (bytes : Bytes) :
    bytes.Sublist (s.widened width precision value bytes) ∧
      (s.widened width precision value bytes).length =
        max bytes.length (min width.natAbs 4096) := by
  unfold widened
  dsimp only
  split
  · exact ⟨zerosBehind_sublist _ _ _, length_zerosBehind _ _ _⟩
  split
  · refine ⟨List.sublist_append_right _ _, ?_⟩
    rw [List.length_leftpad, Nat.max_comm]
  · refine ⟨List.sublist_append_left _ _, ?_⟩
    rw [List.length_rightpad, Nat.max_comm]

/-- Arguments taken apart as a directive takes them: for its width, for its
precision, and the value that it converts. -/
structure Splits (s : Spelling) (args widthStars : List Arg) (width : Int) (stars : List Arg)
    (precision : Option Nat) (value : Arg) (rest : List Arg) : Prop where
  args : args = widthStars ++ (stars ++ value :: rest)
  width : s.HasWidth widthStars width
  precision : s.HasPrecision stars precision

/-- The bytes of integers and those of floats, in the table of standard conversions. -/
theorem zeros_table (b : UInt8) : ∀ k ∈ Standard.ofByte? b,
    (b ∈ ascii "diuoxXpzZt" ↔
      k ∈ [Standard.signed, .unsigned, .octal, .hex, .hexUpper, .pointer]) ∧
    (b ∈ ascii "fFeEgG" ↔ k ∈ [Standard.float, .floatUpper]) := by
  have key : ∀ n : Fin 256, ∀ k ∈ Standard.ofByte? (.ofFin n),
      (.ofFin n ∈ ascii "diuoxXpzZt" ↔
        k ∈ [Standard.signed, .unsigned, .octal, .hex, .hexUpper, .pointer]) ∧
      (.ofFin n ∈ ascii "fFeEgG" ↔ k ∈ [Standard.float, .floatUpper]) := by decide +kernel
  exact key b.toFin

/-- Padded are the directives that are recognized, but for the two conversions. -/
theorem isPadded_iff (s : Spelling) :
    s.IsPadded ↔ ∃ c, s.directive.conversion? = some c ∧ c ≠ .percentSign ∧
      c ≠ .extended .phone := by
  have hstandard (b : UInt8) :
      (∃ c, Standard.ofByte? b = some c ∧ Conversion.standard c ≠ .percentSign ∧
        Conversion.standard c ≠ .extended .phone) ↔ b ∈ ascii "diuoxXfFeEgGsScpzZt" := by
    have key : ∀ n : Fin 256, (Standard.ofByte? (.ofFin n)).any (fun c =>
        Conversion.standard c ≠ .percentSign ∧ Conversion.standard c ≠ .extended .phone) ↔
          .ofFin n ∈ ascii "diuoxXfFeEgGsScpzZt" := by decide +kernel
    simpa only [Option.any_eq_true, decide_eq_true_eq, UInt8.ofFin_toFin] using key b.toFin
  have hextended (b : UInt8) :
      (∃ c, Extended.ofByte? b = some c ∧ Conversion.extended c ≠ .percentSign ∧
        Conversion.extended c ≠ .extended .phone) ↔ b ∈ ascii "tTsSdDZboHBUiImMcC" := by
    have key : ∀ n : Fin 256, (Extended.ofByte? (.ofFin n)).any (fun c =>
        Conversion.extended c ≠ .percentSign ∧ Conversion.extended c ≠ .extended .phone) ↔
          .ofFin n ∈ ascii "tTsSdDZboHBUiImMcC" := by decide +kernel
    simpa only [Option.any_eq_true, decide_eq_true_eq, UInt8.ofFin_toFin] using key b.toFin
  rw [conversion_in_iff (fun h => h.1 rfl) hstandard hextended s, IsPadded, IsOneOf]
  cases s.bang <;> exact exists_congr fun b => and_comm

variable {s : Spelling} {d : Directive} {options : Options} {precision : Option Nat} {value : Arg}
  {f : Field} {c : Conversion}

/-- A standard conversion fills with zeros by its byte. -/
theorem fills_standard {b : UInt8} (hconversion : s.conversion = some b) {k : Standard}
    (hk : Standard.ofByte? b = some k) (hplaces : d.places? = precision.map (min · measureLimit))
    {v : k.demand.Value} (hpick : k.demand.pick value = some v) :
    k.fills d v = true ↔
      s.IsOneOf "diuoxXpzZt" ∧ precision = none ∨ s.IsOneOf "fFeEgG" ∧ value.isFinite = true := by
  obtain ⟨hinteger, hfloat⟩ := zeros_table b k hk
  have hnone : d.places?.isNone = true ↔ precision = none := by
    rw [hplaces, Option.isNone_map, Option.isNone_iff_eq_none]
  rw [isOneOf_iff hconversion, isOneOf_iff hconversion, hinteger, hfloat]
  cases k with
  | signed | unsigned | octal | hex | hexUpper | pointer => simp [Standard.fills, hnone]
  | float | floatUpper =>
    cases value with
    | float v' =>
      cases hpick
      simp [Standard.fills, Arg.isFinite]
    | _ => cases hpick
  | text | character => simp [Standard.fills]

/-- The field of a directive is filled with zeros where the directive says
so, and then its head is what it opens with. -/
theorem fills (hc : s.directive.conversion? = some c) (hzero : d.zeroFill = s.directive.zeroFill)
    (hplaces : d.places? = precision.map (min · measureLimit))
    (h : c.Composes d options value f) :
    (f.zeroFill = true ↔ s.FillsZeros precision value) ∧
      (f.zeroFill = true → ∃ lead rest, f.Headed lead rest) := by
  have hflag : d.zeroFill = true ↔ zero ∈ s.widthFlags := by
    rw [hzero]
    exact decide_eq_true_iff
  obtain ⟨k, v, t, rfl, hpick, hcompose⟩ | ⟨k, v, t, rfl, -, hcompose⟩ := h
  · obtain ⟨hbang, b, hconversion, hk⟩ := conversion?_eq_standard_iff.mp hc
    obtain ⟨hfills, hheaded⟩ := Standard.compose_fills hcompose
    refine ⟨?_, hheaded⟩
    rw [hfills, Bool.and_eq_true, hflag, fills_standard hconversion hk hplaces hpick]
    exact and_congr_right fun _ => (and_iff_right hbang).symm
  · obtain ⟨hbang, -⟩ := conversion?_eq_extended_iff.mp hc
    have hno := Extended.zeroFill_compose hcompose
    have hblank : ¬s.FillsZeros precision value := fun h =>
      Bool.false_ne_true (h.2.1.symm.trans hbang)
    rw [hno]
    exact ⟨iff_of_false Bool.false_ne_true hblank, nofun⟩

/-- Directives with the same parts, but for flags and numbers that do not matter
to anything but the width and the precision. -/
theorem directive_eq_of {s t : Spelling}
    (hparts : t = { s with
      widthFlags := t.widthFlags, widthDigits := t.widthDigits, precision := t.precision })
    (hflags : ∀ b ∈ ascii "+ #", b ∈ t.flags ↔ b ∈ s.flags)
    (hzero : zero ∈ t.widthFlags ↔ zero ∈ s.widthFlags) :
    t.directive = { s.directive with
      width := t.directive.width, precision := t.directive.precision } := by
  have hplus := hflags 43 (by decide)
  have hspace := hflags blank (by decide)
  have hsharp := hflags 35 (by decide)
  generalize t.widthFlags = widthFlags, t.widthDigits = widthDigits, t.precision = precision
    at hparts hzero
  subst hparts
  simp only [directive, hplus, hspace, hsharp, hzero]

/-- Without its width a directive says the same of everything else. -/
theorem directive_withoutWidth (s : Spelling) :
    ∃ w, s.withoutWidth.directive = s.directive.withWidth w := by
  have keep {b : UInt8} (hb : b ≠ 42) : b ∈ s.withoutWidth.widthFlags ↔ b ∈ s.widthFlags := by
    simp [withoutWidth, hb]
  refine ⟨s.withoutWidth.directive.width, directive_eq_of rfl (fun b hb => ?_) (keep (by decide))⟩
  have hne : ∀ b ∈ ascii "+ #", b ≠ 42 := by decide +kernel
  simp only [flags, List.mem_append, keep (hne b hb)]
  rfl

theorem IsPadded.recognized (hs : s.IsPadded) : s.Recognized := by
  obtain ⟨c, hc, -⟩ := s.isPadded_iff.mp hs
  exact s.recognized_iff.mpr ⟨c, hc⟩

/-- Without its width a directive is read as it is written: its parts are those
that there are with the width. -/
theorem IsPadded.read_withoutWidth (hs : s.IsPadded) (hread : read s.text = (s, [])) :
    read s.withoutWidth.text = (s.withoutWidth, []) := by
  have hwell := hs.recognized.read_text_iff.mp hread
  have hrecognized : s.withoutWidth.Recognized := hs.recognized
  exact hrecognized.read_text_iff.mpr
    ⟨hwell.caret, fun b hb => hwell.widthFlags b (List.mem_of_mem_filter hb), nofun, nofun,
      hwell.precisionFlags, hwell.precisionDigits⟩

end Spelling

/-! ## Renders -/

namespace Context

variable {s : Spelling} {args : List Arg} {options : Options} (context : Context)
  (held : Array UInt8)

theorem deliver_source_ok (hread : Spelling.read s.text = (s, [])) {pieces : List Piece}
    {c : Cursor} (h : (Segment.directive s).output options ⟨args, 0⟩ = .ok pieces c) :
    let text := pieces.flatMap Piece.text
    context.deliver held s.source args options = ⟨.ok text.length, text, c.consumed⟩ := by
  intro text
  rw [deliver_eq, Transcript.ofFormat, Spelling.source, Segment.ofFormat_directive hread,
    Transcript.ofSegments_cons_ok h, Transcript.delivery, Transcript.text_after]
  simp only [Transcript.ofSegments, Transcript.after, Transcript.text, List.flatMap_nil,
    List.append_nil]
  rfl

theorem deliver_source_error (hread : Spelling.read s.text = (s, [])) {e : FormatError}
    {c : Cursor} (h : (Segment.directive s).output options ⟨args, 0⟩ = .error e c) :
    (context.deliver held s.source args options).outcome = .error e := by
  rw [deliver_eq, Transcript.ofFormat, Spelling.source, Segment.ofFormat_directive hread,
    Transcript.ofSegments_cons_error h]
  rfl

end Context

theorem Segment.output_ok_iff {s : Spelling} {c : Conversion}
    (hc : s.directive.conversion? = some c) {options : Options} {cursor after : Cursor}
    {pieces : List Piece} :
    (directive s).output options cursor = .ok pieces after ↔
      ∃ d middle f, s.directive.resolved cursor = .ok d middle ∧
        c.taken d options middle = .ok f after ∧ f.pieces = pieces := by
  rw [output_converted hc, Directive.output_eq]
  constructor
  · intro h
    obtain ⟨d, middle, hresolved, h⟩ := Action.bind_eq_ok_iff.mp h
    obtain ⟨f, rest, htaken, hpure⟩ := Action.bind_eq_ok_iff.mp h
    cases hpure
    exact ⟨d, middle, f, hresolved, htaken, rfl⟩
  · rintro ⟨d, middle, f, hresolved, htaken, rfl⟩
    rw [Action.bind_ok hresolved, Action.bind_ok htaken]
    rfl

namespace Spelling

variable {s : Spelling} {args widthStars : List Arg} {width : Int} {stars : List Arg}
  {precision : Option Nat} {value : Arg} {rest : List Arg}

/-- What becomes of a directive with its width and of the one without it. -/
theorem Splits.resolved (h : s.Splits args widthStars width stars precision value rest) :
    ∃ (d : Directive) (w : Measure), w.value = clampMeasure width ∧ d.width.value = 0 ∧
      d.zeroFill = s.directive.zeroFill ∧ d.places? = precision.map (min · measureLimit) ∧
      (∃ k, s.directive.resolved ⟨args, 0⟩ = .ok (d.withWidth w) ⟨value :: rest, k⟩) ∧
      ∃ k, s.withoutWidth.directive.resolved ⟨stars ++ value :: rest, 0⟩ =
        .ok d ⟨value :: rest, k⟩ := by
  obtain ⟨rfl, hw, hp⟩ := h
  obtain ⟨p, hplaces, hdraw⟩ := hp.drawn
  obtain ⟨w, hwidth, hwide⟩ := resolved_of hw hdraw
  obtain ⟨w', hwithout⟩ := s.directive_withoutWidth
  have hdraw' : s.withoutWidth.DrawsPrecision stars p := by
    rw [DrawsPrecision, hwithout]
    exact hdraw
  have hzero : s.withoutWidth.HasWidth [] 0 := hasWidth_zero (by simp [withoutWidth]) rfl
  obtain ⟨w₀, hwidth₀, hbare⟩ := resolved_of hzero hdraw'
  rw [hwithout] at hbare ⊢
  exact ⟨{ s.directive with width := w₀, precision := p }, w, hwidth.value, hwidth₀.value, rfl,
    hplaces, ⟨_, hwide (value :: rest) 0⟩, ⟨_, hbare (value :: rest) 0⟩⟩

/-- A padded directive that takes its arguments apart composes the same field as
the one without its width, but for that width. -/
theorem IsPadded.field (hs : s.IsPadded) {options : Options}
    (h : s.Splits args widthStars width stars precision value rest) {pieces : List Piece}
    {after : Cursor}
    (houtput : (Segment.directive s).output options ⟨args, 0⟩ = .ok pieces after) :
    ∃ f : Field, pieces = (f.withWidth (clampMeasure width)).pieces ∧ f.width = 0 ∧
      (f.zeroFill = true ↔ s.FillsZeros precision value) ∧
      (f.zeroFill = true → ∃ lead rest, f.Headed lead rest) ∧
      ∃ after, (Segment.directive s.withoutWidth).output options ⟨stars ++ value :: rest, 0⟩ =
        .ok f.pieces after := by
  obtain ⟨c, hc, hpercent, hphone⟩ := s.isPadded_iff.mp hs
  obtain ⟨d, w, hwidth, hzero, hflag, hplaces, ⟨k, hwide⟩, k', hbare⟩ := h.resolved
  obtain ⟨d', middle, f, hresolved, htaken, rfl⟩ := (Segment.output_ok_iff hc).mp houtput
  rw [hwide, EStateM.Result.ok.injEq] at hresolved
  obtain ⟨rfl, rfl⟩ := hresolved
  obtain ⟨arg, harg, hwidened⟩ := Conversion.composes_of_taken hpercent htaken
  obtain ⟨rfl, -⟩ := List.cons.inj harg
  obtain ⟨g, hcomposes, rfl, hsame⟩ := hwidened.widthless hpercent hphone
  obtain ⟨hfills, hheaded⟩ := fills hc hflag hplaces hcomposes
  have hc' : s.withoutWidth.directive.conversion? = some c := by
    obtain ⟨w', hwithout⟩ := s.directive_withoutWidth
    rw [hwithout]
    exact hc
  have hbare := (Segment.output_ok_iff hc').mpr ⟨d, _, g, hbare, hcomposes.taken rest k', rfl⟩
  rw [← hwidth]
  exact ⟨g, rfl, hsame.trans hzero, hfills, hheaded, _, hbare⟩

/-- The text of a field that is told a width, from its text without one. -/
theorem text_widened {f : Field}
    (hfills : f.zeroFill = true ↔ s.FillsZeros precision value)
    (hheaded : f.zeroFill = true → ∃ lead rest, f.Headed lead rest) (width : Int) :
    (f.withWidth (clampMeasure width)).pieces.flatMap Piece.text =
      s.widened width precision value f.body := by
  rw [Field.text_pieces, widened]
  simp only [Field.withWidth, min_natAbs_clampMeasure, clampMeasure_pos_iff,
    clampMeasure_nonneg_iff, ← hfills]
  split
  · next h =>
    obtain ⟨lead, rest, h⟩ := hheaded h.1
    exact h.zeros _
  · rfl

end Spelling

/-- A padded directive that succeeds has taken its arguments apart. With them the
same directive without its width, and without the argument of the star of that,
succeeds too, and what is delivered are its bytes brought to the width: by zeros
behind their sign or mark, or by blanks in front or, for a negative width, behind.
So none of these bytes is lost, and fill never goes beyond 4096 bytes. -/
theorem Context.width_pads {s : Spelling} (hread : Spelling.read s.text = (s, []))
    (hs : s.IsPadded) (context : Context) (held : Array UInt8) {args : List Arg}
    {options : Options} {n : Nat}
    (hok : (context.deliver held s.source args options).outcome = .ok n) :
    (∃ widthStars width stars precision value rest,
      s.Splits args widthStars width stars precision value rest) ∧
    ∀ widthStars width stars precision value rest,
      s.Splits args widthStars width stars precision value rest →
        let wide := context.deliver held s.source args options
        let bare := context.deliver held s.withoutWidth.source (stars ++ value :: rest) options
        bare.outcome = .ok bare.bytes.length ∧
          wide.bytes = s.widened width precision value bare.bytes ∧
          bare.bytes.Sublist wide.bytes ∧
          wide.bytes.length = max bare.bytes.length (min width.natAbs 4096) ∧
          n = wide.bytes.length := by
  obtain ⟨pieces, after, houtput⟩ : ∃ pieces after,
      (Segment.directive s).output options ⟨args, 0⟩ = .ok pieces after := by
    cases h : (Segment.directive s).output options ⟨args, 0⟩ with
    | ok pieces after => exact ⟨pieces, after, rfl⟩
    | error e after =>
      rw [context.deliver_source_error held hread h] at hok
      cases hok
  have hwide := context.deliver_source_ok held hread houtput
  refine ⟨?_, fun widthStars width stars precision value rest h => ?_⟩
  · obtain ⟨c, hc, hpercent, -⟩ := s.isPadded_iff.mp hs
    obtain ⟨d, middle, f, hresolved, htaken, -⟩ := (Segment.output_ok_iff hc).mp houtput
    obtain ⟨widthStars, width, stars, precision, hw, hp, hargs⟩ := Spelling.resolved_inv hresolved
    obtain ⟨value, hvalue, -⟩ := Conversion.composes_of_taken hpercent htaken
    exact ⟨widthStars, width, stars, precision, value, _, hvalue ▸ hargs, hw, hp⟩
  · obtain ⟨f, rfl, hnone, hfills, hheaded, after', hbare⟩ := hs.field h houtput
    have hbare := context.deliver_source_ok held (hs.read_withoutWidth hread) hbare
    dsimp only at hwide hbare
    rw [Field.flatMap_pieces hnone] at hbare
    rw [Spelling.text_widened hfills hheaded width] at hwide
    rw [hwide] at hok
    obtain ⟨hsublist, hlength⟩ := s.widened_grows width precision value f.body
    intro wide bare
    rw [show wide = _ from hwide, show bare = _ from hbare]
    refine ⟨rfl, rfl, hsublist, hlength, ?_⟩
    exact (Except.ok.inj hok).symm

/-- Zeros behind the mark of a hexadecimal number, with the width taken by a star. -/
theorem Context.width_pads_mark :
    let s : Spelling := { widthFlags := ascii "#0*", conversion := some 120 }
    Spelling.read s.text = (s, []) ∧ s.IsPadded ∧
      (Context.deliver {} #[] s.source [.int 10, .int 255] {}).outcome = .ok 10 ∧
      s.Splits [.int 10, .int 255] [.int 10] 10 [] none (.int 255) [] ∧
      s.withoutWidth.source = ascii "%#0x" ∧
      (Context.deliver {} #[] s.withoutWidth.source [.int 255] {}).bytes = ascii "0xff" ∧
      (Context.deliver {} #[] s.source [.int 10, .int 255] {}).bytes = ascii "0x000000ff" := by
  intro s
  have hread : Spelling.read s.text = (s, []) := by decide +kernel
  have hs : s.IsPadded := by decide
  have hok : (Context.deliver {} #[] s.source [.int 10, .int 255] {}).outcome = .ok 10 := by
    show (Context.deliver {} #[] (ascii "%#0*x") [.int 10, .int 255] {}).outcome = .ok 10
    cbv
  have hsplits : s.Splits [.int 10, .int 255] [.int 10] 10 [] none (.int 255) [] :=
    ⟨rfl, .taken (n := 10) (by decide) rfl, .absent rfl⟩
  have hsource : s.withoutWidth.source = ascii "%#0x" := by decide
  have hbare : (Context.deliver {} #[] s.withoutWidth.source [.int 255] {}).bytes =
      ascii "0xff" := by
    rw [hsource]
    cbv
  obtain ⟨-, hwidened, -⟩ :=
    (Context.width_pads hread hs {} #[] hok).2 [.int 10] 10 [] none (.int 255) [] hsplits
  have htext : s.widened 10 none (.int 255) (ascii "0xff") = ascii "0x000000ff" := by
    decide +kernel
  refine ⟨hread, hs, hok, hsplits, hsource, hbare, hwidened.trans ?_⟩
  rw [← htext]
  exact congrArg (s.widened 10 none (.int 255)) hbare

end PrintFormat
