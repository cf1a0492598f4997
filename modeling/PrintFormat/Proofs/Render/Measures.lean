import PrintFormat.Proofs.Directive.Grammar
import PrintFormat.Proofs.Render.Concatenation

/-!
Width and precision of a directive, written in it or taken by its stars.
`Spelling.HasWidth` and `Spelling.HasPrecision` say which numbers they are and
which arguments are taken for them, as the directive is written;
`Spelling.resolved_of` says what becomes of a directive with them, and
`Spelling.resolved_inv` that a directive whose stars find numbers has them.
-/
namespace PrintFormat

/-- The precision of a directive, together with the arguments that it takes for
it: one if the precision has a star, and then a negative number means none. -/
inductive Spelling.HasPrecision (s : Spelling) : List Arg → Option Nat → Prop
  | absent (h : s.precision = none) : s.HasPrecision [] none
  | written {flags digits : Bytes} (h : s.precision = some (flags, digits)) (hstar : 42 ∉ flags) :
      s.HasPrecision [] (some (ofDigits 10 (digits.map fun b => b.toNat - 48)))
  | taken {flags digits : Bytes} {arg : Arg} {n : BitVec 64}
      (h : s.precision = some (flags, digits)) (hstar : 42 ∈ flags)
      (harg : arg.pattern? = some n) :
      s.HasPrecision [arg] (if n.toInt < 0 then none else some n.toInt.toNat)

/-- The width of a directive, together with the arguments that it takes for it:
one if the width has a star. It is negative under the flag `-`. -/
inductive Spelling.HasWidth (s : Spelling) : List Arg → Int → Prop
  | written (hstar : 42 ∉ s.widthFlags) :
      s.HasWidth [] (if minus ∈ s.widthFlags then -(number s.widthDigits : Int)
        else number s.widthDigits)
  | taken {arg : Arg} {n : BitVec 64} (hstar : 42 ∈ s.widthFlags)
      (harg : arg.pattern? = some n) :
      s.HasWidth [arg] (if minus ∈ s.widthFlags then -(n.toInt.natAbs : Int) else n.toInt)

namespace Cursor

variable {demand : Demand} {v : demand.Value}

theorem take_of_pick {arg : Arg} (h : demand.pick arg = some v) (more : List Arg) (k : Nat) :
    take demand ⟨arg :: more, k⟩ = .ok v ⟨more, k + 1⟩ := by
  simp only [take, h]

theorem take_inv {c rest : Cursor} (h : take demand c = .ok v rest) :
    ∃ arg, demand.pick arg = some v ∧ c.remaining = arg :: rest.remaining := by
  obtain ⟨remaining, k⟩ := c
  cases remaining with
  | nil => cases h
  | cons arg more =>
    simp only [take] at h
    cases hv : demand.pick arg with
    | none => simp only [hv, reduceCtorEq] at h
    | some w =>
      simp only [hv] at h
      cases h
      exact ⟨arg, hv, rfl⟩

end Cursor

/-- The precision that a measure stands for, if it is given. -/
def Measure.places? (m : Measure) : Option Nat := if m.isGiven then some m.value.natAbs else none

theorem natAbs_clampMeasure (n : Int) : (clampMeasure n).natAbs = min n.natAbs measureLimit := by
  unfold clampMeasure measureLimit
  omega

/-- The limit of a width is beyond the fill that a field gets. -/
theorem min_natAbs_clampMeasure (n : Int) :
    min (clampMeasure n).natAbs maxFieldWidth = min n.natAbs 4096 := by
  rw [natAbs_clampMeasure, measureLimit, maxFieldWidth]
  omega

theorem clampMeasure_nonneg_iff {n : Int} : 0 ≤ clampMeasure n ↔ 0 ≤ n := by
  unfold clampMeasure measureLimit
  omega

theorem clampMeasure_pos_iff {n : Int} : 0 < clampMeasure n ↔ 0 < n := by
  unfold clampMeasure measureLimit
  omega

/-- A measure that stands for a width. What is beyond the limit counts as the
limit, and a positive width counts as given. -/
structure Measure.IsWidth (w : Measure) (width : Int) : Prop where
  value : w.value = clampMeasure width
  isGiven : 0 < width → w.isGiven = true

theorem Measure.IsWidth.phoneDigits {d : Directive} {width : Int} (h : d.width.IsWidth width) :
    d.phoneDigits =
      min (if 0 < width then width.toNat else defaultPhoneDigits) maxPhoneDigits := by
  have hpos : 0 < d.width.value ↔ 0 < width := by rw [h.value, clampMeasure_pos_iff]
  unfold Directive.phoneDigits
  by_cases hwidth : 0 < width
  · rw [if_pos ⟨h.isGiven hwidth, hpos.mpr hwidth⟩, if_pos hwidth, h.value]
    unfold clampMeasure measureLimit maxPhoneDigits
    omega
  · rw [if_neg fun hgiven => hwidth (hpos.mp hgiven.2), if_neg hwidth]

namespace Spelling

variable {s : Spelling} {stars : List Arg} {precision : Option Nat} {width : Int}

/-- Stars are taken for a precision on any directive with the precision that is
written. -/
def DrawsPrecision (s : Spelling) (stars : List Arg) (p : Measure) : Prop :=
  ∀ (d : Directive) (more : List Arg) (k : Nat), d.precision = s.directive.precision →
    d.starPrecision ⟨stars ++ more, k⟩ = .ok { d with precision := p } ⟨more, k + stars.length⟩

/-- The precision of a directive is drawn. What is beyond the limit counts as the
limit. -/
theorem HasPrecision.drawn (h : s.HasPrecision stars precision) :
    ∃ p : Measure, p.places? = precision.map (min · measureLimit) ∧ s.DrawsPrecision stars p := by
  -- without a star the precision stays as it is written
  have plain (hstar : s.directive.precision.star = false) :
      s.DrawsPrecision [] s.directive.precision := by
    intro d more k hd
    rw [Directive.starPrecision, hd, hstar, ← hd]
    rfl
  cases h with
  | absent hnone =>
    have hmeasure : s.directive.precision = {} := by rw [directive, hnone]
    refine ⟨s.directive.precision, ?_, plain ?_⟩
    · rw [hmeasure]
      rfl
    · rw [hmeasure]
  | @written flags digits hsome hplain =>
    have hmeasure : s.directive.precision = measure flags digits true := by rw [directive, hsome]
    refine ⟨s.directive.precision, ?_, plain ?_⟩
    · have hvalue : (measure flags digits true).value.natAbs = measureValue digits := by
        show (if minus ∈ flags then -(measureValue digits : Int)
          else measureValue digits).natAbs = _
        split <;> omega
      rw [hmeasure, show (measure flags digits true).places? = some _ from rfl, hvalue]
      rfl
    · rw [hmeasure]
      exact decide_eq_false hplain
  | @taken flags digits arg n hsome hsought harg =>
    have hmeasure : s.directive.precision = measure flags digits true := by rw [directive, hsome]
    have hstar : s.directive.precision.star = true := by
      rw [hmeasure]
      exact decide_eq_true hsought
    refine ⟨(s.directive.withStarPrecision n.toInt).precision, ?_, fun d more k hd => ?_⟩
    · by_cases hneg : n.toInt < 0
      · have hnot : ¬0 ≤ n.toInt := not_le.mpr hneg
        simp [Directive.withStarPrecision, Measure.places?, hneg, hnot]
      · have hsize : n.toInt.natAbs = n.toInt.toNat := by omega
        simp [Directive.withStarPrecision, Measure.places?, hneg, not_lt.mp hneg,
          natAbs_clampMeasure, hsize]
    · rw [Directive.starPrecision, hd, hstar, if_pos rfl]
      refine (Action.bind_ok (@Cursor.take_of_pick .integer n _ harg more k)).trans ?_
      simp only [Directive.withStarPrecision, hd]
      rfl

/-- The width that a directive has is drawn. -/
theorem HasWidth.drawn (h : s.HasWidth stars width) :
    ∃ w : Measure, w.IsWidth width ∧ ∀ (more : List Arg) (k : Nat),
      s.directive.starWidth ⟨stars ++ more, k⟩ =
        .ok { s.directive with width := w } ⟨more, k + stars.length⟩ := by
  have hmeasure : s.directive.width =
      measure s.widthFlags s.widthDigits (!s.widthDigits.isEmpty) := rfl
  cases h with
  | written hplain =>
    refine ⟨s.directive.width, ⟨?_, fun hpos => ?_⟩, fun more k => ?_⟩
    · show (if minus ∈ s.widthFlags then -(measureValue s.widthDigits : Int)
        else measureValue s.widthDigits) = _
      unfold measureValue number clampMeasure measureLimit
      split <;> omega
    · have hdigits : s.widthDigits ≠ [] := by
        intro hnil
        rw [hnil, show number [] = 0 from rfl] at hpos
        simp at hpos
      simpa [hmeasure, measure] using hdigits
    · have hstar : s.directive.width.star = false := decide_eq_false hplain
      rw [Directive.starWidth, hstar]
      rfl
  | @taken arg n hsought harg =>
    have hstar : s.directive.width.star = true := decide_eq_true hsought
    refine ⟨(s.directive.withStarWidth n.toInt).width, ⟨?_, fun _ => rfl⟩, fun more k => ?_⟩
    · show (if s.directive.width.negative then -((clampMeasure n.toInt).natAbs : Int)
        else clampMeasure n.toInt) = _
      simp only [show s.directive.width.negative = decide (minus ∈ s.widthFlags) from rfl,
        decide_eq_true_eq]
      unfold clampMeasure measureLimit
      split <;> omega
    · rw [Directive.starWidth, hstar, if_pos rfl]
      exact Action.bind_ok (@Cursor.take_of_pick .integer n _ harg more k)

/-- What becomes of a directive with its width and its precision. -/
theorem resolved_of {widthStars : List Arg} (hw : s.HasWidth widthStars width) {p : Measure}
    (hp : s.DrawsPrecision stars p) :
    ∃ w : Measure, w.IsWidth width ∧ ∀ (more : List Arg) (k : Nat),
      s.directive.resolved ⟨widthStars ++ (stars ++ more), k⟩ =
        .ok { s.directive with width := w, precision := p }
          ⟨more, k + widthStars.length + stars.length⟩ := by
  obtain ⟨w, hwidth, hdraw⟩ := hw.drawn
  exact ⟨w, hwidth, fun more k => (Action.bind_ok (hdraw _ k)).trans (hp _ more _ rfl)⟩

/-- A directive that names no width has the width 0. -/
theorem hasWidth_zero (hstar : 42 ∉ s.widthFlags) (hdigits : s.widthDigits = []) :
    s.HasWidth [] 0 := by
  have h := HasWidth.written hstar
  have hnumber : number s.widthDigits = 0 := by
    rw [hdigits]
    rfl
  rwa [hnumber, Nat.cast_zero, neg_zero, ite_self] at h

/-- What becomes of a directive without a width. -/
theorem HasPrecision.resolved (h : s.HasPrecision stars precision) (hstar : 42 ∉ s.widthFlags)
    (hdigits : s.widthDigits = []) (more : List Arg) (k : Nat) :
    ∃ w p : Measure, w.value = 0 ∧ p.places? = precision.map (min · measureLimit) ∧
      s.directive.resolved ⟨stars ++ more, k⟩ =
        .ok { s.directive with width := w, precision := p } ⟨more, k + stars.length⟩ := by
  obtain ⟨p, hplaces, hp⟩ := h.drawn
  obtain ⟨w, hwidth, hresolved⟩ := resolved_of (hasWidth_zero hstar hdigits) hp
  exact ⟨w, p, hwidth.value, hplaces, hresolved more k⟩

theorem starWidth_inv {d : Directive} {c rest : Cursor}
    (h : s.directive.starWidth c = .ok d rest) :
    ∃ stars width, s.HasWidth stars width ∧ c.remaining = stars ++ rest.remaining ∧
      d.precision = s.directive.precision := by
  unfold Directive.starWidth at h
  by_cases hstar : 42 ∈ s.widthFlags
  · rw [if_pos (show s.directive.width.star = true from decide_eq_true hstar)] at h
    obtain ⟨n, middle, htake, hpure⟩ := Action.bind_eq_ok_iff.mp h
    cases hpure
    obtain ⟨arg, harg, hargs⟩ := Cursor.take_inv htake
    exact ⟨_, _, .taken hstar harg, hargs, rfl⟩
  · have hno : ¬s.directive.width.star = true := mt of_decide_eq_true hstar
    rw [if_neg hno] at h
    cases h
    exact ⟨_, _, .written hstar, rfl, rfl⟩

theorem starPrecision_inv {d d' : Directive} (hd : d.precision = s.directive.precision)
    {c rest : Cursor} (h : d.starPrecision c = .ok d' rest) :
    ∃ stars precision, s.HasPrecision stars precision ∧ c.remaining = stars ++ rest.remaining := by
  unfold Directive.starPrecision at h
  rw [hd] at h
  cases hwritten : s.precision with
  | none =>
    rw [show s.directive.precision.star = false by rw [directive, hwritten]] at h
    cases h
    exact ⟨_, _, .absent hwritten, rfl⟩
  | some side =>
    obtain ⟨flags, digits⟩ := side
    have hmeasure : s.directive.precision = measure flags digits true := by rw [directive, hwritten]
    by_cases hstar : 42 ∈ flags
    · rw [hmeasure, if_pos (show (measure flags digits true).star = true from
        decide_eq_true hstar)] at h
      obtain ⟨n, middle, htake, hpure⟩ := Action.bind_eq_ok_iff.mp h
      cases hpure
      obtain ⟨arg, harg, hargs⟩ := Cursor.take_inv htake
      exact ⟨_, _, .taken hwritten hstar harg, hargs⟩
    · have hno : ¬(measure flags digits true).star = true := mt of_decide_eq_true hstar
      rw [hmeasure, if_neg hno] at h
      cases h
      exact ⟨_, _, .written hwritten hstar, rfl⟩

/-- A directive whose stars find numbers has a width and a precision. -/
theorem resolved_inv {d : Directive} {c rest : Cursor} (h : s.directive.resolved c = .ok d rest) :
    ∃ widthStars width stars precision, s.HasWidth widthStars width ∧
      s.HasPrecision stars precision ∧ c.remaining = widthStars ++ (stars ++ rest.remaining) := by
  obtain ⟨d', middle, hwidth, hprecision⟩ := Action.bind_eq_ok_iff.mp h
  obtain ⟨widthStars, width, hw, hargs, hsame⟩ := starWidth_inv hwidth
  obtain ⟨stars, precision, hp, hargs'⟩ := starPrecision_inv hsame hprecision
  exact ⟨widthStars, width, stars, precision, hw, hp, by rw [hargs, hargs']⟩

end Spelling

/-- A directive whose output is worked out from the first arguments, in front of
any rest of a format, delivers it, and the rest goes on with the arguments that
are left. -/
theorem Context.deliver_first {written g : Bytes} {s : Spelling}
    (hread : Spelling.read written = (s, g)) {used more : List Arg} {options : Options}
    {pieces : List Piece}
    (houtput : (Segment.directive s).output options ⟨used ++ more, 0⟩ =
      .ok pieces ⟨more, used.length⟩) (context : Context) (held : Array UInt8) :
    let text := pieces.flatMap Piece.text
    context.deliver held (percent :: written) (used ++ more) options =
      Delivery.followedBy ⟨.ok text.length, text, used.length⟩
        (context.deliver held g more options) := by
  intro text
  have hon : Cursor.On (used ++ more) ⟨more, used.length⟩ := by
    rw [Cursor.On, List.drop_left]
  have hleft := @Transcript.ofSegments_left options _ _ hon (Segment.ofFormat g)
  rw [List.drop_left] at hleft
  rw [Context.deliver_eq, Context.deliver_eq, Transcript.ofFormat, Segment.ofFormat_percent,
    hread, Transcript.ofSegments_cons_ok houtput, Transcript.delivery_after, hleft]
  have hfirst : (⟨.ok text.length, text, used.length⟩ : Delivery).outcome = .ok text.length := rfl
  exact (Transcript.followedBy_delivery hfirst _).symm

/-- The same with the arguments told apart: those of the stars, and the one of the
conversion. -/
theorem Context.deliver_taken {written g : Bytes} {s : Spelling}
    (hread : Spelling.read written = (s, g)) {widthStars stars more : List Arg} {arg : Arg}
    {options : Options} {pieces : List Piece}
    (houtput : (Segment.directive s).output options ⟨widthStars ++ (stars ++ arg :: more), 0⟩ =
      .ok pieces ⟨more, 0 + widthStars.length + stars.length + 1⟩) (context : Context)
    (held : Array UInt8) :
    let text := pieces.flatMap Piece.text
    context.deliver held (percent :: written) (widthStars ++ (stars ++ arg :: more)) options =
      Delivery.followedBy ⟨.ok text.length, text, widthStars.length + stars.length + 1⟩
        (context.deliver held g more options) := by
  have hargs : widthStars ++ (stars ++ arg :: more) = widthStars ++ stars ++ [arg] ++ more := by
    simp only [List.append_assoc, List.cons_append, List.nil_append]
  have hlength : 0 + widthStars.length + stars.length + 1 =
      (widthStars ++ stars ++ [arg]).length := by
    simp only [List.length_append, List.length_singleton, Nat.zero_add]
  rw [hlength, hargs] at houtput
  have hdeliver := deliver_first hread houtput context held
  rw [← hargs] at hdeliver
  simpa only [List.length_append, List.length_singleton] using hdeliver

end PrintFormat
