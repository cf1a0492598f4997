import PrintFormat.Proofs.Checked.Computation
import PrintFormat.Proofs.Directive.Reading

/-!
Directives extracted at a position of a format. The format is looked at by
index, and a position at its end or beyond has no byte; the flags on either side
of the point are noted one by one, digits are added up to the limit, and a width
or precision is negated only as a number that has a negative among words of 32
bits. What comes out is the reading of the text behind the percent sign, and the
position where that reading ends. A number from the arguments is brought within
the limit before its sign is changed.
-/
namespace PrintFormat

namespace Checked

variable {σ : Type}

/-! ### Measures -/

/-- A width or precision, which is never beyond the limit. -/
def measured (n : Int) : Checked σ Int := do
  let _ ← require (n.natAbs ≤ measureLimit)
  return n

/-- The negative of a number of 32 bits. -/
def negate (n : Int) : Checked σ Int := do
  let _ ← require (-(2 : Int) ^ 31 < n ∧ n < (2 : Int) ^ 31)
  return -n

/-- The size of a number of 32 bits. -/
def size (n : Int) : Checked σ Int := do
  let _ ← require (-(2 : Int) ^ 31 < n ∧ n < (2 : Int) ^ 31)
  return n.natAbs

theorem measured_of {n : Int} (h : n.natAbs ≤ measureLimit) :
    (measured n : Checked σ Int) = pure n := by
  rw [measured, require_of h, pure_bind]

theorem negate_of {n : Int} (h : n.natAbs ≤ measureLimit) :
    (negate n : Checked σ Int) = pure (-n) := by
  unfold measureLimit at h
  rw [negate, require_of (by omega), pure_bind]

theorem size_of {n : Int} (h : n.natAbs ≤ measureLimit) :
    (size n : Checked σ Int) = pure (n.natAbs : Int) := by
  unfold measureLimit at h
  rw [size, require_of (by omega), pure_bind]

/-- A directive with a width from the arguments. -/
def withStarWidth (d : Directive) (n : Int) : Checked σ Directive := do
  let w := clampMeasure n
  let value ← if d.width.negative then negate (← size w) else pure w
  return { d with width := { d.width with value := ← measured value, isGiven := true } }

/-- A directive with a precision from the arguments. -/
def withStarPrecision (d : Directive) (n : Int) : Checked σ Directive := do
  let value ← measured (if n < 0 then 0 else clampMeasure n)
  return { d with precision := { d.precision with value, isGiven := 0 ≤ n } }

theorem natAbs_clampMeasure_le (n : Int) : (clampMeasure n).natAbs ≤ measureLimit := by
  unfold clampMeasure
  omega

theorem withStarWidth_eq (d : Directive) (n : Int) :
    (withStarWidth d n : Checked σ Directive) = pure (d.withStarWidth n) := by
  have hclamp := natAbs_clampMeasure_le n
  unfold withStarWidth Directive.withStarWidth
  cases d.width.negative with
  | false =>
    simp only [Bool.false_eq_true, if_false, pure_bind]
    rw [measured_of hclamp, pure_bind]
  | true =>
    simp only [if_true]
    rw [size_of hclamp, pure_bind, negate_of (by omega), pure_bind, measured_of (by omega),
      pure_bind]

theorem withStarPrecision_eq (d : Directive) (n : Int) :
    (withStarPrecision d n : Checked σ Directive) = pure (d.withStarPrecision n) := by
  have hclamp := natAbs_clampMeasure_le n
  have hvalue : (if n < 0 then 0 else clampMeasure n).natAbs ≤ measureLimit := by
    split
    · exact Nat.zero_le _
    · exact hclamp
  rw [withStarPrecision, measured_of hvalue, pure_bind, Directive.withStarPrecision]

/-! ### Extraction -/

/-- The two sides of a point. -/
inductive Side
  | width | precision

namespace Side

/-- A byte that is a flag on this side. -/
def isFlag : Side → UInt8 → Bool
  | width => isWidthFlag
  | precision => PrintFormat.isFlag

/-- The measure on this side. -/
def measure : Side → Directive → Measure
  | width, d => d.width
  | precision, d => d.precision

/-- A directive with its measure on this side changed. -/
def update (f : Measure → Measure) : Side → Directive → Directive
  | width, d => { d with width := f d.width }
  | precision, d => { d with precision := f d.precision }

/-- A directive with one more flag on this side. -/
def note (side : Side) (d : Directive) (b : UInt8) : Directive :=
  if b = minus then side.update (fun m => { m with negative := true }) d
  else if b = 43 then { d with sign := .plus }
  else if b = blank then { d with sign := if d.sign = .plus then .plus else .space }
  else if b = 35 then { d with alternate := true }
  else if b = 42 then side.update (fun m => { m with star := true }) d
  else { d with zeroFill := d.zeroFill || b = zero }

end Side

/-- Notes flags from a position on, and answers where they end. -/
def scanFlags (side : Side) (format : Bytes) (i : Nat) (d : Directive) : Nat × Directive :=
  match _ : format[i]? with
  | none => (i, d)
  | some b => if side.isFlag b then scanFlags side format (i + 1) (side.note d b) else (i, d)
termination_by format.length - i
decreasing_by
  rename_i h _
  have := (List.getElem?_eq_some_iff.mp h).1
  omega

/-- Adds up digits from a position on, up to the limit, and answers where they
end. -/
def scanDigits (format : Bytes) (i value : Nat) : Checked σ (Nat × Nat) :=
  match _ : format[i]? with
  | none => return (i, value)
  | some b =>
      if isDigit b then do
        let digit ← sub b.toNat zero.toNat
        scanDigits format (i + 1) (min (min (value * 10) measureLimit + digit) measureLimit)
      else return (i, value)
termination_by format.length - i
decreasing_by
  rename_i h _
  have := (List.getElem?_eq_some_iff.mp h).1
  omega

/-- A width or precision from its digits and the flag `-`. -/
def signed (negative : Bool) (n : Nat) : Checked σ Int := do
  if negative then measured (← negate n) else measured n

/-- Extracts flags and digits of one side. -/
def extractSide (side : Side) (format : Bytes) (i : Nat) (d : Directive) :
    Checked σ (Nat × Directive) := do
  let (start, d) := scanFlags side format i d
  let (stop, n) ← scanDigits format start 0
  let value ← signed (side.measure d).negative n
  return (stop, side.update (fun m => { m with value, isGiven := m.isGiven || start < stop }) d)

/-- Extracts a length modifier. -/
def extractSize (format : Bytes) (i : Nat) : Nat × SizeClass :=
  match format[i]?, format[i + 1]? with
  | some 104, some 104 => (i + 2, .byte)
  | some 104, _ => (i + 1, .half)
  | some 108, some 108 => (i + 2, .longLong)
  | some 108, _ => (i + 1, .long)
  | some 76, _ => (i + 1, .longLong)
  | some 113, _ => (i + 1, .longLong)
  | _, _ => (i, .normal)

/-- Extracts the marks of an extended directive. -/
def extractMode (format : Bytes) (i : Nat) : Nat × Directive :=
  if format[i]? = some 33 then
    if format[i + 1]? = some 94 then (i + 2, { extended := true, alternate := true })
    else (i + 1, { extended := true })
  else (i, {})

/-- Extracts a point with flags and digits of a precision. -/
def extractPrecision (format : Bytes) (i : Nat) (d : Directive) : Checked σ (Nat × Directive) :=
  if format[i]? = some 46 then
    extractSide .precision format (i + 1)
      { d with precision := { d.precision with isGiven := true } }
  else
    return (i, d)

/-- Extracts the parts behind a percent sign. -/
def extractParts (format : Bytes) (i : Nat) : Checked σ (Nat × Directive) := do
  let (i, d) := extractMode format i
  let (i, d) ← extractSide .width format i d
  let (i, d) ← extractPrecision format i d
  let (i, size) := extractSize format i
  match format[i]? with
  | some b => return (i + 1, { d with size, conversion := some b })
  | none => return (format.length, { d with size })

/-- Extracts the directive whose percent sign is at a position, and answers
where it ends. -/
def extract (format : Bytes) (position : Nat) : Checked σ (Nat × Directive) :=
  let i := position + 1
  match format[i]? with
  | none => return (min i format.length, {})
  | some b =>
      if b = percent then return (i + 1, { conversion := some percent })
      else extractParts format i

/-! ### What is extracted -/

/-- A format from a position on. -/
structure From (format : Bytes) (i : Nat) (text : Bytes) : Prop where
  drop : format.drop i = text
  le : i ≤ format.length

namespace From

variable {format text : Bytes} {i : Nat}

theorem length (h : From format i text) : i + text.length = format.length := by
  have hle := h.le
  rw [← h.drop, List.length_drop]
  omega

theorem getElem? (h : From format i text) : format[i]? = text.head? := by
  rw [← h.drop, List.head?_drop]

theorem getElem?_succ (h : From format i text) : format[i + 1]? = text.tail.head? := by
  rw [← h.drop, List.tail_drop, List.head?_drop]

theorem append {front rest : Bytes} (h : From format i (front ++ rest)) :
    From format (i + front.length) rest where
  drop := by rw [← List.drop_drop, h.drop, List.drop_left]
  le := by
    have := h.length
    rw [List.length_append] at this
    omega

theorem behindSide (h : From format i text) (p : UInt8 → Bool) :
    From format (i + (text.takeWhile p).length + ((text.dropWhile p).takeWhile isDigit).length)
      ((text.dropWhile p).dropWhile isDigit) := by
  rw [← List.takeWhile_append_dropWhile (p := p) (l := text)] at h
  have h' := h.append
  rw [← List.takeWhile_append_dropWhile (p := isDigit) (l := text.dropWhile p)] at h'
  exact h'.append

theorem cons {b : UInt8} {rest : Bytes} (h : From format i (b :: rest)) :
    From format (i + 1) rest :=
  have hb : From format i ([b] ++ rest) := h
  hb.append

end From

variable {format text : Bytes} {i : Nat}

theorem scanFlags_eq (side : Side) (h : From format i text) (d : Directive) :
    scanFlags side format i d =
      (i + (text.takeWhile side.isFlag).length,
        (text.takeWhile side.isFlag).foldl side.note d) := by
  have hat := h.getElem?
  induction text generalizing i d with
  | nil =>
    rw [scanFlags]
    split <;> simp_all
  | cons b rest ih =>
    rw [scanFlags]
    split
    · simp_all
    · next c hc =>
      obtain rfl : c = b := by simp_all
      by_cases hb : side.isFlag c = true
      · rw [if_pos hb, List.takeWhile_cons_of_pos hb, List.foldl_cons, List.length_cons,
          ih h.cons _ h.cons.getElem?, Nat.add_assoc, Nat.add_comm 1]
      · rw [if_neg hb, List.takeWhile_cons_of_neg hb, List.foldl_nil]
        rfl

theorem scanDigits_eq (h : From format i text) (value : Nat) :
    (scanDigits format i value : Checked σ (Nat × Nat)) =
      pure (i + (text.takeWhile isDigit).length, (text.takeWhile isDigit).foldl
        (fun n b => min (min (n * 10) measureLimit + (b.toNat - 48)) measureLimit) value) := by
  have hat := h.getElem?
  induction text generalizing i value with
  | nil =>
    rw [scanDigits]
    split <;> simp_all
  | cons b rest ih =>
    rw [scanDigits]
    split
    · simp_all
    · next c hc =>
      obtain rfl : c = b := by simp_all
      by_cases hb : isDigit c = true
      · have hdigit : zero.toNat ≤ c.toNat := by
          simp only [isDigit, Bool.and_eq_true, decide_eq_true_eq] at hb
          exact UInt8.le_iff_toNat_le.mp hb.1
        have hzero : zero.toNat = 48 := rfl
        rw [if_pos hb, sub_of hdigit, pure_bind, List.takeWhile_cons_of_pos hb, List.foldl_cons,
          List.length_cons, ih h.cons _ h.cons.getElem?, Nat.add_assoc, Nat.add_comm 1, hzero]
      · rw [if_neg hb, List.takeWhile_cons_of_neg hb, List.foldl_nil]
        rfl

/-- Digits added up to the limit are the number that they write, or the limit. -/
theorem foldl_measure (digits : Bytes) :
    digits.foldl (fun n b => min (min (n * 10) measureLimit + (b.toNat - 48)) measureLimit) 0 =
      Spelling.measureValue digits := by
  -- a sum beyond the limit stays there, so one cut at the end does as well
  have key (n : Nat) : digits.foldl
      (fun n b => min (min (n * 10) measureLimit + (b.toNat - 48)) measureLimit)
      (min n measureLimit) =
        min (digits.foldl (fun n b => n * 10 + (b.toNat - 48)) n) measureLimit := by
    induction digits generalizing n with
    | nil => rfl
    | cons b rest ih =>
      have hstep : min (min (min n measureLimit * 10) measureLimit + (b.toNat - 48)) measureLimit =
          min (n * 10 + (b.toNat - 48)) measureLimit := by omega
      rw [List.foldl_cons, List.foldl_cons, hstep, ih]
  rw [Spelling.measureValue, ofDigits, List.foldl_map]
  exact key 0

theorem foldl_note (side : Side) (flags : Bytes) (d : Directive) :
    flags.foldl side.note d =
      side.update (fun m => { m with
        negative := m.negative || minus ∈ flags
        star := m.star || 42 ∈ flags }) { d with
        sign := if d.sign = .plus ∨ 43 ∈ flags then .plus
          else if blank ∈ flags then .space else d.sign
        alternate := d.alternate || 35 ∈ flags
        zeroFill := d.zeroFill || zero ∈ flags } := by
  induction flags generalizing d with
  | nil =>
    obtain ⟨w, p, z, si, sg, a, e, c⟩ := d
    cases side <;> cases sg <;> simp [Side.update]
  | cons b rest ih =>
    have hmem (x : UInt8) : x ∈ b :: rest ↔ b = x ∨ x ∈ rest := by rw [List.mem_cons, eq_comm]
    have hflags : minus = 45 ∧ blank = 32 ∧ zero = 48 := ⟨rfl, rfl, rfl⟩
    simp only [List.foldl_cons, ih, hmem, hflags]
    obtain ⟨w, p, z, si, sg, a, e, c⟩ := d
    unfold Side.note
    simp only [hflags]
    -- the flags in the order in which `note` looks for them
    by_cases h1 : b = 45
    · subst h1
      cases side <;> simp [Side.update]
    by_cases h2 : b = 43
    · subst h2
      cases side <;> simp [Side.update]
    by_cases h3 : b = 32
    · subst h3
      cases side <;> cases sg <;> simp [Side.update]
    by_cases h4 : b = 35
    · subst h4
      cases side <;> simp [Side.update]
    by_cases h5 : b = 42
    · subst h5
      cases side <;> simp [Side.update]
    · cases side <;> simp [Side.update, h1, h2, h3, h4, h5, Bool.or_assoc]

theorem measureValue_le (digits : Bytes) : Spelling.measureValue digits ≤ measureLimit :=
  Nat.min_le_right _ _

theorem signed_of (negative : Bool) {n : Nat} (h : n ≤ measureLimit) :
    (signed negative n : Checked σ Int) = pure (if negative then -(n : Int) else n) := by
  unfold signed
  split
  · rw [negate_of (by omega), pure_bind, measured_of (by omega)]
  · rw [measured_of (by omega)]

/-- Flags and digits that are extracted are the measure that they write; the
flags count for the directive besides. -/
theorem extractSide_eq {side : Side} {flags digits : Bytes} {given : Bool} {d : Directive}
    (h : From format i text) (hflags : text.takeWhile side.isFlag = flags)
    (hdigits : (text.dropWhile side.isFlag).takeWhile isDigit = digits)
    (hmeasure : side.measure d = { isGiven := given }) :
    (extractSide side format i d : Checked σ (Nat × Directive)) =
      pure (i + flags.length + digits.length,
        side.update (fun _ => Spelling.measure flags digits (given || !digits.isEmpty)) { d with
          sign := if d.sign = .plus ∨ 43 ∈ flags then .plus
            else if blank ∈ flags then .space else d.sign
          alternate := d.alternate || 35 ∈ flags
          zeroFill := d.zeroFill || zero ∈ flags }) := by
  have hbehind : From format (i + flags.length) (text.dropWhile side.isFlag) := by
    rw [← List.takeWhile_append_dropWhile (p := side.isFlag) (l := text), hflags] at h
    exact h.append
  have hgiven : decide (i + flags.length < i + flags.length + digits.length) = !digits.isEmpty := by
    cases digits <;> simp
  unfold extractSide
  rw [scanFlags_eq side h]
  dsimp only
  rw [hflags, scanDigits_eq hbehind, hdigits, foldl_measure, pure_bind]
  dsimp only
  rw [foldl_note, signed_of _ (measureValue_le digits), pure_bind]
  obtain ⟨w, p, z, si, sg, a, e, c⟩ := d
  cases side <;> simp_all [Side.update, Side.measure, Spelling.measure]

/-- The modifier at the front of a text by its first two bytes. -/
theorem first?_eq (b : UInt8) (rest : Bytes) :
    LengthModifier.first? (b :: rest) =
      if b = 104 then some (if rest.head? = some 104 then .hh else .h)
      else if b = 108 then some (if rest.head? = some 108 then .ll else .l)
      else if b = 76 then some .capitalL
      else if b = 113 then some .q
      else none := by
  have hh : ascii "h" = [104] := rfl
  have hhh : ascii "hh" = [104, 104] := rfl
  have hl : ascii "l" = [108] := rfl
  have hll : ascii "ll" = [108, 108] := rfl
  have hL : ascii "L" = [76] := rfl
  have hq : ascii "q" = [113] := rfl
  have hcons (x : UInt8) : [x].isPrefixOf rest = decide (rest.head? = some x) := by
    cases rest with
    | nil => rfl
    | cons c rest =>
      rw [List.isPrefixOf_cons_cons, List.isPrefixOf_nil_left, Bool.and_true]
      exact Bool.beq_comm.trans (decide_eq_decide.mpr Option.some_inj.symm)
  have hbeq (x : UInt8) : (x == b) = decide (b = x) := Bool.beq_comm
  simp only [LengthModifier.first?, LengthModifier.text, hh, hhh, hl, hll, hL, hq,
    List.isPrefixOf_cons_cons, List.find?_cons, List.isPrefixOf_nil_left, hcons, hbeq,
    List.find?_nil]
  split_ifs <;> simp_all

theorem extractSize_eq (h : From format i text) :
    extractSize format i =
      (i + (Spelling.modifierText (Spelling.readModifier text).1).length,
        ((Spelling.readModifier text).1.map LengthModifier.size).getD .normal) := by
  have hfirst := h.getElem?
  have hsecond := h.getElem?_succ
  unfold extractSize
  rw [hfirst, hsecond]
  cases text with
  | nil => rfl
  | cons b rest =>
    have hread := first?_eq b rest
    rw [List.head?_cons, List.tail_cons]
    generalize rest.head? = next at hread ⊢
    split_ifs at hread with h1 h2 h3 h4 h5 h6
    all_goals first
      | rw [Spelling.readModifier_of_some hread]
      | rw [Spelling.readModifier_of_none hread]
    all_goals simp_all [Spelling.modifierText, LengthModifier.text, LengthModifier.size, ascii]

theorem extractMode_eq (h : From format i text) :
    let first := takeByte 33 text
    let second := if first.1 then takeByte 94 first.2 else (false, first.2)
    ∃ j, extractMode format i = (j, { extended := first.1, alternate := second.1 }) ∧
      From format j second.2 := by
  have hfirst := h.getElem?
  have hsecond := h.getElem?_succ
  unfold extractMode
  rw [hfirst, hsecond]
  cases text with
  | nil => exact ⟨i, rfl, h⟩
  | cons b rest =>
    by_cases hb : b = 33
    · subst hb
      cases rest with
      | nil => exact ⟨i + 1, rfl, h.cons⟩
      | cons c rest =>
        by_cases hc : c = 94
        · subst hc
          exact ⟨i + 2, rfl, h.cons.cons⟩
        · refine ⟨i + 1, ?_, ?_⟩
          · simp [takeByte, hc]
          · simpa [takeByte, hc] using h.cons
    · refine ⟨i, ?_, ?_⟩
      · simp [takeByte, hb]
      · simpa [takeByte, hb] using h

/-- A precision that is not there adds nothing to a directive. -/
theorem withoutPrecision (d : Directive) (h : d.precision = {}) :
    { d with
      precision := {}
      sign := if d.sign = .plus ∨ 43 ∈ ([] : Bytes) then .plus
        else if blank ∈ ([] : Bytes) then .space else d.sign
      alternate := d.alternate || decide (35 ∈ ([] : Bytes)) } = d := by
  obtain ⟨w, p, z, si, sg, a, e, c⟩ := d
  cases sg <;> simp_all

theorem extractPrecision_eq (h : From format i text) {d : Directive} (hd : d.precision = {}) :
    let read := Spelling.readPrecision text
    let flags := (read.1.map Prod.fst).getD []
    ∃ j, (extractPrecision format i d : Checked σ (Nat × Directive)) = pure (j, { d with
        precision := match read.1 with
          | none => {}
          | some (flags, digits) => Spelling.measure flags digits true
        sign := if d.sign = .plus ∨ 43 ∈ flags then .plus
          else if blank ∈ flags then .space else d.sign
        alternate := d.alternate || 35 ∈ flags }) ∧ From format j read.2 := by
  have hfirst := h.getElem?
  have hplain : (pure (i, d) : Checked σ (Nat × Directive)) = pure (i, _) :=
    congrArg (fun d => pure (i, d)) (withoutPrecision d hd).symm
  unfold extractPrecision
  rw [hfirst]
  cases text with
  | nil => exact ⟨i, hplain, h⟩
  | cons b rest =>
    by_cases hb : b = 46
    · subst hb
      refine ⟨_, ?_, h.cons.behindSide PrintFormat.isFlag⟩
      rw [List.head?_cons, if_pos rfl, extractSide_eq h.cons rfl rfl (by rw [Side.measure, hd])]
      have hzero : zero ∉ rest.takeWhile PrintFormat.isFlag := fun hmem =>
        absurd (List.mem_takeWhile_imp hmem) (by decide)
      simp [Side.update, Side.isFlag, Spelling.readPrecision, takeByte, hzero]
      rfl
    · have hread : Spelling.readPrecision (b :: rest) = (none, b :: rest) := by
        simp [Spelling.readPrecision, takeByte, hb]
      rw [List.head?_cons, if_neg (by simpa using hb), hread]
      exact ⟨i, hplain, h⟩

/-- The directive that stands in front of a precision. -/
def beforePrecision (extended alternate : Bool) (flags digits : Bytes) : Directive where
  width := Spelling.measure flags digits (!digits.isEmpty)
  zeroFill := zero ∈ flags
  sign := if 43 ∈ flags then .plus else if blank ∈ flags then .space else .omit
  alternate := alternate || 35 ∈ flags
  extended := extended

theorem extractWidth_eq (h : From format i text) (extended alternate : Bool) :
    let flags := text.takeWhile isWidthFlag
    let digits := (text.dropWhile isWidthFlag).takeWhile isDigit
    (extractSide .width format i { extended, alternate } : Checked σ (Nat × Directive)) =
      pure (i + flags.length + digits.length, beforePrecision extended alternate flags digits) := by
  intro flags digits
  rw [extractSide_eq h rfl rfl rfl]
  simp [Side.update, Side.isFlag, beforePrecision, flags, digits]
  rfl

/-- What the parts of a directive ask for, put together from its two sides. -/
theorem directive_eq (s : Spelling) :
    let flags := (s.precision.map Prod.fst).getD []
    let d := beforePrecision s.bang s.caret s.widthFlags s.widthDigits
    s.directive = { d with
      precision := match s.precision with
        | none => {}
        | some (flags, digits) => Spelling.measure flags digits true
      sign := if d.sign = .plus ∨ 43 ∈ flags then .plus
        else if blank ∈ flags then .space else d.sign
      alternate := d.alternate || 35 ∈ flags
      size := (s.modifier.map LengthModifier.size).getD .normal
      conversion := s.conversion } := by
  intro flags d
  have hflags : s.flags = s.widthFlags ++ flags := rfl
  have hsign : s.directive.sign = if d.sign = .plus ∨ 43 ∈ flags then .plus
      else if blank ∈ flags then .space else d.sign := by
    simp only [Spelling.directive, hflags, List.mem_append, d, beforePrecision]
    split_ifs <;> simp_all
  have halternate : s.directive.alternate = (d.alternate || decide (35 ∈ flags)) := by
    simp only [Spelling.directive, hflags, List.mem_append, d, beforePrecision,
      Bool.decide_or, Bool.or_assoc]
  rw [← hsign, ← halternate]
  rfl

theorem extractParts_eq (h : From format i text) :
    (extractParts format i : Checked σ (Nat × Directive)) =
      pure (format.length - (Spelling.read text).2.length, (Spelling.read text).1.directive) := by
  -- each part is extracted where the one before it ended, and what both readers
  -- made of that one is given a name, so that only the rest of the text counts
  obtain ⟨j, hmode, hj⟩ := extractMode_eq h
  unfold extractParts Spelling.read
  rw [hmode]
  generalize takeByte 33 text = first at hmode hj ⊢
  obtain ⟨bang, behindBang⟩ := first
  dsimp only at hmode hj ⊢
  generalize (if bang then takeByte 94 behindBang else (false, behindBang)) = second at hmode hj ⊢
  obtain ⟨caret, behindMode⟩ := second
  dsimp only at hmode hj ⊢
  rw [extractWidth_eq hj, pure_bind]
  have hwidth := hj.behindSide isWidthFlag
  generalize behindMode.takeWhile isWidthFlag = flags at hwidth ⊢
  generalize (behindMode.dropWhile isWidthFlag).takeWhile isDigit = digits at hwidth ⊢
  generalize (behindMode.dropWhile isWidthFlag).dropWhile isDigit = behindWidth at hwidth ⊢
  dsimp only
  obtain ⟨k, hprecision, hk⟩ := extractPrecision_eq (σ := σ) hwidth
    (d := beforePrecision bang caret flags digits) rfl
  rw [hprecision, pure_bind]
  generalize Spelling.readPrecision behindWidth = third at hk ⊢
  obtain ⟨precision, behindPrecision⟩ := third
  dsimp only at hk ⊢
  rw [extractSize_eq hk]
  have hm := Spelling.readModifier_append behindPrecision
  generalize Spelling.readModifier behindPrecision = fourth at hm ⊢
  obtain ⟨modifier, last⟩ := fourth
  rw [← hm] at hk
  have hlast := hk.append
  dsimp only at hlast ⊢
  have hlength := hlast.length
  rw [hlast.getElem?]
  cases last with
  | nil =>
    rw [List.head?_nil, directive_eq]
    rfl
  | cons b rest =>
    have hend : k + (Spelling.modifierText modifier).length + 1 = format.length - rest.length := by
      rw [List.length_cons] at hlength
      omega
    rw [List.head?_cons, directive_eq, List.tail_cons, ← hend]

theorem read_percent (rest : Bytes) :
    Spelling.read (percent :: rest) = ({ conversion := some percent }, rest) := by
  have hpoint : Spelling.readPrecision (percent :: rest) = (none, percent :: rest) := rfl
  have hmodifier : Spelling.readModifier (percent :: rest) = (none, percent :: rest) := rfl
  have hflag : ¬isWidthFlag percent = true := by decide
  have hdigit : ¬isDigit percent = true := by decide
  have hbang : takeByte 33 (percent :: rest) = (false, percent :: rest) := rfl
  simp only [Spelling.read, hbang, List.takeWhile_cons_of_neg hflag,
    List.dropWhile_cons_of_neg hflag, List.takeWhile_cons_of_neg hdigit,
    List.dropWhile_cons_of_neg hdigit, hpoint, hmodifier, List.head?_cons, List.tail_cons,
    Bool.false_eq_true, if_false]

theorem extract_read (h : From format i (percent :: text)) :
    (extract format i : Checked σ (Nat × Directive)) =
      pure (format.length - (Spelling.read text).2.length, (Spelling.read text).1.directive) := by
  have hfirst := h.cons.getElem?
  have hlength := h.cons.length
  unfold extract
  dsimp only
  rw [hfirst]
  cases text with
  | nil =>
    have hend : min (i + 1) format.length = format.length := Nat.min_eq_right hlength.ge
    rw [List.head?_nil, hend]
    rfl
  | cons b rest =>
    dsimp only [List.head?_cons]
    split
    · next hb =>
      have hend : i + 2 = format.length - rest.length := by
        rw [List.length_cons] at hlength
        omega
      rw [hb, read_percent, ← hend]
      rfl
    · exact extractParts_eq h.cons

/-- A percent sign and what stands behind it, as a directive and the rest. -/
theorem From.source (h : From format i (percent :: text)) :
    From format i ((Spelling.read text).1.source ++ (Spelling.read text).2) := by
  rwa [Spelling.source, List.cons_append, Spelling.text_read]

/-- The directive at a percent sign is the reading of the text behind it, and it
ends where its own text ends. -/
theorem extract_eq (h : From format i (percent :: text)) :
    (extract format i : Checked σ (Nat × Directive)) =
      pure (i + (Spelling.read text).1.source.length, (Spelling.read text).1.directive) := by
  have hlength := h.source.length
  rw [List.length_append] at hlength
  have hend : format.length - (Spelling.read text).2.length =
      i + (Spelling.read text).1.source.length := by omega
  rw [extract_read h, hend]

end Checked
end PrintFormat
