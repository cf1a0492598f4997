import PrintFormat.Proofs.Conversion.Effects
import PrintFormat.Proofs.Render.Padding
import PrintFormat.Proofs.Render.Percent

/-!
Numbers in place of stars. A width can be written in a directive or taken from
the arguments by its star, and a precision as well. Both ways come to the same
measures (`Spelling.hasWidth_widthWritten`, `Spelling.hasWidth_widthStarred` and
those of the precision), and no conversion tells directives with the same
measures apart. So `Context.render_stars`: with the number written instead a
render delivers the same and ends the same way, and only counts its arguments
from one less.
-/
namespace PrintFormat

/-! ## Spellings -/

namespace Spelling

/-- The directive with a star for its width, behind its flags. -/
def widthStarred (s : Spelling) : Spelling :=
  { s with widthFlags := s.widthFlags ++ [42], widthDigits := [] }

/-- The directive with a number written for its width: the sign is a flag, and
zero is not written. -/
def widthWritten (s : Spelling) (n : Int) : Spelling :=
  { s with
    widthFlags := s.widthFlags ++ if n < 0 then [minus] else []
    widthDigits := if n = 0 then [] else natText n.natAbs }

/-- The directive with a star for its precision, behind flags. -/
def precisionStarred (s : Spelling) (flags : Bytes) : Spelling :=
  { s with precision := some (flags ++ [42], []) }

/-- The directive with a number written for its precision. A negative one is
none. -/
def precisionWritten (s : Spelling) (flags : Bytes) (n : Int) : Spelling :=
  { s with precision := if n < 0 then none else some (flags, natText n.natAbs) }

variable {s : Spelling} {flags : Bytes}

/-! ## Their measures -/

theorem hasWidth_widthStarred (s : Spelling) (w : Int64) :
    s.widthStarred.HasWidth [.int w]
      (if minus ∈ s.widthFlags then -(w.toInt.natAbs : Int) else w.toInt) := by
  have hflags : minus ∈ s.widthStarred.widthFlags ↔ minus ∈ s.widthFlags := by
    simp [widthStarred, minus]
  have h : s.widthStarred.HasWidth [.int w] _ :=
    .taken (n := w.toBitVec) (List.mem_append_right _ (List.mem_singleton_self _)) rfl
  simp only [hflags] at h
  exact h

theorem hasWidth_widthWritten (hstar : 42 ∉ s.widthFlags) (n : Int) :
    (s.widthWritten n).HasWidth [] (if minus ∈ s.widthFlags then -(n.natAbs : Int) else n) := by
  have hplain : 42 ∉ (s.widthWritten n).widthFlags := by
    simp only [widthWritten, List.mem_append, not_or]
    refine ⟨hstar, ?_⟩
    split <;> decide
  have hnumber : number (s.widthWritten n).widthDigits = n.natAbs := by
    simp only [widthWritten]
    split
    · next h =>
      rw [h]
      rfl
    · exact ofDigits_natText n.natAbs
  have hminus : minus ∈ (s.widthWritten n).widthFlags ↔ minus ∈ s.widthFlags ∨ n < 0 := by
    simp only [widthWritten, List.mem_append]
    refine or_congr_right ?_
    split <;> simp_all
  have hvalue : (if minus ∈ (s.widthWritten n).widthFlags then -(n.natAbs : Int) else n.natAbs) =
      if minus ∈ s.widthFlags then -(n.natAbs : Int) else n := by
    simp only [hminus]
    by_cases hleft : minus ∈ s.widthFlags
    · rw [if_pos (.inl hleft), if_pos hleft]
    · simp only [hleft, false_or, if_false]
      omega
  have h := HasWidth.written hplain
  rwa [hnumber, hvalue] at h

theorem hasPrecision_precisionStarred (s : Spelling) (flags : Bytes) (p : Int64) :
    (s.precisionStarred flags).HasPrecision [.int p]
      (if p.toInt < 0 then none else some p.toInt.toNat) :=
  .taken (n := p.toBitVec) rfl (List.mem_append_right _ (List.mem_singleton_self _)) rfl

theorem hasPrecision_precisionWritten (hstar : 42 ∉ flags) (n : Int) :
    (s.precisionWritten flags n).HasPrecision [] (if n < 0 then none else some n.toNat) := by
  by_cases hneg : n < 0
  · rw [if_pos hneg]
    exact .absent (if_pos hneg)
  · have hnumber := ofDigits_natText n.natAbs
    have h := HasPrecision.written (s := s.precisionWritten flags n) (if_neg hneg) hstar
    rw [hnumber, show n.natAbs = n.toNat by omega] at h
    rw [if_neg hneg]
    exact h

/-! ## What they say of everything else -/

theorem directive_widthStarred (s : Spelling) :
    s.widthStarred.directive = s.directive.withWidth s.widthStarred.directive.width := by
  refine directive_eq_of rfl (fun b hb => ?_) ?_
  · have hne : ∀ b ∈ ascii "+ #", b ≠ 42 := by decide +kernel
    simp [Spelling.flags, widthStarred, hne b hb]
  · simp [widthStarred, zero]

theorem directive_widthWritten (s : Spelling) (n : Int) :
    (s.widthWritten n).directive = s.directive.withWidth (s.widthWritten n).directive.width := by
  have hsign : ∀ b ∈ ascii "+ #0", b ∉ (if n < 0 then [minus] else []) := by
    split <;> decide +kernel
  refine directive_eq_of rfl (fun b hb => ?_) ?_
  · have hne := hsign b (List.mem_of_mem_dropLast hb)
    simp [Spelling.flags, widthWritten, hne]
  · simp [widthWritten, hsign zero (by decide)]

theorem directive_precisionStarred {n : Int} (hflags : n < 0 → flags = []) :
    (s.precisionStarred flags).directive =
      { (s.precisionWritten flags n).directive with
        precision := (s.precisionStarred flags).directive.precision } := by
  refine directive_eq_of (t := s.precisionStarred flags) rfl (fun b hb => ?_) Iff.rfl
  have hne : ∀ b ∈ ascii "+ #", b ≠ 42 := by decide +kernel
  by_cases hneg : n < 0
  · simp [Spelling.flags, precisionStarred, precisionWritten, hne b hb, hneg, hflags hneg]
  · simp [Spelling.flags, precisionStarred, precisionWritten, hne b hb, hneg]

/-! ## How they are read -/

/-- With a number for its width a directive is read as it is written, as with a
star. -/
theorem Recognized.read_widthWritten (hs : s.Recognized)
    (hread : read s.widthStarred.text = (s.widthStarred, [])) (n : Int) :
    read (s.widthWritten n).text = (s.widthWritten n, []) := by
  have hwell : s.widthStarred.WellFormed :=
    (Recognized.read_text_iff (s := s.widthStarred) hs).mp hread
  refine (Recognized.read_text_iff (s := s.widthWritten n) hs).mpr
    ⟨hwell.caret, fun b hb => ?_, fun b hb => ?_, fun hhead => ?_, hwell.precisionFlags,
      hwell.precisionDigits⟩
  · obtain hb | hb := List.mem_append.mp hb
    · exact hwell.widthFlags b (List.mem_append_left _ hb)
    · split at hb
      · obtain rfl := List.mem_singleton.mp hb
        decide
      · cases hb
  · simp only [widthWritten] at hb
    split at hb
    · cases hb
    · exact mem_natText hb
  · simp only [widthWritten] at hhead
    split at hhead
    · cases hhead
    · next hn => exact hn (Int.natAbs_eq_zero.mp (head?_natText hhead))

theorem Recognized.read_precisionWritten (hs : s.Recognized)
    (hread : read (s.precisionStarred flags).text = (s.precisionStarred flags, [])) (n : Int) :
    read (s.precisionWritten flags n).text = (s.precisionWritten flags n, []) := by
  have hwell : (s.precisionStarred flags).WellFormed :=
    (Recognized.read_text_iff (s := s.precisionStarred flags) hs).mp hread
  refine (Recognized.read_text_iff (s := s.precisionWritten flags n) hs).mpr
    ⟨hwell.caret, hwell.widthFlags, hwell.widthDigits, hwell.leadingDigit, ?_, ?_⟩
  · intro b hb
    simp only [precisionFlags, precisionWritten] at hb
    split at hb
    · cases hb
    · exact hwell.precisionFlags b (List.mem_append_left _ hb)
  · intro b hb
    simp only [precisionDigits, precisionWritten] at hb
    split at hb
    · cases hb
    · exact mem_natText hb

theorem HasWidth.congr {t : Spelling} {stars : List Arg} {width : Int} (h : s.HasWidth stars width)
    (hflags : t.widthFlags = s.widthFlags) (hdigits : t.widthDigits = s.widthDigits) :
    t.HasWidth stars width := by
  cases h with
  | written hstar =>
    rw [← hflags, ← hdigits] at *
    exact .written hstar
  | taken hstar harg =>
    rw [← hflags] at *
    exact .taken hstar harg

end Spelling

/-! ## Directives with the same measures -/

namespace Directive

variable {d e base : Directive} {w w' p p' : Measure} {width : Int}

/-- Measures that stand for the same numbers make no difference. -/
theorem alike_of_measures (hw : w.IsWidth width) (hw' : w'.IsWidth width)
    (hp : p.places? = p'.places?) :
    Alike { base with width := w, precision := p } { base with width := w', precision := p' } where
  width := hw.value.trans hw'.value.symm
  phoneDigits := by
    rw [Measure.IsWidth.phoneDigits (d := { base with width := w, precision := p }) hw,
      Measure.IsWidth.phoneDigits (d := { base with width := w', precision := p' }) hw']
  places? := hp
  zeroFill := rfl
  size := rfl
  sign := rfl
  alternate := rfl

/-- The width has no part in the star of the precision. -/
theorem starPrecision_withWidth (d : Directive) (w : Measure) :
    (d.withWidth w).starPrecision = do return (← d.starPrecision).withWidth w := by
  unfold starPrecision
  show (if d.precision.star then _ else _) = _
  split
  · simp only [bind_assoc, pure_bind]
    rfl
  · rfl

/-- Directives that come to the same width put out the same. -/
theorem output_eq_of_width {c c' rest : Cursor} (hd : d.starWidth c = .ok (base.withWidth w) rest)
    (he : e.starWidth c' = .ok (base.withWidth w') rest) (hw : w.IsWidth width)
    (hw' : w'.IsWidth width) (options : Options) (conversion : Conversion) :
    d.output options conversion c = e.output options conversion c' := by
  have htaken (d : Directive) :
      conversion.taken (d.withWidth w) options = conversion.taken (d.withWidth w') options :=
    conversion.taken_alike (alike_of_measures hw hw' rfl) options
  rw [output_eq, output_eq, resolved, resolved, bind_assoc, bind_assoc, Action.bind_ok hd,
    Action.bind_ok he, starPrecision_withWidth, starPrecision_withWidth]
  simp only [bind_assoc, pure_bind, htaken]

end Directive

/-! ## Counting on -/

/-- A render that leaves the same in its sink as another one and ends the same
way, with the arguments that errors name counted from a number on. -/
structure Rendered.Later (k : Nat) (r s : Rendered) : Prop where
  outcome : r.outcome = s.outcome.mapError (FormatError.later k)
  sink : r.sink = s.sink

theorem Context.render_later (context : Context) (sink : Sink) {format format' : Bytes}
    {args args' : List Arg} {options options' : Options} {k : Nat}
    (h : Transcript.ofFormat options format args =
      (Transcript.ofFormat options' format' args').later k) :
    (context.render sink format args options).Later k
      (context.render sink format' args' options') := by
  have hpieces : (Transcript.ofFormat options format args).pieces =
      (Transcript.ofFormat options' format' args').pieces := by
    rw [h]
    rfl
  have hverdict : (Transcript.ofFormat options format args).verdict =
      (Transcript.ofFormat options' format' args').verdict.mapError (FormatError.later k) := by
    rw [h]
    rfl
  cases hput : Sink.putAll (Transcript.ofFormat options format args).pieces sink with
  | ok _ s =>
    obtain ⟨ho, hs, -⟩ := context.render_delivered sink format args options hput
    rw [hpieces] at hput
    obtain ⟨ho', hs', -⟩ := context.render_delivered sink format' args' options' hput
    refine ⟨?_, hs.trans hs'.symm⟩
    rw [ho, ho', hverdict]
    cases (Transcript.ofFormat options' format' args').verdict <;> rfl
  | error e s =>
    obtain ⟨ho, hs⟩ := context.render_refused sink format args options hput
    rw [hpieces] at hput
    obtain ⟨ho', hs'⟩ := context.render_refused sink format' args' options' hput
    refine ⟨?_, hs.trans hs'.symm⟩
    rw [ho, ho']
    exact congrArg Except.error (FormatError.later_of_not (Sink.putAll_error hput) k).symm

/-- Formats of one directive each, whose output is the same but for the count of
arguments. -/
theorem Transcript.ofFormat_later {s t : Spelling} (hs : Spelling.read s.text = (s, []))
    (ht : Spelling.read t.text = (t, [])) {options : Options} {args args' : List Arg} {k : Nat}
    (h : (Segment.directive s).output options ⟨args, 0⟩ =
      laterResult k ((Segment.directive t).output options ⟨args', 0⟩)) :
    ofFormat options s.source args = (ofFormat options t.source args').later k := by
  rw [ofFormat, ofFormat, Spelling.source, Spelling.source, Segment.ofFormat_directive hs,
    Segment.ofFormat_directive ht]
  cases ho : (Segment.directive t).output options ⟨args', 0⟩ with
  | ok pieces c =>
    rw [ho] at h
    rw [ofSegments_cons_ok h, ofSegments_cons_ok ho]
    rfl
  | error e c =>
    rw [ho] at h
    rw [ofSegments_cons_error h, ofSegments_cons_error ho]
    rfl

/-! ## Output -/

namespace Segment
open Spelling
variable {s : Spelling} {flags : Bytes} {options : Options}

theorem output_widthStarred (hs : s.Recognized) (hstar : 42 ∉ s.widthFlags) (w : Int64)
    (args : List Arg) :
    (directive s.widthStarred).output options ⟨.int w :: args, 0⟩ =
      laterResult 1 ((directive (s.widthWritten w.toInt)).output options ⟨args, 0⟩) := by
  obtain ⟨c, hc⟩ := (recognized_iff s.widthStarred).mp hs
  have hc' : (s.widthWritten w.toInt).directive.conversion? = some c := by
    rw [← hc]
    rfl
  obtain ⟨m, hm, hdraw⟩ := (hasWidth_widthStarred s w).drawn
  obtain ⟨m', hm', hdraw'⟩ := (hasWidth_widthWritten hstar w.toInt).drawn
  have hd : s.widthStarred.directive.starWidth ⟨.int w :: args, 0⟩ =
      .ok (s.directive.withWidth m) ⟨args, 1⟩ := by
    have h := hdraw args 0
    rw [directive_widthStarred] at h ⊢
    exact h
  have he : (s.widthWritten w.toInt).directive.starWidth ⟨args, 1⟩ =
      .ok (s.directive.withWidth m') ⟨args, 1⟩ := by
    have h := hdraw' args 1
    rw [directive_widthWritten] at h ⊢
    exact h
  rw [output_converted hc, Directive.output_eq_of_width hd he hm hm', ← output_converted hc']
  exact (draws_output options _).inOrder.later 1 ⟨args, 0⟩

theorem output_precisionStarred (hs : s.Recognized) (hstar : 42 ∉ flags) {p : Int64}
    (hflags : p.toInt < 0 → flags = []) {front : List Arg} {width : Int}
    (hwidth : s.HasWidth front width) (args : List Arg) :
    (directive (s.precisionStarred flags)).output options ⟨front ++ .int p :: args, 0⟩ =
      laterResult 1
        ((directive (s.precisionWritten flags p.toInt)).output options ⟨front ++ args, 0⟩) := by
  obtain ⟨c, hc⟩ := (recognized_iff (s.precisionStarred flags)).mp hs
  have hc' : (s.precisionWritten flags p.toInt).directive.conversion? = some c := by
    rw [← hc]
    rfl
  obtain ⟨m, hm, hdraw⟩ := (hasPrecision_precisionStarred s flags p).drawn
  obtain ⟨m', hm', hdraw'⟩ := (hasPrecision_precisionWritten (s := s) hstar p.toInt).drawn
  have hw : (s.precisionStarred flags).HasWidth front width := hwidth.congr rfl rfl
  have hw' : (s.precisionWritten flags p.toInt).HasWidth front width := hwidth.congr rfl rfl
  obtain ⟨w, hwide, hresolved⟩ := resolved_of hw hdraw
  obtain ⟨w', hwide', hresolved'⟩ := resolved_of hw' hdraw'
  let base : Directive := (s.precisionWritten flags p.toInt).directive
  have hd : (s.precisionStarred flags).directive.resolved ⟨front ++ .int p :: args, 0⟩ =
      .ok { base with width := w, precision := m } (Cursor.later 1 ⟨args, front.length⟩) := by
    have h := hresolved args 0
    rw [directive_precisionStarred hflags] at h ⊢
    rw [Nat.zero_add, Nat.add_comm] at h
    exact h
  have he : base.resolved ⟨front ++ args, 0⟩ =
      .ok { base with width := w', precision := m' } ⟨args, front.length⟩ := by
    have h := hresolved' args 0
    rw [Nat.zero_add] at h
    exact h
  have halike : Directive.Alike { base with width := w, precision := m }
      { base with width := w', precision := m' } :=
    Directive.alike_of_measures hwide hwide' (hm.trans hm'.symm)
  rw [output_converted hc, output_converted hc', Directive.output_eq, Directive.output_eq,
    Action.bind_ok hd, Action.bind_ok he, c.taken_alike halike options]
  exact ((c.draws_taken _ options).map Field.pieces).inOrder.later 1 ⟨args, front.length⟩

/-- Without a number for the star of the width nothing else is looked at. -/
theorem output_widthless (hs : s.Recognized) (hstar : 42 ∈ s.widthFlags) {a : Arg}
    (ha : a.pattern? = none) (args : List Arg) :
    (directive s).output options ⟨a :: args, 0⟩ =
      .error (.argumentMismatch 0 .integer) ⟨a :: args, 0⟩ := by
  obtain ⟨c, hc⟩ := (recognized_iff s).mp hs
  have htake : Cursor.take .integer ⟨a :: args, 0⟩ =
      .error (.argumentMismatch 0 .integer) ⟨a :: args, 0⟩ := by
    simp only [Cursor.take, show Demand.integer.pick a = none from ha]
  have hwidth : s.directive.starWidth ⟨a :: args, 0⟩ =
      .error (.argumentMismatch 0 .integer) ⟨a :: args, 0⟩ := by
    rw [Directive.starWidth, if_pos (show s.directive.width.star = true from decide_eq_true hstar)]
    exact Action.bind_error htake
  rw [output_converted hc, Directive.output_eq]
  exact Action.bind_error (Action.bind_error hwidth)

end Segment

/-- A format of one directive that cannot be worked out. -/
theorem Transcript.ofFormat_error {s : Spelling} (hs : Spelling.read s.text = (s, []))
    (options : Options) {args : List Arg} {e : FormatError} {c : Cursor}
    (h : (Segment.directive s).output options ⟨args, 0⟩ = .error e c) :
    ofFormat options s.source args = ⟨[], .error e, c⟩ := by
  rw [ofFormat, Spelling.source, Segment.ofFormat_directive hs, ofSegments_cons_error h]

namespace Context

/-- A number can be written in a directive in place of a star that takes it from
the arguments. A render delivers the same then, and ends the same way, but that
it counts its arguments from one less. The width is written with its sign as a
flag, and zero not at all; a negative precision is left out with its point. -/
theorem render_stars (context : Context) (sink : Sink) (options : Options) {s : Spelling}
    (hs : s.Recognized) :
    (∀ (w : Int64) (args : List Arg), 42 ∉ s.widthFlags →
      Spelling.read s.widthStarred.text = (s.widthStarred, []) →
        let written := s.widthWritten w.toInt
        Spelling.read written.text = (written, []) ∧
          (context.render sink s.widthStarred.source (.int w :: args) options).Later 1
            (context.render sink written.source args options)) ∧
    ∀ (p : Int64) (flags : Bytes), 42 ∉ flags → (p.toInt < 0 → flags = []) →
      Spelling.read (s.precisionStarred flags).text = (s.precisionStarred flags, []) →
        let starred := s.precisionStarred flags
        let written := s.precisionWritten flags p.toInt
        Spelling.read written.text = (written, []) ∧
          (∀ front width args, s.HasWidth front width →
            (context.render sink starred.source (front ++ .int p :: args) options).Later 1
              (context.render sink written.source (front ++ args) options)) ∧
          ∀ a args, 42 ∈ s.widthFlags → a.pattern? = none →
            (context.render sink starred.source (a :: .int p :: args) options).Same
              (context.render sink written.source (a :: args) options) := by
  refine ⟨fun w args hstar hread => ?_, fun p flags hstar hflags hread => ?_⟩
  · have hwritten := hs.read_widthWritten hread w.toInt
    refine ⟨hwritten, context.render_later sink ?_⟩
    exact Transcript.ofFormat_later hread hwritten (Segment.output_widthStarred hs hstar w args)
  · have hwritten := hs.read_precisionWritten hread p.toInt
    refine ⟨hwritten, fun front width args hwidth => context.render_later sink ?_,
      fun a args hwidth ha => ?_⟩
    · exact Transcript.ofFormat_later hread hwritten
        (Segment.output_precisionStarred hs hstar hflags hwidth args)
    · have hfails := Transcript.ofFormat_error hread options
        (Segment.output_widthless (s := s.precisionStarred flags) hs hwidth ha (.int p :: args))
      have hfails' := Transcript.ofFormat_error hwritten options
        (Segment.output_widthless (s := s.precisionWritten flags p.toInt) hs hwidth ha args)
      exact context.render_same sink (by rw [hfails, hfails']) (by rw [hfails, hfails'])

/-- A telephone number with the least number of 64 bits for its width, and a
number without a precision, that is there or missing behind the two measures. -/
theorem render_stars_least :
    let s : Spelling := { bang := true, conversion := some 80 }
    let t : Spelling := { widthFlags := ascii "0*", conversion := some 100 }
    let ends (format : String) (args : List Arg) := Context.render {} .empty (ascii format) args {}
    s.Recognized ∧ t.Recognized ∧
      (ends "%!*P" [.int Int64.minValue, .uint 4930123456]).Later 1
        (ends "%!-9223372036854775808P" [.uint 4930123456]) ∧
      (ends "%!*P" [.int Int64.minValue, .uint 4930123456]).sink.contents =
        ascii "+004930123456" ∧
      (ends "%0*.*d" [.int 8, .int (-3), .int 42]).Later 1 (ends "%0*d" [.int 8, .int 42]) ∧
      (ends "%0*.*d" [.int 8, .int (-3), .int 42]).sink.contents = ascii "00000042" ∧
      (ends "%0*.*d" [.int 8, .int (-3)]).outcome = .error (.missingArgument 2) := by
  intro s t ends
  have hs : s.Recognized := by decide
  have ht : t.Recognized := by decide
  have hread : Spelling.read s.widthStarred.text = (s.widthStarred, []) := by decide +kernel
  have hread' : Spelling.read (t.precisionStarred []).text = (t.precisionStarred [], []) := by
    decide +kernel
  have hwidth : t.HasWidth [.int 8] 8 := .taken (n := 8) (by decide) rfl
  have hphone := ((render_stars {} .empty {} hs).1 Int64.minValue [.uint 4930123456] (by decide)
    hread).2
  have hnumber := ((render_stars {} .empty {} ht).2 (-3) [] (by decide) (fun _ => rfl) hread').2.1
    [.int 8] 8 [.int 42] hwidth
  have hsource : (s.widthWritten Int64.minValue.toInt).source =
      ascii "%!-9223372036854775808P" := by decide +kernel
  rw [hsource] at hphone
  refine ⟨hs, ht, hphone, ?_, hnumber, ?_, ?_⟩
  · show (Context.render {} .empty (ascii "%!*P") [.int Int64.minValue, .uint 4930123456]
      {}).sink.contents = _
    decide +kernel
  · show (Context.render {} .empty (ascii "%0*.*d") [.int 8, .int (-3), .int 42]
      {}).sink.contents = _
    cbv
  · show (Context.render {} .empty (ascii "%0*.*d") [.int 8, .int (-3)] {}).outcome = _
    cbv

end Context

end PrintFormat
