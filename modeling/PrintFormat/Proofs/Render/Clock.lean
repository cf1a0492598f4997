import PrintFormat.Proofs.Calendar.Reading
import PrintFormat.Proofs.Conversion.Padding
import PrintFormat.Proofs.Directive.Recognized
import PrintFormat.Proofs.Render.Integer

/-!
Clock times of seconds. `%!t` and `%!s` find the time of day by a remainder, on
the number as it stands; `%!T` and `%!S` show the time of day of a civil time,
which the calendar finds for a count of seconds. `Context.clock_of_seconds` says
that the two agree on every sink for each number that a calendar can be asked
for, and that on a clock of 24 hours the fields read back to the time of day.
-/
namespace PrintFormat

/-! ## Directives -/

namespace Spelling

variable (s : Spelling)

/-- A directive that shows the time of day of a count of seconds. -/
structure IsClock : Prop where
  bang : s.bang = true
  conversion : s.IsOneOf "ts"

/-- The directive that shows a civil time instead: `T` for `t`, and `S` for `s`. -/
def ofTime : Spelling :=
  { s with conversion := (ascii (if s.IsOneOf "t" then "T" else "S")).head? }

/-- The clock has twelve hours. -/
def ShowsTwelve : Prop := s.caret = true ∨ 35 ∈ s.flags

end Spelling

/-! ## Texts -/

/-- A text brought to a width by blanks, in front or, for a negative width,
behind. -/
def blanked (width : Int) (text : Bytes) : Bytes :=
  let length := min width.natAbs 4096
  if 0 ≤ width then text.leftpad length blank else text.rightpad length blank

/-- The numbers that a clock shows, each a numeral between colons. -/
def clockFields? (text : Bytes) : Option (List Nat) :=
  (Text.split (· = ':') (chars text)).mapM (readDigits? 10)

theorem clockFields?_separated {ns : List UInt8} (hne : ns ≠ []) :
    clockFields? (separated (ascii ":") (ns.map twoDigits)) = some (ns.map UInt8.toNat) := by
  have hmark : ∀ text ∈ ns.map twoDigits, ∀ c ∈ chars text, decide (c = ':') = false := by
    intro text htext
    obtain ⟨n, -, rfl⟩ := List.mem_map.mp htext
    exact CivilTime.not_separator ':' (readDigits?_twoDigits n) rfl
  have hsplit := Text.split_separated 58 rfl (mt List.map_eq_nil_iff.mp hne) hmark
  rw [clockFields?, show ascii ":" = [58] from rfl, hsplit, List.map_map, List.mapM_map]
  clear hmark hsplit hne
  induction ns with
  | nil => rfl
  | cons n ns ih =>
    rw [List.mapM_cons, ih, Function.comp_apply, Function.comp_apply, readDigits?_twoDigits]
    rfl

namespace CivilTime

/-- The numbers that a clock shows, to the minute or to the second. -/
def clockNumbers (t : CivilTime) (seconds : Bool) : List UInt8 :=
  if seconds then [t.hour, t.minute, t.second] else [t.hour, t.minute]

theorem clockText_eq (t : CivilTime) (seconds : Bool) :
    t.clockText seconds false = separated (ascii ":") ((t.clockNumbers seconds).map twoDigits) := by
  cases seconds <;> simp [clockText, clockNumbers, separated]

/-- A clock of seconds since 1970 shows the seconds of the day. -/
theorem clock_ofUnixSeconds (n : Nat) :
    (ofUnixSeconds n).hour.toNat = n % daySeconds / 3600 ∧
      (ofUnixSeconds n).minute.toNat = n % daySeconds / 60 % 60 ∧
      (ofUnixSeconds n).second.toNat = n % daySeconds % 60 := by
  have hrest : ((n : Int) % daySeconds).toNat = n % daySeconds := by omega
  have hday : n % daySeconds < 86400 := Nat.mod_lt n (by decide)
  simp only [ofUnixSeconds, hrest, Nat.toUInt8_eq]
  refine ⟨UInt8.toNat_ofNat_of_lt' ?_, UInt8.toNat_ofNat_of_lt' ?_, UInt8.toNat_ofNat_of_lt' ?_⟩ <;>
    (rw [UInt8.size]; omega)

/-- The remainder of a number shows what the calendar finds for it. -/
theorem clockText_timeOfDay {n : Nat} (hn : n < 2 ^ 63) (seconds twelve : Bool) :
    (timeOfDay (BitVec.ofInt 64 n)).clockText seconds twelve =
      (ofUnixSeconds n).clockText seconds twelve := by
  have hvalue : (BitVec.ofInt 64 n).toNat = n := by
    rw [BitVec.ofInt_natCast, BitVec.toNat_ofNat, Nat.mod_eq_of_lt (by omega)]
  have hrest : ((n : Int) % daySeconds).toNat = n % daySeconds := by omega
  simp only [timeOfDay, ofSecondsOfDay, ofUnixSeconds, hvalue, hrest, Nat.mod_mod, clockText,
    twelveHour]

/-- On a clock of 24 hours the time of day is read back. -/
theorem clockText_readsBack (n : Nat) (seconds : Bool) :
    let text := (ofUnixSeconds n).clockText seconds false
    ∃ fields, clockFields? text = some fields ∧ text.length + 1 = 3 * fields.length ∧
      fields.length = (if seconds then 3 else 2) ∧ (∀ field ∈ fields.tail, field < 60) ∧
      ofDigits 60 fields = n % daySeconds / (if seconds then 1 else 60) := by
  intro text
  obtain ⟨hhour, hminute, hsecond⟩ := clock_ofUnixSeconds n
  have hday : n % daySeconds < 86400 := Nat.mod_lt n (by decide)
  have two {field : UInt8} (h : field.toNat < 100) : (twoDigits field).length = 2 := by
    rw [length_twoDigits, if_pos h]
  have hlength := two (show (ofUnixSeconds n).hour.toNat < 100 by omega)
  have hlength' := two (show (ofUnixSeconds n).minute.toNat < 100 by omega)
  have hlength'' := two (show (ofUnixSeconds n).second.toNat < 100 by omega)
  have htext : text = _ := clockText_eq _ seconds
  refine ⟨((ofUnixSeconds n).clockNumbers seconds).map UInt8.toNat, ?_⟩
  rw [htext, clockFields?_separated (by cases seconds <;> exact List.cons_ne_nil _ _)]
  have hcolon : (ascii ":").length = 1 := rfl
  cases seconds <;>
    simp [clockNumbers, separated, hlength, hlength', hlength'', hcolon, hhour, hminute, hsecond,
      ofDigits] <;>
    omega

end CivilTime

/-! ## Fields -/

/-- A directive that composes a text puts it out, brought to the width that it
has. Its precision is taken but does not count. -/
theorem Segment.output_composed {s : Spelling} {widthStars stars : List Arg} {width : Int}
    {precision : Option Nat} (hwidth : s.HasWidth widthStars width)
    (hprecision : s.HasPrecision stars precision) {c : Extended}
    (hc : s.directive.conversion? = some (.extended c)) {arg : Arg} {v : c.demand.Value}
    (hpick : c.demand.pick arg = some v) {options : Options} {text : Bool → Bytes}
    (hcompose : ∀ d, c.compose d options v = composeText d (text d.alternate))
    (hlength : ∀ alternate, (text alternate).length ≤ scratchCapacity) (more : List Arg) :
    (directive s).output options ⟨widthStars ++ (stars ++ arg :: more), 0⟩ =
      .ok (Field.pieces { body := text s.directive.alternate, width := clampMeasure width })
        ⟨more, 0 + widthStars.length + stars.length + 1⟩ := by
  obtain ⟨p, -, hdrawn⟩ := hprecision.drawn
  obtain ⟨w, hw, hresolved⟩ := Spelling.resolved_of hwidth hdrawn
  let d : Directive := { s.directive with width := w, precision := p }
  have hfield := (congrFun (hcompose d) .empty).trans (composeText_ok (hlength d.alternate))
  rw [output_converted hc, Directive.output_eq, Action.bind_ok (hresolved (arg :: more) 0),
    Action.bind_ok (Conversion.taken_extended hpick hfield more _), ← hw.value]
  rfl

/-- A field without filling by zeros is its text brought to its width. -/
theorem Field.text_blanked (text : Bytes) (width : Int) :
    (Field.pieces { body := text, width := clampMeasure width }).flatMap Piece.text =
      blanked width text := by
  rw [Field.text_pieces, if_neg nofun]
  simp only [min_natAbs_clampMeasure, clampMeasure_nonneg_iff, blanked]

/-! ## Directives of times -/

namespace Spelling

variable {s : Spelling} {stars : List Arg} {width : Int} {precision : Option Nat}

theorem HasWidth.ofTime (h : s.HasWidth stars width) : s.ofTime.HasWidth stars width := by
  cases h with
  | written hstar => exact .written hstar
  | taken hstar harg => exact .taken hstar harg

theorem HasPrecision.ofTime (h : s.HasPrecision stars precision) :
    s.ofTime.HasPrecision stars precision := by
  cases h with
  | absent hnone => exact .absent hnone
  | written hsome hstar => exact .written hsome hstar
  | taken hsome hstar harg => exact .taken hsome hstar harg

/-- The conversions of a directive of seconds and of the one of times. -/
theorem IsClock.conversions (hs : s.IsClock) :
    (s.IsOneOf "t" ∧ s.directive.conversion? = some (.extended .clockOfSeconds) ∧
      s.ofTime.directive.conversion? = some (.extended .clock)) ∨
    (¬s.IsOneOf "t" ∧ s.directive.conversion? = some (.extended .shortClockOfSeconds) ∧
      s.ofTime.directive.conversion? = some (.extended .shortClock)) := by
  obtain ⟨b, hb, hconversion⟩ := hs.conversion
  change b ∈ [116, 115] at hb
  have hkind : s.IsOneOf "t" ↔ b ∈ ascii "t" := isOneOf_iff hconversion
  simp only [List.mem_cons, List.not_mem_nil, or_false] at hb
  obtain rfl | rfl := hb
  · have ht : s.IsOneOf "t" := hkind.mpr (by decide)
    refine .inl ⟨ht, conversion?_of_extended hs.bang hconversion rfl,
      conversion?_of_extended (b := 84) hs.bang ?_ rfl⟩
    rw [ofTime, if_pos ht]
    rfl
  · have ht : ¬s.IsOneOf "t" := mt hkind.mp (by decide)
    refine .inr ⟨ht, conversion?_of_extended hs.bang hconversion rfl,
      conversion?_of_extended (b := 83) hs.bang ?_ rfl⟩
    rw [ofTime, if_neg ht]
    rfl

theorem read_ofTime {written g : Bytes} (hread : read written = (s, g)) (hs : s.IsClock) :
    read (s.ofTime.text ++ g) = (s.ofTime, g) := by
  obtain ⟨-, hgreedy⟩ := (read_iff s written g).mp hread
  have hrecognized : s.ofTime.Recognized := by
    rw [recognized_iff]
    obtain ⟨-, -, hc⟩ | ⟨-, -, hc⟩ := hs.conversions <;> exact ⟨_, hc⟩
  obtain ⟨hcaret, hflags, hdigits, hleading, hpflags, hpdigits⟩ := hgreedy.wellFormed
  have hformed : s.ofTime.WellFormed := ⟨hcaret, hflags, hdigits, hleading, hpflags, hpdigits⟩
  exact (read_iff _ _ g).mpr ⟨rfl, hformed.greedy hrecognized g⟩

/-- A directive of seconds and the one of times put the same text out. -/
theorem IsClock.outputs (hs : s.IsClock) {widthStars : List Arg}
    (hwidth : s.HasWidth widthStars width) (hprecision : s.HasPrecision stars precision)
    {arg : Arg} {n : Nat} (harg : arg.integer? = some (n : Int)) (hn : n < 2 ^ 63)
    (options : Options) (more : List Arg) :
    let time := CivilTime.ofUnixSeconds n
    let text := time.clockText (decide (s.IsOneOf "t")) s.directive.alternate
    let out := EStateM.Result.ok (Field.pieces { body := text, width := clampMeasure width })
      (⟨more, 0 + widthStars.length + stars.length + 1⟩ : Cursor)
    (Segment.directive s).output options ⟨widthStars ++ (stars ++ arg :: more), 0⟩ = out ∧
      (Segment.directive s.ofTime).output options
        ⟨widthStars ++ (stars ++ .time time :: more), 0⟩ = out := by
  intro time text out
  have hroom (seconds twelve : Bool) : (time.clockText seconds twelve).length ≤ scratchCapacity :=
    Nat.le_trans (time.length_clockText_le seconds twelve) (by decide)
  have hpick := Arg.pattern?_of_integer? harg
  obtain ⟨ht, hc, hc'⟩ | ⟨ht, hc, hc'⟩ := hs.conversions
  · have htext : text = time.clockText true s.directive.alternate := by
      simp only [text, ht, decide_true]
    simp only [out, htext]
    constructor
    · refine Segment.output_composed hwidth hprecision hc hpick (fun d => ?_) (hroom true) more
      rw [Extended.compose, CivilTime.clockText_timeOfDay hn]
    · exact Segment.output_composed hwidth.ofTime hprecision.ofTime hc' rfl (fun d => rfl)
        (hroom true) more
  · have htext : text = time.clockText false s.directive.alternate := by
      simp only [text, ht, decide_false]
    simp only [out, htext]
    constructor
    · refine Segment.output_composed hwidth hprecision hc hpick (fun d => ?_) (hroom false) more
      rw [Extended.compose, CivilTime.clockText_timeOfDay hn]
    · exact Segment.output_composed hwidth.ofTime hprecision.ofTime hc' rfl (fun d => rfl)
        (hroom false) more

end Spelling

/-! ## Renders -/

namespace Context

variable {written g : Bytes} {s : Spelling} {widthStars stars : List Arg} {width : Int}
  {precision : Option Nat} {arg : Arg} {n : Nat}

/-- A number of seconds below 2^63 shown as a time of day, in front of any rest of
a format: on every sink the render is the one of the directive of times with the
civil time of these seconds, and on a clock of 24 hours what is delivered are the
fields of the time of day, to the second for `%!t` and to the minute for `%!s`,
brought to the width by blanks. -/
theorem clock_of_seconds (hread : Spelling.read written = (s, g)) (hs : s.IsClock)
    (hwidth : s.HasWidth widthStars width) (hprecision : s.HasPrecision stars precision)
    (harg : arg.integer? = some (n : Int)) (hn : n < 2 ^ 63) (context : Context)
    (options : Options) (more : List Arg) :
    let args := widthStars ++ (stars ++ arg :: more)
    let timed := widthStars ++ (stars ++ .time (.ofUnixSeconds n) :: more)
    Spelling.read (s.ofTime.text ++ g) = (s.ofTime, g) ∧
    (∀ sink, (context.render sink (percent :: written) args options).Same
      (context.render sink (s.ofTime.source ++ g) timed options)) ∧
    (¬s.ShowsTwelve → ∃ text fields,
      (∀ held, context.deliver held (percent :: written) args options =
        Delivery.followedBy ⟨.ok (blanked width text).length, blanked width text,
          widthStars.length + stars.length + 1⟩ (context.deliver held g more options)) ∧
      clockFields? text = some fields ∧ text.length + 1 = 3 * fields.length ∧
      fields.length = (if s.IsOneOf "t" then 3 else 2) ∧ (∀ field ∈ fields.tail, field < 60) ∧
      ofDigits 60 fields = n % daySeconds / (if s.IsOneOf "t" then 1 else 60)) := by
  intro args timed
  obtain ⟨houtput, houtput'⟩ := hs.outputs hwidth hprecision harg hn options more
  have hread' := Spelling.read_ofTime hread hs
  refine ⟨hread', fun sink => ?_, fun htwelve => ?_⟩
  · have htranscript : Transcript.ofFormat options (percent :: written) args =
        Transcript.ofFormat options (s.ofTime.source ++ g) timed := by
      rw [Transcript.ofFormat, Transcript.ofFormat, Spelling.source, List.cons_append,
        Segment.ofFormat_percent, Segment.ofFormat_percent, hread, hread',
        Transcript.ofSegments_cons_ok houtput, Transcript.ofSegments_cons_ok houtput']
    exact render_same context sink (congrArg _ htranscript) (congrArg _ htranscript)
  · have halternate : s.directive.alternate = false := by
      simpa [Spelling.directive, Spelling.ShowsTwelve] using htwelve
    obtain ⟨fields, hback, hlength, hfields⟩ :=
      CivilTime.clockText_readsBack n (decide (s.IsOneOf "t"))
    refine ⟨_, fields, fun held => ?_, hback, hlength, by simpa using hfields⟩
    have hdeliver := deliver_taken hread houtput context held
    rwa [Field.text_blanked, halternate] at hdeliver

/-- One second, minute and hour into a day, in a width by a star. -/
theorem clock_of_seconds_star :
    let s : Spelling :=
      { bang := true, widthFlags := ascii "*", precision := some ([], ascii "3"),
        conversion := some 116 }
    Spelling.read (ascii "!*.3t|") = (s, ascii "|") ∧ s.IsClock ∧ s.HasWidth [.int 10] 10 ∧
      s.HasPrecision [] (some 3) ∧ Arg.integer? (.uint 90061) = some (90061 : Nat) ∧
      (90061 : Nat) < 2 ^ 63 ∧ ¬s.ShowsTwelve ∧
      s.ofTime.source = ascii "%!*.3T" ∧
      (∀ sink, (Context.render {} sink (ascii "%!*.3t|") [.int 10, .uint 90061] {}).Same
        (Context.render {} sink (ascii "%!*.3T|")
          [.int 10, .time (.ofUnixSeconds (90061 : Nat))] {})) ∧
      Context.deliver {} #[] (ascii "%!*.3t|") [.int 10, .uint 90061] {} =
        ⟨.ok 11, ascii "  01:01:01|", 2⟩ := by
  intro s
  have hread : Spelling.read (ascii "!*.3t|") = (s, ascii "|") := by cbv
  have hs : s.IsClock := ⟨rfl, by decide⟩
  have hwidth : s.HasWidth [.int 10] 10 := .taken (n := 10) (by decide) rfl
  have hprecision : s.HasPrecision [] (some 3) :=
    @Spelling.HasPrecision.written s [] (ascii "3") rfl (by decide)
  have harg : Arg.integer? (.uint 90061) = some ((90061 : Nat) : Int) := rfl
  have hn : (90061 : Nat) < 2 ^ 63 := by decide
  have htwelve : ¬s.ShowsTwelve := by
    rintro (h | h)
    · cases h
    · exact absurd h (by decide)
  have hsource : s.ofTime.source = ascii "%!*.3T" := by decide
  obtain ⟨-, hsame, -⟩ := clock_of_seconds hread hs hwidth hprecision harg hn {} {} []
  rw [hsource] at hsame
  exact ⟨hread, hs, hwidth, hprecision, harg, hn, htwelve, hsource, hsame, by cbv⟩

/-- No caret, but the flag `#`: the start of a day is shown as hour 12, and the
fields are not those of the time of day. -/
theorem clock_twelve_hours :
    let s : Spelling := { bang := true, widthFlags := ascii "#", conversion := some 116 }
    let d := Context.deliver {} #[] (ascii "%!#t") [.int 0] {}
    Spelling.read (ascii "!#t") = (s, []) ∧ s.IsClock ∧ s.caret = false ∧ s.ShowsTwelve ∧
      Arg.integer? (.int 0) = some (0 : Nat) ∧
      d = ⟨.ok 11, ascii "12:00:00 AM", 1⟩ ∧ clockFields? (d.bytes.take 8) = some [12, 0, 0] ∧
      ofDigits 60 [12, 0, 0] ≠ 0 % daySeconds := by
  have hread : Spelling.read (ascii "!#t") =
      ({ bang := true, widthFlags := ascii "#", conversion := some 116 }, []) := by cbv
  have hd : Context.deliver {} #[] (ascii "%!#t") [.int 0] {} =
      ⟨.ok 11, ascii "12:00:00 AM", 1⟩ := by cbv
  refine ⟨hread, ⟨rfl, by decide⟩, rfl, .inr (by decide), rfl, hd, ?_, by decide⟩
  rw [hd]
  decide

end Context

end PrintFormat
