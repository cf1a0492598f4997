import PrintFormat.Fixture.Argument
import PrintFormat.Proofs.Journal.Timestamp

/-!
Which texts are times. `CivilTime.WrittenAs` is the grammar: a date of three
numerals with hyphens, and behind a `T` a time of day of three numerals with
colons or nothing at all. `read?_eq_some_iff` says that the texts that are read
are those of the grammar whose month and day are in range. Hour, minute and
second are not looked at, and `Fixture.time_acceptance` says what this means for
the timestamp of a time that a fixture gives.
-/
namespace PrintFormat

/-- Three numerals with a mark between. -/
def IsTriple (mark : Char) (cs : List Char) (a b c : Nat) : Prop :=
  ∃ first second third, cs = first ++ mark :: (second ++ mark :: third) ∧
    IsNumeral first a ∧ IsNumeral second b ∧ IsNumeral third c

/-- The mark of a triple is neither a digit nor a sign of a numeral. -/
structure IsMark (mark : Char) : Prop where
  digit : mark.isDigit = false
  plus : mark ≠ '+'

/-- A triple is what three numerals are cut out of. -/
theorem isTriple_iff {mark : Char} (hmark : IsMark mark) {cs : List Char} {a b c : Nat} :
    IsTriple mark cs a b c ↔
      ∃ first second third, Text.cutThree? (· = mark) cs = some (first, second, third) ∧
        IsNumeral first a ∧ IsNumeral second b ∧ IsNumeral third c := by
  simp only [IsTriple, Text.cutThree?_mark_iff]
  refine exists₃_congr fun first second third => ?_
  constructor
  · rintro ⟨hcs, ha, hb, hc⟩
    exact ⟨⟨hcs, ha.not_mem hmark.digit hmark.plus, hb.not_mem hmark.digit hmark.plus⟩, ha, hb, hc⟩
  · rintro ⟨⟨hcs, -, -⟩, ha, hb, hc⟩
    exact ⟨hcs, ha, hb, hc⟩

/-- Other marks are not within a triple. -/
theorem IsTriple.not_mem {mark : Char} {cs : List Char} {a b c : Nat} (h : IsTriple mark cs a b c)
    {other : Char} (hother : IsMark other) (hne : other ≠ mark) : other ∉ cs := by
  obtain ⟨first, second, third, rfl, ha, hb, hc⟩ := h
  have hfirst := ha.not_mem hother.digit hother.plus
  have hsecond := hb.not_mem hother.digit hother.plus
  have hthird := hc.not_mem hother.digit hother.plus
  simp [hfirst, hsecond, hthird, hne]

namespace CivilTime

theorem readDate?_iff {cs : List Char} {year : Int} {month day : UInt8} :
    readDate? cs = some (year, month, day) ↔
      0 ≤ year ∧ year < 2 ^ 31 ∧ IsTriple '-' cs year.natAbs month.toNat day.toNat := by
  rw [isTriple_iff ⟨rfl, by decide⟩]
  simp only [readDate?, Option.bind_eq_bind, Option.bind_eq_some_iff, Option.pure_def,
    Option.some.injEq, Prod.mk.injEq, readByte?_ten_iff]
  constructor
  · rintro ⟨⟨first, second, third⟩, hcut, n, hyear, m, hm, d, hd, rfl, rfl, rfl⟩
    have hminus := (Text.cutThree?_mark_iff.mp hcut).2.1
    obtain ⟨hnonneg, hlt, hnumeral⟩ := (readInt?_iff hminus).mp hyear
    exact ⟨hnonneg, hlt, first, second, third, hcut, hnumeral, hm, hd⟩
  · rintro ⟨hnonneg, hlt, first, second, third, hcut, hy, hm, hd⟩
    have hminus := (Text.cutThree?_mark_iff.mp hcut).2.1
    exact ⟨⟨first, second, third⟩, hcut, year, (readInt?_iff hminus).mpr ⟨hnonneg, hlt, hy⟩,
      month, hm, day, hd, rfl, rfl, rfl⟩

theorem readClock?_iff {cs : List Char} {hour minute second : UInt8} :
    readClock? cs = some (hour, minute, second) ↔
      IsTriple ':' cs hour.toNat minute.toNat second.toNat := by
  rw [isTriple_iff ⟨rfl, by decide⟩]
  simp only [readClock?, Option.bind_eq_bind, Option.bind_eq_some_iff, Option.pure_def,
    Option.some.injEq, Prod.mk.injEq, readByte?_ten_iff]
  constructor
  · rintro ⟨⟨first, second, third⟩, hcut, h, hh, m, hm, s, hs, rfl, rfl, rfl⟩
    exact ⟨first, second, third, hcut, hh, hm, hs⟩
  · rintro ⟨first, middle, last, hcut, hh, hm, hs⟩
    exact ⟨⟨first, middle, last⟩, hcut, hour, hh, minute, hm, second, hs, rfl, rfl, rfl⟩

/-- A text that writes a time: a date of three numerals, and a time of day of three
numerals behind a `T`, or nothing for the start of the day. -/
def WrittenAs (t : CivilTime) (text : String) : Prop :=
  ∃ date, IsTriple '-' date t.year.toInt.natAbs t.month.toNat t.day.toNat ∧
    (text.toList = date ∧ t.hour = 0 ∧ t.minute = 0 ∧ t.second = 0 ∨
      ∃ clock, text.toList = date ++ 'T' :: clock ∧
        IsTriple ':' clock t.hour.toNat t.minute.toNat t.second.toNat)

/-- The fields of a date that are in range. -/
structure HasDate (t : CivilTime) : Prop where
  year : 0 ≤ t.year.toInt
  month : 1 ≤ t.month.toNat ∧ t.month.toNat ≤ 12
  day : 1 ≤ t.day.toNat ∧ t.day.toNat ≤ 31

/-- The fields of a time in the ranges that they have in a calendar, a leap second
included. -/
structure WithinRanges (t : CivilTime) : Prop where
  month : 1 ≤ t.month.toNat ∧ t.month.toNat ≤ 12
  day : 1 ≤ t.day.toNat ∧ t.day.toNat ≤ 31
  hour : t.hour.toNat ≤ 23
  minute : t.minute.toNat ≤ 59
  second : t.second.toNat ≤ 60

theorem HasDate.withinRanges_iff {t : CivilTime} (h : t.HasDate) :
    t.WithinRanges ↔ t.hour.toNat ≤ 23 ∧ t.minute.toNat ≤ 59 ∧ t.second.toNat ≤ 60 :=
  ⟨fun hrange => ⟨hrange.hour, hrange.minute, hrange.second⟩,
    fun hclock => ⟨h.month, h.day, hclock.1, hclock.2.1, hclock.2.2⟩⟩

theorem readClock?_midnight : readClock? "00:00:00".toList = some (0, 0, 0) := by decide

/-- A text is read as a time if it writes it and the date is in range. -/
theorem read?_eq_some_iff {text : String} {t : CivilTime} :
    read? text = some t ↔ t.WrittenAs text ∧ t.HasDate := by
  have hmark : IsMark 'T' := ⟨rfl, by decide⟩
  constructor
  · intro h
    obtain ⟨htext, -⟩ := Text.cut_mark 'T' text.toList
    generalize hcut : Text.cut (· = 'T') text.toList = parts at htext
    obtain ⟨date, back⟩ := parts
    simp only [read?, hcut, Option.bind_eq_bind, Option.bind_eq_some_iff, Prod.exists] at h
    obtain ⟨year, month, day, hdate, hour, minute, second, hclock, h⟩ := h
    split at h
    · next hrange =>
      cases h
      obtain ⟨hnonneg, hlt, htriple⟩ := readDate?_iff.mp hdate
      have hyear : (Int32.ofInt year).toInt = year :=
        Int32.toInt_ofInt_of_le (by omega) (by omega)
      refine ⟨⟨date, by rwa [hyear], ?_⟩, by rwa [hyear], ⟨hrange.1, hrange.2.1⟩, hrange.2.2⟩
      cases back with
      | none =>
        obtain ⟨rfl, rfl, rfl⟩ : 0 = hour ∧ 0 = minute ∧ 0 = second := by
          rw [Option.getD_none, readClock?_midnight] at hclock
          simpa using hclock
        exact .inl ⟨by simpa using htext, rfl, rfl, rfl⟩
      | some clock => exact .inr ⟨clock, htext, readClock?_iff.mp hclock⟩
    · cases h
  · rintro ⟨⟨date, hdate, hclock⟩, hyear, hmonth, hday⟩
    have hfree := Text.no_mark (hdate.not_mem hmark (by decide))
    have hread := readDate?_iff.mpr ⟨hyear, t.year.toInt_lt, hdate⟩
    have hrange : 1 ≤ t.month ∧ t.month ≤ 12 ∧ 1 ≤ t.day ∧ t.day ≤ 31 := ⟨hmonth.1, hmonth.2, hday⟩
    obtain ⟨htext, hhour, hminute, hsecond⟩ | ⟨clock, htext, htriple⟩ := hclock
    · have hmidnight : readClock? "00:00:00".toList = some (t.hour, t.minute, t.second) := by
        rw [hhour, hminute, hsecond, readClock?_midnight]
      rw [read?, htext, Text.cut_of_none hfree]
      simp only [hread, Option.getD_none, hmidnight, Option.bind_eq_bind, Option.bind_some]
      rw [if_pos hrange, Int32.ofInt_toInt]
    · rw [read?, htext, Text.cut_append hfree (decide_eq_true rfl)]
      simp only [hread, Option.getD_some, readClock?_iff.mpr htriple, Option.bind_eq_bind,
        Option.bind_some]
      rw [if_pos hrange, Int32.ofInt_toInt]

end CivilTime

namespace Fixture

theorem toArg_time_iff {text : String} {t : CivilTime} :
    (Argument.time text).toArg = .ok (.time t) ↔ CivilTime.read? text = some t := by
  simp only [Argument.toArg]
  cases CivilTime.read? text with
  | none => simp
  | some v => simp

/-- A fixture's text is a time exactly if it is written as one and has year, month
and day in range. These are the only fields that are looked at: every time with
such a date has a text, whatever its hour, minute and second are. What is read is
in range exactly if these three are, and its timestamp passes the validator
exactly if the year has no more than four digits and the three no more than two. -/
theorem time_acceptance (text : String) (t : CivilTime) (options : Options) :
    ((Argument.time text).toArg = .ok (.time t) ↔ t.WrittenAs text ∧ t.HasDate) ∧
    ((∃ other, (Argument.time other).toArg = .ok (.time t)) ↔ t.HasDate) ∧
    ((Argument.time text).toArg = .ok (.time t) →
      (t.WithinRanges ↔ t.hour.toNat ≤ 23 ∧ t.minute.toNat ≤ 59 ∧ t.second.toNat ≤ 60) ∧
      ∃ bytes, formatBytes (ascii "%!Z") [.time t] options = .ok bytes ∧
        (Journal.isTimestamp (Text.decodeLossy bytes) = true ↔
          t.year.toInt ≤ 9999 ∧ t.hour.toNat < 100 ∧ t.minute.toNat < 100 ∧
            t.second.toNat < 100)) := by
  have hread (text : String) :
      (Argument.time text).toArg = .ok (.time t) ↔ t.WrittenAs text ∧ t.HasDate :=
    toArg_time_iff.trans CivilTime.read?_eq_some_iff
  refine ⟨hread text, ?_, fun h => ?_⟩
  · constructor
    · rintro ⟨other, h⟩
      exact ((hread other).mp h).2
    · intro h
      exact ⟨_, toArg_time_iff.mpr (t.read?_stamp h.year h.month h.day)⟩
  · have hdate := ((hread text).mp h).2
    refine ⟨hdate.withinRanges_iff, _, formatBytes_utc t options, ?_⟩
    rw [Journal.isTimestamp_utcText_iff]
    obtain ⟨hyear, hmonth, hday⟩ := hdate
    constructor
    · rintro ⟨hfour, -, -, hhour, hminute, hsecond⟩
      exact ⟨hfour.2, hhour, hminute, hsecond⟩
    · rintro ⟨hfour, hhour, hminute, hsecond⟩
      exact ⟨⟨hyear, hfour⟩, by omega, by omega, hhour, hminute, hsecond⟩

/-- A day that its month does not have, a leap second, and a plus sign and zeros in
front of the numbers. -/
theorem time_acceptance_leap_second :
    let text := "2024-02-31T+7:005:60"
    let t : CivilTime := ⟨2024, 2, 31, 7, 5, 60⟩
    (Argument.time text).toArg = .ok (.time t) ∧ t.WrittenAs text ∧ t.HasDate ∧ t.WithinRanges ∧
      ∃ bytes, formatBytes (ascii "%!Z") [.time t] {} = .ok bytes ∧
        Journal.isTimestamp (Text.decodeLossy bytes) = true := by
  intro text t
  have hread : (Argument.time text).toArg = .ok (.time t) :=
    toArg_time_iff.mpr (by decide +kernel)
  obtain ⟨hwritten, -, hstamp⟩ := time_acceptance text t {}
  obtain ⟨hwrites, hdate⟩ := hwritten.mp hread
  obtain ⟨hrange, bytes, hbytes, htimestamp⟩ := hstamp hread
  exact ⟨hread, hwrites, hdate, hrange.mpr (by decide), bytes, hbytes, htimestamp.mpr (by decide)⟩

/-- An hour of three digits is read like any other, and the timestamp that it ends
up in is refused. -/
theorem time_acceptance_long_hour :
    let t : CivilTime := ⟨2024, 1, 1, 100, 0, 0⟩
    (Argument.time "2024-01-01T100:00:00").toArg = .ok (.time t) ∧ ¬t.WithinRanges ∧
      t.HasDate ∧ t.year.toInt ≤ 9999 ∧
      formatBytes (ascii "%!Z") [.time t] {} = .ok (ascii "2024-01-01T100:00:00Z") ∧
      Journal.isTimestamp (Text.decodeLossy (ascii "2024-01-01T100:00:00Z")) = false := by
  intro t
  have hread : CivilTime.read? "2024-01-01T100:00:00" = some t := by decide +kernel
  have hbytes : t.utcText = ascii "2024-01-01T100:00:00Z" := by decide +kernel
  refine ⟨toArg_time_iff.mpr hread, fun h => absurd h.hour (by decide),
    (CivilTime.read?_eq_some_iff.mp hread).2, by decide, hbytes ▸ formatBytes_utc t {}, ?_⟩
  rw [← hbytes, Bool.eq_false_iff]
  exact fun h => absurd (Journal.isTimestamp_utcText_iff.mp h).2.hour (by decide)

end Fixture
end PrintFormat
