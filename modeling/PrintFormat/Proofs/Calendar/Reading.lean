import PrintFormat.Calendar.Text
import PrintFormat.Proofs.Numeral.Reading

/-!
Timestamps read back. The UTC timestamp without its last letter is a date and a
time of day with `T` between, each three numerals with a mark between, and no
numeral holds a mark. A year that is not negative is read back whatever its count
of digits; month and day only if they are in the range that is checked.
-/
namespace PrintFormat

theorem readDigits?_twoDigits (n : UInt8) :
    readDigits? 10 (chars (twoDigits n)) = some n.toNat :=
  readDigits?_zeroFilled .decimal false 2 n.toNat

theorem readByte?_twoDigits (n : UInt8) : readByte? 10 (chars (twoDigits n)) = some n := by
  rw [readByte?_digits (readDigits?_twoDigits n) n.toNat_lt, Nat.toUInt8_eq, UInt8.ofNat_toNat]

/-- A byte has at least two digits, and no more if it is below 100. -/
theorem length_twoDigits (n : UInt8) : (twoDigits n).length = if n.toNat < 100 then 2 else 3 := by
  have key : ∀ n : Fin 256,
      (twoDigits (.ofFin n)).length = if (UInt8.ofFin n).toNat < 100 then 2 else 3 := by
    decide +kernel
  exact key n.toFin

theorem isAscii_twoDigits (n : UInt8) : IsAscii (twoDigits n) :=
  isAscii_zeroFilled (isAscii_natText n.toNat) 2

theorem isAscii_yearText (year : Int32) : IsAscii (yearText year) := by
  refine isAscii_append.mpr ⟨?_, isAscii_zeroFilled (isAscii_natText _) 4⟩
  split
  · exact List.forall_mem_cons.mpr ⟨by decide, nofun⟩
  · exact nofun

section

variable {year : Int32} (h : 0 ≤ year.toInt)

include h

theorem readDigits?_yearText :
    readDigits? 10 (chars (yearText year)) = some year.toInt.natAbs := by
  rw [yearText, if_neg (by omega), List.nil_append]
  exact readDigits?_zeroFilled .decimal false 4 year.toInt.natAbs

theorem readInt?_yearText : readInt? 0x80000000 (chars (yearText year)) = some year.toInt := by
  have hlt := year.toInt_lt
  have hrange : year.toInt.natAbs < 0x80000000 := by omega
  rw [readInt?_digits (readDigits?_yearText h) hrange]
  congr 1
  omega

end

namespace CivilTime

/-- The timestamp without its last letter, `YYYY-MM-DDThh:mm:ss`. -/
def stamp (t : CivilTime) : Bytes :=
  yearText t.year ++ ascii "-" ++ twoDigits t.month ++ ascii "-" ++ twoDigits t.day
    ++ ascii "T" ++ twoDigits t.hour ++ ascii ":" ++ twoDigits t.minute ++ ascii ":"
    ++ twoDigits t.second

theorem utcText_eq (t : CivilTime) : t.utcText = t.stamp ++ ascii "Z" := rfl

theorem isAscii_stamp (t : CivilTime) : IsAscii t.stamp := by
  have hmarks : IsAscii (ascii "-") ∧ IsAscii (ascii "T") ∧ IsAscii (ascii ":") := by
    decide +kernel
  simp only [stamp, isAscii_append, isAscii_yearText, isAscii_twoDigits, hmarks, and_self]

variable (t : CivilTime)

/-- The characters of the date. -/
def dateChars : List Char :=
  chars (yearText t.year) ++ '-' :: (chars (twoDigits t.month) ++ '-' :: chars (twoDigits t.day))

/-- The characters of the time of day. -/
def clockChars : List Char :=
  chars (twoDigits t.hour) ++ ':' :: (chars (twoDigits t.minute) ++ ':' ::
    chars (twoDigits t.second))

theorem chars_stamp : chars t.stamp = t.dateChars ++ 'T' :: t.clockChars := by
  simp only [stamp, dateChars, clockChars, chars_append, List.append_assoc, List.cons_append]
  rfl

/-- A separator that is no digit is not in a numeral. -/
theorem not_separator (mark : Char) {cs : List Char} {n : Nat} (h : readDigits? 10 cs = some n)
    (hmark : digitValue? 10 mark = none) : ∀ c ∈ cs, decide (c = mark) = false := by
  intro c hc
  refine decide_eq_false ?_
  rintro rfl
  exact not_mem_of_readDigits? h hmark hc

theorem readDate?_dateChars (h : 0 ≤ t.year.toInt) :
    readDate? t.dateChars = some (t.year.toInt, t.month, t.day) := by
  have hyear := not_separator '-' (readDigits?_yearText h) rfl
  have hmonth := not_separator '-' (readDigits?_twoDigits t.month) rfl
  have hcut := Text.cutThree?_append (c := '-') (d := '-') hyear hmonth rfl rfl
    (chars (twoDigits t.day))
  simp only [readDate?, dateChars, hcut, readInt?_yearText h, readByte?_twoDigits,
    Option.bind_eq_bind, Option.bind_some]
  rfl

theorem readClock?_clockChars : readClock? t.clockChars = some (t.hour, t.minute, t.second) := by
  have hhour := not_separator ':' (readDigits?_twoDigits t.hour) rfl
  have hminute := not_separator ':' (readDigits?_twoDigits t.minute) rfl
  have hcut := Text.cutThree?_append (c := ':') (d := ':') hhour hminute rfl rfl
    (chars (twoDigits t.second))
  simp only [readClock?, clockChars, hcut, readByte?_twoDigits, Option.bind_eq_bind,
    Option.bind_some]
  rfl

theorem mark_not_mem_dateChars (h : 0 ≤ t.year.toInt) : ∀ c ∈ t.dateChars,
    decide (c = 'T') = false := by
  have hyear := not_separator 'T' (readDigits?_yearText h) rfl
  have hmonth := not_separator 'T' (readDigits?_twoDigits t.month) rfl
  have hday := not_separator 'T' (readDigits?_twoDigits t.day) rfl
  simp only [dateChars, List.forall_mem_append, List.forall_mem_cons]
  exact ⟨hyear, rfl, hmonth, rfl, hday⟩

/-- A time with a date in range is read back from its timestamp. -/
theorem read?_stamp (hyear : 0 ≤ t.year.toInt) (hmonth : 1 ≤ t.month ∧ t.month ≤ 12)
    (hday : 1 ≤ t.day ∧ t.day ≤ 31) : read? (String.ofList (chars t.stamp)) = some t := by
  have hcut := Text.cut_append (c := 'T') (t.mark_not_mem_dateChars hyear) rfl t.clockChars
  simp only [read?, String.toList_ofList, chars_stamp, hcut, readDate?_dateChars t hyear,
    Option.getD_some, readClock?_clockChars, Option.bind_eq_bind, Option.bind_some]
  rw [if_pos ⟨hmonth.1, hmonth.2, hday⟩, Int32.ofInt_toInt]

end CivilTime
end PrintFormat
