import Mathlib
import PrintFormat.Calendar

/-!
Civil time against the calendar. The calendar is told by counting alone: which
years are leap years, how long each month is, and from these the days from the
start of 1970 to any date, before it as after it (`daysToDate`). A time shows a
count of seconds if its fields are in range and its date and time of day make up
that count (`CivilTime.Shows`). The main statement, `ofUnixSeconds_shows`, is
that the time of a count of seconds shows that count, with a year that may be
beyond 32 bits; where it is not, times are in the order of their counts.
-/
namespace PrintFormat

/-! ## The calendar -/

/-- Every fourth year, but of the hundredths only every fourth. -/
def LeapYear (year : Int) : Prop := 4 ∣ year ∧ ¬ 100 ∣ year ∨ 400 ∣ year

instance (year : Int) : Decidable (LeapYear year) := inferInstanceAs (Decidable (_ ∨ _))

/-- The days of a month, counted from 1. -/
def monthLength (year : Int) (month : Nat) : Nat :=
  if month = 2 then if LeapYear year then 29 else 28
  else if month ∈ [4, 6, 9, 11] then 30
  else 31

/-- The days of a year in front of a month. -/
def daysToMonth (year : Int) (month : Nat) : Nat := ∑ m ∈ Finset.Ico 1 month, monthLength year m

def yearLength (year : Int) : Nat := daysToMonth year 13

/-- The days from the start of 1970 to the start of a year. They are negative
for a year before it. -/
def daysToYear (year : Int) : Int :=
  ∑ k ∈ Finset.range (year - 1970).toNat, (yearLength (1970 + k) : Int) -
    ∑ k ∈ Finset.range (1970 - year).toNat, (yearLength (year + k) : Int)

/-- The days from the start of 1970 to a date. -/
def daysToDate (year : Int) (month day : Nat) : Int :=
  daysToYear year + daysToMonth year month + day - 1

example : daysToDate 2000 3 1 = 11017 ∧ daysToDate 1900 2 28 = -25509 := by decide

theorem yearLength_eq (year : Int) : yearLength year = if LeapYear year then 366 else 365 := by
  unfold yearLength daysToMonth monthLength
  by_cases h : LeapYear year <;> simp [h, Finset.sum_Ico_succ_top]

theorem monthLength_le (year : Int) (month : Nat) : monthLength year month ≤ 31 := by
  unfold monthLength
  split_ifs <;> omega

theorem daysToMonth_one (year : Int) : daysToMonth year 1 = 0 := rfl

theorem daysToMonth_succ (year : Int) {month : Nat} (h : 1 ≤ month) :
    daysToMonth year (month + 1) = daysToMonth year month + monthLength year month :=
  Finset.sum_Ico_succ_top h _

theorem daysToMonth_mono (year : Int) : Monotone (daysToMonth year) := fun _ _ h =>
  Finset.sum_le_sum_of_subset (Finset.Ico_subset_Ico_right h)

theorem daysToYear_succ (year : Int) :
    daysToYear (year + 1) = daysToYear year + yearLength year := by
  unfold daysToYear
  by_cases h : 1970 ≤ year
  · have hup : (year + 1 - 1970).toNat = (year - 1970).toNat + 1 := by omega
    have hdown : (1970 - (year + 1)).toNat = 0 ∧ (1970 - year).toNat = 0 := by omega
    have hlast : 1970 + ((year - 1970).toNat : Int) = year := by omega
    rw [hup, hdown.1, hdown.2, Finset.sum_range_succ, hlast]
    simp only [Finset.sum_range_zero, sub_zero]
  -- before 1970 the next year has one year less to go
  · have hup : (year + 1 - 1970).toNat = 0 ∧ (year - 1970).toNat = 0 := by omega
    have hdown : (1970 - year).toNat = (1970 - (year + 1)).toNat + 1 := by omega
    have hshift (k : Nat) : year + ((k + 1 : Nat) : Int) = year + 1 + k := by omega
    rw [hup.1, hup.2, hdown, Finset.sum_range_succ']
    simp only [hshift, Finset.sum_range_zero, Nat.cast_zero, add_zero]
    omega

theorem daysToYear_strictMono : StrictMono daysToYear := by
  refine strictMono_int_of_lt_succ fun year => ?_
  rw [daysToYear_succ, yearLength_eq]
  split <;> omega

/-- The days to a year by the leap years that there are before it. -/
theorem daysToYear_eq (year : Int) :
    daysToYear year =
      365 * (year - 1970) + (year - 1) / 4 - (year - 1) / 100 + (year - 1) / 400 - 477 := by
  -- the two sides grow alike from one year to the next, and agree in 1970
  have step (y : Int) :
      daysToYear y = 365 * (y - 1970) + (y - 1) / 4 - (y - 1) / 100 + (y - 1) / 400 - 477 ↔
        daysToYear (y + 1) =
          365 * (y + 1 - 1970) + (y + 1 - 1) / 4 - (y + 1 - 1) / 100 + (y + 1 - 1) / 400 - 477 := by
    rw [daysToYear_succ, yearLength_eq, Nat.cast_ite]
    split
    · next h =>
      unfold LeapYear at h
      omega
    · next h =>
      unfold LeapYear at h
      omega
  induction year using Int.inductionOn' with
  | b => exact 1970
  | zero => rfl
  | succ y _ ih => exact (step y).mp ih
  | pred y _ ih => exact (step (y - 1)).mpr (by rwa [sub_add_cancel])

/-- The calendar repeats after 400 years. -/
theorem daysToYear_add_cycles (year cycles : Int) :
    daysToYear (year + cycles * 400) = daysToYear year + cycles * 146097 := by
  rw [daysToYear_eq, daysToYear_eq]
  omega

/-! ## Walking to a date -/

theorem isLeapYear_iff (year : Int) : isLeapYear year = true ↔ LeapYear year := by
  unfold isLeapYear LeapYear
  simp only [Bool.or_eq_true, Bool.and_eq_true, decide_eq_true_eq, ne_eq]
  omega

theorem yearDays_eq (year : Int) : yearDays year = yearLength year := by
  rw [yearLength_eq]
  simp only [yearDays, isLeapYear_iff]

theorem monthDays_eq (year : Int) : monthDays year = (List.range' 1 12).map (monthLength year) := by
  unfold monthDays monthLength
  simp only [isLeapYear_iff]
  rfl

/-- The walk over years keeps the count of days, and ends within a year. -/
theorem locateYear_eq (year : Int) (days : Nat) :
    let p := locateYear year days
    daysToYear p.1 + p.2 = daysToYear year + days ∧ p.2 < yearLength p.1 := by
  fun_induction locateYear year days with
  | case1 year days h =>
    rw [yearDays_eq] at h
    exact ⟨rfl, h⟩
  | case2 year days h ih =>
    rw [daysToYear_succ, ← yearDays_eq year] at ih
    obtain ⟨hcount, hlast⟩ := ih
    refine ⟨?_, hlast⟩
    rw [hcount]
    omega

theorem locateMonth_of_lt {days length : Nat} (h : days < length) (month : Nat)
    (rest : List Nat) : locateMonth month days (length :: rest) = (month, days) := by
  cases rest with
  | nil => rfl
  | cons next rest =>
    rw [locateMonth, if_pos h]
    nofun

theorem locateMonth_of_le {days length : Nat} (h : length ≤ days) (month : Nat) {rest : List Nat}
    (hrest : rest ≠ []) :
    locateMonth month days (length :: rest) = locateMonth (month + 1) (days - length) rest := by
  rw [locateMonth, if_neg (Nat.not_lt.mpr h)]
  exact fun he => hrest he

/-- So does the walk over the months that are left of a year, if the days end
within them. -/
theorem locateMonth_eq (year : Int) {month count days : Nat} (hmonth : 1 ≤ month)
    (hdays : daysToMonth year month + days < daysToMonth year (month + count)) :
    let p := locateMonth month days ((List.range' month count).map (monthLength year))
    month ≤ p.1 ∧ p.1 < month + count ∧
      daysToMonth year p.1 + p.2 = daysToMonth year month + days ∧
      p.2 < monthLength year p.1 := by
  induction count generalizing month days with
  | zero =>
    rw [Nat.add_zero] at hdays
    omega
  | succ count ih =>
    have hnext := daysToMonth_succ year hmonth
    rw [List.range'_succ, List.map_cons]
    by_cases h : days < monthLength year month
    · rw [locateMonth_of_lt h]
      exact ⟨le_rfl, by omega, rfl, h⟩
    · have hrest : daysToMonth year (month + 1) + (days - monthLength year month) <
          daysToMonth year (month + 1 + count) := by
        rw [hnext, Nat.add_assoc month, Nat.add_comm 1]
        omega
      have hne : (List.range' (month + 1) count).map (monthLength year) ≠ [] := by
        cases count with
        | zero =>
          rw [Nat.add_zero] at hrest
          omega
        | succ count =>
          rw [List.range'_succ]
          exact List.cons_ne_nil _ _
      rw [locateMonth_of_le (Nat.not_lt.mp h) month hne]
      obtain ⟨hlow, hhigh, hsum, hlast⟩ := ih (by omega) hrest
      exact ⟨by omega, by omega, by omega, hlast⟩

/-- The year and the month that a day is located in count up to that day. -/
theorem located_eq (days : Int) :
    let year := locateYear (1970 + days / cycleDays * 400) (days % cycleDays).toNat
    let month := locateMonth 1 year.2 (monthDays year.1)
    1 ≤ month.1 ∧ month.1 ≤ 12 ∧ month.2 < monthLength year.1 month.1 ∧
      daysToDate year.1 month.1 (month.2 + 1) = days := by
  intro year month
  obtain ⟨hyear, hlength⟩ : daysToYear year.1 + year.2 =
      daysToYear (1970 + days / cycleDays * 400) + (days % cycleDays).toNat ∧
      year.2 < yearLength year.1 := locateYear_eq _ _
  have hfits : daysToMonth year.1 1 + year.2 < daysToMonth year.1 (1 + 12) := by
    rw [daysToMonth_one, Nat.zero_add]
    exact hlength
  have hmonth := locateMonth_eq year.1 le_rfl hfits
  rw [← monthDays_eq, daysToMonth_one, Nat.zero_add] at hmonth
  change 1 ≤ month.1 ∧ month.1 < 1 + 12 ∧ daysToMonth year.1 month.1 + month.2 = year.2 ∧
    month.2 < monthLength year.1 month.1 at hmonth
  obtain ⟨hlow, hhigh, hday, hlast⟩ := hmonth
  have hcycles := daysToYear_add_cycles 1970 (days / cycleDays)
  have hstart : daysToYear 1970 = 0 := rfl
  have hsplit : days / cycleDays * 146097 + (days % cycleDays).toNat = days := by
    have hcycleDays : (cycleDays : Int) = 146097 := rfl
    rw [hcycleDays]
    omega
  refine ⟨hlow, by omega, hlast, ?_⟩
  rw [daysToDate]
  omega

/-! ## Times and their seconds -/

namespace CivilTime

/-- A time is a date of the calendar, in a year that is told apart from its
field, and a time of day, and both together make up a count of seconds. -/
structure Shows (t : CivilTime) (year seconds : Int) : Prop where
  month : 1 ≤ t.month.toNat ∧ t.month.toNat ≤ 12
  day : 1 ≤ t.day.toNat ∧ t.day.toNat ≤ monthLength year t.month.toNat
  hour : t.hour.toNat ≤ 23
  minute : t.minute.toNat ≤ 59
  second : t.second.toNat ≤ 59
  count : 86400 * daysToDate year t.month.toNat t.day.toNat + 3600 * t.hour.toNat +
    60 * t.minute.toNat + t.second.toNat = seconds

/-- A year and the fields behind it, from the largest unit to the smallest. -/
def fieldsFrom (year : Int) (t : CivilTime) : List Int :=
  [year, t.month.toNat, t.day.toNat, t.hour.toNat, t.minute.toNat, t.second.toNat]

/-- All fields, from the year to the second. -/
def fields (t : CivilTime) : List Int := t.fieldsFrom t.year.toInt

theorem toInt_clampYear (year : Int) :
    (clampYear year).toInt = max (-2 ^ 31) (min year (2 ^ 31 - 1)) := by
  have hlimits : (-0x80000000 : Int) = -2 ^ 31 ∧ (0x7FFFFFFF : Int) = 2 ^ 31 - 1 := by decide
  rw [clampYear, hlimits.1, hlimits.2]
  exact Int32.toInt_ofInt_of_le (le_max_left _ _) (by omega)

theorem exists_shows (seconds : Int) :
    ∃ year, (ofUnixSeconds seconds).Shows year seconds ∧
      (ofUnixSeconds seconds).year.toInt = max (-2 ^ 31) (min year (2 ^ 31 - 1)) := by
  have hword {n : Nat} (h : n < 256) : n.toUInt8.toNat = n := UInt8.toNat_ofNat_of_lt' h
  have hday : (daySeconds : Int) = 86400 := rfl
  obtain ⟨hlow, hhigh, hlast, hdate⟩ := located_eq (seconds / daySeconds)
  unfold ofUnixSeconds
  dsimp only
  generalize locateYear (1970 + seconds / daySeconds / cycleDays * 400)
    (seconds / daySeconds % cycleDays).toNat = year at *
  obtain ⟨year, dayOfYear⟩ := year
  dsimp only at *
  generalize locateMonth 1 dayOfYear (monthDays year) = month at *
  obtain ⟨month, dayOfMonth⟩ := month
  dsimp only at *
  rw [hday] at hdate ⊢
  have hlength := monthLength_le year month
  have hmonth := hword (show month < 256 by omega)
  have hdayOfMonth := hword (show dayOfMonth + 1 < 256 by omega)
  generalize hrest : (seconds % 86400).toNat = rest
  have hhour := hword (show rest / 3600 < 256 by omega)
  have hminute := hword (show rest / 60 % 60 < 256 by omega)
  have hsecond := hword (show rest % 60 < 256 by omega)
  refine ⟨year, ⟨?_, ?_, ?_, ?_, ?_, ?_⟩, toInt_clampYear year⟩
  · rw [hmonth]
    exact ⟨hlow, hhigh⟩
  · rw [hmonth, hdayOfMonth]
    omega
  · rw [hhour]
    omega
  · rw [hminute]
    omega
  · rw [hsecond]
    omega
  · rw [hmonth, hdayOfMonth, hhour, hminute, hsecond, hdate]
    omega

namespace Shows

variable {t t' : CivilTime} {year year' seconds seconds' : Int}

/-- A date is in its month, and before the next month and the next year. -/
theorem daysToDate_bounds (h : t.Shows year seconds) :
    daysToYear year + daysToMonth year t.month.toNat ≤
        daysToDate year t.month.toNat t.day.toNat ∧
      daysToDate year t.month.toNat t.day.toNat <
        daysToYear year + daysToMonth year (t.month.toNat + 1) ∧
      daysToDate year t.month.toNat t.day.toNat < daysToYear (year + 1) := by
  have hday := h.day
  have hnext := daysToMonth_succ year h.month.1
  have hlast : daysToMonth year (t.month.toNat + 1) ≤ daysToMonth year 13 :=
    daysToMonth_mono year (Nat.succ_le_succ h.month.2)
  have hyear := daysToYear_succ year
  rw [yearLength] at hyear
  unfold daysToDate
  exact ⟨by omega, by omega, by omega⟩

theorem lt_of_fields_lt (h : t.Shows year seconds) (h' : t'.Shows year' seconds')
    (hlt : t.fieldsFrom year < t'.fieldsFrom year') : seconds < seconds' := by
  have hcount := h.count
  have hcount' := h'.count
  have hbounds := h.daysToDate_bounds
  have hbounds' := h'.daysToDate_bounds
  have hhour := h.hour
  have hminute := h.minute
  have hsecond := h.second
  simp only [fieldsFrom, List.cons_lt_cons_iff, List.lt_irrefl, and_false, or_false] at hlt
  -- by the first of the fields that differ
  rcases hlt with hyear | ⟨rfl, hmonth | ⟨hmonth, hday | ⟨hday, hrest⟩⟩⟩
  · have hmono := daysToYear_strictMono.monotone (Int.add_one_le_iff.mpr hyear)
    have hstart := Nat.zero_le (daysToMonth year' t'.month.toNat)
    omega
  · have hmono : daysToMonth year (t.month.toNat + 1) ≤ daysToMonth year t'.month.toNat :=
      daysToMonth_mono year (Nat.succ_le_of_lt (Int.ofNat_lt.mp hmonth))
    omega
  · have hsame : t.month.toNat = t'.month.toNat := by omega
    rw [hsame] at hcount
    simp only [daysToDate] at hcount hcount'
    omega
  · have hsame : t.month.toNat = t'.month.toNat ∧ t.day.toNat = t'.day.toNat := by omega
    rw [hsame.1, hsame.2] at hcount
    omega

theorem eq_of_fields_eq (h : t.Shows year seconds) (h' : t'.Shows year' seconds')
    (heq : t.fieldsFrom year = t'.fieldsFrom year') : seconds = seconds' := by
  simp only [fieldsFrom, List.cons.injEq, Int.natCast_inj, and_true] at heq
  obtain ⟨rfl, hmonth, hday, hhour, hminute, hsecond⟩ := heq
  rw [← h.count, ← h'.count, hmonth, hday, hhour, hminute, hsecond]

/-- The earlier of two times is the one whose first different field is less. -/
theorem lt_iff (h : t.Shows year seconds) (h' : t'.Shows year' seconds') :
    seconds < seconds' ↔ t.fieldsFrom year < t'.fieldsFrom year' := by
  refine ⟨fun hlt => ?_, h.lt_of_fields_lt h'⟩
  rcases lt_trichotomy (t.fieldsFrom year) (t'.fieldsFrom year') with hless | heq | hgreater
  · exact hless
  · exact absurd (h.eq_of_fields_eq h' heq) hlt.ne
  · exact absurd (h'.lt_of_fields_lt h hgreater) hlt.not_gt

theorem year_unique (h : t.Shows year seconds) (h' : t.Shows year' seconds) : year = year' := by
  by_contra hne
  rcases lt_or_gt_of_ne hne with hlt | hlt
  · exact lt_irrefl _ (h.lt_of_fields_lt h' (List.cons_lt_cons_iff.mpr (.inl hlt)))
  · exact lt_irrefl _ (h'.lt_of_fields_lt h (List.cons_lt_cons_iff.mpr (.inl hlt)))

end Shows

/-! ## Times in order -/

/-- The seconds whose year 32 bits hold. -/
def InRange : Set Int :=
  {seconds | ∃ year, -2 ^ 31 ≤ year ∧ year < 2 ^ 31 ∧ (ofUnixSeconds seconds).Shows year seconds}

theorem fields_of_inRange {seconds : Int} (h : seconds ∈ InRange) :
    ∃ year, (ofUnixSeconds seconds).Shows year seconds ∧
      (ofUnixSeconds seconds).fields = (ofUnixSeconds seconds).fieldsFrom year := by
  obtain ⟨year, hlow, hhigh, hshows⟩ := h
  obtain ⟨year', hshows', hyear⟩ := exists_shows seconds
  obtain rfl := hshows.year_unique hshows'
  have hsame : (ofUnixSeconds seconds).year.toInt = year := by omega
  refine ⟨year, hshows, ?_⟩
  rw [fields, hsame]

/-- The time of a count of seconds shows that count: its month, its day and its
time of day are those of one date of the calendar, and its year is the year of
that date or the nearest one that 32 bits hold. On the seconds whose year is
such a one, no two have the same time, and of two the later has the time that is
behind the other's in its first different field. -/
theorem ofUnixSeconds_shows :
    (∀ seconds, ∃ year, (ofUnixSeconds seconds).Shows year seconds ∧
      (∀ other, (ofUnixSeconds seconds).Shows other seconds → other = year) ∧
      (ofUnixSeconds seconds).year.toInt = max (-2 ^ 31) (min year (2 ^ 31 - 1))) ∧
    Set.InjOn ofUnixSeconds InRange ∧
    StrictMonoOn (fun seconds => (ofUnixSeconds seconds).fields) InRange := by
  have hmono : StrictMonoOn (fun seconds => (ofUnixSeconds seconds).fields) InRange := by
    intro seconds h seconds' h' hlt
    obtain ⟨year, hshows, hfields⟩ := fields_of_inRange h
    obtain ⟨year', hshows', hfields'⟩ := fields_of_inRange h'
    change (ofUnixSeconds seconds).fields < (ofUnixSeconds seconds').fields
    rw [hfields, hfields']
    exact (hshows.lt_iff hshows').mp hlt
  refine ⟨fun seconds => ?_, fun seconds h seconds' h' heq => ?_, hmono⟩
  · obtain ⟨year, hshows, hyear⟩ := exists_shows seconds
    exact ⟨year, hshows, fun other hother => hother.year_unique hshows, hyear⟩
  · exact hmono.injOn h h' (congrArg fields heq)

/-- The last second of a leap day and the one after it, and a count whose year
is beyond 32 bits. -/
theorem ofUnixSeconds_shows_leap :
    let before : CivilTime := ⟨2000, 2, 29, 23, 59, 59⟩
    let after : CivilTime := ⟨2000, 3, 1, 0, 0, 0⟩
    ofUnixSeconds 951868799 = before ∧ ofUnixSeconds 951868800 = after ∧
      951868799 ∈ InRange ∧ 951868800 ∈ InRange ∧ before ≠ after ∧
      before.fields < after.fields ∧
      ofUnixSeconds 9223372036854775807 = ⟨2147483647, 12, 4, 15, 30, 7⟩ ∧
      ∃ year, (ofUnixSeconds 9223372036854775807).Shows year 9223372036854775807 := by
  intro before after
  have hbefore : ofUnixSeconds 951868799 = before := by cbv
  have hafter : ofUnixSeconds 951868800 = after := by cbv
  have hfar : ofUnixSeconds 9223372036854775807 = ⟨2147483647, 12, 4, 15, 30, 7⟩ := by cbv
  have hin : 951868799 ∈ InRange := by
    refine ⟨2000, by decide, by decide, ?_⟩
    rw [hbefore]
    exact ⟨by decide, by decide, by decide, by decide, by decide, by decide⟩
  have hin' : 951868800 ∈ InRange := by
    refine ⟨2000, by decide, by decide, ?_⟩
    rw [hafter]
    exact ⟨by decide, by decide, by decide, by decide, by decide, by decide⟩
  obtain ⟨hshows, hinj, hmono⟩ := ofUnixSeconds_shows
  have hne := mt (hinj hin hin') (by decide)
  have hlt := hmono hin hin' (by decide)
  rw [hbefore, hafter] at hne
  simp only [hbefore, hafter] at hlt
  obtain ⟨year, hyear, -⟩ := hshows 9223372036854775807
  exact ⟨hbefore, hafter, hin, hin', hne, hlt, hfar, year, hyear⟩

end CivilTime
end PrintFormat
