import PrintFormat.Journal
import PrintFormat.Proofs.Calendar.Date
import PrintFormat.Proofs.Calendar.Reading
import PrintFormat.Proofs.Journal.Entry
import PrintFormat.Proofs.Render.Plain
import PrintFormat.Proofs.Text.Utf8

/-!
Timestamps of journals. A timestamp is fields in fixed counts of digits, each
with a mark behind it, as long as its year has four digits (`utcText_fields`).
Such texts have the shape that the validator asks for, and are in the order of
their fields (`fieldsText_lt`). With the order of times by their fields this
gives `Journal.timestamp_sorts`: on the seconds of the years 0 to 9999, and on no
others, timestamps pass the validator, and there they are in the order of their
seconds.
-/
namespace PrintFormat

/-! ## Numbers in places -/

/-- A numeral in a count of places that is enough for it. -/
theorem zeroFilled_natText {count n : Nat} (hcount : 0 < count) (h : n < 10 ^ count) :
    zeroFilled count (natText n) = (places 10 count n).map (digitByte false) := by
  have hplaces := Base.decimal.map_places false hcount n
  rw [show Base.decimal.value = 10 from rfl, Nat.mod_eq_of_lt h] at hplaces
  exact hplaces.symm

/-- Of two numbers in the same count of places the less one comes first, whatever
stands behind them. -/
theorem zeroFilled_lt {count n n' : Nat} (hcount : 0 < count) (hlt : n < n')
    (h : n' < 10 ^ count) (rest rest' : Bytes) :
    zeroFilled count (natText n) ++ rest < zeroFilled count (natText n') ++ rest' := by
  rw [zeroFilled_natText hcount (hlt.trans h), zeroFilled_natText hcount h]
  clear hcount
  induction count generalizing n n' with
  | zero => omega
  | succ count ih =>
    have hpow : 0 < 10 ^ count := Nat.pow_pos (by decide)
    have hhead {m : Nat} (hm : m < 10 ^ (count + 1)) : m / 10 ^ count < 10 :=
      Nat.div_lt_of_lt_mul (by rwa [pow_succ] at hm)
    have hsmall := hhead h
    have hsmall' := hhead (hlt.trans h)
    rw [places_succ, places_succ, Nat.mod_eq_of_lt hsmall, Nat.mod_eq_of_lt hsmall',
      List.map_cons, List.map_cons, List.cons_append, List.cons_append, List.cons_lt_cons_iff]
    rcases (Nat.div_le_div_right hlt.le : n / 10 ^ count ≤ n' / 10 ^ count).lt_or_eq with
      hless | heq
    · have hbytes : ∀ d d' : Fin 10, d < d' → digitByte false d < digitByte false d' := by decide
      exact .inl (hbytes ⟨_, hsmall'⟩ ⟨_, hsmall⟩ hless)
    -- the first places are the same, so the places behind them decide
    · refine .inr ⟨by rw [heq], ?_⟩
      have hlow (m : Nat) : places 10 count m = places 10 count (m % 10 ^ count) := by
        conv_lhs => rw [← Nat.div_add_mod m (10 ^ count), Nat.mul_comm]
        exact places_add_mul (by decide) count _ _
      rw [hlow n, hlow n']
      refine ih ?_ (Nat.mod_lt _ hpow)
      have hn := Nat.div_add_mod n (10 ^ count)
      have hn' := Nat.div_add_mod n' (10 ^ count)
      rw [heq] at hn
      omega

/-! ## Fields -/

/-- Numbers in counts of digits, each with a mark behind it. -/
def fieldsText (shape : List (Nat × UInt8)) (fields : List Int) : Bytes :=
  (List.zipWith (fun part n => zeroFilled part.1 (natText n.natAbs) ++ [part.2]) shape
    fields).flatten

/-- What stands for such a text in a pattern: zeros for digits, and the marks. -/
def fieldsPattern (shape : List (Nat × UInt8)) : Bytes :=
  shape.flatMap fun part => List.replicate part.1 zero ++ [part.2]

/-- Numbers that their counts of digits are enough for. -/
def HasPlaces (shape : List (Nat × UInt8)) (fields : List Int) : Prop :=
  List.Forall₂ (fun part n => 0 < part.1 ∧ 0 ≤ n ∧ n.natAbs < 10 ^ part.1) shape fields

theorem fieldsText_cons (part : Nat × UInt8) (shape : List (Nat × UInt8)) (n : Int)
    (fields : List Int) :
    fieldsText (part :: shape) (n :: fields) =
      zeroFilled part.1 (natText n.natAbs) ++ part.2 :: fieldsText shape fields := by
  rw [fieldsText, List.zipWith_cons_cons, List.flatten_cons, List.append_assoc]
  rfl

/-- Texts of fields are in the order of their fields. -/
theorem fieldsText_lt {shape : List (Nat × UInt8)} {fields fields' : List Int}
    (h : HasPlaces shape fields) (h' : HasPlaces shape fields') (hlt : fields < fields') :
    fieldsText shape fields < fieldsText shape fields' := by
  unfold HasPlaces at h h'
  induction h generalizing fields' with
  | nil =>
    cases h'
    exact absurd hlt (List.lt_irrefl _)
  | @cons part n shape fields hn hfields ih =>
    obtain ⟨n', rest', hn', hrest', rfl⟩ := List.forall₂_cons_left_iff.mp h'
    rw [fieldsText_cons, fieldsText_cons]
    obtain hless | ⟨rfl, hrest⟩ := List.cons_lt_cons_iff.mp hlt
    · have habs := Int.natAbs_lt_natAbs_of_nonneg_of_lt hn.2.1 hless
      exact zeroFilled_lt hn.1 habs hn'.2.2 _ _
    · exact List.append_left_lt (List.cons_lt_cons_iff.mpr (.inr ⟨rfl, ih hrest' hrest⟩))

/-- A number that has its counts of digits consists of digits. -/
theorem fits_zeroFilled {count n : Nat} (hcount : 0 < count) (h : n < 10 ^ count) :
    List.Forall₂ (fun pattern b => Journal.fits pattern b = true) (List.replicate count zero)
      (zeroFilled count (natText n)) := by
  have hdigit : ∀ d : Fin 10, Journal.fits zero (digitByte false d) = true := by decide
  have hdigits {ds : List Nat} (hds : ∀ d ∈ ds, d < 10) :
      List.Forall₂ (fun pattern b => Journal.fits pattern b = true)
        (List.replicate ds.length zero) (ds.map (digitByte false)) := by
    induction ds with
    | nil => exact .nil
    | cons d ds ih =>
      exact .cons (hdigit ⟨d, hds d List.mem_cons_self⟩)
        (ih fun e he => hds e (List.mem_cons_of_mem d he))
  have hplaces := hdigits fun d hd => @lt_of_mem_places 10 count n d (by decide) hd
  rwa [length_places, ← zeroFilled_natText hcount h] at hplaces

/-- Texts of fields have the shape of their counts of digits and their marks. -/
theorem fits_fieldsText {shape : List (Nat × UInt8)} (hmarks : ∀ part ∈ shape, part.2 ≠ zero)
    {fields : List Int} (h : HasPlaces shape fields) :
    List.Forall₂ (fun pattern b => Journal.fits pattern b = true) (fieldsPattern shape)
      (fieldsText shape fields) := by
  unfold HasPlaces at h
  induction h with
  | nil => exact .nil
  | @cons part n shape fields hn _ ih =>
    have hmark : Journal.fits part.2 part.2 = true := by
      rw [Journal.fits, if_neg (hmarks part List.mem_cons_self), decide_eq_true_eq]
    rw [fieldsText_cons, fieldsPattern, List.flatMap_cons, List.append_assoc]
    exact List.rel_append (fits_zeroFilled hn.1 hn.2.2)
      (.cons hmark (ih fun p hp => hmarks p (List.mem_cons_of_mem part hp)))

/-! ## Times -/

namespace CivilTime

/-- The counts of digits of a timestamp, and the marks behind them. -/
def stampShape : List (Nat × UInt8) :=
  [(4, minus), (2, minus), (2, 84), (2, 58), (2, 58), (2, 90)]

theorem utcText_fields {t : CivilTime} (h : 0 ≤ t.year.toInt) :
    t.utcText = fieldsText stampShape t.fields := by
  have hyear : yearText t.year = zeroFilled 4 (natText t.year.toInt.natAbs) := by
    rw [yearText, if_neg (by omega), List.nil_append]
  have hmarks : ascii "-" = [minus] ∧ ascii "T" = [84] ∧ ascii ":" = [58] ∧ ascii "Z" = [90] := by
    decide
  have hnil : fieldsText [] [] = [] := rfl
  simp only [utcText, hyear, hmarks, twoDigits, fields, fieldsFrom, stampShape, fieldsText_cons,
    hnil, Int.natAbs_natCast, List.append_assoc, List.cons_append, List.nil_append]

/-- All fields but the year are below 100. -/
structure HasTwoDigits (t : CivilTime) : Prop where
  month : t.month.toNat < 100
  day : t.day.toNat < 100
  hour : t.hour.toNat < 100
  minute : t.minute.toNat < 100
  second : t.second.toNat < 100

theorem HasTwoDigits.hasPlaces {t : CivilTime} (h : t.HasTwoDigits) {year : Int}
    (hyear : 0 ≤ year ∧ year ≤ 9999) : HasPlaces stampShape (t.fieldsFrom year) := by
  obtain ⟨hmonth, hday, hhour, hminute, hsecond⟩ := h
  have two {n : Nat} (hn : n < 100) : 0 < 2 ∧ 0 ≤ (n : Int) ∧ (n : Int).natAbs < 10 ^ 2 := by omega
  exact .cons ⟨by decide, hyear.1, show year.natAbs < 10 ^ 4 by omega⟩
    (.cons (two hmonth) (.cons (two hday) (.cons (two hhour)
      (.cons (two hminute) (.cons (two hsecond) .nil)))))

namespace Shows

variable {t : CivilTime} {year seconds : Int}

/-- A year is before another one if its seconds are before the start of that. -/
theorem year_lt_iff (h : t.Shows year seconds) (y : Int) :
    year < y ↔ seconds < 86400 * daysToYear y := by
  have hcount := h.count
  obtain ⟨hstart, -, hend⟩ := h.daysToDate_bounds
  have hhour := h.hour
  have hminute := h.minute
  have hsecond := h.second
  constructor
  · intro hlt
    have hmono := daysToYear_strictMono.monotone (Int.add_one_le_iff.mpr hlt)
    omega
  · intro hlt
    by_contra hle
    have hmono := daysToYear_strictMono.monotone (not_lt.mp hle)
    omega

theorem year_bounds_iff (h : t.Shows year seconds) :
    0 ≤ year ∧ year ≤ 9999 ↔ -62167219200 ≤ seconds ∧ seconds ≤ 253402300799 := by
  have hfirst := h.year_lt_iff 0
  have hlast := h.year_lt_iff 10000
  have hstart : daysToYear 0 = -719528 := by rw [daysToYear_eq]; rfl
  have hend : daysToYear 10000 = 2932897 := by rw [daysToYear_eq]; rfl
  rw [hstart] at hfirst
  rw [hend] at hlast
  omega

theorem hasTwoDigits (h : t.Shows year seconds) : t.HasTwoDigits := by
  have hmonth := h.month.2
  have hday := h.day.2.trans (monthLength_le year t.month.toNat)
  have hhour := h.hour
  have hminute := h.minute
  have hsecond := h.second
  constructor <;> omega

end Shows

/-- A year of four digits is one of the years 0 to 9999. -/
theorem year_of_length {year : Int32} (h : (yearText year).length = 4) :
    0 ≤ year.toInt ∧ year.toInt ≤ 9999 := by
  rw [yearText, List.length_append, length_zeroFilled] at h
  split at h
  · rw [List.length_singleton] at h
    omega
  · have hdigits : (natText year.toInt.natAbs).length ≤ 4 := by
      rw [List.length_nil] at h
      omega
    have hlt := Base.decimal.lt_pow_length_digits year.toInt.natAbs
    rw [← Base.length_text Base.decimal false] at hlt
    have hpow : 10 ^ (natText year.toInt.natAbs).length ≤ 10 ^ 4 :=
      Nat.pow_le_pow_right (by decide) hdigits
    have hbound := hlt.trans_le hpow
    omega

theorem four_le_length_yearText (year : Int32) : 4 ≤ (yearText year).length := by
  rw [yearText, List.length_append, length_zeroFilled]
  omega

/-- A timestamp has its shortest length only if all fields have theirs. -/
theorem length_utcText_iff {t : CivilTime} :
    t.utcText.length = 20 ↔ (yearText t.year).length = 4 ∧ t.HasTwoDigits := by
  have hyear := four_le_length_yearText t.year
  have hmarks : (ascii "-").length = 1 ∧ (ascii "T").length = 1 ∧ (ascii ":").length = 1 ∧
      (ascii "Z").length = 1 := ⟨rfl, rfl, rfl, rfl⟩
  simp only [utcText, List.length_append, hmarks, length_twoDigits]
  constructor
  · intro h
    split_ifs at h <;> first | omega | exact ⟨by omega, by constructor <;> assumption⟩
  · rintro ⟨h, hmonth, hday, hhour, hminute, hsecond⟩
    rw [h, if_pos hmonth, if_pos hday, if_pos hhour, if_pos hminute, if_pos hsecond]

theorem isAscii_utcText (t : CivilTime) : IsAscii t.utcText :=
  isAscii_append.mpr ⟨t.isAscii_stamp, by decide +kernel⟩

end CivilTime

/-- Bytes of ASCII are those of the text that they are read to. -/
theorem Text.encode_decodeLossy {text : Bytes} (h : IsAscii text) :
    encode (decodeLossy text) = text := by
  have hchars : encode (String.ofList (chars text)) = text := by
    rw [encode_ofList, encodeChars_chars h]
  calc encode (decodeLossy text) = encode (decodeLossy (encode (String.ofList (chars text)))) := by
        rw [hchars]
    _ = encode (String.ofList (chars text)) := by rw [decodeLossy_encode]
    _ = text := hchars

namespace Journal

theorem encode_timestamp (seconds : Int) :
    Text.encode (timestamp seconds) = (CivilTime.ofUnixSeconds seconds).utcText :=
  Text.encode_decodeLossy (CivilTime.isAscii_utcText _)

/-- Bytes that fit a pattern one by one. -/
theorem all_fits {pattern bytes : Bytes}
    (h : List.Forall₂ (fun pattern b => fits pattern b = true) pattern bytes) :
    (List.zipWith fits pattern bytes).all id = true := by
  induction h with
  | nil => rfl
  | cons hfits _ ih =>
    rw [List.zipWith_cons_cons, List.all_cons, ih, Bool.and_true]
    exact hfits

/-- The validator takes the timestamp of a time exactly if its year is one of 0 to
9999 and no other field is beyond two digits. -/
theorem isTimestamp_utcText_iff {t : CivilTime} :
    isTimestamp (Text.decodeLossy t.utcText) = true ↔
      (0 ≤ t.year.toInt ∧ t.year.toInt ≤ 9999) ∧ t.HasTwoDigits := by
  have hpattern : timestampPattern.length = 20 := by decide
  rw [isTimestamp, Text.encode_decodeLossy t.isAscii_utcText, Bool.and_eq_true, decide_eq_true_eq,
    hpattern]
  constructor
  · rintro ⟨hlength, -⟩
    obtain ⟨hyear, htwo⟩ := CivilTime.length_utcText_iff.mp hlength
    exact ⟨CivilTime.year_of_length hyear, htwo⟩
  · rintro ⟨hyear, htwo⟩
    have hfits := fits_fieldsText (by decide) (htwo.hasPlaces hyear)
    have hshape : fieldsPattern CivilTime.stampShape = timestampPattern := by decide
    rw [hshape, ← CivilTime.fields, ← CivilTime.utcText_fields hyear.1] at hfits
    exact ⟨hfits.length_eq.symm.trans hpattern, all_fits hfits⟩

theorem isTimestamp_iff {t : CivilTime} {year seconds : Int} (h : t.Shows year seconds)
    (hclamp : t.year.toInt = max (-2 ^ 31) (min year (2 ^ 31 - 1))) :
    isTimestamp (Text.decodeLossy t.utcText) = true ↔ 0 ≤ year ∧ year ≤ 9999 := by
  rw [isTimestamp_utcText_iff, and_iff_left h.hasTwoDigits]
  omega

/-- The seconds of the years 0 to 9999. -/
def FourDigitYears : Set Int := Set.Icc (-62167219200) 253402300799

theorem timestamp_lt {seconds seconds' : Int} (h : seconds ∈ FourDigitYears)
    (h' : seconds' ∈ FourDigitYears) (hlt : seconds < seconds') :
    Text.encode (timestamp seconds) < Text.encode (timestamp seconds') := by
  obtain ⟨year, hshows, hclamp⟩ := CivilTime.exists_shows seconds
  obtain ⟨year', hshows', hclamp'⟩ := CivilTime.exists_shows seconds'
  have hyear := hshows.year_bounds_iff.mpr h
  have hyear' := hshows'.year_bounds_iff.mpr h'
  have hsame : (CivilTime.ofUnixSeconds seconds).year.toInt = year := by omega
  have hsame' : (CivilTime.ofUnixSeconds seconds').year.toInt = year' := by omega
  rw [encode_timestamp, encode_timestamp, CivilTime.utcText_fields (by omega),
    CivilTime.utcText_fields (by omega), CivilTime.fields, CivilTime.fields, hsame, hsame']
  exact fieldsText_lt (hshows.hasTwoDigits.hasPlaces hyear) (hshows'.hasTwoDigits.hasPlaces hyear')
    ((hshows.lt_iff hshows').mp hlt)

theorem timestamp_ne {seconds seconds' : Int} (h : seconds ∈ FourDigitYears)
    (h' : seconds' ∈ FourDigitYears) (hlt : seconds < seconds') :
    timestamp seconds ≠ timestamp seconds' := by
  intro heq
  have hless := timestamp_lt h h' hlt
  rw [heq] at hless
  exact List.lt_irrefl _ hless

/-- A timestamp is what the conversion of times renders, and never empty. It
passes the validator exactly on the seconds of the years 0 to 9999. There no two
seconds have the same timestamp, and the bytes of timestamps are in the order of
their seconds. -/
theorem timestamp_sorts :
    (∀ seconds, ∃ bytes,
      formatBytes (ascii "%!Z") [.time (CivilTime.ofUnixSeconds seconds)] {} = .ok bytes ∧
        timestamp seconds = Text.decodeLossy bytes ∧ timestamp seconds ≠ "") ∧
    (∀ seconds, isTimestamp (timestamp seconds) = true ↔
      -62167219200 ≤ seconds ∧ seconds ≤ 253402300799) ∧
    Set.InjOn timestamp FourDigitYears ∧
    ∀ seconds ∈ FourDigitYears, ∀ seconds' ∈ FourDigitYears,
      seconds < seconds' ↔ Text.encode (timestamp seconds) < Text.encode (timestamp seconds') := by
  have horder : ∀ seconds ∈ FourDigitYears, ∀ seconds' ∈ FourDigitYears,
      seconds < seconds' ↔
        Text.encode (timestamp seconds) < Text.encode (timestamp seconds') := by
    intro seconds h seconds' h'
    refine ⟨timestamp_lt h h', fun hlt => ?_⟩
    rcases lt_trichotomy seconds seconds' with hless | rfl | hgreater
    · exact hless
    · exact absurd hlt (List.lt_irrefl _)
    · exact absurd hlt (List.lt_asymm (timestamp_lt h' h hgreater))
  refine ⟨fun seconds => ?_, fun seconds => ?_, fun seconds h seconds' h' heq => ?_, horder⟩
  · refine ⟨_, formatBytes_utc _ _, rfl, fun hempty => ?_⟩
    have hbytes := encode_timestamp seconds
    rw [hempty, CivilTime.utcText_eq] at hbytes
    exact List.append_ne_nil_of_right_ne_nil _ (by decide) hbytes.symm
  · obtain ⟨year, hshows, hclamp⟩ := CivilTime.exists_shows seconds
    exact (isTimestamp_iff hshows hclamp).trans hshows.year_bounds_iff
  · by_contra hne
    rcases lt_or_gt_of_ne hne with hlt | hgt
    · exact timestamp_ne h h' hlt heq
    · exact timestamp_ne h' h hgt heq.symm

/-- The last second of the year 9999, the one behind it and the end of a leap day. -/
theorem timestamp_sorts_last :
    timestamp 253402300799 = "9999-12-31T23:59:59Z" ∧
      isTimestamp (timestamp 253402300799) = true ∧
      isTimestamp (timestamp 253402300800) = false ∧
      951868799 ∈ FourDigitYears ∧ 253402300799 ∈ FourDigitYears ∧
      timestamp 951868799 ≠ timestamp 253402300799 ∧
      Text.encode (timestamp 951868799) < Text.encode (timestamp 253402300799) := by
  obtain ⟨-, haccepted, hinj, horder⟩ := timestamp_sorts
  have hleap : 951868799 ∈ FourDigitYears := ⟨by decide, by decide⟩
  have hlast : 253402300799 ∈ FourDigitYears := ⟨by decide, by decide⟩
  refine ⟨by cbv, (haccepted _).mpr hlast, ?_, hleap, hlast, mt (hinj hleap hlast) (by decide),
    (horder _ hleap _ hlast).mp (by decide)⟩
  exact Bool.eq_false_iff.mpr (mt (haccepted _).mp (by decide))

end Journal
end PrintFormat
