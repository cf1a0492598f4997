import PrintFormat.Conversion.Extended
import PrintFormat.Proofs.Numeral.Digits
import PrintFormat.Proofs.Scratch.Spans

/-!
The extended conversions never run out of room. Each text they compose is
shorter than the span: a date with its month's name is the longest of the
calendar, an IPv6 address the longest of all but the numbers in groups, and
those have no more digits than a word has bits. Zeros stop at the room.
-/
namespace PrintFormat

/-! ## Lengths of dates and times -/

theorem length_twoDigits_le (n : UInt8) : (twoDigits n).length ≤ 3 := by
  have hn : (natText n.toNat).length ≤ 3 :=
    length_natText_le (by decide) (Nat.lt_trans n.toNat_lt (by decide))
  rw [twoDigits, length_zeroFilled]
  omega

theorem length_yearText_le (year : Int32) : (yearText year).length ≤ 11 := by
  have hlo := year.le_toInt
  have hhi := year.toInt_lt
  have hn : (natText year.toInt.natAbs).length ≤ 10 :=
    length_natText_le (by decide) (by omega)
  rw [yearText, List.length_append, length_zeroFilled]
  split <;> simp only [List.length_cons, List.length_nil] <;> omega

theorem length_monthName_le (month : UInt8) : (ascii (monthName month)).length ≤ 9 := by
  unfold monthName
  split <;> decide

theorem length_ordinalSuffix (day : UInt8) : (ascii (ordinalSuffix day)).length = 2 := by
  unfold ordinalSuffix
  dsimp only
  split
  · rfl
  · split <;> rfl

namespace CivilTime

variable (t : CivilTime)

theorem length_clockText_le (seconds twelve : Bool) : (t.clockText seconds twelve).length ≤ 14 := by
  have hhour := length_twoDigits_le (if twelve then t.twelveHour else t.hour)
  have hminute := length_twoDigits_le t.minute
  have hcolon : (ascii ":").length = 1 := rfl
  have hsecond : (if seconds then ascii ":" ++ twoDigits t.second else []).length ≤ 4 := by
    have := length_twoDigits_le t.second
    split
    · rw [List.length_append, hcolon]
      omega
    · exact Nat.zero_le 4
  have hhalf :
      (if twelve then ascii (if t.hour < 12 then " AM" else " PM") else []).length ≤ 3 := by
    split
    · split <;> decide
    · exact Nat.zero_le 3
  simp only [clockText, List.length_append, hcolon]
  omega

theorem length_dateYear_le (long : Bool) : (t.dateYear long).length ≤ 11 := by
  unfold dateYear
  split
  · exact length_yearText_le t.year
  · have hn : (natText (t.year.toInt % 100).toNat).length ≤ 2 :=
      length_natText_le (by decide) (by omega)
    rw [length_zeroFilled]
    omega

theorem length_dateText_le (long named : Bool) : (t.dateText long named).length ≤ 27 := by
  have hyear := t.length_dateYear_le long
  unfold dateText
  split
  · have hmonth := length_monthName_le t.month
    have hday : (natText t.day.toNat).length ≤ 3 :=
      length_natText_le (by decide) (Nat.lt_trans t.day.toNat_lt (by decide))
    have hblank : (ascii " ").length = 1 := rfl
    simp only [List.length_append, length_ordinalSuffix, hblank]
    omega
  · have hmonth := length_twoDigits_le t.month
    have hday := length_twoDigits_le t.day
    have hslash : (ascii "/").length = 1 := rfl
    simp only [List.length_append, hslash]
    omega

theorem length_utcText_le : t.utcText.length ≤ 32 := by
  have hyear := length_yearText_le t.year
  have hmonth := length_twoDigits_le t.month
  have hday := length_twoDigits_le t.day
  have hhour := length_twoDigits_le t.hour
  have hminute := length_twoDigits_le t.minute
  have hsecond := length_twoDigits_le t.second
  have hmarks : (ascii "-").length = 1 ∧ (ascii "T").length = 1 ∧ (ascii ":").length = 1 ∧
      (ascii "Z").length = 1 := ⟨rfl, rfl, rfl, rfl⟩
  simp only [utcText, List.length_append, hmarks]
  omega

end CivilTime

/-! ## Lengths of addresses and telephone numbers -/

theorem length_separated_le (separator : Bytes) {texts : List Bytes} {k : Nat}
    (h : ∀ text ∈ texts, text.length ≤ k) :
    (separated separator texts).length ≤ texts.length * (k + separator.length) := by
  induction texts with
  | nil => exact Nat.zero_le _
  | cons text rest ih =>
    have htext := h text List.mem_cons_self
    have hrest := ih fun t ht => h t (List.mem_cons_of_mem text ht)
    rw [List.length_cons, Nat.add_mul, Nat.one_mul]
    cases rest with
    | nil =>
      simp only [separated]
      omega
    | cons next rest =>
      simp only [separated, List.length_append] at hrest ⊢
      omega

/-- Numbers written by a function and put together with a mark of one byte. -/
theorem length_separated_places_le {separator : Bytes} (hsep : separator.length = 1)
    {write : Nat → Bytes} {base count n k : Nat} (hbase : 0 < base)
    (h : ∀ d < base, (write d).length ≤ k) :
    (separated separator ((places base count n).map write)).length ≤ count * (k + 1) := by
  have hall : ∀ text ∈ (places base count n).map write, text.length ≤ k := by
    intro text htext
    obtain ⟨d, hd, rfl⟩ := List.mem_map.mp htext
    exact h d (lt_of_mem_places hbase hd)
  have := length_separated_le separator hall
  rwa [List.length_map, length_places, hsep] at this

theorem IPv4.length_text_le (a : IPv4) : a.text.length ≤ 4 * (3 + 1) :=
  length_separated_places_le rfl (by decide) fun _ hd =>
    length_natText_le (by decide) (Nat.lt_trans hd (by decide))

/-- Groups of hexadecimal digits, each of a count of them. -/
theorem length_hexGroups_le {separator : Bytes} (hsep : separator.length = 1) (upper : Bool)
    {count k : Nat} (hk : 0 < k) (n : Nat) :
    (separated separator ((places (16 ^ k) count n).map (hexGroup upper k))).length ≤
      count * (k + 1) :=
  length_separated_places_le hsep (Nat.pow_pos (by decide)) fun _ hd =>
    Nat.le_of_eq (length_hexGroup upper hk hd)

theorem IPv6.length_text_le (a : IPv6) (upper : Bool) : (a.text upper).length ≤ 8 * (4 + 1) :=
  length_hexGroups_le rfl upper (by decide) a.packed.toNat

theorem Mac.length_text_le (a : Mac) (upper : Bool) : (a.text upper).length ≤ 6 * (2 + 1) :=
  length_hexGroups_le rfl upper (by decide) a.packed.toNat

theorem Mac.length_dottedText_le (a : Mac) (upper : Bool) :
    (a.dottedText upper).length ≤ 3 * (4 + 1) :=
  length_hexGroups_le rfl upper (by decide) a.packed.toNat

theorem Directive.phoneDigits_pos (d : Directive) : 0 < d.phoneDigits := by
  unfold phoneDigits defaultPhoneDigits maxPhoneDigits
  split <;> omega

theorem length_phoneText {digits : Nat} (h : 0 < digits) (n : Nat) :
    (phoneText digits n).length = digits + 1 := by
  have hn : (natText (n % Nat.pow 10 digits)).length ≤ digits :=
    length_natText_le h (Nat.mod_lt n (Nat.pow_pos (by decide)))
  have hplus : (ascii "+").length = 1 := rfl
  rw [phoneText, List.length_append, length_zeroFilled, hplus]
  omega

/-! ## Fields -/

theorem composeText_ok {d : Directive} {text : Bytes} (h : text.length ≤ scratchCapacity) :
    composeText d text .empty = .ok { body := text, width := d.width.value } ⟨text, h⟩ :=
  Action.bind_ok (Scratch.pushText_empty h)

theorem composeGroups_ok (d : Directive) (options : Options) (v : BitVec 64) (b : Base)
    (upper : Bool) (group : Nat) :
    ∃ f s, composeGroups d options v b upper group .empty = .ok f s := by
  have h := b.length_text_word_le upper v (d.size.bits options.intWidth)
  exact ⟨_, _, Action.bind_ok (Scratch.pushText_empty (Nat.le_trans h (by decide)))⟩

/-- An extended conversion has a field for every directive and value. -/
theorem Extended.compose_ok (d : Directive) (options : Options) (c : Extended)
    (v : c.demand.Value) : ∃ f s, c.compose d options v .empty = .ok f s := by
  have text {text : Bytes} {k : Nat} (h : text.length ≤ k) (hk : k ≤ 81) :
      ∃ f s, composeText d text .empty = .ok f s :=
    ⟨_, _, composeText_ok (Nat.le_trans h hk)⟩
  cases c with
  | clockOfSeconds => exact text ((timeOfDay v).length_clockText_le true d.alternate) (by decide)
  | clock => exact text (CivilTime.length_clockText_le v true d.alternate) (by decide)
  | shortClockOfSeconds =>
    exact text ((timeOfDay v).length_clockText_le false d.alternate) (by decide)
  | shortClock => exact text (CivilTime.length_clockText_le v false d.alternate) (by decide)
  | date => exact text (CivilTime.length_dateText_le v false d.alternate) (by decide)
  | longDate => exact text (CivilTime.length_dateText_le v true d.alternate) (by decide)
  | utc => exact text (CivilTime.length_utcText_le v) (by decide)
  | binary => exact composeGroups_ok d options v .binary false 8
  | octal => exact composeGroups_ok d options v .octal false 1
  | hex => exact composeGroups_ok d options v .hexadecimal d.alternate 2
  | truth => exact ⟨_, _, rfl⟩
  | codePoint => exact ⟨_, _, rfl⟩
  | phone =>
    have hlen := length_phoneText d.phoneDigits_pos (BitVec.toNat v)
    have hmax : d.phoneDigits ≤ 19 := Nat.min_le_right _ _
    have hroom : (phoneText d.phoneDigits (BitVec.toNat v)).length ≤ scratchCapacity := by
      rw [hlen, scratchCapacity]
      omega
    exact ⟨_, _, Action.bind_ok (Scratch.pushText_empty hroom)⟩
  | ipv4 => exact text (IPv4.length_text_le v) (by decide)
  | ipv6 => exact text (IPv6.length_text_le v d.alternate) (by decide)
  | mac => exact text (Mac.length_text_le v false) (by decide)
  | macUpper => exact text (Mac.length_text_le v true) (by decide)
  | dotted => exact text (Mac.length_dottedText_le v false) (by decide)
  | dottedUpper => exact text (Mac.length_dottedText_le v true) (by decide)

end PrintFormat
