import PrintFormat.Proofs.Checked.Standard

/-!
Extended conversions in the span's cells. Their texts are put together back to
front, one field after the other. `Puts` says that an action puts a text in
front wherever there is room for it, and what is put in a row is put together;
since all these texts are shorter than the room, each conversion comes to its
field from a span without text. The name of a month and the octets of an address
are looked up within their tables, and the modulus of a telephone number fits a
word.
-/
namespace PrintFormat

/-- The names of the months. -/
def monthNames : List String :=
  ["January", "February", "March", "April", "May", "June", "July", "August", "September",
    "October", "November", "December"]

namespace Span

/-! ### Times and dates -/

/-- Puts a field of at least two decimal digits in front. -/
def pushTwoDigits (n : UInt8) : Checked Span Unit := pushField .decimal false 2 n.toNat

/-- Puts a year in front. -/
def pushYear (year : Int32) : Checked Span Unit := do
  pushField .decimal false 4 year.toInt.natAbs
  if year.toInt < 0 then push minus

/-- Puts the half of a day in front, on a clock of twelve hours. -/
def pushHalf (t : CivilTime) (twelve : Bool) : Checked Span Unit := do
  if twelve then prepend (ascii (if t.hour < 12 then " AM" else " PM"))

/-- Puts the seconds and a colon in front, if they are shown. -/
def pushSeconds (t : CivilTime) (seconds : Bool) : Checked Span Unit := do
  if seconds then
    pushTwoDigits t.second
    push 58

/-- Puts a time of day in front. -/
def pushClock (t : CivilTime) (seconds twelve : Bool) : Checked Span Unit := do
  pushHalf t twelve
  pushSeconds t seconds
  pushTwoDigits t.minute
  push 58
  pushTwoDigits (if twelve then t.twelveHour else t.hour)

/-- Puts the name of a month in front. -/
def pushMonthName (month : UInt8) : Checked Span Unit := do
  let i ← Checked.sub (min (max month.toNat 1) 12) 1
  prepend (ascii (← Checked.element monthNames i))

/-- Puts the year of a date in front. -/
def pushDateYear (t : CivilTime) (long : Bool) : Checked Span Unit :=
  if long then pushYear t.year else pushField .decimal false 2 (t.year.toInt % 100).toNat

/-- Puts a date in front. -/
def pushDate (t : CivilTime) (long named : Bool) : Checked Span Unit := do
  pushDateYear t long
  if named then
    push blank
    prepend (ascii (ordinalSuffix t.day))
    let _ ← counted (pushDigits .decimal false t.day.toNat)
    push blank
    pushMonthName t.month
  else
    push 47
    pushTwoDigits t.month
    push 47
    pushTwoDigits t.day

/-- Puts a timestamp in front. -/
def pushUtc (t : CivilTime) : Checked Span Unit := do
  push 90
  pushTwoDigits t.second
  push 58
  pushTwoDigits t.minute
  push 58
  pushTwoDigits t.hour
  push 84
  pushTwoDigits t.day
  push minus
  pushTwoDigits t.month
  push minus
  pushYear t.year

/-! ### Addresses and telephone numbers -/

/-- Puts items in front, the last one first, with a mark between. -/
def pushSeparated {ε : Type} (mark : UInt8) (act : ε → Checked Span Unit) :
    List ε → Checked Span Unit
  | [] => return
  | [a] => act a
  | a :: rest => do
      pushSeparated mark act rest
      push mark
      act a

/-- Puts an IPv4 address in front. -/
def pushIPv4 (a : IPv4) : Checked Span Unit :=
  pushSeparated 46 (fun n => do let _ ← counted (pushDigits .decimal false n)) a.octets

/-- Puts an IPv6 address in front. -/
def pushIPv6 (a : IPv6) (upper : Bool) : Checked Span Unit :=
  pushSeparated 58 (pushField .hexadecimal upper 4) a.groups

/-- Puts a hardware address in front. -/
def pushMac (a : Mac) (upper : Bool) : Checked Span Unit :=
  pushSeparated 58 (pushField .hexadecimal upper 2) a.octets

/-- Puts a hardware address in front in groups of two octets, which are looked
up. -/
def pushDotted (a : Mac) (upper : Bool) : Checked Span Unit :=
  pushSeparated 46 (fun i => do
    let high ← Checked.element a.octets (2 * i)
    let low ← Checked.element a.octets (2 * i + 1)
    pushField .hexadecimal upper 4 (high * 256 + low)) (List.range 3)

/-- Puts the last digits of a number in front, behind a plus sign. -/
def pushPhone (digits n : Nat) : Checked Span Unit := do
  let modulus ← Checked.word 64 (10 ^ digits)
  let _ ← Checked.require (0 < modulus)
  pushField .decimal false digits (n % modulus)
  push 43

/-! ### Conversions -/

/-- Puts a text in the span and pads it with blanks. -/
def composeText (d : Directive) (act : Checked Span Unit) : Checked Span Field := do
  act
  return { body := ← text, width := d.width.value }

/-- A number in groups of digits, filled with zeros to whole groups and to the
precision. -/
def composeGroups (d : Directive) (options : Options) (v : BitVec 64) (b : Base) (upper : Bool)
    (group : Nat) : Checked Span Field := do
  let digits ← counted (pushDigits b upper (v.setWidth (d.size.bits options.intWidth)).toNat)
  let _ ← Checked.require (0 < group)
  zeroPad (max ((digits + group - 1) / group * group) (d.places?.getD 0))
  return { body := ← text, width := d.width.value }

/-- The layout of a code point, cut from a row of four bytes. -/
def composeCodePoint (d : Directive) (cp : Nat) : Checked Span Field := do
  let layout := CodePoint.encode cp
  let row := layout ++ List.replicate (4 - layout.length) 0
  return { body := ← Checked.slice row 0 layout.length, width := d.width.value }

/-- The field of an extended directive for the value it took. -/
def extended (d : Directive) (options : Options) :
    (c : Extended) → c.demand.Value → Checked Span Field
  | .clockOfSeconds, v => composeText d (pushClock (timeOfDay v) true d.alternate)
  | .clock, t => composeText d (pushClock t true d.alternate)
  | .shortClockOfSeconds, v => composeText d (pushClock (timeOfDay v) false d.alternate)
  | .shortClock, t => composeText d (pushClock t false d.alternate)
  | .date, t => composeText d (pushDate t false d.alternate)
  | .longDate, t => composeText d (pushDate t true d.alternate)
  | .utc, t => composeText d (pushUtc t)
  | .binary, v => composeGroups d options v .binary false 8
  | .octal, v => composeGroups d options v .octal false 1
  | .hex, v => composeGroups d options v .hexadecimal d.alternate 2
  | .truth, v => pure
      { body := ascii (if (v : BitVec 64) ≠ 0 then "True" else "False"), width := d.width.value }
  | .codePoint, v => composeCodePoint d ((v : BitVec 64).toNat % UInt32.size)
  | .phone, v => do
      pushPhone d.phoneDigits (v : BitVec 64).toNat
      return { body := ← text }
  | .ipv4, a => composeText d (pushIPv4 a)
  | .ipv6, a => composeText d (pushIPv6 a d.alternate)
  | .mac, a => composeText d (pushMac a false)
  | .macUpper, a => composeText d (pushMac a true)
  | .dotted, a => composeText d (pushDotted a false)
  | .dottedUpper, a => composeText d (pushDotted a true)

/-! ### What is put in front -/

/-- An action that puts a text in front wherever there is room for it. -/
def Puts {α : Type} (act : Checked Span α) (bytes : Bytes) : Prop :=
  ∀ s : Span, (bytes ++ s.view.text).length ≤ scratchCapacity →
    ∃ a t, act s = .ok a t ∧ t.view.text = bytes ++ s.view.text

namespace Puts

variable {α β : Type} {act : Checked Span α} {a b : Bytes}

/-- What is put in a row stands the other way round. -/
theorem andThen {next : α → Checked Span β} (h : Puts act a) (h' : ∀ x, Puts (next x) b) :
    Puts (act >>= next) (b ++ a) := by
  intro s hroom
  rw [List.append_assoc] at hroom ⊢
  have hfirst : (a ++ s.view.text).length ≤ scratchCapacity := by
    rw [List.length_append] at hroom
    omega
  obtain ⟨x, t, ht, htext⟩ := h s hfirst
  obtain ⟨y, u, hu, hu'⟩ := h' x t (htext ▸ hroom)
  exact ⟨y, u, (Action.bind_ok ht).trans hu, hu'.trans (by rw [htext])⟩

theorem pure (x : α) : Puts (Pure.pure x) [] := fun s _ => ⟨x, s, rfl, rfl⟩

theorem ite {p : Prop} [Decidable p] {act' : Checked Span α} (h : Puts act a) (h' : Puts act' b) :
    Puts (if p then act else act') (if p then a else b) := by
  split
  · exact h
  · exact h'

theorem push (byte : UInt8) : Puts (Span.push byte) [byte] := fun s hroom =>
  ⟨(), _, push_ok hroom, congrArg Scratch.text (s.view_withText _)⟩

theorem prepend (bytes : Bytes) : Puts (Span.prepend bytes) bytes := fun s hroom =>
  ⟨(), _, prepend_ok hroom, congrArg Scratch.text (s.view_withText _)⟩

theorem of_forM {act : Checked Span Unit}
    (h : Checked.CarriesOut view act (a.reverse.forM Scratch.push)) : Puts act a := by
  intro s hroom
  have hplain : (a.reverse.reverse ++ s.view.text).length ≤ scratchCapacity := by
    rwa [List.reverse_reverse]
  obtain ⟨t, ht, hview⟩ := (h s).ok (Scratch.forM_push hplain)
  refine ⟨(), t, ht, (congrArg Scratch.text hview).trans ?_⟩
  show a.reverse.reverse ++ s.view.text = a ++ s.view.text
  rw [List.reverse_reverse]

theorem of_pushText {act : Checked Span Nat}
    (h : Checked.CarriesOut view act (Scratch.pushText a)) : Puts act a := by
  intro s hroom
  obtain ⟨t, ht, hview⟩ := (h s).ok (Scratch.pushText_ok hroom)
  exact ⟨_, t, ht, by rw [hview]⟩

theorem number (b : Base) (upper : Bool) (n : Nat) :
    Puts (counted (pushDigits b upper n)) (b.text upper n) :=
  of_pushText (counted_pushText (pushDigits_carriesOut b upper n))

theorem field (b : Base) (upper : Bool) (digits n : Nat) :
    Puts (pushField b upper digits n) (zeroFilled digits (b.text upper n)) :=
  of_forM (pushField_carriesOut b upper digits n)

theorem twoDigits (n : UInt8) : Puts (pushTwoDigits n) (PrintFormat.twoDigits n) :=
  field .decimal false 2 n.toNat

theorem year (year : Int32) : Puts (pushYear year) (yearText year) :=
  (field .decimal false 4 year.toInt.natAbs).andThen fun _ => .ite (.push minus) (.pure ())

theorem clock (t : CivilTime) (seconds twelve : Bool) :
    Puts (pushClock t seconds twelve) (t.clockText seconds twelve) := by
  have hhalf : Puts (pushHalf t twelve)
      (if twelve then ascii (if t.hour < 12 then " AM" else " PM") else []) :=
    .ite (.prepend _) (.pure ())
  have hseconds : Puts (pushSeconds t seconds)
      (if seconds then ascii ":" ++ PrintFormat.twoDigits t.second else []) :=
    .ite ((Puts.twoDigits t.second).andThen fun _ => .push 58) (.pure ())
  exact hhalf.andThen fun _ => hseconds.andThen fun _ => (Puts.twoDigits t.minute).andThen fun _ =>
    (Puts.push 58).andThen fun _ => .twoDigits _

theorem monthName (month : UInt8) :
    Puts (pushMonthName month) (ascii (PrintFormat.monthName month)) := by
  have hone : 1 ≤ min (max month.toNat 1) 12 := by omega
  have hwithin : min (max month.toNat 1) 12 - 1 < monthNames.length := by
    show _ < 12
    omega
  have hname : monthNames[min (max month.toNat 1) 12 - 1] = PrintFormat.monthName month := by
    unfold PrintFormat.monthName
    split
    -- December stands for all months from the twelfth on
    case h_13 =>
      simp only [imp_false] at *
      have hlast : min (max month.toNat 1) 12 - 1 = 11 := by omega
      simp [hlast, monthNames]
    all_goals simp_all [monthNames]
  rw [pushMonthName, Checked.sub_of hone, pure_bind, Checked.element_of hwithin, pure_bind, hname]
  exact .prepend _

theorem dateYear (t : CivilTime) (long : Bool) : Puts (pushDateYear t long) (t.dateYear long) :=
  .ite (.year t.year) (.field _ _ _ _)

theorem date (t : CivilTime) (long named : Bool) :
    Puts (pushDate t long named) (t.dateText long named) := by
  cases named with
  | true =>
    exact (Puts.dateYear t long).andThen fun _ => (Puts.push blank).andThen fun _ =>
      (Puts.prepend _).andThen fun _ => (Puts.number .decimal false _).andThen fun _ =>
      (Puts.push blank).andThen fun _ => .monthName t.month
  | false =>
    exact (Puts.dateYear t long).andThen fun _ => (Puts.push 47).andThen fun _ =>
      (Puts.twoDigits t.month).andThen fun _ => (Puts.push 47).andThen fun _ => .twoDigits t.day

theorem utc (t : CivilTime) : Puts (pushUtc t) t.utcText :=
  (Puts.push 90).andThen fun _ => (Puts.twoDigits t.second).andThen fun _ =>
    (Puts.push 58).andThen fun _ => (Puts.twoDigits t.minute).andThen fun _ =>
    (Puts.push 58).andThen fun _ => (Puts.twoDigits t.hour).andThen fun _ =>
    (Puts.push 84).andThen fun _ => (Puts.twoDigits t.day).andThen fun _ =>
    (Puts.push minus).andThen fun _ => (Puts.twoDigits t.month).andThen fun _ =>
    (Puts.push minus).andThen fun _ => .year t.year

theorem separated {ε : Type} {mark : UInt8} {act : ε → Checked Span Unit} {write : ε → Bytes}
    {items : List ε} (h : ∀ a ∈ items, Puts (act a) (write a)) :
    Puts (pushSeparated mark act items) (PrintFormat.separated [mark] (items.map write)) := by
  induction items with
  | nil => exact .pure ()
  | cons a rest ih =>
    have hfirst := h a List.mem_cons_self
    cases rest with
    | nil => exact hfirst
    | cons b rest =>
      have hrest := ih fun c hc => h c (List.mem_cons_of_mem a hc)
      have hboth := hrest.andThen fun _ => (Puts.push mark).andThen fun _ => hfirst
      exact hboth

theorem ipv4 (a : IPv4) : Puts (pushIPv4 a) a.text :=
  separated fun n _ => (Puts.number .decimal false n).andThen fun _ => .pure ()

theorem ipv6 (a : IPv6) (upper : Bool) : Puts (pushIPv6 a upper) (a.text upper) :=
  separated fun n _ => .field .hexadecimal upper 4 n

theorem mac (a : Mac) (upper : Bool) : Puts (pushMac a upper) (a.text upper) :=
  separated fun n _ => .field .hexadecimal upper 2 n

theorem dotted (a : Mac) (upper : Bool) : Puts (pushDotted a upper) (a.dottedText upper) := by
  have hlength : a.octets.length = 6 := length_places 256 6 _
  have hgroups : (places 65536 3 a.packed.toNat).map (hexGroup upper 4) =
      (List.range 3).map fun i =>
        hexGroup upper 4 ((places 65536 3 a.packed.toNat).getD i 0) := rfl
  unfold Mac.dottedText
  rw [hgroups]
  refine separated fun i hi => ?_
  have hi : i < 3 := List.mem_range.mp hi
  have hvalue : a.octets[2 * i] * 256 + a.octets[2 * i + 1] =
      (places 65536 3 a.packed.toNat).getD i 0 := by
    obtain rfl | rfl | rfl : i = 0 ∨ i = 1 ∨ i = 2 := by omega
    all_goals
      simp only [Mac.octets, places]
      simp
      omega
  rw [Checked.element_of (by omega), pure_bind, Checked.element_of (by omega), pure_bind, hvalue]
  exact .field .hexadecimal upper 4 _

theorem phone {digits : Nat} (h : digits ≤ maxPhoneDigits) (n : Nat) :
    Puts (pushPhone digits n) (phoneText digits n) := by
  have hmodulus : 10 ^ digits < 2 ^ 64 :=
    calc 10 ^ digits ≤ 10 ^ maxPhoneDigits := Nat.pow_le_pow_right (by decide) h
      _ < 2 ^ 64 := by decide
  rw [pushPhone, Checked.word_of hmodulus, pure_bind,
    Checked.require_of (Nat.pow_pos (by decide)), pure_bind]
  exact (Puts.field .decimal false digits _).andThen fun _ => .push 43

end Puts

/-! ### Carried out -/

variable {s : Span}

/-- A text that is shorter than the room comes to its field. -/
theorem composeText_carriesOut (hs : s.view = .empty) (d : Directive) {act : Checked Span Unit}
    {bytes : Bytes} (h : Puts act bytes) {k : Nat} (hlen : bytes.length ≤ k)
    (hk : k ≤ scratchCapacity) :
    Checked.CarriesOutAt view s (composeText d act) (PrintFormat.composeText d bytes) := by
  have hroom : bytes.length ≤ scratchCapacity := Nat.le_trans hlen hk
  have hempty : s.view.text = [] := by rw [hs]; rfl
  obtain ⟨_, t, ht, htext⟩ := h s (by rwa [hempty, List.append_nil])
  rw [hempty, List.append_nil] at htext
  refine Checked.carriesOutAt_of_ok (t := t) (a := { body := bytes, width := d.width.value }) ?_ ?_
  · rw [composeText, Action.bind_ok ht, Action.bind_ok (text_eq t), htext]
    rfl
  · rw [hs, composeText_ok hroom, view_eq (t := ⟨bytes, hroom⟩) htext]

theorem composeGroups_carriesOut (d : Directive) (options : Options) (v : BitVec 64) (b : Base)
    (upper : Bool) {group : Nat} (h : 0 < group) :
    Checked.CarriesOut view (composeGroups d options v b upper group)
      (PrintFormat.composeGroups d options v b upper group) := by
  refine (counted_pushText (pushDigits_carriesOut _ _ _)).bind fun digits => ?_
  rw [Checked.require_of h, pure_bind]
  refine (zeroPad_carriesOut _).bind fun _ => ?_
  let field (body : Bytes) : Field := { body, width := d.width.value }
  exact text_carriesOut (l := fun body => pure (field body)) fun _ => .pure _

theorem composeCodePoint_carriesOut (d : Directive) (cp : Nat) :
    Checked.CarriesOut view (composeCodePoint d cp)
      (pure { body := CodePoint.encode cp, width := d.width.value }) := by
  have hle : (CodePoint.encode cp).length ≤
      (CodePoint.encode cp ++ List.replicate (4 - (CodePoint.encode cp).length) 0).length := by
    rw [List.length_append]
    omega
  unfold composeCodePoint
  dsimp only
  rw [Checked.slice_of (Nat.zero_le _) hle, pure_bind, List.drop_zero, List.take_left]
  exact .pure _

/-- An extended conversion in the cells comes to its field. -/
theorem extended_carriesOut (hs : s.view = .empty) (d : Directive) (options : Options)
    (c : Extended) (v : c.demand.Value) :
    Checked.CarriesOutAt view s (extended d options c v) (c.compose d options v) := by
  have clock (t : CivilTime) (seconds : Bool) :=
    composeText_carriesOut hs d (.clock t seconds d.alternate) (t.length_clockText_le _ _)
      (by decide)
  have date (t : CivilTime) (long : Bool) :=
    composeText_carriesOut hs d (.date t long d.alternate) (t.length_dateText_le _ _) (by decide)
  have mac (a : Mac) (upper : Bool) :=
    composeText_carriesOut hs d (.mac a upper) (a.length_text_le upper) (by decide)
  have dotted (a : Mac) (upper : Bool) :=
    composeText_carriesOut hs d (.dotted a upper) (a.length_dottedText_le upper) (by decide)
  cases c with
  | clockOfSeconds => exact clock (timeOfDay v) true
  | clock => exact clock v true
  | shortClockOfSeconds => exact clock (timeOfDay v) false
  | shortClock => exact clock v false
  | date => exact date v false
  | longDate => exact date v true
  | utc => exact composeText_carriesOut hs d (.utc v) (CivilTime.length_utcText_le v) (by decide)
  | binary => exact composeGroups_carriesOut d options v .binary false (by decide) s
  | octal => exact composeGroups_carriesOut d options v .octal false (by decide) s
  | hex => exact composeGroups_carriesOut d options v .hexadecimal d.alternate (by decide) s
  | truth => exact Checked.CarriesOut.pure _ s
  | codePoint => exact composeCodePoint_carriesOut d _ s
  | phone =>
    -- a telephone number is a text without a width
    have hmax : d.phoneDigits ≤ maxPhoneDigits := Nat.min_le_right _ _
    exact composeText_carriesOut hs {} (.phone hmax _)
      (length_phoneText d.phoneDigits_pos _).le (Nat.le_trans (Nat.succ_le_succ hmax) (by decide))
  | ipv4 => exact composeText_carriesOut hs d (.ipv4 v) (IPv4.length_text_le v) (by decide)
  | ipv6 => exact composeText_carriesOut hs d (.ipv6 v _) (IPv6.length_text_le v _) (by decide)
  | mac => exact mac v false
  | macUpper => exact mac v true
  | dotted => exact dotted v false
  | dottedUpper => exact dotted v true

end Span
end PrintFormat
