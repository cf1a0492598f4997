import PrintFormat.Context
import PrintFormat.Fixture.Argument
import PrintFormat.Proofs.Address.Reading
import PrintFormat.Proofs.Calendar.Reading
import PrintFormat.Proofs.Render.Plain
import PrintFormat.Proofs.Text.Utf8

/-!
Arguments read back from what they are rendered to. The text of a number, an
address or a timestamp, with the name of its kind and a colon in front, is the
argument again (`rendered_readsBack`). Further colons belong to the value.
-/
namespace PrintFormat.Fixture

/-- The argument of a render that a text `kind:value` gives. -/
def argOf (text : String) : Except InvalidArgument Arg := do (← Argument.ofText text).toArg

/-- An argument is rendered to the UTF-8 of a text, with an ending behind it, that
gives the argument again as the value of a kind. -/
def ReadsBack (options : Options) (kind format : String) (arg : Arg) (ending : String := "") :
    Prop :=
  ∃ value : String,
    formatBytes (ascii format) [arg] options = .ok (value ++ ending).toUTF8.data.toList ∧
      argOf (kind ++ ":" ++ value) = .ok arg

/-! ## Texts of arguments -/

namespace Argument

/-- The first colon ends the name of the kind. -/
theorem ofText_append (kind value : String) (h : ':' ∉ kind.toList) :
    ofText (kind ++ ":" ++ value) =
      (ofValue kind value.toList).mapError (⟨kind ++ ":" ++ value, ·⟩) := by
  have hkind : ∀ c ∈ kind.toList, decide (c = ':') = false := by
    intro c hc
    refine decide_eq_false ?_
    rintro rfl
    exact h hc
  have hcut := Text.cut_append (c := ':') hkind rfl value.toList
  have htext : (kind ++ ":" ++ value).toList = kind.toList ++ ':' :: value.toList := by
    rw [String.toList_append, String.toList_append, List.append_assoc]
    rfl
  simp only [ofText, htext, hcut, String.ofList_toList]

theorem ofText_ok {kind value : String} (h : ':' ∉ kind.toList) {a : Argument}
    (ha : ofValue kind value.toList = .ok a) : ofText (kind ++ ":" ++ value) = .ok a := by
  rw [ofText_append kind value h, ha]
  rfl

/-! Values of kinds, and arguments whose text is read when they are used. -/

theorem ofValue_int (value : List Char) :
    ofValue "int" value = ((readSigned? value).map int).elim (.error .noNumber) .ok := rfl

theorem ofValue_uint (value : List Char) :
    ofValue "uint" value = ((readUnsigned? value).map uint).elim (.error .noNumber) .ok := rfl

theorem ofValue_pointer (value : List Char) :
    ofValue "pointer" value = ((readUnsigned? value).map pointer).elim (.error .noNumber) .ok :=
  rfl

theorem ofValue_str (value : List Char) :
    ofValue "str" value = .ok (str (String.ofList value)) := rfl

theorem toArg_time (s : String) :
    (time s).toArg = (CivilTime.read? s).elim (.error ⟨s, .badTime⟩) fun t => .ok (.time t) := rfl

theorem toArg_ipv4 (s : String) :
    (ipv4 s).toArg = (IPv4.read? s).elim (.error ⟨s, .badIPv4⟩) fun a => .ok (.ipv4 a) := rfl

theorem toArg_ipv6 (s : String) :
    (ipv6 s).toArg = (IPv6.read? s).elim (.error ⟨s, .badIPv6⟩) fun a => .ok (.ipv6 a) := rfl

theorem toArg_mac (s : String) :
    (mac s).toArg = (Mac.read? s).elim (.error ⟨s, .badMac⟩) fun a => .ok (.mac a) := rfl

end Argument

theorem argOf_ok (kind : String) {value : String} (h : ':' ∉ kind.toList) {a : Argument} {arg : Arg}
    (ha : Argument.ofValue kind value.toList = .ok a) (harg : a.toArg = .ok arg) :
    argOf (kind ++ ":" ++ value) = .ok arg := by
  rw [argOf, Argument.ofText_ok h ha]
  exact harg

/-- A render to ASCII is read back if its characters are a value. -/
theorem readsBack_ascii {options : Options} {kind format : String} {arg : Arg}
    {text : Bytes} {ending : String}
    (hrender : formatBytes (ascii format) [arg] options = .ok (text ++ Text.encode ending))
    (hascii : IsAscii text) (hkind : ':' ∉ kind.toList) {a : Argument}
    (ha : Argument.ofValue kind (chars text) = .ok a) (harg : a.toArg = .ok arg) :
    ReadsBack options kind format arg ending := by
  refine ⟨String.ofList (chars text), ?_, ?_⟩
  · rw [hrender, ← Text.encode_eq_toUTF8, Text.encode_append, Text.encode_ofList,
      Text.encodeChars_chars hascii]
  · rw [← String.toList_ofList (l := chars text)] at ha
    exact argOf_ok kind hkind ha harg

/-- The same with nothing behind the value. -/
theorem readsBack_whole {options : Options} {kind format : String} {arg : Arg} {text : Bytes}
    (hrender : formatBytes (ascii format) [arg] options = .ok text) (hascii : IsAscii text)
    (hkind : ':' ∉ kind.toList) {a : Argument} (ha : Argument.ofValue kind (chars text) = .ok a)
    (harg : a.toArg = .ok arg) : ReadsBack options kind format arg := by
  rw [← List.append_nil text, ← Text.encode_empty] at hrender
  exact readsBack_ascii hrender hascii hkind ha harg

/-! ## Numbers -/

variable (options : Options)

theorem render_int (v : Int64) :
    formatBytes (ascii "%lld") [.int v] options = .ok (intText v.toInt) := by
  let s : Spelling := { modifier := some .ll, conversion := some 100 }
  have hformat : Segment.ofFormat (ascii "%lld") =
      [.directive { modifier := some .ll, conversion := some 100 }] :=
    Segment.ofFormat_directive rfl
  have hplain : s.directive.Plain := ⟨rfl, rfl, rfl, rfl⟩
  obtain ⟨head, t, hcompose⟩ := hplain.convertSigned_eq options v.toBitVec
  have hvalue : (v.toBitVec.setWidth (s.directive.size.bits options.intWidth)).toInt = v.toInt :=
    congrArg BitVec.toInt (BitVec.setWidth_eq v.toBitVec)
  rw [hvalue] at hcompose
  exact formatBytes_plain hformat hplain rfl
    (Conversion.taken_standard (c := .signed) rfl hcompose [] 0)

/-- An unsigned number that is looked at in full is its numeral. -/
theorem render_unsigned {format : Bytes} {s : Spelling}
    (hformat : Segment.ofFormat format = [.directive s]) (hplain : s.directive.Plain)
    {c : Standard} (hc : s.directive.conversion? = some (.standard c)) {arg : Arg}
    {v : c.demand.Value} (hpick : c.demand.pick arg = some v) (n : UInt64)
    (hcompose : c.compose s.directive options v =
      convertUnsigned s.directive 64 n.toBitVec .decimal false fun _ => []) :
    formatBytes format [arg] options = .ok (natText n.toNat) := by
  obtain ⟨t, hnumeral⟩ := hplain.convertUnsigned_eq 64 n.toBitVec .decimal false
  rw [← hcompose, BitVec.setWidth_eq] at hnumeral
  exact formatBytes_plain hformat hplain hc (Conversion.taken_standard hpick hnumeral [] 0)

theorem render_uint (v : UInt64) :
    formatBytes (ascii "%llu") [.uint v] options = .ok (natText v.toNat) := by
  have hformat : Segment.ofFormat (ascii "%llu") =
      [.directive { modifier := some .ll, conversion := some 117 }] :=
    Segment.ofFormat_directive rfl
  exact render_unsigned options hformat ⟨rfl, rfl, rfl, rfl⟩ (c := .unsigned) rfl rfl v rfl

theorem render_pointer (p : UInt64) :
    formatBytes (ascii "%p") [.pointer p] options = .ok (natText p.toNat) := by
  have hformat : Segment.ofFormat (ascii "%p") = [.directive { conversion := some 112 }] :=
    Segment.ofFormat_directive rfl
  exact render_unsigned options hformat ⟨rfl, rfl, rfl, rfl⟩ (c := .pointer) rfl rfl p rfl

theorem readSigned?_intText (v : Int64) :
    Argument.readSigned? (chars (intText v.toInt)) = some v := by
  have hlow := v.le_toInt
  have hhigh := v.toInt_lt
  rw [Argument.readSigned?, readInt?_intText (by omega) (by omega), Option.map_some,
    Int64.ofInt_toInt]

theorem readUnsigned?_natText (n : UInt64) :
    Argument.readUnsigned? (chars (natText n.toNat)) = some n := by
  rw [Argument.readUnsigned?, readNat?_digits (readDigits?_natText n.toNat) n.toNat_lt,
    Option.map_some, Nat.toUInt64_eq, UInt64.ofNat_toNat]

theorem int_readsBack (v : Int64) : ReadsBack options "int" "%lld" (.int v) := by
  have hvalue : Argument.ofValue "int" (chars (intText v.toInt)) = .ok (.int v) := by
    rw [Argument.ofValue_int, readSigned?_intText]
    rfl
  exact readsBack_whole (render_int options v) (isAscii_intText v.toInt) (by decide) hvalue rfl

theorem uint_readsBack (v : UInt64) : ReadsBack options "uint" "%llu" (.uint v) := by
  have hvalue : Argument.ofValue "uint" (chars (natText v.toNat)) = .ok (.uint v) := by
    rw [Argument.ofValue_uint, readUnsigned?_natText]
    rfl
  exact readsBack_whole (render_uint options v) (isAscii_natText v.toNat) (by decide) hvalue rfl

theorem pointer_readsBack (p : UInt64) : ReadsBack options "pointer" "%p" (.pointer p) := by
  have hvalue : Argument.ofValue "pointer" (chars (natText p.toNat)) = .ok (.pointer p) := by
    rw [Argument.ofValue_pointer, readUnsigned?_natText]
    rfl
  exact readsBack_whole (render_pointer options p) (isAscii_natText p.toNat) (by decide) hvalue rfl

/-! ## Addresses and times -/

theorem render_ipv4 (a : IPv4) : formatBytes (ascii "%!i") [.ipv4 a] options = .ok a.text := by
  have hformat : Segment.ofFormat (ascii "%!i") =
      [.directive { bang := true, conversion := some 105 }] :=
    Segment.ofFormat_directive rfl
  exact formatBytes_composed hformat ⟨rfl, rfl, rfl, rfl⟩ (c := .ipv4) rfl rfl
    (Nat.le_trans a.length_text_le (by decide)) rfl

theorem render_ipv6 (a : IPv6) :
    formatBytes (ascii "%!I") [.ipv6 a] options = .ok (a.text false) ∧
      formatBytes (ascii "%!^I") [.ipv6 a] options = .ok (a.text true) := by
  have hlower : Segment.ofFormat (ascii "%!I") =
      [.directive { bang := true, conversion := some 73 }] :=
    Segment.ofFormat_directive rfl
  have hupper : Segment.ofFormat (ascii "%!^I") =
      [.directive { bang := true, caret := true, conversion := some 73 }] :=
    Segment.ofFormat_directive rfl
  have hlength (upper : Bool) : (a.text upper).length ≤ scratchCapacity :=
    Nat.le_trans (a.length_text_le upper) (by decide)
  exact ⟨formatBytes_composed hlower ⟨rfl, rfl, rfl, rfl⟩ (c := .ipv6) rfl rfl (hlength false) rfl,
    formatBytes_composed hupper ⟨rfl, rfl, rfl, rfl⟩ (c := .ipv6) rfl rfl (hlength true) rfl⟩

theorem render_mac (a : Mac) :
    formatBytes (ascii "%!m") [.mac a] options = .ok (a.text false) ∧
      formatBytes (ascii "%!M") [.mac a] options = .ok (a.text true) := by
  have hlower : Segment.ofFormat (ascii "%!m") =
      [.directive { bang := true, conversion := some 109 }] :=
    Segment.ofFormat_directive rfl
  have hupper : Segment.ofFormat (ascii "%!M") =
      [.directive { bang := true, conversion := some 77 }] :=
    Segment.ofFormat_directive rfl
  have hlength (upper : Bool) : (a.text upper).length ≤ scratchCapacity :=
    Nat.le_trans (a.length_text_le upper) (by decide)
  exact ⟨formatBytes_composed hlower ⟨rfl, rfl, rfl, rfl⟩ (c := .mac) rfl rfl (hlength false) rfl,
    formatBytes_composed hupper ⟨rfl, rfl, rfl, rfl⟩ (c := .macUpper) rfl rfl (hlength true) rfl⟩

theorem ipv4_readsBack (a : IPv4) : ReadsBack options "ipv4" "%!i" (.ipv4 a) := by
  have harg : (Argument.ipv4 (String.ofList (chars a.text))).toArg = .ok (.ipv4 a) := by
    rw [Argument.toArg_ipv4, IPv4.read?_text]
    rfl
  exact readsBack_whole (render_ipv4 options a) a.isAscii_text (by decide) rfl harg

theorem ipv6_readsBack (a : IPv6) :
    ReadsBack options "ipv6" "%!I" (.ipv6 a) ∧ ReadsBack options "ipv6" "%!^I" (.ipv6 a) := by
  obtain ⟨hlower, hupper⟩ := render_ipv6 options a
  have harg (upper : Bool) :
      (Argument.ipv6 (String.ofList (chars (a.text upper)))).toArg = .ok (.ipv6 a) := by
    rw [Argument.toArg_ipv6, IPv6.read?_text]
    rfl
  exact ⟨readsBack_whole hlower (a.isAscii_text false) (by decide) rfl (harg false),
    readsBack_whole hupper (a.isAscii_text true) (by decide) rfl (harg true)⟩

theorem mac_readsBack (a : Mac) :
    ReadsBack options "mac" "%!m" (.mac a) ∧ ReadsBack options "mac" "%!M" (.mac a) := by
  obtain ⟨hlower, hupper⟩ := render_mac options a
  have harg (upper : Bool) :
      (Argument.mac (String.ofList (chars (a.text upper)))).toArg = .ok (.mac a) := by
    rw [Argument.toArg_mac, Mac.read?_text]
    rfl
  exact ⟨readsBack_whole hlower (a.isAscii_text false) (by decide) rfl (harg false),
    readsBack_whole hupper (a.isAscii_text true) (by decide) rfl (harg true)⟩

theorem time_readsBack (t : CivilTime) (hyear : 0 ≤ t.year) (hmonth : 1 ≤ t.month ∧ t.month ≤ 12)
    (hday : 1 ≤ t.day ∧ t.day ≤ 31) : ReadsBack options "time" "%!Z" (.time t) "Z" := by
  have hrender := formatBytes_utc t options
  have hletter : ascii "Z" = Text.encode "Z" := by decide +kernel
  rw [t.utcText_eq, hletter] at hrender
  have hread := t.read?_stamp (Int32.le_iff_toInt_le.mp hyear) hmonth hday
  have harg : (Argument.time (String.ofList (chars t.stamp))).toArg = .ok (.time t) := by
    rw [Argument.toArg_time, hread]
    rfl
  exact readsBack_ascii hrender t.isAscii_stamp (by decide) rfl harg

/-! ## Text -/

theorem render_text (text : Bytes) : formatBytes (ascii "%s") [.str text] options = .ok text := by
  have hformat : Segment.ofFormat (ascii "%s") = [.directive { conversion := some 115 }] :=
    Segment.ofFormat_directive rfl
  have htaken : (Conversion.standard .text).taken { conversion := some 115 } options
      ⟨[.str text], 0⟩ = .ok { body := text } ⟨[], 1⟩ := rfl
  exact formatBytes_plain hformat ⟨rfl, rfl, rfl, rfl⟩ rfl htaken

theorem render_codePoint (c : Char) :
    formatBytes (ascii "%!U") [.uint c.toNat.toUInt64] options =
      .ok (CodePoint.encode c.toNat) := by
  have hformat : Segment.ofFormat (ascii "%!U") =
      [.directive { bang := true, conversion := some 85 }] :=
    Segment.ofFormat_directive rfl
  have hlt : c.toNat < UInt32.size := c.val.toNat_lt
  have hword : c.toNat.toUInt64.toBitVec.toNat = c.toNat := by
    rw [UInt64.toNat_toBitVec, Nat.toUInt64_eq, UInt64.toNat_ofNat_of_lt']
    exact Nat.lt_trans hlt (by decide)
  have hcompose : Extended.codePoint.compose
      (Spelling.directive { bang := true, conversion := some 85 }) options
      c.toNat.toUInt64.toBitVec .empty =
      .ok { body := CodePoint.encode (c.toNat.toUInt64.toBitVec.toNat % UInt32.size) } .empty := rfl
  rw [hword, Nat.mod_eq_of_lt hlt] at hcompose
  exact formatBytes_plain hformat ⟨rfl, rfl, rfl, rfl⟩ rfl
    (Conversion.taken_extended rfl hcompose [] 0)

/-- What the engine renders an argument to is read back as the argument: integers
in full width, addresses in both cases of their digits, and timestamps whose date
is in range, without their last letter. A text and a character are rendered to
their UTF-8. -/
theorem rendered_readsBack (options : Options) :
    (∀ v, ReadsBack options "int" "%lld" (.int v)) ∧
    (∀ v, ReadsBack options "uint" "%llu" (.uint v)) ∧
    (∀ p, ReadsBack options "pointer" "%p" (.pointer p)) ∧
    (∀ a, ReadsBack options "ipv4" "%!i" (.ipv4 a)) ∧
    (∀ a, ReadsBack options "ipv6" "%!I" (.ipv6 a) ∧ ReadsBack options "ipv6" "%!^I" (.ipv6 a)) ∧
    (∀ a, ReadsBack options "mac" "%!m" (.mac a) ∧ ReadsBack options "mac" "%!M" (.mac a)) ∧
    (∀ t : CivilTime, 0 ≤ t.year → 1 ≤ t.month ∧ t.month ≤ 12 → 1 ≤ t.day ∧ t.day ≤ 31 →
      ReadsBack options "time" "%!Z" (.time t) "Z") ∧
    (∀ text : String, ∃ arg, argOf ("str:" ++ text) = .ok arg ∧
      formatBytes (ascii "%s") [arg] options = .ok text.toUTF8.data.toList) ∧
    (∀ c : Char, ∃ arg, argOf ("char:" ++ String.singleton c) = .ok arg ∧
      formatBytes (ascii "%!U") [arg] options = .ok (String.utf8EncodeChar c)) := by
  refine ⟨int_readsBack options, uint_readsBack options, pointer_readsBack options,
    ipv4_readsBack options, ipv6_readsBack options, mac_readsBack options,
    time_readsBack options, ?_, ?_⟩
  · intro text
    have hvalue : Argument.ofValue "str" text.toList = .ok (.str text) := by
      rw [Argument.ofValue_str, String.ofList_toList]
    refine ⟨.str (Text.encode text), argOf_ok "str" (by decide) hvalue rfl, ?_⟩
    rw [render_text, Text.encode_eq_toUTF8]
  · intro c
    have hvalue : Argument.ofValue "char" (String.singleton c).toList = .ok (.char c) := by
      rw [String.toList_singleton]
      rfl
    refine ⟨.uint c.toNat.toUInt64, argOf_ok "char" (by decide) hvalue rfl, ?_⟩
    rw [render_codePoint, Text.encode_toNat]

/-- A time of day that no clock shows, in a year of five digits. -/
theorem timestamp_readsBack :
    let t : CivilTime := ⟨12026, 2, 31, 25, 61, 255⟩
    0 ≤ t.year ∧ (1 ≤ t.month ∧ t.month ≤ 12) ∧ (1 ≤ t.day ∧ t.day ≤ 31) ∧
      ReadsBack {} "time" "%!Z" (.time t) "Z" := by
  intro t
  obtain ⟨-, -, -, -, -, -, htime, -⟩ := rendered_readsBack {}
  exact ⟨by decide, by decide, by decide, htime t (by decide) (by decide) (by decide)⟩

end PrintFormat.Fixture
