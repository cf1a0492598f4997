import PrintFormat.Journal.Validation
import PrintFormat.Proofs.Json.Value
import PrintFormat.Proofs.Text.Parts

/-!
Lines of entries. The validator has nothing to say about the line of an entry
that is as it asks (`Entry.Accepted`), and reads the entry back from it
(`Accepted.checkLine_eq`). So it does for an entry whose fields have the shapes
that a journal asks for (`checkLine_line`).
-/
namespace PrintFormat.Journal

namespace Entry

/-! ## Fields -/

/-- The fields of an entry, with what each holds if it is there. -/
def fields (e : Entry) : List (String × Option Json) :=
  [("timestamp", some (.ofText e.timestamp)), ("trace_id", some (.ofText e.traceId)),
    ("level", some (.ofText e.level.name)), ("event", some (.ofText e.event)),
    ("run_id", e.runId.map .ofText), ("fixture", e.fixture.map .ofText),
    ("case", e.caseName.map .ofText), ("sink", e.sink.map .ofText),
    ("outcome", e.outcome.map fun o => .ofText o.name),
    ("duration_ns", e.durationNs.map fun n => .ofNat n.toNat), ("details", e.details.map id)]

theorem toJson_eq (e : Entry) : e.toJson = .ofMembers (Json.present e.fields) := by
  have hnil : Json.present [] = [] := rfl
  simp only [toJson, fields, Json.present_some, Json.present_map, hnil, List.cons_append,
    List.nil_append, List.append_assoc, List.append_nil]

theorem nodup_names : (requiredFields ++ optionalFields).Nodup := by decide

/-! ## Entries that a journal asks for -/

/-- A character fits one of a pattern, where `0` stands for any digit. -/
def FitsChar (pattern c : Char) : Prop := if pattern = '0' then c.isDigit = true else c = pattern

instance (pattern c : Char) : Decidable (FitsChar pattern c) :=
  inferInstanceAs (Decidable (if pattern = '0' then c.isDigit = true else c = pattern))

/-- What a journal asks of an entry, which may leave its trace id to the journal. -/
structure Valid (e : Entry) : Prop where
  timestamp : List.Forall₂ FitsChar "0000-00-00T00:00:00Z".toList e.timestamp.toList
  traceId : e.traceId = "" ∨ [':', ':'] <:+: e.traceId.toList
  sink : ∀ s ∈ e.sink, s ∈ ["stream", "buffer", "url"]
  details : ∀ j ∈ e.details, j ≠ .null ∧ Json.IsValue 99 j

/-- What the validator asks of an entry. The details are what reading their text
makes of it, inside one container more. -/
structure Accepted (e : Entry) : Prop where
  timestamp : isTimestamp e.timestamp = true
  traceId : hasDoubleColon e.traceId.toList = true
  sink : ∀ s ∈ e.sink, s ∈ ["stream", "buffer", "url"]
  details : ∀ j ∈ e.details, j ≠ .null ∧ j.normalWithin? 126 = some j

end Entry

/-! ## Shapes of texts -/

theorem hasDoubleColon_of_infix {cs : List Char} (h : [':', ':'] <:+: cs) :
    hasDoubleColon cs = true := by
  obtain ⟨before, after, rfl⟩ := h
  induction before with
  | nil => rfl
  | cons c before ih =>
    rw [List.cons_append, List.cons_append]
    unfold hasDoubleColon
    split
    · rfl
    · rename_i heq
      rw [← (List.cons.inj heq).2]
      exact ih
    · rename_i heq
      cases heq

/-- A character that fits one of a pattern is a byte that fits it. -/
theorem exists_fits {pattern : UInt8} (hpattern : pattern.toNat < 0x80) {c : Char}
    (h : Entry.FitsChar (Char.ofUInt8 pattern) c) :
    ∃ b, b.toNat < 0x80 ∧ c = Char.ofUInt8 b ∧ fits pattern b = true := by
  unfold Entry.FitsChar at h
  by_cases hzero : pattern = zero
  · have hdigit : c.isDigit = true := by
      rwa [hzero, if_pos (show Char.ofUInt8 zero = '0' by decide)] at h
    simp only [Char.isDigit, Bool.and_eq_true, decide_eq_true_eq, UInt32.le_iff_toNat_le] at hdigit
    have hlow : 48 ≤ c.toNat := hdigit.1
    have hhigh : c.toNat ≤ 57 := hdigit.2
    have hbyte : c.toNat.toUInt8.toNat = c.toNat := 
      UInt8.toNat_ofNat_of_lt' (show c.toNat < 256 by omega)
    refine ⟨c.toNat.toUInt8, by omega, ?_, ?_⟩
    · exact Char.toNat_inj.mp hbyte.symm
    · rw [fits, if_pos hzero, isDigit, Bool.and_eq_true, decide_eq_true_eq, decide_eq_true_eq,
        UInt8.le_iff_toNat_le, UInt8.le_iff_toNat_le, hbyte]
      exact ⟨hlow, hhigh⟩
  · have hchar : Char.ofUInt8 pattern ≠ '0' := by
      intro heq
      exact hzero (UInt8.toNat_inj.mp (congrArg Char.toNat heq))
    rw [if_neg hchar] at h
    refine ⟨pattern, hpattern, h, ?_⟩
    rw [fits, if_neg hzero, decide_eq_true_eq]

/-- A text that fits a pattern does so byte by byte. -/
theorem zipWith_fits {pattern : Bytes} (hpattern : IsAscii pattern) {cs : List Char}
    (h : List.Forall₂ Entry.FitsChar (chars pattern) cs) :
    (Text.encodeChars cs).length = pattern.length ∧
      (List.zipWith fits pattern (Text.encodeChars cs)).all id = true := by
  induction pattern generalizing cs with
  | nil => cases h; exact ⟨rfl, rfl⟩
  | cons p pattern ih =>
    obtain ⟨c, rest, hc, hrest, rfl⟩ := List.forall₂_cons_left_iff.mp h
    obtain ⟨b, hb, rfl, hfits⟩ := exists_fits (hpattern p List.mem_cons_self) hc
    obtain ⟨hlength, hall⟩ := ih (fun q hq => hpattern q (List.mem_cons_of_mem p hq)) hrest
    have hencode : Text.encodeChars (Char.ofUInt8 b :: rest) = b :: Text.encodeChars rest := by
      rw [Text.encodeChars, List.flatMap_cons, Text.encode_ofUInt8 hb]
      rfl
    rw [hencode]
    refine ⟨by rw [List.length_cons, List.length_cons, hlength], ?_⟩
    rw [List.zipWith_cons_cons, List.all_cons, hall, Bool.and_true]
    exact hfits

namespace Entry

variable {e : Entry}

theorem Valid.isTimestamp (h : e.Valid) : isTimestamp e.timestamp = true := by
  have hascii : ∀ c ∈ "0000-00-00T00:00:00Z".toList, c.toNat < 0x80 := by simp
  have hshape := h.timestamp
  rw [← chars_ascii hascii] at hshape
  obtain ⟨hlength, hall⟩ := zipWith_fits (isAscii_ascii hascii) hshape
  rw [← timestampPattern] at hlength hall
  simp only [Journal.isTimestamp, Text.encode, hlength, hall, decide_true, Bool.and_self]

theorem Valid.accepted (h : e.Valid) (htrace : e.traceId ≠ "") : e.Accepted where
  timestamp := h.isTimestamp
  traceId := hasDoubleColon_of_infix (h.traceId.resolve_left htrace)
  sink := h.sink
  details j hj := ⟨(h.details j hj).1, ((h.details j hj).2.mono (by decide)).normalWithin?_eq⟩

/-! ## Reading a line -/

/-- The members of an entry's line as a value has them. -/
def members (e : Entry) : List (String × Json) := Json.sortMembers (Json.present e.fields)

/-- The members of an entry's document, which spells their names. -/
def spelledMembers (e : Entry) : List (Json.Quoted × Json) :=
  e.members.map fun m => (some m.1, m.2)

/-- Every field is found by its name, whatever the order of the members. -/
theorem lookup_members (e : Entry) (name : String) :
    e.members.lookup name = (e.fields.lookup name).join := by
  have hnodup : (e.fields.map Prod.fst).Nodup := nodup_names
  rw [members, Json.lookup_sortMembers (Json.names_present.nodup hnodup), Json.lookup_present hnodup]

/-- Each member's value is one that a line can hold. -/
theorem Accepted.normal (h : e.Accepted) :
    ∀ m ∈ Json.present e.fields, m.2.normalWithin? 126 = some m.2 := by
  intro m hm
  obtain ⟨f, hf, hvalue⟩ := List.mem_filterMap.mp hm
  obtain ⟨j, hj, rfl⟩ := Option.map_eq_some_iff.mp hvalue
  show j.normalWithin? 126 = some j
  simp only [fields, List.mem_cons, List.not_mem_nil, or_false] at hf
  rcases hf with rfl | rfl | rfl | rfl | rfl | rfl | rfl | rfl | rfl | rfl | rfl
  iterate 4
    cases hj
    rfl
  iterate 5
    obtain ⟨v, -, rfl⟩ := Option.map_eq_some_iff.mp hj
    rfl
  · obtain ⟨n, -, rfl⟩ := Option.map_eq_some_iff.mp hj
    have hsize : n.toNat < 0x10000000000000000 := n.toNat_lt
    exact (Json.IsValue.integer (by omega) (by omega)).normalWithin?_eq
  · obtain ⟨v, hv, rfl⟩ := Option.map_eq_some_iff.mp hj
    exact (h.details v hv).2

theorem readValue?_line (h : e.Accepted) :
    Json.readValue? e.line = some (.object e.spelledMembers) := by
  rw [line, toJson_eq, Json.readValue?_compact h.normal]
  rfl

section

variable {α : Type} {field : String} {read : Json → Option α}

theorem required_members {j : Json} (h : e.fields.lookup field = some (some j)) {v : α}
    (hread : read j = some v) : Json.Record.required e.members field read = some v :=
  Json.Record.required_eq (by rw [lookup_members, h]; rfl) hread

theorem optional_members {write : α → Json} {o : Option α}
    (h : e.fields.lookup field = some (o.map write)) (hnull : ∀ v ∈ o, write v ≠ .null)
    (hread : ∀ v, read (write v) = some v) :
    Json.Record.optional e.members field read = some o :=
  Json.Record.optional_eq (by rw [lookup_members, h]; rfl) hnull fun v _ => hread v

end

theorem record?_members (e : Entry) :
    (Json.object e.spelledMembers).record? (requiredFields ++ optionalFields)
      requiredFields.length = some e.members := by
  have hnames : ∀ m ∈ e.members, m.1 ∈ requiredFields ++ optionalFields :=
    fun m hm => Json.names_present.subset (List.mem_map_of_mem (Json.mem_sortMembers hm))
  have hsorted := Json.sorted_sortMembers (Json.present e.fields)
  exact Json.record?_ofMembers requiredFields.length hnames (hsorted.imp ne_of_lt)

/-- The fields of a record, one by one, are those of an entry. -/
structure Reads (r : Json.Record) (e : Entry) : Prop where
  timestamp : r.required "timestamp" Json.text? = some e.timestamp
  traceId : r.required "trace_id" Json.text? = some e.traceId
  level : r.required "level" (fun j => j.name?.bind Severity.ofName?) = some e.level
  event : r.required "event" Json.text? = some e.event
  runId : r.optional "run_id" Json.text? = some e.runId
  fixture : r.optional "fixture" Json.text? = some e.fixture
  caseName : r.optional "case" Json.text? = some e.caseName
  sink : r.optional "sink" Json.text? = some e.sink
  outcome : r.optional "outcome" (fun j => j.name?.bind Outcome.ofName?) = some e.outcome
  durationNs : r.optional "duration_ns" (fun j => j.nat?.map Nat.toUInt64) = some e.durationNs
  details : r.optional "details" some = some e.details

theorem ofJson?_eq_some_iff {j : Json} :
    ofJson? j = some e ↔
      ∃ r, j.record? (requiredFields ++ optionalFields) requiredFields.length = some r ∧
        Reads r e := by
  -- the fields are read one after the other, in the order that the entry has them
  constructor
  · intro h
    obtain ⟨r, hr, h⟩ := Option.bind_eq_some_iff.mp h
    obtain ⟨_, timestamp, h⟩ := Option.bind_eq_some_iff.mp h
    obtain ⟨_, traceId, h⟩ := Option.bind_eq_some_iff.mp h
    obtain ⟨_, level, h⟩ := Option.bind_eq_some_iff.mp h
    obtain ⟨_, event, h⟩ := Option.bind_eq_some_iff.mp h
    obtain ⟨_, runId, h⟩ := Option.bind_eq_some_iff.mp h
    obtain ⟨_, fixture, h⟩ := Option.bind_eq_some_iff.mp h
    obtain ⟨_, caseName, h⟩ := Option.bind_eq_some_iff.mp h
    obtain ⟨_, sink, h⟩ := Option.bind_eq_some_iff.mp h
    obtain ⟨_, outcome, h⟩ := Option.bind_eq_some_iff.mp h
    obtain ⟨_, durationNs, h⟩ := Option.bind_eq_some_iff.mp h
    obtain ⟨_, details, h⟩ := Option.bind_eq_some_iff.mp h
    cases h
    exact ⟨r, hr, timestamp, traceId, level, event, runId, fixture, caseName, sink, outcome,
      durationNs, details⟩
  · rintro ⟨r, hr, h⟩
    refine Option.bind_eq_some_iff.mpr ⟨_, hr, ?_⟩
    refine Option.bind_eq_some_iff.mpr ⟨_, h.timestamp, ?_⟩
    refine Option.bind_eq_some_iff.mpr ⟨_, h.traceId, ?_⟩
    refine Option.bind_eq_some_iff.mpr ⟨_, h.level, ?_⟩
    refine Option.bind_eq_some_iff.mpr ⟨_, h.event, ?_⟩
    refine Option.bind_eq_some_iff.mpr ⟨_, h.runId, ?_⟩
    refine Option.bind_eq_some_iff.mpr ⟨_, h.fixture, ?_⟩
    refine Option.bind_eq_some_iff.mpr ⟨_, h.caseName, ?_⟩
    refine Option.bind_eq_some_iff.mpr ⟨_, h.sink, ?_⟩
    refine Option.bind_eq_some_iff.mpr ⟨_, h.outcome, ?_⟩
    refine Option.bind_eq_some_iff.mpr ⟨_, h.durationNs, ?_⟩
    refine Option.bind_eq_some_iff.mpr ⟨_, h.details, ?_⟩
    rfl

theorem reads_members (h : ∀ j ∈ e.details, j ≠ .null) : Reads e.members e :=
  have text (field : String) (o : Option String)
      (hfield : e.fields.lookup field = some (o.map .ofText)) :
      Json.Record.optional e.members field Json.text? = some o :=
    optional_members hfield nofun fun _ => rfl
  have duration (n : UInt64) : (Json.ofNat n.toNat).nat?.map Nat.toUInt64 = some n := by
    rw [Json.nat?_ofNat n.toNat_lt, Option.map_some, Nat.toUInt64_eq, UInt64.ofNat_toNat]
  { timestamp := required_members rfl rfl
    traceId := required_members rfl rfl
    level := required_members (j := .ofText e.level.name) rfl (Severity.ofName?_name e.level)
    event := required_members rfl rfl
    runId := text "run_id" e.runId rfl
    fixture := text "fixture" e.fixture rfl
    caseName := text "case" e.caseName rfl
    sink := text "sink" e.sink rfl
    outcome := optional_members rfl nofun Outcome.ofName?_name
    durationNs := optional_members rfl nofun duration
    details := optional_members rfl h fun _ => rfl }

/-- An entry is read back from its members. -/
theorem ofJson?_members (h : ∀ j ∈ e.details, j ≠ .null) :
    ofJson? (.object e.spelledMembers) = some e :=
  ofJson?_eq_some_iff.mpr ⟨e.members, e.record?_members, reads_members h⟩

/-! ## Checking a line -/

/-- A member is found by the text that its name spells. -/
theorem member?_spelled (members : List (String × Json)) (field : String) :
    member? (members.map fun m => (some m.1, m.2)) field = members.lookup field := by
  induction members with
  | nil => rfl
  | cons m rest ih =>
    obtain ⟨name, value⟩ := m
    rw [Json.lookup_member, ← ih, List.map_cons, member?, Json.lookup_member]
    by_cases h : field = name
    · rw [if_pos h, if_pos (congrArg some h)]
    · rw [if_neg h, if_neg fun heq => h (Option.some.inj heq)]
      rfl

theorem member?_spelledMembers (e : Entry) (field : String) :
    member? e.spelledMembers field = (e.fields.lookup field).join := by
  rw [spelledMembers, member?_spelled, lookup_members]

theorem memberText?_spelledMembers {field : String} {o : Option String}
    (h : (e.fields.lookup field).join = o.map .ofText) :
    memberText? e.spelledMembers field = o := by
  rw [memberText?, member?_spelledMembers, h]
  cases o <;> rfl

/-- A field that has to have one of some names does so. -/
theorem Accepted.known (h : e.Accepted) : ∀ known ∈ knownNames,
    ∀ name ∈ memberText? e.spelledMembers known.1, name ∈ known.2 := by
  have hlevel : memberText? e.spelledMembers "level" = some e.level.name :=
    memberText?_spelledMembers rfl
  have houtcome : memberText? e.spelledMembers "outcome" = e.outcome.map Outcome.name :=
    memberText?_spelledMembers (by rw [Option.map_map]; rfl)
  have hsink : memberText? e.spelledMembers "sink" = e.sink := memberText?_spelledMembers rfl
  intro known hin name hname
  simp only [knownNames, List.mem_cons, List.not_mem_nil, or_false] at hin
  rcases hin with rfl | rfl | rfl
  · rw [hlevel] at hname
    cases hname
    cases e.level <;> decide
  · rw [houtcome] at hname
    obtain ⟨o, -, rfl⟩ := Option.map_eq_some_iff.mp hname
    cases o <;> decide
  · rw [hsink] at hname
    exact h.sink name hname

/-- Nothing is wrong with the members of an entry. -/
theorem complaints_members (h : e.Accepted) : complaints e.spelledMembers = [] := by
  have hmissing : requiredFields.filter
      (fun f => (member? e.spelledMembers f).isNone) = [] := by
    rw [List.filter_eq_nil_iff]
    intro field hfield
    rw [member?_spelledMembers]
    simp only [requiredFields, List.mem_cons, List.not_mem_nil, or_false] at hfield
    rcases hfield with rfl | rfl | rfl | rfl <;> exact Bool.false_ne_true
  have hunknown : knownNames.filterMap (fun known => ((memberText? e.spelledMembers known.1).filter
      (· ∉ known.2)).map (Complaint.unknownName known.1)) = [] := by
    rw [List.filterMap_eq_nil_iff]
    intro known hin
    rw [Option.map_eq_none_iff, Option.filter_eq_none_iff]
    intro name hname
    rw [decide_eq_true_eq, not_not]
    exact h.known known hin name hname
  have htraceId : memberText? e.spelledMembers "trace_id" = some e.traceId :=
    memberText?_spelledMembers rfl
  have htimestamp : memberText? e.spelledMembers "timestamp" = some e.timestamp :=
    memberText?_spelledMembers rfl
  simp only [complaints, hmissing, htraceId, htimestamp, h.traceId, h.timestamp,
    Option.filter_some, Bool.not_true, Bool.false_eq_true, if_false, Option.map_none,
    Option.toList_none, List.map_nil, List.append_nil, List.nil_append]
  exact hunknown

end Entry

theorem checkText_eq_ok {text : String} {members : List (Json.Quoted × Json)} {e : Entry}
    (hread : Json.readValue? text = some (.object members)) (hcomplaints : complaints members = [])
    (hentry : Entry.ofJson? (.object members) = some e) : checkText text = .ok e := by
  simp only [checkText, hread, hcomplaints, hentry]

namespace Entry

/-- An entry that is as the validator asks is read back from its line, whatever
number the line has. -/
theorem Accepted.checkLine_eq (h : e.Accepted) (number : Nat) :
    checkLine e.line number = .ok e := by
  have hentry := ofJson?_members fun j hj => (h.details j hj).1
  rw [checkLine, checkText_eq_ok (readValue?_line h) (complaints_members h) hentry]
  rfl

theorem checkLine_line (h : e.Valid) (htrace : e.traceId ≠ "") (number : Nat) :
    checkLine e.line number = .ok e :=
  (h.accepted htrace).checkLine_eq number

/-! ## Lines in a file -/

/-- A line has no line feed. -/
theorem not_mem_line (e : Entry) : '\n' ∉ e.line.toList :=
  fun h => absurd (Json.not_control_compact e.toJson _ h) (by decide)

/-- A line is an object, so there is nothing around it that is trimmed. -/
theorem trim_line (e : Entry) : Text.trim e.line = e.line ∧ e.line ≠ "" := by
  obtain ⟨inner, hline⟩ : ∃ inner, e.line.toList = '\x7b' :: (inner ++ ['\x7d']) := by
    rw [line, toJson_eq]
    exact Json.exists_compact_object _
  refine ⟨?_, ?_⟩
  · rw [Text.trim, hline, Text.trimChars_eq (by decide) (by decide), ← hline, String.ofList_toList]
  · intro hempty
    rw [hempty] at hline
    cases hline

end Entry
end PrintFormat.Journal
