import PrintFormat.Fixture
import PrintFormat.Proofs.Json.Value

/-!
Fixture files read back. An argument, a case and a fixture are each read back
from the document that they are written as, whatever the case leaves out; only
the numerals of floats may stand for other floats. With `Json.read?_pretty` the
text of a fixture without floats gives the fixture again, so that writing what
was read from any text is reading and writing once and for all
(`read?_text_of_noFloats`).
-/
namespace PrintFormat.Fixture

/-! ## Arguments -/

namespace Argument

variable {a : Argument}

theorem signed?_ofInt (v : Int64) : signed? (.ofInt v.toInt) = some v := by
  have hlow := v.le_toInt
  have hhigh := v.toInt_lt
  have hint : (Json.ofInt v.toInt).int? = some v.toInt :=
    Json.int?_ofInt (by omega) (by omega)
  have hrange : (decide (-0x8000000000000000 ≤ v.toInt) && decide (v.toInt < 0x8000000000000000)) =
      true := by
    rw [Bool.and_eq_true, decide_eq_true_eq, decide_eq_true_eq]
    omega
  rw [signed?, hint, Option.filter_some, if_pos hrange, Option.map_some, Int64.ofInt_toInt]

theorem unsigned?_ofNat (v : UInt64) : unsigned? (.ofNat v.toNat) = some v := by
  rw [unsigned?, Json.nat?_ofNat v.toNat_lt, Option.map_some, Nat.toUInt64_eq, UInt64.ofNat_toNat]

theorem char?_singleton (c : Char) : (Json.ofText (String.singleton c)).char? = some c := by
  have htext : (Json.ofText (String.singleton c)).text?.map String.toList = some [c] :=
    congrArg some (String.toList_singleton c)
  rw [Json.char?, htext]

/-- A value is read back by its kind. -/
theorem ofValueJson?_valueJson (h : ∀ v, a ≠ .float v) :
    ofValueJson? a.kind a.valueJson = some a := by
  cases a with
  | int v => exact congrArg (Option.map int) (signed?_ofInt v)
  | uint v => exact congrArg (Option.map uint) (unsigned?_ofNat v)
  | float v => exact absurd rfl (h v)
  | char c => exact congrArg (Option.map char) (char?_singleton c)
  | bool b => rfl
  | str s => rfl
  | pointer p => exact congrArg (Option.map pointer) (unsigned?_ofNat p)
  | time s => rfl
  | epoch s => exact congrArg (Option.map epoch) (signed?_ofInt s)
  | ipv4 s => rfl
  | ipv6 s => rfl
  | mac s => rfl

theorem ofJson?_toJson (h : ∀ v, a ≠ .float v) : ofJson? a.toJson = some a := by
  let members : List (String × Json) := [("type", .ofText a.kind), ("value", a.valueJson)]
  have hrecord : a.toJson.record? ["type", "value"] 2 = some members :=
    Json.record?_ofMembers 2 (by simp) (by simp)
  have kind : Json.Record.required members "type" Json.name? = some a.kind :=
    Json.Record.required_eq (j := .ofText a.kind) rfl rfl
  have value : Json.Record.required members "value" (ofValueJson? a.kind) = some a :=
    Json.Record.required_eq rfl (ofValueJson?_valueJson h)
  unfold ofJson?
  refine Option.bind_eq_some_iff.mpr ⟨_, hrecord, ?_⟩
  exact Option.bind_eq_some_iff.mpr ⟨_, kind, value⟩

end Argument

/-! ## Cases -/

namespace Case

/-- The fields of a case, with what each holds if it is there. -/
def held (c : Case) : List (String × Option Json) :=
  [("name", some (.ofText c.name)), ("sink", some (.ofText c.sink.name)),
    ("format", some (.ofText c.format)),
    ("args", some (.array (c.arguments.map Argument.toJson))),
    ("capacity", c.capacity.map fun n => .ofNat n.toNat),
    ("expected_output", c.expectedOutput.map .ofText),
    ("expected_error", c.expectedError.map .ofText)]

theorem toJson_eq (c : Case) : c.toJson = .ofMembers (Json.present c.held) := by
  have hnil : Json.present [] = [] := rfl
  simp only [toJson, held, Json.present_some, Json.present_map, hnil, List.cons_append,
    List.nil_append, List.append_assoc, List.append_nil]

/-- A case is read back, whatever it leaves out. -/
theorem ofJson?_toJson {c : Case} (h : ∀ a ∈ c.arguments, ∀ v, a ≠ .float v) :
    ofJson? c.toJson = some c := by
  have hnodup : (c.held.map Prod.fst).Nodup := by
    show fields.Nodup
    decide
  have hlookup (field : String) : (Json.present c.held).lookup field = (c.held.lookup field).join :=
    Json.lookup_present hnodup field
  have hnames : ∀ m ∈ Json.present c.held, m.1 ∈ fields :=
    fun m hm => Json.names_present.subset (List.mem_map_of_mem hm)
  have hrecord : c.toJson.record? fields 3 = some (Json.present c.held) := by
    rw [toJson_eq]
    exact Json.record?_ofMembers 3 hnames (Json.names_present.nodup hnodup)
  have name : Json.Record.required (Json.present c.held) "name" Json.text? = some c.name :=
    Json.Record.required_eq (hlookup "name") rfl
  have sink : Json.Record.withDefault (Json.present c.held) "sink" .stream
      (fun j => j.name?.bind SinkKind.ofName?) = some c.sink :=
    Json.Record.withDefault_eq (hlookup "sink") (SinkKind.ofName?_name c.sink)
  have format : Json.Record.required (Json.present c.held) "format" Json.text? = some c.format :=
    Json.Record.required_eq (hlookup "format") rfl
  have arguments : Json.Record.withDefault (Json.present c.held) "args" []
      (Json.list? Argument.ofJson?) = some c.arguments :=
    Json.Record.withDefault_eq (hlookup "args")
      (Json.list?_map fun a ha => Argument.ofJson?_toJson (h a ha))
  have capacity : Json.Record.optional (Json.present c.held) "capacity" Argument.unsigned? =
      some c.capacity := by
    have hfield : (Json.present c.held).lookup "capacity" =
        c.capacity.map fun n => .ofNat n.toNat := hlookup "capacity"
    exact Json.Record.optional_eq hfield (fun _ _ => nofun) fun n _ => Argument.unsigned?_ofNat n
  have text (field : String) (o : Option String)
      (hfield : c.held.lookup field = some (o.map .ofText)) :
      Json.Record.optional (Json.present c.held) field Json.text? = some o := by
    have hshown : (Json.present c.held).lookup field = o.map .ofText := by
      rw [hlookup, hfield]
      rfl
    exact Json.Record.optional_eq hshown (fun _ _ => nofun) fun _ _ => rfl
  have expectedOutput := text "expected_output" c.expectedOutput rfl
  have expectedError := text "expected_error" c.expectedError rfl
  -- the fields are read one after the other, in the order that the case has them
  refine Option.bind_eq_some_iff.mpr ⟨_, hrecord, ?_⟩
  refine Option.bind_eq_some_iff.mpr ⟨_, name, ?_⟩
  refine Option.bind_eq_some_iff.mpr ⟨_, sink, ?_⟩
  refine Option.bind_eq_some_iff.mpr ⟨_, format, ?_⟩
  refine Option.bind_eq_some_iff.mpr ⟨_, arguments, ?_⟩
  refine Option.bind_eq_some_iff.mpr ⟨_, capacity, ?_⟩
  refine Option.bind_eq_some_iff.mpr ⟨_, expectedOutput, ?_⟩
  refine Option.bind_eq_some_iff.mpr ⟨_, expectedError, ?_⟩
  rfl

end Case

/-! ## Fixtures -/

/-- No argument of the fixture is a float. -/
def NoFloats (f : Fixture) : Prop :=
  ∀ c ∈ f.cases, ∀ a ∈ c.arguments, ∀ v, a ≠ .float v

theorem ofJson?_toJson {f : Fixture} (h : f.NoFloats) : ofJson? f.toJson = some f := by
  let members : List (String × Json) :=
    [("version", .ofText f.version), ("family", .ofText f.family),
      ("captured_at", .ofText f.capturedAt), ("cases", .array (f.cases.map Case.toJson))]
  have hrecord : f.toJson.record? ["version", "family", "captured_at", "cases"] 4 = some members :=
    Json.record?_ofMembers 4 (by simp) (by simp)
  have text (field s : String) (hfield : members.lookup field = some (.ofText s)) :
      Json.Record.required members field Json.text? = some s :=
    Json.Record.required_eq hfield rfl
  have version := text "version" f.version rfl
  have family := text "family" f.family rfl
  have capturedAt := text "captured_at" f.capturedAt rfl
  have cases : Json.Record.required members "cases" (Json.list? Case.ofJson?) = some f.cases :=
    Json.Record.required_eq (j := .array (f.cases.map Case.toJson)) rfl
      (Json.list?_map fun c hc => Case.ofJson?_toJson (h c hc))
  unfold ofJson?
  refine Option.bind_eq_some_iff.mpr ⟨_, hrecord, ?_⟩
  refine Option.bind_eq_some_iff.mpr ⟨_, version, ?_⟩
  refine Option.bind_eq_some_iff.mpr ⟨_, family, ?_⟩
  refine Option.bind_eq_some_iff.mpr ⟨_, capturedAt, ?_⟩
  refine Option.bind_eq_some_iff.mpr ⟨_, cases, ?_⟩
  rfl

/-- A fixture is read back from its text. -/
theorem read?_text {f : Fixture} (h : f.NoFloats) : read? f.text = some f := by
  rw [read?, text, Json.read?_pretty, Option.bind_some, ofJson?_toJson h]

/-- A fixture without floats is read back from its text, with all its cases and
their arguments. Hence whatever text a fixture without floats was read from, the
text that it is written as reads as the same fixture and is written as it is. -/
theorem read?_text_of_noFloats :
    (∀ f : Fixture, f.NoFloats → read? f.text = some f) ∧
    ∀ (text : String) (f : Fixture), read? text = some f → f.NoFloats →
      read? f.text = read? text ∧ (read? f.text).map Fixture.text = some f.text := by
  refine ⟨fun f h => read?_text h, fun text f hread h => ?_⟩
  rw [read?_text h, hread]
  exact ⟨rfl, rfl⟩

/-- A fixture whose texts need escapes, with the least of the signed words; and a
text with its members in another order, whose one case leaves out what it can or
has null for it. -/
theorem read?_text_of_noFloats_escaped :
    let f : Fixture := ⟨"1", "\n\"😀", "", [
      { name := "n", sink := .url, format := "%d%c", capacity := some 0, expectedError := some "é"
        arguments := [.int (-9223372036854775808), .char '\\', .time ""] },
      { name := "", format := "" }]⟩
    let text := "\x7b\"version\":\"1\",\"family\":\"f\",\"captured_at\":\"t\"," ++
      "\"cases\":[\x7b\"format\":\"%d\",\"name\":\"n\",\"capacity\":null\x7d]\x7d"
    let g : Fixture := ⟨"1", "f", "t", [{ name := "n", format := "%d" }]⟩
    f.NoFloats ∧ read? f.text = some f ∧
      read? text = some g ∧ g.NoFloats ∧ read? g.text = read? text ∧
      (read? g.text).map Fixture.text = some g.text := by
  intro f text g
  have hf : f.NoFloats := by simp [NoFloats, f]
  have hg : g.NoFloats := by simp [NoFloats, g]
  let members : List (String × Json) :=
    [("format", .ofText "%d"), ("name", .ofText "n"), ("capacity", .null)]
  let document : Json := .ofMembers [("version", .ofText "1"), ("family", .ofText "f"),
    ("captured_at", .ofText "t"), ("cases", .array [.ofMembers members])]
  have htext : document.compact = text := by cbv
  have hread : read? text = some g := by
    rw [← htext, read?, Json.read?_compact]
    rfl
  obtain ⟨hback, hagain⟩ := read?_text_of_noFloats
  exact ⟨hf, hback f hf, hread, hg, hagain text g hread hg⟩

end PrintFormat.Fixture
