import PrintFormat.Journal
import PrintFormat.Proofs.Journal.Entry
import PrintFormat.Proofs.Numeral.Reading
import PrintFormat.Proofs.Text.Utf8

/-!
Runs of a journal. Each call adds one completed entry (`Call.apply_takes`), so
after any calls the journal has an entry for each of them, and the trace ids that
it made up are numbered from 1 on without a gap (`foldl_apply`). If the calls are
valid, the text of the journal has these entries as its lines and the validator
finds nothing wrong with it (`run_validates`).
-/
namespace PrintFormat.Journal

/-! ## Calls -/

/-- A call on a journal. -/
inductive Call
  | emit (timestamp : String) (level : Severity) (event : String)
  | entry (e : Entry)

namespace Call

/-- The entry that a call hands over, with an empty trace id if the journal is to
give it one. -/
def given : Call → Entry
  | emit timestamp level event => { timestamp, traceId := "", level, event }
  | entry e => e

def apply (j : Journal) : Call → Journal
  | emit timestamp level event => (j.emit timestamp level event).2
  | entry e => j.record e

end Call

/-- The journal of a run after some calls. -/
def run (runId : String) (calls : List Call) : Journal := calls.foldl Call.apply { runId }

/-! ## Trace ids -/

/-- The trace id that a run gives out with a number: the number has at least
three digits. -/
def numberedId (runId : String) (n : Nat) : String :=
  runId ++ "::" ++ String.leftpad 3 '0' (toString n)

theorem sequenceText_eq (n : Nat) : sequenceText n = String.leftpad 3 '0' (toString n) := by
  rw [sequenceText, ← encode_leftpad, Text.decodeLossy_encode]

theorem traceId_eq (j : Journal) (n : Nat) : j.traceId n = numberedId j.runId n := by
  rw [traceId, sequenceText_eq, numberedId]

/-- The number is read back from a trace id of the run. -/
theorem numberedId_injective (runId : String) : Function.Injective (numberedId runId) := by
  have hread (n : Nat) : readDigits? 10 (String.leftpad 3 '0' (toString n)).toList = some n := by
    have hascii : IsAscii (zeroFilled 3 (natText n)) := isAscii_zeroFilled (isAscii_natText n) 3
    rw [← sequenceText_eq, sequenceText, ← Text.encodeChars_chars hascii, ← Text.encode_ofList,
      Text.decodeLossy_encode, String.toList_ofList]
    exact readDigits?_zeroFilled .decimal false 3 n
  intro m n h
  have htail := congrArg String.toList h
  simp only [numberedId, String.toList_append] at htail
  have hnumber := List.append_cancel_left htail
  exact Option.some.inj ((hread m).symm.trans (by rw [hnumber, hread]))

theorem infix_numberedId (runId : String) (n : Nat) :
    [':', ':'] <:+: (numberedId runId n).toList := by
  refine ⟨runId.toList, (String.leftpad 3 '0' (toString n)).toList, ?_⟩
  rw [numberedId, String.toList_append, String.toList_append]
  rfl

theorem numberedId_ne_empty (runId : String) (n : Nat) : numberedId runId n ≠ "" := by
  intro hempty
  have hcolons := infix_numberedId runId n
  rw [hempty] at hcolons
  exact absurd hcolons (by decide)

/-! ## Completed entries -/

/-- An entry as a run takes it: with its own trace id or else a numbered one,
with its own run id or else that of the run, and in all else as it was given. -/
structure Completes (run : String) (given taken : Entry) : Prop where
  others : taken = { given with traceId := taken.traceId, runId := taken.runId }
  runId : taken.runId = some (given.runId.getD run)
  preset : given.traceId ≠ "" → taken.traceId = given.traceId
  generated : given.traceId = "" → ∃ n, taken.traceId = numberedId run n

/-- What a valid entry becomes is valid and has a trace id. -/
theorem Completes.valid {runId : String} {given taken : Entry} (h : Completes runId given taken)
    (hgiven : given.Valid) : taken.Valid ∧ taken.traceId ≠ "" := by
  have hcolons : [':', ':'] <:+: taken.traceId.toList := by
    by_cases hid : given.traceId = ""
    · obtain ⟨n, hn⟩ := h.generated hid
      rw [hn]
      exact infix_numberedId runId n
    · rw [h.preset hid]
      exact hgiven.traceId.resolve_left hid
  have htimestamp : taken.timestamp = given.timestamp := by rw [h.others]
  have hsink : taken.sink = given.sink := by rw [h.others]
  have hdetails : taken.details = given.details := by rw [h.others]
  refine ⟨⟨?_, .inr hcolons, ?_, ?_⟩, ?_⟩
  · rw [htimestamp]
    exact hgiven.timestamp
  · rw [hsink]
    exact hgiven.sink
  · rw [hdetails]
    exact hgiven.details
  · intro hempty
    rw [hempty] at hcolons
    exact absurd hcolons (by decide)

/-! ## One call -/

/-- What a call does to a journal. -/
structure Takes (j : Journal) (c : Call) (j' : Journal) (e : Entry) : Prop where
  entries : j'.entries = j.entries ++ [e]
  runId : j'.runId = j.runId
  completes : Completes j.runId c.given e
  generated : c.given.traceId = "" →
    e.traceId = numberedId j.runId (j.count + 1) ∧ j'.count = j.count + 1
  preset : c.given.traceId ≠ "" → j'.count = j.count

section

variable {e : Entry}

theorem record_of_empty (h : e.traceId = "") (j : Journal) :
    j.record e =
      { j with
        count := j.count + 1
        entries := j.entries ++
          [{ e with
            traceId := j.traceId (j.count + 1), runId := some (e.runId.getD j.runId) }] } := by
  rw [record, if_pos h]
  rfl

theorem record_of_ne (h : e.traceId ≠ "") (j : Journal) :
    j.record e =
      { j with entries := j.entries ++ [{ e with runId := some (e.runId.getD j.runId) }] } := by
  rw [record, if_neg h]

end

/-- An event is an entry without a trace id. -/
theorem emit_eq_record (j : Journal) (timestamp : String) (level : Severity) (event : String) :
    (j.emit timestamp level event).2 =
      j.record { timestamp, traceId := "", level, event } := by
  have hne : j.traceId (j.count + 1) ≠ "" := by
    rw [traceId_eq]
    exact numberedId_ne_empty j.runId (j.count + 1)
  rw [record_of_empty rfl, emit, nextTraceId]
  exact record_of_ne hne _

theorem takes_record (j : Journal) (e : Entry) : ∃ taken, Takes j (.entry e) (j.record e) taken := by
  by_cases hid : e.traceId = ""
  · rw [record_of_empty hid]
    exact ⟨_, rfl, rfl, ⟨rfl, rfl, fun h => absurd hid h, fun _ => ⟨_, j.traceId_eq _⟩⟩,
      fun _ => ⟨j.traceId_eq _, rfl⟩, fun h => absurd hid h⟩
  · rw [record_of_ne hid]
    exact ⟨_, rfl, rfl, ⟨rfl, rfl, fun _ => rfl, fun h => absurd h hid⟩, fun h => absurd h hid,
      fun _ => rfl⟩

theorem Call.apply_takes (j : Journal) (c : Call) : ∃ e, Takes j c (c.apply j) e := by
  cases c with
  | entry e => exact takes_record j e
  | emit timestamp level event =>
    obtain ⟨e, h⟩ := takes_record j { timestamp, traceId := "", level, event }
    rw [← emit_eq_record] at h
    exact ⟨e, h.entries, h.runId, h.completes, h.generated, h.preset⟩

/-! ## Runs -/

/-- The trace ids that were made up for the calls that handed over none. -/
def generatedIds (calls : List Call) (taken : List Entry) : List String :=
  ((calls.zip taken).filter fun p => p.1.given.traceId = "").map fun p => p.2.traceId

section

variable {c : Call} {calls : List Call} {e : Entry} {taken : List Entry}

theorem generatedIds_of_empty (h : c.given.traceId = "") :
    generatedIds (c :: calls) (e :: taken) = e.traceId :: generatedIds calls taken := by
  simp only [generatedIds, List.zip_cons_cons, List.filter_cons, h, decide_true, if_true,
    List.map_cons]

theorem generatedIds_of_ne (h : c.given.traceId ≠ "") :
    generatedIds (c :: calls) (e :: taken) = generatedIds calls taken := by
  simp only [generatedIds, List.zip_cons_cons, List.filter_cons, h, decide_false,
    Bool.false_eq_true, if_false]

end

/-- After any calls, a journal has taken an entry for each of them, and the ids
it made up go on from those that it had given out. -/
theorem foldl_apply (calls : List Call) (j : Journal) :
    ∃ taken, (calls.foldl Call.apply j).entries = j.entries ++ taken ∧
      List.Forall₂ (fun c e => Completes j.runId c.given e) calls taken ∧
      ∃ n, generatedIds calls taken = (List.range' (j.count + 1) n).map (numberedId j.runId) := by
  induction calls generalizing j with
  | nil => exact ⟨[], (List.append_nil _).symm, .nil, 0, rfl⟩
  | cons c calls ih =>
    obtain ⟨e, hc⟩ := c.apply_takes j
    obtain ⟨taken, hentries, hcompletes, n, hids⟩ := ih (c.apply j)
    rw [hc.runId] at hcompletes hids
    refine ⟨e :: taken, ?_, .cons hc.completes hcompletes, ?_⟩
    · rw [List.foldl_cons, hentries, hc.entries, List.append_assoc]
      rfl
    by_cases hid : c.given.traceId = ""
    · obtain ⟨htrace, hcount⟩ := hc.generated hid
      refine ⟨n + 1, ?_⟩
      rw [generatedIds_of_empty hid, hids, htrace, hcount, List.range'_succ, List.map_cons]
    · refine ⟨n, ?_⟩
      rw [generatedIds_of_ne hid, hids, hc.preset hid]

/-- What valid calls become are valid entries with a trace id. -/
theorem valid_of_completes {run : String} {calls : List Call} {taken : List Entry}
    (h : List.Forall₂ (fun c e => Completes run c.given e) calls taken)
    (hcalls : ∀ c ∈ calls, c.given.Valid) : ∀ e ∈ taken, e.Valid ∧ e.traceId ≠ "" := by
  induction h with
  | nil =>
    intro e he
    cases he
  | cons hc _ ih =>
    rw [List.forall_mem_cons] at hcalls ⊢
    exact ⟨hc.valid hcalls.1, ih hcalls.2⟩

/-- The lines of a journal's text are the lines of its entries, and nothing is
behind the last one. -/
theorem fileLines_text (j : Journal) : fileLines j.text = j.lines ++ [""] := by
  have htext : j.text.toList = (j.lines.map String.toList).flatMap (· ++ ['\n']) := by
    simp [text, String.toList_join, List.flatMap_map]
  have hlines : ∀ part ∈ j.lines.map String.toList, ∀ c ∈ part, decide (c = '\n') = false := by
    intro part hpart c hc
    obtain ⟨l, hl, rfl⟩ := List.mem_map.mp hpart
    obtain ⟨e, -, rfl⟩ := List.mem_map.mp hl
    rw [decide_eq_false_iff_not]
    rintro rfl
    exact e.not_mem_line hc
  rw [fileLines, htext, Text.split_ended (by decide) hlines, List.map_append, List.map_map]
  have hback : String.ofList ∘ String.toList = id := funext fun s => s.ofList_toList
  rw [hback, List.map_id]
  rfl

/-- Lines of valid entries are counted, and no problem is found. -/
theorem checkLines_lines {entries : List Entry} (h : ∀ e ∈ entries, e.Valid ∧ e.traceId ≠ "")
    (number : Nat) :
    checkLines number (entries.map Entry.line ++ [""]) = (entries.length, []) := by
  induction entries generalizing number with
  | nil => rfl
  | cons e entries ih =>
    obtain ⟨hvalid, htrace⟩ := h e List.mem_cons_self
    obtain ⟨htrim, hne⟩ := e.trim_line
    have hrest := ih (fun e he => h e (List.mem_cons_of_mem _ he)) (number + 1)
    simp only [List.map_cons, List.cons_append, checkLines, hrest, htrim, if_neg hne,
      Entry.checkLine_line hvalid htrace, List.length_cons]

/-- The journal of a run of valid calls has valid entries. -/
theorem valid_run (runId : String) {calls : List Call} (h : ∀ c ∈ calls, c.given.Valid) :
    ∀ e ∈ (run runId calls).entries, e.Valid ∧ e.traceId ≠ "" := by
  obtain ⟨taken, hentries, hcompletes, -⟩ := foldl_apply calls { runId }
  rw [show (run runId calls).entries = taken from hentries]
  exact valid_of_completes hcompletes h

/-- The validator counts the lines of a run of valid calls and finds no problem. -/
theorem checkFile_run (runId : String) {calls : List Call} (h : ∀ c ∈ calls, c.given.Valid) :
    checkFile (run runId calls).text = (calls.length, []) := by
  obtain ⟨taken, hentries, hcompletes, -⟩ := foldl_apply calls { runId }
  have hlength : (run runId calls).entries.length = calls.length := by
    rw [show (run runId calls).entries = taken from hentries, hcompletes.length_eq]
  rw [checkFile, fileLines_text, lines, checkLines_lines (valid_run runId h), hlength]

/-- A run of valid calls: the journal takes one entry for each call, in their
order; its text is their lines; the validator counts them, has nothing to say
about any, and reads each entry back; and the trace ids that the run made up are
numbered from 1 on, none of them twice. -/
theorem run_validates (runId : String) (calls : List Call) (h : ∀ c ∈ calls, c.given.Valid) :
    let j := run runId calls
    let ids := generatedIds calls j.entries
    List.Forall₂ (fun c e => Completes runId c.given e) calls j.entries ∧
      fileLines j.text = j.entries.map Entry.line ++ [""] ∧
      checkFile j.text = (calls.length, []) ∧
      (∀ e ∈ j.entries, ∀ number, checkLine e.line number = .ok e) ∧
      ids = (List.range' 1 ids.length).map (numberedId runId) ∧ ids.Nodup := by
  intro j ids
  obtain ⟨taken, hentries, hcompletes, n, hids⟩ := foldl_apply calls { runId }
  have hj : j.entries = taken := hentries
  have hvalid := valid_run runId h
  have hnumbered : ids = (List.range' 1 n).map (numberedId runId) := by
    rw [show ids = generatedIds calls j.entries from rfl, hj]
    exact hids
  have hlength : ids.length = n := by rw [hnumbered, List.length_map, List.length_range']
  refine ⟨?_, j.fileLines_text, checkFile_run runId h, ?_, ?_, ?_⟩
  · rw [hj]
    exact hcompletes
  · intro e he number
    exact Entry.checkLine_line (hvalid e he).1 (hvalid e he).2 number
  · rw [hlength]
    exact hnumbered
  · rw [hnumbered]
    exact (List.nodup_range' 1).map (numberedId_injective runId)

/-- An event with a line feed, a quote and a control character in its text, and an
entry with its own trace id that holds a nested value. -/
theorem run_validates_two :
    let e : Entry :=
      { timestamp := "1999-12-31T23:59:59Z"
        traceId := "x::y"
        level := .warn
        event := ""
        sink := some "url"
        details := some (.array [.ofInt (-5), .ofText "\n"]) }
    let calls : List Call := [.emit "2024-02-29T12:00:00Z" .info "a\n\"b\x01", .entry e]
    (∀ c ∈ calls, c.given.Valid) ∧ checkFile (run "r\n" calls).text = (2, []) := by
  intro e calls
  have hvalid : ∀ c ∈ calls, c.given.Valid := by
    intro c hc
    rcases List.mem_cons.mp hc with rfl | hc
    · refine ⟨by decide, .inl rfl, ?_, ?_⟩
      · intro s hs
        cases hs
      · intro j hj
        cases hj
    · obtain rfl := List.mem_singleton.mp hc
      refine ⟨by decide, .inr (by decide), ?_, ?_⟩
      · intro s hs
        cases hs
        decide
      · intro j hj
        cases hj
        refine ⟨?_, .array ?_⟩
        · intro h
          cases h
        · intro item hitem
          rcases List.mem_cons.mp hitem with rfl | hitem
          · exact .integer (by decide) (by decide)
          · obtain rfl := List.mem_singleton.mp hitem
            exact .text _
  exact ⟨hvalid, (run_validates "r\n" calls hvalid).2.2.1⟩

end PrintFormat.Journal
