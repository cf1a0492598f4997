import PrintFormat.Journal.Emitter
import PrintFormat.Proofs.Journal.Run
import PrintFormat.Proofs.Journal.Timestamp

/-!
What an emitter writes and answers. On a writer that never fails each call is
carried out, and the writer gets the text of the journal (`Emitter.run_writes`).
An event that was written is in the journal and at the end of what the writer
holds, completed with the run id of the journal. The answer is that entry before
it was completed: it has the trace id and all else, but no run id, and so it is
not what the line says (`Emitter.emit_incomplete`).
-/
namespace PrintFormat.Journal

/-- What a journal makes of an event. -/
theorem emit_eq (j : Journal) (timestamp : String) (level : Severity) (event : String) :
    let e : Entry :=
      { timestamp, traceId := numberedId j.runId (j.count + 1), level, event }
    j.emit timestamp level event =
      (e, { j with
        count := j.count + 1
        entries := j.entries ++ [{ e with runId := some j.runId }] }) := by
  intro e
  have hne : e.traceId ≠ "" := numberedId_ne_empty j.runId (j.count + 1)
  have htrace : j.traceId (j.count + 1) = e.traceId := j.traceId_eq (j.count + 1)
  rw [emit, nextTraceId]
  dsimp only
  rw [htrace]
  exact congrArg (Prod.mk e) (record_of_ne hne _)

/-- A run id is seen in the line of an entry. -/
theorem Entry.line_ne_of_runId {e : Entry} (h : e.runId = none) (runId : String) :
    e.line ≠ ({ e with runId := some runId } : Entry).line := by
  intro heq
  have hjson := Json.compact_injective heq
  rw [toJson_eq, toJson_eq] at hjson
  have hlength := congrArg List.length (Json.object.inj hjson)
  simp only [fields, h, Json.present_some, Json.present_map, Json.optionalMember, List.length_map,
    List.length_cons, List.length_append, List.length_nil] at hlength
  omega

/-- The validator has nothing to say about an event of a run, up to the year
9999. -/
theorem Entry.accepted_event {seconds : Int} (h : seconds ∈ FourDigitYears) (run : String) (n : Nat)
    (level : Severity) (event : String) (runId : Option String) :
    Entry.Accepted
      { timestamp := Journal.timestamp seconds, traceId := numberedId run n, level, event, runId } where
  timestamp := by
    obtain ⟨year, hshows, hclamp⟩ := CivilTime.exists_shows seconds
    exact (isTimestamp_iff hshows hclamp).mpr (hshows.year_bounds_iff.mpr h)
  traceId := hasDoubleColon_of_infix (infix_numberedId run n)
  sink := nofun
  details := nofun

namespace Emitter

variable {m m' : Emitter}

theorem onWriter_writeAll_ok {bytes : Bytes} (h : onWriter (Writer.writeAll bytes) m = .ok () m') :
    m' = ⟨m.journal, m.writer.taking bytes⟩ := by
  obtain ⟨journal, writer⟩ := m
  cases hw : writer.writeAll bytes with
  | ok _ w =>
    simp only [onWriter, hw] at h
    cases h
    rw [Writer.writeAll_ok bytes hw]
  | error e w =>
    simp only [onWriter, hw] at h
    cases h

theorem onWriter_writeAll_unfailing (hw : m.writer.Unfailing) (bytes : Bytes) :
    onWriter (Writer.writeAll bytes) m = .ok () ⟨m.journal, m.writer.taking bytes⟩ := by
  obtain ⟨journal, writer⟩ := m
  simp only [onWriter, Writer.writeAll_unfailing bytes hw]

/-- A line that was written is at the end of what the writer holds. -/
theorem writeLine_ok {e : Entry} (h : writeLine e m = .ok () m') :
    m' = ⟨m.journal, m.writer.taking (Text.encode e.line ++ [10])⟩ := by
  obtain ⟨_, middle, hline, hend⟩ := Action.bind_eq_ok_iff.mp h
  rw [onWriter_writeAll_ok hend, onWriter_writeAll_ok hline, Writer.taking_taking]

/-- A writer that never fails gets the line. -/
theorem writeLine_unfailing (hw : m.writer.Unfailing) (e : Entry) :
    writeLine e m = .ok () ⟨m.journal, m.writer.taking (Text.encode e.line ++ [10])⟩ := by
  have hend := onWriter_writeAll_unfailing
    (m := ⟨m.journal, m.writer.taking (Text.encode e.line)⟩) (hw.taking _) [10]
  rw [Writer.taking_taking] at hend
  exact (Action.bind_ok (onWriter_writeAll_unfailing hw _)).trans hend

section

variable {α : Type} (act : Journal → α × Journal) {e : Entry}

/-- An operation that takes one entry writes its line. -/
theorem taking_eq (hact : (act m.journal).2.entries = m.journal.entries ++ [e]) :
    taking act m =
      (writeLine e >>= fun _ => pure (act m.journal).1) ⟨(act m.journal).2, m.writer⟩ := by
  show ((((act m.journal).2.entries.drop m.journal.entries.length).forM writeLine) >>= fun _ =>
    pure (act m.journal).1) ⟨(act m.journal).2, m.writer⟩ = _
  rw [hact, List.drop_left, Action.forM_singleton]

theorem taking_ok (hact : (act m.journal).2.entries = m.journal.entries ++ [e]) {a : α}
    (h : taking act m = .ok a m') :
    a = (act m.journal).1 ∧
      m' = ⟨(act m.journal).2, m.writer.taking (Text.encode e.line ++ [10])⟩ := by
  rw [taking_eq act hact] at h
  obtain ⟨_, middle, hline, hanswer⟩ := Action.bind_eq_ok_iff.mp h
  cases hanswer
  exact ⟨rfl, writeLine_ok hline⟩

theorem taking_unfailing (hact : (act m.journal).2.entries = m.journal.entries ++ [e])
    (hw : m.writer.Unfailing) :
    taking act m = .ok (act m.journal).1
      ⟨(act m.journal).2, m.writer.taking (Text.encode e.line ++ [10])⟩ := by
  rw [taking_eq act hact]
  exact Action.bind_ok (writeLine_unfailing (m := ⟨(act m.journal).2, m.writer⟩) hw e)

end

/-- On a writer that never fails an event is written. -/
theorem emit_unfailing (hw : m.writer.Unfailing) (timestamp : String) (level : Severity)
    (event : String) :
    let answer : Entry :=
      { timestamp, traceId := numberedId m.journal.runId (m.journal.count + 1), level, event }
    ∃ m', emit timestamp level event m = .ok answer m' ∧
      m'.writer = m.writer.taking
        (Text.encode ({ answer with runId := some m.journal.runId } : Entry).line ++ [10]) := by
  intro answer
  have hjournal := emit_eq m.journal timestamp level event
  have hrun := taking_unfailing _ (congrArg (fun r => r.2.entries) hjournal) hw
  rw [hjournal] at hrun
  exact ⟨_, hrun, rfl⟩

/-! ## Runs -/

/-- Carries out a call. -/
def call : Call → Step Unit
  | .emit timestamp level event => discard (emit timestamp level event)
  | .entry e => record e

/-- On a writer that never fails a call is carried out, and the line of its entry
is written. -/
theorem call_unfailing (hw : m.writer.Unfailing) (c : Call) :
    ∃ e, Takes m.journal c (c.apply m.journal) e ∧
      call c m = .ok () ⟨c.apply m.journal, m.writer.taking (Text.encode e.line ++ [10])⟩ := by
  obtain ⟨e, htakes⟩ := c.apply_takes m.journal
  refine ⟨e, htakes, ?_⟩
  cases c with
  | entry given => exact taking_unfailing (fun j => ((), j.record given)) htakes.entries hw
  | emit timestamp level event =>
    exact Action.bind_ok (taking_unfailing (Journal.emit timestamp level event) htakes.entries hw)

/-- The text of a journal that took one more entry. -/
theorem encode_text_concat {j j' : Journal} {e : Entry} (h : j'.entries = j.entries ++ [e]) :
    Text.encode j'.text = Text.encode j.text ++ (Text.encode e.line ++ [10]) := by
  have htext : j'.text = j.text ++ (e.line ++ "\n") := by
    simp [text, lines, h, String.join_append]
  rw [htext, Text.encode_append, Text.encode_append]
  rfl

/-- Calls on a writer that never fails and that took the text of the journal so far:
it takes the text of the journal after them. -/
theorem forM_call_unfailing {w : Writer} (hw : w.Unfailing) (calls : List Call) (j : Journal) :
    calls.forM call ⟨j, w.taking (Text.encode j.text)⟩ =
      .ok () ⟨calls.foldl Call.apply j,
        w.taking (Text.encode (calls.foldl Call.apply j).text)⟩ := by
  induction calls generalizing j with
  | nil => rfl
  | cons c calls ih =>
    obtain ⟨e, htakes, hcall⟩ := call_unfailing (m := ⟨j, w.taking (Text.encode j.text)⟩)
      (hw.taking _) c
    rw [Writer.taking_taking, ← encode_text_concat htakes.entries] at hcall
    exact (Action.bind_ok hcall).trans (ih (c.apply j))

/-- A run of an emitter whose writer never fails: no call fails, the journal is that
of the run, and the writer gets its text. If the calls are valid, the validator
counts their lines in what a writer that was empty holds, and finds no problem. -/
theorem run_writes {w : Writer} (hw : w.Unfailing) (runId : String) (calls : List Call) :
    ∃ w', calls.forM call ⟨{ runId }, w⟩ = .ok () ⟨run runId calls, w'⟩ ∧
      w'.held.toList = w.held.toList ++ Text.encode (run runId calls).text ∧
      (w.held = #[] → (∀ c ∈ calls, c.given.Valid) →
        checkContents? w'.held.toList = some (calls.length, [])) := by
  have hrun := forM_call_unfailing hw calls { runId }
  have hnothing : Text.encode ({ runId } : Journal).text = [] := rfl
  rw [hnothing, Writer.taking_nil] at hrun
  refine ⟨w.taking (Text.encode (run runId calls).text), hrun, Writer.toList_held_taking _ _,
    fun hheld hvalid => ?_⟩
  rw [Writer.toList_held_taking, hheld, List.nil_append, checkContents?,
    Text.decode?_eq_some.mpr rfl, Option.map_some, checkFile_run runId hvalid]

/-! ## Answers -/

/-- An emitter, in whatever state earlier calls left it, that wrote an event: the
journal has taken one entry more and the writer holds its line behind what it
held before. The answer has the time, the trace id, the level and the event of
that entry and lacks its run id, which the line has, so the line is that of the
answer with the run id put in and not that of the answer. Up to the year 9999 the
validator reads the line to the entry that was taken. -/
theorem emit_incomplete {seconds : Int} {level : Severity} {event : String} {answer : Entry}
    (h : emit (timestamp seconds) level event m = .ok answer m') :
    let runId := m.journal.runId
    let taken : Entry := { answer with runId := some runId }
    answer = { timestamp := timestamp seconds, level, event,
               traceId := numberedId runId (m.journal.count + 1) } ∧
      m'.journal.entries = m.journal.entries ++ [taken] ∧
      m'.writer = m.writer.taking (Text.encode taken.line ++ [10]) ∧
      taken.line ≠ answer.line ∧
      (seconds ∈ FourDigitYears → ∀ number, checkLine taken.line number = .ok taken) := by
  intro runId taken
  have hjournal := emit_eq m.journal (timestamp seconds) level event
  obtain ⟨hanswer, rfl⟩ := taking_ok _ (congrArg (fun r => r.2.entries) hjournal) h
  rw [hjournal] at hanswer
  subst hanswer
  refine ⟨rfl, by rw [hjournal], rfl, (Entry.line_ne_of_runId rfl runId).symm, ?_⟩
  intro hseconds number
  exact (Entry.accepted_event hseconds runId (m.journal.count + 1) level event
    (some runId)).checkLine_eq number

/-- An emitter that gave out trace ids before, on a writer that takes a line in
pieces. -/
theorem emit_incomplete_pieces :
    let m : Emitter :=
      { journal := { runId := "run-7", count := 8 }, writer := { chunk := some 50, held := #[10] } }
    ∃ answer m', emit (timestamp 0) .info "start" m = .ok answer m' ∧ 0 ∈ FourDigitYears ∧
      answer.traceId = "run-7::009" ∧
      m'.writer.held.toList = m.writer.held.toList ++
        (Text.encode ({ answer with runId := some "run-7" } : Entry).line ++ [10]) ∧
      checkLine ({ answer with runId := some "run-7" } : Entry).line 2 =
        .ok { answer with runId := some "run-7" } := by
  intro m
  have hw : m.writer.Unfailing := ⟨⟨by decide, nofun⟩, rfl, rfl⟩
  have hyears : 0 ∈ FourDigitYears := ⟨by decide, by decide⟩
  obtain ⟨m', h, -⟩ := emit_unfailing hw (timestamp 0) .info "start"
  obtain ⟨hanswer, -, hwriter, -, hcheck⟩ := emit_incomplete h
  refine ⟨_, m', h, hyears, ?_, ?_, hcheck hyears 2⟩
  · rw [hanswer]
    decide
  · rw [hwriter, Writer.toList_held_taking]

/-- The line of an event is not that of the entry that is answered, and it is read
to another entry. -/
theorem emit_answers_other :
    let m : Emitter := { journal := { runId := "run-7" } }
    ∃ answer m', emit (timestamp 0) .info "start" m = .ok answer m' ∧
      m'.writer.held.toList ≠ Text.encode answer.line ++ [10] ∧
      ∃ taken : Entry, m'.writer.held.toList = Text.encode taken.line ++ [10] ∧
        checkLine taken.line 1 = .ok taken ∧ taken ≠ answer := by
  intro m
  have hw : m.writer.Unfailing := ⟨⟨by decide, nofun⟩, rfl, rfl⟩
  have hyears : 0 ∈ FourDigitYears := ⟨by decide, by decide⟩
  let taken : Entry :=
    { timestamp := timestamp 0, traceId := numberedId "run-7" 1, level := .info, event := "start",
      runId := some "run-7" }
  obtain ⟨m', h, hwriter⟩ := emit_unfailing hw (timestamp 0) .info "start"
  have hheld : m'.writer.held.toList = Text.encode taken.line ++ [10] := by
    rw [hwriter, Writer.toList_held_taking]
    exact List.nil_append _
  refine ⟨_, m', h, fun hsame => ?_, taken, hheld, ?_, ?_⟩
  · have htext := Text.encode_injective (List.append_cancel_right (hheld.symm.trans hsame))
    exact Entry.line_ne_of_runId rfl "run-7" htext.symm
  · exact (Entry.accepted_event hyears "run-7" 1 .info "start" (some "run-7")).checkLine_eq 1
  · intro heq
    cases congrArg Entry.runId heq

end Emitter
end PrintFormat.Journal
