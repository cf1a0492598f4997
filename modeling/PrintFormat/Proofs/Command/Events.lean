import PrintFormat.Command.Verify
import PrintFormat.Proofs.Journal.Run
import PrintFormat.Proofs.Verification

/-!
What a run over fixture files has to tell. For each file that is a fixture there is
the event that it was loaded, and one event for each of its cases, with the result
of the case. A case that overflows does not get to be told of. `IsJournal` says of
the contents of a file that its lines tell of given events.
-/
namespace PrintFormat

namespace VerifyCommand

/-- A file that is a fixture. -/
structure Loaded where
  path : String
  body : Bytes
  fixture : Fixture

/-- The fixtures among files, in order. -/
def loaded (files : List (String × Bytes)) : List Loaded :=
  files.filterMap fun f => (Fixture.ofBytes? f.2).map (Loaded.mk f.1 f.2)

/-- The cases of the fixtures among files, in order. -/
def casesOf (files : List (String × Bytes)) : List Fixture.Case :=
  (loaded files).flatMap fun f => f.fixture.cases

/-- What a journal can tell of. -/
inductive Event
  | fixtureLoaded (f : Loaded)
  | caseVerified (path : String) (c : Fixture.Case)
  | runComplete (s : Verification.Summary)

namespace Event

/-- An event as it is handed to a journal. -/
def entry (timestamp : String) (elapsed : UInt64) : Event → Journal.Entry
  | fixtureLoaded f =>
      { timestamp
        traceId := ""
        level := .info
        event := "fixture_loaded"
        fixture := some f.path
        details := some (fixtureDetails f.body f.fixture) }
  | caseVerified path c =>
      { timestamp
        traceId := ""
        level := if c.passes {} then .info else .error
        event := "case_verified"
        fixture := some path
        caseName := some c.name
        sink := some c.sink.name
        outcome := some (if c.passes {} then .pass else .fail)
        durationNs := some elapsed }
  | runComplete s =>
      { timestamp
        traceId := ""
        level := .info
        event := "run_complete"
        outcome := some (if s.allPassed then .pass else .fail)
        details := some (summaryDetails s) }

/-- Whether a run gets to tell of an event once it came to it. -/
def happens : Event → Bool
  | caseVerified _ c => !c.overflows
  | _ => true

/-- The result that comes with an event. -/
def result? : Event → Option Verification.Result
  | caseVerified _ c => (c.verify {}).toOption
  | _ => none

/-- An entry of a run that tells of an event, of some moment. -/
def ToldBy (runId : String) (event : Event) (e : Journal.Entry) : Prop :=
  ∃ timestamp elapsed,
    e = { event.entry timestamp elapsed with traceId := e.traceId, runId := some runId }

end Event

/-- What there is to tell of a fixture: that it was loaded, and then each of its
cases. -/
def Loaded.events (f : Loaded) : List Event :=
  .fixtureLoaded f :: f.fixture.cases.map (.caseVerified f.path)

/-- What there is to tell of files. -/
def eventsOf (files : List (String × Bytes)) : List Event := (loaded files).flatMap Loaded.events

/-- Entries of a run that tell of events, one of each, with trace ids that are
numbered from 1 on. -/
structure Tells (runId : String) (events : List Event) (entries : List Journal.Entry) : Prop where
  told : List.Forall₂ (Event.ToldBy runId) events entries
  traceIds : entries.map Journal.Entry.traceId =
    (List.range' 1 events.length).map (Journal.numberedId runId)

/-- Contents of a file with a line for each entry of a run that tells of events,
and no other. -/
def IsJournal (events : List Event) (bytes : Bytes) : Prop :=
  ∃ name text entries, bytes = Text.encode text ∧
    Journal.fileLines text = entries.map Journal.Entry.line ++ [""] ∧
    Tells ("verify-" ++ name) events entries

/-- A file is the journal of one count of events only. -/
theorem IsJournal.length_eq {events events' : List Event} {bytes : Bytes}
    (h : IsJournal events bytes) (h' : IsJournal events' bytes) :
    events.length = events'.length := by
  obtain ⟨name, text, entries, htext, hlines, htells⟩ := h
  obtain ⟨name', text', entries', htext', hlines', htells'⟩ := h'
  obtain rfl := Text.encode_injective (htext.symm.trans htext')
  have hlength := congrArg List.length (hlines.symm.trans hlines')
  simpa [htells.told.length_eq, htells'.told.length_eq] using hlength

/-- The results of cases. -/
def summaryOf (cases : List Fixture.Case) : Verification.Summary :=
  ⟨cases.filterMap fun c => (c.verify {}).toOption⟩

section

variable {path : String} {body : Bytes} {files : List (String × Bytes)}

theorem loaded_cons_none (h : Fixture.ofBytes? body = none) :
    loaded ((path, body) :: files) = loaded files := by
  rw [loaded, List.filterMap_cons, h]
  rfl

theorem loaded_cons_some {f : Fixture} (h : Fixture.ofBytes? body = some f) :
    loaded ((path, body) :: files) = ⟨path, body, f⟩ :: loaded files := by
  rw [loaded, List.filterMap_cons, h]
  rfl

theorem loaded_cons (f : String × Bytes) : loaded (f :: files) = loaded [f] ++ loaded files :=
  List.filterMap_append (l := [f])

/-- Of a fixture there is to tell that it was loaded, and each of its cases. -/
theorem eventsOf_some {f : Fixture} (h : Fixture.ofBytes? body = some f) :
    eventsOf [(path, body)] =
      [.fixtureLoaded ⟨path, body, f⟩] ++ f.cases.map (.caseVerified path) := by
  rw [eventsOf, loaded_cons_some h, List.flatMap_cons]
  exact List.append_nil _

theorem eventsOf_cons (f : String × Bytes) :
    eventsOf (f :: files) = eventsOf [f] ++ eventsOf files := by
  rw [eventsOf, loaded_cons, List.flatMap_append, eventsOf, eventsOf]

/-- What there is to tell of files is what there is to tell of each. -/
theorem eventsOf_eq_flatMap (files : List (String × Bytes)) :
    eventsOf files = files.flatMap fun f => eventsOf [f] := by
  induction files with
  | nil => rfl
  | cons f files ih => rw [eventsOf_cons, ih, List.flatMap_cons]

/-- The results that come with events of files are those of their cases. -/
theorem results_eventsOf (files : List (String × Bytes)) :
    (eventsOf files).filterMap Event.result? = (summaryOf (casesOf files)).results := by
  have hevents (f : Loaded) : f.events.filterMap Event.result? =
      f.fixture.cases.filterMap fun c => (c.verify {}).toOption := by
    rw [Loaded.events, List.filterMap_cons_none rfl, List.filterMap_map]
    rfl
  rw [eventsOf, casesOf, summaryOf, List.filterMap_flatMap, List.filterMap_flatMap]
  exact List.flatMap_congr fun f _ => hevents f

/-- All there is to tell happens if no case overflows. -/
theorem all_happens_iff (files : List (String × Bytes)) :
    (eventsOf files).all Event.happens = true ↔ ∀ c ∈ casesOf files, c.overflows = false := by
  have hevents (f : Loaded) : f.events.all Event.happens = true ↔
      ∀ c ∈ f.fixture.cases, c.overflows = false := by
    simp [Loaded.events, Event.happens]
  rw [eventsOf, casesOf, List.forall_mem_flatMap, List.all_flatMap, List.all_eq_true]
  simp only [hevents]

section

variable {cases : List Fixture.Case}

/-- Cases that do not overflow have a result each. -/
theorem verify_summaryOf (h : ∀ c ∈ cases, c.overflows = false) :
    cases.map (fun c => c.verify {}) = (summaryOf cases).results.map .ok := by
  induction cases with
  | nil => rfl
  | cons c cases ih =>
    rw [List.forall_mem_cons] at h
    cases hc : c.verify {} with
    | error e => exact absurd (Fixture.Case.verify_eq_error_iff.mp hc) (by simp [h.1])
    | ok r =>
      have hresults : (summaryOf (c :: cases)).results = r :: (summaryOf cases).results := by
        simp [summaryOf, hc, Except.toOption]
      rw [List.map_cons, hc, ih h.2, hresults, List.map_cons]

theorem total_summaryOf (h : ∀ c ∈ cases, c.overflows = false) :
    (summaryOf cases).total = cases.length := by
  have hlength := congrArg List.length (verify_summaryOf h)
  rw [List.length_map, List.length_map] at hlength
  exact hlength.symm

theorem allPassed_summaryOf (h : ∀ c ∈ cases, c.overflows = false) :
    (summaryOf cases).allPassed = true ↔ ∀ c ∈ cases, c.passes {} = true := by
  have hpasses : (∀ r ∈ (summaryOf cases).results.map Except.ok,
      (r : Except Panic _).toOption.any Verification.Result.passed = true) ↔
      ∀ c ∈ cases, c.passes {} = true := by
    rw [← verify_summaryOf h, List.forall_mem_map]
    rfl
  rw [Verification.Summary.allPassed_iff, ← hpasses, List.forall_mem_map]
  rfl

end

/-- There is one event for each fixture and one for each case. -/
theorem length_eventsOf (files : List (String × Bytes)) :
    (eventsOf files).length = (loaded files).length + (casesOf files).length := by
  rw [eventsOf, casesOf]
  induction loaded files with
  | nil => rfl
  | cons f fs ih =>
    rw [List.flatMap_cons, List.flatMap_cons, List.length_append, List.length_append, ih,
      Loaded.events, List.length_cons, List.length_cons, List.length_map]
    omega

/-- Of fixtures without cases there is only to tell that they were loaded. -/
theorem eventsOf_of_no_cases (h : casesOf files = []) :
    eventsOf files = (loaded files).map .fixtureLoaded := by
  have hevents : ∀ f ∈ loaded files, f.events = [.fixtureLoaded f] := by
    intro f hf
    rw [Loaded.events, List.flatMap_eq_nil_iff.mp h f hf, List.map_nil]
  rw [eventsOf, List.flatMap_congr hevents, List.map_eq_flatMap]

end

end VerifyCommand
end PrintFormat
