import PrintFormat.Command.Run
import PrintFormat.Proofs.Command.Events
import PrintFormat.Proofs.Fixture.Files

/-!
Runs over fixture files. Every step of a run adds one event to its journal and,
for a case, one result (`Kept.add`), or else it ends the run (`runCase_keeps`). What
a run has after some files is told by these files alone: the events in front of the
first that does not happen (`CameTo`, `runFixtures_keeps`). The journal, the report
and the outcome are then put together from the same results (`run_leads`), and
they agree if they have files of their own and no case ends the run.
-/
namespace PrintFormat

namespace VerifyCommand

/-! ## One step -/

/-- A run that has told of events and has their results: what every step keeps. -/
structure Kept (runId : String) (told : List Event) (p : Progress) : Prop where
  ofRun : p.journal.runId = runId
  count : p.journal.count = told.length
  tells : Tells runId told p.journal.entries
  results : p.results = told.filterMap Event.result?

/-- Where a run stands that came to events: it told of those in front of the first
that does not happen, and if there is one, then it ended there. -/
structure CameTo (runId : String) (told events : List Event) (standing : Standing) : Prop where
  kept : Kept runId (told ++ events.takeWhile Event.happens) standing.2
  ended : standing.1 =
    if events.all Event.happens then none else some (.panic .capacityOverflow)

section

variable {runId : String} {told events front : List Event} {event : Event} {p : Progress}

theorem Kept.start (runId : String) : Kept runId [] { journal := { runId } } :=
  ⟨rfl, rfl, ⟨.nil, rfl⟩, rfl⟩

/-- A run takes one more event with its result. -/
theorem Kept.add (h : Kept runId told p) (event : Event) (timestamp : String) (elapsed : UInt64)
    {results : List Verification.Result} (hresults : results = p.results ++ event.result?.toList) :
    Kept runId (told ++ [event])
      { journal := p.journal.record (event.entry timestamp elapsed), results } := by
  have hempty : (event.entry timestamp elapsed).traceId = "" := by cases event <;> rfl
  have hrun : (event.entry timestamp elapsed).runId = none := by cases event <;> rfl
  rw [Journal.record_of_empty hempty, hrun, Journal.traceId_eq, h.ofRun, h.count]
  refine ⟨rfl, ?_, ⟨?_, ?_⟩, ?_⟩
  · rw [List.length_append, List.length_singleton]
  · exact List.rel_append h.tells.told (.cons ⟨timestamp, elapsed, rfl⟩ .nil)
  · rw [List.map_append, h.tells.traceIds, List.length_append, List.length_singleton,
      List.range'_1_concat, List.map_append, Nat.add_comm 1]
    rfl
  · rw [hresults, h.results, List.filterMap_append]
    cases hresult : event.result? <;> simp [hresult]

/-- The text of the journal is what a file of it holds. -/
theorem Kept.isJournal {name : String} (h : Kept ("verify-" ++ name) told p) :
    IsJournal told (Text.encode p.journal.text) :=
  ⟨name, p.journal.text, p.journal.entries, rfl, p.journal.fileLines_text, h.tells⟩

theorem CameTo.nothing (h : Kept runId told p) : CameTo runId told [] (none, p) where
  kept := by rwa [List.takeWhile_nil, List.append_nil]
  ended := rfl

theorem CameTo.happened (h : Kept runId (told ++ [event]) p) (happens : event.happens = true) :
    CameTo runId told [event] (none, p) where
  kept := by rwa [List.takeWhile_cons_of_pos happens, List.takeWhile_nil]
  ended := by simp [happens]

theorem CameTo.stopped (h : Kept runId told p) (happens : event.happens = false) :
    CameTo runId told [event] (some (.panic .capacityOverflow), p) where
  kept := by simpa [happens] using h
  ended := by simp [happens]

/-- A run that did not end told of all it came to. -/
theorem CameTo.told_all (h : CameTo runId told front (none, p)) :
    front.all Event.happens = true ∧ Kept runId (told ++ front) p := by
  have hended := h.ended
  have hall : front.all Event.happens = true := by
    by_contra hnot
    rw [if_neg hnot] at hended
    cases hended
  refine ⟨hall, ?_⟩
  have hkept := h.kept
  rwa [List.takeWhile_eq_self_iff.mpr (List.all_eq_true.mp hall)] at hkept

/-- A run that did not end goes on with the events that come next. -/
theorem CameTo.goOn (h : CameTo runId told front (none, p)) {standing : Standing}
    (hnext : CameTo runId (told ++ front) events standing) :
    CameTo runId told (front ++ events) standing := by
  obtain ⟨hall, -⟩ := h.told_all
  refine ⟨?_, ?_⟩
  · rw [List.takeWhile_append_of_pos (List.all_eq_true.mp hall), ← List.append_assoc]
    exact hnext.kept
  · rw [List.all_append, hall, Bool.true_and]
    exact hnext.ended

/-- A run that ended came to an event that does not happen. -/
theorem CameTo.not_all {failure : Failure} (h : CameTo runId told front (some failure, p)) :
    ¬ front.all Event.happens = true ∧ failure = .panic .capacityOverflow := by
  have hended := h.ended
  by_cases hall : front.all Event.happens = true
  · rw [if_pos hall] at hended
    cases hended
  · rw [if_neg hall] at hended
    exact ⟨hall, Option.some.inj hended⟩

/-- It stays where it is. -/
theorem CameTo.stay {failure : Failure} (h : CameTo runId told front (some failure, p))
    (events : List Event) : CameTo runId told (front ++ events) (some failure, p) := by
  obtain ⟨hnot, rfl⟩ := h.not_all
  refine ⟨?_, ?_⟩
  · rw [List.takeWhile_append, if_neg]
    · exact h.kept
    · intro hlength
      -- a front of the full length is all of it
      have hsame := (List.takeWhile_prefix Event.happens).eq_of_length hlength
      exact hnot (List.all_eq_true.mpr (List.takeWhile_eq_self_iff.mp hsame))
  · rw [List.all_append, Bool.eq_false_of_not_eq_true hnot, Bool.false_and]
    rfl

end

/-! ## Files -/

section

open Host

variable {σ : Type} {tree : σ → FileNode} {t : FileNode} {runId : String} {told : List Event}
  {p : Progress} {path : String}

/-- Steps that come to events of their own, one after another, come to all of them. -/
theorem each_keeps {α ι : Type} {step : α → Progress → StateM σ Standing} {name : ι → α}
    {events : ι → List Event} {items : List ι}
    (hstep : ∀ i ∈ items, ∀ told p, Kept runId told p →
      Keeps tree t (step (name i) p) (CameTo runId told (events i)))
    (h : Kept runId told p) :
    Keeps tree t (each step (items.map name) p) (CameTo runId told (items.flatMap events)) := by
  induction items generalizing told p with
  | nil => exact Keeps.pure (.nothing h)
  | cons i items ih =>
    rw [List.forall_mem_cons] at hstep
    rw [List.map_cons, each, List.flatMap_cons]
    refine (hstep.1 told p h).bind fun standing hfront => ?_
    obtain ⟨failure, p'⟩ := standing
    cases failure with
    | none => exact (ih hstep.2 hfront.told_all.2).mono fun _ hnext => hfront.goOn hnext
    | some failure => exact Keeps.pure (hfront.stay _)

variable [Host (StateM σ)] (hhost : OnTree tree)
include hhost

theorem entryNow_keeps (level : Journal.Severity) (event : String) :
    Keeps tree t (entryNow level event) fun e =>
      ∃ timestamp, e = { timestamp, traceId := "", level, event } := by
  refine (hhost.now t).bind fun seconds _ => ?_
  exact Keeps.pure ⟨Journal.timestamp seconds, rfl⟩

/-- A case adds an event and a result, or else it ends the run. -/
theorem runCase_keeps (c : Fixture.Case) (h : Kept runId told p) :
    Keeps tree t (runCase path c p) (CameTo runId told [.caseVerified path c]) := by
  unfold runCase
  refine (hhost.nanoseconds t).bind fun started _ => ?_
  cases hverify : c.verify {} with
  | error e =>
    have hoverflows := Fixture.Case.verify_eq_error_iff.mp hverify
    cases e
    exact Keeps.pure (.stopped h (by simp [Event.happens, hoverflows]))
  | ok result =>
    have hhappens : (Event.caseVerified path c).happens = true := by
      rw [Event.happens, Fixture.Case.overflows_of_verify_ok hverify, Bool.not_false]
    have hpasses : c.passes {} = result.passed := by rw [Fixture.Case.passes, hverify]; rfl
    obtain ⟨outcome, -, rfl⟩ := Fixture.Case.verify_eq_ok_iff.mp hverify
    refine (hhost.nanoseconds t).bind fun stopped _ => ?_
    refine hhost.notify_if ?_
    refine (entryNow_keeps hhost _ _).bind fun e he => ?_
    obtain ⟨timestamp, rfl⟩ := he
    have hresult : (Event.caseVerified path c).result? = some (c.report outcome) := by
      rw [Event.result?, hverify]
      rfl
    have hadd := h.add _ timestamp (stopped - started).toUInt64
      (congrArg (p.results ++ Option.toList ·) hresult.symm)
    rw [Event.entry, hpasses] at hadd
    exact Keeps.pure (.happened hadd hhappens)

/-- A file adds its events, if it is a fixture. -/
theorem runBody_keeps (body : Bytes) (h : Kept runId told p) :
    Keeps tree t (runBody path body p) (CameTo runId told (eventsOf [(path, body)])) := by
  unfold runBody
  cases hbody : Fixture.ofBytes? body with
  | none =>
    refine (hhost.notify _ t).bind fun _ _ => Keeps.pure ?_
    rw [eventsOf, loaded_cons_none hbody]
    exact .nothing h
  | some f =>
    refine (entryNow_keeps hhost _ _).bind fun e he => ?_
    obtain ⟨timestamp, rfl⟩ := he
    have hloaded := h.add (.fixtureLoaded ⟨path, body, f⟩) timestamp 0 (List.append_nil _).symm
    have hcase (c : Fixture.Case) (_ : c ∈ f.cases) (told : List Event) (p : Progress)
        (hp : Kept runId told p) :
        Keeps tree t (runCase path (id c) p) (CameTo runId told [.caseVerified path c]) :=
      runCase_keeps hhost c hp
    have hcases := each_keeps hcase hloaded
    rw [List.map_id, ← List.map_eq_flatMap] at hcases
    rw [eventsOf_some hbody]
    exact hcases.mono fun _ hnext => CameTo.goOn (.happened hloaded rfl) hnext

/-- Files that can be read add their events one after another. -/
theorem runFixtures_keeps (h : Kept runId told p) {fixture : String}
    {files : List (String × Bytes)} (hfound : Fixture.Found t fixture files) :
    Keeps tree t (runFixtures fixture p) (CameTo runId told (eventsOf files)) := by
  refine (hfound.paths hhost).bind fun r hr => ?_
  subst hr
  rw [eventsOf_eq_flatMap]
  refine each_keeps (fun f hf told p hp => ?_) h
  refine (hhost.readFile f.1 t).bind fun r hr => ?_
  subst hr
  rw [hfound.contents_eq f hf]
  exact runBody_keeps hhost f.2 hp

/-! ## The journal and the report -/

variable {c : VerifyCommand} {log report : String} {logPlace reportPlace : List String}

theorem startJournal_leads (hlog : c.log = some log)
    (hplace : t.mounted.resolveNew log = .ok logPlace) :
    Leads tree t c.startJournal fun r t' => r = .ok () ∧ t' = .put (.file []) logPlace t := by
  unfold startJournal
  rw [hlog]
  refine (hhost.createFile_at hplace).bind fun r t' h' => ?_
  obtain ⟨rfl, rfl⟩ := h'
  exact .pure ⟨rfl, rfl⟩

theorem writeJournal_leads (hlog : c.log = some log) (hplace : t.mounted.resolveNew log = .ok logPlace)
    (j : Journal) :
    Leads tree (.put (.file []) logPlace t) (c.writeJournal j) fun r t' =>
      r = .ok () ∧ t' = t.written logPlace (Text.encode j.text) := by
  have hgrows := (Memory.settable_of_resolveNew hplace).grows []
  unfold writeJournal
  rw [hlog]
  refine (hhost.appendFile_at _ (Memory.resolveNew_of_grows hgrows hplace)).bind
    fun r t' h' => ?_
  obtain ⟨rfl, rfl⟩ := h'
  rw [Memory.bytesAt, FileNode.find?_put_self]
  exact .pure ⟨rfl, rfl⟩

theorem writeReport_leads (hreport : c.report = some report)
    (hplace : t.mounted.resolveNew report = .ok reportPlace) (s : Verification.Summary) :
    Leads tree t (c.writeReport s) fun r t' =>
      r = .ok () ∧ t' = t.written reportPlace (Text.encode s.toJson.pretty) := by
  unfold writeReport
  rw [hreport]
  refine (hhost.writeFile_at _ hplace).bind fun r t' h' => ?_
  obtain ⟨rfl, rfl⟩ := h'
  exact (hhost.notify _ _).bind fun _ _ => .pure ⟨rfl, rfl⟩

/-- A run with results ends with a journal that is complete and with a report. -/
theorem conclude_leads {name : String} {results : List Verification.Result}
    (h : Kept ("verify-" ++ name) told p) (hresults : p.results = results)
    (hlog : c.log = some log) (hlogPlace : t.mounted.resolveNew log = .ok logPlace)
    (hreport : c.report = some report)
    (hreportPlace : t.mounted.resolveNew report = .ok reportPlace) :
    Leads tree (.put (.file []) logPlace t) (c.conclude p) fun r t' =>
      r = (if (Verification.Summary.mk results).allPassed then .ok () else .error .failedCases) ∧
      ∃ bytes, IsJournal (told ++ [.runComplete ⟨results⟩]) bytes ∧
        t' = (t.written logPlace bytes).written reportPlace
          (Text.encode (Verification.Summary.mk results).toJson.pretty) := by
  subst hresults
  unfold conclude
  refine (hhost.notify _ _).bind fun _ _ => ?_
  refine (entryNow_keeps hhost _ _).bind fun e he => ?_
  obtain ⟨timestamp, rfl⟩ := he
  have hcomplete := h.add (.runComplete ⟨p.results⟩) timestamp 0 (List.append_nil _).symm
  refine (writeJournal_leads hhost hlog hlogPlace _).bind fun r t' h' => ?_
  obtain ⟨rfl, rfl⟩ := h'
  have hgrows := (Memory.settable_of_resolveNew hlogPlace).grows_written
    (Text.encode (p.journal.record ((Event.runComplete ⟨p.results⟩).entry timestamp 0)).text)
  refine (writeReport_leads hhost hreport (Memory.resolveNew_of_grows hgrows hreportPlace) _).bind
    fun r t' h' => ?_
  obtain ⟨rfl, rfl⟩ := h'
  exact .pure ⟨rfl, _, hcomplete.isJournal, rfl⟩

/-- How a run over files ends that has places for its journal and its report: by
what was there to tell, and whether all of it happened. -/
structure Ends (t : FileNode) (fixture : String) (files : List (String × Bytes))
    (logPlace reportPlace : List String) (r : Except Failure Unit) (t' : FileNode) : Prop where
  complete : casesOf files ≠ [] → (∀ c ∈ casesOf files, c.overflows = false) →
    r = (if (summaryOf (casesOf files)).allPassed then .ok () else .error .failedCases) ∧
    ∃ bytes, IsJournal (eventsOf files ++ [.runComplete (summaryOf (casesOf files))]) bytes ∧
      t' = (t.written logPlace bytes).written reportPlace
        (Text.encode (summaryOf (casesOf files)).toJson.pretty)
  empty : casesOf files = [] → r = .error (.noCases fixture) ∧
    ∃ bytes, IsJournal (eventsOf files) bytes ∧ t' = t.written logPlace bytes
  stopped : (∃ c ∈ casesOf files, c.overflows = true) → r = .error (.panic .capacityOverflow) ∧
    ∃ bytes, IsJournal ((eventsOf files).takeWhile Event.happens) bytes ∧
      t' = t.written logPlace bytes

theorem run_leads {fixture : String} {files : List (String × Bytes)}
    (hfound : Fixture.Found t fixture files) (hlog : Fixture.Outside t fixture log logPlace)
    (hreport : t.mounted.resolveNew report = .ok reportPlace) :
    Leads tree t (VerifyCommand.mk fixture (some log) (some report)).run
      (Ends t fixture files logPlace reportPlace) := by
  refine (hhost.notify _ _).bind fun _ _ => ?_
  refine (hhost.runName _).bind fun name _ => ?_
  refine (startJournal_leads hhost rfl hlog.resolved).bind fun r t' h' => ?_
  obtain ⟨rfl, rfl⟩ := h'
  have hstart := Kept.start ("verify-" ++ name)
  refine (runFixtures_keeps hhost hstart (hfound.put hlog [])).bind fun standing h => ?_
  obtain ⟨failure, p⟩ := standing
  have hall := all_happens_iff files
  cases failure with
  | some failure =>
    obtain ⟨hnot, rfl⟩ := h.not_all
    rw [hall] at hnot
    refine (writeJournal_leads hhost rfl hlog.resolved _).bind fun r t' h' => ?_
    obtain ⟨rfl, rfl⟩ := h'
    refine .pure ⟨fun _ hfits => absurd hfits hnot, fun hempty => ?_,
      fun _ => ⟨rfl, _, h.kept.isJournal, rfl⟩⟩
    rw [hempty] at hnot
    exact absurd (List.forall_mem_nil _) hnot
  | none =>
    obtain ⟨hhappens, hkept⟩ := h.told_all
    rw [List.nil_append] at hkept
    have hfits := hall.mp hhappens
    have hnone : ¬ ∃ c ∈ casesOf files, c.overflows = true := by
      rintro ⟨c, hc, hoverflows⟩
      rw [hfits c hc] at hoverflows
      cases hoverflows
    have hresults : p.results = (summaryOf (casesOf files)).results := by
      rw [hkept.results, results_eventsOf]
    -- the run asks for results, which are there exactly if there are cases
    have hnil : p.results = [] ↔ casesOf files = [] := by
      rw [hresults, ← List.length_eq_zero_iff, ← List.length_eq_zero_iff]
      exact Eq.congr_left (total_summaryOf hfits)
    dsimp only
    by_cases hcases : casesOf files = []
    · rw [if_pos (hnil.mpr hcases)]
      refine (writeJournal_leads hhost rfl hlog.resolved _).bind fun r t' h' => ?_
      obtain ⟨rfl, rfl⟩ := h'
      exact .pure ⟨fun hne => absurd hcases hne, fun _ => ⟨rfl, _, hkept.isJournal, rfl⟩,
        fun h => absurd h hnone⟩
    · rw [if_neg (mt hnil.mp hcases)]
      refine (conclude_leads hhost hkept hresults rfl hlog.resolved rfl hreport).mono
        fun r t' hends => ?_
      exact ⟨fun _ _ => hends, fun hempty => absurd hempty hcases, fun h => absurd h hnone⟩

end

/-! ## Agreement -/

theorem exitCode_error_ne_zero (failure : Failure) : Command.exitCode (.error failure) ≠ 0 := by
  cases failure <;> exact Nat.succ_ne_zero _

theorem exitCode_eq_zero_iff (succeeded : Prop) [Decidable succeeded] (failure : Failure) :
    Command.exitCode (if succeeded then .ok () else .error failure) = 0 ↔ succeeded := by
  split
  · exact iff_of_true rfl ‹_›
  · exact iff_of_false (exitCode_error_ne_zero failure) ‹_›

section

open Host

variable {σ : Type} [Host (StateM σ)] {tree : σ → FileNode}

/-- A run whose journal and report have places outside of its fixtures. If there are
cases and none of them overflows, the journal tells of each file that is a fixture,
of each of its cases and of the end, with one line for each; the report has the
results of the cases, in order; and the run succeeds exactly if all of them passed.
If there are none, the run fails, the journal tells of fixtures only, and there is
no report. A case that overflows ends the run with an exit code of its own: the
journal tells of what came before it, and there is no report. The journal stands
unless the report is put in its place. -/
theorem run_agrees (hhost : OnTree tree) {fixture log report : String} {s : σ}
    {files : List (String × Bytes)} {logPlace reportPlace : List String}
    (hfound : Fixture.Found (tree s) fixture files)
    (hlog : Fixture.Outside (tree s) fixture log logPlace)
    (hreport : Fixture.Outside (tree s) fixture report reportPlace) :
    let c : VerifyCommand := { fixture, log := some log, report := some report }
    let r := (c.run : StateM σ (Except Failure Unit)).run s
    let cases := casesOf files
    let summary := summaryOf cases
    let events := eventsOf files ++ [.runComplete summary]
    (cases ≠ [] → (∀ c ∈ cases, c.overflows = false) →
      (logPlace ≠ reportPlace →
        ∃ bytes, (tree r.2).find? logPlace = some (.file bytes) ∧ IsJournal events bytes) ∧
      events.length = (loaded files).length + cases.length + 1 ∧
      (tree r.2).find? reportPlace = some (.file (Text.encode summary.toJson.pretty)) ∧
      cases.map (fun c => c.verify {}) = summary.results.map .ok ∧
      summary.passed + summary.failed = summary.total ∧ summary.total = cases.length ∧
      (Command.exitCode r.1 = 0 ↔ ∀ c ∈ cases, c.passes {} = true)) ∧
    (cases = [] →
      r.1 = .error (.noCases fixture) ∧ Command.exitCode r.1 ≠ 0 ∧
      (∃ bytes, (tree r.2).find? logPlace = some (.file bytes) ∧
        IsJournal ((loaded files).map .fixtureLoaded) bytes) ∧
      (logPlace ≠ reportPlace → (tree r.2).find? reportPlace = (tree s).find? reportPlace)) ∧
    ((∃ c ∈ cases, c.overflows = true) →
      r.1 = .error (.panic .capacityOverflow) ∧ Command.exitCode r.1 = 101 ∧
      (∃ bytes, (tree r.2).find? logPlace = some (.file bytes) ∧
        IsJournal ((eventsOf files).takeWhile Event.happens) bytes) ∧
      (logPlace ≠ reportPlace → (tree r.2).find? reportPlace = (tree s).find? reportPlace)) := by
  intro c r cases summary events
  have hends := run_leads hhost hfound hlog hreport.resolved s rfl
  refine ⟨fun hcases hfits => ?_, fun hcases => ?_, fun hoverflows => ?_⟩
  · obtain ⟨houtcome, bytes, hjournal, htree⟩ := hends.complete hcases hfits
    refine ⟨fun hne => ⟨bytes, ?_, hjournal⟩, ?_, ?_, verify_summaryOf hfits,
      summary.passed_add_failed, total_summaryOf hfits, ?_⟩
    · -- the report is written last, and leaves the journal where it has a place of its own
      have hgrows := hlog.settable.grows_written bytes
      rw [htree, (hreport.settable.of_grows hgrows).find?_written _
        (hlog.settable.of_grows hgrows) hne, FileNode.find?_written_self]
    · rw [List.length_append, length_eventsOf, List.length_singleton]
    · rw [htree, FileNode.find?_written_self]
    · rw [houtcome, exitCode_eq_zero_iff, allPassed_summaryOf hfits]
  · obtain ⟨houtcome, bytes, hjournal, htree⟩ := hends.empty hcases
    refine ⟨houtcome, ?_, ⟨bytes, ?_, ?_⟩, fun hne => ?_⟩
    · rw [houtcome]
      exact exitCode_error_ne_zero _
    · rw [htree, FileNode.find?_written_self]
    · rwa [← eventsOf_of_no_cases hcases]
    · rw [htree, hlog.settable.find?_written _ hreport.settable hne.symm]
  · obtain ⟨houtcome, bytes, hjournal, htree⟩ := hends.stopped hoverflows
    refine ⟨houtcome, ?_, ⟨bytes, ?_, hjournal⟩, fun hne => ?_⟩
    · rw [houtcome]
      rfl
    · rw [htree, FileNode.find?_written_self]
    · rw [htree, hlog.settable.find?_written _ hreport.settable hne.symm]

end

/-! ## In a small tree -/

/-- Two files in a directory of fixtures, and one that is none by its name. -/
def smallTree (a b : Bytes) : FileNode :=
  .directory [("fixtures", .directory
    [("b.json", .file b), ("notes", .file []), ("a.json", .file a)])]

theorem resolve_smallTree (a b : Bytes) :
    (smallTree a b).mounted.resolve "/fixtures" = .ok (["fixtures"],
      .directory [("b.json", .file b), ("notes", .file []), ("a.json", .file a)]) := rfl

theorem found_smallTree (a b : Bytes) :
    Fixture.Found (smallTree a b) "/fixtures"
      [("/fixtures/a.json", a), ("/fixtures/b.json", b)] := by
  have hfirst : Fixture.pathOf "/fixtures" "a.json" = "/fixtures/a.json" := by decide +kernel
  have hsecond : Fixture.pathOf "/fixtures" "b.json" = "/fixtures/b.json" := by decide +kernel
  have hnames : ∀ name ∈ ["b.json", "notes", "a.json"], '/' ∉ name.toList := by decide
  have hperm : ["a.json", "b.json"].Perm
      (["b.json", "notes", "a.json"].filter fun name => Fixture.extension? name = some "json") := by
    decide
  have hsorted : ["a.json", "b.json"].Pairwise (· ≤ ·) := by decide
  have hcontents : ∀ f ∈ [("a.json", a), ("b.json", b)],
      (smallTree a b).mounted.contents (Fixture.pathOf "/fixtures" f.1) = .ok f.2 := by
    rw [List.forall_mem_cons, List.forall_mem_singleton, hfirst, hsecond]
    exact ⟨rfl, rfl⟩
  have hfound : Fixture.Found (smallTree a b) "/fixtures"
      ([("a.json", a), ("b.json", b)].map fun f => (Fixture.pathOf "/fixtures" f.1, f.2)) :=
    .directory (resolve_smallTree a b) hnames hperm hsorted hcontents
  rwa [List.map_cons, List.map_singleton, hfirst, hsecond] at hfound

theorem outside_smallTree (a b : Bytes) {path name : String}
    (hcheck : Memory.checkPath path = .ok ())
    (hparts : Memory.withoutSlashes (Memory.parts path) = ["", name])
    (hname : ¬ (path.endsWith "/" ∨ name = "." ∨ name = ".."))
    (hsize : name.utf8ByteSize ≤ Memory.nameLimit) (hne : name ≠ "fixtures") :
    Fixture.Outside (smallTree a b) "/fixtures" path [name] := by
  refine ⟨Memory.resolveNew_eq_ok_iff.mpr ⟨hcheck, [], name, _, rfl, ?_, rfl, ?_, hname, hsize, ?_⟩,
    fun way node hway hprefix => ?_⟩
  · rw [hparts]
    rfl
  · rw [hparts]
    rfl
  · intro inner h
    rw [List.lookup_cons, beq_eq_false_iff_ne.mpr hne] at h
    cases h
  · obtain ⟨rfl, -⟩ := Prod.mk.inj (Except.ok.inj (hway.symm.trans (resolve_smallTree a b)))
    exact hne (List.cons_prefix_cons.mp hprefix).1.symm

theorem log_smallTree (a b : Bytes) :
    Fixture.Outside (smallTree a b) "/fixtures" "/run.jsonl" ["run.jsonl"] :=
  outside_smallTree a b rfl rfl (by decide +kernel) (by decide) (by decide)

theorem report_smallTree (a b : Bytes) :
    Fixture.Outside (smallTree a b) "/fixtures" "/report.json" ["report.json"] :=
  outside_smallTree a b rfl rfl (by decide +kernel) (by decide) (by decide)

/-- A file that is no text is none of the fixtures. -/
theorem loaded_smallTree {f : Fixture} (h : f.NoFloats) :
    loaded [("/fixtures/a.json", Text.encode f.text), ("/fixtures/b.json", [0xFF])] =
      [⟨"/fixtures/a.json", Text.encode f.text, f⟩] := by
  rw [loaded_cons_some (Fixture.ofBytes?_text h), loaded_cons_none (by decide +kernel)]
  rfl

/-- What there is to tell of a fixture with a file that is no text behind it. -/
theorem eventsOf_smallTree {f : Fixture} (h : f.NoFloats) :
    eventsOf [("/fixtures/a.json", Text.encode f.text), ("/fixtures/b.json", [0xFF])] =
      .fixtureLoaded ⟨"/fixtures/a.json", Text.encode f.text, f⟩ ::
        f.cases.map (.caseVerified "/fixtures/a.json") := by
  rw [eventsOf, loaded_smallTree h]
  exact List.append_nil _

theorem casesOf_smallTree {f : Fixture} (h : f.NoFloats) :
    casesOf [("/fixtures/a.json", Text.encode f.text), ("/fixtures/b.json", [0xFF])] = f.cases := by
  rw [casesOf, loaded_smallTree h]
  exact List.append_nil _

/-- A case that passes, a case that fails, and a file that is no text. Without the
cases there is no report. -/
theorem run_agrees_small :
    let f : Fixture := ⟨"v1", "printf/d", "", [
      { name := "seven", format := "%d", arguments := [.int 7], expectedOutput := some "7" },
      { name := "eight", format := "%d", arguments := [.int 7], expectedOutput := some "8" }]⟩
    let a := Text.encode f.text
    let c : VerifyCommand :=
      { fixture := "/fixtures", log := some "/run.jsonl", report := some "/report.json" }
    let r := (c.run : Memory.Run (Except Failure Unit)).run { root := smallTree a [0xFF] }
    let r' := (c.run : Memory.Run (Except Failure Unit)).run { root := smallTree [0xFF] [] }
    (∃ bytes, r.2.root.find? ["run.jsonl"] = some (.file bytes) ∧
      IsJournal (.fixtureLoaded ⟨"/fixtures/a.json", a, f⟩ ::
        f.cases.map (.caseVerified "/fixtures/a.json") ++ [.runComplete (summaryOf f.cases)]) bytes) ∧
    r.2.root.find? ["report.json"] = some (.file (Text.encode (summaryOf f.cases).toJson.pretty)) ∧
    Command.exitCode r.1 ≠ 0 ∧
    r'.1 = .error (.noCases "/fixtures") ∧ r'.2.root.find? ["report.json"] = none := by
  intro f a c r r'
  have hfloats : f.NoFloats := by simp [Fixture.NoFloats, f]
  have hnone : casesOf [("/fixtures/a.json", [0xFF]), ("/fixtures/b.json", [])] = [] := by
    rw [casesOf, loaded_cons_none (by decide +kernel), loaded_cons_none (by decide +kernel)]
    rfl
  obtain ⟨hfull, -⟩ := run_agrees Memory.onTree (s := { root := smallTree a [0xFF] })
    (found_smallTree a [0xFF]) (log_smallTree _ _) (report_smallTree _ _)
  obtain ⟨-, hnothing, -⟩ := run_agrees Memory.onTree (s := { root := smallTree [0xFF] [] })
    (found_smallTree [0xFF] []) (log_smallTree _ _) (report_smallTree _ _)
  rw [casesOf_smallTree hfloats, eventsOf_smallTree hfloats] at hfull
  obtain ⟨hjournal, -, hwritten, -, -, -, hexit⟩ := hfull (List.cons_ne_nil _ _) (by decide)
  obtain ⟨houtcome, -, -, hunwritten⟩ := hnothing hnone
  refine ⟨hjournal (by decide), hwritten, fun hzero => ?_, houtcome, hunwritten (by decide)⟩
  have height := hexit.mp hzero _ (List.mem_cons_of_mem _ List.mem_cons_self)
  exact absurd height (by decide +kernel)

/-- A case with a buffer beyond the limit behind one that passes. The run ends with
the exit code of a panic; its journal stops behind the first case and never tells
that the run is complete, and there is no report. -/
theorem run_ends_without_report :
    let seven : Fixture.Case :=
      { name := "seven", format := "%d", arguments := [.int 7], expectedOutput := some "7" }
    let vast : Fixture.Case :=
      { seven with name := "vast", sink := .buffer, capacity := some 0xFFFFFFFFFFFFFFFF }
    let f : Fixture := ⟨"v1", "printf/d", "", [seven, vast]⟩
    let files := [("/fixtures/a.json", Text.encode f.text), ("/fixtures/b.json", [0xFF])]
    let s : Memory := { root := smallTree (Text.encode f.text) [0xFF] }
    let c : VerifyCommand :=
      { fixture := "/fixtures", log := some "/run.jsonl", report := some "/report.json" }
    let r := (c.run : Memory.Run (Except Failure Unit)).run s
    Fixture.Found s.root "/fixtures" files ∧
      Fixture.Outside s.root "/fixtures" "/run.jsonl" ["run.jsonl"] ∧
      Fixture.Outside s.root "/fixtures" "/report.json" ["report.json"] ∧
      casesOf files = [seven, vast] ∧
      r.1 = .error (.panic .capacityOverflow) ∧ Command.exitCode r.1 = 101 ∧
      r.2.root.find? ["report.json"] = none ∧
      ∃ bytes, r.2.root.find? ["run.jsonl"] = some (.file bytes) ∧
        IsJournal [.fixtureLoaded ⟨"/fixtures/a.json", Text.encode f.text, f⟩,
          .caseVerified "/fixtures/a.json" seven] bytes ∧
        ∀ summary, ¬ IsJournal (eventsOf files ++ [.runComplete summary]) bytes := by
  intro seven vast f files s c r
  have hfloats : f.NoFloats := by simp [Fixture.NoFloats, f, seven, vast]
  have hfound := found_smallTree (Text.encode f.text) [0xFF]
  have hlog := log_smallTree (Text.encode f.text) [0xFF]
  have hreport := report_smallTree (Text.encode f.text) [0xFF]
  have hcases : casesOf files = [seven, vast] := casesOf_smallTree hfloats
  have hevents : eventsOf files = [.fixtureLoaded ⟨"/fixtures/a.json", Text.encode f.text, f⟩,
      .caseVerified "/fixtures/a.json" seven, .caseVerified "/fixtures/a.json" vast] :=
    eventsOf_smallTree hfloats
  have hvast : vast.overflows = true := by decide
  have htold : (eventsOf files).takeWhile Event.happens =
      [.fixtureLoaded ⟨"/fixtures/a.json", Text.encode f.text, f⟩,
        .caseVerified "/fixtures/a.json" seven] := by
    have hseven : seven.overflows = false := by decide
    rw [hevents]
    simp only [List.takeWhile_cons, Event.happens, hseven, hvast, Bool.not_false, Bool.not_true,
      if_true, Bool.false_eq_true, if_false]
  have hends := run_leads Memory.onTree hfound hlog hreport.resolved s rfl
  obtain ⟨houtcome, bytes, hjournal, htree⟩ := hends.stopped ⟨vast, by rw [hcases]; simp, hvast⟩
  rw [htold] at hjournal
  refine ⟨hfound, hlog, hreport, hcases, houtcome, ?_, ?_, bytes, ?_, hjournal, ?_⟩
  · rw [houtcome]
    rfl
  · have hne : ["report.json"] ≠ ["run.jsonl"] := by decide
    rw [show r.2.root = _ from htree, hlog.settable.find?_written _ hreport.settable hne]
    rfl
  · rw [show r.2.root = _ from htree, FileNode.find?_written_self]
  · intro summary hother
    have hlength := hjournal.length_eq hother
    rw [hevents] at hlength
    simp at hlength

end VerifyCommand
end PrintFormat
