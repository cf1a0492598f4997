import PrintFormat.Command
import PrintFormat.Command.Failure
import PrintFormat.Fixture.Files
import PrintFormat.Journal
import PrintFormat.Sha256

/-!
The command `verify`. It runs the cases of all fixture files that a path stands
for, in order, keeps a journal of them and sums them up. Files that are no
fixtures are passed over. A file that cannot be read and a case that panics end
the run. The journal is written whatever happens, the report only if there were
cases and all were run. The run succeeds if there were cases and all passed.
-/
namespace PrintFormat.VerifyCommand

/-- What a run has so far. -/
structure Progress where
  journal : Journal
  results : List Verification.Result := []

/-- Where a run stands: what ended it, if something did, and what it has. -/
abbrev Standing := Option Failure × Progress

/-- What the journal tells about a fixture file. -/
def fixtureDetails (body : Bytes) (f : Fixture) : Json :=
  .ofMembers [("cases", .ofNat f.cases.length), ("family", .ofText f.family),
    ("sha256", .ofText (Text.decodeLossy (Sha256.hexDigest body)))]

/-- What the journal tells about a whole run. -/
def summaryDetails (s : Verification.Summary) : Json :=
  .ofMembers [("failed", .ofNat s.failed), ("passed", .ofNat s.passed),
    ("total", .ofNat s.total)]

/-- The outcome of something that passed or did not. -/
def outcomeOf (passed : Bool) : Journal.Outcome := if passed then .pass else .fail

section
variable {m : Type → Type} [Monad m] [Host m]

/-- An entry of this moment. -/
def entryNow (level : Journal.Severity) (event : String) : m Journal.Entry := do
  return { timestamp := Journal.timestamp (← Host.now), traceId := "", level, event }

/-- Takes the steps of a list until one ends the run. -/
def each {α : Type} (step : α → Progress → m Standing) : List α → Progress → m Standing
  | [], p => return (none, p)
  | a :: rest, p => do
      match ← step a p with
      | (none, p) => each step rest p
      | ended => return ended

/-- Runs one case of a fixture file. -/
def runCase (path : String) (c : Fixture.Case) (p : Progress) : m Standing := do
  let started ← Host.nanoseconds
  match c.verify {} with
  | .error e => return (some (.panic e), p)
  | .ok result =>
      let elapsed := (← Host.nanoseconds) - started
      if !result.passed then Host.notify (.failed result)
      let entry ← entryNow (if result.passed then .info else .error) "case_verified"
      let entry := { entry with
        fixture := some path
        caseName := some result.caseName
        sink := some result.sink
        outcome := some (outcomeOf result.passed)
        durationNs := some elapsed.toUInt64 }
      return (none,
        { p with journal := p.journal.record entry, results := p.results ++ [result] })

/-- Runs the cases of a fixture file, if it is one. -/
def runBody (path : String) (body : Bytes) (p : Progress) : m Standing := do
  match Fixture.ofBytes? body with
  | none =>
      Host.notify (.skipping path)
      return (none, p)
  | some f =>
      let entry ← entryNow .info "fixture_loaded"
      let entry := { entry with fixture := some path, details := some (fixtureDetails body f) }
      each (runCase path) f.cases { p with journal := p.journal.record entry }

/-- Runs the cases of a file. -/
def runFile (path : String) (p : Progress) : m Standing := do
  match ← Host.readFile path with
  | .error e => return (some (.file e), p)
  | .ok body => runBody path body p

/-- Runs the cases of all fixture files of a path. -/
def runFixtures (fixture : String) (p : Progress) : m Standing := do
  match ← Fixture.paths fixture with
  | .error e => return (some (.fixtures e), p)
  | .ok paths => each runFile paths p

/-- Writes the journal, if it has a file. -/
def writeJournal (c : VerifyCommand) (j : Journal) : m (Except Failure Unit) := do
  match c.log with
  | none => return .ok ()
  | some path => return (← Host.appendFile path (Text.encode j.text)).mapError .file

/-- Writes the report, if it has a file. -/
def writeReport (c : VerifyCommand) (s : Verification.Summary) : m (Except Failure Unit) := do
  match c.report with
  | none => return .ok ()
  | some path =>
      match ← Host.writeFile path (Text.encode s.toJson.pretty) with
      | .error e => return .error (.file e)
      | .ok _ =>
          Host.notify (.wroteReport path)
          return .ok ()

/-- Sums up a run that had cases. -/
def conclude (c : VerifyCommand) (p : Progress) : m (Except Failure Unit) := do
  let summary : Verification.Summary := ⟨p.results⟩
  Host.notify (.complete summary)
  let entry ← entryNow .info "run_complete"
  let entry := { entry with
    outcome := some (outcomeOf summary.allPassed)
    details := some (summaryDetails summary) }
  match ← c.writeJournal (p.journal.record entry) with
  | .error e => return .error e
  | .ok _ =>
      match ← c.writeReport summary with
      | .error e => return .error e
      | .ok _ => return if summary.allPassed then .ok () else .error .failedCases

/-- Makes the file of the journal, if it has one. -/
def startJournal (c : VerifyCommand) : m (Except Failure Unit) := do
  match c.log with
  | none => return .ok ()
  | some path => return (← Host.createFile path).mapError .file

/-- Carries out the command. -/
def run (c : VerifyCommand) : m (Except Failure Unit) := do
  Host.notify (.verifying c.fixture)
  let journal : Journal := { runId := "verify-" ++ (← Host.runName) }
  match ← c.startJournal with
  | .error e => return .error e
  | .ok _ =>
      let (failure, p) ← runFixtures c.fixture { journal }
      match failure with
      | some e =>
          let _ ← c.writeJournal p.journal
          return .error e
      | none =>
          if p.results = [] then
            let _ ← c.writeJournal p.journal
            return .error (.noCases c.fixture)
          else c.conclude p

end
end PrintFormat.VerifyCommand
