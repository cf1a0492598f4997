import PrintFormat.Proofs.Logger

/-!
Whole log lines, on writers that never fail and on writers with a limit. A line
is a list of parts that are rendered until one fails, and a line feed.
`Logger.output` is what they put out, worked out without a sink, and
`writeLine_delivered` and `writeLine_refused` say that writing a line is
delivering that. Its text is the front of the line as it is, with no byte of it
read as a directive, and then what the message comes to (`output_line`). With
wide integers the number in the front is the line's own (`Program.logTo_line`).
-/
namespace PrintFormat

namespace Logger

/-! ## Output of parts -/

/-- What is put out until something fails, and how it ends. -/
structure Output where
  pieces : List Piece
  verdict : Except FormatError Unit

/-- The bytes that are put out. -/
def Output.text (o : Output) : Bytes := o.pieces.flatMap Piece.text

/-- The output with a line feed behind it, unless it failed. -/
def Output.ended (o : Output) : Output :=
  match o.verdict with
  | .ok _ => ⟨o.pieces ++ [.bytes [10]], .ok ()⟩
  | .error e => ⟨o.pieces, .error e⟩

/-- What parts put out in order until one fails. -/
def output (options : Options) : List (Bytes × List Arg) → Output
  | [] => ⟨[], .ok ()⟩
  | (format, args) :: rest =>
      let t := Transcript.ofFormat options format args
      match t.verdict with
      | .ok _ => ⟨t.pieces ++ (output options rest).pieces, (output options rest).verdict⟩
      | .error e => ⟨t.pieces, .error e⟩

/-- What an action comes to that delivers an output, all of which is taken. -/
def Output.onto (o : Output) (s : Sink) : EStateM.Result FormatError Sink Unit :=
  match o.verdict with
  | .ok _ => .ok () s
  | .error e => .error e s

variable {options : Options} {parts : List (Bytes × List Arg)} {s t : Sink}

theorem output_cons_ok {format : Bytes} {args : List Arg}
    (h : (Transcript.ofFormat options format args).verdict = .ok ()) :
    output options ((format, args) :: parts) =
      ⟨(Transcript.ofFormat options format args).pieces ++ (output options parts).pieces,
        (output options parts).verdict⟩ := by
  rw [output, h]

theorem output_cons_error {format : Bytes} {args : List Arg} {e : FormatError}
    (h : (Transcript.ofFormat options format args).verdict = .error e) :
    output options ((format, args) :: parts) =
      ⟨(Transcript.ofFormat options format args).pieces, .error e⟩ := by
  rw [output, h]

/-! ## Parts and lines on a sink -/

/-- Parts whose output the sink takes. -/
theorem renderParts_delivered (h : Sink.putAll (output options parts).pieces s = .ok () t) :
    renderParts options parts s = (output options parts).onto t := by
  induction parts generalizing s with
  | nil =>
    cases h
    rfl
  | cons part rest ih =>
    obtain ⟨format, args⟩ := part
    cases hv : (Transcript.ofFormat options format args).verdict with
    | error e =>
      rw [output_cons_error hv] at h ⊢
      obtain ⟨houtcome, hsink, -⟩ := Context.render_delivered {} s format args options h
      rw [hv] at houtcome
      simp only [renderParts, render, houtcome, hsink, Except.map]
      rfl
    | ok _ =>
      rw [output_cons_ok hv] at h ⊢
      cases hput : Sink.putAll (Transcript.ofFormat options format args).pieces s with
      | error e mid =>
        rw [Sink.putAll_append_error hput] at h
        cases h
      | ok _ mid =>
        rw [Sink.putAll_append_ok hput] at h
        obtain ⟨houtcome, hsink, -⟩ := Context.render_delivered {} s format args options hput
        rw [hv] at houtcome
        simp only [renderParts, render, houtcome, hsink, Except.map]
        exact ih h

/-- Parts whose output the sink refuses. -/
theorem renderParts_refused {e : FormatError}
    (h : Sink.putAll (output options parts).pieces s = .error e t) :
    renderParts options parts s = .error e t := by
  induction parts generalizing s with
  | nil => cases h
  | cons part rest ih =>
    obtain ⟨format, args⟩ := part
    cases hv : (Transcript.ofFormat options format args).verdict with
    | error e' =>
      rw [output_cons_error hv] at h
      obtain ⟨houtcome, hsink⟩ := Context.render_refused {} s format args options h
      simp only [renderParts, render, houtcome, hsink]
    | ok _ =>
      rw [output_cons_ok hv] at h
      cases hput : Sink.putAll (Transcript.ofFormat options format args).pieces s with
      | error e' mid =>
        rw [Sink.putAll_append_error hput] at h
        cases h
        obtain ⟨houtcome, hsink⟩ := Context.render_refused {} s format args options hput
        simp only [renderParts, render, houtcome, hsink]
      | ok _ mid =>
        rw [Sink.putAll_append_ok hput] at h
        obtain ⟨houtcome, hsink, -⟩ := Context.render_delivered {} s format args options hput
        rw [hv] at houtcome
        simp only [renderParts, render, houtcome, hsink, Except.map]
        exact ih h

/-- The output of a line. -/
def lineOutput (l : Logger) (options : Options) (m : LogLine) : Output :=
  (output options (l.parts m)).ended

theorem putAll_lineFeed (s : Sink) : Sink.putAll [.bytes [10]] s = Sink.put (.bytes [10]) s :=
  congrFun (Action.forM_singleton Sink.put (.bytes [10])) s

/-- A line that the sink takes. -/
theorem writeLine_delivered {l : Logger} {m : LogLine}
    (h : Sink.putAll (l.lineOutput options m).pieces s = .ok () t) :
    l.writeLine options m s = (l.lineOutput options m).onto t := by
  unfold lineOutput Output.ended at h ⊢
  cases hv : (output options (l.parts m)).verdict with
  | error e =>
    simp only [hv] at h ⊢
    have hparts := renderParts_delivered h
    rw [Output.onto, hv] at hparts
    exact Action.bind_error hparts
  | ok _ =>
    simp only [hv] at h ⊢
    cases hput : Sink.putAll (output options (l.parts m)).pieces s with
    | error e mid =>
      rw [Sink.putAll_append_error hput] at h
      cases h
    | ok _ mid =>
      rw [Sink.putAll_append_ok hput, putAll_lineFeed] at h
      have hparts := renderParts_delivered hput
      rw [Output.onto, hv] at hparts
      exact (Action.bind_ok hparts).trans h

/-- A line that the sink refuses. -/
theorem writeLine_refused {l : Logger} {m : LogLine} {e : FormatError}
    (h : Sink.putAll (l.lineOutput options m).pieces s = .error e t) :
    l.writeLine options m s = .error e t := by
  unfold lineOutput Output.ended at h
  cases hv : (output options (l.parts m)).verdict with
  | error e' =>
    simp only [hv] at h
    exact Action.bind_error (renderParts_refused h)
  | ok _ =>
    simp only [hv] at h
    cases hput : Sink.putAll (output options (l.parts m)).pieces s with
    | error e' mid =>
      rw [Sink.putAll_append_error hput] at h
      cases h
      exact Action.bind_error (renderParts_refused hput)
    | ok _ mid =>
      rw [Sink.putAll_append_ok hput, putAll_lineFeed] at h
      have hparts := renderParts_delivered hput
      rw [Output.onto, hv] at hparts
      exact (Action.bind_ok hparts).trans h

/-! ## The text of a line -/

/-- Parts that are shown, in front of others. -/
theorem output_shown {heads : List (Bytes × List Arg)} {texts : List Bytes}
    (h : List.Forall₂ (Shows options) heads texts) (rest : List (Bytes × List Arg)) :
    (output options (heads ++ rest)).text = texts.flatten ++ (output options rest).text ∧
      (output options (heads ++ rest)).verdict = (output options rest).verdict := by
  induction h with
  | nil => exact ⟨rfl, rfl⟩
  | @cons part bytes heads texts hshows _ ih =>
    obtain ⟨format, args⟩ := part
    obtain ⟨k, hk⟩ := hshows
    obtain ⟨hv, -⟩ := (Context.deliver_outcome_eq_ok_iff {} #[] format args options).mp
      (congrArg Delivery.outcome hk)
    have htext : (Transcript.ofFormat options format args).text = bytes := by
      rw [Context.deliver_eq] at hk
      exact congrArg Delivery.bytes hk
    obtain ⟨hrest, hverdict⟩ := ih
    rw [List.cons_append, output_cons_ok hv, List.flatten_cons, List.append_assoc, ← hrest]
    refine ⟨?_, hverdict⟩
    rw [Output.text, List.flatMap_append, ← Transcript.text, htext, ← Output.text]

/-- A line is its front, then what the message comes to. -/
theorem output_line (l : Logger) (options : Options) (m : LogLine) :
    let message := Context.deliver {} #[] m.format m.args options
    (l.lineOutput options m).text = l.front m (m.shown options.intWidth) ++ tail message := by
  intro message
  obtain ⟨heads, texts, hparts, hshown, htexts⟩ := l.exists_heads options m
  obtain ⟨htext, hverdict⟩ := output_shown hshown [(m.format, m.args)]
  rw [← hparts, htexts] at htext
  rw [← hparts] at hverdict
  have hmessage : message = (Transcript.ofFormat options m.format m.args).delivery :=
    Context.deliver_eq ..
  unfold lineOutput Output.ended
  cases hv : (Transcript.ofFormat options m.format m.args).verdict with
  | error e =>
    rw [output_cons_error hv] at htext hverdict
    have htail : tail message = (Transcript.ofFormat options m.format m.args).text := by
      rw [hmessage, tail, Transcript.delivery, hv]
      exact List.append_nil _
    rw [hverdict, htail]
    exact htext
  | ok _ =>
    rw [output_cons_ok hv] at htext hverdict
    have htail : tail message = (Transcript.ofFormat options m.format m.args).text ++ [10] := by
      rw [hmessage, tail, Transcript.delivery, hv]
      rfl
    simp only [output, List.append_nil] at htext hverdict
    simp only [hverdict]
    rw [htail, ← List.append_assoc, Output.text, List.flatMap_append, ← Output.text, htext]
    rfl

/-! ## Lines on a writer with a limit -/

/-- A flush delivers nothing more. -/
theorem contents_left_flush (s : Sink) : (Action.left s.flush).contents = s.contents := by
  obtain ⟨n, target⟩ := s
  cases target with
  | memory held => rfl
  | buffer b => rfl
  | stream w count =>
    simp only [Sink.flush, Sink.onTarget, Target.flush, Writer.flush]
    cases w.flushFails <;> rfl

/-- What is left of a line that is shown: it was written, and then flushed. -/
theorem logTo_sink (l : Logger) (options : Options) (w : Writer) {level : LogLevel}
    (hlevel : l.enabled level = true) (m : LogLine) :
    (l.logTo options w level m).2 =
      Action.left (Sink.flush (Action.left (l.writeLine options m (.toWriter w)))) := by
  rw [logTo, if_pos hlevel]
  cases l.writeLine options m (.toWriter w) with
  | ok _ s =>
    simp only [Action.left]
    cases s.flush <;> rfl
  | error e s =>
    simp only [Action.left]
    cases s.flush <;> rfl

/-- A writer with a limit gets as much of a line as it has room for. -/
theorem logTo_limited (l : Logger) (options : Options) {level : LogLevel}
    (hlevel : l.enabled level = true) {w : Writer} {limit : Nat} (hlimit : w.limit = some limit)
    (hmoves : w.Moves) (hheld : w.held.size ≤ limit) (m : LogLine) :
    let message := Context.deliver {} #[] m.format m.args options
    let line := l.front m (m.shown options.intWidth) ++ tail message
    (l.logTo options w level m).2.contents = (w.held.toList ++ line).take limit := by
  intro message line
  have hlimited : Target.Limited limit (.io w.refusal) (Sink.toWriter w).target :=
    ⟨hlimit, hmoves, hheld, rfl⟩
  obtain ⟨after, -, -, hcontents, hrun⟩ :=
    Sink.putAll_limited hlimited (l.lineOutput options m).pieces
  have hline : Percent.encodeTimes (Sink.toWriter w).encodings
      ((l.lineOutput options m).pieces.flatMap Piece.text) = line := l.output_line options m
  rw [hline] at hcontents hrun
  have hleft : Action.left (l.writeLine options m (.toWriter w)) = after := by
    by_cases hfit : ((Sink.toWriter w).contents ++ line).length ≤ limit
    · rw [writeLine_delivered ((if_pos hfit).mp hrun).1, Output.onto]
      cases (l.lineOutput options m).verdict <;> rfl
    · rw [writeLine_refused ((if_neg hfit).mp hrun)]
      rfl
  rw [logTo_sink l options w hlevel m, contents_left_flush, hleft, hcontents]
  rfl

end Logger

namespace Program

/-- A line that is logged in a program with wide integers. If its level is not
shown, nothing is written and nothing flushed. Otherwise a writer that never
fails gets file, line number, project and header as they are, then what the
message delivers, and a line feed if the message did not fail; it is flushed
once either way, and the answer is the count of all bytes or the message's
error. A writer with a limit gets the front of the same bytes. -/
theorem logTo_line (p : Program) (hwidth : (needOptions p).1.intWidth = .w32) (l : Logger)
    (level : LogLevel) (m : LogLine) :
    let message := Context.deliver {} #[] m.format m.args (needOptions p).1
    let line := l.front m m.line.toNat ++ message.bytes ++ match message.outcome with
      | .ok _ => [10]
      | .error _ => []
    let logged (w : Writer) := (logTo l w level m p).1
    (l.enabled level = false → ∀ w, logged w = (.ok 0, .toWriter w)) ∧
    (l.enabled level = true →
      (∀ w : Writer, w.Unfailing →
        logged w = (message.outcome.map fun _ => line.length, .holding w.flushed line)) ∧
      ∀ (w : Writer) (limit : Nat), w.limit = some limit → w.Moves → w.held.size ≤ limit →
        (logged w).2.contents = (w.held.toList ++ line).take limit) := by
  intro message line logged
  have hline : l.front m (m.shown (needOptions p).1.intWidth) ++ Logger.tail message = line := by
    rw [hwidth, LogLine.shown_w32]
    exact (List.append_assoc _ _ _).symm
  refine ⟨?_, ?_⟩
  · intro hlevel w
    show (logTo l w level m p).1 = _
    unfold logTo
    rw [if_neg (by rw [hlevel]; exact Bool.false_ne_true)]
    rfl
  · intro hlevel
    have hlogged (w : Writer) : logged w = l.logTo (needOptions p).1 w level m :=
      logTo_eq p l hlevel w m
    refine ⟨?_, ?_⟩
    · intro w hw
      rw [hlogged, ← hline]
      exact l.logTo_unfailing (needOptions p).1 hlevel hw m
    · intro w limit hlimit hmoves hheld
      rw [hlogged, ← hline]
      exact l.logTo_limited (needOptions p).1 hlevel hlimit hmoves hheld m

/-- Percent signs all over a line whose message fails, on a writer that never
fails and on one that takes nine bytes, two at a time. -/
theorem logTo_line_percent :
    let l : Logger := { project := some (ascii "%s"), threshold := .all }
    let m : LogLine := ⟨ascii "%n", ascii "a%d.rs", 7, ascii "up %d%s", [.int 7, .int 8]⟩
    let w : Writer := { limit := some 9, chunk := some 2 }
    (needOptions {}).1.intWidth = .w32 ∧ l.enabled .info = true ∧ l.enabled .none = false ∧
      Writer.Unfailing {} ∧ w.limit = some 9 ∧ w.Moves ∧ w.held.size ≤ 9 ∧
      (logTo l w .none m {}).1 = (.ok 0, .toWriter w) ∧
      (logTo l {} .info m {}).1 = (.error (.argumentMismatch 1 .text),
        .holding { flushes := 1 } (ascii "a%d.rs:7: %s: %n: up 7")) ∧
      (logTo l w .info m {}).1.2.contents = ascii "a%d.rs:7:" := by
  intro l m w
  have hwidth : (needOptions {}).1.intWidth = .w32 := by cbv
  have hunfailing := Writer.unfailing_default
  have hmoves : w.Moves := by
    refine ⟨by decide, ?_⟩
    intro n h
    cases h
  have hheld : w.held.size ≤ 9 := Nat.zero_le 9
  have hmessage : Context.deliver {} #[] (ascii "up %d%s") [.int 7, .int 8] (needOptions {}).1 =
      ⟨.error (.argumentMismatch 1 .text), ascii "up 7", 1⟩ := by cbv
  obtain ⟨hhidden, -⟩ := logTo_line {} hwidth l .none m
  obtain ⟨-, hshown⟩ := logTo_line {} hwidth l .info m
  obtain ⟨hfree, hlimited⟩ := hshown rfl
  have hwhole := hfree {} hunfailing
  have hfront := hlimited w 9 rfl hmoves hheld
  have hbytes : l.front m m.line.toNat ++ ascii "up 7" ++ [] =
      ascii "a%d.rs:7: %s: %n: up 7" := by cbv
  have hcut : (w.held.toList ++ ascii "a%d.rs:7: %s: %n: up 7").take 9 = ascii "a%d.rs:7:" := by
    cbv
  rw [hmessage] at hwhole hfront
  change _ = (Except.error _, Sink.holding _ (l.front m m.line.toNat ++ ascii "up 7" ++ [])) at hwhole
  change _ = (w.held.toList ++ (l.front m m.line.toNat ++ ascii "up 7" ++ [])).take 9 at hfront
  rw [hbytes] at hwhole hfront
  exact ⟨hwidth, rfl, rfl, hunfailing, rfl, hmoves, hheld, hhidden rfl w, hwhole,
    hfront.trans hcut⟩

end Program
end PrintFormat
