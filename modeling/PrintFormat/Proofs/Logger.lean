import PrintFormat.Program
import PrintFormat.Proofs.Render.Failure
import PrintFormat.Proofs.Render.Plain

/-!
Log lines under the settings of a program. What is in front of the message is
rendered with the program's options like the message itself, and of those only
the integer width has a part in it: the line number is shown by its low bits
(`LogLine.shown`). `Program.logTo_front` says what comes of that for a line
written to a writer that never fails: two programs show the same in front of
their messages except for a number beyond 16 bits, of which the narrow width
cuts bits off.
-/
namespace PrintFormat

/-- The number that is shown for a line under an integer width. -/
def LogLine.shown (m : LogLine) (w : IntWidth) : Nat := m.line.toNat % 2 ^ w.bits

/-- The place of a line, with a number for it. -/
def Logger.location (l : Logger) (m : LogLine) (number : Nat) : Bytes :=
  match l.showFile, l.showLine with
  | true, true => m.file ++ ascii ":" ++ natText number ++ ascii ": "
  | true, false => m.file ++ ascii ": "
  | false, true => natText number ++ ascii ": "
  | false, false => []

/-- What is in front of the message, with a number for the line. -/
def Logger.front (l : Logger) (m : LogLine) (number : Nat) : Bytes :=
  l.location m number ++ l.project.toList.flatMap (· ++ ascii ": ") ++ m.header ++ ascii ": "

/-! ## Numbers -/

/-- A front tells its number, if it shows it. -/
theorem Logger.front_eq_iff (l : Logger) (m : LogLine) {a b : Nat} :
    l.front m a = l.front m b ↔ l.showLine = false ∨ a = b := by
  unfold front
  rw [List.append_cancel_right_eq, List.append_cancel_right_eq, List.append_cancel_right_eq]
  unfold location
  cases l.showFile <;> cases l.showLine <;> simp [natText_inj]

theorem LogLine.shown_w32 (m : LogLine) : m.shown .w32 = m.line.toNat :=
  Nat.mod_eq_of_lt m.line.toNat_lt

theorem LogLine.shown_w16_iff (m : LogLine) : m.shown .w16 = m.line.toNat ↔ m.line.toNat < 65536 :=
  Nat.mod_eq_iff_lt (by decide)

theorem LogLine.shown_eq_self_iff (m : LogLine) (w : IntWidth) :
    m.shown w = m.line.toNat ↔ w = .w32 ∨ m.line.toNat < 65536 := by
  cases w with
  | w32 => simp [shown_w32]
  | w16 => simp [shown_w16_iff]

theorem LogLine.shown_eq_iff (m : LogLine) (w v : IntWidth) :
    m.shown w = m.shown v ↔ w = v ∨ m.line.toNat < 65536 := by
  cases w <;> cases v <;> simp [shown_w32, shown_w16_iff, eq_comm (a := m.line.toNat)]

/-! ## Parts -/

theorem Context.length_bytes_of_ok {context : Context} {held : Array UInt8} {format : Bytes}
    {args : List Arg} {options : Options} {n : Nat}
    (h : (context.deliver held format args options).outcome = .ok n) :
    (context.deliver held format args options).bytes.length = n := by
  have hlength := (deliver_outcome_eq_ok_iff ..).mp h
  rw [deliver_eq]
  exact hlength.2

namespace Segment

theorem output_text (options : Options) (text : Bytes) (rest : List Arg) (k : Nat) :
    (directive { conversion := some 115 }).output options ⟨.str text :: rest, k⟩ =
      .ok (aligned 0 blank text) ⟨rest, k + 1⟩ := rfl

theorem output_number (options : Options) (v : UInt64) (rest : List Arg) (k : Nat) :
    (directive { conversion := some 117 }).output options ⟨.uint v :: rest, k⟩ =
      .ok (aligned 0 blank (natText (v.toNat % 2 ^ options.intWidth.bits))) ⟨rest, k + 1⟩ := by
  let s : Spelling := { conversion := some 117 }
  have hplain : s.directive.Plain := ⟨rfl, rfl, rfl, rfl⟩
  obtain ⟨t, hcompose⟩ :=
    hplain.convertUnsigned_eq options.intWidth.bits v.toBitVec .decimal false
  rw [BitVec.toNat_setWidth] at hcompose
  have hunsigned : Standard.unsigned.compose s.directive options v.toBitVec .empty =
      .ok { body := natText (v.toNat % 2 ^ options.intWidth.bits) } t := hcompose
  exact output_plain hplain rfl (Conversion.taken_standard rfl hunsigned rest k)

end Segment

/-- A part of a line that is rendered to some bytes. -/
def Logger.Shows (options : Options) (part : Bytes × List Arg) (bytes : Bytes) : Prop :=
  ∃ k, Context.deliver {} #[] part.1 part.2 options = ⟨.ok bytes.length, bytes, k⟩

namespace Logger

variable (options : Options)

/-- One directive without a width, and a colon behind it. -/
theorem shows_label {s : Spelling} {format : Bytes} {args : List Arg} {text : Bytes} {k : Nat}
    (hsplit : Segment.ofFormat format = [.directive s, .literal (ascii ": ")])
    (htext : (Segment.directive s).output options ⟨args, 0⟩ =
      .ok (aligned 0 blank text) ⟨[], k⟩) :
    Shows options (format, args) (text ++ ascii ": ") := by
  refine ⟨k, ?_⟩
  rw [Context.deliver_eq, Transcript.ofFormat, hsplit, Transcript.ofSegments_cons_ok htext]
  simp only [Transcript.delivery, Transcript.text_after, flatMap_aligned_zero]
  rfl

theorem shows_text (text : Bytes) :
    Shows options (ascii "%s: ", [.str text]) (text ++ ascii ": ") := by
  have hsplit : Segment.ofFormat (ascii "%s: ") =
      [.directive { conversion := some 115 }, .literal (ascii ": ")] := by cbv
  exact shows_label options hsplit (Segment.output_text options text [] 0)

theorem shows_number (v : UInt64) :
    Shows options (ascii "%u: ", [.uint v])
      (natText (v.toNat % 2 ^ options.intWidth.bits) ++ ascii ": ") := by
  have hsplit : Segment.ofFormat (ascii "%u: ") =
      [.directive { conversion := some 117 }, .literal (ascii ": ")] := by cbv
  exact shows_label options hsplit (Segment.output_number options v [] 0)

theorem shows_place (text : Bytes) (v : UInt64) :
    Shows options (ascii "%s:%u: ", [.str text, .uint v])
      (text ++ ascii ":" ++ natText (v.toNat % 2 ^ options.intWidth.bits) ++ ascii ": ") := by
  have hsplit : Segment.ofFormat (ascii "%s:%u: ") =
      [.directive { conversion := some 115 }, .literal (ascii ":"),
        .directive { conversion := some 117 }, .literal (ascii ": ")] := by cbv
  have hcolon : (Segment.literal (ascii ":")).output options ⟨[.uint v], 1⟩ =
      .ok [.bytes (ascii ":")] ⟨[.uint v], 1⟩ := rfl
  refine ⟨2, ?_⟩
  rw [Context.deliver_eq, Transcript.ofFormat, hsplit,
    Transcript.ofSegments_cons_ok (Segment.output_text options text [.uint v] 0),
    Transcript.ofSegments_cons_ok hcolon,
    Transcript.ofSegments_cons_ok (Segment.output_number options v [] 1)]
  simp only [Transcript.delivery, Transcript.text_after, flatMap_aligned_zero, List.append_assoc]
  rfl

/-- The parts in front of the message, and what they are rendered to. -/
theorem exists_heads (l : Logger) (m : LogLine) :
    ∃ heads texts, l.parts m = heads ++ [(m.format, m.args)] ∧
      List.Forall₂ (Shows options) heads texts ∧
      texts.flatten = l.front m (m.shown options.intWidth) := by
  have hnumber := shows_number options m.line.toUInt64
  have hplace := shows_place options m.file m.line.toUInt64
  rw [UInt32.toNat_toUInt64, ← LogLine.shown] at hnumber hplace
  have hproject : List.Forall₂ (Shows options)
      (l.project.toList.map fun p => (ascii "%s: ", [Arg.str p]))
      (l.project.toList.map (· ++ ascii ": ")) := by
    cases l.project with
    | none => exact .nil
    | some p => exact .cons (shows_text options p) .nil
  obtain ⟨location, texts, hparts, hshown, htexts⟩ :
      ∃ location texts, l.parts m = location ++
          (l.project.toList.map fun p => (ascii "%s: ", [Arg.str p])) ++
          [(ascii "%s: ", [Arg.str m.header]), (m.format, m.args)] ∧
        List.Forall₂ (Shows options) location texts ∧
        texts.flatten = l.location m (m.shown options.intWidth) := by
    unfold parts Logger.location
    cases l.showFile with
    | true =>
      cases l.showLine with
      | true => exact ⟨_, _, rfl, .cons hplace .nil, List.flatten_singleton⟩
      | false => exact ⟨_, _, rfl, .cons (shows_text options m.file) .nil, List.flatten_singleton⟩
    | false =>
      cases l.showLine with
      | true => exact ⟨_, _, rfl, .cons hnumber .nil, List.flatten_singleton⟩
      | false => exact ⟨[], [], rfl, .nil, rfl⟩
  refine ⟨location ++ (l.project.toList.map fun p => (ascii "%s: ", [Arg.str p])) ++
      [(ascii "%s: ", [Arg.str m.header])],
    texts ++ l.project.toList.map (· ++ ascii ": ") ++ [m.header ++ ascii ": "], ?_, ?_, ?_⟩
  · rw [hparts, List.append_assoc _ [_]]
    rfl
  · exact List.rel_append (List.rel_append hshown hproject)
      (.cons (shows_text options m.header) .nil)
  · rw [List.flatten_append, List.flatten_append, htexts, ← List.flatMap_def,
      List.flatten_singleton, front, List.append_assoc _ m.header]

end Logger

/-! ## Lines on a writer that never fails -/

/-- A writer that is told nothing never fails. -/
theorem Writer.unfailing_default : Writer.Unfailing {} where
  chunk := by decide
  pace n := by
    intro h
    cases h
  limit := rfl
  flushes := rfl

/-- A stream to a writer that has taken a text. -/
def Sink.holding (w : Writer) (text : Bytes) : Sink := ⟨0, .stream (w.taking text) text.length⟩

namespace Sink

variable {w : Writer}

theorem toWriter_eq_holding (w : Writer) : toWriter w = holding w [] := by
  rw [holding, Writer.taking_nil]
  rfl

theorem contents_holding (w : Writer) (text : Bytes) :
    (holding w text).contents = w.held.toList ++ text :=
  w.toList_held_taking text

theorem render_holding (hw : w.Unfailing) (text format : Bytes) (args : List Arg)
    (options : Options) :
    (render (holding w text) format args options).outcome =
        (Context.deliver {} #[] format args options).outcome ∧
      (render (holding w text) format args options).sink =
        holding w (text ++ (Context.deliver {} #[] format args options).bytes) := by
  obtain ⟨houtcome, hsink⟩ :=
    Context.render_unfailing {} format args options (hw.taking text) text.length
  rw [Writer.taking_taking, ← List.length_append] at hsink
  exact ⟨houtcome, hsink⟩

theorem put_holding (hw : w.Unfailing) (text more : Bytes) :
    put (.bytes more) (holding w text) = .ok () (holding w (text ++ more)) := by
  have hrun := onTarget_ok (n := 0) (Target.writeEach_unfailing [more] (hw.taking text) text.length)
  rw [Writer.taking_taking, List.flatten_singleton, ← List.length_append] at hrun
  exact hrun

theorem flush_holding (hw : w.Unfailing) (text : Bytes) :
    flush (holding w text) = .ok () (holding w.flushed text) := by
  have hflush : (w.taking text).flush = .ok () (w.flushed.taking text) := by
    simp only [Writer.flush, (hw.taking text).flushes, Bool.false_eq_true, if_false]
    rfl
  have htarget : Target.flush (.stream (w.taking text) text.length) =
      .ok () (.stream (w.flushed.taking text) text.length) := by
    simp only [Target.flush, hflush]
  exact onTarget_ok htarget

end Sink

namespace Logger

variable (options : Options)

theorem renderParts_cons {w : Writer} (hw : w.Unfailing) (text format : Bytes) (args : List Arg)
    (rest : List (Bytes × List Arg)) :
    renderParts options ((format, args) :: rest) (.holding w text) =
      match (Context.deliver {} #[] format args options).outcome with
      | .ok _ => renderParts options rest
          (.holding w (text ++ (Context.deliver {} #[] format args options).bytes))
      | .error e => .error e
          (.holding w (text ++ (Context.deliver {} #[] format args options).bytes)) := by
  obtain ⟨houtcome, hsink⟩ := Sink.render_holding hw text format args options
  cases ho : (Context.deliver {} #[] format args options).outcome with
  | ok n =>
    rw [ho] at houtcome
    simp only [renderParts, houtcome, hsink]
  | error e =>
    rw [ho] at houtcome
    simp only [renderParts, houtcome, hsink]

/-- Parts that are shown, one after the other. -/
theorem renderParts_shown {heads : List (Bytes × List Arg)} {texts : List Bytes}
    (h : List.Forall₂ (Shows options) heads texts) (rest : List (Bytes × List Arg)) {w : Writer}
    (hw : w.Unfailing) (text : Bytes) :
    renderParts options (heads ++ rest) (.holding w text) =
      renderParts options rest (.holding w (text ++ texts.flatten)) := by
  induction h generalizing text with
  | nil => rw [List.flatten_nil, List.append_nil]; rfl
  | @cons part bytes heads texts hshows _ ih =>
    obtain ⟨k, hk⟩ := hshows
    have hpart := renderParts_cons options hw text part.1 part.2 (heads ++ rest)
    rw [hk] at hpart
    rw [List.flatten_cons, ← List.append_assoc, ← ih (text ++ bytes)]
    exact hpart

/-- What a message adds to the front of its line: its bytes, and the line feed
unless it failed. -/
def tail (message : Delivery) : Bytes :=
  message.bytes ++ match message.outcome with
    | .ok _ => [10]
    | .error _ => []

theorem map_length_tail (front : Bytes) (message : Delivery)
    (h : ∀ n, message.outcome = .ok n → message.bytes.length = n) :
    (message.outcome.map fun _ => (front ++ tail message).length) =
      message.outcome.map fun n => front.length + n + 1 := by
  cases ho : message.outcome with
  | error e => rfl
  | ok n =>
    simp only [Except.map, tail, ho, List.length_append, h n ho, List.length_singleton,
      Nat.add_assoc]

/-- A line and how its message ended. -/
theorem writeLine_unfailing (l : Logger) {w : Writer} (hw : w.Unfailing) (m : LogLine) :
    let message := Context.deliver {} #[] m.format m.args options
    let line := l.front m (m.shown options.intWidth) ++ tail message
    l.writeLine options m (.toWriter w) =
      match message.outcome with
      | .ok _ => .ok () (.holding w line)
      | .error e => .error e (.holding w line) := by
  intro message line
  obtain ⟨heads, texts, hparts, hshown, htexts⟩ := l.exists_heads options m
  have hheads := renderParts_shown options hshown [(m.format, m.args)] hw []
  have hlast := renderParts_cons options hw texts.flatten m.format m.args []
  rw [← hparts, ← Sink.toWriter_eq_holding, List.nil_append] at hheads
  rw [← hheads, htexts] at hlast
  change _ = match message.outcome with | .ok _ => _ | .error e => _ at hlast
  cases hmessage : message.outcome with
  | error e =>
    have hline : line = l.front m (m.shown options.intWidth) ++ message.bytes := by
      simp only [line, tail, hmessage, List.append_nil]
    rw [hmessage] at hlast
    rw [hline]
    exact Action.bind_error hlast
  | ok n =>
    have hline : line = l.front m (m.shown options.intWidth) ++ message.bytes ++ [10] := by
      simp only [line, tail, hmessage, List.append_assoc]
    rw [hmessage] at hlast
    rw [hline]
    exact (Action.bind_ok hlast).trans (Sink.put_holding hw _ [10])

theorem logTo_unfailing (l : Logger) {level : LogLevel} (hlevel : l.enabled level = true)
    {w : Writer} (hw : w.Unfailing) (m : LogLine) :
    let message := Context.deliver {} #[] m.format m.args options
    let line := l.front m (m.shown options.intWidth) ++ tail message
    l.logTo options w level m =
      (message.outcome.map fun _ => line.length, .holding w.flushed line) := by
  intro message line
  have hline := l.writeLine_unfailing options hw m
  have hflush := Sink.flush_holding hw line
  change _ = match message.outcome with | .ok _ => _ | .error e => _ at hline
  rw [logTo, if_pos hlevel]
  cases hmessage : message.outcome with
  | error e =>
    rw [hmessage] at hline
    simp only [hline]
    rw [hflush]
    rfl
  | ok n =>
    rw [hmessage] at hline
    simp only [hline]
    rw [hflush]
    rfl

end Logger

/-! ## Programs -/

namespace Program

theorem logTo_eq (p : Program) (l : Logger) {level : LogLevel} (hlevel : l.enabled level = true)
    (w : Writer) (m : LogLine) :
    (logTo l w level m p).1 = l.logTo (needOptions p).1 w level m := by
  unfold logTo
  rw [if_pos hlevel]
  rfl

/-- A line that two programs log to a writer that never fails. Each puts the
line's front before the message as it renders it, and a line feed behind it; a
failed message leaves out the line feed. The fronts are the same exactly if they
show no number, or have the same integer width, or the number has 16 bits; and a
number that is shown is shown in full exactly under the wide width or if it has
16 bits. -/
theorem logTo_front (p p' : Program) (l : Logger) {level : LogLevel}
    (hlevel : l.enabled level = true) {w : Writer} (hw : w.Unfailing) (m : LogLine) :
    let width (p : Program) := (needOptions p).1.intWidth
    let front (p : Program) := l.front m (m.shown (width p))
    let message (p : Program) := Context.deliver {} #[] m.format m.args (needOptions p).1
    let logged (p : Program) := (logTo l w level m p).1
    (∀ p, (logged p).2.contents = w.held.toList ++ front p ++ Logger.tail (message p) ∧
      (logged p).1 = (message p).outcome.map fun n => (front p).length + n + 1) ∧
    (front p = front p' ↔ l.showLine = false ∨ width p = width p' ∨ m.line.toNat < 65536) ∧
    (l.showLine = true →
      (front p = l.front m m.line.toNat ↔ width p = .w32 ∨ m.line.toNat < 65536)) := by
  intro width front message logged
  refine ⟨?_, ?_, ?_⟩
  · intro p
    have hlogged : logged p = ((message p).outcome.map fun _ =>
        (front p ++ Logger.tail (message p)).length,
          .holding w.flushed (front p ++ Logger.tail (message p))) :=
      (logTo_eq p l hlevel w m).trans (l.logTo_unfailing (needOptions p).1 hlevel hw m)
    rw [hlogged]
    refine ⟨?_, ?_⟩
    · rw [Sink.contents_holding, List.append_assoc]
      rfl
    · exact Logger.map_length_tail (front p) (message p) fun n => Context.length_bytes_of_ok
  · rw [Logger.front_eq_iff, LogLine.shown_eq_iff]
  · intro hshown
    rw [Logger.front_eq_iff, LogLine.shown_eq_self_iff, hshown]
    simp

/-- A line beyond 16 bits, in a program with narrow integers and in one with wide
ones. -/
theorem logTo_front_narrow :
    let l : Logger := { project := some (ascii "ecfmt"), threshold := .all }
    let m : LogLine := ⟨ascii "net", ascii "f.rs", 65537, ascii "up %d", [.int 7]⟩
    let narrow : Program := { environment := [("ECFMT_INT_WIDTH", ascii "16")] }
    let front (p : Program) := l.front m (m.shown (needOptions p).1.intWidth)
    l.enabled .info = true ∧ Writer.Unfailing {} ∧ l.showLine = true ∧
      (logTo l {} .info m narrow).1.2.contents =
        front narrow ++
          Logger.tail (Context.deliver {} #[] m.format m.args (needOptions narrow).1) ∧
      (logTo l {} .info m narrow).1.1 = .ok 25 ∧
      front narrow ≠ front {} ∧ front narrow ≠ l.front m 65537 := by
  intro l m narrow front
  have hwriter := Writer.unfailing_default
  have hnarrow : (needOptions narrow).1.intWidth = .w16 := by cbv
  have hlevel : l.enabled .info = true := rfl
  obtain ⟨hlogged, hsame, hfull⟩ := logTo_front narrow {} l hlevel hwriter m
  obtain ⟨hcontents, houtcome⟩ := hlogged narrow
  refine ⟨hlevel, hwriter, rfl, hcontents, houtcome.trans (by cbv), mt hsame.mp ?_,
    mt (hfull rfl).mp ?_⟩
  · beta_reduce
    rw [hnarrow]
    decide
  · beta_reduce
    rw [hnarrow]
    decide

/-- The line number of a program with narrow integers is not the line number. -/
theorem logTo_narrow_line :
    let l : Logger := { project := some (ascii "ecfmt"), threshold := .all }
    let m : LogLine := ⟨ascii "net", ascii "f.rs", 65537, ascii "up %d", [.int 7]⟩
    let narrow : Program := { environment := [("ECFMT_INT_WIDTH", ascii "16")] }
    l.enabled .info = true ∧ l.showLine = true ∧ Writer.Unfailing {} ∧
      Context.deliver {} #[] m.format m.args (needOptions {}).1 =
        Context.deliver {} #[] m.format m.args (needOptions narrow).1 ∧
      (logTo l {} .info m {}).1.2.contents = ascii "f.rs:65537: ecfmt: net: up 7\n" ∧
      (logTo l {} .info m narrow).1.2.contents = ascii "f.rs:1: ecfmt: net: up 7\n" := by
  refine ⟨rfl, rfl, Writer.unfailing_default, by cbv, by cbv, by cbv⟩

end Program
end PrintFormat
