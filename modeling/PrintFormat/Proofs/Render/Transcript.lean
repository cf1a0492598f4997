import PrintFormat.Context
import PrintFormat.Proofs.Sink.Writing

/-!
The transcript of a render: its pieces of output and how it ends, worked out on
the format and the arguments alone. Neither the context that a render starts
with nor its sink has a part in it, since each segment starts with a reading and
a span of its own and is worked out before its first piece is delivered.
`Context.render_delivered` and `Context.render_refused` say that a render is its
transcript delivered to the sink, and `Context.render_memory` what that is on
memory that grows, where nothing is refused.
-/
namespace PrintFormat

/-! ## One segment -/

/-- What a directive with a conversion puts out, and the arguments after it. -/
def Directive.output (d : Directive) (options : Options) (c : Conversion) :
    EStateM FormatError Cursor (List Piece) := fun cursor =>
  match d.resolveStars cursor with
  | .error e (_, rest) => .error e rest
  | .ok _ (resolved, rest) =>
      match c.field resolved options ⟨.empty, rest⟩ with
      | .error e b => .error e b.cursor
      | .ok f b => .ok f.pieces b.cursor

/-- What a segment puts out, and the arguments after it. -/
def Segment.output (options : Options) : Segment → EStateM FormatError Cursor (List Piece)
  | .literal text => pure [.bytes text]
  | .directive s =>
      match s.directive.conversion? with
      | none => pure [.bytes s.source]
      | some c => s.directive.output options c

theorem Segment.output_copied {options : Options} {s : Spelling}
    (h : s.directive.conversion? = none) :
    (directive s).output options = pure [.bytes s.source] := by
  simp only [output, h]

theorem Segment.output_converted {options : Options} {s : Spelling} {c : Conversion}
    (h : s.directive.conversion? = some c) :
    (directive s).output options = s.directive.output options c := by
  simp only [output, h]

namespace Rendering

variable {options : Options} {seg : Segment} {r : Rendering} {pieces : List Piece} {c : Cursor}

theorem deliver_ok {s : Sink} (h : Sink.putAll pieces r.sink = .ok () s) :
    deliver pieces r = .ok () ⟨r.context, r.cursor, s⟩ := by
  simp only [deliver, h]

theorem deliver_error {s : Sink} {e : FormatError} (h : Sink.putAll pieces r.sink = .error e s) :
    deliver pieces r = .error e ⟨r.context, r.cursor, s⟩ := by
  simp only [deliver, h]

theorem enter_eq (d : Directive) (r : Rendering) :
    enter d r = .ok () ⟨⟨.empty, d, d.mode⟩, r.cursor, r.sink⟩ := rfl

theorem resolveStars_ok {d : Directive}
    (h : r.context.directive.resolveStars r.cursor = .ok () (d, c)) :
    resolveStars r = .ok () ⟨{ r.context with directive := d }, c, r.sink⟩ := by
  simp only [resolveStars, h]

theorem resolveStars_error {d : Directive} {e : FormatError}
    (h : r.context.directive.resolveStars r.cursor = .error e (d, c)) :
    resolveStars r = .error e ⟨{ r.context with directive := d }, c, r.sink⟩ := by
  simp only [resolveStars, h]

theorem compose_ok {conversion : Conversion} {f : Field} {b : Bench}
    (h : conversion.field r.context.directive options ⟨r.context.scratch, r.cursor⟩ = .ok f b) :
    compose options conversion r =
      .ok f ⟨{ r.context with scratch := b.scratch }, b.cursor, r.sink⟩ := by
  simp only [compose, h]

theorem compose_error {conversion : Conversion} {e : FormatError} {b : Bench}
    (h : conversion.field r.context.directive options ⟨r.context.scratch, r.cursor⟩ = .error e b) :
    compose options conversion r =
      .error e ⟨{ r.context with scratch := b.scratch }, b.cursor, r.sink⟩ := by
  simp only [compose, h]

/-- What a render goes through once it has entered a directive. -/
def entered (d : Directive) (r : Rendering) : Rendering :=
  ⟨⟨.empty, d, d.mode⟩, r.cursor, r.sink⟩

/-- The output of a directive that was entered, if it can be worked out. -/
theorem output_ok {spelling : Spelling}
    (h : (Segment.directive spelling).output options r.cursor = .ok pieces c) :
    ∃ context, output options spelling (entered spelling.directive r) =
      .ok pieces ⟨context, c, r.sink⟩ := by
  unfold output
  simp only [Segment.output] at h
  cases hc : spelling.directive.conversion? with
  | none =>
    simp only [hc] at h
    cases h
    exact ⟨_, rfl⟩
  | some conversion =>
    simp only [hc, Directive.output] at h
    cases hs : spelling.directive.resolveStars r.cursor with
    | error e p => simp only [hs, reduceCtorEq] at h
    | ok _ p =>
      obtain ⟨d, rest⟩ := p
      simp only [hs] at h
      cases hf : conversion.field d options ⟨.empty, rest⟩ with
      | error e b => simp only [hf, reduceCtorEq] at h
      | ok f b =>
        simp only [hf] at h
        cases h
        have hstars := resolveStars_ok (r := entered spelling.directive r) hs
        exact ⟨_, (Action.bind_ok hstars).trans (Action.bind_ok (compose_ok hf))⟩

/-- A directive that cannot be worked out fails before it delivers. -/
theorem output_error {spelling : Spelling} {e : FormatError}
    (h : (Segment.directive spelling).output options r.cursor = .error e c) :
    ∃ context, output options spelling (entered spelling.directive r) =
      .error e ⟨context, c, r.sink⟩ := by
  unfold output
  simp only [Segment.output] at h
  cases hc : spelling.directive.conversion? with
  | none =>
    simp only [hc] at h
    cases h
  | some conversion =>
    simp only [hc, Directive.output] at h
    cases hs : spelling.directive.resolveStars r.cursor with
    | error e' p =>
      simp only [hs] at h
      cases h
      exact ⟨_, Action.bind_error (resolveStars_error (r := entered spelling.directive r) hs)⟩
    | ok _ p =>
      obtain ⟨d, rest⟩ := p
      simp only [hs] at h
      cases hf : conversion.field d options ⟨.empty, rest⟩ with
      | ok f b => simp only [hf, reduceCtorEq] at h
      | error e' b =>
        simp only [hf] at h
        cases h
        have hstars := resolveStars_ok (r := entered spelling.directive r) hs
        exact ⟨_, (Action.bind_ok hstars).trans (Action.bind_error (compose_error hf))⟩

theorem segment_ok (h : seg.output options r.cursor = .ok pieces c) {s : Sink}
    (hp : Sink.putAll pieces r.sink = .ok () s) :
    ∃ context, segment options seg r = .ok () ⟨context, c, s⟩ := by
  cases seg with
  | literal text =>
    cases h
    exact ⟨r.context, deliver_ok hp⟩
  | directive spelling =>
    obtain ⟨context, ho⟩ := output_ok h
    have hd := deliver_ok (r := ⟨context, c, r.sink⟩) hp
    exact ⟨_, (Action.bind_ok (enter_eq _ r)).trans
      ((Action.bind_ok ho).trans ((Action.bind_ok hd).trans rfl))⟩

theorem segment_refused (h : seg.output options r.cursor = .ok pieces c) {s : Sink}
    {e : FormatError} (hp : Sink.putAll pieces r.sink = .error e s) :
    ∃ context, segment options seg r = .error e ⟨context, c, s⟩ := by
  cases seg with
  | literal text =>
    cases h
    exact ⟨r.context, deliver_error hp⟩
  | directive spelling =>
    obtain ⟨context, ho⟩ := output_ok h
    have hd := deliver_error (r := ⟨context, c, r.sink⟩) hp
    exact ⟨_, (Action.bind_ok (enter_eq _ r)).trans
      ((Action.bind_ok ho).trans (Action.bind_error hd))⟩

theorem segment_error {e : FormatError} (h : seg.output options r.cursor = .error e c) :
    ∃ context, segment options seg r = .error e ⟨context, c, r.sink⟩ := by
  cases seg with
  | literal text => cases h
  | directive spelling =>
    obtain ⟨context, ho⟩ := output_error h
    exact ⟨_, (Action.bind_ok (enter_eq _ r)).trans (Action.bind_error ho)⟩

end Rendering

/-! ## Segments in a row -/

/-- What segments put out until one fails, how they end, and the arguments that
are left then. -/
structure Transcript where
  pieces : List Piece
  verdict : Except FormatError Unit
  cursor : Cursor

namespace Transcript

/-- The transcript with pieces in front. -/
def after (pieces : List Piece) (t : Transcript) : Transcript :=
  { t with pieces := pieces ++ t.pieces }

/-- The transcript of segments for the arguments of a cursor. -/
def ofSegments (options : Options) : List Segment → Cursor → Transcript
  | [], c => ⟨[], .ok (), c⟩
  | seg :: rest, c =>
      match seg.output options c with
      | .error e c => ⟨[], .error e, c⟩
      | .ok pieces c => (ofSegments options rest c).after pieces

/-- The transcript of a format. -/
def ofFormat (options : Options) (format : Bytes) (args : List Arg) : Transcript :=
  ofSegments options (Segment.ofFormat format) ⟨args, 0⟩

/-- The bytes that are put out. -/
def text (t : Transcript) : Bytes := t.pieces.flatMap Piece.text

theorem ofSegments_cons_ok {options : Options} {seg : Segment} {c c' : Cursor}
    {pieces : List Piece} (h : seg.output options c = .ok pieces c') (rest : List Segment) :
    ofSegments options (seg :: rest) c = (ofSegments options rest c').after pieces := by
  simp only [ofSegments, h]

theorem ofSegments_cons_error {options : Options} {seg : Segment} {c c' : Cursor}
    {e : FormatError} (h : seg.output options c = .error e c') (rest : List Segment) :
    ofSegments options (seg :: rest) c = ⟨[], .error e, c'⟩ := by
  simp only [ofSegments, h]

theorem pieces_after (pieces : List Piece) (t : Transcript) :
    (t.after pieces).pieces = pieces ++ t.pieces := rfl

theorem text_after (pieces : List Piece) (t : Transcript) :
    (t.after pieces).text = pieces.flatMap Piece.text ++ t.text :=
  List.flatMap_append

end Transcript

namespace Rendering

variable {options : Options}

/-- Segments whose output the sink takes end as their transcript does. -/
theorem segments_delivered {parts : List Segment} {r : Rendering} {s : Sink}
    (h : Sink.putAll (Transcript.ofSegments options parts r.cursor).pieces r.sink = .ok () s) :
    let t := Transcript.ofSegments options parts r.cursor
    ∃ context, segments options parts r =
      match t.verdict with
      | .ok _ => .ok () ⟨context, t.cursor, s⟩
      | .error e => .error e ⟨context, t.cursor, s⟩ := by
  induction parts generalizing r with
  | nil =>
    cases h
    exact ⟨r.context, rfl⟩
  | cons seg rest ih =>
    cases ho : seg.output options r.cursor with
    | error e c =>
      rw [Transcript.ofSegments_cons_error ho] at h ⊢
      cases h
      obtain ⟨context, hseg⟩ := segment_error ho
      exact ⟨context, Action.forM_cons_error hseg rest⟩
    | ok pieces c =>
      rw [Transcript.ofSegments_cons_ok ho] at h ⊢
      cases hp : Sink.putAll pieces r.sink with
      | error e t =>
        rw [Transcript.pieces_after, Sink.putAll_append_error hp] at h
        cases h
      | ok _ t =>
        obtain ⟨context, hseg⟩ := segment_ok ho hp
        rw [Transcript.pieces_after, Sink.putAll_append_ok hp] at h
        obtain ⟨last, hrest⟩ := ih (r := ⟨context, c, t⟩) h
        exact ⟨last, (Action.forM_cons_ok hseg rest).trans hrest⟩

/-- Segments whose output the sink refuses end with its error. -/
theorem segments_refused {parts : List Segment} {r : Rendering} {s : Sink} {e : FormatError}
    (h : Sink.putAll (Transcript.ofSegments options parts r.cursor).pieces r.sink = .error e s) :
    ∃ context c, segments options parts r = .error e ⟨context, c, s⟩ := by
  induction parts generalizing r with
  | nil => cases h
  | cons seg rest ih =>
    cases ho : seg.output options r.cursor with
    | error e' c =>
      rw [Transcript.ofSegments_cons_error ho] at h
      cases h
    | ok pieces c =>
      rw [Transcript.ofSegments_cons_ok ho] at h
      cases hp : Sink.putAll pieces r.sink with
      | error e' t =>
        rw [Transcript.pieces_after, Sink.putAll_append_error hp] at h
        cases h
        obtain ⟨context, hseg⟩ := segment_refused ho hp
        exact ⟨context, c, Action.forM_cons_error hseg rest⟩
      | ok _ t =>
        obtain ⟨context, hseg⟩ := segment_ok ho hp
        rw [Transcript.pieces_after, Sink.putAll_append_ok hp] at h
        obtain ⟨last, c', hrest⟩ := ih (r := ⟨context, c, t⟩) h
        exact ⟨last, c', (Action.forM_cons_ok hseg rest).trans hrest⟩

end Rendering

/-! ## Renders -/

namespace Context

variable (context : Context) (sink : Sink) (format : Bytes) (args : List Arg) (options : Options)

/-- A render whose output the sink takes. -/
theorem render_delivered {s : Sink}
    (h : Sink.putAll (Transcript.ofFormat options format args).pieces sink = .ok () s) :
    let t := Transcript.ofFormat options format args
    let r := context.render sink format args options
    r.outcome = t.verdict.map (fun _ => s.written - sink.written) ∧ r.sink = s ∧
      r.consumed = t.cursor.consumed := by
  intro t r
  obtain ⟨last, hrun⟩ := Rendering.segments_delivered (r := ⟨context, ⟨args, 0⟩, sink⟩) h
  change _ = (match t.verdict with | .ok _ => _ | .error e => _) at hrun
  cases hv : t.verdict with
  | ok _ =>
    rw [hv] at hrun
    simp only [r, render, hrun]
    exact ⟨rfl, trivial, rfl⟩
  | error e =>
    rw [hv] at hrun
    simp only [r, render, hrun]
    exact ⟨rfl, trivial, rfl⟩

/-- A render whose output the sink refuses. -/
theorem render_refused {s : Sink} {e : FormatError}
    (h : Sink.putAll (Transcript.ofFormat options format args).pieces sink = .error e s) :
    (context.render sink format args options).outcome = .error e ∧
      (context.render sink format args options).sink = s := by
  obtain ⟨last, c, hrun⟩ := Rendering.segments_refused (r := ⟨context, ⟨args, 0⟩, sink⟩) h
  simp only [render, hrun, and_self]

/-- On memory that grows nothing is refused. -/
theorem render_memory (encodings : Nat) (held : Array UInt8) :
    let t := Transcript.ofFormat options format args
    let r := context.render ⟨encodings, .memory held⟩ format args options
    r.outcome = t.verdict.map (fun _ => (Percent.encodeTimes encodings t.text).length) ∧
      r.sink = ⟨encodings, .memory (held ++ Percent.encodeTimes encodings t.text)⟩ ∧
      r.consumed = t.cursor.consumed := by
  intro t r
  have hput := Sink.putAll_memory t.pieces encodings held
  obtain ⟨ho, hs, hc⟩ := context.render_delivered _ format args options hput
  rw [Sink.written_memory_append] at ho
  exact ⟨ho, hs, hc⟩

/-- On a limited target it is refused what is beyond the limit. -/
theorem render_limited {limit : Nat} {refusal : FormatError}
    (h : Target.Limited limit refusal sink.target) :
    let t := Transcript.ofFormat options format args
    let text := Percent.encodeTimes sink.encodings t.text
    let r := context.render sink format args options
    r.sink.encodings = sink.encodings ∧ Target.Limited limit refusal r.sink.target ∧
      r.sink.contents = (sink.contents ++ text).take limit ∧
      if (sink.contents ++ text).length ≤ limit then
        r.outcome = t.verdict.map (fun _ => text.length) ∧
          r.sink.written = sink.written + text.length
      else r.outcome = .error refusal := by
  intro t text r
  obtain ⟨after, hencodings, hlimited, hcontents, hrun⟩ := Sink.putAll_limited h t.pieces
  by_cases hfit : (sink.contents ++ text).length ≤ limit
  · obtain ⟨hput, hwritten⟩ := (if_pos hfit).mp hrun
    obtain ⟨ho, hs, -⟩ := context.render_delivered sink format args options hput
    rw [hwritten, Nat.add_sub_cancel_left] at ho
    rw [if_pos hfit, show r.sink = after from hs]
    exact ⟨hencodings, hlimited, hcontents, ho, hwritten⟩
  · obtain ⟨ho, hs⟩ :=
      context.render_refused sink format args options ((if_neg hfit).mp hrun)
    rw [if_neg hfit, show r.sink = after from hs]
    exact ⟨hencodings, hlimited, hcontents, ho⟩

end Context

/-- Two renders that leave the same in their sinks and end the same way. -/
structure Rendered.Same (r s : Rendered) : Prop where
  outcome : r.outcome = s.outcome
  sink : r.sink = s.sink

/-- Renders whose transcripts put out the same pieces and end the same way do so
on every sink. -/
theorem Context.render_same (context : Context) (sink : Sink) {format format' : Bytes}
    {args args' : List Arg} {options options' : Options}
    (hpieces : (Transcript.ofFormat options format args).pieces =
      (Transcript.ofFormat options' format' args').pieces)
    (hverdict : (Transcript.ofFormat options format args).verdict =
      (Transcript.ofFormat options' format' args').verdict) :
    (context.render sink format args options).Same
      (context.render sink format' args' options') := by
  cases hput : Sink.putAll (Transcript.ofFormat options format args).pieces sink with
  | ok _ s =>
    obtain ⟨ho, hs, -⟩ := context.render_delivered sink format args options hput
    rw [hpieces] at hput
    obtain ⟨ho', hs', -⟩ := context.render_delivered sink format' args' options' hput
    rw [hverdict] at ho
    exact ⟨ho.trans ho'.symm, hs.trans hs'.symm⟩
  | error e s =>
    obtain ⟨ho, hs⟩ := context.render_refused sink format args options hput
    rw [hpieces] at hput
    obtain ⟨ho', hs'⟩ := context.render_refused sink format' args' options' hput
    exact ⟨ho.trans ho'.symm, hs.trans hs'.symm⟩

/-- What a render onto memory comes to: how it ends, the bytes that it adds to
those in memory, and the count of arguments that it takes. -/
structure Delivery where
  outcome : Except FormatError Nat
  bytes : Bytes
  consumed : Nat

/-- A render onto memory that holds bytes already. -/
def Context.deliver (context : Context) (held : Array UInt8) (format : Bytes) (args : List Arg)
    (options : Options) : Delivery :=
  let r := context.render { target := .memory held } format args options
  ⟨r.outcome, r.sink.contents.drop held.size, r.consumed⟩

/-- What segments come to on memory. -/
def Transcript.delivery (t : Transcript) : Delivery :=
  ⟨t.verdict.map fun _ => t.text.length, t.text, t.cursor.consumed⟩

theorem Context.deliver_eq (context : Context) (held : Array UInt8) (format : Bytes)
    (args : List Arg) (options : Options) :
    context.deliver held format args options =
      (Transcript.ofFormat options format args).delivery := by
  obtain ⟨ho, hs, hc⟩ := context.render_memory format args options 0 held
  simp only [deliver, Transcript.delivery, ho, hs, hc, Sink.contents, Target.contents,
    Array.toList_appendList, Percent.encodeTimes]
  rw [← Array.length_toList, List.drop_left]

/-- On a writer that never fails a render comes to what it comes to on memory. -/
theorem Context.render_unfailing (context : Context) (format : Bytes) (args : List Arg)
    (options : Options) {w : Writer} (hw : w.Unfailing) (count : Nat) :
    let d := Context.deliver {} #[] format args options
    let r := context.render ⟨0, .stream w count⟩ format args options
    r.outcome = d.outcome ∧
      r.sink = ⟨0, .stream (w.taking d.bytes) (count + d.bytes.length)⟩ := by
  intro d r
  have hd : d = (Transcript.ofFormat options format args).delivery := deliver_eq ..
  have hput := Sink.putAll_unfailing (Transcript.ofFormat options format args).pieces 0 hw count
  obtain ⟨ho, hs, -⟩ := context.render_delivered _ format args options hput
  rw [hd]
  refine ⟨ho.trans ?_, hs⟩
  simp only [Sink.written, Target.written, Nat.add_sub_cancel_left]
  rfl

end PrintFormat
