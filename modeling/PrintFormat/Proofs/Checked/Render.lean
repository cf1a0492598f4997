import PrintFormat.Proofs.Checked.Directive
import PrintFormat.Proofs.Checked.Extended
import PrintFormat.Proofs.Checked.Sink
import PrintFormat.Proofs.Render.Transcript
import PrintFormat.Proofs.Segment.Cut

/-!
Renders with checked parts. The format is scanned by position: a run of literal
bytes and the text of a directive are slices of it, and a directive ends behind
its percent sign and within the format. A scan from a position comes to the
segments of the format from there on (`scan_carriesOut`), and a whole render to
that of the unchecked engine (`render_carriesOut`); the count of bytes written
is never below what it was, so that their difference is the count delivered.
-/
namespace PrintFormat.Checked

/-- The state that renders are carried out on, in its cells. -/
structure Context where
  span : Span
  directive : Directive := {}
  mode : Mode := .raw

/-- A context by the text of its span. -/
def Context.view (c : Context) : PrintFormat.Context := ⟨c.span.view, c.directive, c.mode⟩

/-- What a render goes through. -/
structure Rendering where
  context : Context
  cursor : Cursor
  sink : Sink

namespace Rendering

def view (r : Rendering) : PrintFormat.Rendering := ⟨r.context.view, r.cursor, r.sink⟩

/-- An operation on the span. -/
def onSpan {α : Type} (act : Checked Span α) : Checked Rendering α := fun ⟨context, cursor, sink⟩ =>
  match act context.span with
  | .ok a span => .ok a ⟨{ context with span }, cursor, sink⟩
  | .error e span => .error e ⟨{ context with span }, cursor, sink⟩

/-- An operation on the arguments, which has no checked parts. -/
def onCursor {α : Type} (act : EStateM FormatError Cursor α) : Checked Rendering α :=
  fun ⟨context, cursor, sink⟩ =>
    match act cursor with
    | .ok a cursor => .ok a ⟨context, cursor, sink⟩
    | .error e cursor => .error (.error e) ⟨context, cursor, sink⟩

/-- Writes onto the target of the sink, behind its encodings. -/
def deliver (act : Nat → Checked Target Unit) : Checked Rendering Unit :=
  fun ⟨context, cursor, ⟨encodings, target⟩⟩ =>
    match act encodings target with
    | .ok _ target => .ok () ⟨context, cursor, ⟨encodings, target⟩⟩
    | .error e target => .error e ⟨context, cursor, ⟨encodings, target⟩⟩

/-- Enters a directive. -/
def enter (d : Directive) : Checked Rendering Unit := do
  modify fun r => { r with context := { r.context with directive := d, mode := d.mode } }
  onSpan Span.reset

/-- Goes back to literal text. -/
def leave : Checked Rendering Unit :=
  modify fun r => { r with context := { r.context with mode := .raw } }

/-- Replaces a star of the directive that was entered, if there is one. -/
def resolve (star : Directive → Bool) (set : Directive → Int → Checked Rendering Directive) :
    Checked Rendering Unit := do
  let d := (← get).context.directive
  if star d then
    let v ← onCursor (Cursor.take .integer)
    let directive ← set d (BitVec.toInt v)
    modify fun r => { r with context := { r.context with directive } }

/-- Replaces the stars of the directive that was entered. -/
def resolveStars : Checked Rendering Unit := do
  resolve (·.width.star) withStarWidth
  resolve (·.precision.star) withStarPrecision

/-- Takes the argument of the directive that was entered and composes its
field. -/
def compose (options : Options) : Conversion → Checked Rendering Field
  | .percentSign => return { body := [percent] }
  | .standard c => do
      let v ← onCursor (Cursor.take c.demand)
      onSpan (Span.standard (← get).context.directive options c v)
  | .extended c => do
      let v ← onCursor (Cursor.take c.demand)
      onSpan (Span.extended (← get).context.directive options c v)

/-- Carries out the directive that was entered: its own text is copied if it has
no conversion. -/
def dispatch (options : Options) (d : Directive) (source : Bytes) : Checked Rendering Unit := do
  match d.conversion? with
  | none => deliver (writeBytes · source)
  | some c =>
      resolveStars
      let field ← compose options c
      deliver (emit · field)

/-- Copies the part of a format between two positions, if there is any. -/
def copy (format : Bytes) (first last : Nat) : Checked Rendering Unit := do
  if first < last then
    let text ← slice format first last
    deliver (writeBytes · text)

/-- Renders the directive between two positions of a format. -/
def directive (options : Options) (format : Bytes) (first last : Nat) (d : Directive) :
    Checked Rendering Unit := do
  enter d
  dispatch options d (← slice format first last)
  leave

/-- Renders a format from a position on. -/
def scan (options : Options) (format : Bytes) (position : Nat) : Checked Rendering Unit := do
  if _ : position < format.length then
    let rest ← slice format position format.length
    let found := position + (rest.takeWhile Segment.isLiteral).length
    copy format position found
    if found = format.length then
      return
    else
      let (stop, d) ← extract format found
      let ⟨_⟩ ← require (found < stop ∧ stop ≤ format.length)
      directive options format found stop d
      scan options format stop
termination_by format.length - position

/-- Renders a format and answers the count of bytes delivered. -/
def render (options : Options) (format : Bytes) : Checked Rendering Nat := do
  let before := (← get).sink.written
  scan options format 0
  sub (← get).sink.written before

/-! ### One directive -/

variable {options : Options} {r : Rendering}

theorem onCursor_ok {α : Type} {act : EStateM FormatError Cursor α} {a : α} {c : Cursor}
    (h : act r.cursor = .ok a c) : onCursor act r = .ok a ⟨r.context, c, r.sink⟩ := by
  simp only [onCursor, h]

theorem onCursor_error {α : Type} {act : EStateM FormatError Cursor α} {e : FormatError}
    {c : Cursor} (h : act r.cursor = .error e c) :
    onCursor act r = .error (.error e) ⟨r.context, c, r.sink⟩ := by
  simp only [onCursor, h]

theorem onSpan_ok {α : Type} {act : Checked Span α} {a : α} {span : Span}
    (h : act r.context.span = .ok a span) :
    onSpan act r = .ok a ⟨{ r.context with span }, r.cursor, r.sink⟩ := by
  simp only [onSpan, h]

theorem onSpan_error {α : Type} {act : Checked Span α} {e : Stop} {span : Span}
    (h : act r.context.span = .error e span) :
    onSpan act r = .error e ⟨{ r.context with span }, r.cursor, r.sink⟩ := by
  simp only [onSpan, h]

theorem deliver_carriesOut {act : Nat → Checked Target Unit} {pieces : List Piece}
    (h : ∀ n, CarriesOut id (act n) (Target.writeEach (Sink.texts n pieces))) :
    CarriesOut view (deliver act) (PrintFormat.Rendering.deliver pieces) := by
  rintro ⟨context, cursor, ⟨n, target⟩⟩
  cases hy : Target.writeEach (Sink.texts n pieces) target with
  | ok _ t =>
    obtain ⟨t', hx, ht⟩ := (h n target).ok hy
    obtain rfl : t' = t := ht
    have hput := (Sink.putAll_eq pieces n target).trans (Sink.onTarget_ok hy)
    exact carriesOutAt_of_ok (t := ⟨context, cursor, ⟨n, t'⟩⟩) (by simp only [deliver, hx])
      (PrintFormat.Rendering.deliver_ok (r := ⟨context.view, cursor, ⟨n, target⟩⟩) hput)
  | error e t =>
    obtain ⟨t', hx, ht⟩ := (h n target).error hy
    obtain rfl : t' = t := ht
    have hput := (Sink.putAll_eq pieces n target).trans (Sink.onTarget_error hy)
    exact carriesOutAt_of_error (t := ⟨context, cursor, ⟨n, t'⟩⟩) (by simp only [deliver, hx])
      (PrintFormat.Rendering.deliver_error (r := ⟨context.view, cursor, ⟨n, target⟩⟩) hput)

theorem deliver_bytes_carriesOut (text : Bytes) :
    CarriesOut view (deliver (writeBytes · text)) (PrintFormat.Rendering.deliver [.bytes text]) :=
  deliver_carriesOut fun n => by
    rw [Sink.texts, List.flatMap_singleton]
    exact put_carriesOut n (.bytes text)

/-- A directive is entered with a span without text. -/
theorem enter_ok (d : Directive) (r : Rendering) :
    ∃ r', enter d r = .ok () r' ∧ r'.context.span.view = .empty ∧
      PrintFormat.Rendering.enter d r.view = .ok () r'.view := by
  obtain ⟨span, hreset, hview⟩ := (Span.reset_carriesOut r.context.span).ok rfl
  refine ⟨⟨⟨span, d, d.mode⟩, r.cursor, r.sink⟩, ?_, hview, ?_⟩
  · refine (Action.bind_ok rfl).trans ?_
    simp only [onSpan, hreset]
  · rw [PrintFormat.Rendering.enter_eq, ← hview]
    rfl

theorem leave_carriesOut : CarriesOut view leave
    (modify fun ⟨context, cursor, sink⟩ => ⟨{ context with mode := .raw }, cursor, sink⟩) :=
  fun _ => rfl

/-! ### Stars -/

/-- Replaces a star of the directive that was entered, in a render without
checked parts. -/
def resolveStar (star : Directive → Bool) (set : Directive → Int → Directive) :
    PrintFormat.Rendering.Step Unit := fun ⟨context, cursor, sink⟩ =>
  if star context.directive then
    match Cursor.take .integer cursor with
    | .ok v c =>
        .ok () ⟨{ context with directive := set context.directive (BitVec.toInt v) }, c, sink⟩
    | .error e c => .error e ⟨context, c, sink⟩
  else .ok () ⟨context, cursor, sink⟩

theorem resolveStars_eq : PrintFormat.Rendering.resolveStars =
    resolveStar (fun d => d.width.star) Directive.withStarWidth >>= fun _ =>
      resolveStar (fun d => d.precision.star) Directive.withStarPrecision := by
  funext ⟨⟨scratch, d, mode⟩, cursor, sink⟩
  show _ = EStateM.bind _ _ _
  unfold PrintFormat.Rendering.resolveStars Directive.resolveStars resolveStar EStateM.bind
  dsimp only
  by_cases hw : d.width.star = true
  · cases Cursor.take .integer cursor with
    | error e c => simp [hw]
    | ok v c =>
      -- a width from the arguments leaves the other star
      have hkeep : (d.withStarWidth (BitVec.toInt v)).precision.star = d.precision.star := rfl
      by_cases hp : d.precision.star = true
      · cases h : Cursor.take .integer c <;> simp [hw, hp, hkeep, h]
      · simp [hw, hp, hkeep]
  · by_cases hp : d.precision.star = true
    · cases h : Cursor.take .integer cursor <;> simp [hw, hp, h]
    · simp [hw, hp]

theorem resolve_eq {star : Directive → Bool} {set : Directive → Int → Checked Rendering Directive}
    {set' : Directive → Int → Directive} (h : ∀ d n, set d n = pure (set' d n)) (r : Rendering) :
    resolve star set r =
      if star r.context.directive then
        match Cursor.take .integer r.cursor with
        | .ok v c => .ok () ⟨{ r.context with
            directive := set' r.context.directive (BitVec.toInt v) }, c, r.sink⟩
        | .error e c => .error (.error e) ⟨r.context, c, r.sink⟩
      else .ok () r := by
  refine (Action.bind_ok rfl).trans ?_
  dsimp only
  split
  · cases ht : Cursor.take .integer r.cursor with
    | error e c => exact Action.bind_error (onCursor_error ht)
    | ok v c =>
      refine (Action.bind_ok (onCursor_ok ht)).trans ?_
      rw [h, pure_bind]
      rfl
  · rfl

theorem resolve_carriesOut {star : Directive → Bool}
    {set : Directive → Int → Checked Rendering Directive} {set' : Directive → Int → Directive}
    (h : ∀ d n, set d n = pure (set' d n)) :
    CarriesOut view (resolve star set) (resolveStar star set') := by
  intro r
  unfold CarriesOutAt resolveStar
  rw [resolve_eq h]
  dsimp only [view, Context.view]
  split
  · cases Cursor.take .integer r.cursor <;> rfl
  · rfl

theorem resolveStars_carriesOut :
    CarriesOut view resolveStars PrintFormat.Rendering.resolveStars := by
  rw [resolveStars_eq]
  exact (resolve_carriesOut withStarWidth_eq).bind fun _ =>
    resolve_carriesOut withStarPrecision_eq

theorem resolve_span {star : Directive → Bool}
    {set : Directive → Int → Checked Rendering Directive} {set' : Directive → Int → Directive}
    (h : ∀ d n, set d n = pure (set' d n)) {r' : Rendering} (hr : resolve star set r = .ok () r') :
    r'.context.span = r.context.span := by
  rw [resolve_eq h] at hr
  split at hr
  · cases ht : Cursor.take .integer r.cursor with
    | error e c => simp [ht] at hr
    | ok v c =>
      simp only [ht] at hr
      cases hr
      rfl
  · cases hr
    rfl

/-- Stars are replaced beside the span. -/
theorem resolveStars_span {r' : Rendering} (h : resolveStars r = .ok () r') :
    r'.context.span = r.context.span := by
  unfold resolveStars at h
  cases hw : resolve (fun d => d.width.star) withStarWidth r with
  | error e u =>
    rw [Action.bind_error hw] at h
    cases h
  | ok _ u =>
    rw [Action.bind_ok hw] at h
    rw [resolve_span withStarPrecision_eq h, resolve_span withStarWidth_eq hw]

/-! ### Conversions -/

/-- An argument is taken, and its value is converted in the span. -/
theorem taking_carriesOut {demand : Demand} {act : Directive → demand.Value → Checked Span Field}
    {edit : Directive → demand.Value → Scratch.Edit Field}
    (h : ∀ d v, CarriesOutAt Span.view r.context.span (act d v) (edit d v)) {c : Conversion}
    (hc : ∀ d, c.field d options = do
      let v ← Bench.onCursor (Cursor.take demand)
      Bench.onScratch (edit d v)) :
    CarriesOutAt view r
      (do
        let v ← onCursor (Cursor.take demand)
        onSpan (act (← get).context.directive v))
      (PrintFormat.Rendering.compose options c) := by
  have hfield : c.field r.context.directive options ⟨r.context.span.view, r.cursor⟩ =
      (do
        let v ← Bench.onCursor (Cursor.take demand)
        Bench.onScratch (edit r.context.directive v)) ⟨r.context.span.view, r.cursor⟩ := by rw [hc]
  cases ht : Cursor.take demand r.cursor with
  | error e cursor =>
    have hcursor : Bench.onCursor (Cursor.take demand) ⟨r.context.span.view, r.cursor⟩ =
        .error e ⟨r.context.span.view, cursor⟩ := by simp only [Bench.onCursor, ht]
    rw [Action.bind_error hcursor] at hfield
    exact carriesOutAt_of_error (t := ⟨r.context, cursor, r.sink⟩)
      (Action.bind_error (onCursor_error ht))
      (PrintFormat.Rendering.compose_error (r := r.view) hfield)
  | ok v cursor =>
    have hcursor : Bench.onCursor (Cursor.take demand) ⟨r.context.span.view, r.cursor⟩ =
        .ok v ⟨r.context.span.view, cursor⟩ := by simp only [Bench.onCursor, ht]
    rw [Action.bind_ok hcursor] at hfield
    have hstart := onCursor_ok (r := r) ht
    cases hy : edit r.context.directive v r.context.span.view with
    | ok field scratch =>
      obtain ⟨span, hx, rfl⟩ := (h r.context.directive v).ok hy
      simp only [Bench.onScratch, hy] at hfield
      exact carriesOutAt_of_ok (t := ⟨{ r.context with span }, cursor, r.sink⟩)
        ((Action.bind_ok hstart).trans ((Action.bind_ok rfl).trans (onSpan_ok hx)))
        (PrintFormat.Rendering.compose_ok (r := r.view) hfield)
    | error e scratch =>
      obtain ⟨span, hx, rfl⟩ := (h r.context.directive v).error hy
      simp only [Bench.onScratch, hy] at hfield
      exact carriesOutAt_of_error (t := ⟨{ r.context with span }, cursor, r.sink⟩)
        ((Action.bind_ok hstart).trans ((Action.bind_ok rfl).trans (onSpan_error hx)))
        (PrintFormat.Rendering.compose_error (r := r.view) hfield)

theorem compose_carriesOut (hr : r.context.span.view = .empty) (c : Conversion) :
    CarriesOutAt view r (compose options c) (PrintFormat.Rendering.compose options c) := by
  cases c with
  | percentSign => rfl
  | standard c =>
    exact taking_carriesOut (fun d => Span.standard_carriesOut hr d options c) fun _ => rfl
  | extended c =>
    exact taking_carriesOut (fun d => Span.extended_carriesOut hr d options c) fun _ => rfl

theorem dispatch_carriesOut (hr : r.context.span.view = .empty) (spelling : Spelling) :
    CarriesOutAt view r (dispatch options spelling.directive spelling.source)
      (do PrintFormat.Rendering.deliver (← PrintFormat.Rendering.output options spelling)) := by
  unfold dispatch PrintFormat.Rendering.output
  cases spelling.directive.conversion? with
  | none => exact deliver_bytes_carriesOut spelling.source r
  | some c =>
    dsimp only
    rw [bind_assoc]
    refine (resolveStars_carriesOut r).bind fun _ r' hr' => ?_
    rw [bind_assoc]
    have hr' : r'.context.span.view = .empty := by rw [resolveStars_span hr', hr]
    refine (compose_carriesOut hr' c).bind fun field r'' _ => ?_
    rw [pure_bind]
    exact deliver_carriesOut (emit_carriesOut · field) r''

/-! ### A format -/

/-- The part of a format from a position on that has a length. -/
theorem slice_from {σ : Type} {format front rest : Bytes} {i : Nat}
    (h : From format i (front ++ rest)) :
    (slice format i (i + front.length) : Checked σ Bytes) = pure front := by
  have hlength := h.length
  rw [List.length_append] at hlength
  rw [slice_of (Nat.le_add_right _ _) (by omega), List.drop_take, h.drop, Nat.add_sub_cancel_left,
    List.take_left]

/-- A directive that is entered, carried out and left. -/
theorem directive_carriesOut (spelling : Spelling) {format rest : Bytes} {i : Nat}
    (h : From format i (spelling.source ++ rest)) :
    CarriesOut view (directive options format i (i + spelling.source.length) spelling.directive)
      (PrintFormat.Rendering.segment options (.directive spelling)) := by
  intro r
  obtain ⟨r', henter, hempty, henter'⟩ := enter_ok spelling.directive r
  unfold CarriesOutAt directive
  rw [Action.bind_ok henter, slice_from h, pure_bind, PrintFormat.Rendering.segment,
    Action.bind_ok henter', ← bind_assoc]
  exact (dispatch_carriesOut hempty spelling).bind fun _ r'' _ => leave_carriesOut r''

/-- A run at the front is copied, if there is one. -/
theorem copy_carriesOut {format run behind : Bytes} {i : Nat} (h : From format i (run ++ behind)) :
    CarriesOut view (copy format i (i + run.length))
      ((if 0 < run.length then [.literal run] else []).forM
        (PrintFormat.Rendering.segment options)) := by
  unfold copy
  by_cases hrun : 0 < run.length
  · rw [if_pos (by omega), if_pos hrun, slice_from h, pure_bind, Action.forM_singleton]
    exact deliver_bytes_carriesOut run
  · rw [if_neg (by omega), if_neg hrun]
    exact .pure ()

/-- The segments of a format by the run at its front and what stands behind
it. -/
theorem ofFormat_eq (format : Bytes) :
    Segment.ofFormat format =
      (if 0 < (format.takeWhile Segment.isLiteral).length
        then [.literal (format.takeWhile Segment.isLiteral)] else []) ++
        Segment.ofFormat (format.dropWhile Segment.isLiteral) := by
  cases format with
  | nil => rfl
  | cons b rest =>
    by_cases hb : Segment.isLiteral b = true
    · rw [Segment.ofFormat_literal hb, List.takeWhile_cons_of_pos hb,
        List.dropWhile_cons_of_pos hb, List.length_cons, if_pos (Nat.succ_pos _)]
      rfl
    · rw [List.takeWhile_cons_of_neg hb, List.dropWhile_cons_of_neg hb]
      rfl

/-- A scan from a position on renders the segments of what stands there. -/
theorem scan_carriesOut {format text : Bytes} {position : Nat} (h : From format position text) :
    CarriesOut view (scan options format position)
      (PrintFormat.Rendering.segments options (Segment.ofFormat text)) := by
  induction hlen : text.length using Nat.strongRecOn generalizing text position with
  | ind length ih =>
    subst hlen
    have hlength := h.length
    have hhead := Segment.head_dropWhile text
    have hsplit := List.takeWhile_append_dropWhile (p := Segment.isLiteral) (l := text)
    rw [ofFormat_eq, PrintFormat.Rendering.segments, Action.forM_append]
    have hwhole : (slice format position format.length : Checked Rendering Bytes) = pure text := by
      have h' := h
      rw [← List.append_nil text] at h'
      rw [← hlength, slice_from h']
    rw [scan]
    split
    · next hpos =>
      rw [hwhole, pure_bind]
      dsimp only
      generalize text.takeWhile Segment.isLiteral = run at *
      generalize text.dropWhile Segment.isLiteral = behind at *
      subst hsplit
      -- the run in front of the next percent sign, if there is one
      refine (copy_carriesOut h).bind fun _ => ?_
      have hfound := h.append
      rw [List.length_append] at hlength
      cases behind with
      | nil =>
        rw [if_pos (by simpa using hlength), Segment.ofFormat_nil]
        exact .pure ()
      | cons b rest =>
        obtain rfl : b = percent := by simpa [Segment.isLiteral] using hhead b rfl
        have hsource := hfound.source
        have hend := hsource.length
        have hrest := Spelling.length_read rest
        rw [List.length_append] at hend
        rw [List.length_cons] at hlength
        rw [if_neg (by omega), extract_eq hfound, pure_bind, Segment.ofFormat_percent]
        dsimp only
        rw [require_of (by omega), pure_bind]
        refine (directive_carriesOut _ hsource).bind fun _ => ?_
        -- the scan goes on behind the directive, with less of the format
        exact ih _ (by rw [List.length_append, List.length_cons]; omega) hsource.append rfl
    · next hpos =>
      have hnil : text = [] := List.length_eq_zero_iff.mp (by omega)
      subst hnil
      rw [List.takeWhile_nil, List.dropWhile_nil, Segment.ofFormat_nil]
      exact .pure ()

/-! ### A render -/

theorem written_write_le (bytes : Bytes) (t : Target) :
    t.written ≤ (Action.left (Target.write bytes t)).written := by
  cases t with
  | memory held =>
    show held.size ≤ (held ++ bytes).size
    rw [← Array.length_toList, ← Array.length_toList, Array.toList_appendList, List.length_append]
    exact Nat.le_add_right _ _
  | buffer b =>
    have hfill : b.length ≤ (b.fill bytes).length := Nat.le_add_right _ _
    unfold Target.write
    dsimp only
    split <;> exact hfill
  | stream writer written =>
    unfold Target.write
    dsimp only
    split
    · exact Nat.le_add_right _ _
    · exact Nat.le_refl _

/-- What each write keeps of a target, a segment keeps. -/
theorem segment_keeps {p : Target → Prop}
    (hp : ∀ bytes t, p t → p (Action.left (Target.write bytes t))) (seg : Segment)
    (r : PrintFormat.Rendering) (h : p r.sink.target) :
    p (Action.left (PrintFormat.Rendering.segment options seg r)).sink.target := by
  cases ho : seg.output options r.cursor with
  | error e c =>
    obtain ⟨context, hseg⟩ := PrintFormat.Rendering.segment_error ho
    rw [hseg]
    exact h
  | ok pieces c =>
    have hkeep := Sink.putAll_keeps hp pieces h
    cases hput : Sink.putAll pieces r.sink with
    | ok _ s =>
      obtain ⟨context, hseg⟩ := PrintFormat.Rendering.segment_ok ho hput
      rw [hput] at hkeep
      rw [hseg]
      exact hkeep
    | error e s =>
      obtain ⟨context, hseg⟩ := PrintFormat.Rendering.segment_refused ho hput
      rw [hput] at hkeep
      rw [hseg]
      exact hkeep

/-- Segments never take back what was written. -/
theorem written_segments_le (options : Options) (parts : List Segment)
    (r : PrintFormat.Rendering) :
    r.sink.written ≤
      (Action.left (PrintFormat.Rendering.segments options parts r)).sink.written := by
  let p (t : Target) : Prop := r.sink.written ≤ t.written
  have hp (bytes : Bytes) (t : Target) (ht : p t) : p (Action.left (Target.write bytes t)) :=
    Nat.le_trans ht (written_write_le bytes t)
  have hsegment (seg : Segment) (r' : PrintFormat.Rendering) (h : p r'.sink.target) :
      p (Action.left (PrintFormat.Rendering.segment options seg r')).sink.target :=
    segment_keeps hp seg r' h
  exact Action.forM_left (p := fun r' : PrintFormat.Rendering => p r'.sink.target) hsegment parts
    (Nat.le_refl _)

/-- How a render ends without checked parts: with the count of bytes delivered. -/
def counted (options : Options) (format : Bytes) : PrintFormat.Rendering.Step Nat := do
  let before := (← get).sink.written
  PrintFormat.Rendering.segments options (Segment.ofFormat format)
  return (← get).sink.written - before

theorem render_carriesOut (options : Options) (format : Bytes) :
    CarriesOut view (render options format) (counted options format) := by
  intro r
  have hstart : From format 0 format := ⟨rfl, Nat.zero_le _⟩
  have hget (r : Rendering) : (get : Checked Rendering Rendering) r = .ok r r := rfl
  have hget' (r : PrintFormat.Rendering) :
      (get : PrintFormat.Rendering.Step PrintFormat.Rendering) r = .ok r r := rfl
  unfold CarriesOutAt render counted
  rw [Action.bind_ok (hget r), Action.bind_ok (hget' r.view)]
  refine (scan_carriesOut hstart r).bind fun _ r' hr' => ?_
  have hle := written_segments_le options (Segment.ofFormat format) r.view
  rw [(scan_carriesOut hstart r).eq_ok hr'] at hle
  have hle : r.sink.written ≤ r'.sink.written := hle
  unfold CarriesOutAt
  rw [Action.bind_ok (hget r'), Action.bind_ok (hget' r'.view), sub_of hle]
  rfl

end Rendering
end PrintFormat.Checked
