import PrintFormat.Proofs.Render.Concatenation

/-!
Renders that fail. A render onto memory stops at a directive that cannot be
worked out (`Transcript.verdict_eq_error_iff`), and since a directive delivers
nothing before it is worked out, what was delivered is what the text in front of
it renders to (`Context.deliver_stopped`).
-/
namespace PrintFormat

namespace Transcript

variable {options : Options} {parts before after : List Segment} {seg : Segment} {c : Cursor}
  {e : FormatError}

/-- Segments stop with an error at one of them: those in front of it are worked
out, and it is not. -/
structure StopsAt (options : Options) (parts : List Segment) (c : Cursor) (e : FormatError)
    (before : List Segment) (seg : Segment) (after : List Segment) : Prop where
  split : parts = before ++ seg :: after
  front : (ofSegments options before c).verdict = .ok ()
  error : ∃ c', seg.output options (ofSegments options before c).cursor = .error e c'

/-- Segments that stop deliver what is in front of the one they stop at. -/
theorem StopsAt.ofSegments_eq (h : StopsAt options parts c e before seg after) :
    ∃ c', ofSegments options parts c =
      ⟨(ofSegments options before c).pieces, .error e, c'⟩ := by
  obtain ⟨c', he⟩ := h.error
  refine ⟨c', ?_⟩
  rw [h.split, ofSegments_append_ok h.front, ofSegments_cons_error he]
  simp only [Transcript.after, List.append_nil]

theorem stopsAt_cons {pieces : List Piece} {c' : Cursor} (ho : seg.output options c = .ok pieces c')
    {stop : Segment} (h : StopsAt options parts c' e before stop after) :
    StopsAt options (seg :: parts) c e (seg :: before) stop after where
  split := by rw [h.split, List.cons_append]
  front := by
    rw [ofSegments_cons_ok ho]
    exact h.front
  error := by
    rw [ofSegments_cons_ok ho]
    exact h.error

theorem verdict_eq_error_iff :
    (ofSegments options parts c).verdict = .error e ↔
      ∃ before seg after, StopsAt options parts c e before seg after := by
  constructor
  · intro h
    induction parts generalizing c with
    | nil => cases h
    | cons seg rest ih =>
      cases ho : seg.output options c with
      | error e' c' =>
        rw [ofSegments_cons_error ho] at h
        cases h
        exact ⟨[], seg, rest, rfl, rfl, c', ho⟩
      | ok pieces c' =>
        rw [ofSegments_cons_ok ho] at h
        obtain ⟨before, stop, after, hstop⟩ := ih h
        exact ⟨seg :: before, stop, after, stopsAt_cons ho hstop⟩
  · rintro ⟨before, seg, after, h⟩
    obtain ⟨c', heq⟩ := h.ofSegments_eq
    rw [heq]

/-- Only a directive can stop a render. -/
theorem StopsAt.directive (h : StopsAt options parts c e before seg after) :
    ∃ s, seg = .directive s := by
  obtain ⟨c', he⟩ := h.error
  cases seg with
  | literal text => cases he
  | directive s => exact ⟨s, rfl⟩

end Transcript

/-! ## Where a render stops -/

/-- The length of the text that segments render until one fails. -/
def Rendering.stopOffset (options : Options) : List Segment → Rendering → Nat
  | [], _ => 0
  | seg :: rest, r =>
      match segment options seg r with
      | .ok _ r => seg.source.length + stopOffset options rest r
      | .error _ _ => 0

/-- The offset in a format of the part that a render onto memory stops at. -/
def Context.stopOffset (context : Context) (held : Array UInt8) (format : Bytes) (args : List Arg)
    (options : Options) : Nat :=
  Rendering.stopOffset options (Segment.ofFormat format)
    ⟨context, ⟨args, 0⟩, { target := .memory held }⟩

theorem Rendering.stopOffset_eq {options : Options} {parts before after : List Segment}
    {seg : Segment} {e : FormatError} {r : Rendering} {encodings : Nat} {held : Array UInt8}
    (hsink : r.sink = ⟨encodings, .memory held⟩)
    (h : Transcript.StopsAt options parts r.cursor e before seg after) :
    stopOffset options parts r = (before.flatMap Segment.source).length := by
  obtain ⟨rfl, hfront, c', he⟩ := h
  induction before generalizing r held with
  | nil =>
    obtain ⟨context, hseg⟩ := segment_error he
    simp only [List.nil_append, stopOffset, hseg]
    rfl
  | cons first rest ih =>
    cases ho : first.output options r.cursor with
    | error e' c'' =>
      rw [Transcript.ofSegments_cons_error ho] at hfront
      cases hfront
    | ok pieces c'' =>
      rw [Transcript.ofSegments_cons_ok ho] at hfront he
      have hput := Sink.putAll_memory pieces encodings held
      rw [← hsink] at hput
      obtain ⟨context, hseg⟩ := segment_ok ho hput
      simp only [List.cons_append, stopOffset, hseg, List.flatMap_cons, List.length_append]
      rw [ih (r := ⟨context, c'', _⟩) rfl hfront he]

namespace Context

variable (context : Context) (held : Array UInt8) (format : Bytes) (args : List Arg)
  (options : Options)

theorem deliver_outcome_eq_error_iff {e : FormatError} :
    (context.deliver held format args options).outcome = .error e ↔
      (Transcript.ofFormat options format args).verdict = .error e := by
  rw [deliver_eq, Transcript.delivery]
  cases (Transcript.ofFormat options format args).verdict <;> simp [Except.map]

theorem deliver_outcome_eq_ok_iff {n : Nat} :
    (context.deliver held format args options).outcome = .ok n ↔
      (Transcript.ofFormat options format args).verdict = .ok () ∧
        (Transcript.ofFormat options format args).text.length = n := by
  rw [deliver_eq, Transcript.delivery]
  cases (Transcript.ofFormat options format args).verdict <;> simp [Except.map]

/-- A render that fails stops at a directive that cannot be worked out with the
arguments that are left for it. -/
theorem deliver_stops_iff {e : FormatError} :
    (context.deliver held format args options).outcome = .error e ↔
      ∃ before s after, Segment.ofFormat format = before ++ .directive s :: after ∧
        let front := context.deliver held (before.flatMap Segment.source) args options
        (∃ n, front.outcome = .ok n) ∧
          ∃ c, (Segment.directive s).output options
            ⟨args.drop front.consumed, front.consumed⟩ = .error e c := by
  rw [deliver_outcome_eq_error_iff]
  refine Transcript.verdict_eq_error_iff.trans ⟨?_, ?_⟩
  · rintro ⟨before, seg, after, h⟩
    obtain ⟨s, rfl⟩ := h.directive
    have hon : (Transcript.ofSegments options before ⟨args, 0⟩).cursor.On args :=
      Transcript.ofSegments_on before rfl
    refine ⟨before, s, after, h.split, ?_⟩
    simp only [deliver_eq, Transcript.ofFormat, Segment.ofFormat_before h.split,
      Transcript.delivery, h.front]
    refine ⟨⟨_, rfl⟩, ?_⟩
    rw [← hon]
    exact h.error
  · rintro ⟨before, s, after, hsplit, ⟨n, hn⟩, hstop⟩
    have hon : (Transcript.ofSegments options before ⟨args, 0⟩).cursor.On args :=
      Transcript.ofSegments_on before rfl
    rw [deliver_outcome_eq_ok_iff, Transcript.ofFormat, Segment.ofFormat_before hsplit] at hn
    rw [deliver_eq, Transcript.ofFormat, Segment.ofFormat_before hsplit, Transcript.delivery,
      ← hon] at hstop
    exact ⟨before, .directive s, after, hsplit, hn.1, hstop⟩

/-- A render that fails stops at the percent sign of a directive. The format up
to there renders, and it delivers what the whole one delivered. -/
theorem deliver_stopped {e : FormatError}
    (h : (context.deliver held format args options).outcome = .error e) :
    let stop := context.stopOffset held format args options
    let front := context.deliver held (format.take stop) args options
    format[stop]? = some percent ∧
      (∃ s after, Segment.ofFormat format =
        Segment.ofFormat (format.take stop) ++ .directive s :: after) ∧
      front.outcome = .ok front.bytes.length ∧
      front.bytes = (context.deliver held format args options).bytes := by
  intro stop front
  rw [deliver_outcome_eq_error_iff] at h
  obtain ⟨before, seg, after, hstop⟩ := Transcript.verdict_eq_error_iff.mp h
  obtain ⟨s, rfl⟩ := hstop.directive
  -- what the loop rendered is the text of the segments in front of the stop
  have hoffset : stop = (before.flatMap Segment.source).length :=
    Rendering.stopOffset_eq rfl hstop
  have hformat := Segment.source_ofFormat format
  rw [hstop.split, List.flatMap_append, List.flatMap_cons] at hformat
  have htake : format.take stop = before.flatMap Segment.source := by
    rw [← hformat, hoffset, List.take_left]
  have hbefore : Segment.ofFormat (format.take stop) = before := by
    rw [htake]
    exact Segment.ofFormat_before hstop.split
  refine ⟨?_, ⟨s, after, ?_⟩, ?_, ?_⟩
  · rw [← hformat, hoffset, List.getElem?_append_right (Nat.le_refl _), Nat.sub_self]
    rfl
  · rw [hbefore]
    exact hstop.split
  · simp only [front, deliver_eq, Transcript.delivery, Transcript.ofFormat, hbefore, hstop.front]
    rfl
  · obtain ⟨c', hwhole⟩ := hstop.ofSegments_eq
    simp only [front, deliver_eq, Transcript.delivery, Transcript.ofFormat, hbefore, hwhole]
    rfl

/-- A number, and a text whose argument is a number again. -/
theorem deliver_stopped_mismatch :
    let format := ascii "n=%d, s=%5s!"
    let args := [.int 42, .uint 7]
    let stop := Context.stopOffset {} #[] format args {}
    let whole := Context.deliver {} #[] format args {}
    let front := Context.deliver {} #[] (format.take stop) args {}
    whole.outcome = .error (.argumentMismatch 1 .text) ∧ stop = 8 ∧
      format[stop]? = some percent ∧ front.outcome = .ok front.bytes.length ∧
      front.bytes = whole.bytes ∧ whole.bytes = ascii "n=42, s=" := by
  have hfails : (Context.deliver {} #[] (ascii "n=%d, s=%5s!") [.int 42, .uint 7] {}).outcome =
      .error (.argumentMismatch 1 .text) := by cbv
  have h := deliver_stopped {} #[] _ _ {} hfails
  exact ⟨hfails, by cbv, h.1, h.2.2.1, h.2.2.2, by cbv⟩

end Context

end PrintFormat
