import PrintFormat.Proofs.Render.Transcript

/-!
A context in use again. Two renders that differ in their contexts alone go the
same way, whatever earlier renders have left in these: a directive starts with
a reading and a span of its own, so that one segment takes the same arguments
and delivers the same output on both sides (`Rendering.segment_alike`), and from
that a whole render does (`Context.render_agrees`). A render ends in the raw
mode, after an error too.
-/
namespace PrintFormat

/-- Two renders that may differ in their contexts. -/
structure Rendering.Alike (r s : Rendering) : Prop where
  cursor : r.cursor = s.cursor
  sink : r.sink = s.sink

/-- Two renders that came to the same, whatever they leave in their contexts. -/
structure Rendered.Agrees (r s : Rendered) : Prop where
  outcome : r.outcome = s.outcome
  sink : r.sink = s.sink
  consumed : r.consumed = s.consumed

namespace Rendering

variable {options : Options}

theorem segment_alike (seg : Segment) {r s : Rendering} (h : Alike r s) :
    Action.Matching Alike (segment options seg r) (segment options seg s) := by
  obtain ⟨hc, hs⟩ := h
  cases ho : seg.output options r.cursor with
  | error e c =>
    obtain ⟨left, hr⟩ := segment_error ho
    obtain ⟨right, hs'⟩ := segment_error (r := s) (hc ▸ ho)
    rw [hr, hs']
    exact ⟨rfl, rfl, hs⟩
  | ok pieces c =>
    cases hp : Sink.putAll pieces r.sink with
    | ok _ t =>
      obtain ⟨left, hr⟩ := segment_ok ho hp
      obtain ⟨right, hs'⟩ := segment_ok (r := s) (hc ▸ ho) (hs ▸ hp)
      rw [hr, hs']
      exact ⟨rfl, rfl, rfl⟩
    | error e t =>
      obtain ⟨left, hr⟩ := segment_refused ho hp
      obtain ⟨right, hs'⟩ := segment_refused (r := s) (hc ▸ ho) (hs ▸ hp)
      rw [hr, hs']
      exact ⟨rfl, rfl, rfl⟩

theorem segments_alike (parts : List Segment) {r s : Rendering} (h : Alike r s) :
    Action.Matching Alike (segments options parts r) (segments options parts s) :=
  Action.forM_matching (fun seg _ _ => segment_alike seg) parts h

end Rendering

namespace Context

variable (context other : Context) (sink : Sink) (format : Bytes) (args : List Arg)
  (options : Options)

/-- What a context holds has no part in a render. -/
theorem render_agrees :
    (context.render sink format args options).Agrees (other.render sink format args options) := by
  have h : Action.Matching Rendering.Alike
      (Rendering.segments options (Segment.ofFormat format) ⟨context, ⟨args, 0⟩, sink⟩)
      (Rendering.segments options (Segment.ofFormat format) ⟨other, ⟨args, 0⟩, sink⟩) :=
    Rendering.segments_alike _ ⟨rfl, rfl⟩
  unfold render
  generalize Rendering.segments options (Segment.ofFormat format) ⟨context, ⟨args, 0⟩, sink⟩ =
    left at h ⊢
  generalize Rendering.segments options (Segment.ofFormat format) ⟨other, ⟨args, 0⟩, sink⟩ =
    right at h ⊢
  cases left <;> cases right
  · obtain ⟨-, hc, hs⟩ := h
    exact ⟨by simp only [hs], hs, by simp only [hc]⟩
  · exact h.elim
  · exact h.elim
  · obtain ⟨he, hc, hs⟩ := h
    exact ⟨by simp only [he], hs, by simp only [hc]⟩

theorem mode_render : (context.render sink format args options).context.mode = .raw := by
  unfold render
  cases Rendering.segments options (Segment.ofFormat format) ⟨context, ⟨args, 0⟩, sink⟩ <;> rfl

/-- The flush after a render is one of the sink alone. -/
theorem print_agrees :
    (context.print sink format args options).Agrees (other.print sink format args options) := by
  obtain ⟨ho, hs, hc⟩ := context.render_agrees other sink format args options
  unfold print
  simp only [ho, hs]
  cases (other.render sink format args options).outcome <;>
    cases Sink.flush (other.render sink format args options).sink <;> exact ⟨rfl, rfl, hc⟩

end Context
end PrintFormat
