import PrintFormat.Proofs.Checked.Render
import PrintFormat.Proofs.Program.Shared

/-!
Sessions with checked parts. What is checked along a session are the positions of
all slices and indices, of the format, the span, the texts, the tables and the
buffers, and that a directive ends behind its percent sign; the sizes of widths
and precisions, so that each has a negative; the digits, products and shifts of a
float's fraction; the modulus of a telephone number; and the differences that
give a room, a length or a count.

A session over the cells of its contexts gives, step by step, the answers of the
session over their texts and leaves what that one leaves (`Session.step_view`).
So no step of a session meets a breach: each ends well or with one of the errors
of the engine (`Session.run_without_breach`). Nor does a step tell what is in the
cells of a context that are not live: a session over contexts whose cells hold
whatever earlier renders left there, its own and the shared one, answers as one
over other contexts that shares nothing (`Session.run_stale`).
-/
namespace PrintFormat

namespace Checked

/-- A context over zeros that holds what a context holds. -/
def Context.ofContext (c : PrintFormat.Context) : Context :=
  ⟨Span.ofScratch c.scratch, c.directive, c.mode⟩

theorem Context.view_ofContext (c : PrintFormat.Context) : (ofContext c).view = c := by
  rw [ofContext, view, Span.view_ofScratch]

/-- Renders with a context: the answer, the context that is left, and the sink. -/
def Context.render (context : Context) (sink : Sink) (format : Bytes) (args : List Arg)
    (options : Options) : Except Stop (Option Nat) × Context × Sink :=
  match Rendering.render options format ⟨context, ⟨args, 0⟩, sink⟩ with
  | .ok n r => (.ok (some n), { r.context with mode := .raw }, r.sink)
  | .error e r => (.error e, { r.context with mode := .raw }, r.sink)

/-- A session over the cells of its contexts. -/
structure Session where
  sink : Sink
  context : Context
  shared : Context

namespace Session

def view (s : Session) : PrintFormat.Session := ⟨s.sink, s.context.view, s.shared.view⟩

/-- Delivers output outside a render. -/
def deliver (pieces : List Piece) (s : Session) : Except Stop (Option Nat) × Session :=
  match pieces.forM (put s.sink.encodings) s.sink.target with
  | .ok _ target => (.ok none, { s with sink := { s.sink with target } })
  | .error e target => (.error e, { s with sink := { s.sink with target } })

/-- Carries out one operation. -/
def step (s : Session) : Step → Except Stop (Option Nat) × Session
  | .render format args options =>
      let r := s.context.render s.sink format args options
      (r.1, { s with sink := r.2.2, context := r.2.1 })
  | .renderShared format args options =>
      let r := s.shared.render s.sink format args options
      (r.1, { s with sink := r.2.2, shared := r.2.1 })
  | .write bytes => s.deliver [.bytes bytes]
  | .fill byte count => s.deliver [.fill byte count]
  | .pad width byte bytes => s.deliver (aligned width byte bytes)
  | .flush =>
      if s.sink.encodings = 0 then
        match s.sink.flush with
        | .ok _ sink => (.ok none, { s with sink })
        | .error e sink => (.error (.error e), { s with sink })
      else (.ok none, s)
  | .useContext context => (.ok none, { s with context := .ofContext context })

/-- Carries out operations in order, each on what the one before left. -/
def run (s : Session) : List Step → List (Except Stop (Option Nat)) × Session
  | [] => ([], s)
  | op :: rest =>
      let (answer, s) := s.step op
      let (answers, s) := s.run rest
      (answer :: answers, s)

end Session

/-- An answer of an operation without checked parts. -/
def answered {α : Type} (answer : Except FormatError α) : Except Stop α :=
  answer.mapError .error

theorem counted_ok {options : Options} {format : Bytes} {r r' : PrintFormat.Rendering}
    (h : PrintFormat.Rendering.segments options (Segment.ofFormat format) r = .ok () r') :
    Rendering.counted options format r = .ok (r'.sink.written - r.sink.written) r' := by
  unfold Rendering.counted
  exact (Action.bind_ok rfl).trans ((Action.bind_ok h).trans (Action.bind_ok rfl))

theorem counted_error {options : Options} {format : Bytes} {r r' : PrintFormat.Rendering}
    {e : FormatError}
    (h : PrintFormat.Rendering.segments options (Segment.ofFormat format) r = .error e r') :
    Rendering.counted options format r = .error e r' := by
  unfold Rendering.counted
  exact (Action.bind_ok rfl).trans (Action.bind_error h)

/-- A render over cells is the render over their text. -/
theorem Context.render_view (context : Context) (sink : Sink) (format : Bytes) (args : List Arg)
    (options : Options) :
    let r := context.render sink format args options
    let r' := context.view.render sink format args options
    r.1 = answered (r'.outcome.map some) ∧ r.2.1.view = r'.context ∧ r.2.2 = r'.sink := by
  have h := Rendering.render_carriesOut options format ⟨context, ⟨args, 0⟩, sink⟩
  unfold PrintFormat.Context.render render
  cases hy : PrintFormat.Rendering.segments options (Segment.ofFormat format)
      ⟨context.view, ⟨args, 0⟩, sink⟩ with
  | ok _ r =>
    obtain ⟨r', hx, rfl⟩ := h.ok (counted_ok hy)
    simp only [hx]
    exact ⟨rfl, rfl, rfl⟩
  | error e r =>
    obtain ⟨r', hx, rfl⟩ := h.error (counted_error hy)
    simp only [hx]
    exact ⟨rfl, rfl, rfl⟩

/-- A render over cells that hold anything answers and delivers what a render with a
fresh context does, and leaves the raw mode. -/
theorem Context.render_stale (context : Context) (sink : Sink) (format : Bytes) (args : List Arg)
    (options : Options) :
    let r := context.render sink format args options
    let fresh := PrintFormat.render sink format args options
    r.1 = answered (fresh.outcome.map some) ∧ r.2.2 = fresh.sink ∧ r.2.1.mode = .raw := by
  intro r fresh
  obtain ⟨hanswer, hcontext, hsink⟩ := context.render_view sink format args options
  obtain ⟨houtcome, hdelivered, -⟩ := context.view.render_agrees {} sink format args options
  refine ⟨hanswer.trans (by rw [houtcome]; rfl), hsink.trans hdelivered, ?_⟩
  have hmode := context.view.mode_render sink format args options
  rwa [← hcontext] at hmode

namespace Session

theorem deliver_view (pieces : List Piece) (s : Session) :
    Prod.map id view (s.deliver pieces) = Prod.map answered id (s.view.deliver pieces) := by
  have h := putAll_carriesOut s.sink.encodings pieces s.sink.target
  have hput := Sink.putAll_eq pieces s.sink.encodings s.sink.target
  unfold deliver PrintFormat.Session.deliver
  cases hy : Target.writeEach (Sink.texts s.sink.encodings pieces) s.sink.target with
  | ok _ t =>
    obtain ⟨t', hx, ht⟩ := h.ok hy
    obtain rfl : t' = t := ht
    rw [Sink.onTarget_ok hy] at hput
    simp only [hx, view, hput]
    rfl
  | error e t =>
    obtain ⟨t', hx, ht⟩ := h.error hy
    obtain rfl : t' = t := ht
    rw [Sink.onTarget_error hy] at hput
    simp only [hx, view, hput]
    rfl

/-- A step over cells is the step over their texts. -/
theorem step_view (s : Session) (op : Step) :
    Prod.map id view (s.step op) = Prod.map answered id (s.view.step op) := by
  cases op with
  | render format args options =>
    obtain ⟨hanswer, hcontext, hsink⟩ := s.context.render_view s.sink format args options
    simp only [step, PrintFormat.Session.step, view, Prod.map, id, hanswer, hcontext, hsink]
  | renderShared format args options =>
    obtain ⟨hanswer, hcontext, hsink⟩ := s.shared.render_view s.sink format args options
    simp only [step, PrintFormat.Session.step, view, Prod.map, id, hanswer, hcontext, hsink]
  | write bytes => exact deliver_view [.bytes bytes] s
  | fill byte count => exact deliver_view [.fill byte count] s
  | pad width byte bytes => exact deliver_view (aligned width byte bytes) s
  | flush =>
    by_cases hplain : s.sink.encodings = 0
    · simp only [step, PrintFormat.Session.step, view, hplain, if_true]
      cases s.sink.flush <;> rfl
    · simp only [step, PrintFormat.Session.step, view, hplain, if_false]
      rfl
  | useContext context =>
    simp only [step, PrintFormat.Session.step, view, Prod.map, Context.view_ofContext]
    rfl

/-- A run over cells is the run over their texts. -/
theorem run_view (s : Session) (steps : List Step) :
    Prod.map id view (s.run steps) = Prod.map (List.map answered) id (s.view.run steps) := by
  induction steps generalizing s with
  | nil => rfl
  | cons op rest ih =>
    obtain ⟨hanswer, hnext⟩ := Prod.ext_iff.mp (step_view s op)
    obtain ⟨hanswers, hlast⟩ := Prod.ext_iff.mp (ih (s.step op).2)
    simp only [Prod.map, id] at hanswer hnext hanswers hlast
    simp only [run, PrintFormat.Session.run, Prod.map, id, List.map_cons, hanswer, ← hnext,
      hanswers, hlast]

/-- Sessions over contexts of any cells, on the same sink, answer alike step by step
and deliver the same, also if one of them renders with its own context where the
other one uses the shared one. -/
theorem run_stale {s t : Session} (h : s.sink = t.sink) (steps : List Step) :
    (s.run steps).1 = (t.run (steps.map Step.unshared)).1 ∧
      (s.run steps).2.sink = (t.run (steps.map Step.unshared)).2.sink := by
  obtain ⟨hanswers, hview⟩ := Prod.ext_iff.mp (run_view s steps)
  obtain ⟨hanswers', hview'⟩ := Prod.ext_iff.mp (run_view t (steps.map Step.unshared))
  simp only [Prod.map, id] at hanswers hview hanswers' hview'
  obtain ⟨halike, hsink⟩ := PrintFormat.Session.run_alike steps (s := s.view) (t := t.view) h
  rw [← hview, ← hview'] at hsink
  exact ⟨by rw [hanswers, hanswers', halike], hsink⟩

/-- Every session is one over cells. -/
theorem view_surjective : Function.Surjective view := fun s =>
  ⟨⟨s.sink, .ofContext s.context, .ofContext s.shared⟩, by simp only [view, Context.view_ofContext]⟩

/-- The short names of the errors of the engine. -/
def errorKinds : List String :=
  ["io", "buffer_overflow", "scratch_overflow", "missing_argument", "argument_mismatch"]

/-- Whatever a session starts from, with checked partial operations it goes as
without the checks: no step meets a breach, and each ends well or with one of
the five errors. The start of either span stays within its cells. -/
theorem run_without_breach (s : Session) (steps : List Step) :
    let after := (s.run steps).2
    (∀ answer ∈ (s.run steps).1, (∃ n, answer = .ok n) ∨
      ∃ e : FormatError, answer = .error (.error e) ∧ e.kind ∈ errorKinds) ∧
    (s.run steps).1 = (s.view.run steps).1.map answered ∧
    after.view = (s.view.run steps).2 ∧
    after.context.span.start ≤ scratchCapacity ∧ after.shared.span.start ≤ scratchCapacity := by
  intro after
  obtain ⟨hanswers, hview⟩ := Prod.ext_iff.mp (run_view s steps)
  simp only [Prod.map, id] at hanswers hview
  refine ⟨fun answer hmem => ?_, hanswers, hview, after.context.span.fits, after.shared.span.fits⟩
  rw [hanswers] at hmem
  obtain ⟨a, -, rfl⟩ := List.mem_map.mp hmem
  cases a with
  | ok n => exact .inl ⟨n, rfl⟩
  | error e => exact .inr ⟨e, rfl, by cases e <;> simp [errorKinds, FormatError.kind]⟩

end Session
end Checked
end PrintFormat
