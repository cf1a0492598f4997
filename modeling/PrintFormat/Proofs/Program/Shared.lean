import PrintFormat.Program
import PrintFormat.Proofs.Render.Reuse
import PrintFormat.Session

/-!
The context that all of a program share. Since no render shows what its context
holds, a call that renders with the shared context answers as the same call with
a context of its own, after every history of calls. `Session.step_alike` and
`Program.act_alike` say it of one step beside the same step without sharing, and
`Session.run_alike` and `Program.perform_alike` of whole histories.
-/
namespace PrintFormat

/-! ## Sessions -/

/-- The step with the context of the session in place of the shared one. -/
def Step.unshared : Step → Step
  | .renderShared format args options => .render format args options
  | step => step

namespace Session

/-- Two sessions on the same sink, whatever their contexts are. -/
def Alike (s t : Session) : Prop := s.sink = t.sink

/-- A render answers the same with each of two contexts. -/
theorem rendered_alike (c d : Context) (sink : Sink) (format : Bytes) (args : List Arg)
    (options : Options) :
    (c.render sink format args options).outcome.map some =
        (d.render sink format args options).outcome.map some ∧
      (c.render sink format args options).sink = (d.render sink format args options).sink := by
  obtain ⟨ho, hs, -⟩ := c.render_agrees d sink format args options
  exact ⟨congrArg _ ho, hs⟩

theorem step_alike (op : Step) {s t : Session} (h : Alike s t) :
    (s.step op).1 = (t.step op.unshared).1 ∧ Alike (s.step op).2 (t.step op.unshared).2 := by
  obtain ⟨sink, c, shared⟩ := s
  obtain ⟨_, c', shared'⟩ := t
  cases h
  cases op with
  | render format args options => exact rendered_alike c c' sink format args options
  | renderShared format args options => exact rendered_alike shared c' sink format args options
  | write bytes =>
    simp only [Step.unshared, step, deliver]
    cases Sink.putAll [.bytes bytes] sink <;> exact ⟨rfl, rfl⟩
  | fill byte count =>
    simp only [Step.unshared, step, deliver]
    cases Sink.putAll [.fill byte count] sink <;> exact ⟨rfl, rfl⟩
  | pad width byte bytes =>
    simp only [Step.unshared, step, deliver]
    cases Sink.putAll (aligned width byte bytes) sink <;> exact ⟨rfl, rfl⟩
  | flush =>
    simp only [Step.unshared, step]
    split
    · cases sink.flush <;> exact ⟨rfl, rfl⟩
    · exact ⟨rfl, rfl⟩
  | useContext context => exact ⟨rfl, rfl⟩

theorem run_alike (steps : List Step) {s t : Session} (h : Alike s t) :
    (s.run steps).1 = (t.run (steps.map Step.unshared)).1 ∧
      Alike (s.run steps).2 (t.run (steps.map Step.unshared)).2 := by
  induction steps generalizing s t with
  | nil => exact ⟨rfl, h⟩
  | cons op rest ih =>
    obtain ⟨hanswer, hnext⟩ := step_alike op h
    obtain ⟨hanswers, hlast⟩ := ih hnext
    exact ⟨congrArg₂ List.cons hanswer hanswers, hlast⟩

end Session

/-! ## Programs -/

namespace Program

/-- Two programs that may differ in the context that they share. -/
structure Alike (p q : Program) : Prop where
  environment : p.environment = q.environment
  settings : p.settings = q.settings
  output : p.output = q.output
  errors : p.errors = q.errors

/-- The action with a context of its own in place of the shared one. -/
def Action.unshared : Action → Action
  | .printOn _ options sink format args => .printOn false options sink format args
  | .printOut _ options format args => .printOut false options format args
  | action => action

/-- Two replies that tell the same, whatever contexts their renders left. -/
def Reply.Agrees : Reply → Reply → Prop
  | .rendered r, .rendered s => r.Agrees s
  | a, b => a = b

/-- Carries out actions in order. -/
def perform (p : Program) : List Action → List Reply × Program
  | [] => ([], p)
  | action :: rest =>
      let (reply, p) := act action p
      let (replies, p) := perform p rest
      (reply :: replies, p)

variable {p q : Program}

theorem Alike.eq (h : Alike p q) : p = { q with shared := p.shared } := by
  obtain ⟨he, hs, ho, hr⟩ := h
  cases p
  cases q
  cases he
  cases hs
  cases ho
  cases hr
  rfl

theorem optionsOr_alike (options : Option Options) (h : Alike p q) :
    (optionsOr options p).1 = (optionsOr options q).1 ∧
      Alike (optionsOr options p).2 (optionsOr options q).2 := by
  rw [h.eq]
  cases options <;> exact ⟨rfl, rfl, rfl, rfl, rfl⟩

/-- A call that prints with the shared context prints as one with its own. -/
theorem printOn_alike (shared : Bool) (options : Option Options) (sink : Sink) (format : Bytes)
    (args : List Arg) (h : Alike p q) :
    (printOn shared options sink format args p).1.Agrees
        (printOn false options sink format args q).1 ∧
      Alike (printOn shared options sink format args p).2
        (printOn false options sink format args q).2 := by
  obtain ⟨hoptions, hafter⟩ := optionsOr_alike options h
  have hown : (printOn false options sink format args q).1 =
      print sink format args (optionsOr options q).1 := rfl
  rw [hown, ← hoptions]
  cases shared with
  | true =>
    have hprint := (optionsOr options p).2.shared.print_agrees {} sink format args
      (optionsOr options p).1
    exact ⟨hprint, hafter.environment, hafter.settings, hafter.output, hafter.errors⟩
  | false => exact ⟨Context.print_agrees {} {} sink format args _, hafter⟩

/-- An action that does not print answers whatever context is shared. -/
theorem act_of_frame {action : Action} (h : Alike p q)
    (hact : ∀ shared, act action { q with shared } =
      ((act action q).1, { (act action q).2 with shared })) :
    (act action p).1 = (act action q).1 ∧ Alike (act action p).2 (act action q).2 := by
  rw [h.eq, hact]
  exact ⟨rfl, rfl, rfl, rfl, rfl⟩

theorem Reply.Agrees.of_eq {a b : Reply} (h : a = b) : a.Agrees b := by
  cases h
  cases a with
  | rendered r => exact ⟨rfl, rfl, rfl⟩
  | _ => rfl

theorem act_alike (action : Action) (h : Alike p q) :
    (act action p).1.Agrees (act action.unshared q).1 ∧
      Alike (act action p).2 (act action.unshared q).2 := by
  -- all actions but those that print neither read the shared context nor change it
  have frame (hact : ∀ shared, act action { q with shared } =
      ((act action q).1, { (act action q).2 with shared })) :
      (act action p).1.Agrees (act action q).1 ∧ Alike (act action p).2 (act action q).2 :=
    (act_of_frame h hact).imp Reply.Agrees.of_eq id
  cases action with
  | printOn shared options sink format args => exact printOn_alike shared options sink format args h
  | printOut shared options format args =>
    obtain ⟨⟨ho, hs, -⟩, hafter⟩ := printOn_alike shared options (.toWriter {}) format args h
    refine ⟨congrArg Reply.count ho, hafter.environment, hafter.settings, ?_, hafter.errors⟩
    exact congrArg₂ (fun (held : Array UInt8) (s : Sink) => held ++ s.contents) hafter.output hs
  | logTo logger w level m =>
    refine frame fun shared => ?_
    simp only [act, logTo]
    cases logger.enabled level <;> rfl
  | log logger level m =>
    refine frame fun shared => ?_
    simp only [act, log, logTo]
    cases logger.enabled level <;> cases level <;> rfl
  | _ => exact frame fun shared => rfl

theorem perform_alike (history : List Action) (h : Alike p q) :
    List.Forall₂ Reply.Agrees (p.perform history).1 (q.perform (history.map Action.unshared)).1 ∧
      Alike (p.perform history).2 (q.perform (history.map Action.unshared)).2 := by
  induction history generalizing p q with
  | nil => exact ⟨.nil, h⟩
  | cons action rest ih =>
    obtain ⟨hreply, hnext⟩ := act_alike action h
    obtain ⟨hreplies, hlast⟩ := ih hnext
    exact ⟨.cons hreply hreplies, hlast⟩

/-- A render with a context that was used in any way answers and delivers what a
render with a fresh one does, and leaves the raw mode. So a call with the shared
context, made after any history of calls, comes to what the call with a context
of its own and the same options does, and a whole history that shares a context
tells the same as one that does not. -/
theorem shared_context_unseen :
    (∀ (context : Context) (sink : Sink) (format : Bytes) (args : List Arg) (options : Options),
      (context.render sink format args options).Agrees (render sink format args options) ∧
        (context.render sink format args options).context.mode = .raw) ∧
    (∀ (s : Session) (before : List Step) (format : Bytes) (args : List Arg) (options : Options),
      let now := (s.run before).2
      let answer := now.step (.renderShared format args options)
      let fresh := render now.sink format args options
      answer.1 = fresh.outcome.map some ∧ answer.2.sink = fresh.sink) ∧
    (∀ (s : Session) (steps : List Step),
      (s.run steps).1 = (s.run (steps.map Step.unshared)).1 ∧
        (s.run steps).2.sink = (s.run (steps.map Step.unshared)).2.sink) ∧
    (∀ (p : Program) (before : List Action) (options : Option Options) (sink : Sink)
      (format : Bytes) (args : List Arg),
      let now := (p.perform before).2
      (printOn true options sink format args now).1.Agrees
        (print sink format args (optionsOr options now).1)) ∧
    ∀ (p : Program) (history : List Action),
      List.Forall₂ Reply.Agrees (p.perform history).1
        (p.perform (history.map Action.unshared)).1 := by
  refine ⟨fun context sink format args options => ⟨?_, ?_⟩, ?_, ?_, ?_, ?_⟩
  · exact context.render_agrees {} sink format args options
  · exact context.mode_render sink format args options
  · intro s before format args options
    exact Session.rendered_alike _ {} _ format args options
  · intro s steps
    exact Session.run_alike steps rfl
  · intro p before options sink format args
    exact (printOn_alike true options sink format args ⟨rfl, rfl, rfl, rfl⟩).1
  · intro p history
    exact (perform_alike history ⟨rfl, rfl, rfl, rfl⟩).1

end Program
end PrintFormat
