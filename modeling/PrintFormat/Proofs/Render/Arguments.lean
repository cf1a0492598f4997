import PrintFormat.Proofs.Conversion.Overflow
import PrintFormat.Proofs.Render.Transcript

/-!
A directive as an action on its arguments alone. It works on an empty span of
its own, so that what is left of it is what it takes and what it puts out:
`Directive.output_eq` says that this is the numbers for its stars, then the
value it converts, then the field. All of these take arguments from the front,
one at a time, and count them. `Draws` says of an action that it is made of such
takings, and `InOrder` what comes of that: the count has no part in it.
-/
namespace PrintFormat

/-! ## Counting on -/

/-- The error of a render whose arguments are counted from a number on. -/
def FormatError.later (k : Nat) : FormatError → FormatError
  | missingArgument index => missingArgument (k + index)
  | argumentMismatch index expected => argumentMismatch (k + index) expected
  | e => e

/-- The cursor with its arguments counted from a number on. -/
def Cursor.later (k : Nat) (c : Cursor) : Cursor := { c with consumed := k + c.consumed }

/-- The result with the arguments counted from a number on. -/
def laterResult {α : Type} (k : Nat) :
    EStateM.Result FormatError Cursor α → EStateM.Result FormatError Cursor α
  | .ok a c => .ok a (c.later k)
  | .error e c => .error (e.later k) (c.later k)

/-- A cursor on a list of arguments, at the one that it counts. -/
def Cursor.On (args : List Arg) (c : Cursor) : Prop := c.remaining = args.drop c.consumed

/-- An action that takes arguments from the front and counts them, and that does
not depend on the count. -/
structure InOrder {α : Type} (act : EStateM FormatError Cursor α) : Prop where
  later : ∀ k c, act (c.later k) = laterResult k (act c)
  on : ∀ args c, c.On args → (Action.left (act c)).On args

namespace InOrder

variable {α β : Type}

theorem pure (a : α) : InOrder (pure a) where
  later _ _ := rfl
  on _ _ h := h

theorem bind {act : EStateM FormatError Cursor α} {next : α → EStateM FormatError Cursor β}
    (h : InOrder act) (hnext : ∀ a, InOrder (next a)) : InOrder (act >>= next) where
  later k c := by
    have hk := h.later k c
    cases hact : act c with
    -- the second action starts with the arguments that the first left
    | ok a rest =>
      rw [hact] at hk
      rw [Action.bind_ok hact, Action.bind_ok hk]
      exact (hnext a).later k rest
    | error e rest =>
      rw [hact] at hk
      rw [Action.bind_error hact, Action.bind_error hk]
      rfl
  on args c hc := by
    have hleft := h.on args c hc
    cases hact : act c with
    | ok a rest =>
      rw [hact] at hleft
      rw [Action.bind_ok hact]
      exact (hnext a).on args rest hleft
    | error e rest =>
      rw [hact] at hleft
      rw [Action.bind_error hact]
      exact hleft

theorem take (demand : Demand) : InOrder (Cursor.take demand) where
  later k c := by
    obtain ⟨remaining, consumed⟩ := c
    cases remaining with
    | nil => rfl
    | cons arg rest =>
      simp only [Cursor.take, Cursor.later]
      cases demand.pick arg <;> rfl
  on args c hc := by
    obtain ⟨remaining, consumed⟩ := c
    cases remaining with
    | nil => exact hc
    | cons arg rest =>
      simp only [Cursor.take]
      cases demand.pick arg with
      | none => exact hc
      | some v =>
        have htail := congrArg List.tail hc
        rwa [List.tail_cons, List.tail_drop] at htail

end InOrder

/-- An action that takes arguments one by one, each for a demand, and may run out
of the span in between. Nothing else of the arguments is seen by it. -/
inductive Draws : {α : Type} → EStateM FormatError Cursor α → Prop
  | pure {α : Type} (a : α) : Draws (Pure.pure a)
  | overflow {α : Type} : Draws (throw .scratchOverflow : EStateM FormatError Cursor α)
  | take (demand : Demand) : Draws (Cursor.take demand)
  | bind {α β : Type} {act : EStateM FormatError Cursor α}
      {next : α → EStateM FormatError Cursor β} :
      Draws act → (∀ a, Draws (next a)) → Draws (act >>= next)

namespace Draws

variable {α β : Type}

theorem map {act : EStateM FormatError Cursor α} (h : Draws act) (f : α → β) :
    Draws (do return f (← act)) :=
  h.bind fun a => .pure (f a)

theorem inOrder {act : EStateM FormatError Cursor α} (h : Draws act) : InOrder act := by
  induction h with
  | pure a => exact InOrder.pure a
  | overflow => exact ⟨fun _ _ => rfl, fun _ _ hc => hc⟩
  | take demand => exact InOrder.take demand
  | bind _ _ ih ihnext => exact ih.bind ihnext

/-- What is the same to each demand is the same to an action. -/
theorem matching {same : Cursor → Cursor → Prop}
    (htake : ∀ demand c c', same c c' →
      Action.Matching same (Cursor.take demand c) (Cursor.take demand c'))
    {act : EStateM FormatError Cursor α} (h : Draws act) {c c' : Cursor} (hc : same c c') :
    Action.Matching same (act c) (act c') := by
  induction h generalizing c c' with
  | pure a => exact ⟨rfl, hc⟩
  | overflow => exact ⟨rfl, hc⟩
  | take demand => exact htake demand c c' hc
  | bind _ _ ih ihnext => exact Action.bind_matching (ih hc) fun a _ _ hnext => ihnext a hnext

end Draws

/-! ## Stars -/

namespace Directive

/-- The directive with the number that a star stands for in place of its width. -/
def starWidth (d : Directive) : EStateM FormatError Cursor Directive :=
  if d.width.star then do
    return d.withStarWidth (BitVec.toInt (← Cursor.take .integer))
  else
    return d

/-- The directive with the number that a star stands for in place of its
precision. -/
def starPrecision (d : Directive) : EStateM FormatError Cursor Directive :=
  if d.precision.star then do
    return d.withStarPrecision (BitVec.toInt (← Cursor.take .integer))
  else
    return d

/-- The directive without stars. -/
def resolved (d : Directive) : EStateM FormatError Cursor Directive := do
  starPrecision (← starWidth d)

theorem draws_resolved (d : Directive) : Draws d.resolved := by
  have hwidth : Draws d.starWidth := by
    unfold starWidth
    split
    · exact (Draws.take .integer).map _
    · exact Draws.pure d
  refine hwidth.bind fun d => ?_
  unfold starPrecision
  split
  · exact (Draws.take .integer).map _
  · exact Draws.pure d

/-- What an action on a directive and its arguments comes to, without what
becomes of the directive if an argument fails. -/
def forget : EStateM.Result FormatError (Directive × Cursor) Unit →
    EStateM.Result FormatError Cursor Directive
  | .ok _ (d, c) => .ok d c
  | .error e (_, c) => .error e c

theorem starPrecision_eq (d : Directive) (c : Cursor) :
    d.starPrecision c = forget
      (if d.precision.star then
        match Cursor.take .integer c with
        | .ok v c => .ok () (d.withStarPrecision (BitVec.toInt v), c)
        | .error e c => .error e (d, c)
      else .ok () (d, c)) := by
  unfold starPrecision
  split
  · cases ht : Cursor.take .integer c with
    | ok v rest => exact Action.bind_ok ht
    | error e rest => exact Action.bind_error ht
  · rfl

theorem resolved_eq (d : Directive) (c : Cursor) : d.resolved c = forget (d.resolveStars c) := by
  unfold resolved resolveStars
  cases hstar : d.width.star with
  | true =>
    cases ht : Cursor.take .integer c with
    | ok v rest =>
      have hwidth : d.starWidth c = .ok (d.withStarWidth (BitVec.toInt v)) rest := by
        rw [starWidth, if_pos hstar]
        exact Action.bind_ok ht
      exact (Action.bind_ok hwidth).trans (starPrecision_eq _ rest)
    | error e rest =>
      have hwidth : d.starWidth c = .error e rest := by
        rw [starWidth, if_pos hstar]
        exact Action.bind_error ht
      exact Action.bind_error hwidth
  | false =>
    have hwidth : d.starWidth c = .ok d c := by
      rw [starWidth, hstar]
      exact rfl
    exact (Action.bind_ok hwidth).trans (starPrecision_eq d c)

theorem resolved_ok_iff {d d' : Directive} {c c' : Cursor} :
    d.resolved c = .ok d' c' ↔ d.resolveStars c = .ok () (d', c') := by
  rw [resolved_eq]
  cases d.resolveStars c <;> simp [forget, Prod.ext_iff]

end Directive

/-! ## Values -/

/-- An edit of an empty span, of which only the field is kept. -/
def Scratch.onEmpty (edit : Scratch.Edit Field) : EStateM FormatError Cursor Field := fun c =>
  match edit .empty with
  | .ok f _ => .ok f c
  | .error e _ => .error e c

/-- The field of a conversion for the argument that it takes. -/
def Conversion.taken (d : Directive) (options : Options) :
    Conversion → EStateM FormatError Cursor Field
  | .percentSign => pure { body := [percent] }
  | .standard c => do
      let v ← Cursor.take c.demand
      Scratch.onEmpty (c.compose d options v)
  | .extended c => do
      let v ← Cursor.take c.demand
      Scratch.onEmpty (c.compose d options v)

theorem Draws.onEmpty {edit : Scratch.Edit Field}
    (h : (∃ f s, edit .empty = .ok f s) ∨ ∃ s, edit .empty = .error .scratchOverflow s) :
    Draws (Scratch.onEmpty edit) := by
  obtain ⟨f, s, h⟩ | ⟨s, h⟩ := h
  · have heq : Scratch.onEmpty edit = EStateM.pure f := by
      funext c
      simp only [Scratch.onEmpty, h]
      rfl
    rw [heq]
    exact Draws.pure f
  · have heq : Scratch.onEmpty edit = throw .scratchOverflow := by
      funext c
      simp only [Scratch.onEmpty, h]
      rfl
    rw [heq]
    exact Draws.overflow

theorem Conversion.draws_taken (d : Directive) (options : Options) (c : Conversion) :
    Draws (c.taken d options) := by
  cases c with
  | percentSign => exact Draws.pure _
  | standard c =>
    refine (Draws.take c.demand).bind fun v => Draws.onEmpty ?_
    by_cases hv : c.Overflows v
    · exact .inr ⟨_, c.compose_overflow d options hv⟩
    · exact .inl (c.compose_ok d options hv)
  | extended c =>
    exact (Draws.take c.demand).bind fun v => Draws.onEmpty (.inl (c.compose_ok d options v))

/-- The work on a bench, without what is left in its span. -/
def Bench.forget {α : Type} : EStateM.Result FormatError Bench α →
    EStateM.Result FormatError Cursor α
  | .ok a b => .ok a b.cursor
  | .error e b => .error e b.cursor

/-- An argument is taken, and then the empty span is edited. -/
theorem forget_taking {demand : Demand} (edit : demand.Value → Scratch.Edit Field) (c : Cursor) :
    Bench.forget ((do
      let v ← Bench.onCursor (Cursor.take demand)
      Bench.onScratch (edit v) : Bench.Work Field) ⟨.empty, c⟩) =
    (do
      let v ← Cursor.take demand
      Scratch.onEmpty (edit v) : EStateM FormatError Cursor Field) c := by
  cases ht : Cursor.take demand c with
  | error e rest =>
    have hbench : Bench.onCursor (Cursor.take demand) ⟨.empty, c⟩ =
        .error e ⟨Scratch.empty, rest⟩ := by simp only [Bench.onCursor, ht]
    rw [Action.bind_error ht, Action.bind_error hbench]
    rfl
  | ok v rest =>
    have hbench : Bench.onCursor (Cursor.take demand) ⟨.empty, c⟩ =
        .ok v ⟨Scratch.empty, rest⟩ := by simp only [Bench.onCursor, ht]
    rw [Action.bind_ok ht, Action.bind_ok hbench]
    simp only [Bench.onScratch, Scratch.onEmpty]
    cases edit v .empty <;> rfl

theorem Conversion.taken_eq (d : Directive) (options : Options) (conversion : Conversion)
    (c : Cursor) :
    conversion.taken d options c =
      Bench.forget (conversion.field d options ⟨.empty, c⟩) := by
  cases conversion with
  | percentSign => rfl
  | standard c' => exact (forget_taking (c'.compose d options) c).symm
  | extended c' => exact (forget_taking (c'.compose d options) c).symm

/-! ## Output -/

/-- A directive resolves its stars, takes its value and puts out its field. -/
theorem Directive.output_eq (d : Directive) (options : Options) (conversion : Conversion) :
    d.output options conversion = do
      let d ← d.resolved
      return (← conversion.taken d options).pieces := by
  funext c
  have hstars := d.resolved_eq c
  simp only [Directive.output]
  cases hd : d.resolveStars c with
  | error e p =>
    rw [hd] at hstars
    rw [Action.bind_error hstars]
  | ok _ p =>
    obtain ⟨d', rest⟩ := p
    rw [hd] at hstars
    rw [Action.bind_ok hstars]
    have hfield := conversion.taken_eq d' options rest
    cases hf : conversion.field d' options ⟨.empty, rest⟩ with
    | ok f b =>
      rw [hf] at hfield
      simp only [hf]
      rw [Action.bind_ok hfield]
      rfl
    | error e b =>
      rw [hf] at hfield
      simp only [hf]
      rw [Action.bind_error hfield]

/-- Segments take their arguments from the front. -/
theorem Segment.draws_output (options : Options) (seg : Segment) :
    Draws (seg.output options) := by
  cases seg with
  | literal text => exact Draws.pure _
  | directive s =>
    cases hc : s.directive.conversion? with
    | none =>
      rw [output_copied hc]
      exact Draws.pure _
    | some c =>
      rw [output_converted hc, Directive.output_eq]
      exact s.directive.draws_resolved.bind fun d => (c.draws_taken d options).map _

end PrintFormat
