import PrintFormat.Proofs.Render.Failure

/-!
Renders of one format with more or fewer arguments. What an action draws is a
front of its arguments, and it does the same with anything behind that front
(`Draws.ok_front`). If it fails, then either at the end of the arguments, and it
names their count (`Draws.error_missing`), or whatever stands behind them
(`Draws.error_extend`). `Context.deliver_supply` is what comes of that for whole
renders.
-/
namespace PrintFormat

/-- The cursor with arguments behind those it has. -/
def Cursor.extend (c : Cursor) (more : List Arg) : Cursor :=
  { c with remaining := c.remaining ++ more }

/-! ## Actions -/

namespace Draws

variable {α : Type} {act : EStateM FormatError Cursor α} {c c' : Cursor}

/-- An action that succeeds has drawn a front of the arguments and counted it,
and does so whatever is behind that front. -/
theorem ok_front (h : Draws act) {a : α} (hok : act c = .ok a c') :
    ∃ used, c.remaining = used ++ c'.remaining ∧ c'.consumed = c.consumed + used.length ∧
      ∀ more, act ⟨used ++ more, c.consumed⟩ = .ok a ⟨more, c'.consumed⟩ := by
  induction h generalizing c c' with
  | pure b =>
    cases hok
    exact ⟨[], rfl, rfl, fun more => rfl⟩
  | overflow => cases hok
  | take demand =>
    obtain ⟨remaining, consumed⟩ := c
    cases remaining with
    | nil => cases hok
    | cons arg rest =>
      simp only [Cursor.take] at hok ⊢
      cases hv : demand.pick arg with
      | none => simp only [hv, reduceCtorEq] at hok
      | some v =>
        simp only [hv] at hok
        cases hok
        refine ⟨[arg], rfl, rfl, ?_⟩
        intro more
        simp only [List.cons_append, hv]
        rfl
  | bind _ _ ih ihnext =>
    obtain ⟨b, middle, hfirst, hsecond⟩ := Action.bind_eq_ok_iff.mp hok
    obtain ⟨used, hused, hcount, hrun⟩ := ih hfirst
    obtain ⟨used', hused', hcount', hrun'⟩ := ihnext b hsecond
    refine ⟨used ++ used', ?_, ?_, ?_⟩
    · rw [hused, hused', List.append_assoc]
    · rw [hcount', hcount, List.length_append, Nat.add_assoc]
    · intro more
      rw [List.append_assoc, Action.bind_ok (hrun (used' ++ more))]
      exact hrun' more

theorem ok_extend (h : Draws act) {a : α} (hok : act c = .ok a c') (more : List Arg) :
    act (c.extend more) = .ok a (c'.extend more) := by
  obtain ⟨used, hused, -, hrun⟩ := h.ok_front hok
  have key := hrun (c'.remaining ++ more)
  rwa [← List.append_assoc, ← hused] at key

/-- No argument is missing but the first one behind those there are. -/
theorem error_missing (h : Draws act) {i : Nat}
    (hmissing : act c = .error (.missingArgument i) c') : i = c.consumed + c.remaining.length := by
  induction h generalizing c with
  | pure a => cases hmissing
  | overflow => cases hmissing
  | take demand =>
    obtain ⟨remaining, consumed⟩ := c
    cases remaining with
    | nil =>
      cases hmissing
      rfl
    | cons arg rest =>
      simp only [Cursor.take] at hmissing
      cases hv : demand.pick arg <;> simp [hv] at hmissing
  | bind hact _ ih ihnext =>
    obtain hfirst | ⟨a, middle, hfirst, hsecond⟩ := Action.bind_eq_error_iff.mp hmissing
    · exact ih hfirst
    · obtain ⟨used, hused, hcount, -⟩ := hact.ok_front hfirst
      rw [ihnext a hsecond, hcount, hused, List.length_append, Nat.add_assoc]

/-- Arguments behind do not mend any other error. -/
theorem error_extend (h : Draws act) {e : FormatError} (herror : act c = .error e c')
    (he : ∀ i, e ≠ .missingArgument i) (more : List Arg) :
    act (c.extend more) = .error e (c'.extend more) := by
  induction h generalizing c with
  | pure a => cases herror
  | overflow =>
    cases herror
    rfl
  | take demand =>
    obtain ⟨remaining, consumed⟩ := c
    cases remaining with
    | nil =>
      cases herror
      exact absurd rfl (he consumed)
    | cons arg rest =>
      simp only [Cursor.take, Cursor.extend, List.cons_append] at herror ⊢
      cases hv : demand.pick arg with
      | none =>
        simp only [hv] at herror ⊢
        cases herror
        rfl
      | some v => simp only [hv, reduceCtorEq] at herror
  | bind hact _ ih ihnext =>
    obtain hfirst | ⟨a, middle, hfirst, hsecond⟩ := Action.bind_eq_error_iff.mp herror
    · exact Action.bind_error (ih hfirst)
    · rw [Action.bind_ok (hact.ok_extend hfirst more)]
      exact ihnext a hsecond

end Draws

/-! ## Segments in a row -/

namespace Transcript

variable {options : Options} {parts : List Segment} {c : Cursor}

/-- Segments that are all worked out have drawn a front of the arguments, and
come to the same whatever is behind it. -/
theorem ofSegments_front (h : (ofSegments options parts c).verdict = .ok ()) :
    let t := ofSegments options parts c
    ∃ used, c.remaining = used ++ t.cursor.remaining ∧
      t.cursor.consumed = c.consumed + used.length ∧
      ∀ more, ofSegments options parts ⟨used ++ more, c.consumed⟩ =
        ⟨t.pieces, .ok (), ⟨more, t.cursor.consumed⟩⟩ := by
  induction parts generalizing c with
  | nil => exact ⟨[], rfl, rfl, fun more => rfl⟩
  | cons seg rest ih =>
    cases ho : seg.output options c with
    | error e c' =>
      rw [ofSegments_cons_error ho] at h
      cases h
    | ok pieces c' =>
      rw [ofSegments_cons_ok ho] at h ⊢
      obtain ⟨used, hused, hcount, hrun⟩ := (seg.draws_output options).ok_front ho
      obtain ⟨used', hused', hcount', hrun'⟩ := ih h
      refine ⟨used ++ used', ?_, ?_, ?_⟩
      · rw [hused, hused', List.append_assoc]
        rfl
      · rw [List.length_append, ← Nat.add_assoc, ← hcount]
        exact hcount'
      · intro more
        rw [List.append_assoc, ofSegments_cons_ok (hrun (used' ++ more)), hrun']
        rfl

/-- Arguments behind change nothing unless one is missing. -/
theorem ofSegments_extend
    (h : ∀ i, (ofSegments options parts c).verdict ≠ .error (.missingArgument i))
    (more : List Arg) :
    ofSegments options parts (c.extend more) =
      { ofSegments options parts c with
        cursor := (ofSegments options parts c).cursor.extend more } := by
  induction parts generalizing c with
  | nil => rfl
  | cons seg rest ih =>
    cases ho : seg.output options c with
    | ok pieces c' =>
      rw [ofSegments_cons_ok ho] at h
      rw [ofSegments_cons_ok ho, ofSegments_cons_ok ((seg.draws_output options).ok_extend ho more),
        ih h]
      rfl
    | error e c' =>
      rw [ofSegments_cons_error ho] at h
      have he : ∀ i, e ≠ .missingArgument i := by
        intro i hi
        exact h i (by rw [hi])
      rw [ofSegments_cons_error ho,
        ofSegments_cons_error ((seg.draws_output options).error_extend ho he more)]

/-- A missing argument is the first one behind those there are, and what was put
out until then is put out with more arguments too. -/
theorem ofSegments_missing {i : Nat}
    (h : (ofSegments options parts c).verdict = .error (.missingArgument i)) :
    i = c.consumed + c.remaining.length ∧
      ∀ more, (ofSegments options parts c).text <+:
        (ofSegments options parts (c.extend more)).text := by
  induction parts generalizing c with
  | nil => cases h
  | cons seg rest ih =>
    cases ho : seg.output options c with
    | ok pieces c' =>
      rw [ofSegments_cons_ok ho] at h ⊢
      obtain ⟨hi, hprefix⟩ := ih h
      obtain ⟨used, hused, hcount, -⟩ := (seg.draws_output options).ok_front ho
      refine ⟨?_, ?_⟩
      · rw [hi, hcount, hused, List.length_append, Nat.add_assoc]
      · intro more
        rw [ofSegments_cons_ok ((seg.draws_output options).ok_extend ho more), text_after,
          text_after, List.prefix_append_right_inj]
        exact hprefix more
    | error e c' =>
      rw [ofSegments_cons_error ho] at h ⊢
      cases h
      exact ⟨(seg.draws_output options).error_missing ho, fun more => List.nil_prefix⟩

end Transcript

/-! ## Renders -/

namespace Context

variable (context : Context) (held : Array UInt8) (format : Bytes) (args : List Arg)
  (options : Options)

theorem deliver_extend
    (h : ∀ i, (context.deliver held format args options).outcome ≠ .error (.missingArgument i))
    (more : List Arg) :
    context.deliver held format (args ++ more) options =
      context.deliver held format args options := by
  have hverdict : ∀ i, (Transcript.ofFormat options format args).verdict ≠
      .error (.missingArgument i) := by
    intro i hi
    exact h i ((deliver_outcome_eq_error_iff ..).mpr hi)
  have hextend := Transcript.ofSegments_extend hverdict more
  rw [deliver_eq, deliver_eq]
  show (Transcript.ofSegments options _ (Cursor.extend ⟨args, 0⟩ more)).delivery = _
  rw [hextend]
  rfl

theorem deliver_missing {i : Nat}
    (h : (context.deliver held format args options).outcome = .error (.missingArgument i)) :
    i = args.length ∧ ∀ more, (context.deliver held format args options).bytes <+:
      (context.deliver held format (args ++ more) options).bytes := by
  obtain ⟨hi, hprefix⟩ :=
    Transcript.ofSegments_missing ((deliver_outcome_eq_error_iff ..).mp h)
  refine ⟨?_, ?_⟩
  · simpa using hi
  · intro more
    rw [deliver_eq, deliver_eq]
    exact hprefix more

theorem deliver_consumed_le {n : Nat}
    (h : (context.deliver held format args options).outcome = .ok n) :
    (context.deliver held format args options).consumed ≤ args.length := by
  obtain ⟨hverdict, -⟩ := (deliver_outcome_eq_ok_iff ..).mp h
  obtain ⟨used, hused, hcount, -⟩ := Transcript.ofSegments_front hverdict
  rw [deliver_eq]
  show (Transcript.ofFormat options format args).cursor.consumed ≤ args.length
  have hlen := congrArg List.length hused
  rw [List.length_append] at hlen
  simp only [Nat.zero_add] at hcount
  rw [Transcript.ofFormat, hcount, hlen]
  exact Nat.le_add_right _ _

/-- A render that fails for another reason than a missing argument, or not at
all, comes to the same with any arguments behind those it has. One that misses
an argument misses the first behind those there are, and delivers a front of
what it delivers with more of them. One that succeeds takes no more arguments
than there are, and each of them is needed: with fewer than it takes, the next
one is missing. -/
theorem deliver_supply (context : Context) (held : Array UInt8) (format : Bytes)
    (args : List Arg) (options : Options) :
    let whole := context.deliver held format args options
    ((∀ i, whole.outcome ≠ .error (.missingArgument i)) →
      ∀ more, context.deliver held format (args ++ more) options = whole) ∧
    (∀ i, whole.outcome = .error (.missingArgument i) →
      i = args.length ∧
        ∀ more, whole.bytes <+: (context.deliver held format (args ++ more) options).bytes) ∧
    ∀ n, whole.outcome = .ok n →
      whole.consumed ≤ args.length ∧
        ∀ j < whole.consumed,
          (context.deliver held format (args.take j) options).outcome =
            .error (.missingArgument j) := by
  intro whole
  refine ⟨context.deliver_extend held format args options,
    fun i => context.deliver_missing held format args options, ?_⟩
  intro n hn
  have hle := context.deliver_consumed_le held format args options hn
  refine ⟨hle, ?_⟩
  intro j hj
  by_cases hmissing : ∃ i, (context.deliver held format (args.take j) options).outcome =
      .error (.missingArgument i)
  · obtain ⟨i, hi⟩ := hmissing
    obtain ⟨hlen, -⟩ := context.deliver_missing held format (args.take j) options hi
    rw [List.length_take, Nat.min_eq_left (Nat.le_of_lt (Nat.lt_of_lt_of_le hj hle))] at hlen
    rw [hi, hlen]
  -- otherwise the first arguments would do for the whole render, which takes more of them
  · have hsame := context.deliver_extend held format (args.take j) options
      (fun i hi => hmissing ⟨i, hi⟩) (args.drop j)
    rw [List.take_append_drop] at hsame
    have hfewer : (context.deliver held format (args.take j) options).consumed ≤
        (args.take j).length := by
      refine context.deliver_consumed_le held format (args.take j) options (n := n) ?_
      rw [← hsame]
      exact hn
    rw [← hsame, List.length_take] at hfewer
    exact absurd hj (Nat.not_lt.mpr (Nat.le_trans hfewer (Nat.min_le_left _ _)))

/-- A width from the arguments, the number it is for, and a text: with one
argument too many, with the last one missing, and with the width alone. -/
theorem deliver_supply_star :
    let format := ascii "%*d|%s"
    let args : List Arg := [.int 3, .uint 7, .str (ascii "ab")]
    let whole := Context.deliver {} #[] format args {}
    let front := Context.deliver {} #[] format (args.take 2) {}
    whole.outcome = .ok 6 ∧ whole.consumed = 3 ∧
      Context.deliver {} #[] format (args ++ [.bool true]) {} = whole ∧
      front.outcome = .error (.missingArgument 2) ∧ front.bytes = ascii "  7|" ∧
      front.bytes <+:
        (Context.deliver {} #[] format (args.take 2 ++ [.str (ascii "ab")]) {}).bytes ∧
      (Context.deliver {} #[] format (args.take 1) {}).outcome = .error (.missingArgument 1) := by
  have hwhole : (Context.deliver {} #[] (ascii "%*d|%s")
      [.int 3, .uint 7, .str (ascii "ab")] {}).outcome = .ok 6 := by cbv
  have hconsumed : (Context.deliver {} #[] (ascii "%*d|%s")
      [.int 3, .uint 7, .str (ascii "ab")] {}).consumed = 3 := by cbv
  have hfront : (Context.deliver {} #[] (ascii "%*d|%s") [.int 3, .uint 7] {}).outcome =
      .error (.missingArgument 2) := by cbv
  obtain ⟨hmore, -, hneeded⟩ := deliver_supply {} #[] (ascii "%*d|%s")
    [.int 3, .uint 7, .str (ascii "ab")] {}
  obtain ⟨-, hmissing, -⟩ := deliver_supply {} #[] (ascii "%*d|%s") [.int 3, .uint 7] {}
  refine ⟨hwhole, hconsumed, hmore ?_ _, hfront, by cbv, (hmissing 2 hfront).2 _,
    (hneeded 6 hwhole).2 1 ?_⟩
  · intro i hi
    rw [hwhole] at hi
    cases hi
  · rw [hconsumed]
    decide

end Context
end PrintFormat
