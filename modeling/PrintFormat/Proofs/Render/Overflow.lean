import PrintFormat.Proofs.Conversion.Table
import PrintFormat.Proofs.Render.Failure

/-!
When the scratch span is exhausted. Neither the stars of a directive nor the
arguments do that, and of the conversions only those of floats, for a finite
value from 2 to the power 128 on. `Context.deliver_overflow_iff` says it of
whole renders.
-/
namespace PrintFormat

theorem Cursor.take_ne_overflow (demand : Demand) (c c' : Cursor) :
    Cursor.take demand c ≠ .error .scratchOverflow c' := by
  obtain ⟨remaining, consumed⟩ := c
  intro h
  cases remaining with
  | nil => cases h
  | cons arg rest =>
    simp only [take] at h
    cases hv : demand.pick arg with
    | none => simp only [hv, reduceCtorEq, EStateM.Result.error.injEq, false_and] at h
    | some v => simp only [hv, reduceCtorEq] at h

theorem Directive.resolved_ne_overflow (d : Directive) (c c' : Cursor) :
    d.resolved c ≠ .error .scratchOverflow c' := by
  have star {f : BitVec 64 → Directive} {c c' : Cursor} :
      (do return f (← Cursor.take .integer) : EStateM FormatError Cursor Directive) c ≠
        .error .scratchOverflow c' := by
    rw [ne_eq, Action.bind_eq_error_iff, not_or]
    exact ⟨Cursor.take_ne_overflow _ _ _, nofun⟩
  rw [ne_eq, resolved, Action.bind_eq_error_iff, not_or]
  refine ⟨?_, ?_⟩
  · unfold starWidth
    split
    · exact star
    · nofun
  · rintro ⟨d', rest, -, h⟩
    unfold starPrecision at h
    split at h
    · exact star h
    · cases h

/-- The conversions of floats, in small and in capital letters. -/
def Conversion.IsFloat (c : Conversion) : Prop := c = .standard .float ∨ c = .standard .floatUpper

theorem Standard.overflows_iff {c : Standard} {cursor rest : Cursor} {v : c.demand.Value}
    (h : Cursor.take c.demand cursor = .ok v rest) :
    c.Overflows v ↔ (Conversion.standard c).IsFloat ∧
      ∃ v rest, Cursor.take .float cursor = .ok v rest ∧ v.TooLarge := by
  have same (v : Binary64) (h : Cursor.take .float cursor = .ok v rest) :
      v.TooLarge ↔ ∃ v rest, Cursor.take .float cursor = .ok v rest ∧ v.TooLarge := by
    constructor
    · exact fun hv => ⟨v, rest, h, hv⟩
    · rintro ⟨v', rest', h', hv⟩
      rw [h] at h'
      cases h'
      exact hv
  cases c with
  | float =>
    rw [and_iff_right (show (Conversion.standard .float).IsFloat from .inl rfl)]
    exact same v h
  | floatUpper =>
    rw [and_iff_right (show (Conversion.standard .floatUpper).IsFloat from .inr rfl)]
    exact same v h
  | _ => exact iff_of_false id fun hf => by simp [Conversion.IsFloat] at hf

/-- A conversion exhausts the span if it is one of floats and what it takes is
too large. -/
theorem Conversion.taken_overflow_iff (d : Directive) (options : Options) (conversion : Conversion)
    (c : Cursor) :
    (∃ c', conversion.taken d options c = .error .scratchOverflow c') ↔
      conversion.IsFloat ∧ ∃ v rest, Cursor.take .float c = .ok v rest ∧ v.TooLarge := by
  cases conversion with
  | percentSign => exact iff_of_false nofun fun hf => by simp [IsFloat] at hf
  | extended conversion =>
    refine iff_of_false ?_ fun hf => by simp [IsFloat] at hf
    rintro ⟨c', he⟩
    obtain he | ⟨v, rest, -, he⟩ := Action.bind_eq_error_iff.mp he
    · exact Cursor.take_ne_overflow _ _ _ he
    · obtain ⟨f, s, hok⟩ := conversion.compose_ok d options v
      simp only [Scratch.onEmpty, hok, reduceCtorEq] at he
  | standard conversion =>
    constructor
    · rintro ⟨c', he⟩
      obtain he | ⟨v, rest, ht, he⟩ := Action.bind_eq_error_iff.mp he
      · exact absurd he (Cursor.take_ne_overflow _ _ _)
      · refine (Standard.overflows_iff ht).mp ((conversion.compose_overflow_iff d options).mp ?_)
        unfold Scratch.onEmpty at he
        split at he
        · cases he
        · next e s hs =>
          cases he
          exact ⟨s, hs⟩
    · rintro ⟨hc, v, rest, ht, hv⟩
      have fails {v : conversion.demand.Value} (ht : Cursor.take conversion.demand c = .ok v rest)
          (hv : conversion.Overflows v) :
          (standard conversion).taken d options c = .error .scratchOverflow rest := by
        refine (Action.bind_ok ht).trans ?_
        simp only [Scratch.onEmpty, conversion.compose_overflow d options hv]
      obtain hc | hc := hc
      · cases hc
        exact ⟨rest, fails ht hv⟩
      · cases hc
        exact ⟨rest, fails ht hv⟩

/-- The same of a conversion on a bench with an empty span. -/
theorem Conversion.field_overflow_iff (d : Directive) (options : Options) (conversion : Conversion)
    (c : Cursor) :
    (∃ b, conversion.field d options ⟨.empty, c⟩ = .error .scratchOverflow b) ↔
      conversion.IsFloat ∧ ∃ v rest, Cursor.take .float c = .ok v rest ∧ v.TooLarge := by
  rw [← conversion.taken_overflow_iff d options, conversion.taken_eq]
  cases conversion.field d options ⟨.empty, c⟩ <;> simp [Bench.forget]

theorem Standard.isFloat_byte (b : UInt8) :
    (ofByte? b = some float ∨ ofByte? b = some floatUpper) ↔ b ∈ ascii "fFeEgG" := by
  have key : ∀ n : Fin 256,
      (ofByte? (.ofFin n) = some float ∨ ofByte? (.ofFin n) = some floatUpper) ↔
        .ofFin n ∈ ascii "fFeEgG" := by decide +kernel
  exact key b.toFin

theorem Conversion.isFloat_standard (c : Standard) :
    (standard c).IsFloat ↔ c = .float ∨ c = .floatUpper := by
  simp only [IsFloat, standard.injEq]

/-- The directives of floats by the bytes that they are written with. -/
theorem Spelling.isFloat_iff (s : Spelling) :
    (∃ c, s.directive.conversion? = some c ∧ c.IsFloat) ↔
      s.bang = false ∧ ∃ b ∈ ascii "fFeEgG", s.conversion = some b := by
  have hstandard (b : UInt8) :
      (∃ c, Standard.ofByte? b = some c ∧ (Conversion.standard c).IsFloat) ↔
        b ∈ ascii "fFeEgG" := by
    rw [← Standard.isFloat_byte]
    constructor
    · rintro ⟨c, hc, hf⟩
      obtain rfl | rfl := (Conversion.isFloat_standard c).mp hf
      · exact .inl hc
      · exact .inr hc
    · rintro (hc | hc)
      · exact ⟨_, hc, .inl rfl⟩
      · exact ⟨_, hc, .inr rfl⟩
  have hextended (b : UInt8) :
      (∃ c, Extended.ofByte? b = some c ∧ (Conversion.extended c).IsFloat) ↔ b ∈ [] := by
    simp [Conversion.IsFloat]
  rw [conversion_in_iff (by simp [Conversion.IsFloat]) hstandard hextended s]
  cases s.bang with
  | true => simp
  | false => simp [and_comm]

/-- A directive of floats whose stars find numbers and whose value is too large
to be written. -/
def Spelling.TakesTooLarge (s : Spelling) (c : Cursor) : Prop :=
  (s.bang = false ∧ ∃ b ∈ ascii "fFeEgG", s.conversion = some b) ∧
    ∃ d middle v rest, s.directive.resolveStars c = .ok () (d, middle) ∧
      Cursor.take .float middle = .ok v rest ∧ v.TooLarge

theorem Segment.output_overflow_iff (options : Options) (s : Spelling) (c : Cursor) :
    (∃ c', (directive s).output options c = .error .scratchOverflow c') ↔ s.TakesTooLarge c := by
  unfold Spelling.TakesTooLarge
  rw [← s.isFloat_iff]
  cases hc : s.directive.conversion? with
  | none =>
    rw [output_copied hc]
    exact iff_of_false nofun nofun
  | some conversion =>
    rw [output_converted hc, Directive.output_eq]
    constructor
    · rintro ⟨c', he⟩
      obtain he | ⟨d, middle, hd, he⟩ := Action.bind_eq_error_iff.mp he
      · exact absurd he (Directive.resolved_ne_overflow _ _ _)
      · obtain he | ⟨f, rest, -, he⟩ := Action.bind_eq_error_iff.mp he
        · obtain ⟨hf, v, rest, ht, hv⟩ :=
            (conversion.taken_overflow_iff d options middle).mp ⟨_, he⟩
          exact ⟨⟨conversion, rfl, hf⟩, d, middle, v, rest, Directive.resolved_ok_iff.mp hd, ht, hv⟩
        · cases he
    · rintro ⟨⟨k, hk, hf⟩, d, middle, v, rest, hd, ht, hv⟩
      cases hk
      obtain ⟨c', he⟩ := (conversion.taken_overflow_iff d options middle).mpr ⟨hf, v, rest, ht, hv⟩
      exact ⟨c', (Action.bind_ok (Directive.resolved_ok_iff.mpr hd)).trans (Action.bind_error he)⟩

namespace Context

variable (context : Context) (held : Array UInt8) (format : Bytes) (args : List Arg)
  (options : Options)

/-- A render onto memory exhausts the span if and only if it reaches a directive
of floats whose value is finite and too large. No other conversion does, whatever
its directive and its arguments are. -/
theorem deliver_overflow_iff :
    ((context.deliver held format args options).outcome = .error .scratchOverflow ↔
      ∃ before s after, Segment.ofFormat format = before ++ .directive s :: after ∧
        let front := context.deliver held (before.flatMap Segment.source) args options
        (∃ n, front.outcome = .ok n) ∧
          s.TakesTooLarge ⟨args.drop front.consumed, front.consumed⟩) ∧
    ∀ (conversion : Conversion) (d : Directive) (c : Cursor),
      (∃ b, conversion.field d options ⟨.empty, c⟩ = .error .scratchOverflow b) ↔
        conversion.IsFloat ∧ ∃ v rest, Cursor.take .float c = .ok v rest ∧ v.TooLarge := by
  refine ⟨?_, fun conversion d c => conversion.field_overflow_iff d options c⟩
  simp only [deliver_stops_iff, Segment.output_overflow_iff]

end Context
end PrintFormat
