import Mathlib
import PrintFormat.Proofs.Text.Utf8
import PrintFormat.Verification

/-!
Verdict and report of a render case. The verdict compares bytes and errors, the
report compares texts. A case that passes has equal texts in its report, and a
case whose texts differ has a difference that names the first byte where they
do. Equal texts tell less than the verdict: that the output is well-formed, and
that it came with the error that was expected, has to be known besides.
-/
namespace PrintFormat

namespace Verification

/-! ### The first difference -/

/-- A position up to which two lists are the same and at which they are not. -/
structure PartAt {α : Type} (as bs : List α) (k : Nat) : Prop where
  before : as.take k = bs.take k
  here : as[k]? ≠ bs[k]?

theorem partAt_commonLength {α : Type} [DecidableEq α] {as bs : List α} (h : as ≠ bs) :
    PartAt as bs (commonLength as bs) := by
  fun_induction commonLength as bs with
  | case1 a as bs ih =>
    obtain ⟨before, here⟩ := ih fun heq => h (by rw [heq])
    exact ⟨by rw [List.take_succ_cons, List.take_succ_cons, before], by simpa using here⟩
  | case2 a as b bs hab => exact ⟨rfl, by simpa using hab⟩
  | case3 as bs hnil =>
    refine ⟨rfl, ?_⟩
    cases as with
    | nil => cases bs <;> simp_all
    | cons a as =>
      cases bs with
      | nil => simp
      | cons b bs => exact (hnil a as b bs rfl rfl).elim

/-- The difference of two texts, with the byte that it points at. -/
def differenceAt (k : Nat) (expected actual : String) : String :=
  "--- expected\n+++ actual\n@@ byte " ++ toString k ++ " @@\n-" ++ expected ++ "\n+" ++ actual
    ++ "\n"

theorem difference_self (text : String) : difference text text = "[identical]" := by
  simp [difference]

/-- The difference of two texts that differ points at the first byte where they
do. -/
theorem difference_of_ne {expected actual : String} (h : expected ≠ actual) :
    ∃ k, PartAt (Text.encode expected) (Text.encode actual) k ∧
      difference expected actual = differenceAt k expected actual := by
  refine ⟨_, partAt_commonLength (Text.encode_injective.ne h), ?_⟩
  unfold difference
  rw [if_neg h]
  rfl

/-! ### The notation -/

theorem describe_some (output kind : String) :
    (describe output (some kind)).toList =
      output.toList ++ " [error: ".toList ++ kind.toList ++ "]".toList := by
  simp [describe]

/-- With one error behind them, outputs can be told from the notation. -/
theorem describe_left_inj {a b : String} (error : Option String) :
    describe a error = describe b error ↔ a = b := by
  cases error with
  | none => exact Iff.rfl
  | some kind =>
    rw [← String.toList_inj, describe_some, describe_some]
    simp only [List.append_assoc, List.append_cancel_right_eq, String.toList_inj]

/-- The last word of the notation is the error's name with the bracket that
closes it. -/
theorem rtakeWhile_describe (output : String) {kind : String} (hk : ' ' ∉ kind.toList) :
    (describe output (some kind)).toList.rtakeWhile (· ≠ ' ') = kind.toList ++ [']'] := by
  have hword : ∀ c ∈ (kind.toList ++ [']']).reverse, decide (c ≠ ' ') = true := by
    intro c hc
    simp only [List.mem_reverse, List.mem_append, List.mem_singleton] at hc
    obtain hc | rfl := hc
    · exact decide_eq_true fun hblank => hk (hblank ▸ hc)
    · rfl
  have hsplit : (describe output (some kind)).toList =
      (output.toList ++ " [error:".toList) ++ ' ' :: (kind.toList ++ [']']) := by
    rw [describe_some]
    simp
  rw [hsplit, List.rtakeWhile, List.reverse_append, List.reverse_cons, List.append_assoc,
    List.takeWhile_append_of_pos hword]
  simp

/-- Errors whose names hold no blank can be told from the notation. -/
theorem describe_right_inj {a b kind kind' : String} (hk : ' ' ∉ kind.toList)
    (hk' : ' ' ∉ kind'.toList) (h : describe a (some kind) = describe b (some kind')) :
    kind = kind' := by
  have hword := rtakeWhile_describe a hk
  rw [h, rtakeWhile_describe b hk', List.append_cancel_right_eq, String.toList_inj] at hword
  exact hword.symm

/-! ### Sums -/

namespace Summary

theorem passed_le_total (s : Summary) : s.passed ≤ s.total := List.countP_le_length

theorem passed_add_failed (s : Summary) : s.passed + s.failed = s.total :=
  Nat.add_sub_cancel' s.passed_le_total

theorem allPassed_iff (s : Summary) : s.allPassed = true ↔ ∀ r ∈ s.results, r.passed = true := by
  rw [allPassed, decide_eq_true_eq, failed, Nat.sub_eq_zero_iff_le, s.passed_le_total.ge_iff_eq,
    passed, total, List.countP_eq_length]

end Summary

end Verification

/-- No error's name holds a blank. -/
theorem FormatError.blank_notMem_kind (e : FormatError) : ' ' ∉ e.kind.toList := by
  cases e <;> simp only [FormatError.kind] <;> decide

/-- A destination is made if its size is within the limit. -/
theorem Sink.ofCapacity_eq_error_iff {capacity : Nat} {p : Panic} :
    ofCapacity capacity = .error p ↔ capacityLimit < capacity := by
  cases p
  unfold ofCapacity
  split
  · exact ⟨nofun, fun h => absurd h (Nat.not_lt.mpr ‹_›)⟩
  · exact iff_of_true rfl (Nat.not_le.mp ‹_›)

namespace Fixture.Case

variable {c : Case} {options : Options} {text : String}

/-! ### Which cases have a report -/

/-- Whether a case asks for a destination that cannot be made. Streams need none,
and neither does a case that fails by its arguments. -/
def overflows (c : Case) : Bool :=
  c.sink ≠ .stream && Sink.capacityLimit < c.bufferCapacity &&
    (c.arguments.mapM Argument.toArg).isOk

theorem destination_eq_error_iff {p : Panic} :
    c.destination = .error p ↔ c.sink ≠ .stream ∧ Sink.capacityLimit < c.bufferCapacity := by
  unfold destination
  cases c.sink with
  | stream => simp [pure, Except.pure]
  | buffer => simp [Sink.ofCapacity_eq_error_iff]
  | url =>
    rw [← Sink.ofCapacity_eq_error_iff (p := p)]
    cases Sink.ofCapacity c.bufferCapacity <;> simp [bind, Except.bind, pure, Except.pure]

theorem execute_eq_error_iff {p : Panic} : c.execute options = .error p ↔ c.overflows = true := by
  unfold execute overflows
  cases c.arguments.mapM Argument.toArg with
  | error e => simp [pure, Except.pure, Except.isOk, Except.toBool]
  | ok args =>
    have hdestination := destination_eq_error_iff (c := c) (p := p)
    cases hsink : c.destination <;>
      simp_all [bind, Except.bind, pure, Except.pure, Except.isOk, Except.toBool]

/-- A case without a report is one that overflows. -/
theorem verify_eq_error_iff {p : Panic} : c.verify options = .error p ↔ c.overflows = true := by
  have hexecute : c.execute options = .error p ↔ c.overflows = true := execute_eq_error_iff
  rw [← hexecute, verify]
  cases c.execute options <;> simp [Except.map]

theorem overflows_of_verify_ok {r : Verification.Result} (h : c.verify options = .ok r) :
    c.overflows = false := by
  rw [Bool.eq_false_iff]
  intro hoverflows
  have herror : c.verify options = .error .capacityOverflow := verify_eq_error_iff.mpr hoverflows
  rw [h] at herror
  cases herror

theorem verify_eq_ok_iff {r : Verification.Result} :
    c.verify options = .ok r ↔ ∃ outcome, c.execute options = .ok outcome ∧ c.report outcome = r := by
  unfold verify
  cases c.execute options <;> simp [Except.map]

/-- Whether a case has a report and passes. -/
def passes (c : Case) (options : Options) : Bool :=
  (c.verify options).toOption.any Verification.Result.passed

/-! ### What a case reports -/

/-- What a case that gives an output accepts. -/
theorem accepts_iff (htext : c.expectedOutput = some text) {out : Output} :
    c.accepts out = true ↔
      out.bytes = Text.encode text ∧ c.expectedError = out.error.map FormatError.kind := by
  rw [accepts, htext, Option.all_some, Bool.and_eq_true, decide_eq_true_eq, decide_eq_true_eq,
    eq_comm (a := out.bytes)]

theorem expected_report (c : Case) (outcome : Except InvalidArgument Output) :
    (c.report outcome).expected = c.expectation := rfl

/-- Only failed cases carry a difference. -/
theorem difference_report (outcome : Except InvalidArgument Output) :
    (c.report outcome).difference =
      if (c.report outcome).passed then none
      else some (Verification.difference c.expectation (c.report outcome).actual) := rfl

/-- A case whose arguments are none fails. -/
theorem passed_report_error (e : InvalidArgument) : (c.report (.error e)).passed = false := rfl

/-- A case that was rendered passes if its output is accepted. -/
theorem passed_report_ok (out : Output) : (c.report (.ok out)).passed = c.accepts out := rfl

theorem actual_report_ok (out : Output) :
    (c.report (.ok out)).actual =
      Verification.describe (Text.decodeLossy out.bytes) (out.error.map FormatError.kind) := rfl

/-- An output that the report tells in full: it is well-formed, and it came with
an error exactly if one is expected, by a name without blanks. -/
structure Tells (c : Case) (out : Output) : Prop where
  wellFormed : ∃ s, Text.decode? out.bytes = some s
  error : out.error.isSome = c.expectedError.isSome
  name : ∀ kind, c.expectedError = some kind → ' ' ∉ kind.toList

/-- With its output the report of a case is the expected one exactly if the
output is accepted. -/
theorem accepts_iff_of_wellFormed (htext : c.expectedOutput = some text) {out : Output} {s : String}
    (hs : out.bytes = Text.encode s) (herror : c.expectedError = out.error.map FormatError.kind) :
    c.accepts out = true ↔ c.expectation =
      Verification.describe (Text.decodeLossy out.bytes) (out.error.map FormatError.kind) := by
  rw [accepts_iff htext, expectation, htext, ← herror, Verification.describe_left_inj, hs,
    Text.decodeLossy_encode, Text.encode_injective.eq_iff, Option.getD_some, eq_comm (a := s)]
  exact and_iff_left rfl

/-- A case passes exactly if it was rendered to well-formed text with the expected
error and its report has equal texts. -/
theorem passed_report_iff (htext : c.expectedOutput = some text)
    (outcome : Except InvalidArgument Output) :
    (c.report outcome).passed = true ↔ (c.report outcome).expected = (c.report outcome).actual ∧
      ∃ out s, outcome = .ok out ∧ Text.decode? out.bytes = some s ∧
        c.expectedError = out.error.map FormatError.kind := by
  cases outcome with
  | error e =>
    rw [passed_report_error]
    simp
  | ok out =>
    rw [passed_report_ok, expected_report, actual_report_ok]
    constructor
    · intro h
      obtain ⟨hbytes, herror⟩ := (accepts_iff htext).mp h
      exact ⟨(accepts_iff_of_wellFormed htext hbytes herror).mp h, out, text, rfl,
        Text.decode?_eq_some.mpr hbytes, herror⟩
    · rintro ⟨heq, _, s, hout, hs, herror⟩
      cases hout
      exact (accepts_iff_of_wellFormed htext (Text.decode?_eq_some.mp hs) herror).mpr heq

/-- A report that tells the output in full and is the expected one has the
expected error. -/
theorem expectedError_of_tells {out : Output} (h : c.Tells out)
    (heq : c.expectation =
      Verification.describe (Text.decodeLossy out.bytes) (out.error.map FormatError.kind)) :
    c.expectedError = out.error.map FormatError.kind := by
  have herror := h.error
  unfold expectation at heq
  cases hc : c.expectedError with
  | none =>
    cases ho : out.error with
    | none => rfl
    | some e => simp [hc, ho] at herror
  | some kind =>
    cases ho : out.error with
    | none => simp [hc, ho] at herror
    | some e =>
      rw [hc, ho] at heq
      exact congrArg some (Verification.describe_right_inj (h.name kind hc) e.blank_notMem_kind heq)

/-- A case that gives an output has a report unless it overflows. It passes exactly
if it was rendered to well-formed text with the expected error and its report has
equal texts. Then it carries no difference. If it fails and the texts differ, it
carries the difference with the first byte where they do; if it fails and they are
equal, there is none to carry. On an output that the report tells in full, it
passes exactly if the texts are equal. -/
theorem verify_verdict (options : Options) (htext : c.expectedOutput = some text) :
    (c.verify options = .error .capacityOverflow ↔ c.overflows = true) ∧
    ∀ r, c.verify options = .ok r →
      (r.passed = true ↔ r.expected = r.actual ∧ ∃ out s, c.execute options = .ok (.ok out) ∧
        Text.decode? out.bytes = some s ∧ c.expectedError = out.error.map FormatError.kind) ∧
      (r.passed = true → r.difference = none) ∧
      (r.passed = false → r.expected ≠ r.actual → ∃ k,
        Verification.PartAt (Text.encode r.expected) (Text.encode r.actual) k ∧
          r.difference = some (Verification.differenceAt k r.expected r.actual)) ∧
      (r.passed = false → r.expected = r.actual → r.difference = some "[identical]") ∧
      (∀ out, c.execute options = .ok (.ok out) → c.Tells out →
        (r.passed = true ↔ r.expected = r.actual)) := by
  refine ⟨verify_eq_error_iff, fun r hr => ?_⟩
  obtain ⟨outcome, houtcome, rfl⟩ := verify_eq_ok_iff.mp hr
  rw [houtcome]
  simp only [Except.ok.injEq]
  have hiff := passed_report_iff htext outcome
  refine ⟨hiff, fun h => ?_, fun h hne => ?_, fun h heq => ?_, fun out hout htells => ?_⟩
  · rw [difference_report, if_pos h]
  · obtain ⟨k, hk, hat⟩ := Verification.difference_of_ne hne
    exact ⟨k, hk, by rw [difference_report, h, if_neg Bool.false_ne_true, ← expected_report, hat]⟩
  · rw [difference_report, h, if_neg Bool.false_ne_true, ← heq, expected_report,
      Verification.difference_self]
  · refine ⟨fun h => (hiff.mp h).1, fun heq => ?_⟩
    obtain ⟨s, hs⟩ := htells.wellFormed
    subst hout
    -- equal texts end with the same error, which is what is missing for a pass
    exact hiff.mpr ⟨heq, out, s, rfl, hs, expectedError_of_tells htells heq⟩

/-- A number that is not the expected one. -/
theorem verify_verdict_seven :
    let c : Case :=
      { name := "wrong", format := "%d", arguments := [.int 7], expectedOutput := some "8" }
    ∃ r, c.verify {} = .ok r ∧ r.passed = false ∧ ∃ k,
      Verification.PartAt (Text.encode r.expected) (Text.encode r.actual) k ∧
        r.difference = some (Verification.differenceAt k r.expected r.actual) := by
  intro c
  let r : Verification.Result :=
    { caseName := "wrong", sink := "stream", passed := false, expected := "8", actual := "7"
      difference := some "--- expected\n+++ actual\n@@ byte 0 @@\n-8\n+7\n" }
  have hr : c.verify {} = .ok r := by decide +kernel
  have hne : r.expected ≠ r.actual := by decide
  exact ⟨r, hr, rfl, ((verify_verdict {} rfl).2 r hr).2.2.1 rfl hne⟩

/-- A byte that is no text, where its replacement is expected: the case fails and
its report has equal texts. -/
theorem verify_replaced_byte :
    let c : Case :=
      { name := "byte", format := "%c", arguments := [.int 255], expectedOutput := some "\uFFFD" }
    ∃ r, c.verify {} = .ok r ∧ r.passed = false ∧ r.expected = r.actual ∧
      r.difference = some "[identical]" := by
  intro c
  let r : Verification.Result :=
    { caseName := "byte", sink := "stream", passed := false, expected := "\uFFFD"
      actual := "\uFFFD", difference := some "[identical]" }
  have hr : c.verify {} = .ok r := by decide +kernel
  exact ⟨r, hr, rfl, rfl, rfl⟩

/-- An output that reads like the notation of the error it came with. -/
example :
    let c : Case :=
      { name := "x", format := "x%d", expectedOutput := some "x [error: missing_argument]" }
    (c.verify {}).toOption.map Verification.Result.difference = some (some "[identical]") := by
  decide +kernel

end Fixture.Case

end PrintFormat
