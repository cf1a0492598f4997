import PrintFormat.Proofs.Render.Arguments
import PrintFormat.Proofs.Render.Failure

/-!
Renders behind a percent encoding. `Percent.Encoded` says which texts an
encoding leaves, `Percent.decode` reads one back, and `decode_encode` is the
round trip. `Context.render_encoded` puts this on renders: what one delivers
behind an encoding is the encoding of what it delivers without, however the
output comes in pieces, and a destination of limited size gets the front of it.
-/
namespace PrintFormat

namespace Percent

/-! ## Encoded texts -/

/-- A digit of an escape: `0` to `9` or `A` to `F`. -/
def isEscapeDigit (b : UInt8) : Bool := isDigit b || (65 ≤ b && b ≤ 70)

/-- A text of letters and digits, and of escapes with two upper-case digits. -/
inductive Encoded : Bytes → Prop
  | nil : Encoded []
  | plain {b : UInt8} {rest : Bytes} : isAlphanumeric b = true → Encoded rest → Encoded (b :: rest)
  | escape {high low : UInt8} {rest : Bytes} : isEscapeDigit high = true →
      isEscapeDigit low = true → Encoded rest → Encoded (percent :: high :: low :: rest)

/-- The value of a hexadecimal digit, in small or in capital letters. -/
def hexValue? (b : UInt8) : Option Nat :=
  if isDigit b then some (b.toNat - 48)
  else if 65 ≤ b && b ≤ 70 then some (b.toNat - 55)
  else if 97 ≤ b && b ≤ 102 then some (b.toNat - 87)
  else none

/-- The byte that an escape stands for, by what is behind its `%`. -/
def escaped? (high low : UInt8) : Option UInt8 := do
  return ((← hexValue? high) * 16 + (← hexValue? low)).toUInt8

/-- A text percent-decoded. A `%` with two hexadecimal digits behind it is the
byte that they write; any other byte stands for itself. -/
def decode : Bytes → Bytes
  | b :: high :: low :: rest =>
      match (escaped? high low).filter fun _ => b = percent with
      | some c => c :: decode rest
      | none => b :: decode (high :: low :: rest)
  | b :: rest => b :: decode rest
  | [] => []

theorem escape_eq_digits (b : UInt8) :
    escape b = [percent, digitByte true (b.toNat / 16), digitByte true (b.toNat % 16)] := by
  have hhigh : b.toNat / 16 % 16 = b.toNat / 16 := Nat.mod_eq_of_lt (by have := b.toNat_lt; omega)
  simp [escape, places, hhigh]

theorem isEscapeDigit_digitByte {d : Nat} (h : d < 16) :
    isEscapeDigit (digitByte true d) = true := by
  have key : ∀ d : Fin 16, isEscapeDigit (digitByte true d) = true := by decide
  exact key ⟨d, h⟩

theorem hexValue?_digitByte {d : Nat} (h : d < 16) : hexValue? (digitByte true d) = some d := by
  have key : ∀ d : Fin 16, hexValue? (digitByte true d) = some d.val := by decide
  exact key ⟨d, h⟩

theorem ne_percent_of_isAlphanumeric {b : UInt8} (h : isAlphanumeric b = true) : b ≠ percent := by
  rintro rfl
  exact absurd h (by decide)

/-- An encoding is encoded, whatever it is in front of. -/
theorem encoded_append (text : Bytes) {rest : Bytes} (h : Encoded rest) :
    Encoded (encode text ++ rest) := by
  induction text with
  | nil => exact h
  | cons b text ih =>
    have hcons : encode (b :: text) ++ rest = encodeByte b ++ (encode text ++ rest) := by
      rw [encode, List.flatMap_cons, List.append_assoc, ← encode]
    rw [hcons, encodeByte]
    split
    · next hb => exact .plain hb ih
    · rw [escape_eq_digits]
      have := b.toNat_lt
      exact .escape (isEscapeDigit_digitByte (by omega)) (isEscapeDigit_digitByte (by omega)) ih

theorem encoded_encode (text : Bytes) : Encoded (encode text) := by
  have h := encoded_append text .nil
  rwa [List.append_nil] at h

/-! ## The round trip -/

/-- A byte that opens no escape stands for itself. -/
theorem decode_cons {b : UInt8} (h : b ≠ percent) (rest : Bytes) :
    decode (b :: rest) = b :: decode rest := by
  match rest with
  | [] => rfl
  | [_] => rfl
  | high :: low :: rest =>
    have hnone : (escaped? high low).filter (fun _ => b = percent) = none :=
      Option.filter_eq_none_iff.mpr fun _ _ => by simpa using h
    rw [decode, hnone]

theorem decode_escape (b : UInt8) (rest : Bytes) : decode (escape b ++ rest) = b :: decode rest := by
  have hb := b.toNat_lt
  have hbyte : (b.toNat / 16 * 16 + b.toNat % 16).toUInt8 = b := by
    rw [Nat.div_add_mod', Nat.toUInt8_eq, UInt8.ofNat_toNat]
  have hescaped : escaped? (digitByte true (b.toNat / 16)) (digitByte true (b.toNat % 16)) =
      some b := by
    simp only [escaped?, hexValue?_digitByte (show b.toNat / 16 < 16 by omega),
      hexValue?_digitByte (show b.toNat % 16 < 16 by omega), Option.bind_eq_bind,
      Option.bind_some, Option.pure_def, hbyte]
  rw [escape_eq_digits, List.cons_append, List.cons_append, List.cons_append, List.nil_append,
    decode, hescaped]
  rfl

theorem decode_encode_append (text rest : Bytes) :
    decode (encode text ++ rest) = text ++ decode rest := by
  induction text with
  | nil => rfl
  | cons b text ih =>
    rw [encode, List.flatMap_cons, List.append_assoc, ← encode, encodeByte]
    split
    · next hb =>
      rw [List.singleton_append, decode_cons (ne_percent_of_isAlphanumeric hb), ih]
      rfl
    · rw [decode_escape, ih]
      rfl

/-- A text comes back from its encoding. -/
theorem decode_encode (text : Bytes) : decode (encode text) = text := by
  have h := decode_encode_append text []
  rwa [List.append_nil, decode, List.append_nil] at h

end Percent

/-! ## Errors of directives -/

/-- An error that is none of a destination. -/
def FormatError.IsOfDirective : FormatError → Prop
  | io _ | bufferOverflow _ => False
  | scratchOverflow | missingArgument _ | argumentMismatch _ _ => True

theorem Cursor.take_error_isOfDirective {demand : Demand} {c c' : Cursor} {e : FormatError}
    (h : take demand c = .error e c') : e.IsOfDirective := by
  obtain ⟨remaining, consumed⟩ := c
  cases remaining with
  | nil =>
    cases h
    trivial
  | cons arg rest =>
    simp only [take] at h
    cases hv : demand.pick arg with
    | none =>
      rw [hv] at h
      cases h
      trivial
    | some v =>
      rw [hv] at h
      cases h

/-- Taking arguments fails with no error of a destination. -/
theorem Draws.error_isOfDirective {α : Type} {act : EStateM FormatError Cursor α} (h : Draws act)
    {c c' : Cursor} {e : FormatError} (he : act c = .error e c') : e.IsOfDirective := by
  induction h generalizing c c' with
  | pure a => cases he
  | overflow =>
    cases he
    trivial
  | take demand => exact Cursor.take_error_isOfDirective he
  | bind _ _ ih ihnext =>
    obtain he | ⟨a, u, -, he⟩ := Action.bind_eq_error_iff.mp he
    · exact ih he
    · exact ihnext a he

theorem Transcript.error_isOfDirective {options : Options} {parts : List Segment} {c : Cursor}
    {e : FormatError} (h : (ofSegments options parts c).verdict = .error e) : e.IsOfDirective := by
  obtain ⟨before, seg, after, hstop⟩ := verdict_eq_error_iff.mp h
  obtain ⟨c', he⟩ := hstop.error
  exact (seg.draws_output options).error_isOfDirective he

/-- No directive overflows a buffer. -/
theorem Transcript.map_verdict_ne_bufferOverflow {α : Type} {options : Options}
    {parts : List Segment} {c : Cursor} (answer : Unit → α) (capacity : Nat) :
    (ofSegments options parts c).verdict.map answer ≠ .error (.bufferOverflow capacity) := by
  intro h
  cases hv : (ofSegments options parts c).verdict with
  | ok _ =>
    rw [hv] at h
    cases h
  | error e =>
    rw [hv] at h
    have hdirective := error_isOfDirective hv
    cases h
    exact hdirective

theorem Target.write_error {bytes : Bytes} {s t : Target} {e : FormatError}
    (h : write bytes s = .error e t) : ¬e.IsOfDirective := by
  cases s with
  | memory held => cases h
  | buffer b =>
    simp only [write] at h
    split at h <;> cases h
    exact not_false
  | stream w n =>
    simp only [write] at h
    split at h <;> cases h
    exact not_false

/-- A destination refuses output with an error of its own. -/
theorem Sink.putAll_error {pieces : List Piece} {s t : Sink} {e : FormatError}
    (h : putAll pieces s = .error e t) : ¬e.IsOfDirective := by
  obtain ⟨n, target⟩ := s
  rw [putAll_eq] at h
  cases hwrite : Target.writeEach (texts n pieces) target with
  | ok _ u =>
    rw [onTarget_ok hwrite] at h
    cases h
  | error e' u =>
    rw [onTarget_error hwrite] at h
    cases h
    exact Action.forM_error (fun _ _ _ _ => Target.write_error) hwrite

theorem FormatError.later_of_not {e : FormatError} (h : ¬e.IsOfDirective) (k : Nat) :
    e.later k = e := by
  cases e with
  | io _ | bufferOverflow _ => rfl
  | scratchOverflow | missingArgument _ | argumentMismatch _ _ => exact absurd trivial h

/-! ## Renders -/

theorem Sink.limited_onto_encoded (cells : Array UInt8) :
    Target.Limited cells.size (.bufferOverflow cells.size) (onto cells).encoded.target :=
  ⟨rfl, rfl⟩

theorem Sink.contents_onto_encoded (cells : Array UInt8) : (onto cells).encoded.contents = [] := by
  show (Buffer.filled { cells }).toList = []
  rw [Buffer.toList_filled, List.take_zero]

/-- The front of what output of some pieces comes to behind an encoding, on a
buffer over a destination. -/
theorem Sink.putAll_onto_encoded (cells : Array UInt8) (pieces : List Piece) :
    let text := Percent.encode (pieces.flatMap Piece.text)
    ∃ s : Sink, s.contents = text.take cells.size ∧
      putAll pieces (onto cells).encoded =
        if text.length ≤ cells.size then .ok () s else .error (.bufferOverflow cells.size) s := by
  intro text
  obtain ⟨s, -, -, hcontents, hrun⟩ := putAll_limited (limited_onto_encoded cells) pieces
  rw [contents_onto_encoded, List.nil_append] at hcontents hrun
  refine ⟨s, hcontents, ?_⟩
  by_cases hfit : text.length ≤ cells.size
  · rw [if_pos hfit]
    exact ((if_pos hfit).mp hrun).1
  · rw [if_neg hfit]
    exact (if_neg hfit).mp hrun

namespace Context

variable (context : Context) (format : Bytes) (args : List Arg) (options : Options)

/-- A render onto an empty buffer behind an encoding. -/
theorem render_onto_encoded (cells : Array UInt8) :
    let t := Transcript.ofFormat options format args
    let text := Percent.encode t.text
    let r := context.render (Sink.onto cells).encoded format args options
    r.sink.contents = text.take cells.size ∧
      r.outcome = if text.length ≤ cells.size then t.verdict.map fun _ => text.length
        else .error (.bufferOverflow cells.size) := by
  intro t text r
  obtain ⟨-, -, hcontents, houtcome⟩ :=
    context.render_limited _ format args options (Sink.limited_onto_encoded cells)
  rw [Sink.contents_onto_encoded, List.nil_append] at hcontents houtcome
  refine ⟨hcontents, ?_⟩
  by_cases hfit : text.length ≤ cells.size
  · rw [if_pos hfit]
    exact ((if_pos hfit).mp houtcome).1
  · rw [if_neg hfit]
    exact (if_neg hfit).mp houtcome

/-- A render onto empty memory behind any number of encodings. -/
theorem render_onto_memory (n : Nat) :
    let t := Transcript.ofFormat options format args
    let r := context.render ⟨n, .memory #[]⟩ format args options
    r.sink.contents = Percent.encodeTimes n t.text ∧
      r.outcome = t.verdict.map fun _ => (Percent.encodeTimes n t.text).length := by
  intro t r
  obtain ⟨houtcome, hsink, -⟩ := context.render_memory format args options n #[]
  refine ⟨?_, houtcome⟩
  show (context.render ⟨n, .memory #[]⟩ format args options).sink.contents = _
  rw [hsink]
  exact (Array.toList_appendList).trans (List.nil_append _)

/-- Renders onto memory, plainly, behind one encoding and behind two, and onto a
buffer behind one. The encoding is letters, digits and escapes, decodes to the
plain bytes and ends as the plain render does, with its own length; the second
one encodes the first. A buffer gets what it has room for, and it overflows
exactly if that is not all. It is the same for any output: only the bytes of its
pieces count. -/
theorem render_encoded :
    let rendered (sink : Sink) := context.render sink format args options
    let plain := (rendered .empty).sink.contents
    let url := (rendered Sink.empty.encoded).sink.contents
    Percent.Encoded url ∧ Percent.decode url = plain ∧ url = Percent.encode plain ∧
      (rendered Sink.empty.encoded).outcome =
        (rendered .empty).outcome.map (fun _ => url.length) ∧
      (rendered Sink.empty.encoded.encoded).sink.contents = Percent.encode url ∧
      ∀ cells : Array UInt8,
        let bounded := rendered (Sink.onto cells).encoded
        bounded.sink.contents = url.take cells.size ∧
          (bounded.outcome = .error (.bufferOverflow cells.size) ↔ cells.size < url.length) ∧
          bounded.outcome = (if url.length ≤ cells.size then (rendered Sink.empty.encoded).outcome
            else .error (.bufferOverflow cells.size)) ∧
          ∀ pieces : List Piece,
            let text := Percent.encode (pieces.flatMap Piece.text)
            ∃ s : Sink, s.contents = text.take cells.size ∧
              Sink.putAll pieces (Sink.onto cells).encoded =
                if text.length ≤ cells.size then .ok () s
                else .error (.bufferOverflow cells.size) s := by
  intro rendered plain url
  let t := Transcript.ofFormat options format args
  obtain ⟨hplain, hplainOutcome⟩ := context.render_onto_memory format args options 0
  obtain ⟨hurl, hurlOutcome⟩ := context.render_onto_memory format args options 1
  obtain ⟨htwice, -⟩ := context.render_onto_memory format args options 2
  change plain = t.text at hplain
  change url = Percent.encode t.text at hurl
  change (rendered .empty).outcome = t.verdict.map fun _ => t.text.length at hplainOutcome
  change (rendered Sink.empty.encoded).outcome =
    t.verdict.map fun _ => (Percent.encode t.text).length at hurlOutcome
  rw [← hurl] at hurlOutcome
  refine ⟨?_, ?_, ?_, ?_, ?_, fun cells => ?_⟩
  · rw [hurl]
    exact Percent.encoded_encode t.text
  · rw [hurl, hplain]
    exact Percent.decode_encode t.text
  · rw [hurl, hplain]
  · rw [hurlOutcome, hplainOutcome]
    cases t.verdict <;> rfl
  · rw [hurl]
    exact htwice
  · obtain ⟨hfront, hbounded⟩ := context.render_onto_encoded format args options cells
    change _ = (Percent.encode t.text).take cells.size at hfront
    change _ = if (Percent.encode t.text).length ≤ cells.size then t.verdict.map _ else _ at hbounded
    rw [← hurl] at hfront hbounded
    refine ⟨hfront, ?_, ?_, Sink.putAll_onto_encoded cells⟩
    · rw [hbounded]
      by_cases hfit : url.length ≤ cells.size
      · -- what fits ends as the directives do, and none of them overflows a buffer
        rw [if_pos hfit]
        exact iff_of_false (Transcript.map_verdict_ne_bufferOverflow _ _) (Nat.not_lt.mpr hfit)
      · rw [if_neg hfit]
        exact iff_of_true rfl (Nat.not_le.mp hfit)
    · rw [hbounded, hurlOutcome]

end Context

end PrintFormat
