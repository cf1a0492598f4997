import PrintFormat.Proofs.Render.Arguments
import PrintFormat.Proofs.Segment.Cut

/-!
Rendering two formats put together. What goes over from the first to the second
is how far the first got in the arguments, and nothing else: the second starts
with the arguments that are left, and its errors count from there. The main
statement is `Context.deliver_append`.
-/
namespace PrintFormat

/-! ## Deliveries in a row -/

namespace Delivery

/-- The delivery with bytes in front. -/
def after (front : Bytes) (d : Delivery) : Delivery :=
  ⟨d.outcome.map (front.length + ·), front ++ d.bytes, d.consumed⟩

theorem after_after (a b : Bytes) (d : Delivery) : (d.after b).after a = d.after (a ++ b) := by
  obtain ⟨outcome, bytes, consumed⟩ := d
  cases outcome with
  | ok n => simp only [after, Except.map, List.append_assoc, List.length_append, Nat.add_assoc]
  | error e => simp only [after, Except.map, List.append_assoc]

/-- A delivery and, if it succeeds, the one that the arguments left by it come
to. Arguments are counted from the first one on. -/
def followedBy (first second : Delivery) : Delivery :=
  match first.outcome with
  | .error _ => first
  | .ok n =>
      { outcome := match second.outcome with
          | .ok m => .ok (n + m)
          | .error e => .error (e.later first.consumed)
        bytes := first.bytes ++ second.bytes
        consumed := first.consumed + second.consumed }

end Delivery

namespace Transcript

variable {options : Options}

/-- The transcript with the arguments counted from a number on. -/
def later (k : Nat) (t : Transcript) : Transcript :=
  { t with verdict := t.verdict.mapError (FormatError.later k), cursor := t.cursor.later k }

theorem later_after (k : Nat) (pieces : List Piece) (t : Transcript) :
    (t.after pieces).later k = (t.later k).after pieces := rfl

theorem ofSegments_later (parts : List Segment) (k : Nat) (c : Cursor) :
    ofSegments options parts (c.later k) = (ofSegments options parts c).later k := by
  induction parts generalizing c with
  | nil => rfl
  | cons seg rest ih =>
    have hseg := (seg.draws_output options).inOrder.later k c
    cases ho : seg.output options c with
    | ok pieces c' =>
      rw [ho] at hseg
      rw [ofSegments_cons_ok ho, ofSegments_cons_ok hseg, later_after, ih]
    | error e c' =>
      rw [ho] at hseg
      rw [ofSegments_cons_error ho, ofSegments_cons_error hseg]
      rfl

/-- The arguments that segments leave are those behind the ones they count. -/
theorem ofSegments_on (parts : List Segment) {args : List Arg} {c : Cursor} (h : c.On args) :
    (ofSegments options parts c).cursor.On args := by
  induction parts generalizing c with
  | nil => exact h
  | cons seg rest ih =>
    have hseg := (seg.draws_output options).inOrder.on args c h
    cases ho : seg.output options c with
    | ok pieces c' =>
      rw [ho] at hseg
      rw [ofSegments_cons_ok ho]
      exact ih hseg
    | error e c' =>
      rw [ho] at hseg
      rw [ofSegments_cons_error ho]
      exact hseg

theorem ofSegments_append_ok {a : List Segment} {c : Cursor}
    (h : (ofSegments options a c).verdict = .ok ()) (b : List Segment) :
    ofSegments options (a ++ b) c =
      (ofSegments options b (ofSegments options a c).cursor).after
        (ofSegments options a c).pieces := by
  induction a generalizing c with
  | nil => rfl
  | cons seg rest ih =>
    cases ho : seg.output options c with
    | ok pieces c' =>
      rw [ofSegments_cons_ok ho] at h
      rw [List.cons_append, ofSegments_cons_ok ho, ofSegments_cons_ok ho, ih h]
      simp only [after, List.append_assoc]
    | error e c' =>
      rw [ofSegments_cons_error ho] at h
      cases h

theorem ofSegments_append_error {a : List Segment} {c : Cursor} {e : FormatError}
    (h : (ofSegments options a c).verdict = .error e) (b : List Segment) :
    ofSegments options (a ++ b) c = ofSegments options a c := by
  induction a generalizing c with
  | nil => cases h
  | cons seg rest ih =>
    cases ho : seg.output options c with
    | ok pieces c' =>
      rw [ofSegments_cons_ok ho] at h
      rw [List.cons_append, ofSegments_cons_ok ho, ofSegments_cons_ok ho, ih h]
    | error e' c' =>
      rw [List.cons_append, ofSegments_cons_error ho, ofSegments_cons_error ho]

theorem delivery_after (pieces : List Piece) (t : Transcript) :
    (t.after pieces).delivery = t.delivery.after (pieces.flatMap Piece.text) := by
  simp only [delivery, Delivery.after, text_after]
  simp only [after, List.length_append]
  cases t.verdict <;> rfl

/-- A literal run that goes on over a seam delivers what its two parts do. -/
theorem delivery_join (a b : List Segment) (c : Cursor) :
    (ofSegments options (Segment.join a b) c).delivery =
      (ofSegments options (a ++ b) c).delivery := by
  fun_induction Segment.join a b generalizing c with
  | case1 after => rfl
  -- the seam is within a run, which comes out as one piece instead of two
  | case2 x y rest =>
    have hrun (text : Bytes) : (Segment.literal text).output options c = .ok [.bytes text] c := rfl
    rw [List.cons_append, List.nil_append, ofSegments_cons_ok (hrun _), ofSegments_cons_ok (hrun x),
      ofSegments_cons_ok (hrun y), delivery_after, delivery_after, delivery_after,
      Delivery.after_after]
    simp only [List.flatMap_cons, List.flatMap_nil, List.append_nil, Piece.text]
  | case3 seg before after hne ih =>
    cases ho : seg.output options c with
    | ok pieces c' =>
      rw [List.cons_append, ofSegments_cons_ok ho, ofSegments_cons_ok ho, delivery_after,
        delivery_after, ih]
    | error e c' =>
      rw [List.cons_append, ofSegments_cons_error ho, ofSegments_cons_error ho]

/-- The second of two formats as its own transcript, counted on. -/
theorem ofSegments_left {args : List Arg} {c : Cursor} (h : c.On args) (parts : List Segment) :
    ofSegments options parts c =
      (ofSegments options parts ⟨args.drop c.consumed, 0⟩).later c.consumed := by
  rw [← ofSegments_later, ← h]
  rfl

/-- What is behind a delivery that succeeds is counted on from it. -/
theorem followedBy_delivery {first : Delivery} (h : first.outcome = .ok first.bytes.length)
    (second : Transcript) :
    first.followedBy second.delivery =
      (second.later first.consumed).delivery.after first.bytes := by
  obtain ⟨pieces, verdict, cursor⟩ := second
  simp only [Delivery.followedBy, h]
  cases verdict <;> rfl

/-- Segments in a row deliver one after the other. -/
theorem delivery_append (a b : List Segment) (args : List Arg) :
    let first := (ofSegments options a ⟨args, 0⟩).delivery
    (ofSegments options (a ++ b) ⟨args, 0⟩).delivery =
      first.followedBy (ofSegments options b ⟨args.drop first.consumed, 0⟩).delivery := by
  intro first
  have hon : (ofSegments options a ⟨args, 0⟩).cursor.On args := ofSegments_on a rfl
  cases hv : (ofSegments options a ⟨args, 0⟩).verdict with
  | error e =>
    have hfirst : first.outcome = .error e := by
      simp only [first, delivery, hv]
      rfl
    rw [ofSegments_append_error hv, Delivery.followedBy, hfirst]
  | ok _ =>
    have hfirst : first.outcome = .ok first.bytes.length := by
      simp only [first, delivery, hv]
      rfl
    rw [ofSegments_append_ok hv, ofSegments_left hon, delivery_after]
    exact (followedBy_delivery hfirst _).symm

end Transcript

/-! ## Formats in a row -/

/-- An empty format delivers nothing and takes no argument. -/
theorem Context.deliver_nil (context : Context) (held : Array UInt8) (args : List Arg)
    (options : Options) : context.deliver held [] args options = ⟨.ok 0, [], 0⟩ := by
  rw [Context.deliver_eq, Transcript.ofFormat, Segment.ofFormat_nil]
  rfl

/-- A format that does not end within a directive, and another one behind it. If
the first fails, the whole fails as it does and delivers what it delivers. Else
the whole delivers the output of the first and then that of the second on the
arguments that are left, and it ends as the second does. -/
theorem Context.deliver_append (context : Context) (held : Array UInt8) {f : Bytes}
    (hf : Segment.Complete f) (g : Bytes) (args : List Arg) (options : Options) :
    let first := context.deliver held f args options
    context.deliver held (f ++ g) args options =
      first.followedBy (context.deliver held g (args.drop first.consumed) options) := by
  simp only [Context.deliver_eq, Transcript.ofFormat]
  rw [Segment.ofFormat_append hf, Transcript.delivery_join, Transcript.delivery_append]

/-- A number and a dash in front of a format whose second argument is missing:
the error counts the argument of the number too. -/
theorem Context.deliver_append_missing :
    let f := ascii "%d-"
    let g := ascii "%x%s"
    let args := [.int 7, .uint 8]
    let first := Context.deliver {} #[] f args {}
    Segment.Complete f ∧ first.outcome = .ok 2 ∧
      Context.deliver {} #[] (f ++ g) args {} =
        first.followedBy (Context.deliver {} #[] g (args.drop first.consumed) {}) ∧
      (Context.deliver {} #[] (f ++ g) args {}).outcome = .error (.missingArgument 2) := by
  have hsegs : Segment.ofFormat (ascii "%d-") =
      [.directive (Spelling.read (ascii "d-")).1, .literal (ascii "-")] := by cbv
  have hf : Segment.Complete (ascii "%d-") := by
    intro s hs
    rw [hsegs] at hs
    obtain rfl : s = (Spelling.read (ascii "d-")).1 := by simpa using hs
    rfl
  exact ⟨hf, by cbv, Context.deliver_append {} #[] hf _ _ {}, by cbv⟩

end PrintFormat
