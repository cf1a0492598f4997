import PrintFormat.Proofs.Conversion.Overflow
import PrintFormat.Proofs.Render.Arguments
import PrintFormat.Proofs.Render.Transcript
import PrintFormat.Proofs.Segment.Cut

/-!
Plain directives: no star, width, precision or sign, no filling with zeros. The
field of such a directive is put out as it is (`Segment.output_plain`), an
integer's field is its numeral and nothing else, and a format that is one plain
directive renders to the text that its conversion composes (`formatBytes_plain`).
-/
namespace PrintFormat

/-- A directive that says nothing of how its text is shown. -/
structure Directive.Plain (d : Directive) : Prop where
  width : d.width = {}
  precision : d.precision = {}
  zeroFill : d.zeroFill = false
  sign : d.sign = .omit

/-! ## Fields -/

namespace Directive.Plain

variable {d : Directive} (h : d.Plain)

include h

theorem places?_eq_none : d.places? = none := by
  rw [places?, h.precision]
  rfl

theorem withPrecision_eq (signed : Bool) (mark : Bytes) (s : Scratch) :
    d.withPrecision signed mark s = s := by
  rw [withPrecision, h.places?_eq_none]

theorem resolved_eq (c : Cursor) : d.resolved c = .ok d c := by
  have hwidth : d.starWidth c = .ok d c := by
    simp only [starWidth, h.width, Bool.false_eq_true, if_false]
    rfl
  have hprecision : d.starPrecision c = .ok d c := by
    simp only [starPrecision, h.precision, Bool.false_eq_true, if_false]
    rfl
  exact (Action.bind_ok hwidth).trans hprecision

/-- An unsigned number is its numeral. -/
theorem convertUnsigned_eq (bits : Nat) (v : BitVec 64) (b : Base) (upper : Bool) :
    ∃ s, convertUnsigned d bits v b upper (fun _ => []) .empty =
      .ok { body := b.text upper (v.setWidth bits).toNat } s := by
  have hlength := Nat.le_trans (b.length_text_word_le upper v bits) (by decide : 64 ≤ scratchCapacity)
  let s : Scratch := ⟨b.text upper (v.setWidth bits).toNat, hlength⟩
  have hmark : shownMark [] s.text = [] := if_neg fun h => nomatch h.1
  have hfinish := finishInteger_unsigned (h.withPrecision_eq false [] s) (hmark.symm ▸ s.fits)
  simp only [hmark, h.width, h.zeroFill] at hfinish
  exact ⟨s, (Action.bind_ok (Scratch.pushText_empty hlength)).trans hfinish⟩

/-- A signed number is its numeral. -/
theorem convertSigned_eq (options : Options) (v : BitVec 64) :
    ∃ head s, Standard.signed.compose d options v .empty =
      .ok { body := intText (v.setWidth (d.size.bits options.intWidth)).toInt, head } s := by
  have hlength := Nat.le_trans
    (length_intText_le (natAbs_toInt_setWidth_le (d.size.bits_le options.intWidth) v))
    (by decide : 20 ≤ scratchCapacity)
  let s : Scratch := ⟨intText (v.setWidth (d.size.bits options.intWidth)).toInt, hlength⟩
  have hsign : d.sign.added s.text = [] := by
    rw [h.sign, SignDisplay.added]
    exact ite_self _
  have hfinish := finishInteger_signed (h.withPrecision_eq true [] s) (hsign.symm ▸ s.fits)
  simp only [hsign, h.width, h.zeroFill] at hfinish
  exact ⟨_, s, (Action.bind_ok (Scratch.pushText_empty hlength)).trans hfinish⟩

/-- A text that the span has room for is the field. -/
theorem composeText_eq {text : Bytes} (hlength : text.length ≤ scratchCapacity) :
    ∃ s, composeText d text .empty = .ok { body := text } s := by
  have hcompose := composeText_ok (d := d) hlength
  rw [h.width] at hcompose
  exact ⟨_, hcompose⟩

end Directive.Plain

/-! ## Output -/

theorem flatMap_aligned_zero (byte : UInt8) (text : Bytes) :
    (aligned 0 byte text).flatMap Piece.text = text := by
  simp [aligned, fillCount, Piece.text]

/-- A field without a width is its text. -/
theorem Field.flatMap_pieces {f : Field} (h : f.width = 0) :
    f.pieces.flatMap Piece.text = f.body := by
  have hnone : ¬(f.zeroFill && decide (0 < f.width)) = true := by simp [h]
  rw [pieces, if_neg hnone, h, flatMap_aligned_zero]

namespace Conversion

variable {d : Directive} {options : Options} {arg : Arg} {f : Field}

theorem taken_standard {c : Standard} {v : c.demand.Value} (hpick : c.demand.pick arg = some v)
    {s : Scratch} (h : c.compose d options v .empty = .ok f s) (rest : List Arg) (k : Nat) :
    (standard c).taken d options ⟨arg :: rest, k⟩ = .ok f ⟨rest, k + 1⟩ := by
  have htake : Cursor.take c.demand ⟨arg :: rest, k⟩ = .ok v ⟨rest, k + 1⟩ := by
    simp only [Cursor.take, hpick]
  refine (Action.bind_ok htake).trans ?_
  simp only [Scratch.onEmpty, h]

theorem taken_extended {c : Extended} {v : c.demand.Value} (hpick : c.demand.pick arg = some v)
    {s : Scratch} (h : c.compose d options v .empty = .ok f s) (rest : List Arg) (k : Nat) :
    (extended c).taken d options ⟨arg :: rest, k⟩ = .ok f ⟨rest, k + 1⟩ := by
  have htake : Cursor.take c.demand ⟨arg :: rest, k⟩ = .ok v ⟨rest, k + 1⟩ := by
    simp only [Cursor.take, hpick]
  refine (Action.bind_ok htake).trans ?_
  simp only [Scratch.onEmpty, h]

end Conversion

/-- The only segment of a format that is one directive. -/
theorem Segment.ofFormat_directive {text : Bytes} {s : Spelling}
    (h : Spelling.read text = (s, [])) : ofFormat (percent :: text) = [directive s] := by
  rw [ofFormat_percent, h, ofFormat_nil]

/-- A plain directive puts its text out as it is. -/
theorem Segment.output_plain {s : Spelling} (h : s.directive.Plain) {c : Conversion}
    (hc : s.directive.conversion? = some c) {options : Options} {cursor after : Cursor}
    {text : Bytes} {head : Nat}
    (htaken : c.taken s.directive options cursor = .ok { body := text, head } after) :
    (directive s).output options cursor = .ok (aligned 0 blank text) after := by
  rw [output_converted hc, Directive.output_eq, Action.bind_ok (h.resolved_eq cursor),
    Action.bind_ok htaken]
  rfl

/-! ## Renders -/

theorem formatBytes_eq (format : Bytes) (args : List Arg) (options : Options) :
    formatBytes format args options =
      (Transcript.ofFormat options format args).verdict.map fun _ =>
        (Transcript.ofFormat options format args).text := by
  obtain ⟨houtcome, hsink, -⟩ := Context.render_memory {} format args options 0 #[]
  change (Context.render {} .empty format args options).outcome.map _ = _
  change (Context.render {} .empty format args options).outcome = _ at houtcome
  change (Context.render {} .empty format args options).sink = _ at hsink
  rw [render, houtcome, hsink]
  cases (Transcript.ofFormat options format args).verdict <;>
    simp [Except.map, Sink.contents, Target.contents, Percent.encodeTimes]

/-- A format that is one plain directive renders to the text of its conversion. -/
theorem formatBytes_plain {format : Bytes} {s : Spelling}
    (hformat : Segment.ofFormat format = [.directive s]) (h : s.directive.Plain) {c : Conversion}
    (hc : s.directive.conversion? = some c) {options : Options} {args rest : List Arg}
    {text : Bytes} {k head : Nat}
    (htaken : c.taken s.directive options ⟨args, 0⟩ = .ok { body := text, head } ⟨rest, k⟩) :
    formatBytes format args options = .ok text := by
  have houtput := Segment.output_plain h hc htaken
  rw [formatBytes_eq, Transcript.ofFormat, hformat, Transcript.ofSegments_cons_ok houtput,
    Transcript.text_after, flatMap_aligned_zero]
  change Except.ok (text ++ []) = _
  rw [List.append_nil]

/-- An extended conversion that composes a text. -/
theorem formatBytes_composed {format : Bytes} {s : Spelling}
    (hformat : Segment.ofFormat format = [.directive s]) (hplain : s.directive.Plain)
    {c : Extended} (hc : s.directive.conversion? = some (.extended c)) {arg : Arg}
    {v : c.demand.Value} (hpick : c.demand.pick arg = some v) {text : Bytes}
    (hlength : text.length ≤ scratchCapacity) {options : Options}
    (hcompose : c.compose s.directive options v = composeText s.directive text) :
    formatBytes format [arg] options = .ok text := by
  obtain ⟨t, htext⟩ := hplain.composeText_eq hlength
  rw [← hcompose] at htext
  exact formatBytes_plain hformat hplain hc (Conversion.taken_extended hpick htext [] 0)

theorem formatBytes_utc (t : CivilTime) (options : Options) :
    formatBytes (ascii "%!Z") [.time t] options = .ok t.utcText := by
  have hformat : Segment.ofFormat (ascii "%!Z") =
      [.directive { bang := true, conversion := some 90 }] :=
    Segment.ofFormat_directive rfl
  exact formatBytes_composed hformat ⟨rfl, rfl, rfl, rfl⟩ (c := .utc) rfl rfl
    (Nat.le_trans t.length_utcText_le (by decide)) rfl

end PrintFormat
