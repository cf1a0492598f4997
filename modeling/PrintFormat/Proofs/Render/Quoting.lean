import PrintFormat.Proofs.Render.Concatenation

/-!
Text within a format. With each percent sign of it doubled a text stands for
itself, whatever is written next to it: a doubled sign is a directive that ends
with its second byte, and between two of them a run may go on over the seam but
delivers the same. `Context.deliver_quoted` says it of a text on its own and of
one between two formats.
-/
namespace PrintFormat

/-- A byte as it is written in a format to stand for itself. -/
def quotedByte (b : UInt8) : Bytes := if b = percent then [percent, percent] else [b]

/-- A text as it is written in a format, each percent sign of it doubled. -/
def quoted (text : Bytes) : Bytes := text.flatMap quotedByte

theorem quoted_cons (b : UInt8) (text : Bytes) :
    quoted (b :: text) = quotedByte b ++ quoted text := List.flatMap_cons

namespace Segment

/-- The segment that a byte is written as. -/
def ofByte (b : UInt8) : Segment :=
  if b = percent then directive { conversion := some percent } else literal [b]

theorem ofFormat_quotedByte (b : UInt8) : ofFormat (quotedByte b) = [ofByte b] := by
  by_cases hb : b = percent
  · rw [quotedByte, ofByte, if_pos hb, if_pos hb]
    cbv
  · have hliteral : isLiteral b = true := by simpa [isLiteral] using hb
    rw [quotedByte, ofByte, if_neg hb, if_neg hb, ofFormat_literal hliteral]
    rw [List.takeWhile_nil, List.dropWhile_nil, ofFormat_nil]

theorem complete_quotedByte (b : UInt8) : Complete (quotedByte b) := by
  intro s hs
  rw [ofFormat_quotedByte, List.mem_singleton, ofByte] at hs
  split at hs
  · cases hs
    rfl
  · cases hs

/-- A byte is put out on its own, and takes no argument. -/
theorem output_ofByte (options : Options) (b : UInt8) :
    ∃ pieces, pieces.flatMap Piece.text = [b] ∧
      ∀ c, (ofByte b).output options c = .ok pieces c := by
  by_cases hb : b = percent
  · rw [ofByte, if_pos hb, hb]
    exact ⟨Field.pieces { body := [percent] }, rfl, fun c => rfl⟩
  · rw [ofByte, if_neg hb]
    exact ⟨[.bytes [b]], rfl, fun c => rfl⟩

end Segment

/-- A quoted text in front of a format puts itself in front of the output. -/
theorem Transcript.delivery_quoted_append (options : Options) (text g : Bytes) (c : Cursor) :
    (ofSegments options (Segment.ofFormat (quoted text ++ g)) c).delivery =
      (ofSegments options (Segment.ofFormat g) c).delivery.after text := by
  induction text with
  | nil => exact (delivery_after [] _)
  | cons b text ih =>
    obtain ⟨pieces, htext, hout⟩ := Segment.output_ofByte options b
    -- each byte is a format of its own, which does not look at what is behind it
    rw [quoted_cons, List.append_assoc, Segment.ofFormat_append (Segment.complete_quotedByte b),
      delivery_join, Segment.ofFormat_quotedByte, List.singleton_append,
      ofSegments_cons_ok (hout c), delivery_after, ih, htext, Delivery.after_after]
    rfl

/-- A text with its percent signs doubled renders to the text, byte for byte,
whatever the arguments are, and takes none of them. Behind a format that does
not end within a directive, and in front of any other, the text goes to its
place between the outputs of these two. -/
theorem Context.deliver_quoted (context : Context) (held : Array UInt8) (text : Bytes)
    (args : List Arg) (options : Options) :
    context.deliver held (quoted text) args options = ⟨.ok text.length, text, 0⟩ ∧
    ∀ f g, Segment.Complete f →
      let first := context.deliver held f args options
      let last := context.deliver held g (args.drop first.consumed) options
      context.deliver held (f ++ quoted text ++ g) args options =
        first.followedBy (last.after text) := by
  constructor
  · have h := Transcript.delivery_quoted_append options text [] ⟨args, 0⟩
    rw [List.append_nil, Segment.ofFormat_nil] at h
    rw [deliver_eq, Transcript.ofFormat, h]
    simp [Transcript.delivery, Delivery.after, Transcript.ofSegments, Transcript.text, Except.map]
  · intro f g hf
    simp only [deliver_eq, Transcript.ofFormat]
    rw [List.append_assoc, Segment.ofFormat_append hf, Transcript.delivery_join,
      Transcript.delivery_append]
    exact congrArg _ (Transcript.delivery_quoted_append options text g _)

/-- A text that holds what looks like directives, and ends with a percent sign,
between directives that take arguments. -/
theorem Context.deliver_quoted_directives :
    let f := ascii "%d-"
    let text := ascii "%!5%%*d 100%"
    let g := ascii "%x"
    let args := [.int 7, .uint 26]
    let first := Context.deliver {} #[] f args {}
    let last := Context.deliver {} #[] g (args.drop first.consumed) {}
    Segment.Complete f ∧ first.outcome = .ok 2 ∧
      quoted text = ascii "%%!5%%%%*d 100%%" ∧
      Context.deliver {} #[] (f ++ quoted text ++ g) args {} = first.followedBy (last.after text) ∧
      (Context.deliver {} #[] (f ++ quoted text ++ g) args {}).bytes =
        ascii "7-%!5%%*d 100%1a" := by
  have hf : Segment.Complete (ascii "%d-") := Segment.complete_iff.mpr (by cbv)
  exact ⟨hf, by cbv, by decide, (Context.deliver_quoted {} #[] _ _ {}).2 _ _ hf, by cbv⟩

end PrintFormat
