import PrintFormat.Proofs.Render.Integer
import PrintFormat.Proofs.Render.Measures
import PrintFormat.Proofs.Text.Layout

/-!
Code points in a row. One directive for each of some code points delivers their
layouts (`Context.deliver_layouts`), which for characters is their text in UTF-8
(`Context.layouts_chars`) and which tells the code points again
(`Context.deliver_codePoints`).
-/
namespace PrintFormat

/-- The low 32 bits of an integer-like argument. -/
def Arg.HasWord (arg : Arg) (word : UInt32) : Prop :=
  ∃ n, arg.integer? = some n ∧ n % 2 ^ 32 = word.toNat

/-- A format with one directive for each of a number of code points. -/
def codePointFormat (count : Nat) : Bytes := (List.replicate count (ascii "%!U")).flatten

namespace Context

/-- A directive of a code point delivers its layout. -/
theorem deliver_codePoint {arg : Arg} {word : UInt32} (h : arg.HasWord word) (context : Context)
    (held : Array UInt8) (g : Bytes) (more : List Arg) (options : Options) :
    let text := CodePoint.encode word.toNat
    context.deliver held (ascii "%!U" ++ g) (arg :: more) options =
      Delivery.followedBy ⟨.ok text.length, text, 1⟩ (context.deliver held g more options) := by
  intro text
  obtain ⟨n, hn, hword⟩ := h
  let s : Spelling := { bang := true, conversion := some 85 }
  have hread : Spelling.read (ascii "!U" ++ g) = (s, g) :=
    (Spelling.read_append_iff rfl (ascii "!U") [] g).mpr (by cbv)
  have hvalue : (BitVec.ofInt 64 n).toNat % UInt32.size = word.toNat := by
    rw [BitVec.toNat_ofInt, UInt32.size]
    omega
  have hcompose : Extended.codePoint.compose s.directive options (BitVec.ofInt 64 n) .empty =
      .ok { body := text } .empty := by
    have htext : CodePoint.encode ((BitVec.ofInt 64 n).toNat % UInt32.size) = text := by rw [hvalue]
    rw [← htext]
    rfl
  have htaken : (Conversion.extended .codePoint).taken s.directive options ⟨arg :: more, 0⟩ =
      .ok { body := text } ⟨more, 1⟩ :=
    Conversion.taken_extended (c := .codePoint) (Arg.pattern?_of_integer? hn) hcompose more 0
  have hplain : s.directive.Plain := ⟨rfl, rfl, rfl, rfl⟩
  have houtput : (Segment.directive s).output options ⟨[arg] ++ more, 0⟩ =
      .ok (aligned 0 blank text) ⟨more, [arg].length⟩ :=
    Segment.output_plain hplain rfl htaken
  have hdeliver := deliver_first hread houtput context held
  rw [flatMap_aligned_zero] at hdeliver
  exact hdeliver

/-- The layouts of code points. -/
def layouts (words : List UInt32) : Bytes := (words.map UInt32.toNat).flatMap CodePoint.encode

/-- The layouts of characters are their text in UTF-8. -/
theorem layouts_chars (cs : List Char) :
    layouts (cs.map Char.val) = Text.encode (String.ofList cs) := by
  rw [layouts, List.map_map, List.flatMap_map, Text.encode, String.toList_ofList]
  rfl

/-- What the parts of the layouts tell. -/
theorem map_assemble_layouts (words : List UInt32) :
    (CodePoint.parts (layouts words)).map CodePoint.assemble =
      words.map fun w => if w.toNat < 0x10000 then w.toNat else w.toNat % 2 ^ 21 := by
  rw [layouts, CodePoint.map_assemble_parts, List.map_map]
  rfl

/-- Different lists of code points of 21 bits have different layouts. -/
theorem layouts_inj {words words' : List UInt32} (hlow : ∀ w ∈ words ++ words', w.toNat < 2 ^ 21)
    (h : layouts words' = layouts words) : words' = words := by
  -- what is told of the parts is all of a code point of 21 bits
  have hkept (ws : List UInt32) (hws : ∀ w ∈ ws, w ∈ words ++ words') :
      (CodePoint.parts (layouts ws)).map CodePoint.assemble = ws.map UInt32.toNat := by
    rw [map_assemble_layouts]
    refine List.map_congr_left fun w hw => ?_
    rw [Nat.mod_eq_of_lt (hlow w (hws w hw)), ite_self]
  have hsame : words'.map UInt32.toNat = words.map UInt32.toNat := by
    rw [← hkept words' fun w hw => List.mem_append_right _ hw,
      ← hkept words fun w hw => List.mem_append_left _ hw, h]
  exact List.map_injective_iff.mpr (fun _ _ => UInt32.toNat_inj.mp) hsame

theorem deliver_layouts {args : List Arg} {words : List UInt32}
    (h : List.Forall₂ Arg.HasWord args words) (context : Context) (held : Array UInt8)
    (options : Options) :
    context.deliver held (codePointFormat words.length) args options =
      ⟨.ok (layouts words).length, layouts words, words.length⟩ := by
  induction h with
  | nil => exact deliver_nil context held [] options
  | @cons arg word args words harg _ ih =>
    have hformat : codePointFormat (words.length + 1) =
        ascii "%!U" ++ codePointFormat words.length := by
      rw [codePointFormat, List.replicate_succ, List.flatten_cons]
      rfl
    have hlayouts : layouts (word :: words) = CodePoint.encode word.toNat ++ layouts words := by
      rw [layouts, List.map_cons, List.flatMap_cons]
      rfl
    rw [List.length_cons, hformat, deliver_codePoint harg, ih, hlayouts]
    simp [Delivery.followedBy, Nat.add_comm]

/-- A format with one directive for each of some code points delivers their
layouts and takes one argument for each. If they are characters, these are the
bytes of their text in UTF-8 and read to that text. Whatever they are, the bytes
split at their lead bytes tell each code point below 0x10000 and the low 21 bits
of any other, so that no two lists of code points of 21 bits deliver the same
bytes. -/
theorem deliver_codePoints {args : List Arg} {words : List UInt32}
    (h : List.Forall₂ Arg.HasWord args words) (context : Context) (held : Array UInt8)
    (options : Options) :
    let out := context.deliver held (codePointFormat words.length) args options
    out.outcome = .ok out.bytes.length ∧ out.consumed = words.length ∧
      (∀ cs : List Char, words = cs.map Char.val →
        out.bytes = (String.ofList cs).toUTF8.data.toList ∧
          Text.decode? out.bytes = some (String.ofList cs)) ∧
      (CodePoint.parts out.bytes).map CodePoint.assemble =
        words.map (fun w => if w.toNat < 0x10000 then w.toNat else w.toNat % 2 ^ 21) ∧
      ∀ args' words', List.Forall₂ Arg.HasWord args' words' →
        (∀ w ∈ words ++ words', w.toNat < 2 ^ 21) → ∀ context' held' options',
          let out' := Context.deliver context' held' (codePointFormat words'.length) args' options'
          out'.bytes = out.bytes → words' = words := by
  intro out
  have hout : out = ⟨.ok (layouts words).length, layouts words, words.length⟩ :=
    deliver_layouts h context held options
  rw [hout]
  refine ⟨rfl, rfl, ?_, map_assemble_layouts words, ?_⟩
  · rintro cs rfl
    have htext := layouts_chars cs
    exact ⟨htext.trans (Text.encode_eq_toUTF8 _), Text.decode?_eq_some.mpr htext⟩
  · intro args' words' h' hlow context' held' options' out' hbytes
    have hout' : out' = ⟨.ok (layouts words').length, layouts words', words'.length⟩ :=
      deliver_layouts h' context' held' options'
    rw [hout'] at hbytes
    exact layouts_inj hlow hbytes

/-- Two characters, the second one from the low half of a larger number, and the
surrogates that the second one is a pair of elsewhere. -/
theorem deliver_codePoints_surrogates :
    let cs := [Char.ofNat 0xE9, Char.ofNat 0x1F600]
    let words : List UInt32 := [0xE9, 0x1F600]
    let args : List Arg := [.uint 0xE9, .int 0x10001F600]
    let pair : List UInt32 := [0xE9, 0xD83D, 0xDE00]
    let pairArgs : List Arg := [.char 0xE9, .uint 0xD83D, .uint 0xDE00]
    let out := Context.deliver {} #[] (codePointFormat 2) args {}
    let pairOut := Context.deliver {} #[] (codePointFormat 3) pairArgs {}
    List.Forall₂ Arg.HasWord args words ∧ words = cs.map Char.val ∧
      out.bytes = [0xC3, 0xA9, 0xF0, 0x9F, 0x98, 0x80] ∧
      Text.decode? out.bytes = some (String.ofList cs) ∧
      List.Forall₂ Arg.HasWord pairArgs pair ∧ (∀ w ∈ words ++ pair, w.toNat < 2 ^ 21) ∧
      (CodePoint.parts pairOut.bytes).map CodePoint.assemble = [0xE9, 0xD83D, 0xDE00] ∧
      pairOut.bytes ≠ out.bytes := by
  intro cs words args pair pairArgs out pairOut
  have hwords : List.Forall₂ Arg.HasWord args words :=
    .cons ⟨0xE9, rfl, rfl⟩ (.cons ⟨0x10001F600, rfl, rfl⟩ .nil)
  have hpair : List.Forall₂ Arg.HasWord pairArgs pair :=
    .cons ⟨0xE9, rfl, rfl⟩ (.cons ⟨0xD83D, rfl, rfl⟩ (.cons ⟨0xDE00, rfl, rfl⟩ .nil))
  have hlow : ∀ w ∈ words ++ pair, w.toNat < 2 ^ 21 := by simp [words, pair]
  have hcs : words = cs.map Char.val := rfl
  obtain ⟨-, -, hchars, -, hdistinct⟩ := deliver_codePoints hwords {} #[] {}
  obtain ⟨-, -, -, hparts, -⟩ := deliver_codePoints hpair {} #[] {}
  obtain ⟨hbytes, hdecode⟩ := hchars cs hcs
  refine ⟨hwords, hcs, hbytes.trans (by cbv), hdecode, hpair, hlow, hparts.trans rfl, ?_⟩
  exact mt (hdistinct pairArgs pair hpair hlow {} #[] {}) (by decide)

end Context
end PrintFormat
