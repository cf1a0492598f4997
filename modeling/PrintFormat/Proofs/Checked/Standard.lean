import PrintFormat.Proofs.Checked.Decimal
import PrintFormat.Proofs.Conversion.Overflow

/-!
Standard conversions in the span's cells. Digits are counted while they are put
there; the room that a precision leaves for mark and sign is taken off the
capacity by checked subtractions, and a text is cut by a checked slice. From a
span without text each conversion comes to its field.
-/
namespace PrintFormat

namespace Span

/-- Puts the wanted sign in front of a number that has none, and answers how
long the sign in front now is. -/
def putSign (display : SignDisplay) (allowed : Bool) : Checked Span Nat := do
  if (← text).head? = some minus then return 1
  if !allowed then return 0
  match display with
  | .omit => return 0
  | .plus => push 43; return 1
  | .space => push blank; return 1

/-- Drops the digit of a zero with precision 0. -/
def dropZero (precision : Nat) : Checked Span Unit := do
  if precision = 0 ∧ (← text) = [zero] then reset

/-- Puts zeros in front up to a precision, and leaves room for a mark and for a
sign that is added later. -/
def padDigits (d : Directive) (signed : Bool) (mark : Bytes) (precision : Nat) :
    Checked Span Unit := do
  let signLength := if (← text).head? = some minus then 1 else 0
  let addedSign := if signed ∧ signLength = 0 ∧ d.sign ≠ .omit then 1 else 0
  let reserved := if mark = octalMark then 0 else mark.length
  let limit ← Checked.sub (← Checked.sub scratchCapacity reserved) addedSign
  zeroPad (min (precision + signLength) limit)

/-- Puts the zeros that a precision asks for in front, if there is one. -/
def padPrecision (d : Directive) (signed : Bool) (mark : Bytes) : Checked Span Unit :=
  match d.places? with
  | none => return
  | some precision => do
      dropZero precision
      padDigits d signed mark precision

/-- Finishes an integer whose digits are in the span. -/
def finishInteger (d : Directive) (signed : Bool) (mark : Bytes) : Checked Span Field := do
  padPrecision d signed mark
  let mark := shownMark mark (← text)
  prepend mark
  let signLength ← if signed then putSign d.sign true else pure 0
  return {
    body := ← text
    width := d.width.value
    head := mark.length + signLength
    zeroFill := d.zeroFill && d.places?.isNone }

/-- Writes an unsigned number of some bits and finishes it. The mark is told
the digits. -/
def convertUnsigned (d : Directive) (bits : Nat) (v : BitVec 64) (b : Base) (upper : Bool)
    (mark : Bytes → Bytes) : Checked Span Field := do
  let _ ← counted (pushDigits b upper (v.setWidth bits).toNat)
  finishInteger d false (mark (← text))

/-- Writes a signed number and finishes it. -/
def convertSigned (d : Directive) (n : Int) : Checked Span Field := do
  let _ ← counted (pushSigned .decimal false (n < 0) n.natAbs)
  finishInteger d true []

/-- Writes a float and finishes it. -/
def convertFloat (d : Directive) (options : Options) (v : Binary64) (upper : Bool) :
    Checked Span Field := do
  let _ ← pushFloat v options.rounding (d.places?.getD defaultPlaces) upper
  let signLength ← putSign d.sign (!v.isNaN)
  return {
    body := ← text
    width := d.width.value
    head := signLength
    zeroFill := d.zeroFill && v.isFinite }

/-- The part of a text that a precision asks for. -/
def cutText (d : Directive) (text : Bytes) : Checked Span Field := do
  let body ← match d.places? with
    | none => pure text
    | some n => Checked.slice text 0 (min text.length n)
  return { body, width := d.width.value }

/-- The field of a standard directive for the value it took. -/
def standard (d : Directive) (options : Options) :
    (c : Standard) → c.demand.Value → Checked Span Field
  | .signed, v => convertSigned d (BitVec.setWidth (d.size.bits options.intWidth) v).toInt
  | .unsigned, v =>
      convertUnsigned d (d.size.bits options.intWidth) v .decimal false fun _ => []
  | .octal, v =>
      convertUnsigned d (d.size.bits options.intWidth) v .octal false fun _ =>
        if d.alternate then octalMark else []
  | .hex, v =>
      convertUnsigned d (d.size.bits options.intWidth) v .hexadecimal false fun text =>
        if d.alternate ∧ text ≠ [zero] then ascii "0x" else []
  | .hexUpper, v =>
      convertUnsigned d (d.size.bits options.intWidth) v .hexadecimal true fun text =>
        if d.alternate ∧ text ≠ [zero] then ascii "0X" else []
  | .float, v => convertFloat d options v false
  | .floatUpper, v => convertFloat d options v true
  | .text, s => cutText d s
  | .character, v => pure { body := [(v : BitVec 64).toNat.toUInt8], width := d.width.value }
  | .pointer, v => convertUnsigned d 64 v .decimal false fun _ => []

/-! ### Carried out -/

theorem putSign_carriesOut (display : SignDisplay) (allowed : Bool) :
    Checked.CarriesOut view (putSign display allowed) (PrintFormat.putSign display allowed) := by
  have hpush (byte : UInt8) : Checked.CarriesOut view (do push byte; return 1)
      (do Scratch.push byte; return 1) :=
    (push_carriesOut byte).bind fun _ => .pure 1
  unfold putSign PrintFormat.putSign
  refine text_carriesOut (l := fun text => if text.head? = some minus then pure 1
    else if !allowed then pure 0
    else match display with
      | .omit => return 0
      | .plus => do Scratch.push 43; return 1
      | .space => do Scratch.push blank; return 1) fun text => ?_
  refine .ite (fun _ => .pure 1) fun _ => ?_
  refine .ite (fun _ => .pure 0) fun _ => ?_
  cases display with
  | «omit» => exact .pure 0
  | plus => exact hpush 43
  | space => exact hpush blank

theorem dropZero_carriesOut (precision : Nat) :
    Checked.CarriesOut view (dropZero precision) (modify (withoutZero precision)) := by
  have hplain : (modify (withoutZero precision) : Scratch.Edit Unit) = get >>= fun s =>
      (fun text : Bytes => if precision = 0 ∧ text = [zero] then set Scratch.empty else pure ())
        s.text := by
    funext s
    show EStateM.Result.ok () (withoutZero precision s) =
      (if precision = 0 ∧ s.text = [zero] then set Scratch.empty else pure () : Scratch.Edit Unit) s
    unfold withoutZero
    split <;> rfl
  rw [hplain]
  exact text_carriesOut fun text => .ite (fun _ => reset_carriesOut) fun _ => .pure ()

/-- The length that a precision brings digits to. -/
def paddedLength (d : Directive) (signed : Bool) (mark : Bytes) (precision : Nat) (text : Bytes) :
    Nat :=
  let signLength := if text.head? = some minus then 1 else 0
  let addedSign := if signed ∧ signLength = 0 ∧ d.sign ≠ .omit then 1 else 0
  let reserved := if mark = octalMark then 0 else mark.length
  min (precision + signLength) (scratchCapacity - reserved - addedSign)

/-- A mark of two bytes and a sign are less than the room, so that what they
leave of it is not below zero. -/
theorem padDigits_carriesOut (d : Directive) (signed : Bool) {mark : Bytes} (h : mark.length ≤ 2)
    (precision : Nat) :
    Checked.CarriesOut view (padDigits d signed mark precision)
      (get >>= fun s =>
        modify (Scratch.zeroPad (paddedLength d signed mark precision s.text))) := by
  refine text_carriesOut (l := fun text =>
    modify (Scratch.zeroPad (paddedLength d signed mark precision text))) fun text => ?_
  have hreserved : (if mark = octalMark then 0 else mark.length) ≤ 2 := by
    split <;> omega
  have hsign (p : Prop) [Decidable p] : (if p then 1 else 0) ≤ 1 := by
    split <;> decide
  have hroom : scratchCapacity = 81 := rfl
  dsimp only
  rw [Checked.sub_of (by omega), pure_bind, Checked.sub_of, pure_bind]
  · exact zeroPad_carriesOut _
  · have := hsign (signed = true ∧
      (if text.head? = some minus then 1 else 0) = 0 ∧ d.sign ≠ .omit)
    omega

theorem padPrecision_carriesOut (d : Directive) (signed : Bool) {mark : Bytes}
    (h : mark.length ≤ 2) :
    Checked.CarriesOut view (padPrecision d signed mark)
      (modify (d.withPrecision signed mark)) := by
  unfold padPrecision Directive.withPrecision
  cases d.places? with
  | none => exact .pure ()
  | some precision =>
    exact (dropZero_carriesOut precision).bind fun _ => padDigits_carriesOut d signed h precision

/-- A mark, then a sign, and what the text is made then. -/
theorem marked_carriesOut {sign : Checked Span Nat} {sign' : Scratch.Edit Nat}
    (h : Checked.CarriesOut view sign sign') (mark : Bytes) (field : Nat → Bytes → Field) :
    Checked.CarriesOut view (do
        let mark := shownMark mark (← text)
        prepend mark
        let signLength ← sign
        return field (mark.length + signLength) (← text))
      (do
        let mark := shownMark mark (← get).text
        Scratch.prepend mark
        let signLength ← sign'
        return field (mark.length + signLength) (← get).text) := by
  refine text_carriesOut (l := fun text => do
    Scratch.prepend (shownMark mark text)
    let signLength ← sign'
    return field ((shownMark mark text).length + signLength) (← get).text) fun text => ?_
  refine (prepend_carriesOut _).bind fun _ => h.bind fun signLength => ?_
  exact text_carriesOut (l := fun body =>
    pure (field ((shownMark mark text).length + signLength) body)) fun body => .pure _

theorem finishInteger_carriesOut (d : Directive) (signed : Bool) {mark : Bytes}
    (h : mark.length ≤ 2) :
    Checked.CarriesOut view (finishInteger d signed mark)
      (PrintFormat.finishInteger d signed mark) := by
  have hplain : PrintFormat.finishInteger d signed mark = modify (d.withPrecision signed mark) >>=
      fun _ => do
        let mark := shownMark mark (← get).text
        Scratch.prepend mark
        let signLength ← if signed then PrintFormat.putSign d.sign true else pure 0
        return {
          body := (← get).text
          width := d.width.value
          head := mark.length + signLength
          zeroFill := d.zeroFill && d.places?.isNone } :=
    funext fun s => finishInteger_eq d signed mark s
  rw [hplain]
  refine (padPrecision_carriesOut d signed h).bind fun _ => ?_
  let field (head : Nat) (body : Bytes) : Field :=
    { body, width := d.width.value, head, zeroFill := d.zeroFill && d.places?.isNone }
  cases signed with
  | false => exact marked_carriesOut (.pure 0) mark field
  | true => exact marked_carriesOut (putSign_carriesOut d.sign true) mark field

variable {s : Span}

/-- From a span without text, what is put there is what is read back. -/
theorem text_of_counted {act : Checked Span Unit} {text : Bytes} {n : Nat} {t : Span}
    (h : Checked.CarriesOut view act (text.reverse.forM Scratch.push)) (hs : s.view = .empty)
    (hroom : text.length ≤ scratchCapacity) (ht : counted act s = .ok n t) :
    t.view.text = text := by
  have hpush := Scratch.pushText_empty hroom
  rw [← hs] at hpush
  obtain ⟨t', ht', hview⟩ := (counted_pushText h s).ok hpush
  rw [ht] at ht'
  cases ht'
  rw [hview]

theorem convertUnsigned_carriesOut (hs : s.view = .empty) (d : Directive) (bits : Nat)
    (v : BitVec 64) (b : Base) (upper : Bool) {mark : Bytes → Bytes}
    (hmark : ∀ text, (mark text).length ≤ 2) :
    Checked.CarriesOutAt view s (convertUnsigned d bits v b upper mark)
      (PrintFormat.convertUnsigned d bits v b upper mark) := by
  have hdigits := pushDigits_carriesOut b upper (v.setWidth bits).toNat
  have hroom := Nat.le_trans (b.length_text_word_le upper v bits) (by decide : 64 ≤ scratchCapacity)
  refine (counted_pushText hdigits s).bind fun n t ht => ?_
  -- the mark depends on the digits, which are all that the span holds
  unfold Checked.CarriesOutAt
  rw [Action.bind_ok (text_eq t), text_of_counted hdigits hs hroom ht]
  exact finishInteger_carriesOut d false (hmark _) t

theorem convertSigned_carriesOut (d : Directive) (n : Int) :
    Checked.CarriesOut view (convertSigned d n)
      (do let _ ← Scratch.pushText (intText n); PrintFormat.finishInteger d true []) := by
  have htext : intText n =
      (if decide (n < 0) = true then [minus] else []) ++ Base.decimal.text false n.natAbs := by
    unfold intText natText
    by_cases hn : n < 0 <;> simp [hn]
  rw [htext]
  exact (counted_pushText (pushSigned_carriesOut _ _ _ _)).bind fun _ =>
    finishInteger_carriesOut d true (Nat.zero_le 2)

theorem convertFloat_carriesOut (d : Directive) (options : Options) (v : Binary64) (upper : Bool) :
    Checked.CarriesOut view (convertFloat d options v upper)
      (PrintFormat.convertFloat d options v upper) := by
  have hpush := pushFloat_carriesOut v options.rounding (d.places?.getD defaultPlaces) upper
  refine hpush.bind fun _ => ?_
  refine (putSign_carriesOut d.sign (!v.isNaN)).bind fun head => ?_
  let field (body : Bytes) : Field :=
    { body, width := d.width.value, head, zeroFill := d.zeroFill && v.isFinite }
  exact text_carriesOut (l := fun body => pure (field body)) fun _ => .pure _

theorem cutText_carriesOut (d : Directive) (text : Bytes) :
    Checked.CarriesOut view (cutText d text) (pure
      { body := match d.places? with
          | none => text
          | some n => text.take n
        width := d.width.value }) := by
  unfold cutText
  cases d.places? with
  | none => exact .pure _
  | some n =>
    have htake : text.take (min text.length n) = text.take n := by
      rw [Nat.min_comm, ← List.take_eq_take_min]
    dsimp only
    rw [Checked.slice_of (Nat.zero_le _) (Nat.min_le_left _ _), pure_bind, List.drop_zero, htake]
    exact .pure _

/-- A standard conversion in the cells comes to its field. -/
theorem standard_carriesOut (hs : s.view = .empty) (d : Directive) (options : Options)
    (c : Standard) (v : c.demand.Value) :
    Checked.CarriesOutAt view s (standard d options c v) (c.compose d options v) := by
  cases c with
  | signed => exact convertSigned_carriesOut d _ s
  | unsigned => exact convertUnsigned_carriesOut hs d _ _ _ _ fun _ => Nat.zero_le 2
  | octal =>
    refine convertUnsigned_carriesOut hs d _ _ _ _ fun _ => ?_
    split <;> decide
  | hex =>
    refine convertUnsigned_carriesOut hs d _ _ _ _ fun _ => ?_
    split <;> decide
  | hexUpper =>
    refine convertUnsigned_carriesOut hs d _ _ _ _ fun _ => ?_
    split <;> decide
  | float => exact convertFloat_carriesOut d options v false s
  | floatUpper => exact convertFloat_carriesOut d options v true s
  | text => exact cutText_carriesOut d v s
  | character => exact Checked.CarriesOut.pure _ s
  | pointer => exact convertUnsigned_carriesOut hs d _ _ _ _ fun _ => Nat.zero_le 2

end Span
end PrintFormat
