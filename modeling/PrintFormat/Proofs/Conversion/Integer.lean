import PrintFormat.Conversion.Standard
import PrintFormat.Proofs.Numeral.Digits
import PrintFormat.Proofs.Scratch.Spans

/-!
Integer conversions in closed form: the text that precision, radix mark and sign
make of the digits. `finishInteger_unsigned` and `finishInteger_signed` say that
finishing an integer comes to that text if the span has room for it, and
`length_marked_le` and `length_signed_le` that the span has room, whatever the
precision is: zeros stop where mark or sign still fit.
-/
namespace PrintFormat

/-! ## Signs -/

/-- The sign of a number that has none of its own. -/
def SignDisplay.text : SignDisplay → Bytes
  | .omit => []
  | .plus => [43]
  | .space => [blank]

/-- The sign that is put in front of a text. -/
def SignDisplay.added (display : SignDisplay) (text : Bytes) : Bytes :=
  if text.head? = some minus then [] else display.text

/-- The length of the sign in front of a text once one was put there. -/
def SignDisplay.length (display : SignDisplay) (text : Bytes) : Nat :=
  if text.head? = some minus then 1 else display.text.length

theorem SignDisplay.length_text (display : SignDisplay) :
    display.text.length = if display = SignDisplay.omit then 0 else 1 := by
  cases display <;> rfl

theorem SignDisplay.length_added_le (display : SignDisplay) (text : Bytes) :
    (display.added text).length ≤ 1 := by
  unfold added
  split
  · exact Nat.zero_le 1
  · rw [length_text]
    split <;> decide

theorem get_scratch (s : Scratch) : (get : Scratch.Edit Scratch) s = .ok s s := rfl

theorem putSign_allowed {display : SignDisplay} {s : Scratch}
    (h : (display.added s.text ++ s.text).length ≤ scratchCapacity) :
    putSign display true s =
      .ok (display.length s.text) ⟨display.added s.text ++ s.text, h⟩ := by
  unfold putSign
  refine (Action.bind_ok (get_scratch s)).trans ?_
  by_cases hm : s.text.head? = some minus
  · simp only [SignDisplay.added, SignDisplay.length, hm, if_true]
    rfl
  · have hadded : display.added s.text = display.text := if_neg hm
    simp only [SignDisplay.length, hm, if_false]
    cases display with
    | «omit» =>
      simp only [hadded]
      rfl
    | plus =>
      simp only [hadded] at h ⊢
      exact Action.bind_ok (Scratch.push_ok 43 h)
    | space =>
      simp only [hadded] at h ⊢
      exact Action.bind_ok (Scratch.push_ok blank h)

theorem putSign_not_allowed (display : SignDisplay) (s : Scratch) :
    putSign display false s = .ok (if s.text.head? = some minus then 1 else 0) s := by
  unfold putSign
  refine (Action.bind_ok (get_scratch s)).trans ?_
  by_cases hm : s.text.head? = some minus
  · simp only [hm, if_true]
    rfl
  · simp only [hm, if_false]
    rfl

/-! ## Precision and marks -/

/-- The span of an integer once its precision has added zeros. -/
def Directive.withPrecision (d : Directive) (signed : Bool) (mark : Bytes) (s : Scratch) :
    Scratch :=
  match d.places? with
  | none => s
  | some precision => padPrecision d signed mark precision s

/-- The mark in front of digits. A leading zero serves as the octal one. -/
def shownMark (mark text : Bytes) : Bytes :=
  if mark = octalMark ∧ text.head? = some zero then [] else mark

theorem length_shownMark_le (mark text : Bytes) : (shownMark mark text).length ≤ mark.length := by
  unfold shownMark
  split
  · exact Nat.zero_le _
  · exact Nat.le_refl _

theorem finishInteger_eq (d : Directive) (signed : Bool) (mark : Bytes) (s : Scratch) :
    let t := d.withPrecision signed mark s
    let finish : Scratch.Edit Field := do
      Scratch.prepend (shownMark mark t.text)
      let signLength ← if signed then putSign d.sign true else pure 0
      return {
        body := (← get).text
        width := d.width.value
        head := (shownMark mark t.text).length + signLength
        zeroFill := d.zeroFill && d.places?.isNone }
    finishInteger d signed mark s = finish t := by
  unfold finishInteger Directive.withPrecision
  cases hp : d.places? with
  | none => rfl
  | some precision => rfl

/-- An unsigned integer: its mark and its digits. -/
theorem finishInteger_unsigned {d : Directive} {mark : Bytes} {s t : Scratch}
    (ht : d.withPrecision false mark s = t)
    (h : (shownMark mark t.text ++ t.text).length ≤ scratchCapacity) :
    finishInteger d false mark s = .ok
      { body := shownMark mark t.text ++ t.text
        width := d.width.value
        head := (shownMark mark t.text).length
        zeroFill := d.zeroFill && d.places?.isNone }
      ⟨shownMark mark t.text ++ t.text, h⟩ := by
  rw [finishInteger_eq, ht]
  exact Action.bind_ok (Scratch.prepend_ok h)

/-- A signed integer, which has no mark: its sign and its digits. -/
theorem finishInteger_signed {d : Directive} {s t : Scratch}
    (ht : d.withPrecision true [] s = t)
    (h : (d.sign.added t.text ++ t.text).length ≤ scratchCapacity) :
    finishInteger d true [] s = .ok
      { body := d.sign.added t.text ++ t.text
        width := d.width.value
        head := d.sign.length t.text
        zeroFill := d.zeroFill && d.places?.isNone }
      ⟨d.sign.added t.text ++ t.text, h⟩ := by
  have hmark : shownMark [] t.text = [] := if_neg fun hm => nomatch hm.1
  rw [finishInteger_eq, ht, hmark]
  have hfits : ([] ++ t.text).length ≤ scratchCapacity := t.fits
  refine (Action.bind_ok (Scratch.prepend_ok hfits)).trans ?_
  refine (Action.bind_ok (putSign_allowed h)).trans ?_
  simp only [List.length_nil, Nat.zero_add]
  rfl

/-! ## Room -/

/-- The span in front of which a precision puts zeros. -/
def withoutZero (precision : Nat) (s : Scratch) : Scratch :=
  if precision = 0 ∧ s.text = [zero] then .empty else s

theorem head_withoutZero (precision : Nat) (s : Scratch) :
    (withoutZero precision s).text.head? = some minus ↔ s.text.head? = some minus := by
  unfold withoutZero
  split
  · next h =>
    rw [h.2]
    exact iff_of_false (by decide) (by decide)
  · rfl

theorem length_withoutZero_le (precision : Nat) (s : Scratch) :
    (withoutZero precision s).text.length ≤ s.text.length := by
  unfold withoutZero
  split
  · exact Nat.zero_le _
  · exact Nat.le_refl _

/-- The room that a precision leaves in front of its zeros. -/
def reservedRoom (d : Directive) (signed : Bool) (mark : Bytes) (s : Scratch) : Nat :=
  (if mark = octalMark then 0 else mark.length) +
    (if signed ∧ s.text.head? ≠ some minus ∧ d.sign ≠ .omit then 1 else 0)

/-- Zeros are added up to a length that leaves the reserved room. -/
theorem text_padPrecision (d : Directive) (signed : Bool) (mark : Bytes) (precision : Nat)
    (s : Scratch) :
    ∃ width ≤ scratchCapacity - reservedRoom d signed mark s,
      (padPrecision d signed mark precision s).text =
        Scratch.padded width (withoutZero precision s).text := by
  have hhead := head_withoutZero precision s
  refine ⟨_, ?_, Scratch.text_zeroPad _ (withoutZero precision s)⟩
  refine Nat.le_trans (Nat.min_le_left _ _) (Nat.le_trans (Nat.min_le_right _ _) ?_)
  change scratchCapacity - (if mark = octalMark then 0 else mark.length) -
    (if signed = true ∧ (if (withoutZero precision s).text.head? = some minus then 1 else 0) = 0 ∧
      d.sign ≠ .omit then 1 else 0) ≤ _
  have hsign : (if (withoutZero precision s).text.head? = some minus then 1 else 0) = 0 ↔
      s.text.head? ≠ some minus := by
    rw [ne_eq, ← hhead]
    split
    · next h => exact iff_of_false Nat.one_ne_zero (not_not_intro h)
    · next h => exact iff_of_true rfl h
  simp only [reservedRoom, hsign]
  exact Nat.le_of_eq (Nat.sub_sub _ _ _)

/-- A precision leaves the span as it is, or it brings its digits to a length
that leaves the reserved room. -/
theorem withPrecision_cases (d : Directive) (signed : Bool) (mark : Bytes) (s : Scratch) :
    d.withPrecision signed mark s = s ∨
      ∃ precision width, width ≤ scratchCapacity - reservedRoom d signed mark s ∧
        (d.withPrecision signed mark s).text =
          Scratch.padded width (withoutZero precision s).text := by
  unfold Directive.withPrecision
  cases d.places? with
  | none => exact .inl rfl
  | some precision =>
    obtain ⟨width, hwidth, htext⟩ := text_padPrecision d signed mark precision s
    exact .inr ⟨precision, width, hwidth, htext⟩

/-- A mark fits in front of digits that leave room for it. -/
theorem length_marked_le (d : Directive) (mark : Bytes) {s : Scratch}
    (hdigits : ∀ b ∈ s.text.head?, Scratch.isSign b = false)
    (hroom : mark.length + s.text.length ≤ scratchCapacity) :
    let t := d.withPrecision false mark s
    (shownMark mark t.text ++ t.text).length ≤ scratchCapacity := by
  intro t
  have hmark := length_shownMark_le mark t.text
  rw [List.length_append]
  obtain ht | ⟨precision, width, hwidth, ht⟩ := withPrecision_cases d false mark s
  · rw [show t = s from ht] at hmark ⊢
    omega
  · have hless := length_withoutZero_le precision s
    have hlen : t.text.length = max width (withoutZero precision s).text.length := by
      rw [ht, Scratch.length_padded]
    by_cases ho : mark = octalMark
    · -- either zeros were added, and one of them is the mark, or the digits are as before
      have hdigits' : ∀ b ∈ (withoutZero precision s).text.head?, Scratch.isSign b = false := by
        unfold withoutZero
        split
        · nofun
        · exact hdigits
      by_cases hadds : (withoutZero precision s).text.length < width
      · have hzero : t.text.head? = some zero := by
          rw [ht, Scratch.padded_of_not_isSign hdigits', Scratch.head_zeroFilled hadds]
        have hnone : shownMark mark t.text = [] := if_pos ⟨ho, hzero⟩
        have := t.fits
        rw [hnone, List.length_nil]
        omega
      · omega
    · simp only [reservedRoom, ho, if_false] at hwidth
      omega

/-- A sign fits in front of digits, whose own sign counts. -/
theorem length_signed_le (d : Directive) {s : Scratch} (hroom : s.text.length < scratchCapacity) :
    let t := d.withPrecision true [] s
    (d.sign.added t.text ++ t.text).length ≤ scratchCapacity := by
  intro t
  have hadded := d.sign.length_added_le t.text
  rw [List.length_append]
  obtain ht | ⟨precision, width, hwidth, ht⟩ := withPrecision_cases d true [] s
  · rw [show t = s from ht] at hadded ⊢
    omega
  · have hless := length_withoutZero_le precision s
    have hlen : t.text.length = max width (withoutZero precision s).text.length := by
      rw [ht, Scratch.length_padded]
    have hhead : t.text.head? = some minus ↔ s.text.head? = some minus := by
      rw [ht, Scratch.head_padded_eq_minus_iff, head_withoutZero]
    have hfits := t.fits
    unfold SignDisplay.added at hadded ⊢
    by_cases hm : t.text.head? = some minus
    · rw [if_pos hm, List.length_nil]
      omega
    -- a sign is still to come, and the zeros left its room
    · have hreserved : reservedRoom d true [] s = d.sign.text.length := by
        rw [SignDisplay.length_text]
        have hm' : s.text.head? ≠ some minus := mt hhead.mpr hm
        cases hd : d.sign <;> simp [reservedRoom, hm', hd, octalMark]
      rw [if_neg hm] at hadded ⊢
      omega

end PrintFormat
