import PrintFormat.Proofs.Action
import PrintFormat.Scratch

/-!
What the operations on the scratch span come to where the room suffices, and
what zeros do to the first byte of a span: they go behind a sign, and a span
without one opens with a zero as soon as zeros were added. So they neither take
a sign away nor make one, and zeros brought in twice are those of the greater
length (`zeroPad_zeroPad`).
-/
namespace PrintFormat.Scratch

attribute [ext] Scratch

variable {text : Bytes} {s : Scratch}

theorem prepend_ok (h : (text ++ s.text).length ≤ scratchCapacity) :
    prepend text s = .ok () ⟨text ++ s.text, h⟩ := by
  simp only [prepend, h, dif_pos]

theorem forM_push {bytes : Bytes} (h : (bytes.reverse ++ s.text).length ≤ scratchCapacity) :
    bytes.forM push s = .ok () ⟨bytes.reverse ++ s.text, h⟩ := by
  induction bytes generalizing s with
  | nil => rfl
  | cons b bytes ih =>
    have hlen : (b :: bytes).reverse ++ s.text = bytes.reverse ++ b :: s.text := by simp
    have hroom : s.text.length < scratchCapacity := by
      simp only [List.length_append, List.length_reverse, List.length_cons] at h
      omega
    rw [Action.forM_cons_ok (push_ok b hroom) bytes, ih (s := ⟨b :: s.text, hroom⟩) (hlen ▸ h)]
    simp only [hlen]

theorem pushText_ok (h : (text ++ s.text).length ≤ scratchCapacity) :
    pushText text s = .ok text.length ⟨text ++ s.text, h⟩ := by
  have hrev : text.reverse.reverse ++ s.text = text ++ s.text := by rw [List.reverse_reverse]
  refine (Action.bind_ok (forM_push (hrev ▸ h))).trans ?_
  simp only [List.reverse_reverse]
  rfl

/-- A text on the empty span. -/
theorem pushText_empty (h : text.length ≤ scratchCapacity) :
    pushText text empty = .ok text.length ⟨text, h⟩ := by
  have he : text ++ empty.text = text := List.append_nil text
  rw [pushText_ok (he.symm ▸ h)]
  simp only [he]

/-! ## Zeros -/

theorem padded_of_isSign {b : UInt8} (hb : isSign b = true) (width : Nat) (rest : Bytes) :
    padded width (b :: rest) = b :: zeroFilled (width - 1) rest := by
  simp only [padded, hb, if_true]

/-- Without a sign the zeros are in front. -/
theorem padded_of_not_isSign (h : ∀ b ∈ text.head?, isSign b = false) (width : Nat) :
    padded width text = zeroFilled width text := by
  cases text with
  | nil => simp [padded, zeroFilled]
  | cons b rest => simp [padded, h b rfl]

theorem head_zeroFilled {width : Nat} (h : text.length < width) :
    (zeroFilled width text).head? = some zero := by
  obtain ⟨k, hk⟩ : ∃ k, width - text.length = k + 1 := ⟨width - text.length - 1, by omega⟩
  rw [zeroFilled, hk, List.replicate_succ]
  rfl

/-! ## Signs -/

/-- The sign that a text opens with, if it does. -/
def signOf (text : Bytes) : Bytes := (text.take 1).filter isSign

/-- The text behind its sign. -/
def unsigned (text : Bytes) : Bytes := text.drop (signOf text).length

@[simp] theorem signOf_nil : signOf [] = [] := rfl

theorem signOf_cons (b : UInt8) (rest : Bytes) :
    signOf (b :: rest) = if isSign b then [b] else [] := by
  by_cases hb : isSign b <;> simp [signOf, hb]

@[simp] theorem unsigned_nil : unsigned [] = [] := rfl

theorem unsigned_cons (b : UInt8) (rest : Bytes) :
    unsigned (b :: rest) = if isSign b then rest else b :: rest := by
  by_cases hb : isSign b <;> simp [unsigned, signOf_cons, hb]

theorem signOf_append_unsigned (text : Bytes) : signOf text ++ unsigned text = text := by
  cases text with
  | nil => rfl
  | cons b rest => by_cases hb : isSign b <;> simp [signOf_cons, unsigned_cons, hb]

theorem unsigned_suffix (text : Bytes) : unsigned text <:+ text := List.drop_suffix _ _

/-- Whatever is put in front, what stood behind a sign stays behind it. -/
theorem unsigned_suffix_unsigned {a b : Bytes} (h : a <:+ b) : unsigned a <:+ unsigned b := by
  obtain ⟨front, rfl⟩ := h
  cases front with
  | nil => exact List.suffix_rfl
  | cons c rest =>
    have htail : a <:+ rest ++ a := List.suffix_append rest a
    rw [List.cons_append, unsigned_cons]
    split
    · exact (unsigned_suffix a).trans htail
    · exact ((unsigned_suffix a).trans htail).trans (List.suffix_cons c _)

/-- Zeros stand between the sign and the rest. -/
theorem padded_eq (width : Nat) (text : Bytes) :
    padded width text =
      signOf text ++ List.replicate (width - text.length) zero ++ unsigned text := by
  cases text with
  | nil => simp [padded]
  | cons b rest =>
    by_cases hb : isSign b
    · have hcount : width - 1 - rest.length = width - (rest.length + 1) := by omega
      simp [padded_of_isSign hb, zeroFilled, signOf_cons, unsigned_cons, hb, hcount]
    · simp [padded, zeroFilled, signOf_cons, unsigned_cons, hb]

/-- A sign stays in front and counts. -/
example : padded 6 (ascii "-42") = ascii "-00042" := by decide

theorem isSign_zero : isSign zero = false := by decide

theorem signOf_padded (width : Nat) (text : Bytes) : signOf (padded width text) = signOf text := by
  rw [padded_eq]
  cases text with
  | nil => cases width <;> simp [List.replicate_succ, signOf_cons, isSign_zero]
  | cons b rest =>
    by_cases hb : isSign b
    · simp [signOf_cons, hb]
    · cases h : width - (b :: rest).length <;>
        simp [List.replicate_succ, signOf_cons, unsigned_cons, hb, isSign_zero]

theorem head_eq_minus_iff (text : Bytes) : text.head? = some minus ↔ signOf text = [minus] := by
  cases text with
  | nil => simp
  | cons b rest =>
    by_cases hb : isSign b = true
    · simp [signOf_cons, hb]
    · have hne : b ≠ minus := fun h => hb (h ▸ by decide)
      simp [signOf_cons, hb, hne]

/-- Zeros neither take away a minus sign in front nor put one there. -/
theorem head_padded_eq_minus_iff (width : Nat) (text : Bytes) :
    (padded width text).head? = some minus ↔ text.head? = some minus := by
  rw [head_eq_minus_iff, signOf_padded, head_eq_minus_iff]

theorem unsigned_padded (width : Nat) (text : Bytes) :
    unsigned (padded width text) =
      List.replicate (width - text.length) zero ++ unsigned text := by
  rw [unsigned, signOf_padded, padded_eq, List.append_assoc, List.drop_left]

theorem padded_padded (a b : Nat) (text : Bytes) :
    padded b (padded a text) = padded (max a b) text := by
  have hcount : b - max a text.length + (a - text.length) = max a b - text.length := by omega
  rw [padded_eq b, signOf_padded, unsigned_padded, length_padded, padded_eq, ← hcount,
    List.replicate_add]
  simp only [List.append_assoc]

/-- Zeros brought in twice are those of the greater length. -/
theorem zeroPad_zeroPad (a b : Nat) (s : Scratch) :
    (s.zeroPad a).zeroPad b = s.zeroPad (max a b) := by
  ext1
  rw [text_zeroPad, text_zeroPad, text_zeroPad, padded_padded, min_max_distrib_right]

end PrintFormat.Scratch
