import PrintFormat.Proofs.Checked.Span
import PrintFormat.Proofs.Numeral.Digits

/-!
Numerals written digit by digit. The lowest digit of a number is looked up in a
table and put in front of the span, then the number is divided, until nothing is
left of it. The lookups are within the table, and what comes out is the
numeral.
-/
namespace PrintFormat

/-- The digits of all bases. -/
def digitTable (upper : Bool) : Bytes :=
  ascii (if upper then "0123456789ABCDEFGHIJKLMNOPQRSTUVWXYZ"
    else "0123456789abcdefghijklmnopqrstuvwxyz")

theorem length_digitTable (upper : Bool) : (digitTable upper).length = 36 := by
  cases upper <;> decide

theorem getElem_digitTable (upper : Bool) {d : Nat} (h : d < (digitTable upper).length) :
    (digitTable upper)[d] = digitByte upper d := by
  have key : ∀ upper : Bool, ∀ d : Fin 36, (digitTable upper)[d]? = some (digitByte upper d) := by
    decide
  rw [length_digitTable] at h
  exact (List.getElem?_eq_some_iff.mp (key upper ⟨d, h⟩)).2

namespace Span

/-- Puts the digits of a number in front. -/
def pushDigits (b : Base) (upper : Bool) (n : Nat) : Checked Span Unit := do
  push (← Checked.element (digitTable upper) (n % b.value))
  if _ : n / b.value = 0 then
    return
  else
    pushDigits b upper (n / b.value)
termination_by n
decreasing_by
  rename_i h
  have := b.two_le
  have : n ≠ 0 := fun hn => h (by rw [hn, Nat.zero_div])
  exact Nat.div_lt_self (by omega) (by omega)

/-- Puts the digits of a number in front, behind a minus sign if it is below
zero. -/
def pushSigned (b : Base) (upper negative : Bool) (magnitude : Nat) : Checked Span Unit := do
  pushDigits b upper magnitude
  if negative then push minus

/-- Carries something out and answers by how many bytes the text has grown. -/
def counted (act : Checked Span Unit) : Checked Span Nat := do
  let before ← length
  act
  Checked.sub (← length) before

/-- Puts the numeral of a number in front, with zeros up to a count of digits. -/
def pushField (b : Base) (upper : Bool) (digits n : Nat) : Checked Span Unit := do
  let written ← counted (pushDigits b upper n)
  (List.replicate (digits - written) zero).forM push

/-! ### Carried out -/

theorem pushDigits_carriesOut (b : Base) (upper : Bool) (n : Nat) :
    Checked.CarriesOut view (pushDigits b upper n)
      ((b.text upper n).reverse.forM Scratch.push) := by
  have hpos : 0 < b.value := Nat.lt_of_lt_of_le Nat.two_pos b.two_le
  -- every digit is below the base, and so within the table
  have hdigit (n : Nat) : (Checked.element (digitTable upper) (n % b.value) : Checked Span UInt8) =
      pure (digitByte upper (n % b.value)) := by
    have h : n % b.value < (digitTable upper).length := by
      rw [length_digitTable]
      exact Nat.lt_of_lt_of_le (Nat.mod_lt n hpos) b.le_max
    rw [Checked.element_of h, getElem_digitTable]
  fun_induction Base.digits b n with
  | case1 n h =>
    rw [pushDigits, hdigit, pure_bind, Base.text, Base.digits_of_lt b h, Nat.mod_eq_of_lt h,
      Nat.div_eq_of_lt h, dif_pos rfl]
    exact (push_carriesOut _).bind fun _ => Checked.CarriesOut.pure ()
  | case2 n h ih =>
    have hdiv : n / b.value ≠ 0 := by
      rw [Ne, Nat.div_eq_zero_iff]
      omega
    rw [pushDigits, hdigit, pure_bind, dif_neg hdiv, Base.text, Base.digits_of_le b (by omega),
      List.map_append, List.reverse_append]
    exact (push_carriesOut _).bind fun _ => ih

theorem pushSigned_carriesOut (b : Base) (upper negative : Bool) (n : Nat) :
    Checked.CarriesOut view (pushSigned b upper negative n)
      (((if negative then [minus] else []) ++ b.text upper n).reverse.forM Scratch.push) := by
  rw [List.reverse_append, Action.forM_append]
  refine (pushDigits_carriesOut b upper n).bind fun _ => ?_
  cases negative with
  | false => exact Checked.CarriesOut.pure ()
  | true =>
    rw [if_pos rfl, if_pos rfl, List.reverse_singleton, Action.forM_singleton]
    exact push_carriesOut minus

end Span

/-! ### Growth -/

namespace Scratch

/-- An edit that makes the text longer by a number of bytes where it succeeds. -/
def Grows (edit : Edit Unit) (n : Nat) : Prop :=
  ∀ s t, edit s = .ok () t → t.text.length = n + s.text.length

theorem grows_throw (e : FormatError) (n : Nat) : Grows (throw e) n := fun _ _ h => nomatch h

theorem grows_pure : Grows (pure ()) 0 := by
  intro s t h
  cases h
  exact (Nat.zero_add _).symm

theorem grows_push (byte : UInt8) : Grows (push byte) 1 := by
  intro s t h
  unfold push at h
  split at h
  · cases h
    exact (Nat.add_comm 1 _).symm
  · cases h

theorem grows_prepend (text : Bytes) : Grows (prepend text) text.length := by
  intro s t h
  unfold prepend at h
  split at h
  · cases h
    exact List.length_append
  · cases h

theorem Grows.andThen {edit next : Edit Unit} {m n : Nat} (h : Grows edit m) (h' : Grows next n) :
    Grows (edit >>= fun _ => next) (n + m) := by
  intro s t ht
  cases hs : edit s with
  | ok _ u =>
    rw [Action.bind_ok hs] at ht
    rw [h' u t ht, h s u hs, Nat.add_assoc]
  | error e u =>
    rw [Action.bind_error hs] at ht
    cases ht

theorem grows_forM_push (bytes : Bytes) : Grows (bytes.forM push) bytes.length := by
  induction bytes with
  | nil => exact grows_pure
  | cons b rest ih => exact (grows_push b).andThen ih

end Scratch

namespace Span

/-- What makes the text longer by a number of bytes, counted. -/
theorem counted_carriesOut {act : Checked Span Unit} {edit : Scratch.Edit Unit} {n : Nat}
    (h : Checked.CarriesOut view act edit) (hgrows : Scratch.Grows edit n) :
    Checked.CarriesOut view (counted act) (edit >>= fun _ => pure n) := by
  intro s
  unfold Checked.CarriesOutAt counted
  rw [Action.bind_ok (length_eq s)]
  refine (h s).bind fun _ t ht => ?_
  have hgrown := hgrows _ _ ((h s).eq_ok ht)
  unfold Checked.CarriesOutAt
  rw [Action.bind_ok (length_eq t), hgrown, Checked.sub_of (by omega), Nat.add_sub_cancel]
  rfl

/-- What puts a text byte by byte, counted. -/
theorem counted_pushText {act : Checked Span Unit} {text : Bytes}
    (h : Checked.CarriesOut view act (text.reverse.forM Scratch.push)) :
    Checked.CarriesOut view (counted act) (Scratch.pushText text) := by
  have hgrows := Scratch.grows_forM_push text.reverse
  rw [List.length_reverse] at hgrows
  exact counted_carriesOut h hgrows

theorem pushField_carriesOut (b : Base) (upper : Bool) (digits n : Nat) :
    Checked.CarriesOut view (pushField b upper digits n)
      ((zeroFilled digits (b.text upper n)).reverse.forM Scratch.push) := by
  rw [zeroFilled, List.reverse_append, Action.forM_append, List.reverse_replicate]
  have h := counted_pushText (pushDigits_carriesOut b upper n)
  have hnumeral : Scratch.pushText (b.text upper n) >>= (fun written =>
      (List.replicate (digits - written) zero).forM Scratch.push) =
      (b.text upper n).reverse.forM Scratch.push >>= fun _ =>
        (List.replicate (digits - (b.text upper n).length) zero).forM Scratch.push := by
    rw [Scratch.pushText, bind_assoc]
    rfl
  rw [← hnumeral]
  exact h.bind fun written => Checked.CarriesOut.forM push_carriesOut _

end Span
end PrintFormat
