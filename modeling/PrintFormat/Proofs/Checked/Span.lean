import PrintFormat.Proofs.Checked.Computation
import PrintFormat.Proofs.Scratch.Spans

/-!
The scratch span in its cells. The span is what stands in a row of 81 cells from
a start on, and the start moves towards the front as text is put there. Moves of
the start, and the parts of the row that are read and written, are checked.
-/
namespace PrintFormat

/-- A row of cells that holds text from a start on. What stands in front of it
is left over. -/
structure Span where
  cells : Bytes
  start : Nat
  size : cells.length = scratchCapacity
  fits : start ≤ scratchCapacity

namespace Span

/-- The text of a span. -/
def view (s : Span) : Scratch where
  text := s.cells.drop s.start
  fits := by
    have := s.size
    rw [List.length_drop]
    omega

/-- A span over zeros that holds a text. -/
def ofScratch (s : Scratch) : Span where
  cells := List.replicate (scratchCapacity - s.text.length) 0 ++ s.text
  start := scratchCapacity - s.text.length
  size := by
    have := s.fits
    rw [List.length_append, List.length_replicate]
    omega
  fits := Nat.sub_le _ _

/-- Drops the text. -/
def reset : Checked Span Unit :=
  modify fun s => { s with start := scratchCapacity, fits := Nat.le_refl _ }

/-- The length of the text. -/
def length : Checked Span Nat := do
  Checked.sub scratchCapacity (← get).start

/-- The text. -/
def text : Checked Span Bytes := do
  let s ← get
  Checked.slice s.cells s.start s.cells.length

/-- The span from a cell on, with a byte in that cell. -/
def withByte (s : Span) (start : Nat) (byte : UInt8) (h : start < s.cells.length) : Span where
  cells := s.cells.set start byte
  start := start
  size := by rw [List.length_set, s.size]
  fits := s.size ▸ Nat.le_of_lt h

/-- The span from a cell on, with bytes in the cells up to the old start. -/
def withBytes (s : Span) (start : Nat) (bytes : Bytes)
    (h : start ≤ s.start ∧ s.start ≤ s.cells.length ∧ bytes.length = s.start - start) : Span where
  cells := s.cells.take start ++ bytes ++ s.cells.drop s.start
  start := start
  size := by
    have := s.size
    simp only [List.length_append, List.length_take, List.length_drop]
    omega
  fits := Nat.le_trans h.1 s.fits

/-- Puts one byte in front of the text. -/
def push (byte : UInt8) : Checked Span Unit := do
  let s ← get
  if s.start = 0 then throw (.error .scratchOverflow)
  let start ← Checked.sub s.start 1
  let ⟨h⟩ ← Checked.require (start < s.cells.length)
  set (s.withByte start byte h)

/-- Puts a text in front, all of it or nothing. -/
def prepend (bytes : Bytes) : Checked Span Unit := do
  let s ← get
  if s.start < bytes.length then throw (.error .scratchOverflow)
  let start ← Checked.sub s.start bytes.length
  let ⟨h⟩ ← Checked.require
    (start ≤ s.start ∧ s.start ≤ s.cells.length ∧ bytes.length = s.start - start)
  set (s.withBytes start bytes h)

/-- Takes the first byte of the text away. -/
def dropFirst : Checked Span Unit := do
  let s ← get
  let ⟨h⟩ ← Checked.require (s.start + 1 ≤ scratchCapacity)
  set { s with start := s.start + 1, fits := h : Span }

/-- Puts zeros in front until the text has a length. -/
def pushZeros (target : Nat) : Checked Span Unit := do
  (List.replicate (target - (← length)) zero).forM push

/-- Puts zeros in front, behind a sign if there is one, which is taken away
first and put back. -/
def pushZerosBehind (sign : Option UInt8) (target : Nat) : Checked Span Unit :=
  match sign with
  | none => pushZeros target
  | some byte => do
      dropFirst
      pushZeros (← Checked.sub target 1)
      push byte

/-- Brings the text to a length by zeros. A leading sign stays in front and
counts; a length beyond the cells counts as their number. -/
def zeroPad (width : Nat) : Checked Span Unit := do
  let width := min width scratchCapacity
  if width ≤ (← length) then
    return
  else
    pushZerosBehind ((← text).head?.filter Scratch.isSign) width

/-! ### Carried out -/

@[simp] theorem view_text (s : Span) : s.view.text = s.cells.drop s.start := rfl

theorem length_view_text (s : Span) : s.view.text.length = scratchCapacity - s.start := by
  rw [view_text, List.length_drop, s.size]

/-- There is room for a text as long as its bytes are no more than the cells in
front. -/
theorem fits_append_iff (s : Span) (bytes : Bytes) :
    (bytes ++ s.view.text).length ≤ scratchCapacity ↔ bytes.length ≤ s.start := by
  have := s.fits
  rw [List.length_append, length_view_text]
  omega

theorem fits_cons_iff (s : Span) (byte : UInt8) :
    (byte :: s.view.text).length ≤ scratchCapacity ↔ s.start ≠ 0 :=
  (s.fits_append_iff [byte]).trans Nat.one_le_iff_ne_zero

theorem view_eq {s : Span} {t : Scratch} (h : s.view.text = t.text) : s.view = t :=
  Scratch.ext h

theorem view_ofScratch (s : Scratch) : (ofScratch s).view = s :=
  view_eq (List.drop_left' List.length_replicate)

theorem get_span (s : Span) : (get : Checked Span Span) s = .ok s s := rfl

theorem length_eq (s : Span) : length s = .ok s.view.text.length s := by
  rw [length_view_text]
  refine (Action.bind_ok (get_span s)).trans ?_
  rw [Checked.sub_of s.fits]
  rfl

theorem text_eq (s : Span) : text s = .ok s.view.text s := by
  refine (Action.bind_ok (get_span s)).trans ?_
  rw [Checked.slice_of (s.size ▸ s.fits) (Nat.le_refl _), List.take_length]
  rfl

/-! #### The row with another text -/

attribute [ext] Span

/-- The row with a text at its end. What stands in front of that is left. -/
def withText (s : Span) (t : Scratch) : Span where
  cells := s.cells.take t.room ++ t.text
  start := t.room
  size := by
    have := s.size
    have := t.fits
    rw [List.length_append, List.length_take, Scratch.room]
    omega
  fits := Nat.sub_le _ _

theorem room_view (s : Span) : s.view.room = s.start := by
  have := s.fits
  rw [Scratch.room, length_view_text]
  omega

@[simp] theorem view_withText (s : Span) (t : Scratch) : (s.withText t).view = t := by
  have hroom : (s.cells.take t.room).length = t.room := by
    rw [List.length_take, s.size]
    exact Nat.min_eq_left (Nat.sub_le _ _)
  exact view_eq (List.drop_left' hroom)

@[simp] theorem withText_view (s : Span) : s.withText s.view = s := by
  ext1
  · show s.cells.take s.view.room ++ s.cells.drop s.start = s.cells
    rw [room_view, List.take_append_drop]
  · exact s.room_view

/-- A text is written over a shorter one. -/
theorem withText_withText (s : Span) {t u : Scratch} (h : t.text.length ≤ u.text.length) :
    (s.withText t).withText u = s.withText u := by
  have hroom : u.room ≤ t.room := Nat.sub_le_sub_left h _
  have hcells : u.room ≤ (s.cells.take t.room).length := by
    rw [List.length_take, s.size]
    exact Nat.le_min.mpr ⟨hroom, Nat.sub_le _ _⟩
  ext1
  · show (s.cells.take t.room ++ t.text).take u.room ++ u.text = s.cells.take u.room ++ u.text
    rw [List.take_append_of_le_length hcells, List.take_take, Nat.min_eq_left hroom]
  · rfl

theorem withByte_eq (s : Span) {start : Nat} (byte : UInt8) (h : start < s.cells.length)
    (hstart : start + 1 = s.start) (hfits : (byte :: s.view.text).length ≤ scratchCapacity) :
    s.withByte start byte h = s.withText ⟨byte :: s.view.text, hfits⟩ := by
  have hroom : start = Scratch.room ⟨byte :: s.view.text, hfits⟩ := by
    have := s.fits
    rw [Scratch.room, List.length_cons, length_view_text]
    omega
  ext1
  · show s.cells.set start byte = s.cells.take _ ++ byte :: s.cells.drop s.start
    rw [List.set_eq_take_append_cons_drop, if_pos h, hstart, ← hroom]
  · exact hroom

theorem withBytes_eq (s : Span) {start : Nat} {bytes : Bytes}
    (h : start ≤ s.start ∧ s.start ≤ s.cells.length ∧ bytes.length = s.start - start)
    (hfits : (bytes ++ s.view.text).length ≤ scratchCapacity) :
    s.withBytes start bytes h = s.withText ⟨bytes ++ s.view.text, hfits⟩ := by
  have hroom : start = Scratch.room ⟨bytes ++ s.view.text, hfits⟩ := by
    have := s.fits
    rw [Scratch.room, List.length_append, length_view_text]
    omega
  ext1
  · show s.cells.take start ++ bytes ++ s.cells.drop s.start =
      s.cells.take _ ++ (bytes ++ s.cells.drop s.start)
    rw [List.append_assoc, ← hroom]
  · exact hroom

/-! #### What the operations come to -/

/-- What depends on the text of the span. -/
theorem text_carriesOut {α : Type} {k : Bytes → Checked Span α} {l : Bytes → Scratch.Edit α}
    (h : ∀ text, Checked.CarriesOut view (k text) (l text)) :
    Checked.CarriesOut view (text >>= k) (get >>= fun s => l s.text) := by
  intro s
  unfold Checked.CarriesOutAt
  rw [Action.bind_ok (text_eq s)]
  exact h s.view.text s

theorem reset_carriesOut : Checked.CarriesOut view reset (set Scratch.empty) := fun s =>
  Checked.carriesOutAt_of_ok rfl (congrArg (EStateM.Result.ok ())
    (view_eq (t := .empty) (List.drop_eq_nil_of_le s.size.le)).symm)

theorem push_ok {s : Span} {byte : UInt8}
    (h : (byte :: s.view.text).length ≤ scratchCapacity) :
    push byte s = .ok () (s.withText ⟨byte :: s.view.text, h⟩) := by
  have hsize := s.size
  have hfits := s.fits
  have hstart := (s.fits_cons_iff byte).mp h
  have hcell : s.start - 1 < s.cells.length := by omega
  refine (Action.bind_ok (get_span s)).trans ?_
  rw [if_neg hstart, Checked.sub_of (by omega), pure_bind, Checked.require_of hcell,
    ← s.withByte_eq byte hcell (by omega)]
  rfl

theorem push_withText (s : Span) {t : Scratch} {byte : UInt8}
    (h : (byte :: t.text).length ≤ scratchCapacity) :
    push byte (s.withText t) = .ok () (s.withText ⟨byte :: t.text, h⟩) := by
  rw [push_ok (by rwa [view_withText]), withText_withText s (by simp)]
  simp only [view_withText]

theorem push_full {s : Span} (byte : UInt8) (h : s.start = 0) :
    push byte s = .error (.error .scratchOverflow) s := by
  refine (Action.bind_ok (get_span s)).trans ?_
  rw [if_pos h]
  rfl

theorem prepend_ok {s : Span} {bytes : Bytes}
    (h : (bytes ++ s.view.text).length ≤ scratchCapacity) :
    prepend bytes s = .ok () (s.withText ⟨bytes ++ s.view.text, h⟩) := by
  have hsize := s.size
  have hfits := s.fits
  have hroom := (s.fits_append_iff bytes).mp h
  have hcopy : s.start - bytes.length ≤ s.start ∧ s.start ≤ s.cells.length ∧
      bytes.length = s.start - (s.start - bytes.length) := by omega
  refine (Action.bind_ok (get_span s)).trans ?_
  rw [if_neg (by omega), Checked.sub_of hroom, pure_bind, Checked.require_of hcopy,
    ← s.withBytes_eq hcopy]
  rfl

theorem prepend_full {s : Span} {bytes : Bytes} (h : s.start < bytes.length) :
    prepend bytes s = .error (.error .scratchOverflow) s := by
  refine (Action.bind_ok (get_span s)).trans ?_
  rw [if_pos h]
  rfl

theorem push_carriesOut (byte : UInt8) :
    Checked.CarriesOut view (push byte) (Scratch.push byte) := by
  intro s
  by_cases hs : s.start = 0
  · have hfull : ¬s.view.text.length < scratchCapacity :=
      mt (s.fits_cons_iff byte).mp (not_not.mpr hs)
    refine Checked.carriesOutAt_of_error (push_full byte hs) ?_
    rw [Scratch.push, dif_neg hfull]
  · have hroom := (s.fits_cons_iff byte).mpr hs
    refine Checked.carriesOutAt_of_ok (push_ok hroom) ?_
    rw [Scratch.push_ok byte hroom, view_withText]

theorem prepend_carriesOut (bytes : Bytes) :
    Checked.CarriesOut view (prepend bytes) (Scratch.prepend bytes) := by
  intro s
  by_cases hs : s.start < bytes.length
  · have hfull := mt (s.fits_append_iff bytes).mp (Nat.not_le_of_lt hs)
    refine Checked.carriesOutAt_of_error (prepend_full hs) ?_
    rw [Scratch.prepend, dif_neg hfull]
  · have hroom := (s.fits_append_iff bytes).mpr (Nat.le_of_not_lt hs)
    refine Checked.carriesOutAt_of_ok (prepend_ok hroom) ?_
    rw [Scratch.prepend_ok hroom, view_withText]

/-- Bytes put one by one, each in front of the ones before. -/
theorem forM_push {s : Span} {bytes : Bytes}
    (h : (bytes.reverse ++ s.view.text).length ≤ scratchCapacity) :
    bytes.forM push s = .ok () (s.withText ⟨bytes.reverse ++ s.view.text, h⟩) := by
  induction bytes generalizing s with
  | nil => exact congrArg (EStateM.Result.ok ()) s.withText_view.symm
  | cons b rest ih =>
    have hroom : (b :: s.view.text).length ≤ scratchCapacity := by
      simp only [List.length_append, List.length_reverse, List.length_cons] at h ⊢
      omega
    have hrest : (b :: rest).reverse ++ s.view.text = rest.reverse ++ b :: s.view.text := by simp
    rw [Action.forM_cons_ok (push_ok hroom) rest, ih (by rwa [view_withText, ← hrest]),
      withText_withText _ (by simp)]
    simp only [view_withText, hrest]

theorem dropFirst_ok {s : Span} {b : UInt8} {rest : Bytes} (h : s.view.text = b :: rest)
    (hfits : rest.length ≤ scratchCapacity) : dropFirst s = .ok () (s.withText ⟨rest, hfits⟩) := by
  have hlen := s.length_view_text
  rw [h, List.length_cons] at hlen
  have hstart : s.start + 1 ≤ scratchCapacity := by omega
  have hroom : s.start + 1 = Scratch.room ⟨rest, hfits⟩ := by
    show s.start + 1 = scratchCapacity - rest.length
    omega
  have hrest : s.cells.drop (s.start + 1) = rest := by
    rw [← List.tail_drop, ← view_text, h, List.tail_cons]
  refine (Action.bind_ok (get_span s)).trans ?_
  rw [Checked.require_of hstart]
  refine congrArg (EStateM.Result.ok ()) (Span.ext ?_ hroom)
  show s.cells = s.cells.take _ ++ rest
  rw [← hroom, ← hrest, List.take_append_drop]

theorem pushZeros_ok {s : Span} {target : Nat}
    (h : (zeroFilled target s.view.text).length ≤ scratchCapacity) :
    pushZeros target s = .ok () (s.withText ⟨zeroFilled target s.view.text, h⟩) := by
  refine (Action.bind_ok (length_eq s)).trans ?_
  rw [forM_push (by rwa [List.reverse_replicate])]
  simp only [List.reverse_replicate, zeroFilled]

theorem pushZeros_withText (s : Span) {t : Scratch} {target : Nat}
    (h : (zeroFilled target t.text).length ≤ scratchCapacity) :
    pushZeros target (s.withText t) = .ok () (s.withText ⟨zeroFilled target t.text, h⟩) := by
  have hlonger : t.text.length ≤ (zeroFilled target t.text).length := by
    rw [length_zeroFilled]
    exact Nat.le_max_right _ _
  rw [pushZeros_ok (by rwa [view_withText]), withText_withText s (by simpa using hlonger)]
  simp only [view_withText]

/-- The zeros are put one by one for as long as the text is too short, with its
length asked for anew each time. -/
theorem pushZeros_eq (target : Nat) : pushZeros target = (do
    if (← length) < target then
      push zero
      pushZeros target) := by
  funext s
  refine (Action.bind_ok (length_eq s)).trans ((Action.bind_ok (length_eq s)).trans ?_).symm
  by_cases hlen : s.view.text.length < target
  · have hcount : target - s.view.text.length = target - (s.view.text.length + 1) + 1 := by omega
    rw [if_pos hlen, hcount, List.replicate_succ]
    by_cases hs : s.start = 0
    · rw [Action.bind_error (push_full zero hs), Action.forM_cons_error (push_full zero hs)]
    · have hroom := (s.fits_cons_iff zero).mpr hs
      rw [Action.bind_ok (push_ok hroom), Action.forM_cons_ok (push_ok hroom), pushZeros,
        Action.bind_ok (length_eq _), view_withText, List.length_cons]
  · rw [if_neg hlen, Nat.sub_eq_zero_of_le (Nat.le_of_not_lt hlen)]
    rfl

theorem pushZerosBehind_ok {s : Span} {target : Nat} (hlen : s.view.text.length < target)
    (h : (Scratch.padded target s.view.text).length ≤ scratchCapacity) :
    pushZerosBehind (s.view.text.head?.filter Scratch.isSign) target s =
      .ok () (s.withText ⟨Scratch.padded target s.view.text, h⟩) := by
  cases hsign : s.view.text.head?.filter Scratch.isSign with
  | none =>
    have hunsigned : ∀ b ∈ s.view.text.head?, Scratch.isSign b = false := fun b hb => by
      simpa using Option.filter_eq_none_iff.mp hsign b hb
    have hpadded := Scratch.padded_of_not_isSign hunsigned target
    rw [pushZerosBehind, pushZeros_ok (hpadded ▸ h)]
    simp only [hpadded]
  | some b =>
    obtain ⟨hhead, hb⟩ := Option.filter_eq_some_iff.mp hsign
    obtain ⟨rest, htext⟩ := List.head?_eq_some_iff.mp hhead
    have hpadded : Scratch.padded target s.view.text = b :: zeroFilled (target - 1) rest := by
      rw [htext, Scratch.padded_of_isSign hb]
    have hfits : (b :: zeroFilled (target - 1) rest).length ≤ scratchCapacity := hpadded ▸ h
    have hzeros : (zeroFilled (target - 1) rest).length ≤ scratchCapacity :=
      Nat.le_of_succ_le hfits
    have hrest : rest.length ≤ scratchCapacity := by
      rw [length_zeroFilled] at hzeros
      exact (Nat.le_max_right _ _).trans hzeros
    -- the zeros go up to one byte less, which leaves a cell for the sign
    have hdrop := dropFirst_ok htext hrest
    have hfill := s.pushZeros_withText (t := ⟨rest, hrest⟩) hzeros
    have hsigned := s.push_withText (t := ⟨_, hzeros⟩) hfits
    rw [pushZerosBehind, Action.bind_ok hdrop, Checked.sub_of (by omega), pure_bind,
      Action.bind_ok hfill, hsigned]
    simp only [hpadded]

/-- Zeros are brought in on every span, at any fill: the row stays as it is in
front of the text that comes out. -/
theorem zeroPad_ok (width : Nat) (s : Span) :
    zeroPad width s = .ok () (s.withText (s.view.zeroPad width)) := by
  refine (Action.bind_ok (length_eq s)).trans ?_
  by_cases hlen : min width scratchCapacity ≤ s.view.text.length
  · have hsame : s.view.zeroPad width = s.view :=
      Scratch.ext (Scratch.padded_of_le hlen)
    rw [if_pos hlen, hsame, withText_view]
    rfl
  · rw [if_neg hlen, Action.bind_ok (text_eq s)]
    exact pushZerosBehind_ok (Nat.lt_of_not_le hlen) (s.view.zeroPad width).fits

theorem zeroPad_carriesOut (width : Nat) :
    Checked.CarriesOut view (zeroPad width) (modify (Scratch.zeroPad width)) := fun s =>
  Checked.carriesOutAt_of_ok (zeroPad_ok width s)
    (congrArg (EStateM.Result.ok ()) (s.view_withText _).symm)

end Span
end PrintFormat
