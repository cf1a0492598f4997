import PrintFormat.Proofs.Checked.Decimal
import PrintFormat.Proofs.Numeral.Words

/-!
The scratch span in use: additions put text in front of it, zeros are brought
in, and it is emptied, in any order and whether or not the ones before
succeeded.

* `Addition.keepsText`: an addition leaves the text it found at the end of what
  it leaves, where it fails too. Along a run in which the span is not emptied,
  what stands behind the sign stays there (`unsigned_run`).
* `Span.run_view`: a run over the cells of the span is the run over its text, so
  none of its operations meets a breach.
* `Span.run_surjective`: there is a run to every span, so that what holds after
  every run is what holds of every span.
* `Span.run_pads_and_keeps`: what each operation does after any run.
-/
namespace PrintFormat

namespace Scratch

/-! ## Operations -/

/-- What puts text in front of a span: a byte, a text, an integer in a base, a
float. -/
inductive Addition
  | byte (b : UInt8)
  | text (bytes : Bytes)
  | integer {width : Nat} (base : Nat) (upper signed : Bool) (v : BitVec width)
  | float (v : Binary64) (rounding : Rounding) (precision : Nat) (upper : Bool)

/-- What can be done to a span. -/
inductive Operation
  | add (addition : Addition)
  | zeroPad (width : Nat)
  | reset

/-- Numbers answer by how many bytes the text has grown. -/
def Addition.edit : Addition → Edit (Option Nat)
  | byte b => do
      push b
      return none
  | text bytes => do
      prepend bytes
      return none
  | integer base upper signed v =>
      return some (← pushText (wordText (.clamp base) upper signed v))
  | float v rounding precision upper => return some (← pushFloat v rounding precision upper)

def Operation.edit : Operation → Edit (Option Nat)
  | add addition => addition.edit
  | zeroPad width => do
      modify (Scratch.zeroPad width)
      return none
  | reset => do
      set empty
      return none

/-- What operations leave, each done to what the one before left, also where
that failed. -/
def run (s : Scratch) (ops : List Operation) : Scratch :=
  ops.foldl (fun s op => Action.left (op.edit s)) s

/-! ## Text that stays -/

/-- An edit that leaves the text it finds at the end of what it leaves, where it
fails too. -/
def KeepsText {α : Type} (edit : Edit α) : Prop :=
  ∀ s, s.text <:+ (Action.left (edit s)).text

namespace KeepsText

variable {α β : Type}

theorem pure (a : α) : KeepsText (Pure.pure a) := fun _ => List.suffix_rfl

theorem throw (e : FormatError) : KeepsText (α := α) (MonadExcept.throw e) := fun _ =>
  List.suffix_rfl

theorem bind {edit : Edit α} {next : α → Edit β} (h : KeepsText edit)
    (h' : ∀ a, KeepsText (next a)) : KeepsText (edit >>= next) := by
  intro s
  have hnext (a : α) (t : Scratch) (ht : s.text <:+ t.text) :
      s.text <:+ (Action.left (next a t)).text := ht.trans (h' a t)
  exact Action.bind_left (p := fun t : Scratch => s.text <:+ t.text) (h s) hnext

theorem ite {p : Prop} [Decidable p] {edit edit' : Edit α} (h : KeepsText edit)
    (h' : KeepsText edit') : KeepsText (if p then edit else edit') := by
  split
  · exact h
  · exact h'

theorem push (b : UInt8) : KeepsText (Scratch.push b) := by
  intro s
  unfold Scratch.push
  split
  · exact List.suffix_cons b s.text
  · exact List.suffix_rfl

theorem prepend (bytes : Bytes) : KeepsText (Scratch.prepend bytes) := by
  intro s
  unfold Scratch.prepend
  split
  · exact List.suffix_append bytes s.text
  · exact List.suffix_rfl

theorem pushText (bytes : Bytes) : KeepsText (Scratch.pushText bytes) := by
  refine bind (fun s => ?_) fun _ => pure _
  have hpush (b : UInt8) (t : Scratch) (ht : s.text <:+ t.text) :
      s.text <:+ (Action.left (Scratch.push b t)).text := ht.trans (push b t)
  exact Action.forM_left (p := fun t : Scratch => s.text <:+ t.text) hpush bytes.reverse
    List.suffix_rfl

theorem pushFloat (v : Binary64) (rounding : Rounding) (precision : Nat) (upper : Bool) :
    KeepsText (Scratch.pushFloat v rounding precision upper) := by
  unfold Scratch.pushFloat
  refine ite ((prepend _).bind fun _ => pure _) (ite ((prepend _).bind fun _ => ?_) ?_)
  · exact ite ((push _).bind fun _ => pure _) (pure _)
  · exact ite (throw _) (pushText _)

end KeepsText

theorem Addition.keepsText (addition : Addition) : KeepsText addition.edit := by
  cases addition with
  | byte b => exact (KeepsText.push b).bind fun _ => .pure none
  | text bytes => exact (KeepsText.prepend bytes).bind fun _ => .pure none
  | integer base upper signed v => exact (KeepsText.pushText _).bind fun n => .pure (some n)
  | float v rounding precision upper =>
    exact (KeepsText.pushFloat v rounding precision upper).bind fun n => .pure (some n)

/-- What stands behind the sign stays behind it in every operation but one. -/
theorem unsigned_edit {op : Operation} (h : op ≠ .reset) (s : Scratch) :
    unsigned s.text <:+ unsigned (Action.left (op.edit s)).text := by
  cases op with
  | add addition => exact unsigned_suffix_unsigned (addition.keepsText s)
  | zeroPad width =>
    show unsigned s.text <:+ unsigned (padded _ s.text)
    rw [unsigned_padded]
    exact List.suffix_append _ _
  | reset => exact absurd rfl h

theorem unsigned_run {ops : List Operation} (h : ∀ op ∈ ops, op ≠ .reset) (s : Scratch) :
    unsigned s.text <:+ unsigned (s.run ops).text := by
  induction ops generalizing s with
  | nil => exact List.suffix_rfl
  | cons op rest ih =>
    have hstep := unsigned_edit (h op List.mem_cons_self) s
    exact hstep.trans (ih (fun op hop => h op (List.mem_cons_of_mem _ hop)) _)

end Scratch

namespace Span

open Scratch (Addition Operation signOf unsigned)

/-! ## Operations on cells -/

/-- Puts an integer in front in a base and answers how many bytes that took. -/
def pushInteger {width : Nat} (base : Nat) (upper signed : Bool) (v : BitVec width) :
    Checked Span Nat :=
  let b := Base.clamp base
  counted (pushSigned b upper (b.value = 10 && signed && v.toInt < 0)
    (Scratch.shownMagnitude b signed v))

/-- An addition on the cells. -/
def add : Addition → Checked Span (Option Nat)
  | .byte b => do
      push b
      return none
  | .text bytes => do
      prepend bytes
      return none
  | .integer base upper signed v => return some (← pushInteger base upper signed v)
  | .float v rounding precision upper => return some (← pushFloat v rounding precision upper)

/-- An operation on the cells. -/
def operate : Operation → Checked Span (Option Nat)
  | .add addition => add addition
  | .zeroPad width => do
      zeroPad width
      return none
  | .reset => do
      reset
      return none

/-- The span over zeros without text. -/
def fresh : Span := ofScratch .empty

/-- What operations leave, each done to what the one before left, also where
that failed. -/
def run (s : Span) (ops : List Operation) : Span :=
  ops.foldl (fun s op => Action.left (operate op s)) s

/-! ### Carried out -/

theorem pushInteger_carriesOut {width : Nat} (base : Nat) (upper signed : Bool)
    (v : BitVec width) :
    Checked.CarriesOut view (pushInteger base upper signed v)
      (Scratch.pushText (wordText (.clamp base) upper signed v)) := by
  generalize hb : Base.clamp base = b
  have hsign : (b.value = 10 && signed && v.toInt < 0) = true ↔
      b.value = 10 ∧ signed = true ∧ v.toInt < 0 := by simp [and_assoc]
  have h := pushSigned_carriesOut b upper (b.value = 10 && signed && v.toInt < 0)
    (Scratch.shownMagnitude b signed v)
  simp only [hsign, ← Scratch.wordText_eq] at h
  rw [pushInteger, hb]
  exact counted_pushText h

theorem add_carriesOut (addition : Addition) :
    Checked.CarriesOut view (add addition) addition.edit := by
  cases addition with
  | byte b => exact (push_carriesOut b).bind fun _ => .pure none
  | text bytes => exact (prepend_carriesOut bytes).bind fun _ => .pure none
  | integer base upper signed v =>
    exact (pushInteger_carriesOut base upper signed v).bind fun n => .pure (some n)
  | float v rounding precision upper =>
    exact (pushFloat_carriesOut v rounding precision upper).bind fun n => .pure (some n)

theorem operate_carriesOut (op : Operation) :
    Checked.CarriesOut view (operate op) op.edit := by
  cases op with
  | add addition => exact add_carriesOut addition
  | zeroPad width => exact (zeroPad_carriesOut width).bind fun _ => .pure none
  | reset => exact reset_carriesOut.bind fun _ => .pure none

/-- A run over cells is the run over their text. -/
theorem run_view (s : Span) (ops : List Operation) : (s.run ops).view = s.view.run ops := by
  induction ops generalizing s with
  | nil => rfl
  | cons op rest ih =>
    show (run (Action.left (operate op s)) rest).view =
      Scratch.run (Action.left (op.edit s.view)) rest
    rw [ih, (operate_carriesOut op).view_left]

/-! ## What each operation does -/

/-- A text put into an emptied row. -/
theorem add_text_emptied {s : Span} {t : Scratch} (h : s.start = scratchCapacity) :
    Action.left (operate (.add (.text t.text)) s) = s.withText t := by
  have hempty : s.view.text = [] := List.drop_eq_nil_of_le (h ▸ s.size.le)
  have hfits : (t.text ++ s.view.text).length ≤ scratchCapacity := by
    rw [hempty, List.append_nil]
    exact t.fits
  have hadd : operate (.add (.text t.text)) s = .ok none (s.withText ⟨_, hfits⟩) :=
    Action.bind_ok (prepend_ok hfits)
  have htext : (⟨_, hfits⟩ : Scratch) = t := by
    ext1
    show t.text ++ s.view.text = t.text
    rw [hempty, List.append_nil]
  rw [hadd, htext, Action.left]

/-- There is a run to every span: its cells are written, the span is emptied, and
its text is put over the end of them. -/
theorem run_surjective (s : Span) : ∃ ops, fresh.run ops = s := by
  let full : Scratch := ⟨s.cells, s.size.le⟩
  let emptied : Span := ⟨s.cells, scratchCapacity, s.size, Nat.le_refl _⟩
  have hcells : (fresh.withText full).cells = s.cells := by
    have hroom : full.room = 0 := Nat.sub_eq_zero_of_le s.size.ge
    show fresh.cells.take full.room ++ s.cells = s.cells
    rw [hroom, List.take_zero, List.nil_append]
  have hfull : Action.left (operate (.add (.text full.text)) fresh) = fresh.withText full :=
    add_text_emptied rfl
  have hreset : Action.left (operate .reset (fresh.withText full)) = emptied :=
    Span.ext hcells rfl
  have htext : Action.left (operate (.add (.text s.view.text)) emptied) = emptied.withText s.view :=
    add_text_emptied rfl
  refine ⟨[.add (.text full.text), .reset, .add (.text s.view.text)], ?_⟩
  simp only [run, List.foldl_cons, List.foldl_nil, hfull, hreset, htext]
  exact s.withText_view

theorem push_cases (byte : UInt8) (s : Span) :
    if 0 < s.start then ∃ t, push byte s = .ok () t ∧ t.view.text = byte :: s.view.text
    else push byte s = .error (.error .scratchOverflow) s := by
  split
  · next h =>
    have hroom := (s.fits_cons_iff byte).mpr h.ne'
    exact ⟨_, push_ok hroom, congrArg Scratch.text (s.view_withText _)⟩
  · next h => exact push_full byte (by omega)

theorem prepend_cases (bytes : Bytes) (s : Span) :
    if bytes.length ≤ s.start then
      ∃ t, prepend bytes s = .ok () t ∧ t.view.text = bytes ++ s.view.text
    else prepend bytes s = .error (.error .scratchOverflow) s := by
  split
  · next h =>
    have hroom := (s.fits_append_iff bytes).mpr h
    exact ⟨_, prepend_ok hroom, congrArg Scratch.text (s.view_withText _)⟩
  · next h => exact prepend_full (Nat.lt_of_not_le h)

/-- Zeros come to stand between the sign and the rest. -/
theorem zeroPad_text (width : Nat) (s : Span) :
    let text := s.view.text
    let length := max text.length (min width scratchCapacity)
    ∃ t, zeroPad width s = .ok () t ∧
      t.view.text =
        signOf text ++ List.replicate (length - text.length) zero ++ unsigned text ∧
      t.view.text.length = length := by
  intro text length
  have hcount : min width scratchCapacity - text.length = length - text.length := by omega
  refine ⟨_, zeroPad_ok width s, ?_, ?_⟩
  · rw [view_withText, Scratch.text_zeroPad, Scratch.padded_eq, hcount]
  · rw [view_withText, Scratch.text_zeroPad, Scratch.length_padded, Nat.max_comm]

/-- Zeros brought in twice are those of the greater length, cell by cell. -/
theorem zeroPad_zeroPad (a b : Nat) :
    (zeroPad a >>= fun _ => zeroPad b) = zeroPad (max a b) := by
  funext s
  have hlonger : (s.view.zeroPad a).text.length ≤ ((s.view.zeroPad a).zeroPad b).text.length := by
    rw [Scratch.text_zeroPad b, Scratch.length_padded]
    exact Nat.le_max_right _ _
  rw [Action.bind_ok (zeroPad_ok a s), zeroPad_ok, zeroPad_ok, view_withText,
    withText_withText s hlonger, Scratch.zeroPad_zeroPad]

/-- Whatever was done to a span, and whether or not it succeeded: its text is what
the operations on texts leave, and the next operation meets no breach and does to
its cells what it does to its text. Zeros can always be brought in; they come to
stand behind the sign and reach the length asked for, as far as there are cells.
Twice is once with the greater length. A byte or a text that there is no room for
leaves the span as it is, and no addition, not even one that fails, changes the
text that it finds. -/
theorem run_pads_and_keeps (ops : List Operation) :
    let s := fresh.run ops
    let text := s.view.text
    s.view = Scratch.empty.run ops ∧
    (∀ op, Checked.CarriesOutAt view s (operate op) op.edit) ∧
    text = signOf text ++ unsigned text ∧
    (∀ width, ∃ t, zeroPad width s = .ok () t ∧
      let length := max text.length (min width scratchCapacity)
      t.view.text =
        signOf text ++ List.replicate (length - text.length) zero ++ unsigned text ∧
      t.view.text.length = length) ∧
    (∀ a b, (zeroPad a >>= fun _ => zeroPad b) s = zeroPad (max a b) s) ∧
    (∀ byte, if 0 < s.start then ∃ t, push byte s = .ok () t ∧ t.view.text = byte :: text
      else push byte s = .error (.error .scratchOverflow) s) ∧
    (∀ bytes, if bytes.length ≤ s.start then
        ∃ t, prepend bytes s = .ok () t ∧ t.view.text = bytes ++ text
      else prepend bytes s = .error (.error .scratchOverflow) s) ∧
    ∀ addition, text <:+ (Action.left (add addition s)).view.text := by
  intro s text
  refine ⟨?_, fun op => operate_carriesOut op s, (Scratch.signOf_append_unsigned text).symm,
    fun width => zeroPad_text width s, fun a b => ?_, fun byte => push_cases byte s,
    fun bytes => prepend_cases bytes s, fun addition => ?_⟩
  · rw [run_view, fresh, view_ofScratch]
  · rw [zeroPad_zeroPad]
  · rw [(add_carriesOut addition).view_left]
    exact addition.keepsText s.view

end Span
end PrintFormat
