import PrintFormat.Proofs.Action
import PrintFormat.Sink

/-!
Writes in a row. `Target.writeEach` writes texts in order until one fails, and
every operation of a sink comes down to it: `Sink.putAll_eq` says which texts
the pieces of an output reach the target as. What is in memory that grows is the
concatenation of the texts. A limited target, a buffer or a stream to a writer
with a limit, is told by `Target.Limited`, and `Target.Limited.writeEach` is the
only statement that looks into one: whatever the split into texts is, the target
ends with as many bytes of the concatenation as its limit allows, and the
writes fail exactly if that is not all.
-/
namespace PrintFormat

/-! ## Buffers -/

namespace Buffer

theorem overwrite_append (cells : Array UInt8) (start : Nat) (a b : Bytes) :
    overwrite cells start (a ++ b) = overwrite (overwrite cells start a) (start + a.length) b := by
  induction a generalizing cells start with
  | nil => rfl
  | cons x rest ih =>
    rw [List.cons_append, overwrite, overwrite, ih, List.length_cons]
    congr 1
    omega

/-- Cells in front of the position and behind the bytes stay as they are. -/
theorem toList_overwrite (bytes : Bytes) {cells : Array UInt8} {start : Nat}
    (h : start + bytes.length ≤ cells.size) :
    (overwrite cells start bytes).toList =
      cells.toList.take start ++ bytes ++ cells.toList.drop (start + bytes.length) := by
  induction bytes generalizing cells start with
  | nil => simp [overwrite]
  | cons b rest ih =>
    simp only [List.length_cons] at h
    have hs : start < cells.toList.length := by
      simpa using (by omega : start < cells.size)
    rw [overwrite, ih (by simpa using (by omega : start + 1 + rest.length ≤ cells.size)),
      Array.toList_setIfInBounds]
    have ht : (cells.toList.set start b).take (start + 1) = cells.toList.take start ++ [b] := by
      rw [List.take_add_one, List.getElem?_set_self hs, List.take_set_of_le (Nat.le_refl _)]
      rfl
    rw [ht, List.drop_set_of_lt (by omega), List.length_cons]
    simp [Nat.add_assoc, Nat.add_comm 1]

@[simp] theorem capacity_fill (b : Buffer) (bytes : Bytes) :
    (b.fill bytes).capacity = b.capacity := by
  rw [capacity, fill, size_overwrite, capacity]

theorem length_le_capacity (b : Buffer) : b.length ≤ b.capacity := b.fits

@[simp] theorem room_fill (b : Buffer) (bytes : Bytes) :
    (b.fill bytes).room = b.room - bytes.length := by
  have := b.length_le_capacity
  rw [room, capacity_fill]
  simp only [fill, room]
  omega

theorem toList_filled (b : Buffer) : b.filled.toList = b.cells.toList.take b.length := by
  rw [filled, Array.toList_extract, List.extract_eq_take_drop]
  simp

theorem length_filled (b : Buffer) : b.filled.toList.length = b.length := by
  rw [toList_filled, List.length_take, Array.length_toList]
  exact Nat.min_eq_left b.fits

theorem ext_cells {a b : Buffer} (hc : a.cells = b.cells) (hl : a.length = b.length) : a = b := by
  cases a
  cases b
  simp_all

/-- Filling twice is filling with both texts, also where the first does not
fit. -/
theorem fill_fill (b : Buffer) (x y : Bytes) : (b.fill x).fill y = b.fill (x ++ y) := by
  apply ext_cells
  · show overwrite (overwrite b.cells b.length (x.take b.room))
        (b.length + min x.length b.room) (y.take (b.fill x).room) =
      overwrite b.cells b.length ((x ++ y).take b.room)
    rw [room_fill, List.take_append, overwrite_append, List.length_take, Nat.min_comm]
  · show b.length + min x.length b.room + min y.length (b.fill x).room =
      b.length + min (x ++ y).length b.room
    rw [room_fill, List.length_append]
    omega

theorem cells_fill (b : Buffer) (bytes : Bytes) :
    (b.fill bytes).cells.toList = b.filled.toList ++ bytes.take b.room ++
      b.cells.toList.drop (b.fill bytes).length := by
  have hf : (b.fill bytes).length = b.length + (bytes.take b.room).length := by
    rw [List.length_take, Nat.min_comm]
    rfl
  have hle := (b.fill bytes).length_le_capacity
  rw [capacity_fill, hf] at hle
  rw [hf, toList_filled]
  exact toList_overwrite _ hle

theorem filled_fill (b : Buffer) (bytes : Bytes) :
    (b.fill bytes).filled.toList = b.filled.toList ++ bytes.take b.room := by
  have hl : (b.filled.toList ++ bytes.take b.room).length = (b.fill bytes).length := by
    rw [List.length_append, length_filled, List.length_take, Nat.min_comm]
    rfl
  rw [toList_filled, cells_fill, ← hl, List.take_left]

/-- What is behind the filled cells is what was there. -/
theorem drop_cells_fill (b : Buffer) (bytes : Bytes) :
    (b.fill bytes).cells.toList.drop (b.fill bytes).length =
      b.cells.toList.drop (b.fill bytes).length := by
  have hl : (b.filled.toList ++ bytes.take b.room).length = (b.fill bytes).length := by
    rw [← filled_fill, length_filled]
  conv_lhs => rw [cells_fill, ← hl, List.drop_left, hl]

end Buffer

/-! ## Writers -/

namespace Writer

/-- A writer that takes at least one byte of what it is offered, as long as it
has not come to its limit. -/
structure Moves (w : Writer) : Prop where
  chunk : w.chunk ≠ some 0
  pace : ∀ n, w.pace n ≠ some 0

/-- The writer with bytes more. -/
def taking (w : Writer) (bytes : Bytes) : Writer := { w with held := w.held ++ bytes }

theorem toList_held_taking (w : Writer) (bytes : Bytes) :
    (w.taking bytes).held.toList = w.held.toList ++ bytes := by
  simp [taking]

theorem size_held_taking (w : Writer) (bytes : Bytes) :
    (w.taking bytes).held.size = w.held.size + bytes.length := by
  rw [← Array.length_toList, toList_held_taking, List.length_append, Array.length_toList]

theorem taking_taking (w : Writer) (x y : Bytes) :
    (w.taking x).taking y = w.taking (x ++ y) := by
  have h : w.held ++ x ++ y = w.held ++ (x ++ y) := by
    rw [← Array.toList_inj]
    simp
  simp only [taking, h]

theorem taking_nil (w : Writer) : w.taking [] = w := by
  simp [taking]

theorem Moves.taking {w : Writer} (h : w.Moves) (bytes : Bytes) : (w.taking bytes).Moves :=
  ⟨h.chunk, h.pace⟩

theorem within_pos {bound : Option Nat} {n : Nat} (hb : bound ≠ some 0) (hn : 0 < n) :
    0 < within bound n := by
  unfold within
  split
  · exact hn
  · next b =>
    have : b ≠ 0 := fun h => hb (by rw [h])
    omega

theorem accepts_le_room {w : Writer} {limit : Nat} (hl : w.limit = some limit) (n : Nat) :
    w.accepts n ≤ limit - w.held.size := by
  simp only [accepts, hl, Option.map_some, within]
  omega

theorem accepts_pos {w : Writer} {n : Nat} (hw : w.Moves)
    (hr : ∀ limit ∈ w.limit, w.held.size < limit) (hn : 0 < n) : 0 < w.accepts n := by
  unfold accepts
  refine within_pos ?_ (within_pos hw.chunk (within_pos (hw.pace _) hn))
  intro hzero
  obtain ⟨limit, hl, hfull⟩ := Option.map_eq_some_iff.mp hzero
  have := hr limit hl
  omega

/-- A writing that succeeds leaves all bytes with the writer and changes nothing
else. -/
theorem writeAll_ok (bytes : Bytes) {w w' : Writer} (h : w.writeAll bytes = .ok () w') :
    w' = w.taking bytes := by
  induction hlength : bytes.length using Nat.strongRecOn generalizing bytes w with
  | ind length ih =>
    subst hlength
    rw [writeAll] at h
    split at h
    · next hb =>
      cases h
      rw [hb, taking_nil]
    · dsimp only at h
      split at h
      · cases h
      · next hb hn =>
        have hle := w.accepts_le bytes.length
        have hdrop : (bytes.drop (w.accepts bytes.length)).length < bytes.length := by
          rw [List.length_drop]
          omega
        have key := ih _ hdrop _ h rfl
        rw [key, show ({ w with held := w.held ++ bytes.take (w.accepts bytes.length) } : Writer) =
          w.taking (bytes.take (w.accepts bytes.length)) from rfl, taking_taking,
          List.take_append_drop]

/-- What comes of offering bytes, whatever the sizes of the pieces are. -/
theorem writeAll_eq {limit : Nat} (bytes : Bytes) {w : Writer} (hw : w.Moves)
    (hl : w.limit = some limit) :
    w.writeAll bytes =
      if bytes.length ≤ limit - w.held.size then .ok () (w.taking bytes)
      else .error w.refusal (w.taking (bytes.take (limit - w.held.size))) := by
  induction h : bytes.length using Nat.strongRecOn generalizing bytes w with
  | ind length ih =>
    subst h
    rw [writeAll]
    by_cases hb : bytes = []
    · subst hb
      simp [taking_nil]
    have hpos : 0 < bytes.length := List.length_pos_iff.mpr hb
    simp only [hb, if_false]
    have hroom := accepts_le_room hl bytes.length
    by_cases hn : w.accepts bytes.length = 0
    · have hfull : limit - w.held.size = 0 := by
        by_contra hr
        have hmore : ∀ limit ∈ w.limit, w.held.size < limit := by
          intro limit' h'
          rw [hl] at h'
          cases h'
          omega
        have := accepts_pos hw hmore hpos
        omega
      have hover : ¬ bytes.length ≤ limit - w.held.size := by omega
      rw [if_pos hn, if_neg hover, hfull, List.take_zero, taking_nil]
    -- a piece is taken, and the rest is what the induction is on
    · rw [if_neg hn]
      have hle := w.accepts_le bytes.length
      generalize w.accepts bytes.length = n at hn hroom hle
      have hdrop : (bytes.drop n).length = bytes.length - n := List.length_drop
      have hroom' : limit - (w.taking (bytes.take n)).held.size = limit - w.held.size - n := by
        rw [size_held_taking, List.length_take]
        omega
      have key := ih (bytes.drop n).length (by omega) (bytes.drop n)
        (hw.taking (bytes.take n)) hl rfl
      rw [hroom', hdrop, taking_taking, taking_taking, List.take_append_drop] at key
      rw [show ({ w with held := w.held ++ bytes.take n } : Writer) = w.taking (bytes.take n)
        from rfl, key]
      have hsplit : bytes.take n ++ (bytes.drop n).take (limit - w.held.size - n) =
          bytes.take (limit - w.held.size) := by
        rw [← List.take_add]
        congr 1
        omega
      rw [hsplit]
      by_cases hfit : bytes.length ≤ limit - w.held.size
      · rw [if_pos hfit, if_pos (by omega)]
      · rw [if_neg hfit, if_neg (by omega)]
        rfl

/-- A writer that never fails: it always moves, it has no limit, and what it
holds back it sends on. -/
structure Unfailing (w : Writer) : Prop extends Moves w where
  limit : w.limit = none
  flushes : w.flushFails = false

theorem Unfailing.taking {w : Writer} (h : w.Unfailing) (bytes : Bytes) :
    (w.taking bytes).Unfailing :=
  ⟨h.toMoves.taking bytes, h.limit, h.flushes⟩

theorem writeAll_unfailing (bytes : Bytes) {w : Writer} (hw : w.Unfailing) :
    w.writeAll bytes = .ok () (w.taking bytes) := by
  induction h : bytes.length using Nat.strongRecOn generalizing bytes w with
  | ind length ih =>
    subst h
    rw [writeAll]
    by_cases hb : bytes = []
    · rw [if_pos hb, hb, taking_nil]
    have hpos : 0 < bytes.length := List.length_pos_iff.mpr hb
    have hmore : ∀ limit ∈ w.limit, w.held.size < limit := by
      rw [hw.limit]
      nofun
    have hn := accepts_pos hw.toMoves hmore hpos
    have hle := w.accepts_le bytes.length
    have hdrop : (bytes.drop (w.accepts bytes.length)).length < bytes.length := by
      rw [List.length_drop]
      omega
    have key := ih _ hdrop _ (hw.taking (bytes.take (w.accepts bytes.length))) rfl
    rw [taking_taking, List.take_append_drop] at key
    rw [if_neg hb, if_neg (Nat.ne_of_gt hn)]
    exact key

end Writer

/-! ## Targets -/

namespace Target

/-- Writes texts in order until one fails. -/
def writeEach (texts : List Bytes) : EStateM FormatError Target Unit := texts.forM write

theorem writeEach_memory (texts : List Bytes) (held : Array UInt8) :
    writeEach texts (memory held) = .ok () (memory (held ++ texts.flatten)) := by
  induction texts generalizing held with
  | nil => simp [writeEach, Action.forM_nil]
  | cons text rest ih =>
    have h : held ++ text ++ rest.flatten = held ++ (text ++ rest.flatten) := by
      rw [← Array.toList_inj]
      simp
    have hw : write text (memory held) = .ok () (memory (held ++ text)) := rfl
    rw [writeEach, Action.forM_cons_ok hw, List.flatten_cons, ← h]
    exact ih _

theorem writeEach_unfailing (texts : List Bytes) {w : Writer} (hw : w.Unfailing) (n : Nat) :
    writeEach texts (stream w n) =
      .ok () (stream (w.taking texts.flatten) (n + texts.flatten.length)) := by
  induction texts generalizing w n with
  | nil => rw [List.flatten_nil, Writer.taking_nil]; rfl
  | cons text rest ih =>
    have hwrite : write text (stream w n) =
        .ok () (stream (w.taking text) (n + text.length)) := by
      simp only [write, Writer.writeAll_unfailing text hw]
    rw [writeEach, Action.forM_cons_ok hwrite, List.flatten_cons, List.length_append,
      ← Writer.taking_taking, ← Nat.add_assoc]
    exact ih (hw.taking text) _

/-- A target that delivers bytes up to a limit and refuses the rest with an
error. -/
def Limited (limit : Nat) (refusal : FormatError) : Target → Prop
  | memory _ => False
  | buffer b => b.capacity = limit ∧ refusal = .bufferOverflow limit
  | stream w _ => w.limit = some limit ∧ w.Moves ∧ w.held.size ≤ limit ∧ refusal = .io w.refusal

/-- What one write of bytes comes to on a limited target: the target takes as
many of them as its limit allows, and fails if that is not all. A whole write is
counted. -/
structure Takes (limit : Nat) (refusal : FormatError) (t : Target) (bytes : Bytes)
    (result : EStateM.Result FormatError Target Unit) (after : Target) : Prop where
  limited : Limited limit refusal after
  contents : after.contents = (t.contents ++ bytes).take limit
  result : result =
    if (t.contents ++ bytes).length ≤ limit then .ok () after else .error refusal after
  written : (t.contents ++ bytes).length ≤ limit → after.written = t.written + bytes.length

theorem Limited.length_contents {limit : Nat} {refusal : FormatError} {t : Target}
    (h : Limited limit refusal t) : t.contents.length ≤ limit := by
  cases t with
  | memory held => exact h.elim
  | buffer b =>
    obtain ⟨rfl, -⟩ := h
    rw [contents, Buffer.length_filled]
    exact b.length_le_capacity
  | stream w n => exact h.2.2.1

theorem takes_buffer (b : Buffer) (bytes : Bytes) :
    Takes b.capacity (.bufferOverflow b.capacity) (buffer b) bytes (write bytes (buffer b))
      (buffer (b.fill bytes)) := by
  have hlen : b.filled.toList.length = b.length := b.length_filled
  have hle := b.length_le_capacity
  have hfit : (b.filled.toList ++ bytes).length ≤ b.capacity ↔ bytes.length ≤ b.room := by
    rw [List.length_append, hlen, Buffer.room]
    omega
  refine ⟨⟨b.capacity_fill bytes, rfl⟩, ?_, ?_, ?_⟩
  · show (b.fill bytes).filled.toList = (b.filled.toList ++ bytes).take b.capacity
    rw [Buffer.filled_fill, List.take_append, hlen,
      List.take_of_length_le (by omega : b.filled.toList.length ≤ b.capacity)]
    rfl
  · show (if bytes.length ≤ b.room then _ else _) = _
    simp only [contents, hfit]
  · intro hb
    show b.length + min bytes.length b.room = b.length + bytes.length
    rw [Nat.min_eq_left (hfit.mp hb)]

theorem takes_stream {w : Writer} {n limit : Nat} {refusal : FormatError}
    (h : Limited limit refusal (stream w n)) (bytes : Bytes) :
    ∃ after, Takes limit refusal (stream w n) bytes (write bytes (stream w n)) after := by
  obtain ⟨hl, hw, hsize, rfl⟩ := h
  have hlen : w.held.toList.length = w.held.size := Array.length_toList
  have hfit : (w.held.toList ++ bytes).length ≤ limit ↔ bytes.length ≤ limit - w.held.size := by
    rw [List.length_append, hlen]
    omega
  have htake : (w.held.toList ++ bytes).take limit =
      w.held.toList ++ bytes.take (limit - w.held.size) := by
    rw [List.take_append, hlen, List.take_of_length_le (by omega)]
  have hrun := w.writeAll_eq bytes hw hl
  by_cases hb : bytes.length ≤ limit - w.held.size
  · rw [if_pos hb] at hrun
    have hsize' : (w.taking bytes).held.size ≤ limit := by
      rw [Writer.size_held_taking]
      omega
    refine ⟨stream (w.taking bytes) (n + bytes.length),
      ⟨⟨hl, hw.taking bytes, hsize', rfl⟩, ?_, ?_, fun _ => rfl⟩⟩
    · show (w.taking bytes).held.toList = (w.held.toList ++ bytes).take limit
      rw [htake, List.take_of_length_le hb, Writer.toList_held_taking]
    · rw [contents, if_pos (hfit.mpr hb), write, hrun]
  · rw [if_neg hb] at hrun
    have hsize' : (w.taking (bytes.take (limit - w.held.size))).held.size ≤ limit := by
      rw [Writer.size_held_taking, List.length_take]
      omega
    refine ⟨stream (w.taking (bytes.take (limit - w.held.size))) n,
      ⟨⟨hl, hw.taking _, hsize', rfl⟩, ?_, ?_, fun h => absurd (hfit.mp h) hb⟩⟩
    · show (w.taking _).held.toList = (w.held.toList ++ bytes).take limit
      rw [htake, Writer.toList_held_taking]
    · rw [contents, if_neg (mt hfit.mp hb), write, hrun]

theorem Limited.write {limit : Nat} {refusal : FormatError} {t : Target}
    (h : Limited limit refusal t) (bytes : Bytes) :
    ∃ after, Takes limit refusal t bytes (write bytes t) after := by
  cases t with
  | memory held => exact h.elim
  | buffer b =>
    obtain ⟨rfl, rfl⟩ := h
    exact ⟨_, takes_buffer b bytes⟩
  | stream w n => exact takes_stream h bytes

/-- The split into texts is not seen on a limited target. -/
theorem Limited.writeEach {limit : Nat} {refusal : FormatError} {t : Target}
    (h : Limited limit refusal t) (texts : List Bytes) :
    ∃ after, Takes limit refusal t texts.flatten (writeEach texts t) after := by
  induction texts generalizing t with
  | nil =>
    have hlen := h.length_contents
    refine ⟨t, ⟨h, ?_, ?_, fun _ => rfl⟩⟩
    · rw [List.flatten_nil, List.append_nil, List.take_of_length_le hlen]
    · rw [List.flatten_nil, List.append_nil, if_pos hlen]
      rfl
  | cons text rest ih =>
    obtain ⟨mid, hmid⟩ := h.write text
    have hres := hmid.result
    by_cases hfit : (t.contents ++ text).length ≤ limit
    · rw [if_pos hfit] at hres
      have hmidc : mid.contents = t.contents ++ text := by
        rw [hmid.contents, List.take_of_length_le hfit]
      obtain ⟨after, hafter⟩ := ih hmid.limited
      have hjoin : mid.contents ++ rest.flatten = t.contents ++ (text :: rest).flatten := by
        rw [hmidc, List.append_assoc, List.flatten_cons]
      refine ⟨after, ⟨hafter.limited, ?_, ?_, ?_⟩⟩
      · rw [hafter.contents, hjoin]
      · rw [Target.writeEach, Action.forM_cons_ok hres, ← hjoin]
        exact hafter.result
      · intro hall
        rw [hafter.written (by rwa [hjoin]), hmid.written hfit, List.flatten_cons,
          List.length_append, Nat.add_assoc]
    -- the text that does not fit ends the writing, and the rest would not fit either
    · rw [if_neg hfit] at hres
      have hall : ¬ (t.contents ++ (text :: rest).flatten).length ≤ limit := by
        rw [List.flatten_cons, ← List.append_assoc, List.length_append]
        omega
      refine ⟨mid, ⟨hmid.limited, ?_, ?_, fun h => absurd h hall⟩⟩
      · have hlong : limit ≤ (t.contents ++ text).length := by omega
        rw [hmid.contents, List.flatten_cons, ← List.append_assoc,
          List.take_append_of_le_length hlong]
      · rw [if_neg hall, Target.writeEach, Action.forM_cons_error hres]

/-- A buffer over a destination, of which only the front is written. -/
def Over (cells : Array UInt8) : Target → Prop
  | buffer b => b.capacity = cells.size ∧ b.cells.toList.drop b.length = cells.toList.drop b.length
  | _ => False

theorem Over.write {cells : Array UInt8} {t : Target} (h : Over cells t) (bytes : Bytes) :
    Over cells (Action.left (write bytes t)) := by
  cases t with
  | memory held => exact h.elim
  | stream w n => exact h.elim
  | buffer b =>
    obtain ⟨hcap, hdrop⟩ := h
    have hfill : Over cells (buffer (b.fill bytes)) := by
      refine ⟨by rw [Buffer.capacity_fill, hcap], ?_⟩
      have hle : b.length ≤ (b.fill bytes).length := Nat.le_add_right _ _
      rw [Buffer.drop_cells_fill, ← Nat.add_sub_cancel' hle, ← List.drop_drop, hdrop,
        List.drop_drop]
    unfold Target.write
    dsimp only
    split
    · exact hfill
    · exact hfill

end Target

/-! ## Sinks -/

namespace Sink

/-- The texts that pieces reach the target as, behind a number of encodings. -/
def texts (encodings : Nat) (pieces : List Piece) : List Bytes :=
  pieces.flatMap (Percent.expand encodings)

/-- The bytes that reach the target do not tell the pieces apart. -/
theorem flatten_texts (n : Nat) (pieces : List Piece) :
    (texts n pieces).flatten = Percent.encodeTimes n (pieces.flatMap Piece.text) := by
  induction pieces with
  | nil => exact (Percent.encodeTimes_nil n).symm
  | cons p rest ih =>
    rw [texts, List.flatMap_cons, List.flatten_append, Percent.flatten_expand, List.flatMap_cons,
      Percent.encodeTimes_append]
    exact congrArg _ ih

theorem onTarget_ok {α : Type} {act : EStateM FormatError Target α} {n : Nat} {s t : Target}
    {a : α} (h : act s = .ok a t) : onTarget act ⟨n, s⟩ = .ok a ⟨n, t⟩ := by
  simp only [onTarget, h]

theorem onTarget_error {α : Type} {act : EStateM FormatError Target α} {n : Nat} {s t : Target}
    {e : FormatError} (h : act s = .error e t) : onTarget act ⟨n, s⟩ = .error e ⟨n, t⟩ := by
  simp only [onTarget, h]

/-- Output is writes of texts in a row. -/
theorem putAll_eq (pieces : List Piece) (n : Nat) (t : Target) :
    putAll pieces ⟨n, t⟩ = onTarget (Target.writeEach (texts n pieces)) ⟨n, t⟩ := by
  induction pieces generalizing t with
  | nil => rfl
  | cons p rest ih =>
    have hput : put p ⟨n, t⟩ = onTarget (Target.writeEach (Percent.expand n p)) ⟨n, t⟩ := rfl
    have hcons : texts n (p :: rest) = Percent.expand n p ++ texts n rest := rfl
    cases h : Target.writeEach (Percent.expand n p) t with
    | ok _ mid =>
      rw [onTarget_ok h] at hput
      have hrest : Target.writeEach (texts n (p :: rest)) t = Target.writeEach (texts n rest) mid :=
        Action.forM_append_ok h (texts n rest)
      rw [putAll, Action.forM_cons_ok hput]
      refine (ih mid).trans ?_
      simp only [onTarget, hrest]
    | error e mid =>
      rw [onTarget_error h] at hput
      have hrest : Target.writeEach (texts n (p :: rest)) t = .error e mid :=
        Action.forM_append_error h (texts n rest)
      rw [putAll, Action.forM_cons_error hput, onTarget_error hrest]

theorem putAll_append_ok {a : List Piece} {s t : Sink} (h : putAll a s = .ok () t)
    (b : List Piece) : putAll (a ++ b) s = putAll b t :=
  Action.forM_append_ok h b

theorem putAll_append_error {a : List Piece} {s t : Sink} {e : FormatError}
    (h : putAll a s = .error e t) (b : List Piece) : putAll (a ++ b) s = .error e t :=
  Action.forM_append_error h b

theorem putAll_memory (pieces : List Piece) (n : Nat) (held : Array UInt8) :
    putAll pieces ⟨n, .memory held⟩ =
      .ok () ⟨n, .memory (held ++ Percent.encodeTimes n (pieces.flatMap Piece.text))⟩ := by
  rw [putAll_eq, onTarget_ok (Target.writeEach_memory _ held), flatten_texts]

theorem putAll_unfailing (pieces : List Piece) (n : Nat) {w : Writer} (hw : w.Unfailing)
    (count : Nat) :
    let text := Percent.encodeTimes n (pieces.flatMap Piece.text)
    putAll pieces ⟨n, .stream w count⟩ =
      .ok () ⟨n, .stream (w.taking text) (count + text.length)⟩ := by
  rw [putAll_eq, onTarget_ok (Target.writeEach_unfailing _ hw count), flatten_texts]

theorem written_memory_append (n : Nat) (held : Array UInt8) (bytes : Bytes) :
    written ⟨n, .memory (held ++ bytes)⟩ - written ⟨n, .memory held⟩ = bytes.length := by
  simp only [written, Target.written]
  rw [← Array.length_toList, Array.toList_appendList, List.length_append, Array.length_toList]
  omega

/-- Output on a limited target. How much of it fits is a matter of its length
alone. -/
theorem putAll_limited {limit : Nat} {refusal : FormatError} {s : Sink}
    (h : Target.Limited limit refusal s.target) (pieces : List Piece) :
    let text := Percent.encodeTimes s.encodings (pieces.flatMap Piece.text)
    ∃ after : Sink, after.encodings = s.encodings ∧ Target.Limited limit refusal after.target ∧
      after.contents = (s.contents ++ text).take limit ∧
      if (s.contents ++ text).length ≤ limit then
        putAll pieces s = .ok () after ∧ after.written = s.written + text.length
      else putAll pieces s = .error refusal after := by
  intro text
  obtain ⟨n, t⟩ := s
  obtain ⟨after, hafter⟩ := h.writeEach (texts n pieces)
  rw [flatten_texts] at hafter
  have hrun := hafter.result
  refine ⟨⟨n, after⟩, rfl, hafter.limited, hafter.contents, ?_⟩
  by_cases hfit : (t.contents ++ text).length ≤ limit
  · rw [if_pos hfit] at hrun
    refine (if_pos hfit).mpr ⟨?_, hafter.written hfit⟩
    rw [putAll_eq, onTarget_ok hrun]
  · rw [if_neg hfit] at hrun
    refine (if_neg hfit).mpr ?_
    rw [putAll_eq, onTarget_error hrun]

/-- What each write keeps of a target, output keeps. -/
theorem putAll_keeps {p : Target → Prop}
    (hp : ∀ bytes t, p t → p (Action.left (Target.write bytes t))) (pieces : List Piece) {s : Sink}
    (hs : p s.target) : p (Action.left (putAll pieces s)).target := by
  have hkeep : p (Action.left (Target.writeEach (texts s.encodings pieces) s.target)) :=
    Action.forM_left hp _ hs
  rw [putAll_eq]
  cases h : Target.writeEach (texts s.encodings pieces) s.target with
  | ok _ t =>
    rw [h] at hkeep
    rw [onTarget_ok h]
    exact hkeep
  | error e t =>
    rw [h] at hkeep
    rw [onTarget_error h]
    exact hkeep

end Sink

end PrintFormat
