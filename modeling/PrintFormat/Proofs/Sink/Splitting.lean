import PrintFormat.Proofs.Sink.Writing

/-!
Output split into writes. A target within the program, memory that grows or a
buffer, takes two texts like their concatenation, also where a buffer has no
room for the first one (`Target.InMemory.write_append`). So writes in a row are
one write (`Target.InMemory.writeEach_eq`), and behind any number of encodings
nothing tells how output was split (`Sink.put_splits`).
-/
namespace PrintFormat

namespace Buffer

/-- Nothing changes where nothing is taken. -/
theorem fill_eq_self {b : Buffer} {bytes : Bytes} (h : bytes.take b.room = []) :
    b.fill bytes = b := by
  have hnone : min bytes.length b.room = 0 := by
    rw [Nat.min_comm, ← List.length_take, h, List.length_nil]
  apply ext_cells
  · show overwrite b.cells b.length (bytes.take b.room) = b.cells
    rw [h, overwrite]
  · show b.length + min bytes.length b.room = b.length
    rw [hnone, Nat.add_zero]

/-- Behind a text that does not fit nothing more is taken. -/
theorem fill_append_of_lt (b : Buffer) {x : Bytes} (h : b.room < x.length) (y : Bytes) :
    b.fill (x ++ y) = b.fill x := by
  have hfull : (b.fill x).room = 0 := by
    rw [room_fill]
    omega
  rw [← fill_fill, fill_eq_self]
  rw [hfull, List.take_zero]

end Buffer

namespace Target

theorem write_buffer_of_le {b : Buffer} {bytes : Bytes} (h : bytes.length ≤ b.room) :
    write bytes (buffer b) = .ok () (buffer (b.fill bytes)) := if_pos h

theorem write_buffer_of_lt {b : Buffer} {bytes : Bytes} (h : b.room < bytes.length) :
    write bytes (buffer b) = .error (.bufferOverflow b.capacity) (buffer (b.fill bytes)) :=
  if_neg (Nat.not_le.mpr h)

/-- A target within the program: memory that grows or a buffer. -/
def InMemory : Target → Prop
  | stream _ _ => False
  | _ => True

namespace InMemory

variable {t : Target}

theorem left_write (h : t.InMemory) (bytes : Bytes) : InMemory (Action.left (write bytes t)) := by
  cases t with
  | memory held => exact trivial
  | buffer b =>
    rcases Nat.lt_or_ge b.room bytes.length with hover | hfit
    · rw [write_buffer_of_lt hover]
      exact trivial
    · rw [write_buffer_of_le hfit]
      exact trivial
  | stream w n => exact h.elim

theorem write_nil (h : t.InMemory) : write [] t = .ok () t := by
  cases t with
  | memory held =>
    have hsame : held ++ ([] : Bytes) = held := by
      rw [← Array.toList_inj]
      simp
    show EStateM.Result.ok () (memory (held ++ ([] : Bytes))) = _
    rw [hsame]
  | buffer b => rw [write_buffer_of_le (Nat.zero_le _), Buffer.fill_eq_self List.take_nil]
  | stream w n => exact h.elim

/-- Two texts are taken one after the other as they are in one. -/
theorem write_append (h : t.InMemory) (x y : Bytes) :
    write (x ++ y) t = (write x >>= fun _ => write y) t := by
  cases t with
  | memory held =>
    have hjoin : held ++ (x ++ y) = held ++ x ++ y := by
      rw [← Array.toList_inj]
      simp
    show EStateM.Result.ok () (memory (held ++ (x ++ y))) = .ok () (memory (held ++ x ++ y))
    rw [hjoin]
  | buffer b =>
    rcases Nat.lt_or_ge b.room x.length with hover | hfit
    · -- the first text fills the buffer and ends the writing
      have hboth : b.room < (x ++ y).length := by
        rw [List.length_append]
        omega
      rw [Action.bind_error (write_buffer_of_lt hover), write_buffer_of_lt hboth,
        b.fill_append_of_lt hover]
    · rw [Action.bind_ok (write_buffer_of_le hfit)]
      have hroom := b.room_fill x
      rcases Nat.lt_or_ge (b.fill x).room y.length with hover' | hfit'
      · have hboth : b.room < (x ++ y).length := by
          rw [List.length_append]
          omega
        rw [write_buffer_of_lt hover', write_buffer_of_lt hboth, b.fill_fill, b.capacity_fill]
      · have hboth : (x ++ y).length ≤ b.room := by
          rw [List.length_append]
          omega
        rw [write_buffer_of_le hfit', write_buffer_of_le hboth, b.fill_fill]
  | stream w n => exact h.elim

/-- Writes in a row are one write. -/
theorem writeEach_eq (h : t.InMemory) (texts : List Bytes) :
    writeEach texts t = write texts.flatten t := by
  induction texts generalizing t with
  | nil => exact h.write_nil.symm
  | cons text rest ih =>
    rw [List.flatten_cons, h.write_append]
    have hleft := h.left_write text
    cases hw : write text t with
    | ok _ mid =>
      rw [hw] at hleft
      rw [writeEach, Action.forM_cons_ok hw, Action.bind_ok hw]
      exact ih hleft
    | error e mid => rw [writeEach, Action.forM_cons_error hw, Action.bind_error hw]

end InMemory
end Target

namespace Sink

/-- Output reaches a target within the program like one write of its text. -/
theorem putAll_eq_write {s : Sink} (h : s.target.InMemory) (pieces : List Piece) :
    putAll pieces s =
      onTarget (Target.write (Percent.encodeTimes s.encodings (pieces.flatMap Piece.text))) s := by
  rw [putAll_eq, ← flatten_texts]
  simp only [onTarget, h.writeEach_eq]

/-- However output to memory or to a buffer is split, in whatever state the sink
is, it ends in the same way and leaves the same sink: two texts are delivered one
after the other as they are in one, a repeated byte like the text that it stands
for, and any pieces like any others of the same text, which is encoded and then
reaches the target as in one write. -/
theorem put_splits {s : Sink} (h : s.target.InMemory) :
    (∀ x y, put (.bytes (x ++ y)) s = (put (.bytes x) >>= fun _ => put (.bytes y)) s) ∧
    (∀ b count, put (.fill b count) s = put (.bytes (List.replicate count b)) s) ∧
    (∀ pieces pieces', pieces.flatMap Piece.text = pieces'.flatMap Piece.text →
      putAll pieces s = putAll pieces' s) ∧
    ∀ pieces, putAll pieces s =
      onTarget (Target.write (Percent.encodeTimes s.encodings (pieces.flatMap Piece.text))) s := by
  have hall := putAll_eq_write h
  have hsame {pieces pieces' : List Piece}
      (htext : pieces.flatMap Piece.text = pieces'.flatMap Piece.text) :
      putAll pieces s = putAll pieces' s := by
    rw [hall, hall, htext]
  have hone (p : Piece) : putAll [p] = put p := Action.forM_singleton put p
  have htwo (p q : Piece) : putAll [p, q] = (put p >>= fun _ => put q) := by
    show (put p >>= fun _ => putAll [q]) = _
    rw [hone]
  refine ⟨fun x y => ?_, fun b count => ?_, fun _ _ => hsame, hall⟩
  · rw [← hone, ← htwo]
    exact hsame (by simp [Piece.text])
  · rw [← hone, ← hone]
    exact hsame (by simp [Piece.text])

/-- A capacity that the second unit of a repeated letter is cut at, and the escape
of a blank behind 69 letters. -/
theorem put_splits_cut :
    let s := (onto (Array.replicate 70 0)).encoded
    let letters := List.replicate 69 122
    s.target.InMemory ∧
      put (.bytes (letters ++ [blank])) s =
        (put (.bytes letters) >>= fun _ => put (.bytes [blank])) s ∧
      (Action.left (put (.bytes (letters ++ [blank])) s)).contents = letters ++ [percent] ∧
      put (.fill 122 130) s = put (.bytes (List.replicate 130 122)) s ∧
      (Action.left (put (.fill 122 130) s)).contents = List.replicate 70 122 ∧
      putAll [.fill 122 69, .bytes [blank]] s = putAll [.bytes (letters ++ [blank])] s := by
  intro s letters
  have hmemory : s.target.InMemory := trivial
  obtain ⟨hjoin, hfill, hsame, -⟩ := put_splits hmemory
  exact ⟨hmemory, hjoin letters [blank], by decide +kernel, hfill 122 130, by decide +kernel,
    hsame _ _ (by decide +kernel)⟩

end Sink
end PrintFormat
