import PrintFormat.Proofs.Checked.Numeral
import PrintFormat.Proofs.Sink.Writing

/-!
Writes with checked parts. A buffer takes the bytes it has room for, its room
and both parts that are copied being checked; an encoding passes on runs of
letters and digits and looks the digits of an escape up; a byte that is repeated
comes in parts of a row of 64. Each operation comes to the writes of the texts
that reach the target, in order until one fails.
-/
namespace PrintFormat

/-- The buffer with bytes more, which it has room for. -/
def Buffer.withPart (b : Buffer) (part : Bytes) (h : b.length + part.length ≤ b.cells.size) :
    Buffer where
  cells := overwrite b.cells b.length part
  length := b.length + part.length
  fits := by rwa [size_overwrite]

namespace Checked

/-! ### Targets -/

/-- Writes bytes to a buffer, as many as it has room for. -/
def writeBuffer (b : Buffer) (bytes : Bytes) : Checked Target Unit := do
  let room ← sub b.cells.size b.length
  let n := min bytes.length room
  let part ← slice bytes 0 n
  let _ ← require (b.length ≤ b.length + n ∧ n = part.length)
  let ⟨h⟩ ← require (b.length + part.length ≤ b.cells.size)
  set (Target.buffer (b.withPart part h))
  if n < bytes.length then throw (.error (.bufferOverflow b.cells.size))

/-- Writes bytes to a writer, and counts them if it takes all. -/
def writeStream (writer : Writer) (written : Nat) (bytes : Bytes) : Checked Target Unit := fun _ =>
  match writer.writeAll bytes with
  | .ok _ w => .ok () (.stream w (written + bytes.length))
  | .error e w => .error (.error (.io e)) (.stream w written)

/-- Writes bytes. -/
def write (bytes : Bytes) : Checked Target Unit := do
  match ← get with
  | .memory held => set (Target.memory (held ++ bytes))
  | .buffer b => writeBuffer b bytes
  | .stream writer written => writeStream writer written bytes

theorem writeBuffer_carriesOut (b : Buffer) (bytes : Bytes) :
    CarriesOutAt id (.buffer b) (writeBuffer b bytes) (Target.write bytes) := by
  have hfits := b.fits
  have hroom : b.room = b.cells.size - b.length := rfl
  have hpart : bytes.take (min bytes.length (b.cells.size - b.length)) = bytes.take b.room := by
    rw [Nat.min_comm, ← List.take_eq_take_min, hroom]
  have hlength : (bytes.take b.room).length = min bytes.length (b.cells.size - b.length) := by
    rw [List.length_take, Nat.min_comm, hroom]
  have hcopy : b.length + (bytes.take b.room).length ≤ b.cells.size := by omega
  have hfill : b.withPart (bytes.take b.room) hcopy = b.fill bytes := by
    refine Buffer.ext_cells rfl ?_
    show b.length + (bytes.take b.room).length = b.length + min bytes.length b.room
    omega
  unfold writeBuffer
  rw [sub_of hfits, pure_bind]
  dsimp only
  rw [slice_of (Nat.zero_le _) (Nat.min_le_left _ _), pure_bind, List.drop_zero, hpart,
    require_of ⟨Nat.le_add_right _ _, hlength.symm⟩, pure_bind, require_of hcopy, pure_bind, hfill]
  by_cases hall : bytes.length ≤ b.room
  · refine carriesOutAt_of_ok (t := .buffer (b.fill bytes)) ?_ (if_pos hall)
    rw [if_neg (by omega)]
    rfl
  · refine carriesOutAt_of_error (t := .buffer (b.fill bytes)) ?_ (if_neg hall)
    rw [if_pos (by omega)]
    rfl

theorem write_carriesOut (bytes : Bytes) : CarriesOut id (write bytes) (Target.write bytes) := by
  intro t
  cases t with
  | memory held => rfl
  | buffer b => exact writeBuffer_carriesOut b bytes
  | stream writer written =>
    show seen id (writeStream writer written bytes (.stream writer written)) =
      some (Target.write bytes (.stream writer written))
    unfold writeStream Target.write
    dsimp only
    cases writer.writeAll bytes <;> rfl

/-! ### Encodings -/

/-- The escape of a byte. -/
def escape (b : UInt8) : Checked Target Bytes := do
  let high ← element (digitTable true) (b.toNat / 16)
  let low ← element (digitTable true) (b.toNat % 16)
  return [percent, high, low]

/-- Passes a run at the front of bytes on, if there is one. -/
def writeRun (inner : Bytes → Checked Target Unit) (rest : Bytes) (safe : Nat) :
    Checked Target Unit := do
  if 0 < safe then inner (← slice rest 0 safe)

/-- Passes bytes on in runs of letters and digits and in escapes. -/
def writeRuns (inner : Bytes → Checked Target Unit) (rest : Bytes) : Checked Target Unit := do
  let safe := (rest.takeWhile isAlphanumeric).length
  writeRun inner rest safe
  let ⟨_⟩ ← require (safe ≤ rest.length)
  match _ : rest.drop safe with
  | [] => return
  | b :: tail =>
      inner (← escape b)
      writeRuns inner tail
termination_by rest.length
decreasing_by
  rename_i h
  have := congrArg List.length h
  rw [List.length_drop, List.length_cons] at this
  omega

/-- Writes bytes behind a number of encodings. -/
def writeBytes : Nat → Bytes → Checked Target Unit
  | 0, bytes => write bytes
  | n + 1, bytes => writeRuns (writeBytes n) bytes

/-- Writes a byte a number of times, in parts of a row. -/
def writeParts (byte : UInt8) (left : Nat) : Checked Target Unit :=
  if _ : left = 0 then return
  else do
    let n := min left Percent.fillUnit
    write (← slice (List.replicate Percent.fillUnit byte) 0 n)
    let ⟨_⟩ ← require (n ≤ left)
    writeParts byte (left - n)
termination_by left
decreasing_by
  unfold Percent.fillUnit
  omega

/-- Writes a byte a number of times behind a number of encodings. -/
def writeFill : Nat → UInt8 → Nat → Checked Target Unit
  | 0, byte, count => writeParts byte count
  | n + 1, byte, count => do
      if isAlphanumeric byte then writeFill n byte count
      else
        let escaped ← escape byte
        (List.replicate count escaped).forM (writeBytes n)

/-- Writes one piece of output. -/
def put (encodings : Nat) : Piece → Checked Target Unit
  | .bytes text => writeBytes encodings text
  | .fill byte count => writeFill encodings byte count

/-- Writes a field. Its head is split off if zeros go behind it. -/
def emit (encodings : Nat) (f : Field) : Checked Target Unit := do
  if f.zeroFill && 0 < f.width then
    let split := min f.head f.body.length
    let head ← slice f.body 0 split
    let digits ← slice f.body split f.body.length
    [.bytes head, .fill zero (fillCount f.width f.body.length), .bytes digits].forM (put encodings)
  else (aligned f.width blank f.body).forM (put encodings)

/-! ### What is written -/

theorem escape_eq (b : UInt8) : escape b = pure (Percent.escape b) := by
  have hb := b.toNat_lt
  have hhigh : b.toNat / 16 < (digitTable true).length := by
    rw [length_digitTable]
    omega
  have hlow : b.toNat % 16 < (digitTable true).length := by
    rw [length_digitTable]
    omega
  have hplace : b.toNat / 16 % 16 = b.toNat / 16 := Nat.mod_eq_of_lt (by omega)
  rw [escape, element_of hhigh, pure_bind, element_of hlow, pure_bind, getElem_digitTable,
    getElem_digitTable]
  simp [Percent.escape, places, hplace]

/-- The units of a text by the run at its front and what stands behind it. -/
theorem chunks_eq (rest : Bytes) :
    Percent.chunks rest =
      (if 0 < (rest.takeWhile isAlphanumeric).length
        then [rest.takeWhile isAlphanumeric] else []) ++
        match rest.dropWhile isAlphanumeric with
        | [] => []
        | b :: tail => Percent.escape b :: Percent.chunks tail := by
  have hescape {b : UInt8} (hb : ¬isAlphanumeric b = true) (tail : Bytes) :
      Percent.chunks (b :: tail) = Percent.escape b :: Percent.chunks tail := by
    rw [Percent.chunks, if_neg hb]
  cases rest with
  | nil => simp [Percent.chunks]
  | cons b rest =>
    by_cases hb : isAlphanumeric b = true
    · rw [Percent.chunks, if_pos hb, List.takeWhile_cons_of_pos hb, List.dropWhile_cons_of_pos hb,
        List.length_cons, if_pos (Nat.succ_pos _)]
      have hhead := List.head?_dropWhile_not isAlphanumeric rest
      cases hbehind : rest.dropWhile isAlphanumeric with
      | nil => simp [Percent.chunks]
      | cons c tail =>
        rw [hbehind] at hhead
        rw [hescape (by simpa using hhead)]
        rfl
    · rw [hescape hb, List.takeWhile_cons_of_neg hb, List.dropWhile_cons_of_neg hb]
      rfl

theorem writeRun_carriesOut {inner : Bytes → Checked Target Unit}
    {inner' : Bytes → EStateM FormatError Target Unit}
    (h : ∀ bytes, CarriesOut id (inner bytes) (inner' bytes)) (run behind : Bytes) :
    CarriesOut id (writeRun inner (run ++ behind) run.length)
      ((if 0 < run.length then [run] else []).forM inner') := by
  have hle : run.length ≤ (run ++ behind).length := by
    rw [List.length_append]
    exact Nat.le_add_right _ _
  unfold writeRun
  split
  · rw [slice_of (Nat.zero_le _) hle, pure_bind, List.drop_zero, List.take_left,
      Action.forM_singleton]
    exact h run
  · exact .pure ()

theorem writeRuns_carriesOut {inner : Bytes → Checked Target Unit}
    {inner' : Bytes → EStateM FormatError Target Unit}
    (h : ∀ bytes, CarriesOut id (inner bytes) (inner' bytes)) (rest : Bytes) :
    CarriesOut id (writeRuns inner rest) ((Percent.chunks rest).forM inner') := by
  induction hlen : rest.length using Nat.strongRecOn generalizing rest with
  | ind length ih =>
    subst hlen
    have hsplit := List.takeWhile_append_dropWhile (p := isAlphanumeric) (l := rest)
    have hdrop : rest.drop (rest.takeWhile isAlphanumeric).length =
        rest.dropWhile isAlphanumeric := by
      conv_lhs => rw [← hsplit, List.drop_left' (by rw [hsplit])]
    have hrun := writeRun_carriesOut h (rest.takeWhile isAlphanumeric)
      (rest.dropWhile isAlphanumeric)
    have hlength := congrArg List.length hsplit
    rw [List.length_append] at hlength
    rw [hsplit] at hrun
    rw [chunks_eq, Action.forM_append, writeRuns]
    refine hrun.bind fun _ => ?_
    rw [require_of (by omega), pure_bind]
    dsimp only
    -- behind the run there is nothing, or a byte that is escaped
    split
    · next hbehind =>
      rw [← hdrop, hbehind]
      exact .pure ()
    · next b tail hbehind =>
      rw [hdrop] at hbehind
      rw [hbehind, List.length_cons] at hlength
      rw [hbehind, escape_eq, pure_bind]
      exact (h _).bind fun _ => ih tail.length (by omega) tail rfl

theorem writeBytes_carriesOut (n : Nat) (bytes : Bytes) :
    CarriesOut id (writeBytes n bytes) (Target.writeEach (Percent.expandBytes n bytes)) := by
  induction n generalizing bytes with
  | zero =>
    rw [Percent.expandBytes, Target.writeEach, Action.forM_singleton]
    exact write_carriesOut bytes
  | succ n ih =>
    rw [Percent.expandBytes, Target.writeEach, Action.forM_flatMap]
    exact writeRuns_carriesOut ih bytes

/-- The units of a repeated byte by the first of them. -/
theorem fillChunks_eq (byte : UInt8) {count : Nat} (h : count ≠ 0) :
    Percent.fillChunks byte count = List.replicate (min count Percent.fillUnit) byte ::
      Percent.fillChunks byte (count - min count Percent.fillUnit) := by
  unfold Percent.fillChunks
  by_cases hless : count < Percent.fillUnit
  · rw [Nat.min_eq_left hless.le, Nat.sub_self, Nat.div_eq_of_lt hless, Nat.mod_eq_of_lt hless,
      if_neg h, Nat.zero_div, Nat.zero_mod, if_pos rfl]
    rfl
  · have hle : Percent.fillUnit ≤ count := Nat.le_of_not_lt hless
    rw [Nat.min_eq_right hle, Nat.div_eq_sub_div (by decide) hle, Nat.mod_eq_sub_mod hle,
      List.replicate_succ, List.cons_append]

theorem writeParts_carriesOut (byte : UInt8) (count : Nat) :
    CarriesOut id (writeParts byte count) (Target.writeEach (Percent.fillChunks byte count)) := by
  induction count using Nat.strongRecOn with
  | ind count ih =>
    rw [writeParts]
    split
    · next hzero =>
      subst hzero
      exact .pure ()
    · next hpos =>
      have hle : min count Percent.fillUnit ≤ (List.replicate Percent.fillUnit byte).length := by
        rw [List.length_replicate]
        exact Nat.min_le_right _ _
      have hless : count - min count Percent.fillUnit < count := by
        unfold Percent.fillUnit
        omega
      dsimp only
      rw [fillChunks_eq byte hpos, slice_of (Nat.zero_le _) hle, pure_bind, List.drop_zero,
        List.take_replicate, Nat.min_assoc, Nat.min_self]
      refine (write_carriesOut _).bind fun _ => ?_
      rw [require_of (Nat.min_le_left _ _), pure_bind]
      exact ih _ hless

theorem writeFill_carriesOut (n : Nat) (byte : UInt8) (count : Nat) :
    CarriesOut id (writeFill n byte count)
      (Target.writeEach (Percent.expand n (.fill byte count))) := by
  induction n with
  | zero => exact writeParts_carriesOut byte count
  | succ n ih =>
    unfold writeFill Percent.expand
    split
    · exact ih
    · rw [escape_eq, pure_bind, Target.writeEach, Action.forM_flatMap]
      exact .forM (writeBytes_carriesOut n) _

theorem put_carriesOut (n : Nat) (p : Piece) :
    CarriesOut id (put n p) (Target.writeEach (Percent.expand n p)) := by
  cases p with
  | bytes text =>
    have hexpand : Percent.expand n (.bytes text) = Percent.expandBytes n text := by
      cases n <;> rfl
    rw [hexpand]
    exact writeBytes_carriesOut n text
  | fill byte count => exact writeFill_carriesOut n byte count

theorem putAll_carriesOut (n : Nat) (pieces : List Piece) :
    CarriesOut id (pieces.forM (put n)) (Target.writeEach (Sink.texts n pieces)) := by
  rw [Sink.texts, Target.writeEach, Action.forM_flatMap]
  exact .forM (put_carriesOut n) pieces

/-- A field with its head split off is written as its pieces. -/
theorem emit_carriesOut (n : Nat) (f : Field) :
    CarriesOut id (emit n f) (Target.writeEach (Sink.texts n f.pieces)) := by
  have hhead : f.body.take (min f.head f.body.length) = f.body.take f.head :=
    List.take_eq_take_min.symm
  have hdigits : f.body.drop (min f.head f.body.length) = f.body.drop f.head := by
    obtain h | h := Nat.le_total f.head f.body.length
    · rw [Nat.min_eq_left h]
    · rw [Nat.min_eq_right h, List.drop_length, List.drop_eq_nil_of_le h]
  have hsplit : min f.head f.body.length ≤ f.body.length := Nat.min_le_right _ _
  unfold emit Field.pieces
  split
  · dsimp only
    rw [slice_of (Nat.zero_le _) hsplit, pure_bind, slice_of hsplit (Nat.le_refl _), pure_bind,
      List.drop_zero, List.take_length, hhead, hdigits]
    exact putAll_carriesOut n _
  · exact putAll_carriesOut n _

end Checked
end PrintFormat
