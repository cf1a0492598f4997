import PrintFormat.Field
import PrintFormat.Numeral

/-!
Percent encoding. A letter or digit stands for itself and any other byte for
`%` and its two upper-case hexadecimal digits. `encode` is the encoding of a
text; `chunks` is the same in the units in which it is passed on, whole runs of
bytes that stand for themselves and single escapes; `expand` passes a piece of
output through a number of encodings. The main statement, `flatten_expand`,
says that units are not seen in the result.
-/
namespace PrintFormat.Percent

/-- The escape of a byte. -/
def escape (b : UInt8) : Bytes :=
  percent :: (places 16 2 b.toNat).map (digitByte true)

def encodeByte (b : UInt8) : Bytes := if isAlphanumeric b then [b] else escape b

/-- A text percent-encoded. -/
def encode (text : Bytes) : Bytes := text.flatMap encodeByte

/-- A text percent-encoded a number of times. -/
def encodeTimes : Nat → Bytes → Bytes
  | 0, text => text
  | n + 1, text => encodeTimes n (encode text)

/-- The encoding of a text in units. -/
def chunks (text : Bytes) : List Bytes :=
  match text with
  | [] => []
  | b :: rest =>
      if isAlphanumeric b then
        (b :: rest.takeWhile isAlphanumeric) :: chunks (rest.dropWhile isAlphanumeric)
      else escape b :: chunks rest
termination_by text.length
decreasing_by
  · have := (List.dropWhile_sublist isAlphanumeric (l := rest)).length_le
    simp only [List.length_cons]
    omega
  · simp

/-- The most bytes that are written at once when a byte is repeated. -/
def fillUnit : Nat := 64

/-- A repeated byte in units. -/
def fillChunks (b : UInt8) (count : Nat) : List Bytes :=
  List.replicate (count / fillUnit) (List.replicate fillUnit b)
    ++ (if count % fillUnit = 0 then [] else [List.replicate (count % fillUnit) b])

/-- A text passed through a number of encodings, in units. -/
def expandBytes : Nat → Bytes → List Bytes
  | 0, text => [text]
  | n + 1, text => (chunks text).flatMap (expandBytes n)

/-- A piece passed through a number of encodings, in units. A repeated byte
that stands for itself is passed on as such. -/
def expand : Nat → Piece → List Bytes
  | n, .bytes text => expandBytes n text
  | 0, .fill b count => fillChunks b count
  | n + 1, .fill b count =>
      if isAlphanumeric b then expand n (.fill b count)
      else (List.replicate count (escape b)).flatMap (expandBytes n)

/-! ## Units are not seen -/

theorem encode_append (a b : Bytes) : encode (a ++ b) = encode a ++ encode b := by
  simp [encode]

theorem encode_of_all {text : Bytes} (h : ∀ b ∈ text, isAlphanumeric b) :
    encode text = text := by
  induction text with
  | nil => rfl
  | cons b rest ih =>
    have hb := h b (by simp)
    have hr := ih fun c hc => h c (by simp [hc])
    simp only [encode] at hr
    simp [encode, encodeByte, hb, hr]

theorem flatten_chunks (text : Bytes) : (chunks text).flatten = encode text := by
  fun_induction chunks text with
  | case1 => rfl
  | case2 b rest hb ih =>
    have hw : encode (b :: rest.takeWhile isAlphanumeric) = b :: rest.takeWhile isAlphanumeric := by
      apply encode_of_all
      intro c hc
      rcases List.mem_cons.mp hc with rfl | hc
      · exact hb
      · exact List.all_eq_true.mp List.all_takeWhile c hc
    have hs : b :: rest = (b :: rest.takeWhile isAlphanumeric) ++ rest.dropWhile isAlphanumeric := by
      simp
    rw [List.flatten_cons, ih, hs, encode_append, hw]
  | case3 b rest hb ih =>
    have hb' : isAlphanumeric b = false := by simpa using hb
    simp only [encode] at ih
    simp [encode, encodeByte, hb', ih]

theorem encodeTimes_append (n : Nat) (a b : Bytes) :
    encodeTimes n (a ++ b) = encodeTimes n a ++ encodeTimes n b := by
  induction n generalizing a b with
  | zero => rfl
  | succ n ih => simp only [encodeTimes, encode_append, ih]

theorem encodeTimes_nil (n : Nat) : encodeTimes n [] = [] := by
  induction n with
  | zero => rfl
  | succ n ih => simpa [encodeTimes, encode] using ih

theorem encodeTimes_flatten (n : Nat) (parts : List Bytes) :
    encodeTimes n parts.flatten = (parts.map (encodeTimes n)).flatten := by
  induction parts with
  | nil => simpa using encodeTimes_nil n
  | cons p rest ih => simp [encodeTimes_append, ih]

theorem flatten_flatMap {α : Type} (l : List α) (f : α → List Bytes) :
    (l.flatMap f).flatten = (l.map fun a => (f a).flatten).flatten := by
  induction l with
  | nil => rfl
  | cons a rest ih => simp [ih]

theorem flatten_expandBytes (n : Nat) (text : Bytes) :
    (expandBytes n text).flatten = encodeTimes n text := by
  induction n generalizing text with
  | zero => simp [expandBytes, encodeTimes]
  | succ n ih =>
    simp only [expandBytes, encodeTimes, flatten_flatMap, ih, ← flatten_chunks,
      encodeTimes_flatten]

theorem flatten_fillChunks (b : UInt8) (count : Nat) :
    (fillChunks b count).flatten = List.replicate count b := by
  have h : (if count % fillUnit = 0 then [] else [List.replicate (count % fillUnit) b]).flatten
      = List.replicate (count % fillUnit) b := by
    split
    · next hz => simp [hz]
    · simp
  rw [fillChunks, List.flatten_append, h, List.flatten_replicate_replicate,
    List.replicate_append_replicate, Nat.div_add_mod' count fillUnit]

theorem flatten_expand (n : Nat) (p : Piece) :
    (expand n p).flatten = encodeTimes n p.text := by
  induction n generalizing p with
  | zero =>
    cases p with
    | bytes text => exact flatten_expandBytes 0 text
    | fill b count => exact flatten_fillChunks b count
  | succ n ih =>
    cases p with
    | bytes text => simpa [expand, Piece.text] using flatten_expandBytes (n + 1) text
    | fill b count =>
      simp only [expand, Piece.text, encodeTimes]
      split
      · next hb =>
        rw [ih, Piece.text, encode_of_all]
        intro c hc
        rw [(List.mem_replicate.mp hc).2]
        exact hb
      · next hb =>
        have hb' : isAlphanumeric b = false := by simpa using hb
        have he : encode (List.replicate count b) = (List.replicate count (escape b)).flatten := by
          simp only [encode, List.flatMap_replicate, encodeByte, hb', Bool.false_eq_true, if_false]
        rw [he, encodeTimes_flatten, flatten_flatMap]
        simp only [flatten_expandBytes]

end PrintFormat.Percent
