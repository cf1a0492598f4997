import PrintFormat.Proofs.Text.Utf8

/-!
The layout of code points. A layout is a lead byte and continuation bytes, so
that layouts put together are told apart at their lead bytes
(`CodePoint.parts_flatMap`), and the bits that the bytes of a part carry make up
the code point again, up to 21 bits of it (`CodePoint.assemble_encode`). A byte of
ASCII stands for itself alone (`Text.count_encode`).
-/
namespace PrintFormat

namespace CodePoint

/-! ## Bytes of a layout -/

/-- A byte that carries on a layout. -/
def isContinuation (b : UInt8) : Bool := 0x80 ≤ b.toNat && b.toNat < 0xC0

/-- The bits that a byte of a layout carries behind those that tell its kind. -/
def payload (b : UInt8) : Nat :=
  if b.toNat < 0x80 then b.toNat
  else if b.toNat < 0xC0 then b.toNat % 0x40
  else if b.toNat < 0xE0 then b.toNat % 0x20
  else if b.toNat < 0xF0 then b.toNat % 0x10
  else b.toNat % 8

/-- The number that the bytes of a layout carry together. -/
def assemble (part : Bytes) : Nat := part.foldl (fun n b => n * 0x40 + payload b) 0

/-- A byte string split in front of each byte that carries nothing on. -/
def parts (text : Bytes) : List Bytes := text.splitBy fun _ b => isContinuation b

theorem isContinuation_continuation (bits : Nat) : isContinuation (continuation bits) = true := by
  rw [isContinuation, Text.toNat_continuation, Bool.and_eq_true, decide_eq_true_eq,
    decide_eq_true_eq]
  omega

theorem payload_continuation (bits : Nat) : payload (continuation bits) = bits % 0x40 := by
  rw [payload, Text.toNat_continuation]
  split_ifs <;> omega

theorem payload_toUInt8 {n : Nat} (hn : n < 0x100) :
    payload n.toUInt8 =
      if n < 0x80 then n else if n < 0xC0 then n % 0x40 else if n < 0xE0 then n % 0x20
      else if n < 0xF0 then n % 0x10 else n % 8 := by
  have hbyte : n.toUInt8.toNat = n := UInt8.toNat_ofNat_of_lt' hn
  rw [payload, hbyte]

/-- A lead byte is none that carries a layout on. -/
theorem isContinuation_lead {n : Nat} (h : n < 0x80 ∨ 0xC0 ≤ n) (hn : n < 0x100) :
    isContinuation n.toUInt8 = false := by
  have hlead : n.toUInt8.toNat = n := UInt8.toNat_ofNat_of_lt' hn
  rw [isContinuation, hlead, Bool.and_eq_false_iff, decide_eq_false_iff_not,
    decide_eq_false_iff_not]
  omega

/-- A layout is a lead byte and bytes that carry it on. -/
theorem encode_eq_cons (n : Nat) :
    ∃ lead tail, encode n = lead :: tail ∧ isContinuation lead = false ∧
      ∀ b ∈ tail, isContinuation b = true := by
  have htail (bits : List Nat) : ∀ b ∈ bits.map continuation, isContinuation b = true := by
    intro b hb
    obtain ⟨x, -, rfl⟩ := List.mem_map.mp hb
    exact isContinuation_continuation x
  unfold encode
  split
  · exact ⟨_, _, rfl, isContinuation_lead (by omega) (by omega), htail []⟩
  split
  · exact ⟨_, _, rfl, isContinuation_lead (by omega) (by omega), htail [_]⟩
  split
  · exact ⟨_, _, rfl, isContinuation_lead (by omega) (by omega), htail [_, _]⟩
  · exact ⟨_, _, rfl, isContinuation_lead (by omega) (by omega), htail [_, _, _]⟩

theorem encode_ne_nil (n : Nat) : encode n ≠ [] := by
  obtain ⟨lead, tail, htext, -⟩ := encode_eq_cons n
  rw [htext]
  exact List.cons_ne_nil lead tail

/-! ## Layouts in a row -/

/-- Layouts put together are split into themselves. -/
theorem parts_flatMap (ns : List Nat) : parts (ns.flatMap encode) = ns.map encode := by
  have hne : [] ∉ ns.map encode := by
    intro hmem
    obtain ⟨n, -, hn⟩ := List.mem_map.mp hmem
    exact encode_ne_nil n hn
  have hwithin : ∀ part ∈ ns.map encode, part.IsChain fun _ b => isContinuation b = true := by
    intro part hpart
    obtain ⟨n, -, rfl⟩ := List.mem_map.mp hpart
    obtain ⟨lead, tail, htext, -, htail⟩ := encode_eq_cons n
    rw [htext]
    refine (List.pairwise_cons.mpr ⟨htail, ?_⟩).isChain
    exact List.pairwise_of_forall_mem_list fun _ _ b hb => htail b hb
  have hbetween : (ns.map encode).IsChain fun a b =>
      ∃ (_ : a ≠ []) (hb : b ≠ []), isContinuation (b.head hb) = false := by
    refine (List.pairwise_of_forall_mem_list fun a ha b hb => ?_).isChain
    obtain ⟨n, -, rfl⟩ := List.mem_map.mp hb
    obtain ⟨lead, tail, htext, hlead, -⟩ := encode_eq_cons n
    refine ⟨ne_of_mem_of_not_mem ha hne, encode_ne_nil n, ?_⟩
    simpa only [htext, List.head_cons] using hlead
  rw [parts, List.flatMap_def]
  exact List.splitBy_flatten hne hwithin hbetween

/-- The bits of a layout make up its code point, all of it below 0x10000 and else
its low 21 bits. -/
theorem assemble_encode (n : Nat) :
    assemble (encode n) = if n < 0x10000 then n else n % 2 ^ 21 := by
  -- below 0x10000 the lead byte holds all that is above its continuation bytes
  by_cases hsmall : n < 0x10000
  · rw [if_pos hsmall]
    unfold encode
    split_ifs
    all_goals
      simp only [assemble, List.foldl_cons, List.foldl_nil, payload_continuation]
      rw [payload_toUInt8 (by omega)]
      split_ifs <;> omega
  · rw [if_neg hsmall, encode, if_neg (by omega), if_neg (by omega), if_neg hsmall]
    simp only [assemble, List.foldl_cons, List.foldl_nil, payload_continuation]
    rw [payload_toUInt8 (by omega)]
    split_ifs <;> omega

/-- Layouts put together tell the code points that they keep whole. -/
theorem map_assemble_parts (ns : List Nat) :
    (parts (ns.flatMap encode)).map assemble =
      ns.map fun n => if n < 0x10000 then n else n % 2 ^ 21 := by
  rw [parts_flatMap, List.map_map]
  exact List.map_congr_left fun n _ => assemble_encode n

/-- A byte of ASCII is in the layout of no code point but its own. -/
theorem mem_encode_iff {n : Nat} {b : UInt8} (hb : b.toNat < 0x80) :
    b ∈ encode n ↔ n = b.toNat := by
  by_cases hn : n < 0x80
  · have hbyte : n.toUInt8.toNat = n := UInt8.toNat_ofNat_of_lt' (hn.trans (by decide))
    rw [encode, if_pos hn, List.mem_singleton, ← UInt8.toNat_inj, hbyte, eq_comm]
  · refine iff_of_false (fun hmem => ?_) (by omega)
    -- a lead byte of more bytes is at least 0xC0
    have hlead {lead : Nat} (hlow : 0x80 ≤ lead) (hhigh : lead < 0x100) : b ≠ lead.toUInt8 := by
      have hbyte : lead.toUInt8.toNat = lead := UInt8.toNat_ofNat_of_lt' hhigh
      rintro rfl
      omega
    have htail (bits : Nat) : b ≠ continuation bits := by
      have hbyte := Text.toNat_continuation bits
      rintro rfl
      omega
    rw [encode, if_neg hn] at hmem
    split_ifs at hmem <;>
      simp only [List.mem_cons, List.not_mem_nil, or_false, htail] at hmem <;>
      exact hlead (by omega) (by omega) hmem

end CodePoint

namespace Text

variable {c : Char} (hc : c.toNat < 0x80)
include hc

/-- The byte of a character of ASCII is in the bytes of no other character. -/
theorem mem_encode_toNat_iff {d : Char} : c.toUInt8 ∈ CodePoint.encode d.toNat ↔ d = c := by
  have hbyte : c.toUInt8.toNat = c.toNat := UInt8.toNat_ofNat_of_lt' (hc.trans (by decide))
  rw [CodePoint.mem_encode_iff (by omega), hbyte, Char.toNat_inj]

theorem encode_toNat_self : CodePoint.encode c.toNat = [c.toUInt8] := by
  rw [CodePoint.encode, if_pos hc]
  rfl

/-- A character of ASCII is as often in a text as its byte is in the bytes of the
text. -/
theorem count_encode (s : String) : (encode s).count c.toUInt8 = s.toList.count c := by
  rw [encode]
  induction s.toList with
  | nil => rfl
  | cons d ds ih =>
    rw [encodeChars, List.flatMap_cons, List.count_append, ← encodeChars, ih]
    by_cases hd : d = c
    · rw [hd, encode_toNat_self hc, List.count_singleton_self, List.count_cons_self, Nat.add_comm]
    · rw [List.count_cons_of_ne hd, List.count_eq_zero.mpr (mt (mem_encode_toNat_iff hc).mp hd),
        Nat.zero_add]

/-- A text ends with a character of ASCII if its bytes end with its byte. -/
theorem getLast?_of_encode {s : String} (h : (encode s).getLast? = some c.toUInt8) :
    ∃ front : String, s.toList = front.toList ++ [c] := by
  obtain hnil | ⟨cs, d, hcs⟩ := s.toList.eq_nil_or_concat'
  · rw [encode, hnil] at h
    cases h
  · rw [encode, hcs, encodeChars, List.flatMap_append, List.flatMap_singleton,
      List.getLast?_append_of_ne_nil _ (CodePoint.encode_ne_nil d.toNat)] at h
    obtain rfl := (mem_encode_toNat_iff hc).mp (List.mem_of_getLast? h)
    exact ⟨String.ofList cs, by rw [hcs, String.toList_ofList]⟩

end Text
end PrintFormat
