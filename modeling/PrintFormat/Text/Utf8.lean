import PrintFormat.Bytes

/-!
UTF-8. A code point is a lead byte that tells the length and continuation bytes
of six bits each. Any 32-bit value has such a layout: surrogates take three bytes
like their neighbours, and from 0x10000 on four bytes carry the low 21 bits.
Well-formed text has each character in its shortest form and no surrogates.
Reading text that is not well-formed tells the characters apart from the parts
that are none: such a part is the longest run of bytes that a character could have
begun with, or else a single byte.
-/
namespace PrintFormat.CodePoint

/-- A continuation byte, which carries six bits. -/
def continuation (bits : Nat) : UInt8 := (0x80 + bits % 0x40).toUInt8

/-- The bytes of a code point. -/
def encode (cp : Nat) : Bytes :=
  if cp < 0x80 then [cp.toUInt8]
  else if cp < 0x800 then [(0xC0 + cp / 0x40).toUInt8, continuation cp]
  else if cp < 0x10000 then
    [(0xE0 + cp / 0x1000).toUInt8, continuation (cp / 0x40), continuation cp]
  else
    [(0xF0 + cp / 0x40000 % 8).toUInt8, continuation (cp / 0x1000), continuation (cp / 0x40),
      continuation cp]

end PrintFormat.CodePoint

namespace PrintFormat.Text

/-- The bytes of characters. -/
def encodeChars (cs : List Char) : Bytes := cs.flatMap fun c => CodePoint.encode c.toNat

/-- The bytes of a text. -/
def encode (s : String) : Bytes := encodeChars s.toList

/-- The shape of a character by its first byte: how many bytes follow, the range
of the first of them, and the bits that the first byte itself carries. -/
structure Lead where
  following : Nat
  low : UInt8 := 0x80
  high : UInt8 := 0xBF
  bits : Nat

/-- The lead that a byte is, if it is one. The ranges leave out long forms,
surrogates and what is beyond Unicode. -/
def Lead.ofByte? (b : UInt8) : Option Lead :=
  if b < 0x80 then some { following := 0, bits := b.toNat }
  else if b < 0xC2 then none
  else if b < 0xE0 then some { following := 1, bits := b.toNat % 0x20 }
  else if b = 0xE0 then some { following := 2, low := 0xA0, bits := 0 }
  else if b = 0xED then some { following := 2, high := 0x9F, bits := 0xD }
  else if b < 0xF0 then some { following := 2, bits := b.toNat % 0x10 }
  else if b = 0xF0 then some { following := 3, low := 0x90, bits := 0 }
  else if b < 0xF4 then some { following := 3, bits := b.toNat % 8 }
  else if b = 0xF4 then some { following := 3, high := 0x8F, bits := 4 }
  else none

/-- Reads the bytes that follow a lead: the value if all are there, and the
bytes behind those that fitted. -/
def follow (bits : Nat) (low high : UInt8) : Nat → Bytes → Option Nat × Bytes
  | 0, rest => (some bits, rest)
  | _ + 1, [] => (none, [])
  | n + 1, b :: rest =>
      if low ≤ b ∧ b ≤ high then follow (bits * 0x40 + b.toNat % 0x40) 0x80 0xBF n rest
      else (none, b :: rest)

theorem length_follow (bits : Nat) (low high : UInt8) (n : Nat) (text : Bytes) :
    (follow bits low high n text).2.length ≤ text.length := by
  fun_induction follow bits low high n text with
  | case1 => simp
  | case2 => simp
  | case3 bits low high n b rest h ih =>
    simp only [List.length_cons]
    omega
  | case4 => simp

/-- The characters of a byte string, with nothing for each part that is none. -/
def decodeParts (text : Bytes) : List (Option Char) :=
  match text with
  | [] => []
  | b :: rest =>
      match Lead.ofByte? b with
      | none => none :: decodeParts rest
      | some lead =>
          let read := follow lead.bits lead.low lead.high lead.following rest
          read.1.map Char.ofNat :: decodeParts read.2
termination_by text.length
decreasing_by
  · simp
  · simp only [List.length_cons]
    exact Nat.lt_succ_of_le (length_follow _ _ _ _ _)

/-- The text of a byte string that is well-formed. -/
def decode? (text : Bytes) : Option String :=
  ((decodeParts text).mapM id).map String.ofList

/-- The text of any byte string, with a replacement character for each part that
is no character. -/
def decodeLossy (text : Bytes) : String :=
  String.ofList ((decodeParts text).map fun c => c.getD (Char.ofNat 0xFFFD))

end PrintFormat.Text
