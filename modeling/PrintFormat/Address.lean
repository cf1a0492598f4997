import PrintFormat.Numeral

/-!
Network addresses, each one packed number with its most significant part first,
and their written forms. No form leaves digits or groups out.
-/
namespace PrintFormat

/-- An IPv4 address. -/
structure IPv4 where
  packed : BitVec 32
  deriving DecidableEq

/-- An IPv6 address. -/
structure IPv6 where
  packed : BitVec 128
  deriving DecidableEq

/-- A hardware address of six octets. -/
structure Mac where
  packed : BitVec 48
  deriving DecidableEq

/-- Texts with a separator between them. -/
def separated (separator : Bytes) : List Bytes → Bytes
  | [] => []
  | [text] => text
  | text :: rest => text ++ separator ++ separated separator rest

namespace IPv4

def octets (a : IPv4) : List Nat := places 256 4 a.packed.toNat

def ofOctets (octets : List Nat) : IPv4 := ⟨BitVec.ofNat 32 (ofDigits 256 octets)⟩

/-- Four decimal numbers with points between. -/
def text (a : IPv4) : Bytes := separated (ascii ".") (a.octets.map natText)

end IPv4

namespace IPv6

def groups (a : IPv6) : List Nat := places 65536 8 a.packed.toNat

def ofGroups (groups : List Nat) : IPv6 := ⟨BitVec.ofNat 128 (ofDigits 65536 groups)⟩

/-- Eight groups of four hexadecimal digits. -/
def text (a : IPv6) (upper : Bool) : Bytes :=
  separated (ascii ":") (a.groups.map (hexGroup upper 4))

end IPv6

namespace Mac

def octets (a : Mac) : List Nat := places 256 6 a.packed.toNat

def ofOctets (octets : List Nat) : Mac := ⟨BitVec.ofNat 48 (ofDigits 256 octets)⟩

/-- The low 48 bits of a machine word. -/
def ofWord (word : BitVec 64) : Mac := ⟨word.setWidth 48⟩

/-- Six groups of two hexadecimal digits with colons between. -/
def text (a : Mac) (upper : Bool) : Bytes :=
  separated (ascii ":") (a.octets.map (hexGroup upper 2))

/-- Three groups of four hexadecimal digits with points between. -/
def dottedText (a : Mac) (upper : Bool) : Bytes :=
  separated (ascii ".") ((places 65536 3 a.packed.toNat).map (hexGroup upper 4))

end Mac
end PrintFormat
