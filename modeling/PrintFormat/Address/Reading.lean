import PrintFormat.Address
import PrintFormat.Numeral.Reading
import PrintFormat.Text.Parts

/-!
Addresses read from their usual notations. An IPv4 address is four decimal
octets without leading zeros. An IPv6 address is eight groups of up to four
hexadecimal digits, of which a run may be left out behind `::` and the last two
may be an IPv4 address. A hardware address is six octets between colons or
hyphens. No other character may stand in front or behind.
-/
namespace PrintFormat

/-- Takes a number of a few digits off a text. -/
def takeNumber? (base maxDigits : Nat) (cs : List Char) : Option (Nat × List Char) :=
  let digits := cs.takeWhile fun c => (digitValue? base c).isSome
  if digits.length ≤ maxDigits then
    (readDigits? base digits).map fun n => (n, cs.drop digits.length)
  else none

/-- Takes a character off a text. -/
def takeChar? (c : Char) : List Char → Option (List Char)
  | [] => none
  | d :: rest => if d = c then some rest else none

namespace IPv4

/-- Takes one octet off a text. -/
def takeOctet? (cs : List Char) : Option (Nat × List Char) := do
  let (n, rest) ← takeNumber? 10 3 cs
  if n ≤ 255 ∧ (cs.head? = some '0' → cs.length = rest.length + 1) then some (n, rest) else none

/-- Takes an address off a text. -/
def take? (cs : List Char) : Option (IPv4 × List Char) := do
  let (a, cs) ← takeOctet? cs
  let (b, cs) ← takeOctet? (← takeChar? '.' cs)
  let (c, cs) ← takeOctet? (← takeChar? '.' cs)
  let (d, cs) ← takeOctet? (← takeChar? '.' cs)
  return (ofOctets [a, b, c, d], cs)

/-- Reads an address. -/
def read? (text : String) : Option IPv4 :=
  match take? text.toList with
  | some (a, []) => some a
  | _ => none

end IPv4

namespace IPv6

/-- The separator in front of a group that is not the first. -/
def takeSeparator? (isFirst : Bool) (cs : List Char) : Option (List Char) :=
  if isFirst then some cs else takeChar? ':' cs

/-- Takes up to a number of groups off a text: the groups, whether the last two
were an IPv4 address, and the rest. -/
def takeGroups (isFirst : Bool) : Nat → List Char → List Nat × Bool × List Char
  | 0, cs => ([], false, cs)
  | limit + 1, cs =>
      let embedded := if limit = 0 then none else (takeSeparator? isFirst cs).bind IPv4.take?
      match embedded with
      | some (a, rest) => (places 65536 2 a.packed.toNat, true, rest)
      | none =>
          match (takeSeparator? isFirst cs).bind (takeNumber? 16 4) with
          | none => ([], false, cs)
          | some (group, rest) =>
              let (groups, isEmbedded, rest) := takeGroups false limit rest
              (group :: groups, isEmbedded, rest)

/-- Reads an address. The gap that `::` stands for is at least one group, and no
IPv4 address is in front of it. -/
def read? (text : String) : Option IPv6 :=
  match takeGroups true 8 text.toList with
  | (head, isEmbedded, rest) =>
      if head.length = 8 then
        if rest = [] then some (ofGroups head) else none
      else if isEmbedded then none
      else
        match rest with
        | ':' :: ':' :: rest =>
            match takeGroups true (7 - head.length) rest with
            | (tail, _, []) =>
                let gap := List.replicate (8 - head.length - tail.length) 0
                some (ofGroups (head ++ gap ++ tail))
            | _ => none
        | _ => none

end IPv6

/-- Reads a hardware address. -/
def Mac.read? (text : String) : Option Mac := do
  let octets ← (Text.split (fun c => c = ':' || c = '-') text.toList).mapM (readByte? 16)
  if octets.length = 6 then some (.ofOctets (octets.map UInt8.toNat)) else none

end PrintFormat
