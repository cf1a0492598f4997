/-!
Texts taken apart. What is blank around a text is trimmed, where a character is
blank if Unicode gives it the property White_Space; case folding, of names that
are read, is of ASCII letters only. Parts between separators never hold one, and
there is one part more than there are separators.
-/
namespace PrintFormat.Text

/-! ## Blanks -/

/-- A character with the property White_Space. -/
def isBlank (c : Char) : Bool :=
  (9 ≤ c.toNat && c.toNat ≤ 13) || c.toNat == 0x20 || c.toNat == 0x85 || c.toNat == 0xA0
    || c.toNat == 0x1680 || (0x2000 ≤ c.toNat && c.toNat ≤ 0x200A) || c.toNat == 0x2028
    || c.toNat == 0x2029 || c.toNat == 0x202F || c.toNat == 0x205F || c.toNat == 0x3000

/-- The characters between the outermost ones that are not blank. -/
def trimChars (cs : List Char) : List Char :=
  ((cs.dropWhile isBlank).reverse.dropWhile isBlank).reverse

/-- A text without the blanks around it. -/
def trim (s : String) : String := String.ofList (trimChars s.toList)

/-- A text with its ASCII letters in lower case. -/
def fold (s : String) : String := String.ofList (s.toList.map Char.toLower)

/-! ## Separators -/

/-- What stands in front of the first separator, and what stands behind it if
there is one. -/
def cut (isSeparator : Char → Bool) : List Char → List Char × Option (List Char)
  | [] => ([], none)
  | c :: rest =>
      if isSeparator c then ([], some rest)
      else
        let (front, back) := cut isSeparator rest
        (c :: front, back)

/-- All parts between separators. -/
def split (isSeparator : Char → Bool) : List Char → List (List Char)
  | [] => [[]]
  | c :: rest =>
      if isSeparator c then [] :: split isSeparator rest
      else
        match split isSeparator rest with
        | [] => [[c]]
        | part :: parts => (c :: part) :: parts

/-- Three parts, cut at the first two separators. -/
def cutThree? (isSeparator : Char → Bool) (cs : List Char) :
    Option (List Char × List Char × List Char) :=
  match cut isSeparator cs with
  | (_, none) => none
  | (first, some rest) =>
      match cut isSeparator rest with
      | (_, none) => none
      | (second, some third) => some (first, second, third)

end PrintFormat.Text
