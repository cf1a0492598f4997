import PrintFormat.Address.Reading
import PrintFormat.Proofs.Numeral.Reading

/-!
Addresses read back. A number is taken off the front of a text when what stands
behind it is no digit (`takeNumber?_append`), so the text of an IPv4 or an IPv6
address is read part by part: octets between points, groups between colons with
the groups behind as the induction. An IPv6 text has no point in it, and without
one no IPv4 address is taken for its last groups. The text of a hardware address
is split at its colons.
-/
namespace PrintFormat

/-! ## Numbers in front of a text -/

/-- A text does not go on with a digit. -/
def NoDigit (base : Nat) (rest : List Char) : Prop := ∀ c ∈ rest.head?, digitValue? base c = none

theorem noDigit_nil (base : Nat) : NoDigit base [] := nofun

theorem noDigit_cons {base : Nat} {c : Char} (h : digitValue? base c = none) (rest : List Char) :
    NoDigit base (c :: rest) := by
  intro d hd
  cases hd
  exact h

/-- A number is taken off the front of a text that goes on with no digit. -/
theorem takeNumber?_append {base maxDigits n : Nat} {cs rest : List Char}
    (h : readDigits? base cs = some n) (hlength : cs.length ≤ maxDigits)
    (hrest : NoDigit base rest) : takeNumber? base maxDigits (cs ++ rest) = some (n, rest) := by
  have hwhile : (cs ++ rest).takeWhile (fun c => (digitValue? base c).isSome) = cs := by
    rw [List.takeWhile_append_of_pos fun c hc => isSome_digitValue? h hc]
    cases rest with
    | nil => simp
    | cons c rest => simp [hrest c rfl]
  simp only [takeNumber?, hwhile, hlength, if_true, h, Option.map_some, List.drop_left]

theorem takeNumber?_rest {base maxDigits n : Nat} {cs rest : List Char}
    (h : takeNumber? base maxDigits cs = some (n, rest)) : rest <:+ cs := by
  simp only [takeNumber?] at h
  split at h
  · obtain ⟨_, -, hrest⟩ := Option.map_eq_some_iff.mp h
    cases hrest
    exact List.drop_suffix _ _
  · cases h

theorem takeChar?_cons (c : Char) (rest : List Char) : takeChar? c (c :: rest) = some rest :=
  if_pos rfl

theorem takeChar?_eq_none {c : Char} {cs : List Char} (h : c ∉ cs) : takeChar? c cs = none := by
  cases cs with
  | nil => rfl
  | cons d rest =>
    refine if_neg fun hd => h ?_
    rw [hd]
    exact List.mem_cons_self

/-! ## IPv4 -/

namespace IPv4

/-- An octet is taken off the front of a text. -/
theorem takeOctet?_append {n : Nat} (hn : n < 256) {rest : List Char} (hrest : NoDigit 10 rest) :
    takeOctet? (chars (natText n) ++ rest) = some (n, rest) := by
  have hdigits := readDigits?_natText n
  have hlength : (chars (natText n)).length ≤ 3 := by
    rw [chars, List.length_map]
    exact length_natText_le (by decide) (by omega)
  have hzero : (chars (natText n) ++ rest).head? = some '0' →
      (chars (natText n) ++ rest).length = rest.length + 1 := by
    intro hhead
    rw [List.head?_append_of_ne_nil _ (ne_nil_of_readDigits? hdigits)] at hhead
    obtain rfl := head?_chars_natText hhead
    have hone : (chars (natText 0)).length = 1 := by decide +kernel
    rw [List.length_append, hone, Nat.add_comm]
  have hnumber := takeNumber?_append hdigits hlength hrest
  simp only [takeOctet?, hnumber, Option.bind_eq_bind, Option.bind_some]
  rw [if_pos ⟨by omega, hzero⟩]

theorem takeOctet?_rest {n : Nat} {cs rest : List Char} (h : takeOctet? cs = some (n, rest)) :
    rest <:+ cs := by
  simp only [takeOctet?, Option.bind_eq_bind, Option.bind_eq_some_iff] at h
  obtain ⟨⟨m, rest'⟩, hnumber, h⟩ := h
  dsimp only at h
  split at h
  · cases h
    exact takeNumber?_rest hnumber
  · cases h

/-- Without a point there is no address. -/
theorem take?_eq_none {cs : List Char} (h : '.' ∉ cs) : take? cs = none := by
  cases ho : takeOctet? cs with
  | none => simp [take?, ho]
  | some taken =>
    obtain ⟨n, rest⟩ := taken
    have hpoint := takeChar?_eq_none fun hmem => h ((takeOctet?_rest ho).subset hmem)
    simp [take?, ho, hpoint]

theorem ofOctets_octets (a : IPv4) : ofOctets a.octets = a := by
  rw [ofOctets, octets, ofNat_ofDigits_places a.packed (by decide)]

theorem take?_text (a : IPv4) : take? (chars a.text) = some (a, []) := by
  obtain ⟨p, q, r, s, hoctets⟩ : ∃ p q r s, a.octets = [p, q, r, s] := ⟨_, _, _, _, rfl⟩
  have hlt : ∀ d ∈ a.octets, d < 256 := fun d hd => lt_of_mem_places (by decide) hd
  have hpacked := a.ofOctets_octets
  rw [hoctets] at hlt hpacked
  simp only [List.forall_mem_cons] at hlt
  obtain ⟨hp, hq, hr, hs, -⟩ := hlt
  have htext : chars a.text = chars (natText p) ++ '.' :: (chars (natText q) ++ '.' ::
      (chars (natText r) ++ '.' :: (chars (natText s) ++ []))) := by
    rw [text, hoctets]
    simp only [List.map_cons, List.map_nil, separated, chars_append, List.append_assoc,
      List.append_nil]
    rfl
  have hpoint (rest : List Char) : NoDigit 10 ('.' :: rest) := noDigit_cons rfl rest
  simp only [htext, take?, takeOctet?_append hp (hpoint _), takeOctet?_append hq (hpoint _),
    takeOctet?_append hr (hpoint _), takeOctet?_append hs (noDigit_nil 10), takeChar?_cons,
    Option.bind_eq_bind, Option.bind_some, hpacked]
  rfl

/-- An address is read back from its text. -/
theorem read?_text (a : IPv4) : read? (String.ofList (chars a.text)) = some a := by
  rw [read?, String.toList_ofList, take?_text]

theorem isAscii_text (a : IPv4) : IsAscii a.text :=
  isAscii_separated_map (by decide +kernel) isAscii_natText _

end IPv4

/-! ## IPv6 -/

namespace IPv6

/-- Groups with a colon in front of each. -/
def behind (upper : Bool) (groups : List Nat) : List Char :=
  groups.flatMap fun g => ':' :: chars (hexGroup upper 4 g)

theorem point_not_mem_behind (upper : Bool) (groups : List Nat) : '.' ∉ behind upper groups := by
  intro h
  obtain ⟨g, -, hg⟩ := List.mem_flatMap.mp h
  rcases List.mem_cons.mp hg with hcolon | hg
  · exact absurd hcolon (by decide)
  · exact not_mem_of_readDigits? (readDigits?_hexGroup upper 4 g) rfl hg

theorem noDigit_behind (upper : Bool) (groups : List Nat) : NoDigit 16 (behind upper groups) := by
  cases groups with
  | nil => exact noDigit_nil 16
  | cons g groups => exact noDigit_cons rfl _

/-- A group is taken if its digits stand in front behind the separator. No IPv4
address is there. -/
theorem takeGroups_succ {isFirst upper : Bool} {limit g : Nat} {cs : List Char}
    {groups : List Nat} (hg : g < 65536)
    (hcs : takeSeparator? isFirst cs = some (chars (hexGroup upper 4 g) ++ behind upper groups)) :
    takeGroups isFirst (limit + 1) cs =
      (g :: (takeGroups false limit (behind upper groups)).1,
        (takeGroups false limit (behind upper groups)).2) := by
  have hdigits := readDigits?_hexGroup upper 4 g
  have hlength : (chars (hexGroup upper 4 g)).length ≤ 4 := by
    rw [chars, List.length_map, length_hexGroup upper (by decide) hg]
  have hnumber := takeNumber?_append hdigits hlength (noDigit_behind upper groups)
  have hpoint : '.' ∉ chars (hexGroup upper 4 g) ++ behind upper groups := by
    rw [List.mem_append, not_or]
    exact ⟨not_mem_of_readDigits? hdigits rfl, point_not_mem_behind upper groups⟩
  rw [takeGroups]
  simp only [hcs, Option.bind_some, IPv4.take?_eq_none hpoint, ite_self, hnumber]

theorem takeGroups_behind (upper : Bool) {groups : List Nat} (h : ∀ g ∈ groups, g < 65536) :
    takeGroups false groups.length (behind upper groups) = (groups, false, []) := by
  induction groups with
  | nil => rfl
  | cons g groups ih =>
    have hg := h g List.mem_cons_self
    have hrest := ih fun e he => h e (List.mem_cons_of_mem g he)
    have hcs : takeSeparator? false (behind upper (g :: groups)) =
        some (chars (hexGroup upper 4 g) ++ behind upper groups) := takeChar?_cons ':' _
    rw [List.length_cons, takeGroups_succ hg hcs, hrest]

theorem chars_separated_groups (upper : Bool) (g : Nat) (groups : List Nat) :
    chars (separated (ascii ":") ((g :: groups).map (hexGroup upper 4))) =
      chars (hexGroup upper 4 g) ++ behind upper groups := by
  rw [List.map_cons, separated_cons, chars_append, List.flatMap_map, chars, chars,
    List.map_flatMap]
  rfl

theorem takeGroups_text (upper : Bool) {groups : List Nat} (hne : groups ≠ [])
    (h : ∀ g ∈ groups, g < 65536) :
    takeGroups true groups.length
        (chars (separated (ascii ":") (groups.map (hexGroup upper 4)))) =
      (groups, false, []) := by
  cases groups with
  | nil => exact absurd rfl hne
  | cons g groups =>
    have hrest := takeGroups_behind upper fun e he => h e (List.mem_cons_of_mem g he)
    rw [chars_separated_groups, List.length_cons,
      takeGroups_succ (h g List.mem_cons_self) (by rw [takeSeparator?, if_pos rfl]), hrest]

theorem ofGroups_groups (a : IPv6) : ofGroups a.groups = a := by
  rw [ofGroups, groups, ofNat_ofDigits_places a.packed (by decide)]

/-- An address is read back from its text. -/
theorem read?_text (a : IPv6) (upper : Bool) :
    read? (String.ofList (chars (a.text upper))) = some a := by
  have hlength : a.groups.length = 8 := length_places 65536 8 a.packed.toNat
  have hne : a.groups ≠ [] := List.ne_nil_of_length_eq_add_one hlength
  have htake := takeGroups_text upper hne fun g hg => lt_of_mem_places (by decide) hg
  rw [hlength] at htake
  rw [read?, String.toList_ofList, text, htake]
  simp only [hlength, if_true, ofGroups_groups]

theorem isAscii_text (a : IPv6) (upper : Bool) : IsAscii (a.text upper) :=
  isAscii_separated_map (by decide +kernel) (isAscii_hexGroup upper 4) _

end IPv6

/-! ## Hardware addresses -/

namespace Mac

theorem mapM_readByte? (upper : Bool) {octets : List Nat} (h : ∀ n ∈ octets, n < 256) :
    ((octets.map (hexGroup upper 2)).map chars).mapM (readByte? 16) =
      some (octets.map Nat.toUInt8) := by
  induction octets with
  | nil => rfl
  | cons n octets ih =>
    have hn := readByte?_digits (readDigits?_hexGroup upper 2 n) (h n List.mem_cons_self)
    have hrest := ih fun e he => h e (List.mem_cons_of_mem n he)
    rw [List.map_cons, List.map_cons, List.mapM_cons, hn, hrest]
    rfl

theorem ofOctets_octets (a : Mac) : ofOctets a.octets = a := by
  rw [ofOctets, octets, ofNat_ofDigits_places a.packed (by decide)]

/-- An address is read back from its text. -/
theorem read?_text (a : Mac) (upper : Bool) :
    read? (String.ofList (chars (a.text upper))) = some a := by
  have hlength : a.octets.length = 6 := length_places 256 6 a.packed.toNat
  have hlt : ∀ n ∈ a.octets, n < 256 := fun n hn => lt_of_mem_places (by decide) hn
  have hne : a.octets.map (hexGroup upper 2) ≠ [] := by
    rw [Ne, List.map_eq_nil_iff]
    exact List.ne_nil_of_length_eq_add_one hlength
  have hparts : ∀ t ∈ a.octets.map (hexGroup upper 2), ∀ c ∈ chars t,
      (decide (c = ':') || decide (c = '-')) = false := by
    intro t ht c hc
    obtain ⟨n, -, rfl⟩ := List.mem_map.mp ht
    have hdigits := readDigits?_hexGroup upper 2 n
    have hcolon : c ≠ ':' := fun h => not_mem_of_readDigits? hdigits rfl (h ▸ hc)
    have hhyphen : c ≠ '-' := fun h => not_mem_of_readDigits? hdigits rfl (h ▸ hc)
    simp [hcolon, hhyphen]
  have hbytes : (a.octets.map Nat.toUInt8).map UInt8.toNat = a.octets := by
    rw [List.map_map]
    refine (List.map_congr_left fun n hn => ?_).trans (List.map_id _)
    rw [Function.comp_apply, Nat.toUInt8_eq, UInt8.toNat_ofNat', id]
    exact Nat.mod_eq_of_lt (hlt n hn)
  have hsplit := Text.split_separated 58 rfl hne hparts
  rw [read?, String.toList_ofList]
  change (Text.split _ (chars (separated [58] (a.octets.map (hexGroup upper 2))))).mapM
    (readByte? 16) >>= _ = _
  rw [hsplit, mapM_readByte? upper hlt]
  simp only [Option.bind_eq_bind, Option.bind_some, List.length_map, hlength, if_true, hbytes,
    ofOctets_octets]

theorem isAscii_text (a : Mac) (upper : Bool) : IsAscii (a.text upper) :=
  isAscii_separated_map (by decide +kernel) (isAscii_hexGroup upper 2) _

end Mac
end PrintFormat
