import PrintFormat.Json.Normal
import PrintFormat.Json.Record
import PrintFormat.Proofs.Json.Reading

/-!
Values and records. A value keeps nothing of how it was written: its strings
spell texts, its members are sorted by name without repetition, and here its
numbers are integers of 64 bits. Such a value is its own normal form if it is not
nested too deep (`IsValue.normalWithin?_eq`). An object whose members are in
another order is read with its members sorted, which loses none of them:
`lookup_sortMembers` finds each by its name, so a record is read back from its
fields.
-/
namespace PrintFormat.Json

/-- A value with at most a number of containers inside each other. -/
inductive IsValue : Nat → Json → Prop
  | null {depth : Nat} : IsValue depth .null
  | bool {depth : Nat} (b : Bool) : IsValue depth (.bool b)
  | integer {depth : Nat} {n : Int} (low : -0x8000000000000000 ≤ n)
      (high : n < 0x10000000000000000) : IsValue depth (.ofInt n)
  | text {depth : Nat} (s : String) : IsValue depth (.ofText s)
  | array {depth : Nat} {items : List Json} (values : ∀ item ∈ items, IsValue depth item) :
      IsValue (depth + 1) (.array items)
  | object {depth : Nat} {members : List (String × Json)}
      (sorted : (members.map Prod.fst).Pairwise (· < ·))
      (values : ∀ m ∈ members, IsValue depth m.2) : IsValue (depth + 1) (.ofMembers members)

/-! ## Sorted members -/

/-- A lookup compares the name with that of the first member. -/
theorem lookup_member {α β : Type} [BEq α] [LawfulBEq α] [DecidableEq α] (name : α) (value : β)
    (members : List (α × β)) (other : α) :
    ((name, value) :: members).lookup other =
      if other = name then some value else members.lookup other := by
  rw [List.lookup_cons]
  by_cases h : other = name
  · rw [if_pos h, beq_iff_eq.mpr h]
  · rw [if_neg h, beq_eq_false_iff_ne.mpr h]

section

variable {name : String} {value : Json} {members : List (String × Json)}

/-- A member whose name is behind all others goes to the end. -/
theorem insertMember_of_lt (h : ∀ m ∈ members, m.1 < name) :
    insertMember name value members = members ++ [(name, value)] := by
  induction members with
  | nil => rfl
  | cons m members ih =>
    obtain ⟨other, kept⟩ := m
    have hother : other < name := h (other, kept) List.mem_cons_self
    have hrest := ih fun m hm => h m (List.mem_cons_of_mem _ hm)
    rw [insertMember, if_neg (lt_asymm hother), if_neg (ne_of_gt hother), hrest]
    rfl

/-- Sorted members stay as they are. -/
theorem sortMembers_of_sorted (h : (members.map Prod.fst).Pairwise (· < ·)) :
    sortMembers members = members := by
  have hfold : ∀ (before rest : List (String × Json)),
      ((before ++ rest).map Prod.fst).Pairwise (· < ·) →
      rest.foldl (fun sorted m => insertMember m.1 m.2 sorted) before = before ++ rest := by
    intro before rest
    induction rest generalizing before with
    | nil => simp
    | cons m rest ih =>
      intro hsorted
      have hlast : ∀ k ∈ before, k.1 < m.1 := by
        intro k hk
        rw [List.map_append, List.pairwise_append] at hsorted
        exact hsorted.2.2 k.1 (List.mem_map_of_mem hk) m.1 List.mem_cons_self
      rw [List.foldl_cons, insertMember_of_lt hlast]
      have hrest := ih (before ++ [m])
      rw [List.append_assoc, List.singleton_append] at hrest
      exact hrest hsorted
  exact hfold [] members h

/-- A member that is put among others is found, and so are the others. -/
theorem lookup_insertMember (other : String) :
    (insertMember name value members).lookup other =
      if other = name then some value else members.lookup other := by
  induction members with
  | nil => rw [insertMember, lookup_member]
  | cons m members ih =>
    obtain ⟨first, kept⟩ := m
    rw [insertMember]
    by_cases hlt : name < first
    · rw [if_pos hlt, lookup_member]
    by_cases heq : name = first
    · rw [if_neg hlt, if_pos heq, lookup_member, lookup_member, ← heq]
      by_cases h : other = name
      · rw [if_pos h, if_pos h]
      · rw [if_neg h, if_neg h, if_neg h]
    · rw [if_neg hlt, if_neg heq, lookup_member, ih, lookup_member]
      by_cases h : other = first
      · have hname : ¬ other = name := fun hname => heq (hname.symm.trans h)
        rw [if_pos h, if_neg hname, if_pos h]
      · rw [if_neg h, if_neg h]

/-- Sorting loses no member if no name is repeated. -/
theorem lookup_sortMembers (h : (members.map Prod.fst).Nodup) (name : String) :
    (sortMembers members).lookup name = members.lookup name := by
  have hfold : ∀ (before rest : List (String × Json)), (rest.map Prod.fst).Nodup →
      (rest.foldl (fun sorted m => insertMember m.1 m.2 sorted) before).lookup name =
        (rest.lookup name).or (before.lookup name) := by
    intro before rest
    induction rest generalizing before with
    | nil => simp
    | cons m rest ih =>
      obtain ⟨first, kept⟩ := m
      intro hnodup
      rw [List.map_cons, List.nodup_cons] at hnodup
      rw [List.foldl_cons, ih _ hnodup.2, lookup_insertMember, lookup_member]
      by_cases hname : name = first
      · have hnone : rest.lookup name = none := by
          rw [List.lookup_eq_none_iff]
          intro m hm
          rw [bne_iff_ne, hname]
          exact fun heq => hnodup.1 (List.mem_map.mpr ⟨m, hm, heq.symm⟩)
        rw [if_pos hname, if_pos hname, hnone, Option.none_or, Option.some_or]
      · rw [if_neg hname, if_neg hname]
  have hlookup := hfold [] members h
  rwa [List.lookup_nil, Option.or_none] at hlookup

/-- No member is made up. -/
theorem mem_insertMember {m : String × Json} (h : m ∈ insertMember name value members) :
    m = (name, value) ∨ m ∈ members := by
  induction members with
  | nil => exact List.mem_cons.mp h
  | cons k members ih =>
    obtain ⟨first, kept⟩ := k
    rw [insertMember] at h
    by_cases hlt : name < first
    · rw [if_pos hlt] at h
      exact List.mem_cons.mp h
    by_cases heq : name = first
    · rw [if_neg hlt, if_pos heq] at h
      exact (List.mem_cons.mp h).imp_right (List.mem_cons_of_mem _)
    · rw [if_neg hlt, if_neg heq] at h
      rcases List.mem_cons.mp h with rfl | h
      · exact .inr List.mem_cons_self
      · exact (ih h).imp_right (List.mem_cons_of_mem _)

/-- Names stay sorted. -/
theorem sorted_insertMember (name : String) (value : Json)
    (h : (members.map Prod.fst).Pairwise (· < ·)) :
    ((insertMember name value members).map Prod.fst).Pairwise (· < ·) := by
  induction members with
  | nil => exact List.pairwise_singleton _ _
  | cons m members ih =>
    obtain ⟨first, kept⟩ := m
    rw [List.map_cons, List.pairwise_cons] at h
    rw [insertMember]
    by_cases hlt : name < first
    · rw [if_pos hlt, List.map_cons, List.map_cons, List.pairwise_cons, List.pairwise_cons]
      refine ⟨?_, h⟩
      intro other hother
      rcases List.mem_cons.mp hother with rfl | hother
      · exact hlt
      · exact lt_trans hlt (h.1 other hother)
    by_cases heq : name = first
    · rw [if_neg hlt, if_pos heq, List.map_cons, List.pairwise_cons, heq]
      exact h
    · have hgt : first < name := lt_of_le_of_ne (not_lt.mp hlt) (Ne.symm heq)
      rw [if_neg hlt, if_neg heq, List.map_cons, List.pairwise_cons]
      refine ⟨?_, ih h.2⟩
      intro other hother
      obtain ⟨m, hm, rfl⟩ := List.mem_map.mp hother
      rcases mem_insertMember hm with rfl | hm
      · exact hgt
      · exact h.1 m.1 (List.mem_map_of_mem hm)

theorem sorted_sortMembers (members : List (String × Json)) :
    ((sortMembers members).map Prod.fst).Pairwise (· < ·) := by
  have hfold : ∀ (before rest : List (String × Json)), (before.map Prod.fst).Pairwise (· < ·) →
      ((rest.foldl (fun sorted m => insertMember m.1 m.2 sorted) before).map Prod.fst).Pairwise
        (· < ·) := by
    intro before rest
    induction rest generalizing before with
    | nil => exact id
    | cons m rest ih => exact fun h => ih _ (sorted_insertMember m.1 m.2 h)
  exact hfold [] members List.Pairwise.nil

theorem mem_sortMembers {m : String × Json} (h : m ∈ sortMembers members) : m ∈ members := by
  have hfold : ∀ (before rest : List (String × Json)),
      m ∈ rest.foldl (fun sorted m => insertMember m.1 m.2 sorted) before →
        m ∈ rest ∨ m ∈ before := by
    intro before rest
    induction rest generalizing before with
    | nil => exact .inr
    | cons k rest ih =>
      intro hm
      rcases ih _ hm with hrest | hm
      · exact .inl (List.mem_cons_of_mem _ hrest)
      · rcases mem_insertMember hm with rfl | hm
        · exact .inl List.mem_cons_self
        · exact .inr hm
  exact (hfold [] members h).resolve_right List.not_mem_nil

end

/-! ## Normal forms -/

theorem normalItems?_eq {depth : Nat} {items : List Json}
    (h : ∀ item ∈ items, normalWithin? depth item = some item) :
    normalItems? depth items = some items := by
  induction items with
  | nil => rfl
  | cons item items ih =>
    have hitem := h item List.mem_cons_self
    have hrest := ih fun i hi => h i (List.mem_cons_of_mem item hi)
    simp only [normalItems?, hitem, hrest, Option.bind_eq_bind, Option.bind_some]
    rfl

theorem normalMembers?_eq {depth : Nat} {members : List (String × Json)}
    (h : ∀ m ∈ members, normalWithin? depth m.2 = some m.2) :
    normalMembers? depth (members.map fun m => (some m.1, m.2)) = some members := by
  induction members with
  | nil => rfl
  | cons m members ih =>
    have hm := h m List.mem_cons_self
    have hrest := ih fun k hk => h k (List.mem_cons_of_mem m hk)
    simp only [List.map_cons, normalMembers?, hm, hrest, Option.bind_eq_bind, Option.bind_some]
    rfl

/-- Members with values are sorted in the normal form of their object. -/
theorem normalWithin?_ofMembers {depth : Nat} {members : List (String × Json)}
    (h : ∀ m ∈ members, normalWithin? depth m.2 = some m.2) :
    normalWithin? (depth + 1) (ofMembers members) = some (ofMembers (sortMembers members)) := by
  simp only [ofMembers, normalWithin?, normalMembers?_eq h, Option.map_some]

namespace IsValue

/-- A value is its own normal form. -/
theorem normalWithin?_eq {depth : Nat} {j : Json} (h : IsValue depth j) :
    normalWithin? depth j = some j := by
  induction h with
  | null => rfl
  | bool b => rfl
  | integer low high =>
    simp only [ofInt, normalWithin?, Numeral.value?_ofInt low high, Option.map_some]
    rfl
  | text s => rfl
  | array _ ih => simp only [normalWithin?, normalItems?_eq ih, Option.map_some]
  | object sorted _ ih => rw [normalWithin?_ofMembers ih, sortMembers_of_sorted sorted]

theorem mono {depth depth' : Nat} {j : Json} (h : IsValue depth j) (hle : depth ≤ depth') :
    IsValue depth' j := by
  induction h generalizing depth' with
  | null => exact .null
  | bool b => exact .bool b
  | integer low high => exact .integer low high
  | text s => exact .text s
  | array _ ih =>
    obtain ⟨k, rfl⟩ := Nat.exists_eq_add_of_lt hle
    exact .array fun item hitem => ih item hitem (by omega)
  | object sorted _ ih =>
    obtain ⟨k, rfl⟩ := Nat.exists_eq_add_of_lt hle
    exact .object sorted fun m hm => ih m hm (by omega)

end IsValue

/-- The text of an object is read as the value that has its members sorted. -/
theorem readValue?_compact {members : List (String × Json)}
    (h : ∀ m ∈ members, normalWithin? 126 m.2 = some m.2) :
    readValue? (ofMembers members).compact = some (ofMembers (sortMembers members)) := by
  rw [readValue?, read?_compact, Option.bind_some, normal?]
  exact normalWithin?_ofMembers h

/-! ## Fields that may be missing -/

/-- The members that fields leave in a document. -/
def present (fields : List (String × Option Json)) : List (String × Json) :=
  fields.filterMap fun f => f.2.map (f.1, ·)

theorem present_some (field : String) (j : Json) (rest : List (String × Option Json)) :
    present ((field, some j) :: rest) = (field, j) :: present rest := rfl

theorem present_map {α : Type} (field : String) (write : α → Json) (o : Option α)
    (rest : List (String × Option Json)) :
    present ((field, o.map write) :: rest) = optionalMember field write o ++ present rest := by
  cases o <;> rfl

section

variable {fields : List (String × Option Json)}

theorem names_present : ((present fields).map Prod.fst).Sublist (fields.map Prod.fst) := by
  induction fields with
  | nil => exact List.Sublist.slnil
  | cons f rest ih =>
    obtain ⟨field, value⟩ := f
    cases value with
    | none => exact ih.cons field
    | some j => exact ih.cons_cons field

/-- A field is looked up among the members by its name. -/
theorem lookup_present (h : (fields.map Prod.fst).Nodup) (name : String) :
    (present fields).lookup name = (fields.lookup name).join := by
  induction fields with
  | nil => rfl
  | cons f rest ih =>
    obtain ⟨field, value⟩ := f
    rw [List.map_cons, List.nodup_cons] at h
    have hrest := ih h.2
    rw [lookup_member]
    by_cases hname : name = field
    · rw [if_pos hname]
      cases value with
      | some j => rw [present_some, lookup_member, if_pos hname]; rfl
      | none =>
        show (present rest).lookup name = none
        rw [List.lookup_eq_none_iff]
        intro m hm
        rw [bne_iff_ne, hname]
        exact fun heq => h.1 (names_present.subset (List.mem_map.mpr ⟨m, hm, heq.symm⟩))
    · rw [if_neg hname]
      cases value with
      | some j => rw [present_some, lookup_member, if_neg hname, hrest]
      | none => exact hrest

end

/-! ## Records -/

/-- Names that spell texts are those texts. -/
theorem mapM_spelled (members : List (String × Json)) :
    (members.map fun m => ((some m.1 : Quoted), m.2)).mapM (fun m => m.1.map (·, m.2)) =
      some members := by
  induction members with
  | nil => rfl
  | cons m members ih =>
    rw [List.map_cons, List.mapM_cons, ih]
    rfl

/-- Members whose names are fields are a record. -/
theorem record?_ofMembers {fields : List String} (least : Nat) {members : List (String × Json)}
    (hnames : ∀ m ∈ members, m.1 ∈ fields) (hnodup : (members.map Prod.fst).Nodup) :
    (ofMembers members).record? fields least = some members := by
  have hknown : members.filter (fun m => m.1 ∈ fields) = members :=
    List.filter_eq_self.mpr fun m hm => decide_eq_true (hnames m hm)
  simp only [ofMembers, record?, mapM_spelled, Option.bind_eq_bind, Option.bind_some, hknown,
    hnodup, if_true]

/-- A record has the fields that the object has. -/
theorem lookup_of_record? {fields : List String} {least : Nat} {members : List (String × Json)}
    {r : Record} (h : (ofMembers members).record? fields least = some r) {field : String}
    (hfield : field ∈ fields) : r.lookup field = members.lookup field := by
  simp only [ofMembers, record?, mapM_spelled, Option.bind_eq_bind, Option.bind_some] at h
  split at h
  · next hnodup =>
    cases h
    clear hnodup
    induction members with
    | nil => rfl
    | cons m members ih =>
      obtain ⟨name, value⟩ := m
      by_cases hname : name ∈ fields
      · rw [List.filter_cons_of_pos (by simpa using hname), lookup_member, lookup_member, ih]
      · have hne : field ≠ name := fun heq => hname (heq ▸ hfield)
        rw [List.filter_cons_of_neg (by simpa using hname), lookup_member, if_neg hne, ih]
  · cases h

namespace Record

variable {α : Type} {r : Record} {field : String}

theorem required_eq_some_iff {read : Json → Option α} {v : α} :
    r.required field read = some v ↔ ∃ j, r.lookup field = some j ∧ read j = some v :=
  Option.bind_eq_some_iff

theorem required_eq {read : Json → Option α} {j : Json} (h : r.lookup field = some j) {v : α}
    (hread : read j = some v) : r.required field read = some v :=
  required_eq_some_iff.mpr ⟨j, h, hread⟩

/-- What stands for a field is read instead of its default. -/
theorem withDefault_eq {default : α} {read : Json → Option α} {j : Json}
    (h : r.lookup field = some j) {v : α} (hread : read j = some v) :
    r.withDefault field default read = some v := by
  rw [withDefault, h]
  exact hread

/-- What was written for an optional field is read back, if it is not null. -/
theorem optional_eq {read : Json → Option α} {write : α → Json} {o : Option α}
    (h : r.lookup field = o.map write) (hnull : ∀ v ∈ o, write v ≠ .null)
    (hread : ∀ v ∈ o, read (write v) = some v) : r.optional field read = some o := by
  cases o with
  | none =>
    rw [optional, h]
    rfl
  | some v =>
    have hv := hread v rfl
    rw [optional, h, Option.map_some]
    split
    · rename_i heq
      cases heq
    · rename_i heq
      exact absurd (Option.some.inj heq) (hnull v rfl)
    · rename_i heq
      rw [← Option.some.inj heq, hv]
      rfl

/-- A field that has a value is there and not null. -/
theorem exists_of_optional {read : Json → Option α} {v : α}
    (h : r.optional field read = some (some v)) :
    ∃ j, r.lookup field = some j ∧ j ≠ .null ∧ read j = some v := by
  unfold optional at h
  split at h
  · cases h
  · cases h
  · next j hnull hlookup =>
    obtain ⟨w, hw, heq⟩ := Option.map_eq_some_iff.mp h
    cases heq
    exact ⟨j, hlookup, hnull, hw⟩

end Record

/-! ## Items -/

/-- Items are read back if each of them is. -/
theorem list?_map {α : Type} {read : Json → Option α} {write : α → Json} {items : List α}
    (h : ∀ v ∈ items, read (write v) = some v) :
    list? read (.array (items.map write)) = some items := by
  show (items.map write).mapM read = some items
  induction items with
  | nil => rfl
  | cons v rest ih =>
    have hfirst := h v List.mem_cons_self
    have hrest := ih fun w hw => h w (List.mem_cons_of_mem v hw)
    rw [List.map_cons, List.mapM_cons, hfirst, hrest]
    rfl

/-! ## Integers -/

/-- An integer that one of the kinds of 64-bit words holds is read back. -/
theorem int?_ofInt {n : Int} (low : -0x8000000000000000 ≤ n) (high : n < 0x10000000000000000) :
    (ofInt n).int? = some n := by
  simp only [ofInt, int?, Numeral.value?_ofInt low high]

/-- A number of 64 bits is read back. -/
theorem nat?_ofNat {n : Nat} (h : n < 0x10000000000000000) : (ofNat n).nat? = some n := by
  have hint : (ofNat n).int? = some (n : Int) := int?_ofInt (by omega) (by omega)
  have hsign : decide (0 ≤ (n : Int)) = true := decide_eq_true (Int.natCast_nonneg n)
  rw [nat?, hint, Option.filter_some, if_pos hsign, Option.map_some, Int.toNat_natCast]

end PrintFormat.Json
