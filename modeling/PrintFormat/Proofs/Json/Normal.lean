import PrintFormat.Proofs.Json.Value

/-!
Normal forms again. The normal form of a document has its own members sorted and
its strings spelled; what may still change in it are its numbers, where the
numeral of a float need not mean the float. Without such numbers it is its own
normal form (`normalWithin?_normal`).
-/
namespace PrintFormat.Json

/-! ## Numbers -/

namespace Numeral

/-- An integer that one of the kinds of 64-bit words holds. -/
def IsWord (n : Numeral) : Prop :=
  ∃ k : Int, -0x8000000000000000 ≤ k ∧ k < 0x10000000000000000 ∧ n = .ofInt k

/-- A numeral that is written for what it means. -/
def IsKept (n : Numeral) : Prop := n.value?.map Number.numeral = some n

instance (n : Numeral) : Decidable n.IsKept :=
  inferInstanceAs (Decidable (n.value?.map Number.numeral = some n))

theorem IsWord.isKept {n : Numeral} (h : n.IsWord) : n.IsKept := by
  obtain ⟨k, low, high, rfl⟩ := h
  rw [IsKept, value?_ofInt low high]
  rfl

/-- Minus zero is no integer, but what it is read as is kept. -/
example :
    let zero : Numeral := { negative := true, fraction := [0] }
    (value? { negative := true }).map Number.numeral = some zero ∧ zero.IsKept := by
  decide +kernel

end Numeral

/-- Every number of a document has a property. -/
inductive AllNumbers (P : Numeral → Prop) : Json → Prop
  | null : AllNumbers P .null
  | bool (b : Bool) : AllNumbers P (.bool b)
  | number {n : Numeral} (h : P n) : AllNumbers P (.number n)
  | string (s : Quoted) : AllNumbers P (.string s)
  | array {items : List Json} (h : ∀ item ∈ items, AllNumbers P item) :
      AllNumbers P (.array items)
  | object {members : List (Quoted × Json)} (h : ∀ m ∈ members, AllNumbers P m.2) :
      AllNumbers P (.object members)

namespace AllNumbers

variable {P Q : Numeral → Prop} {j : Json}

theorem mono (h : AllNumbers P j) (hPQ : ∀ n, P n → Q n) : AllNumbers Q j := by
  induction h with
  | null => exact .null
  | bool b => exact .bool b
  | number h => exact .number (hPQ _ h)
  | string s => exact .string s
  | array _ ih => exact .array ih
  | object _ ih => exact .object ih

end AllNumbers

/-! ## Normal forms -/

section

variable {depth : Nat}

/-- Each item of a normal form is the normal form of one. -/
theorem exists_of_mem_normalItems? {items vs : List Json} (h : normalItems? depth items = some vs)
    {v : Json} (hv : v ∈ vs) : ∃ item, normalWithin? depth item = some v := by
  induction items generalizing vs with
  | nil =>
    cases h
    cases hv
  | cons item rest ih =>
    simp only [normalItems?, Option.bind_eq_bind, Option.bind_eq_some_iff, Option.pure_def,
      Option.some.injEq] at h
    obtain ⟨w, hitem, ws, hrest, rfl⟩ := h
    rcases List.mem_cons.mp hv with rfl | hv
    · exact ⟨item, hitem⟩
    · exact ih hrest hv

/-- Each member of a normal form has the normal form of one as its value. -/
theorem exists_of_mem_normalMembers? {members : List (Quoted × Json)} {ms : List (String × Json)}
    (h : normalMembers? depth members = some ms) {m : String × Json} (hm : m ∈ ms) :
    ∃ value, normalWithin? depth value = some m.2 := by
  induction members generalizing ms with
  | nil =>
    cases h
    cases hm
  | cons member rest ih =>
    simp only [normalMembers?, Option.bind_eq_bind, Option.bind_eq_some_iff, Option.pure_def,
      Option.some.injEq] at h
    obtain ⟨name, -, value, hvalue, ms', hrest, rfl⟩ := h
    rcases List.mem_cons.mp hm with rfl | hm
    · exact ⟨member.2, hvalue⟩
    · exact ih hrest hm

theorem normalWithin?_number (n : Numeral) :
    normalWithin? depth (.number n) = (n.value?.map Number.numeral).map .number := by
  rw [normalWithin?, Option.map_map]
  rfl

/-- The normal form of an array has items that are normal forms. -/
theorem normalWithin?_array_eq_some {items : List Json} {v : Json}
    (h : normalWithin? depth (.array items) = some v) :
    ∃ k vs, depth = k + 1 ∧ v = .array vs ∧
      ∀ w ∈ vs, ∃ item, normalWithin? k item = some w := by
  cases depth with
  | zero => cases h
  | succ k =>
    obtain ⟨vs, hvs, rfl⟩ := Option.map_eq_some_iff.mp h
    exact ⟨k, vs, rfl, rfl, fun w hw => exists_of_mem_normalItems? hvs hw⟩

/-- The normal form of an object has members with normal forms, and they are
sorted. -/
theorem normalWithin?_object_eq_some {members : List (Quoted × Json)} {v : Json}
    (h : normalWithin? depth (.object members) = some v) :
    ∃ k ms, depth = k + 1 ∧ v = ofMembers ms ∧ (ms.map Prod.fst).Pairwise (· < ·) ∧
      ∀ m ∈ ms, ∃ value, normalWithin? k value = some m.2 := by
  cases depth with
  | zero => cases h
  | succ k =>
    obtain ⟨ms, hms, rfl⟩ := Option.map_eq_some_iff.mp h
    exact ⟨k, sortMembers ms, rfl, rfl, sorted_sortMembers ms,
      fun m hm => exists_of_mem_normalMembers? hms (mem_sortMembers hm)⟩

/-- Only objects have objects as their normal forms. -/
theorem exists_members_of_normalWithin? {j : Json} {members : List (Quoted × Json)}
    (h : j.normalWithin? depth = some (.object members)) :
    ∃ (k : Nat) (ms : List (String × Json)), depth = k + 1 ∧
      members = (ms.map fun m => (some m.1, m.2)) ∧ (ms.map Prod.fst).Pairwise (· < ·) ∧
      ∀ m ∈ ms, ∃ value, normalWithin? k value = some m.2 := by
  cases j with
  | null => cases h
  | bool b => cases h
  | number n =>
    obtain ⟨w, -, hw⟩ := Option.map_eq_some_iff.mp h
    cases hw
  | string s =>
    obtain ⟨t, -, ht⟩ := Option.map_eq_some_iff.mp h
    cases ht
  | array items =>
    obtain ⟨_, _, _, harray, _⟩ := normalWithin?_array_eq_some h
    cases harray
  | object _ =>
    obtain ⟨k, ms, hdepth, hobject, hms⟩ := normalWithin?_object_eq_some h
    cases hobject
    exact ⟨k, ms, hdepth, rfl, hms⟩

/-- A normal form whose numbers are kept is its own normal form. -/
theorem normalWithin?_normal {j v : Json} (h : j.normalWithin? depth = some v)
    (hkept : v.AllNumbers Numeral.IsKept) : v.normalWithin? depth = some v := by
  induction depth using Nat.strongRecOn generalizing j v with
  | ind depth ih =>
    cases j with
    | null =>
      cases h
      rfl
    | bool b =>
      cases h
      rfl
    | number n =>
      rw [normalWithin?_number] at h
      obtain ⟨w, -, rfl⟩ := Option.map_eq_some_iff.mp h
      cases hkept with
      | number hw =>
        rw [normalWithin?_number, show w.value?.map Number.numeral = some w from hw]
        rfl
    | string s =>
      obtain ⟨t, -, rfl⟩ := Option.map_eq_some_iff.mp h
      rfl
    | array items =>
      obtain ⟨k, vs, rfl, rfl, hvs⟩ := normalWithin?_array_eq_some h
      cases hkept with
      | array hitems =>
        have hnormal : ∀ w ∈ vs, normalWithin? k w = some w := by
          intro w hw
          obtain ⟨_, hitem⟩ := hvs w hw
          exact ih k (by omega) hitem (hitems w hw)
        rw [normalWithin?, normalItems?_eq hnormal]
        rfl
    | object members =>
      obtain ⟨k, ms, rfl, rfl, hsorted, hms⟩ := normalWithin?_object_eq_some h
      have hnormal : ∀ m ∈ ms, normalWithin? k m.2 = some m.2 := by
        intro m hm
        obtain ⟨_, hvalue⟩ := hms m hm
        refine ih k (by omega) hvalue ?_
        cases hkept with
        | object hmembers => exact hmembers (some m.1, m.2) (List.mem_map_of_mem hm)
      rw [normalWithin?_ofMembers hnormal, sortMembers_of_sorted hsorted]

end

end PrintFormat.Json
