import Mathlib

/-!
Actions that can fail and leave a state either way. An action goes on after one
that succeeds and stops at one that fails; the same is said of the actions of a
list.
-/
namespace PrintFormat.Action

variable {ε σ α β : Type}

theorem bind_ok {x : EStateM ε σ α} {f : α → EStateM ε σ β} {s t : σ} {a : α}
    (h : x s = .ok a t) : (x >>= f) s = f a t := by
  show EStateM.bind x f s = f a t
  simp only [EStateM.bind, h]

theorem bind_error {x : EStateM ε σ α} {f : α → EStateM ε σ β} {s t : σ} {e : ε}
    (h : x s = .error e t) : (x >>= f) s = .error e t := by
  show EStateM.bind x f s = .error e t
  simp only [EStateM.bind, h]

theorem bind_eq_ok_iff {x : EStateM ε σ α} {f : α → EStateM ε σ β} {s t : σ} {b : β} :
    (x >>= f) s = .ok b t ↔ ∃ a u, x s = .ok a u ∧ f a u = .ok b t := by
  cases hx : x s with
  | ok a u =>
    rw [bind_ok hx]
    constructor
    · exact fun h => ⟨a, u, rfl, h⟩
    · rintro ⟨a', u', h, hf⟩
      cases h
      exact hf
  | error e u =>
    rw [bind_error hx]
    exact iff_of_false nofun nofun

theorem bind_eq_error_iff {x : EStateM ε σ α} {f : α → EStateM ε σ β} {s t : σ} {e : ε} :
    (x >>= f) s = .error e t ↔
      x s = .error e t ∨ ∃ a u, x s = .ok a u ∧ f a u = .error e t := by
  cases hx : x s with
  | ok a u =>
    rw [bind_ok hx]
    constructor
    · exact fun h => .inr ⟨a, u, rfl, h⟩
    · rintro (h | ⟨a', u', h, hf⟩)
      · cases h
      · cases h
        exact hf
  | error e' u =>
    rw [bind_error hx]
    constructor
    · intro h
      cases h
      exact .inl rfl
    · rintro (h | ⟨a', u', h, hf⟩)
      · cases h
        rfl
      · cases h

theorem forM_nil (f : α → EStateM ε σ Unit) (s : σ) : ([] : List α).forM f s = .ok () s := rfl

theorem forM_cons_ok {f : α → EStateM ε σ Unit} {a : α} {s t : σ} (h : f a s = .ok () t)
    (rest : List α) : (a :: rest).forM f s = rest.forM f t :=
  bind_ok h

theorem forM_cons_error {f : α → EStateM ε σ Unit} {a : α} {s t : σ} {e : ε}
    (h : f a s = .error e t) (rest : List α) : (a :: rest).forM f s = .error e t :=
  bind_error h

theorem forM_singleton (f : α → EStateM ε σ Unit) (a : α) : [a].forM f = f a :=
  bind_pure_unit

theorem forM_append (f : α → EStateM ε σ Unit) (a b : List α) :
    (a ++ b).forM f = a.forM f >>= fun _ => b.forM f :=
  List.forM_append

theorem forM_flatMap {γ : Type} (f : β → EStateM ε σ Unit) (g : γ → List β) (l : List γ) :
    (l.flatMap g).forM f = l.forM fun a => (g a).forM f := by
  induction l with
  | nil => rfl
  | cons a rest ih =>
    rw [List.flatMap_cons, forM_append, ih]
    rfl

theorem forM_append_ok {f : α → EStateM ε σ Unit} {a : List α} {s t : σ}
    (h : a.forM f s = .ok () t) (b : List α) : (a ++ b).forM f s = b.forM f t := by
  induction a generalizing s with
  | nil =>
    cases h
    rfl
  | cons x rest ih =>
    cases hx : f x s with
    | ok _ u =>
      rw [forM_cons_ok hx] at h
      rw [List.cons_append, forM_cons_ok hx]
      exact ih h
    | error e u =>
      rw [forM_cons_error hx] at h
      cases h

theorem forM_append_error {f : α → EStateM ε σ Unit} {a : List α} {s t : σ} {e : ε}
    (h : a.forM f s = .error e t) (b : List α) : (a ++ b).forM f s = .error e t := by
  induction a generalizing s with
  | nil => cases h
  | cons x rest ih =>
    cases hx : f x s with
    | ok _ u =>
      rw [forM_cons_ok hx] at h
      rw [List.cons_append, forM_cons_ok hx]
      exact ih h
    | error e' u =>
      rw [forM_cons_error hx] at h
      cases h
      rw [List.cons_append, forM_cons_error hx]

/-- What every error of an action is, an error of all of them in a row is. -/
theorem forM_error {f : α → EStateM ε σ Unit} {p : ε → Prop}
    (hf : ∀ a s t e, f a s = .error e t → p e) {l : List α} {s t : σ} {e : ε}
    (h : l.forM f s = .error e t) : p e := by
  induction l generalizing s with
  | nil => cases h
  | cons a rest ih =>
    obtain h | ⟨-, u, -, h⟩ := bind_eq_error_iff.mp h
    · exact hf a s t e h
    · exact ih h

/-- The state that an action leaves, also where it fails. -/
def left : EStateM.Result ε σ α → σ
  | .ok _ s => s
  | .error _ s => s

theorem bind_left {x : EStateM ε σ α} {f : α → EStateM ε σ β} {p : σ → Prop} {s : σ}
    (hx : p (left (x s))) (hf : ∀ a t, p t → p (left (f a t))) : p (left ((x >>= f) s)) := by
  cases h : x s with
  | ok a t =>
    rw [h] at hx
    rw [bind_ok h]
    exact hf a t hx
  | error e t =>
    rw [h] at hx
    rw [bind_error h]
    exact hx

/-- What each action keeps, all of them in a row keep. -/
theorem forM_left {f : α → EStateM ε σ Unit} {p : σ → Prop} (hf : ∀ a s, p s → p (left (f a s)))
    (l : List α) {s : σ} (hs : p s) : p (left (l.forM f s)) := by
  induction l generalizing s with
  | nil => exact hs
  | cons a rest ih => exact bind_left (hf a s hs) fun _ _ => ih

/-- Two results with the same answer or the same error, whose states are related. -/
def Matching (same : σ → σ → Prop) : EStateM.Result ε σ α → EStateM.Result ε σ α → Prop
  | .ok a s, .ok b t => a = b ∧ same s t
  | .error e s, .error f t => e = f ∧ same s t
  | _, _ => False

/-- Two actions that go the same way, each with one behind it. -/
theorem bind_matching {x y : EStateM ε σ α} {f g : α → EStateM ε σ β} {same : σ → σ → Prop}
    {s t : σ} (h : Matching same (x s) (y t))
    (hf : ∀ a s t, same s t → Matching same (f a s) (g a t)) :
    Matching same ((x >>= f) s) ((y >>= g) t) := by
  cases hs : x s with
  | ok a s' =>
    cases ht : y t with
    | ok b t' =>
      rw [hs, ht] at h
      obtain ⟨rfl, hnext⟩ := h
      rw [bind_ok hs, bind_ok ht]
      exact hf a s' t' hnext
    | error e t' =>
      rw [hs, ht] at h
      exact h.elim
  | error e s' =>
    cases ht : y t with
    | ok b t' =>
      rw [hs, ht] at h
      exact h.elim
    | error e' t' =>
      rw [hs, ht] at h
      rw [bind_error hs, bind_error ht]
      exact h

/-- Actions that go the same way from related states do so in a row. -/
theorem forM_matching {f : α → EStateM ε σ Unit} {same : σ → σ → Prop}
    (hf : ∀ a s t, same s t → Matching same (f a s) (f a t)) (l : List α) {s t : σ}
    (h : same s t) : Matching same (l.forM f s) (l.forM f t) := by
  induction l generalizing s t with
  | nil => exact ⟨rfl, h⟩
  | cons a rest ih => exact bind_matching (hf a s t h) fun _ _ _ hnext => ih hnext

end PrintFormat.Action
