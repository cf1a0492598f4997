import PrintFormat.Error
import PrintFormat.Proofs.Action

/-!
Checked computations. A checked computation carries out its partial operations,
subtractions, indices, slices and the arithmetic of machine words, only where
they have a result, and meets a breach where they have none. `CarriesOut` says
that a checked computation meets no breach and comes to what an unchecked one
comes to, through a view of its state; it is put together along the steps of a
computation by `CarriesOut.bind`.
-/
namespace PrintFormat

/-- Why a checked computation stops. -/
inductive Stop
  | breach
  | error (e : FormatError)
  deriving DecidableEq

/-- A computation that checks its partial operations. -/
abbrev Checked := EStateM Stop

namespace Checked

variable {σ τ α β : Type}

/-! ### Partial operations -/

/-- Goes on if a condition holds, with the proof that it does. -/
def require (p : Prop) [Decidable p] : Checked σ (PLift p) :=
  if h : p then pure ⟨h⟩ else throw .breach

/-- A difference that is not below zero. -/
def sub (a b : Nat) : Checked σ Nat := do
  let _ ← require (b ≤ a)
  return a - b

/-- A number that fits a word of some bits. -/
def word (bits n : Nat) : Checked σ Nat := do
  let _ ← require (n < 2 ^ bits)
  return n

/-- A word shifted to the left, by less than its bits. -/
def shiftLeft (bits a k : Nat) : Checked σ Nat := do
  let _ ← require (k < bits)
  return a * 2 ^ k % 2 ^ bits

/-- A word shifted to the right, by less than its bits. -/
def shiftRight (bits a k : Nat) : Checked σ Nat := do
  let _ ← require (k < bits)
  return a / 2 ^ k

/-- An element of a list at a position within. -/
def element {ε : Type} (items : List ε) (i : Nat) : Checked σ ε := do
  let ⟨h⟩ ← require (i < items.length)
  return items[i]

/-- The part of a list between two positions in order and within. -/
def slice {ε : Type} (items : List ε) (first last : Nat) : Checked σ (List ε) := do
  let _ ← require (first ≤ last ∧ last ≤ items.length)
  return (items.take last).drop first

theorem require_of {p : Prop} [Decidable p] (h : p) :
    (require p : Checked σ (PLift p)) = pure ⟨h⟩ := by
  rw [require, dif_pos h]

theorem sub_of {a b : Nat} (h : b ≤ a) : (sub a b : Checked σ Nat) = pure (a - b) := by
  rw [sub, require_of h, pure_bind]

/-- A difference below zero is a breach. -/
example : (sub 1 2 : Checked Unit Nat) () = .error .breach () := rfl

theorem word_of {bits n : Nat} (h : n < 2 ^ bits) : (word bits n : Checked σ Nat) = pure n := by
  rw [word, require_of h, pure_bind]

theorem shiftLeft_of {bits a k : Nat} (h : k < bits) :
    (shiftLeft bits a k : Checked σ Nat) = pure (a * 2 ^ k % 2 ^ bits) := by
  rw [shiftLeft, require_of h, pure_bind]

theorem shiftRight_of {bits a k : Nat} (h : k < bits) :
    (shiftRight bits a k : Checked σ Nat) = pure (a / 2 ^ k) := by
  rw [shiftRight, require_of h, pure_bind]

theorem element_of {ε : Type} {items : List ε} {i : Nat} (h : i < items.length) :
    (element items i : Checked σ ε) = pure items[i] := by
  rw [element, require_of h, pure_bind]

theorem slice_of {ε : Type} {items : List ε} {first last : Nat}
    (h : first ≤ last) (h' : last ≤ items.length) :
    (slice items first last : Checked σ (List ε)) = pure ((items.take last).drop first) := by
  rw [slice, require_of ⟨h, h'⟩, pure_bind]

/-! ### Computations without a breach -/

/-- A result of a checked computation through a view of its state. A breach is
no result. -/
def seen (view : σ → τ) : EStateM.Result Stop σ α → Option (EStateM.Result FormatError τ α)
  | .ok a s => some (.ok a (view s))
  | .error (.error e) s => some (.error e (view s))
  | .error .breach _ => none

/-- From a state, a checked computation meets no breach and comes to what
another one comes to. -/
def CarriesOutAt (view : σ → τ) (s : σ) (x : Checked σ α) (y : EStateM FormatError τ α) : Prop :=
  seen view (x s) = some (y (view s))

/-- From every state, a checked computation meets no breach and comes to what
another one comes to. -/
def CarriesOut (view : σ → τ) (x : Checked σ α) (y : EStateM FormatError τ α) : Prop :=
  ∀ s, CarriesOutAt view s x y

variable {view : σ → τ} {s : σ} {x : Checked σ α} {y : EStateM FormatError τ α}

theorem CarriesOutAt.ok {a : α} {t : τ} (h : CarriesOutAt view s x y) (hy : y (view s) = .ok a t) :
    ∃ s', x s = .ok a s' ∧ view s' = t := by
  unfold CarriesOutAt at h
  rw [hy] at h
  cases hx : x s with
  | ok b s' =>
    obtain ⟨rfl, rfl⟩ : b = a ∧ view s' = t := by simpa [hx, seen] using h
    exact ⟨s', rfl, rfl⟩
  | error e s' => cases e <;> simp [hx, seen] at h

theorem CarriesOutAt.error {e : FormatError} {t : τ} (h : CarriesOutAt view s x y)
    (hy : y (view s) = .error e t) : ∃ s', x s = .error (.error e) s' ∧ view s' = t := by
  unfold CarriesOutAt at h
  rw [hy] at h
  cases hx : x s with
  | ok b s' => simp [hx, seen] at h
  | error e' s' =>
    cases e' with
    | breach => simp [hx, seen] at h
    | error e' =>
      obtain ⟨rfl, rfl⟩ : e' = e ∧ view s' = t := by simpa [hx, seen] using h
      exact ⟨s', rfl, rfl⟩

theorem CarriesOutAt.eq_ok {a : α} {s' : σ} (h : CarriesOutAt view s x y) (hx : x s = .ok a s') :
    y (view s) = .ok a (view s') := by
  unfold CarriesOutAt at h
  rw [hx, seen] at h
  exact (Option.some.inj h).symm

theorem carriesOutAt_of_ok {a : α} {t : σ} (hx : x s = .ok a t)
    (hy : y (view s) = .ok a (view t)) : CarriesOutAt view s x y := by
  rw [CarriesOutAt, hx, hy, seen]

theorem carriesOutAt_of_error {e : FormatError} {t : σ} (hx : x s = .error (.error e) t)
    (hy : y (view s) = .error e (view t)) : CarriesOutAt view s x y := by
  rw [CarriesOutAt, hx, hy, seen]

/-- Steps in a row: what comes second is asked for only at the states that the
first step leads to. -/
theorem CarriesOutAt.bind {k : α → Checked σ β} {l : α → EStateM FormatError τ β}
    (h : CarriesOutAt view s x y)
    (hk : ∀ a s', x s = .ok a s' → CarriesOutAt view s' (k a) (l a)) :
    CarriesOutAt view s (x >>= k) (y >>= l) := by
  cases hy : y (view s) with
  | ok a t =>
    obtain ⟨s', hx, rfl⟩ := h.ok hy
    unfold CarriesOutAt
    rw [Action.bind_ok hx, Action.bind_ok hy]
    exact hk a s' hx
  | error e t =>
    obtain ⟨s', hx, rfl⟩ := h.error hy
    exact carriesOutAt_of_error (Action.bind_error hx) (Action.bind_error hy)

theorem CarriesOut.bind {k : α → Checked σ β} {l : α → EStateM FormatError τ β}
    (h : CarriesOut view x y) (hk : ∀ a, CarriesOut view (k a) (l a)) :
    CarriesOut view (x >>= k) (y >>= l) :=
  fun s => (h s).bind fun a s' _ => hk a s'

/-- What is left, seen through the view, is what the other one leaves. -/
theorem CarriesOut.view_left (h : CarriesOut view x y) (s : σ) :
    view (Action.left (x s)) = Action.left (y (view s)) := by
  cases hy : y (view s) with
  | ok a t =>
    obtain ⟨s', hx, ht⟩ := (h s).ok hy
    rw [hx]
    exact ht
  | error e t =>
    obtain ⟨s', hx, ht⟩ := (h s).error hy
    rw [hx]
    exact ht

theorem CarriesOut.pure (a : α) : CarriesOut view (Pure.pure a) (Pure.pure a) := fun _ => rfl

theorem CarriesOut.throw (e : FormatError) :
    CarriesOut (α := α) view (throw (.error e)) (throw e) := fun _ => rfl

theorem CarriesOut.ite {p : Prop} [Decidable p] {x' : Checked σ α} {y' : EStateM FormatError τ α}
    (h : p → CarriesOut view x y) (h' : ¬p → CarriesOut view x' y') :
    CarriesOut view (if p then x else x') (if p then y else y') := by
  split
  · next hp => exact h hp
  · next hp => exact h' hp

/-- Actions of a list in a row. -/
theorem CarriesOut.forM {ε : Type} {f : ε → Checked σ Unit} {g : ε → EStateM FormatError τ Unit}
    (h : ∀ a, CarriesOut view (f a) (g a)) (l : List ε) :
    CarriesOut view (l.forM f) (l.forM g) := by
  induction l with
  | nil => exact CarriesOut.pure ()
  | cons a rest ih => exact (h a).bind fun _ => ih

end Checked
end PrintFormat
