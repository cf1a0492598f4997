import PrintFormat.Binary64

/-!
The shortest decimal that reads back. The decimal grids are tried from the
coarsest on; the first with a point that rounds to the number wins, of its two
points next to the number the nearer, and of two equally near the even one.
-/
namespace PrintFormat.Binary64

/-- Whether a ratio rounds to a positive finite number: it lies between the
midpoints to the neighbours, ends included if the significand is even. Below a
power of two the neighbour is half as far. -/
def roundsHere (v : Binary64) (num den : Nat) : Bool :=
  let m := v.significand
  let lower := if m = implicitBit ∧ 1 < v.exponentField then 4 * m - 1 else 4 * m - 2
  let (ln, ld) := dyadic lower (v.exponent - 2)
  let (un, ud) := dyadic (4 * m + 2) (v.exponent - 2)
  if m % 2 = 0 then ln * den ≤ num * ld && num * ud ≤ un * den
  else ln * den < num * ld && num * ud < un * den

/-- A count of steps of the grid of a power of ten, as a ratio. -/
def onGrid (count : Nat) (grid : Int) : Nat × Nat :=
  if 0 ≤ grid then (count * Nat.pow 10 grid.toNat, 1) else (count, Nat.pow 10 (-grid).toNat)

/-- The grid's point that rounds to the number, if one does. -/
def pointOn (v : Binary64) (grid : Int) : Option Nat :=
  let (num, den) := v.ratio
  let (n, d) :=
    if 0 ≤ grid then (num, den * Nat.pow 10 grid.toNat)
    else (num * Nat.pow 10 (-grid).toNat, den)
  let below := n / d
  let rest := 2 * (n % d)
  let nearerBelow := rest < d || (rest == d && below % 2 == 0)
  let rounds (count : Nat) : Bool :=
    let (a, b) := onGrid count grid
    v.roundsHere a b
  match rounds below, rounds (below + 1) with
  | true, true => some (if nearerBelow then below else below + 1)
  | true, false => some below
  | false, true => some (below + 1)
  | false, false => none

/-- The first grid from a given one downwards with a point for the number. -/
def firstGrid (v : Binary64) : Nat → Int → Nat × Int
  | 0, grid => (0, grid)
  | fuel + 1, grid =>
      match v.pointOn grid with
      | some count => (count, grid)
      | none => v.firstGrid fuel (grid - 1)

/-- The shortest decimal of a positive finite number: a count and the power of
ten that it counts. Grids finer than the 324th are never needed. -/
def shortest (v : Binary64) : Nat × Int :=
  let (num, den) := v.ratio
  let coarsest : Nat := (num / den).log2 * 31 / 100 + 2
  v.firstGrid (coarsest + 325) coarsest

end PrintFormat.Binary64
