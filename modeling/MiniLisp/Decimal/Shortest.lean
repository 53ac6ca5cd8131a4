import MiniLisp.Decimal.Basic

/-!
The fewest decimal digits that read back as a given binary64 value, found by exact arithmetic: for
one digit, two digits and so on, the two neighbours of the value on that decimal grid are tried.
-/

namespace MiniLisp.Decimal

/-- A finite binary64 magnitude, `mantissa * 2 ^ exponent`. -/
structure Binary where
  mantissa : Nat
  exponent : Int
  /-- The neighbour below is half as far away as the neighbour above. -/
  narrowBelow : Bool
deriving DecidableEq

/-- The magnitude that the bits of a finite value stand for. -/
def Binary.ofBits (b : UInt64) : Binary :=
  let e : Nat := b.toNat / Nat.pow 2 52 % Nat.pow 2 11
  let f : Nat := b.toNat % Nat.pow 2 52
  if e = 0 then ⟨f, -1074, false⟩
  else ⟨Nat.pow 2 52 + f, (e : Int) - 1075, decide (f = 0) && decide (1 < e)⟩

/-- Compares `a * 10 ^ i` with `n * 2 ^ j`. -/
def compareScaled (a : Nat) (i : Int) (n : Nat) (j : Int) : Ordering :=
  compare (a * Nat.pow 10 i.toNat * Nat.pow 2 (-j).toNat)
    (n * Nat.pow 2 j.toNat * Nat.pow 10 (-i).toNat)

/-- The decimal lies among the reals that round to `x`: between the midpoints to its neighbours,
the midpoints themselves included when the mantissa is even. -/
def Binary.nearest (x : Binary) (d : Decimal) : Bool :=
  let even := decide (x.mantissa % 2 = 0)
  let low := if x.narrowBelow then 4 * x.mantissa - 1 else 4 * x.mantissa - 2
  let high := 4 * x.mantissa + 2
  let aboveLow := match compareScaled d.digits d.exponent low (x.exponent - 2) with
    | .gt => true
    | .eq => even
    | .lt => false
  let belowHigh := match compareScaled d.digits d.exponent high (x.exponent - 2) with
    | .lt => true
    | .eq => even
    | .gt => false
  aboveLow && belowHigh

/-- The least `k` with `x < 10 ^ k`. The binary logarithm gives it up to two steps. -/
def Binary.magnitude (x : Binary) : Int :=
  let guess := ((x.mantissa.log2 : Int) + x.exponent) * 30103 / 100000
  let above (k : Int) : Bool := compareScaled 1 k x.mantissa x.exponent == .gt
  if above guess then guess else if above (guess + 1) then guess + 1 else guess + 2

/-- The candidate of `n` digits: of the two neighbours of `x` on the grid of the `n`-th digit, the
nearer one that reads back, a tie going to the even one. -/
def Binary.candidate? (x : Binary) (n : Nat) : Option Decimal :=
  let e := x.magnitude - n
  let num := x.mantissa * Nat.pow 2 x.exponent.toNat * Nat.pow 10 (-e).toNat
  let den := Nat.pow 2 (-x.exponent).toNat * Nat.pow 10 e.toNat
  let low : Decimal := ⟨num / den, e⟩
  let high : Decimal := ⟨num / den + 1, e⟩
  match x.nearest low, x.nearest high with
  | false, false => none
  | true, false => some low
  | false, true => some high
  | true, true => match compare (2 * num) ((2 * low.digits + 1) * den) with
    | .lt => some low
    | .gt => some high
    | .eq => if low.digits % 2 = 0 then some low else some high

def Binary.exact (x : Binary) : Decimal :=
  ⟨x.mantissa * Nat.pow 2 x.exponent.toNat * Nat.pow 5 (-x.exponent).toNat,
    -((-x.exponent).toNat : Int)⟩

/-- The shortest decimal that reads back as a non-zero `x`. Seventeen digits suffice; the exact
value stands behind them. -/
def Binary.shortest (x : Binary) : Decimal :=
  ((List.range 17).findSome? fun n => x.candidate? (n + 1)).getD x.exact

end MiniLisp.Decimal
