/-!
Decimal numbers and their nearest binary64 value.
-/

namespace MiniLisp

/-- The number `digits * 10 ^ exponent`. -/
structure Decimal where
  digits : Nat
  exponent : Int
deriving DecidableEq

namespace Decimal

/-- The number of decimal digits; zero has one. -/
def digitCount (n : Nat) : Nat := (Nat.toDigits 10 n).length

/-- The number is below `10 ^ magnitude`, and at least a tenth of it unless it is zero. -/
def magnitude (d : Decimal) : Int := digitCount d.digits + d.exponent

def infinity : Float := Float.ofBits 0x7FF0000000000000

/-- The nearest binary64 value, a tie going to the even one. Every number from `10 ^ 310` on
overflows and every number below `10 ^ -330` vanishes, so neither needs its power of ten. -/
def toFloat (d : Decimal) : Float :=
  if d.digits = 0 then 0
  else if 310 < d.magnitude then infinity
  else if d.magnitude < -330 then 0
  else Float.ofScientific d.digits (decide (d.exponent < 0)) d.exponent.natAbs

end Decimal

end MiniLisp
