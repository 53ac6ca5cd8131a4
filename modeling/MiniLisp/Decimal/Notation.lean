import MiniLisp.Decimal.Shortest

/-!
How a binary64 value is written: its shortest digits, positionally in a middle range and with an
exponent outside it.
-/

namespace MiniLisp.Decimal

structure Layout where
  /-- Exponents of the leading digit from here on are written positionally. -/
  plainFrom : Int
  /-- Exponents of the leading digit from here on are written with an exponent again. -/
  plainBelow : Int
  /-- Least number of digits of a written exponent. -/
  exponentWidth : Nat
  notANumber : String
  infinite : String

/-- The significant digits of a decimal, without zeros at the end. -/
def significant (d : Decimal) : List Char :=
  ((Nat.toDigits 10 d.digits).reverse.dropWhile (· = '0')).reverse

/-- A signed exponent of at least `width` digits. -/
def exponentText (width : Nat) (e : Int) : List Char :=
  let digits := Nat.toDigits 10 e.natAbs
  (if e < 0 then '-' else '+') :: (List.replicate (width - digits.length) '0' ++ digits)

/-- Writes digits whose decimal point stands `point` places after the first digit's left edge. -/
def Layout.write (l : Layout) (digits : List Char) (point : Int) : List Char :=
  let e := point - 1
  if l.plainFrom ≤ e ∧ e < l.plainBelow then
    if point ≤ 0 then '0' :: '.' :: (List.replicate point.natAbs '0' ++ digits)
    else if digits.length ≤ point.toNat then
      digits ++ List.replicate (point.toNat - digits.length) '0' ++ ['.', '0']
    else digits.take point.toNat ++ '.' :: digits.drop point.toNat
  else
    let mantissa := match digits with
      | [d] => [d]
      | d :: ds => d :: '.' :: ds
      | [] => []
    mantissa ++ 'e' :: exponentText l.exponentWidth e

def Layout.magnitudeText (l : Layout) (x : Binary) : List Char :=
  if x.mantissa = 0 then ['0', '.', '0']
  else
    let d := x.shortest
    l.write (significant d) d.magnitude

/-- The text of a binary64 value; a zero keeps its sign, a NaN has none. -/
def Layout.text (l : Layout) (x : Float) : List Char :=
  let b := x.toBits
  let sign := if b.toNat < Nat.pow 2 63 then [] else ['-']
  if (b.toNat / Nat.pow 2 52) % Nat.pow 2 11 = 2047 then
    if b.toNat % Nat.pow 2 52 = 0 then sign ++ l.infinite.toList else l.notANumber.toList
  else sign ++ l.magnitudeText (Binary.ofBits b)

end MiniLisp.Decimal
