import MiniLisp.Source.ReadError
import MiniLisp.Text.DecimalDigit

/-!
What a word stands for: a truth value, an integer, a decimal number, or else a symbol. Digits of
all scripts count.
-/

namespace MiniLisp

open Text (isDigit valueOfDigits)

/-- Splits off a sign; the first part says whether it is a minus. -/
def splitSign : List Char → Bool × List Char
  | [] => (false, [])
  | c :: cs => if c = '-' then (true, cs) else if c = '+' then (false, cs) else (false, c :: cs)

def isDigits (cs : List Char) : Bool := !cs.isEmpty && cs.all isDigit

def signedValue (negative : Bool) (digits : List Char) : Int :=
  if negative then -(valueOfDigits digits : Int) else valueOfDigits digits

/-- The integer of an exponent: digits that a sign may precede. -/
def exponent? (cs : List Char) : Option Int :=
  let (negative, digits) := splitSign cs
  if isDigits digits then some (signedValue negative digits) else none

def isExponentMark (c : Char) : Bool := c = 'e' || c = 'E'

/-- The number of the digits before and after a point, scaled by an exponent. -/
def decimalOf (whole fraction : List Char) (exponent : Int) : Decimal :=
  ⟨valueOfDigits (whole ++ fraction), exponent - fraction.length⟩

/-- A decimal number without its sign: it has a point or an exponent or both, and digits before the
point, or after it when there is no exponent. -/
def unsignedDecimal? (cs : List Char) : Option Decimal :=
  let whole := cs.takeWhile isDigit
  match cs.dropWhile isDigit with
  | [] => none
  | c :: rest =>
      if c = '.' then
        let fraction := rest.takeWhile isDigit
        match rest.dropWhile isDigit with
        | [] => if whole.isEmpty && fraction.isEmpty then none else some (decimalOf whole fraction 0)
        | mark :: tail =>
            if isExponentMark mark && !whole.isEmpty then
              (exponent? tail).map (decimalOf whole fraction)
            else none
      else if isExponentMark c && !whole.isEmpty then (exponent? rest).map (decimalOf whole [])
      else none

def decimalFloat? (cs : List Char) : Option Float :=
  let (negative, digits) := splitSign cs
  (unsignedDecimal? digits).map fun d => if negative then -d.toFloat else d.toFloat

/-- The value of a word. An integer literal may have 4300 digits, zeros in front counted. -/
def atomOfChars (cs : List Char) : Except ReadError Value :=
  if cs = boolChars true then .ok (.bool true)
  else if cs = boolChars false then .ok (.bool false)
  else
    let (negative, digits) := splitSign cs
    if isDigits digits then
      if digits.length ≤ maxIntegerDigits then .ok (.int (signedValue negative digits))
      else .error (.longInteger digits.length)
    else match decimalFloat? cs with
      | some x => .ok (.float x)
      | none => .ok (.sym (String.ofList cs))

def parseAtom (word : String) : Except ReadError Value := atomOfChars word.toList

end MiniLisp
