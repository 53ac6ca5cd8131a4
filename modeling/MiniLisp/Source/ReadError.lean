import MiniLisp.Text.Quoted
import MiniLisp.Value.Printer

/-!
What can be wrong with source text.
-/

namespace MiniLisp

inductive ReadError where
  /-- A string literal that opens at this position never closes. -/
  | unclosedString (position : Nat)
  | endOfInput
  | missingForm (mark : String)
  /-- A form follows a quote mark that abbreviates nothing. -/
  | unknownMark (mark : String)
  | unclosedList
  | strayClose
  | unknownToken (kind text : String)
  | unknownEscape (letter : Char) (literal : String)
  /-- One form was asked for, and another number stands there. -/
  | formCount (found : Nat)
  | longInteger (digits : Nat)
deriving DecidableEq

def ReadError.message : ReadError → String
  | .unclosedString position => s!"Unexpected char at {position}: '\"'"
  | .endOfInput => "Unexpected end of input"
  | .missingForm mark => "Expected a form after " ++ Text.quoted mark
  | .unknownMark mark => Text.quoted mark
  | .unclosedList => "Unmatched '('"
  | .strayClose => "Unexpected ')'"
  | .unknownToken kind text => s!"Unknown token: {kind} {text}"
  | .unknownEscape letter literal =>
      "Unknown escape \\" ++ String.singleton letter ++ " in string literal " ++ literal
  | .formCount found => s!"Expected exactly one form, found {found}"
  | .longInteger digits =>
      s!"Exceeds the limit ({maxIntegerDigits} digits) for integer string conversion: " ++
        s!"value has {digits} digits; use sys.set_int_max_str_digits() to increase the limit"

end MiniLisp
