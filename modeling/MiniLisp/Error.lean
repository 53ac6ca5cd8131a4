import MiniLisp.Source.ReadError

/-!
Why an evaluation fails. An error keeps the values it is about, and its message prints them; an
error about a value that cannot be printed gives way to `integerText`.
-/

namespace MiniLisp

/-- A wrong number of operands, or operands of the wrong shape. -/
inductive ArityFault where
  /-- A call with another number of arguments than parameters. -/
  | arguments (expected got : Nat)
  | exactly (operator : String) (count : Nat)
  | atLeastOne (operator : String)
  | atMostOne (operator : String)
  /-- A form that has one operand. -/
  | operand (form : String)
  /-- An unquote mark that is not followed by one symbol. -/
  | mark (name : String)
  | branches
  | procedure (kind : ProcKind)
  | letShape
  | letPairs
  | emptyBody
  | emptyList (operator : String)
  | noForms
deriving DecidableEq

def ArityFault.message : ArityFault → String
  | .arguments expected got => s!"Expected {expected} argument(s), got {got}"
  | .exactly operator 1 => s!"{operator} requires exactly 1 argument"
  | .exactly operator count => s!"{operator} requires exactly {count} arguments"
  | .atLeastOne operator => s!"{operator} requires at least 1 argument"
  | .atMostOne operator => s!"{operator} takes at most 1 argument"
  | .operand form => s!"{form} expects exactly 1 argument"
  | .mark name => s!"{name} takes exactly one symbol"
  | .branches => "if requires a test, a consequent and an alternative"
  | .procedure kind => s!"{kind.label} requires exactly a parameter list and a body"
  | .letShape => "let requires exactly a binding list and a body"
  | .letPairs => "let bindings must be symbol/value pairs"
  | .emptyBody => "do requires at least one form"
  | .emptyList operator => s!"{operator} of an empty list"
  | .noForms => "evaluate_sequence requires at least one form"

inductive Error where
  /-- A value of another kind was needed; without a kind, any value of the language. -/
  | typeMismatch (expected : Option Kind) (got : Value)
  | unbound (name : String)
  | malformedList (items : List Value)
  | arity (fault : ArityFault)
  /-- The form at one position was replaced more often than allowed. -/
  | expansionLimit (form : Value) (limit : Nat)
  | divisionByZero
  | read (error : ReadError)
  /-- An integer of too many digits would have to be printed. -/
  | integerText

namespace Error

def message : Error → String
  | .typeMismatch expected got =>
      let wanted := match expected with
        | some kind => kind.name
        | none => "a Sable value"
      s!"Type Mismatch, expected: {wanted}, got: {got.text}"
  | .unbound name => "Could not find symbol " ++ Text.quoted name ++ " in environment"
  | .malformedList items => s!"Could not eval list '{(Value.list items).text}' in environment"
  | .arity fault => fault.message
  | .expansionLimit form limit =>
      s!"Macro expansion exceeded depth {limit} while expanding {form.text}"
  | .divisionByZero => "Division by zero"
  | .read error => error.message
  | .integerText =>
      s!"Exceeds the limit ({maxIntegerDigits} digits) for integer string conversion; " ++
        "use sys.set_int_max_str_digits() to increase the limit"

def printable : Error → Bool
  | .typeMismatch _ got => got.printable
  | .malformedList items => Value.allPrintable items
  | .expansionLimit form _ => form.printable
  | _ => true

/-- The error that is reported: the error itself when its message can be printed. -/
def reported (e : Error) : Error := if e.printable then e else .integerText

/-- Errors of the program, as against those of the host: the limit on integer text, and the failed
search for the name of a mark that abbreviates nothing. -/
def isLanguage : Error → Bool
  | .integerText => false
  | .read (.longInteger _) => false
  | .read (.unknownMark _) => false
  | _ => true

end Error

def fail {α : Type} (e : Error) : Except Error α := .error e.reported

namespace Value

def print (v : Value) : Except Error String :=
  if v.printable then .ok v.text else .error .integerText

def printRaw (v : Value) : Except Error String :=
  if v.printable then .ok v.rawText else .error .integerText

def printInspected (v : Value) : Except Error String :=
  if v.printable then .ok v.inspect else .error .integerText

def kind (v : Value) : Except Error Kind :=
  match v.kind? with
  | some k => .ok k
  | none => fail (.typeMismatch none v)

def expect (expected : Kind) (v : Value) : Except Error Value :=
  if v.kind? = some expected then .ok v else fail (.typeMismatch (some expected) v)

def expectList : Value → Except Error (List Value)
  | .list items => .ok items
  | v => fail (.typeMismatch (some .list) v)

def expectSymbol : Value → Except Error String
  | .sym name => .ok name
  | v => fail (.typeMismatch (some .symbol) v)

def expectBool : Value → Except Error Bool
  | .bool b => .ok b
  | v => fail (.typeMismatch (some .bool) v)

def expectString : Value → Except Error String
  | .str s => .ok s
  | v => fail (.typeMismatch (some .string) v)

end Value

end MiniLisp
