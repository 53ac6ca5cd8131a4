import MiniLisp.Native

/-!
Values. Code and data are the same trees: numbers, strings, symbols and lists as they are read,
and the procedures that evaluation adds.
-/

namespace MiniLisp

/-- Frames are named by their number in the store. -/
abbrev FrameId := Nat

inductive ProcKind where
  | lambda
  | macroProc
deriving DecidableEq, Repr

/-- The word that builds a procedure of this kind. -/
def ProcKind.label : ProcKind → String
  | .lambda => "fn"
  | .macroProc => "macro"

/-- A tree of code or data. A procedure keeps its parameter list and body as they stand in the
source, and the frame it was made in when it captured one. `foreign` is a value of the host that no
program can name. -/
inductive Value where
  | int (n : Int)
  | float (x : Float)
  | bool (b : Bool)
  | str (s : String)
  | sym (name : String)
  | list (items : List Value)
  | native (p : Native)
  | proc (kind : ProcKind) (params body : Value) (env : Option FrameId)
  | foreign
deriving Inhabited

inductive Kind where
  | symbol
  | number
  | float
  | bool
  | string
  | list
  | procedure
  | lambda
  | macroProc
deriving DecidableEq, Repr

namespace Kind

def name : Kind → String
  | .symbol => "SYMBOL"
  | .number => "NUMBER"
  | .float => "FLOAT"
  | .bool => "BOOL"
  | .string => "STRING"
  | .list => "LIST"
  | .procedure => "PROCEDURE"
  | .lambda => "LAMBDA"
  | .macroProc => "MACRO"

def all : List Kind :=
  [.symbol, .number, .float, .bool, .string, .list, .procedure, .lambda, .macroProc]

def ofName? (name : String) : Option Kind := all.find? fun k => k.name = name

theorem ofName?_name (k : Kind) : ofName? k.name = some k := by
  cases k <;> decide

end Kind

namespace Value

/-- The kind of a value; a foreign one has none. -/
def kind? : Value → Option Kind
  | .int _ => some .number
  | .float _ => some .float
  | .bool _ => some .bool
  | .str _ => some .string
  | .sym _ => some .symbol
  | .list _ => some .list
  | .native _ => some .procedure
  | .proc .lambda _ _ _ => some .lambda
  | .proc .macroProc _ _ _ => some .macroProc
  | .foreign => none

theorem kind?_eq_none_iff (v : Value) : v.kind? = none ↔ v = .foreign := by
  cases v with
  | proc kind params body env => cases kind <;> simp [kind?]
  | _ => simp [kind?]

end Value

end MiniLisp
