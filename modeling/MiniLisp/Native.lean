/-!
The built-in procedures. A primitive is a function of its argument values; a console operation
receives its argument forms and talks to the console.
-/

namespace MiniLisp

inductive Primitive where
  | add
  | sub
  | mul
  | div
  | equal
  | less
  | lessEq
  | greater
  | greaterEq
  | conj
  | disj
  | negate
  | list
  | car
  | cdr
  | cons
  | isEmpty
deriving DecidableEq, Repr

def Primitive.name : Primitive → String
  | .add => "+"
  | .sub => "-"
  | .mul => "*"
  | .div => "/"
  | .equal => "="
  | .less => "<"
  | .lessEq => "<="
  | .greater => ">"
  | .greaterEq => ">="
  | .conj => "and"
  | .disj => "or"
  | .negate => "not"
  | .list => "list"
  | .car => "car"
  | .cdr => "cdr"
  | .cons => "cons"
  | .isEmpty => "empty?"

/-- Every primitive, in the order in which they are bound. -/
def Primitive.all : List Primitive :=
  [.add, .sub, .mul, .div, .equal, .less, .lessEq, .greater, .greaterEq, .conj, .disj, .negate,
    .list, .car, .cdr, .cons, .isEmpty]

inductive ConsoleOp where
  | print
  | printLine
  | debug
  | readLine
  | time
deriving DecidableEq, Repr

def ConsoleOp.name : ConsoleOp → String
  | .print => "print"
  | .printLine => "println"
  | .debug => "dbg"
  | .readLine => "readline"
  | .time => "time"

/-- Every console operation, in the order in which they are bound. -/
def ConsoleOp.all : List ConsoleOp := [.print, .printLine, .debug, .readLine, .time]

inductive Native where
  | primitive (p : Primitive)
  | console (op : ConsoleOp)
deriving DecidableEq, Repr

namespace Native

def name : Native → String
  | .primitive p => p.name
  | .console op => op.name

/-- Every built-in procedure, primitives first. -/
def all : List Native := Primitive.all.map .primitive ++ ConsoleOp.all.map .console

def ofName? (name : String) : Option Native := all.find? fun n => n.name = name

theorem ofName?_name (n : Native) : ofName? n.name = some n := by
  cases n with
  | primitive p => cases p <;> decide
  | console op => cases op <;> decide

end Native

end MiniLisp
