import MiniLisp.Error

/-!
Arithmetic and comparison. The first argument fixes whether a call is about integers or floats, and
the two are never mixed.
-/

namespace MiniLisp

inductive Numbers where
  | ints (ns : List Int)
  | floats (xs : List Float)

def allInts : List Value → Except Error (List Int)
  | [] => .ok []
  | .int n :: rest => (allInts rest).map (n :: ·)
  | v :: _ => fail (.typeMismatch (some .number) v)

def allFloats : List Value → Except Error (List Float)
  | [] => .ok []
  | .float x :: rest => (allFloats rest).map (x :: ·)
  | v :: _ => fail (.typeMismatch (some .float) v)

/-- The numbers of an argument list, which counts as integers when it is empty. -/
def numbers : List Value → Except Error Numbers
  | [] => .ok (.ints [])
  | .int n :: rest => (allInts rest).map fun ns => .ints (n :: ns)
  | .float x :: rest => (allFloats rest).map fun xs => .floats (x :: xs)
  | v :: _ => fail (.typeMismatch (some .float) v)

def sum : Numbers → Value
  | .ints ns => .int (ns.foldl (· + ·) 0)
  | .floats xs => .float (xs.foldl (· + ·) 0.0)

def product : Numbers → Value
  | .ints ns => .int (ns.foldl (· * ·) 1)
  | .floats xs => .float (xs.foldl (· * ·) 1.0)

/-- One number is negated; of more, all others are taken from the first. -/
def difference : Numbers → Value
  | .ints [] => .int 0
  | .ints [n] => .int (-n)
  | .ints (n :: ns) => .int (ns.foldl (· - ·) n)
  | .floats [] => .float 0.0
  | .floats [x] => .float (-x)
  | .floats (x :: xs) => .float (xs.foldl (· - ·) x)

/-- Divides by each number in turn, rounding down. -/
def divideInts (n : Int) : List Int → Except Error Int
  | [] => .ok n
  | d :: ds => if d = 0 then fail .divisionByZero else divideInts (n.fdiv d) ds

/-- Divides by each number in turn. Both zeros are refused. -/
def divideFloats (x : Float) : List Float → Except Error Float
  | [] => .ok x
  | d :: ds => if d == 0.0 then fail .divisionByZero else divideFloats (x / d) ds

def quotient : Numbers → Except Error Value
  | .ints [] => .ok (.int 0)
  | .ints (n :: ns) => (divideInts n ns).map .int
  | .floats [] => .ok (.float 0.0)
  | .floats (x :: xs) => (divideFloats x xs).map .float

/-- The relation holds between each item and the next. -/
def adjacent {α : Type} (r : α → α → Bool) : List α → Bool
  | [] => true
  | [_] => true
  | a :: b :: rest => r a b && adjacent r (b :: rest)

structure Comparison where
  ints : Int → Int → Bool
  floats : Float → Float → Bool

namespace Comparison

def equal : Comparison := ⟨fun a b => decide (a = b), fun a b => a == b⟩

def less : Comparison := ⟨fun a b => decide (a < b), fun a b => decide (a < b)⟩

def lessEq : Comparison := ⟨fun a b => decide (a ≤ b), fun a b => decide (a ≤ b)⟩

def greater : Comparison := ⟨fun a b => decide (b < a), fun a b => decide (b < a)⟩

def greaterEq : Comparison := ⟨fun a b => decide (b ≤ a), fun a b => decide (b ≤ a)⟩

def holds (c : Comparison) : Numbers → Bool
  | .ints ns => adjacent c.ints ns
  | .floats xs => adjacent c.floats xs

end Comparison

end MiniLisp
