import MiniLisp.Primitive.Numeric

/-!
The primitives as functions of their argument values.
-/

namespace MiniLisp

def allBools : List Value → Except Error (List Bool)
  | [] => .ok []
  | v :: rest => do
      let b ← v.expectBool
      let bs ← allBools rest
      return b :: bs

def single (operator : String) : List Value → Except Error Value
  | [v] => .ok v
  | _ => fail (.arity (.exactly operator 1))

/-- The first item and the rest of the list that is the only argument. -/
def uncons (operator : String) (args : List Value) : Except Error (Value × List Value) := do
  let v ← single operator args
  match ← v.expectList with
  | [] => fail (.arity (.emptyList operator))
  | first :: rest => return (first, rest)

def someNumbers (operator : String) (args : List Value) : Except Error Numbers :=
  if args.isEmpty then fail (.arity (.atLeastOne operator)) else numbers args

def compareWith (c : Comparison) (args : List Value) : Except Error Value :=
  (numbers args).map fun ns => .bool (c.holds ns)

def consValue : List Value → Except Error Value
  | [first, rest] => rest.expectList.map fun items => .list (first :: items)
  | _ => fail (.arity (.exactly "cons" 2))

/-- Only `false` is negated to `true`; every other value, of whatever kind, gives `false`. -/
def isFalse : Value → Bool
  | .bool b => !b
  | _ => false

def Primitive.apply : Primitive → List Value → Except Error Value
  | .add, args => (numbers args).map sum
  | .sub, args => (someNumbers "-" args).map difference
  | .mul, args => (numbers args).map product
  | .div, args => do quotient (← someNumbers "/" args)
  | .equal, args => compareWith .equal args
  | .less, args => compareWith .less args
  | .lessEq, args => compareWith .lessEq args
  | .greater, args => compareWith .greater args
  | .greaterEq, args => compareWith .greaterEq args
  | .conj, args => (allBools args).map fun bs => .bool (bs.all id)
  | .disj, args => (allBools args).map fun bs => .bool (bs.any id)
  | .negate, args => (single "not" args).map fun v => .bool (isFalse v)
  | .list, args => .ok (.list args)
  | .car, args => (uncons "car" args).map fun p => p.1
  | .cdr, args => (uncons "cdr" args).map fun p => .list p.2
  | .cons, args => consValue args
  | .isEmpty, args => do
      let items ← (← single "empty?" args).expectList
      return .bool items.isEmpty

end MiniLisp
