import MiniLisp.Store.Basic

/-!
Templates. A template stands for a copy of itself in which `(unquote x)` is replaced by the value of
`x`, and `(splice-unquote xs)` by the items of `xs`. Names are looked up and nothing is evaluated;
substituted values are not looked at again.
-/

namespace MiniLisp

inductive Mark where
  | unquote
  | splice
deriving DecidableEq

namespace Mark

def name : Mark → String
  | .unquote => "unquote"
  | .splice => "splice-unquote"

def ofName? (name : String) : Option Mark :=
  if name = Mark.unquote.name then some .unquote
  else if name = Mark.splice.name then some .splice
  else none

/-- The mark and the name of a list that starts with both. Nothing may follow them. -/
def ofItems : List Value → Except Error (Option (Mark × String))
  | .sym head :: .sym name :: rest => match ofName? head with
    | none => .ok none
    | some mark => if rest.isEmpty then .ok (some (mark, name)) else fail (.arity (.mark mark.name))
  | _ => .ok none

end Mark

namespace Template

/-- The value of an unquoted name, anywhere in the chain; an unbound one stays as it stands. -/
def unquoted (s : Store) (env : FrameId) (name : String) (items : List Value) : Value :=
  (s.lookup? env name).getD (.list items)

/-- The items of a spliced name, which the frame itself has to bind; a value that is no list has
none. -/
def spliced (s : Store) (env : FrameId) (name : String) : Except Error (List Value) :=
  match s.local? env name with
  | some (.list items) => .ok items
  | some _ => .ok []
  | none => fail (.unbound name)

mutual

def element (s : Store) (env : FrameId) : Value → Except Error (List Value)
  | .list items => match Mark.ofItems items with
    | .error e => .error e
    | .ok (some (.unquote, name)) => .ok [unquoted s env name items]
    | .ok (some (.splice, name)) => spliced s env name
    | .ok none => (elements s env items).map fun vs => [.list vs]
  | v => .ok [v]

/-- What several elements contribute. They are visited from the last to the first. -/
def elements (s : Store) (env : FrameId) : List Value → Except Error (List Value)
  | [] => .ok []
  | v :: vs => match elements s env vs with
    | .error e => .error e
    | .ok rest => (element s env v).map (· ++ rest)

end

/-- The copy that a whole template stands for. -/
def expand (s : Store) (env : FrameId) : Value → Except Error Value
  | .list items => match Mark.ofItems items with
    | .error e => .error e
    | .ok (some (.unquote, name)) => .ok (unquoted s env name items)
    | .ok (some (.splice, name)) => (spliced s env name).map .list
    | .ok none => (elements s env items).map .list
  | v => .ok v

end Template

end MiniLisp
