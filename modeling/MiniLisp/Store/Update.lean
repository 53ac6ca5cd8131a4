import MiniLisp.Store.Basic

/-!
Many definitions at once. The pairs are gathered by key first; then they are defined one by one, and
the first key that is no symbol stops the rest.
-/

namespace MiniLisp

namespace Store

/-- Keys are symbols or strings, compared by kind and text. -/
def sameKey : Value → Value → Bool
  | .sym a, .sym b => a = b
  | .str a, .str b => a = b
  | _, _ => false

/-- Sets a key in place, or at the end when it is new. -/
def setPair (key v : Value) : List (Value × Value) → List (Value × Value)
  | [] => [(key, v)]
  | (k, w) :: rest => if sameKey k key then (k, v) :: rest else (k, w) :: setPair key v rest

/-- Every key once, at its first place and with its last value. -/
def gather (pairs : List (Value × Value)) : List (Value × Value) :=
  pairs.foldl (fun acc p => setPair p.1 p.2 acc) []

def bindEach (s : Store) (id : FrameId) : List (Value × Value) → Except Error Unit × Store
  | [] => (.ok (), s)
  | (key, v) :: rest => match s.bind id key v with
    | .ok s' => s'.bindEach id rest
    | .error e => (.error e, s)

def update (s : Store) (id : FrameId) (pairs : List (Value × Value)) : Except Error Unit × Store :=
  s.bindEach id (gather pairs)

end Store

end MiniLisp
