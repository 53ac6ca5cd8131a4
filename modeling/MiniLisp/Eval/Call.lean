import MiniLisp.World

/-!
Parameters. One rule serves procedure calls, where the arguments are values, and macro calls, where
they are forms.
-/

namespace MiniLisp

abbrev Evaluator := Value → FrameId → Eval Value

/-- Pairs parameter names with arguments; of a name that comes twice the last argument counts. -/
def bindNames : List (String × Value) → List Value → List Value → Except Error (List (String × Value))
  | bound, p :: ps, a :: as => match p.expectSymbol with
    | .ok name => bindNames (setBinding name a bound) ps as
    | .error e => .error e
  | bound, _, _ => .ok bound

/-- The bindings of a call: a list of symbols, as many as there are arguments. -/
def bindParams (params : Value) (args : List Value) : Except Error (List (String × Value)) :=
  match params.expectList with
  | .error e => .error e
  | .ok ps =>
      if ps.length = args.length then bindNames [] ps args
      else fail (.arity (.arguments ps.length args.length))

/-- Opens the frame of a call inside `outer`. -/
def enter (params : Value) (args : List Value) (outer : FrameId) : Eval FrameId := do
  let bindings ← Eval.lift (bindParams params args)
  Eval.newFrame ⟨bindings, .child outer⟩

end MiniLisp
