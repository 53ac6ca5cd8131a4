import MiniLisp.Eval.Console
import MiniLisp.Eval.Expansion
import MiniLisp.Eval.Quasiquote
import MiniLisp.Primitive.Apply

/-!
The evaluator. Each form has a rule of its own that is given the evaluator of subforms; `eval` ties
them together by recursion on fuel, one unit for each level of nesting. Macro calls are expanded
before evaluation and are no forms here.
-/

namespace MiniLisp

/-- `(def name form)` binds a name in the current frame and gives the name. -/
def evalDefine (ev : Evaluator) (env : FrameId) : List Value → Eval Value
  | [target, form] => do
      let name ← Eval.lift target.expectSymbol
      let v ← ev form env
      Eval.define env name v
      return .sym name
  | _ => Eval.raise (.arity (.exactly "def" 2))

/-- `(if test yes no)`, where the test has to give a truth value. -/
def evalBranch (ev : Evaluator) (env : FrameId) : List Value → Eval Value
  | [test, yes, no] => do
      let b ← Eval.lift (← ev test env).expectBool
      if b then ev yes env else ev no env
  | _ => Eval.raise (.arity .branches)

/-- `(fn params body)` and `(macro params body)`. Only lexical scoping keeps the current frame. -/
def evalProcedure (kind : ProcKind) (env : FrameId) : List Value → Eval Value
  | [params, body] => do
      let s ← Eval.store
      let captured := match (s.config env).scoping with
        | .lexical => some env
        | .dynamic => none
      return .proc kind params body captured
  | _ => Eval.raise (.arity (.procedure kind))

/-- Evaluates and binds names and values in turn, so that a value can use the names before it. -/
def bindPairs (ev : Evaluator) (env : FrameId) : List Value → Eval Unit
  | target :: form :: rest => do
      let name ← Eval.lift target.expectSymbol
      let v ← ev form env
      Eval.define env name v
      bindPairs ev env rest
  | _ => return ()

/-- `(let (name form ...) body)` works in a frame of its own. -/
def evalLet (ev : Evaluator) (env : FrameId) : List Value → Eval Value
  | [bindings, body] => do
      let pairs ← Eval.lift bindings.expectList
      if pairs.length % 2 = 0 then
        let inner ← Eval.newChild env
        bindPairs ev inner pairs
        ev body inner
      else Eval.raise (.arity .letPairs)
  | _ => Eval.raise (.arity .letShape)

def evalLast (ev : Evaluator) (env : FrameId) : Value → List Value → Eval Value
  | form, [] => ev form env
  | form, next :: rest => do
      let _ ← ev form env
      evalLast ev env next rest

/-- `(do form ...)` works in a frame of its own. -/
def evalSequence (ev : Evaluator) (env : FrameId) : List Value → Eval Value
  | [] => Eval.raise (.arity .emptyBody)
  | form :: rest => do
      let inner ← Eval.newChild env
      evalLast ev inner form rest

def dataOperand (form : String) : List Value → Eval Value
  | [v] => return v
  | _ => Eval.raise (.arity (.operand form))

/-- The rule of each special form. `fuel` is for the expansion that a form may ask for. -/
def evalForm (ev : Evaluator) (fuel : Nat) (form : SpecialForm) (args : List Value)
    (env : FrameId) : Eval Value :=
  match form with
  | .define => evalDefine ev env args
  | .branch => evalBranch ev env args
  | .procedure kind => evalProcedure kind env args
  | .letIn => evalLet ev env args
  | .sequence => evalSequence ev env args
  | .quote => dataOperand "quote" args
  | .quasiquote => do
      let template ← dataOperand "quasiquote" args
      let s ← Eval.store
      Eval.lift (Template.expand s env template)
  | .expandOnce => do
      let form ← dataOperand "m-expand1" args
      expandOnce ev form env
  | .expandAll => do
      let form ← dataOperand "m-expand" args
      expandAll ev fuel form env

/-- Applies a value to argument forms: natives see the forms or their values, and a procedure the
values. Nothing else can be applied; `form` is the list that tried to. -/
def apply (ev : Evaluator) (f : Value) (args : List Value) (env : FrameId) (form : List Value) :
    Eval Value :=
  match f with
  | .native (.primitive p) => do
      let vs ← Eval.each (fun x => ev x env) args
      Eval.lift (p.apply vs)
  | .native (.console op) => op.run ev args env
  | .proc .lambda params body captured => do
      let vs ← Eval.each (fun x => ev x env) args
      let frame ← enter params vs (captured.getD env)
      ev body frame
  | _ => Eval.raise (.malformedList form)

def evalStep (ev : Evaluator) (fuel : Nat) (expr : Value) (env : FrameId) : Eval Value :=
  match expr with
  | .sym name => do
      let s ← Eval.store
      Eval.lift (s.lookup env name)
  | .list [] => Eval.raise (.malformedList [])
  | .list (head :: args) => match SpecialForm.ofHead? head with
    | some form => evalForm ev fuel form args env
    | none => do
        let f ← ev head env
        apply ev f args env (head :: args)
  | .foreign => Eval.raise (.typeMismatch none .foreign)
  | v => return v

/-- Evaluates an expression in a frame, nesting at most as deep as the fuel allows. -/
def eval : Nat → Value → FrameId → Eval Value
  | 0, _, _ => Eval.stop .outOfFuel
  | fuel + 1, expr, env => evalStep (eval fuel) fuel expr env

end MiniLisp
