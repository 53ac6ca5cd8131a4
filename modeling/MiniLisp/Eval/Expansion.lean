import MiniLisp.Eval.Call
import MiniLisp.Eval.Form

/-!
Macro expansion. A list whose head names a macro is a macro call; the macro's body, evaluated with
the argument forms bound to its parameters, gives the form that takes its place. Full expansion
settles a position first and then goes on to the code below it. How bodies are evaluated is an
argument.
-/

namespace MiniLisp

/-- The parameters and the body of a macro, and the frame that it captured. -/
structure Macro where
  params : Value
  body : Value
  env : Option FrameId

namespace Macro

def toValue (m : Macro) : Value := .proc .macroProc m.params m.body m.env

def ofValue? : Value → Option Macro
  | .proc .macroProc params body env => some ⟨params, body, env⟩
  | _ => none

def ofForm? (s : Store) (env : FrameId) : Value → Option Macro
  | .list (.sym name :: _) => (s.lookup? env name).bind ofValue?
  | _ => none

end Macro

def operands : Value → List Value
  | .list (_ :: args) => args
  | _ => []

/-- The form that takes the place of a call of `m`. -/
def expandCall (ev : Evaluator) (m : Macro) (form : Value) (env : FrameId) : Eval Value := do
  let frame ← enter m.params (operands form) (m.env.getD env)
  let expansion ← ev m.body frame
  let before ← Eval.lift form.print
  let after ← Eval.lift expansion.print
  Eval.record .expander s!"expanded {before} -> {after}"
  return expansion

def expandOnce (ev : Evaluator) (form : Value) (env : FrameId) : Eval Value := do
  match Macro.ofForm? (← Eval.store) env form with
  | some m => expandCall ev m form env
  | none => return form

def onBoundValues (f : Value → Eval Value) : List Value → Eval (List Value)
  | name :: v :: rest => do
      let v' ← f v
      let rest' ← onBoundValues f rest
      return name :: v' :: rest'
  | short => return short

/-- Acts on the code positions of a list: not on data, parameter lists and the names of a `let`. -/
def onCode (f : Value → Eval Value) : List Value → Eval (List Value)
  | [] => return []
  | head :: rest => match SpecialForm.ofHead? head, rest with
    | some (.procedure _), params :: body => do
        let body' ← Eval.each f body
        return head :: params :: body'
    | some .letIn, .list bindings :: body => do
        let bindings' ← onBoundValues f bindings
        let body' ← Eval.each f body
        return head :: .list bindings' :: body'
    | some form, _ => if form.isInert then return head :: rest else Eval.each f (head :: rest)
    | none, _ => Eval.each f (head :: rest)

/-- More expansions than the limit allows. -/
def exceeds (limit : Option Nat) (depth : Nat) : Option Nat :=
  match limit with
  | some l => if l < depth then some l else none
  | none => none

/-- Expands `form`, which stands where `first` stood, after `depth` expansions on the way to it. One
unit of fuel pays for one expansion or for one step down. -/
def expandFrom (ev : Evaluator) (limit : Option Nat) (env : FrameId) :
    Nat → Nat → Value → Value → Eval Value
  | 0, _, _, _ => Eval.stop .outOfFuel
  | fuel + 1, depth, first, form => do
      match Macro.ofForm? (← Eval.store) env form with
      | some m => do
          let expansion ← expandCall ev m form env
          match exceeds limit (depth + 1) with
          | some l => Eval.raise (.expansionLimit first l)
          | none => expandFrom ev limit env fuel (depth + 1) first expansion
      | none => match form with
        | .list items => do
            let items' ← onCode (fun x => expandFrom ev limit env fuel depth x x) items
            return .list items'
        | atom => return atom

/-- Expands every macro call of a form, within the limit that the settings give. -/
def expandAll (ev : Evaluator) (fuel : Nat) (form : Value) (env : FrameId) : Eval Value := do
  let s ← Eval.store
  expandFrom ev (s.config env).maxExpansionDepth env fuel 0 form form

end MiniLisp
