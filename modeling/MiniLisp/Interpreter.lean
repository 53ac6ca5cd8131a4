import MiniLisp.Eval.Evaluator
import MiniLisp.Source.Parser

/-!
The interpreter: forms are read, expanded and evaluated in turn, and what one form defines is there
for the next.
-/

namespace MiniLisp

/-- What can be evaluated: a text, or a tree that is already there. -/
inductive Source where
  | text (s : String)
  | tree (v : Value)

/-- A string is taken for a text. -/
def Source.ofValue : Value → Source
  | .str s => .text s
  | v => .tree v

def rootFrame : FrameId := 0

/-- A world with one frame, which binds every built-in procedure to its name. -/
def World.start (config : Config) (input : String) (clock : Clock) : World where
  store := ⟨#[⟨Native.all.map fun n => (n.name, .native n), .root config⟩]⟩
  console := ⟨input.toList, "", clock⟩
  log := #[]

/-- The output and the log since they were last taken. -/
def World.take (w : World) : String × Array LogRecord × World :=
  (w.console.output, w.log, { w with console := { w.console with output := "" }, log := #[] })

/-- Writes a failure of the program to the log. -/
def logFailure (shown : String) (action : Eval Value) : Eval Value := fun w =>
  match action w with
  | (.error (.failed e), w') =>
      if e.isLanguage then
        let message := s!"evaluation of {shown} failed: {e.message}"
        (.error (.failed e), { w' with log := w'.log.push ⟨.interpreter, message⟩ })
      else (.error (.failed e), w')
  | result => result

def runForm (fuel : Nat) (env : FrameId) (form : Value) : Eval Value := do
  let shown ← Eval.lift form.print
  Eval.record .interpreter s!"evaluating {shown}"
  logFailure shown do
    let expanded ← expandAll (eval fuel) fuel form env
    eval fuel expanded env

def liftRead {α : Type} : Except ReadError α → Eval α
  | .ok a => return a
  | .error e => Eval.raise (.read e)

def runSingle (fuel : Nat) (env : FrameId) : Source → Eval Value
  | .text s => do
      let form ← liftRead (readOne s)
      runForm fuel env form
  | .tree form => runForm fuel env form

/-- Runs forms in turn; `last` is the value before them. -/
def runForms (fuel : Nat) (env : FrameId) : Option Value → List Value → Eval (Option Value)
  | last, [] => return last
  | _, form :: rest => do
      let v ← runForm fuel env form
      runForms fuel env (some v) rest

/-- Runs sources in turn. A text is read when its turn comes. -/
def runSources (fuel : Nat) (env : FrameId) : Option Value → List Source → Eval (Option Value)
  | last, [] => return last
  | last, .text s :: rest => do
      let forms ← liftRead (readAll s)
      let v ← runForms fuel env last forms
      runSources fuel env v rest
  | _, .tree form :: rest => do
      let v ← runForm fuel env form
      runSources fuel env (some v) rest

/-- The value of the last form, of which there has to be one. -/
def lastValue : Option Value → Eval Value
  | some v => return v
  | none => Eval.raise (.arity .noForms)

def runSequence (fuel : Nat) (env : FrameId) (sources : List Source) : Eval Value := do
  lastValue (← runSources fuel env none sources)

def runText (fuel : Nat) (env : FrameId) (text : String) : Eval Value := do
  let forms ← liftRead (readAll text)
  lastValue (← runForms fuel env none forms)

/-- Fuel for nesting deeper than any program that runs in practice. -/
def ampleFuel : Nat := 1000000000

end MiniLisp
