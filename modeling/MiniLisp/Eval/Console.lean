import MiniLisp.Eval.Call

/-!
Console operations: output, input of a line, and timing. They receive their argument forms and
evaluate them themselves.
-/

namespace MiniLisp

/-- Microseconds as seconds with six places. -/
def secondsText (micros : Int) : String :=
  let sign := if micros < 0 then "-" else ""
  let places := Nat.toDigits 10 (micros.natAbs % 1000000)
  sign ++ toString (micros.natAbs / 1000000) ++ "." ++
    String.ofList (List.replicate (6 - places.length) '0' ++ places)

def ConsoleOp.operand (op : ConsoleOp) : List Value → Eval Value
  | [form] => return form
  | _ => Eval.raise (.arity (.exactly op.name 1))

def printValue (ev : Evaluator) (form : Value) (env : FrameId) (ending : String) : Eval Value := do
  let v ← ev form env
  let text ← Eval.lift v.printRaw
  Eval.write (text ++ ending)
  return v

/-- Writes a form beside its value, to the log and to the console. -/
def debugForm (ev : Evaluator) (form : Value) (env : FrameId) : Eval Value := do
  let v ← ev form env
  let shown ← Eval.lift form.print
  let inspected ← Eval.lift v.printInspected
  Eval.record .console s!"dbg {shown} = {inspected}"
  let text ← Eval.lift v.print
  Eval.write s!"[dbg] {shown} = {text}\n"
  return v

/-- Writes the prompt if there is one, and reads a line. -/
def readLineForm (ev : Evaluator) (env : FrameId) : List Value → Eval Value
  | [] => return .str (← Eval.readLine)
  | [form] => do
      let v ← ev form env
      let prompt ← Eval.lift v.expectString
      Eval.write prompt
      return .str (← Eval.readLine)
  | _ => Eval.raise (.arity (.atMostOne ConsoleOp.readLine.name))

/-- Writes how long a form took, which is a negative time if the clock has gone back. -/
def timeForm (ev : Evaluator) (form : Value) (env : FrameId) : Eval Value := do
  let started ← Eval.readClock
  let v ← ev form env
  let ended ← Eval.readClock
  let shown ← Eval.lift form.print
  Eval.write s!"Eval time for expr: {shown} = {secondsText (ended - started)}s\n"
  return v

def ConsoleOp.run (ev : Evaluator) (op : ConsoleOp) (args : List Value) (env : FrameId) :
    Eval Value := do
  match op with
  | .print => printValue ev (← op.operand args) env ""
  | .printLine => printValue ev (← op.operand args) env "\n"
  | .debug => debugForm ev (← op.operand args) env
  | .readLine => readLineForm ev env args
  | .time => timeForm ev (← op.operand args) env

end MiniLisp
