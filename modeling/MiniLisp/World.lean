import MiniLisp.Store.Basic

/-!
The world an evaluation acts on, and evaluations as functions from one world to the next. A failed
evaluation keeps what it did before it failed.
-/

namespace MiniLisp

/-- A clock by its readings, in microseconds, and how many of them have been taken. Nothing is assumed
of the readings: they may stand still or go back. -/
structure Clock where
  reading : Nat → Int
  taken : Nat

namespace Clock

/-- The next reading, and the clock after it. -/
def read (c : Clock) : Int × Clock := (c.reading c.taken, { c with taken := c.taken + 1 })

def stopped : Clock := ⟨fun _ => 0, 0⟩

end Clock

/-- The text still to be read, the text written, and the clock. -/
structure Console where
  input : List Char
  output : String
  clock : Clock

/-- The part of the interpreter that a log record comes from. -/
inductive LogSource where
  | interpreter
  | expander
  | console
deriving DecidableEq

structure LogRecord where
  source : LogSource
  message : String
deriving DecidableEq

structure World where
  store : Store
  console : Console
  log : Array LogRecord

inductive Stop where
  | failed (e : Error)
  | outOfFuel

def Eval (α : Type) : Type := World → Except Stop α × World

namespace Eval

def pure {α : Type} (a : α) : Eval α := fun w => (.ok a, w)

def bind {α β : Type} (x : Eval α) (f : α → Eval β) : Eval β := fun w =>
  match x w with
  | (.ok a, w') => f a w'
  | (.error stop, w') => (.error stop, w')

instance : Monad Eval where
  pure := Eval.pure
  bind := Eval.bind

def stop {α : Type} (s : Stop) : Eval α := fun w => (.error s, w)

def lift {α : Type} : Except Error α → Eval α
  | .ok a => Eval.pure a
  | .error e => stop (.failed e)

/-- Fails with the error as it is reported. -/
def raise {α : Type} (e : Error) : Eval α := stop (.failed e.reported)

def store : Eval Store := fun w => (.ok w.store, w)

def newFrame (f : Frame) : Eval FrameId := fun w =>
  (.ok w.store.size, { w with store := w.store.push f })

def newChild (outer : FrameId) : Eval FrameId := newFrame ⟨[], .child outer⟩

def define (id : FrameId) (name : String) (v : Value) : Eval Unit := fun w =>
  (.ok (), { w with store := w.store.define id name v })

def record (source : LogSource) (message : String) : Eval Unit := fun w =>
  (.ok (), { w with log := w.log.push ⟨source, message⟩ })

def write (text : String) : Eval Unit := fun w =>
  (.ok (), { w with console := { w.console with output := w.console.output ++ text } })

def readClock : Eval Int := fun w =>
  let (now, clock) := w.console.clock.read
  (.ok now, { w with console := { w.console with clock := clock } })

/-- Reads up to the end of a line, which is not part of the result; at the end of the input the
result is empty. -/
def readLine : Eval String := fun w =>
  let line := w.console.input.takeWhile (· ≠ '\n')
  let rest := (w.console.input.dropWhile (· ≠ '\n')).drop 1
  let text := (line.reverse.dropWhile (· = '\r')).reverse
  (.ok (String.ofList text), { w with console := { w.console with input := rest } })

/-- Acts on each item in turn and gathers the results. -/
def each {α β : Type} (f : α → Eval β) : List α → Eval (List β)
  | [] => Eval.pure []
  | a :: as => do
      let b ← f a
      let bs ← each f as
      return b :: bs

end Eval

end MiniLisp
