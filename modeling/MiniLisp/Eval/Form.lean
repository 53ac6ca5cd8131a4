import MiniLisp.Value.Basic

/-!
Special forms: lists whose operands are not simply evaluated.
-/

namespace MiniLisp

inductive SpecialForm where
  | define
  | branch
  | procedure (kind : ProcKind)
  | letIn
  | sequence
  | quote
  | quasiquote
  | expandOnce
  | expandAll
deriving DecidableEq

namespace SpecialForm

def ofName? (name : String) : Option SpecialForm :=
  if name = "def" then some .define
  else if name = "if" then some .branch
  else if name = "fn" then some (.procedure .lambda)
  else if name = "macro" then some (.procedure .macroProc)
  else if name = "let" then some .letIn
  else if name = "do" then some .sequence
  else if name = "quote" then some .quote
  else if name = "quasiquote" then some .quasiquote
  else if name = "m-expand1" then some .expandOnce
  else if name = "m-expand" then some .expandAll
  else none

def ofHead? : Value → Option SpecialForm
  | .sym name => ofName? name
  | _ => none

/-- Forms whose operand is data: nothing in it is expanded. -/
def isInert : SpecialForm → Bool
  | .quote => true
  | .quasiquote => true
  | .expandOnce => true
  | .expandAll => true
  | _ => false

end SpecialForm

end MiniLisp
