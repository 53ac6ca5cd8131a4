import MiniLisp.Source.Lexer
import MiniLisp.Source.Atom
import MiniLisp.Source.Literal

/-!
From tokens to trees. The parser reads one token after the other and keeps a stack of what is
still open, so a text that stops too early is told apart from one that is wrong.
-/

namespace MiniLisp

/-- A form that has begun and is not complete. -/
inductive Pending where
  /-- An open list with its items so far, the last first. -/
  | items (read : List Value)
  | quoted (mark name : String)

inductive ParseStep where
  | more (stack : List Pending)
  | form (v : Value)
  | wrong (e : ReadError)
  /-- The token is a quote mark that abbreviates nothing. -/
  | stray (mark : String)

/-- Gives a complete form to what waits for it. -/
def attach (v : Value) : List Pending → ParseStep
  | [] => .form v
  | .quoted _ name :: stack => attach (.list [.sym name, v]) stack
  | .items read :: stack => .more (.items (v :: read) :: stack)

def attachLeaf (leaf : Except ReadError Value) (stack : List Pending) : ParseStep :=
  match leaf with
  | .ok v => attach v stack
  | .error e => .wrong e

def closeList : List Pending → ParseStep
  | .items read :: stack => attach (.list read.reverse) stack
  | _ => .wrong .strayClose

def openQuote (t : Token) (stack : List Pending) : ParseStep :=
  match quoteName? t.text with
  | some name => .more (.quoted t.text name :: stack)
  | none => .stray t.text

def parseStep (stack : List Pending) (t : Token) : ParseStep :=
  match t.kind with
  | .symbol => attachLeaf (parseAtom t.text) stack
  | .string => attachLeaf ((decodeString t.text).map .str) stack
  | .quote => openQuote t stack
  | .unquote => openQuote t stack
  | .lparen => .more (.items [] :: stack)
  | .rparen => closeList stack
  | .other name => .wrong (.unknownToken name t.text)

def missing : List Pending → ReadError
  | [] => .endOfInput
  | .quoted mark _ :: _ => .missingForm mark
  | .items _ :: _ => .unclosedList

/-- The outcome of reading one form: the form, an error at a token, or the end of the tokens in the
middle. The first two come with the tokens that were not looked at. -/
inductive Parsed where
  | form (v : Value) (rest : List Token)
  | wrong (e : ReadError) (rest : List Token)
  | incomplete (e : ReadError)

/-- What comes of a quote mark that abbreviates nothing: its form is missing, or the first token of
its form is refused and stays. -/
def parseStray (mark : String) : List Token → Parsed
  | [] => .incomplete (.missingForm mark)
  | t :: ts => .wrong (.unknownMark mark) (t :: ts)

def parseForm (stack : List Pending) : List Token → Parsed
  | [] => .incomplete (missing stack)
  | t :: ts => match parseStep stack t with
    | .more stack' => parseForm stack' ts
    | .form v => .form v ts
    | .wrong e => .wrong e ts
    | .stray mark => parseStray mark ts

/-- Reads all forms. `failure` is what the end of the tokens means: a failure of the lexer, or
nothing special. -/
def parseForms (failure : Option ReadError) (stack : List Pending) :
    List Token → Except ReadError (List Value)
  | [] => match failure, stack with
    | some e, _ => .error e
    | none, [] => .ok []
    | none, p :: ps => .error (missing (p :: ps))
  | t :: ts => match parseStep stack t with
    | .more stack' => parseForms failure stack' ts
    | .form v => (parseForms failure [] ts).map (v :: ·)
    | .wrong e => .error e
    | .stray mark => match ts with
      | [] => .error (failure.getD (.missingForm mark))
      | _ :: _ => .error (.unknownMark mark)

def readAll (source : String) : Except ReadError (List Value) :=
  let lexed := lex source
  parseForms lexed.failure [] lexed.tokens

/-- The form of a source text that holds exactly one. -/
def readOne (source : String) : Except ReadError Value :=
  match readAll source with
  | .ok [v] => .ok v
  | .ok vs => .error (.formCount vs.length)
  | .error e => .error e

end MiniLisp
