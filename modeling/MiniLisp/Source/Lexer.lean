import MiniLisp.Source.ReadError
import MiniLisp.Source.Token

/-!
From characters to tokens, one character at a time. Blanks and comments separate tokens; a comment
runs from a semicolon to the end of its line. The one thing that can go wrong is a string literal
that does not close.
-/

namespace MiniLisp

/-- Where the scan stands. The characters of an unfinished token are kept last first. -/
inductive ScanState where
  | between
  | comment
  /-- After a comma that an at sign may follow. -/
  | comma
  | word (seen : List Char)
  /-- In the string literal that opened at `start`. -/
  | literal (start : Nat) (seen : List Char)
  /-- After a backslash in such a literal. -/
  | escape (start : Nat) (seen : List Char)
deriving DecidableEq

/-- The tokens of a text, up to the failure if there is one. -/
structure Lexed where
  tokens : List Token
  failure : Option ReadError
deriving DecidableEq

namespace ScanState

def wordToken (seen : List Char) : Token := ⟨.symbol, String.ofList seen.reverse⟩

def literalToken (seen : List Char) : Token := ⟨.string, String.ofList seen.reverse⟩

def commaToken : Token := ⟨.unquote, ","⟩

/-- What a character begins that stands at `position` between tokens. -/
def start (position : Nat) (c : Char) : List Token × ScanState :=
  if Text.isBlank c then ([], .between)
  else if c = ';' then ([], .comment)
  else if c = '\'' then ([⟨.quote, "'"⟩], .between)
  else if c = '\x60' then ([⟨.quote, "\x60"⟩], .between)
  else if c = ',' then ([], .comma)
  else if c = '(' then ([⟨.lparen, "("⟩], .between)
  else if c = ')' then ([⟨.rparen, ")"⟩], .between)
  else if c = '"' then ([], .literal position [c])
  else ([], .word [c])

/-- The tokens that a character completes, and the state after it. -/
def step (position : Nat) (c : Char) : ScanState → List Token × ScanState
  | .between => start position c
  | .comment => if c = '\n' then ([], .between) else ([], .comment)
  | .comma =>
      if c = '@' then ([⟨.unquote, ",@"⟩], .between)
      else
        let next := start position c
        (commaToken :: next.1, next.2)
  | .word seen =>
      if isWordChar c then ([], .word (c :: seen))
      else
        let next := start position c
        (wordToken seen :: next.1, next.2)
  | .literal opened seen =>
      if c = '"' then ([literalToken (c :: seen)], .between)
      else if c = '\\' then ([], .escape opened (c :: seen))
      else ([], .literal opened (c :: seen))
  | .escape opened seen => ([], .literal opened (c :: seen))

/-- The end of the text completes a word or a comma, and fails inside a literal. -/
def finish : ScanState → Lexed
  | .between => ⟨[], none⟩
  | .comment => ⟨[], none⟩
  | .comma => ⟨[commaToken], none⟩
  | .word seen => ⟨[wordToken seen], none⟩
  | .literal opened _ => ⟨[], some (.unclosedString opened)⟩
  | .escape opened _ => ⟨[], some (.unclosedString opened)⟩

def scan (position : Nat) (state : ScanState) : List Char → Lexed
  | [] => state.finish
  | c :: cs =>
      let next := state.step position c
      let rest := scan (position + 1) next.2 cs
      ⟨next.1 ++ rest.tokens, rest.failure⟩

end ScanState

def lexChars (cs : List Char) : Lexed := ScanState.scan 0 .between cs

def lex (source : String) : Lexed := lexChars source.toList

end MiniLisp
