import MiniLisp.Text.Blank

/-!
Tokens of source text, and the characters that make up a word.
-/

namespace MiniLisp

/-- The classes of tokens. Source text has the first six only; a stream of given tokens may name
any other. -/
inductive TokenKind where
  | quote
  | unquote
  | lparen
  | rparen
  | string
  | symbol
  | other (name : String)
deriving DecidableEq

namespace TokenKind

def name : TokenKind → String
  | .quote => "quote"
  | .unquote => "unquote"
  | .lparen => "lparen"
  | .rparen => "rparen"
  | .string => "string"
  | .symbol => "symbol"
  | .other name => name

def ofName (name : String) : TokenKind :=
  match [quote, unquote, lparen, rparen, string, symbol].find? fun k => k.name = name with
  | some k => k
  | none => .other name

end TokenKind

structure Token where
  kind : TokenKind
  text : String
deriving DecidableEq

/-- Characters that end a word and are no blanks. -/
def delimiters : List Char := ['(', ')', '\'', '\x60', '"', ',', ';']

/-- Characters of symbols and numbers. -/
def isWordChar (c : Char) : Bool := !Text.isBlank c && !delimiters.contains c

def quoteName? (mark : String) : Option String :=
  if mark = "'" then some "quote"
  else if mark = "\x60" then some "quasiquote"
  else if mark = "," then some "unquote"
  else if mark = ",@" then some "splice-unquote"
  else none

end MiniLisp
