import MiniLisp.Source.ReadError

/-!
String literals. A backslash and the character after it stand for one character; only the escapes
that the printer writes are known.
-/

namespace MiniLisp

def escapeValue? (letter : Char) : Option Char :=
  if letter = '\\' then some '\\'
  else if letter = '"' then some '"'
  else if letter = 'n' then some '\n'
  else if letter = 't' then some '\t'
  else none

/-- Resolves the escapes from left to right. A backslash at the very end stays. -/
def unescape (literal : String) : List Char → Except ReadError (List Char)
  | [] => .ok []
  | [c] => .ok [c]
  | c :: d :: cs =>
      if c = '\\' then
        match escapeValue? d with
        | some e => (unescape literal cs).map (e :: ·)
        | none => .error (.unknownEscape d literal)
      else (unescape literal (d :: cs)).map (c :: ·)

/-- The text of a string literal. The first and the last character are taken for its quotes. -/
def decodeString (literal : String) : Except ReadError String :=
  (unescape literal (literal.toList.drop 1).dropLast).map String.ofList

end MiniLisp
