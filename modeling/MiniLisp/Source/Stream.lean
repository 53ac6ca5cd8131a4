import MiniLisp.Source.Parser

/-!
A stream of tokens with one token of look-ahead. The lexer's failure comes out once, when the
tokens before it have been taken; after that the stream is at its end.
-/

namespace MiniLisp

structure TokenStream where
  /-- The token that was looked at and not yet taken. -/
  buffer : Option Token
  /-- The tokens behind it. -/
  upcoming : List Token
  /-- The failure behind those. -/
  failure : Option ReadError

namespace TokenStream

def ofLexed (lexed : Lexed) : TokenStream := ⟨none, lexed.tokens, lexed.failure⟩

def ofTokens (tokens : List Token) : TokenStream := ⟨none, tokens, none⟩

def pending (s : TokenStream) : List Token := s.buffer.toList ++ s.upcoming

/-- The next token behind the buffer. -/
def pull (s : TokenStream) : Except ReadError (Option Token) × TokenStream :=
  match s.upcoming, s.failure with
  | t :: ts, _ => (.ok (some t), { s with upcoming := ts })
  | [], some e => (.error e, { s with failure := none })
  | [], none => (.ok none, s)

def peek (s : TokenStream) : Except ReadError (Option Token) × TokenStream :=
  match s.buffer with
  | some t => (.ok (some t), s)
  | none => match s.pull with
    | (.ok (some t), s') => (.ok (some t), { s' with buffer := some t })
    | other => other

def advance (s : TokenStream) : Except ReadError (Option Token) × TokenStream :=
  match s.buffer with
  | some t => (.ok (some t), { s with buffer := none })
  | none => s.pull

def parse (s : TokenStream) : Except ReadError Value × TokenStream :=
  match parseForm [] s.pending with
  | .form v rest => (.ok v, ⟨none, rest, s.failure⟩)
  | .wrong e rest => (.error e, ⟨none, rest, s.failure⟩)
  | .incomplete e => (.error (s.failure.getD e), ⟨none, [], none⟩)

end TokenStream

/-- Reads the forms of a stream one by one, until the end or the first error. -/
structure FormReader where
  stream : TokenStream
  finished : Bool

namespace FormReader

def ofStream (s : TokenStream) : FormReader := ⟨s, false⟩

/-- The next form; nothing once the reader has finished. -/
def next (r : FormReader) : Except ReadError (Option Value) × FormReader :=
  if r.finished then (.ok none, r)
  else match r.stream.peek with
    | (.error e, s) => (.error e, ⟨s, true⟩)
    | (.ok none, s) => (.ok none, ⟨s, true⟩)
    | (.ok (some _), s) => match s.parse with
      | (.ok v, s') => (.ok (some v), ⟨s', false⟩)
      | (.error e, s') => (.error e, ⟨s', true⟩)

end FormReader

end MiniLisp
