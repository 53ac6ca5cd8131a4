import Mathlib.Data.List.TakeWhile
import MiniLisp.Proofs.Scanning
import MiniLisp.Source.Parser

/-!
The lexer as an exact tokenisation. Every text is in one way a sequence of gaps and tokens, in which no token
can be made longer, up to its end or up to a quote that nothing closes; the lexer yields these tokens, and it
fails exactly at such a quote. Tokens that are written with single spaces between them are therefore lexed as
they are.
-/

namespace MiniLisp

open ScanState

/-- The line ends here. -/
def EndsLine (cs : List Char) : Prop := ∀ c ∈ cs.head?, c = '\n'

/-- Blanks and comments in front of `rest`. A comment runs from a semicolon to the end of its line. -/
inductive Gap (rest : List Char) : List Char → Prop
  | nil : Gap rest []
  | blank {c cs} : Text.isBlank c = true → Gap rest cs → Gap rest (c :: cs)
  | comment {body cs} : (∀ c ∈ body, c ≠ '\n') → EndsLine (cs ++ rest) → Gap rest cs →
      Gap rest (';' :: (body ++ cs))

/-- What follows does not make the token longer: no character of a word behind a word, no at sign behind a
comma. -/
structure Token.EndsBefore (t : Token) (rest : List Char) : Prop where
  word : t.kind = .symbol → EndsWord rest
  comma : t = commaToken → ∀ c ∈ rest.head?, c ≠ '@'

/-- A quote that no later quote closes; a quote behind a backslash does not count. -/
def Unclosed (cs : List Char) : Prop :=
  ∃ inside, cs = '"' :: inside ∧ ∀ body after, LiteralBody body → inside ≠ body ++ '"' :: after

/-- A token with the gap in front of it. -/
structure Piece where
  gap : List Char
  token : Token

def Piece.chars (p : Piece) : List Char := p.gap ++ p.token.text.toList

/-- Pieces one after the other in front of `rest`. -/
inductive Tokenised (rest : List Char) : List Piece → Prop
  | nil : Tokenised rest []
  | cons {p ps} : Gap (p.token.text.toList ++ (ps.flatMap Piece.chars ++ rest)) p.gap →
      p.token.WellFormed → p.token.EndsBefore (ps.flatMap Piece.chars ++ rest) →
      Tokenised rest ps → Tokenised rest (p :: ps)

/-- Pieces, a last gap, and what is left behind it. -/
structure Tokenisation where
  pieces : List Piece
  last : List Char
  left : List Char

namespace Tokenisation

def tokens (d : Tokenisation) : List Token := d.pieces.map Piece.token

/-- The characters in front of what is left. -/
def passed (d : Tokenisation) : List Char := d.pieces.flatMap Piece.chars ++ d.last

/-- The text is cut up in this way; nothing is left, or a quote that nothing closes. -/
structure Of (d : Tokenisation) (cs : List Char) : Prop where
  text : cs = d.passed ++ d.left
  pieces : Tokenised (d.last ++ d.left) d.pieces
  last : Gap d.left d.last
  left : d.left = [] ∨ Unclosed d.left

end Tokenisation

/-! A text that is cut up is scanned piece by piece. -/

theorem scan_comment {body rest : List Char} (inside : ∀ c ∈ body, c ≠ '\n') (ends : EndsLine rest)
    (position : Nat) :
    scan position .comment (body ++ rest) = scan (position + body.length) .between rest := by
  induction body generalizing position with
  | nil =>
      cases rest with
      | nil => rfl
      | cons c rest =>
          obtain rfl : c = '\n' := ends c rfl
          rfl
  | cons c body ih =>
      obtain ⟨other, inside⟩ := List.forall_mem_cons.1 inside
      rw [List.cons_append, scan_cons]
      simp only [step, if_neg other, Lexed.prepend_nil]
      rw [ih inside, List.length_cons, Nat.add_assoc, Nat.add_comm 1]

theorem Gap.scansTo {rest cs : List Char} (gap : Gap rest cs) : ScansTo cs [] rest := by
  induction gap with
  | nil => exact .nil rest
  | blank isBlank _ ih => exact (ScansTo.blank isBlank _).append ih
  | @comment body cs inside ends _ ih =>
      have opens : ScansTo (';' :: body) [] (cs ++ rest) := by
        intro position
        have start : start position ';' = ([], .comment) := rfl
        rw [List.cons_append, scan_cons]
        simp only [step, start, Lexed.prepend_nil]
        rw [scan_comment inside ends, List.length_cons, Nat.add_assoc, Nat.add_comm 1]
      exact opens.append ih

/-- A comma ends in front of what is no at sign. -/
theorem scan_comma_end {cs : List Char} (other : ∀ c ∈ cs.head?, c ≠ '@') (position : Nat) :
    scan position .comma cs = (scan position .between cs).prepend [commaToken] := by
  cases cs with
  | nil => rfl
  | cons c cs => simp [scan_cons, step, other c rfl, Lexed.prepend]

theorem Token.scansTo {t : Token} {rest : List Char} (form : t.WellFormed) (ends : t.EndsBefore rest) :
    ScansTo t.text.toList [t] rest := by
  obtain ⟨kind, text⟩ := t
  cases kind with
  | quote =>
      rcases form with rfl | rfl
      · exact fun _ => rfl
      · exact fun _ => rfl
  | unquote =>
      rcases form with rfl | rfl
      · intro position
        exact scan_comma_end (ends.comma rfl) (position + 1)
      · exact fun _ => rfl
  | lparen =>
      obtain rfl : text = "(" := form
      exact .lparen rest
  | rparen =>
      obtain rfl : text = ")" := form
      exact .rparen rest
  | string =>
      obtain ⟨body, inside, chars⟩ := form
      have scans := ScansTo.literal inside rest
      rw [← chars, String.ofList_toList] at scans
      exact scans
  | symbol =>
      have scans := ScansTo.word form (ends.word rfl)
      rw [String.ofList_toList] at scans
      exact scans
  | other name => exact form.elim

theorem Tokenised.scansTo {rest : List Char} {ps : List Piece} (pieces : Tokenised rest ps) :
    ScansTo (ps.flatMap Piece.chars) (ps.map Piece.token) rest := by
  induction pieces with
  | nil => exact .nil rest
  | cons gap form ends _ ih =>
      have token := (Token.scansTo form ends).append ih
      rw [← List.append_assoc] at gap
      have piece := gap.scansTo.append token
      rw [← List.append_assoc] at piece
      exact piece

/-- The scan of a literal that does not close, from inside it and from behind a backslash in it. -/
theorem scan_open (opened position : Nat) (seen inside : List Char) :
    ((∀ body after, LiteralBody body → inside ≠ body ++ '"' :: after) →
      scan position (.literal opened seen) inside = ⟨[], some (.unclosedString opened)⟩) ∧
    ((∀ c rest, inside = c :: rest → ∀ body after, LiteralBody body → rest ≠ body ++ '"' :: after) →
      scan position (.escape opened seen) inside = ⟨[], some (.unclosedString opened)⟩) := by
  -- A backslash leads from the first statement to the second, the next character back to the first.
  induction inside generalizing position seen with
  | nil => exact ⟨fun _ => rfl, fun _ => rfl⟩
  | cons c inside ih =>
      constructor
      · intro never
        have quote : c ≠ '"' := by
          rintro rfl
          exact never [] inside .nil rfl
        rw [scan_cons]
        by_cases backslash : c = '\\'
        · simp only [step, if_neg quote, if_pos backslash, Lexed.prepend_nil]
          apply (ih _ _).2
          rintro d rest rfl body after closed rfl
          exact never ('\\' :: d :: body) after (.escape d closed) (by rw [backslash]; rfl)
        · simp only [step, if_neg quote, if_neg backslash, Lexed.prepend_nil]
          apply (ih _ _).1
          rintro body after closed rfl
          exact never (c :: body) after (.plain quote backslash closed) rfl
      · intro never
        rw [scan_cons]
        exact (ih _ _).1 (never c inside rfl)

theorem scan_unclosed {cs : List Char} (left : Unclosed cs) (position : Nat) :
    scan position .between cs = ⟨[], some (.unclosedString position)⟩ := by
  obtain ⟨inside, rfl, never⟩ := left
  have opening : start position '"' = ([], .literal position ['"']) := rfl
  rw [scan_cons]
  simp only [step, opening, Lexed.prepend_nil]
  exact (scan_open position _ _ inside).1 never

namespace Tokenisation

variable {d : Tokenisation} {cs : List Char}

theorem Of.lexChars_eq (h : d.Of cs) :
    lexChars cs = (scan d.passed.length .between d.left).prepend d.tokens := by
  have scans := h.pieces.scansTo.append h.last.scansTo
  have whole := scans 0
  rw [Nat.zero_add, List.append_nil] at whole
  rw [h.text]
  exact whole

theorem Of.lexChars_complete (h : d.Of cs) (complete : d.left = []) :
    lexChars cs = ⟨d.tokens, none⟩ := by
  rw [h.lexChars_eq, complete]
  simp [Lexed.prepend, scan, finish]

theorem Of.lexChars_unclosed (h : d.Of cs) (left : Unclosed d.left) :
    lexChars cs = ⟨d.tokens, some (.unclosedString d.passed.length)⟩ := by
  rw [h.lexChars_eq, scan_unclosed left]
  simp [Lexed.prepend]

theorem Of.tokens_lexChars (h : d.Of cs) : (lexChars cs).tokens = d.tokens := by
  rcases h.left with complete | left
  · rw [h.lexChars_complete complete]
  · rw [h.lexChars_unclosed left]

end Tokenisation

/-! Every text can be cut up. -/

/-- What a text begins with. -/
inductive Opening : List Char → Prop
  | nothing : Opening []
  | unclosed {cs} : Unclosed cs → Opening cs
  | blank {c rest} : Text.isBlank c = true → Opening (c :: rest)
  | comment {body rest} : (∀ c ∈ body, c ≠ '\n') → EndsLine rest → Opening (';' :: (body ++ rest))
  | token {t : Token} {rest} : t.WellFormed → t.EndsBefore rest → Opening (t.text.toList ++ rest)

/-- Nothing makes a token longer that is neither a word nor a comma. -/
theorem opening_mark (t : Token) (form : t.WellFormed) (notWord : t.kind ≠ .symbol)
    (notComma : t ≠ commaToken) (rest : List Char) : Opening (t.text.toList ++ rest) :=
  .token form ⟨fun isWord => absurd isWord notWord, fun isComma => absurd isComma notComma⟩

theorem opening_comment (cs : List Char) : Opening (';' :: cs) := by
  have inside : ∀ c ∈ cs.takeWhile (· ≠ '\n'), c ≠ '\n' := by
    intro c member
    simpa using List.mem_takeWhile_imp member
  have ends : EndsLine (cs.dropWhile (· ≠ '\n')) := by
    intro c first
    have stops := List.head?_dropWhile_not (fun c => decide (c ≠ '\n')) cs
    rw [Option.mem_def.1 first] at stops
    simpa using stops
  have opens := Opening.comment inside ends
  rw [List.takeWhile_append_dropWhile] at opens
  exact opens

theorem opening_comma (cs : List Char) : Opening (',' :: cs) := by
  by_cases spliced : cs.head? = some '@'
  · obtain ⟨rest, rfl⟩ := List.head?_eq_some_iff.1 spliced
    exact opening_mark ⟨.unquote, ",@"⟩ (.inr rfl) (by decide) (by decide) rest
  · refine .token (t := commaToken) (.inl rfl) ⟨nofun, ?_⟩
    rintro _ c first rfl
    exact spliced first

theorem opening_quote (cs : List Char) : Opening ('"' :: cs) := by
  by_cases closed : ∃ body after, LiteralBody body ∧ cs = body ++ '"' :: after
  · obtain ⟨body, after, inside, rfl⟩ := closed
    have opens := opening_mark ⟨.string, String.ofList ('"' :: (body ++ ['"']))⟩
      ⟨body, inside, String.toList_ofList⟩ nofun nofun after
    rw [String.toList_ofList, List.cons_append, List.append_assoc] at opens
    exact opens
  · refine .unclosed ⟨cs, rfl, ?_⟩
    intro body after inside same
    exact closed ⟨body, after, inside, same⟩

theorem opening_word {c : Char} (char : isWordChar c = true) (cs : List Char) : Opening (c :: cs) := by
  have word : IsWord ((c :: cs).takeWhile isWordChar) := by
    refine ⟨?_, fun d => List.mem_takeWhile_imp⟩
    rw [List.takeWhile_cons_of_pos char]
    exact List.cons_ne_nil _ _
  have ends : EndsWord ((c :: cs).dropWhile isWordChar) := by
    intro d first
    have stops := List.head?_dropWhile_not isWordChar (c :: cs)
    rw [Option.mem_def.1 first] at stops
    exact stops
  have form : (⟨.symbol, String.ofList ((c :: cs).takeWhile isWordChar)⟩ : Token).WellFormed := by
    rw [Token.WellFormed, String.toList_ofList]
    exact word
  have notComma : (⟨.symbol, String.ofList ((c :: cs).takeWhile isWordChar)⟩ : Token) ≠ commaToken := by
    intro isComma
    cases isComma
  have opens := Opening.token form ⟨fun _ => ends, fun isComma => absurd isComma notComma⟩
  rw [String.toList_ofList, List.takeWhile_append_dropWhile] at opens
  exact opens

theorem opening (cs : List Char) : Opening cs := by
  cases cs with
  | nil => exact .nothing
  | cons c cs =>
      by_cases blank : Text.isBlank c = true
      · exact .blank blank
      by_cases special : c ∈ delimiters
      · simp only [delimiters, List.mem_cons, List.not_mem_nil, or_false] at special
        rcases special with rfl | rfl | rfl | rfl | rfl | rfl | rfl
        · exact opening_mark ⟨.lparen, "("⟩ rfl (by decide) (by decide) cs
        · exact opening_mark ⟨.rparen, ")"⟩ rfl (by decide) (by decide) cs
        · exact opening_mark ⟨.quote, "'"⟩ (.inl rfl) (by decide) (by decide) cs
        · exact opening_mark ⟨.quote, "\x60"⟩ (.inr rfl) (by decide) (by decide) cs
        · exact opening_quote cs
        · exact opening_comma cs
        · exact opening_comment cs
      · apply opening_word
        simp [isWordChar, blank, special]

/-- A token begins with a character that begins neither a blank nor a comment. -/
theorem Token.WellFormed.exists_first {t : Token} (form : t.WellFormed) :
    ∃ c cs, t.text.toList = c :: cs ∧ Text.isBlank c = false ∧ c ≠ ';' := by
  obtain ⟨kind, text⟩ := t
  cases kind with
  | quote =>
      rcases form with rfl | rfl
      · exact ⟨'\'', [], rfl, by decide, by decide⟩
      · exact ⟨'\x60', [], rfl, by decide, by decide⟩
  | unquote =>
      rcases form with rfl | rfl
      · exact ⟨',', [], rfl, by decide, by decide⟩
      · exact ⟨',', ['@'], rfl, by decide, by decide⟩
  | lparen =>
      obtain rfl : text = "(" := form
      exact ⟨'(', [], rfl, by decide, by decide⟩
  | rparen =>
      obtain rfl : text = ")" := form
      exact ⟨')', [], rfl, by decide, by decide⟩
  | string =>
      obtain ⟨body, -, chars⟩ := form
      exact ⟨'"', body ++ ['"'], chars, by decide, by decide⟩
  | symbol =>
      obtain ⟨c, cs, chars⟩ := List.exists_cons_of_ne_nil (IsWord.ne_nil form)
      have char : isWordChar c = true := IsWord.chars form c (by simp [chars])
      simp only [isWordChar, Bool.and_eq_true, Bool.not_eq_true'] at char
      refine ⟨c, cs, chars, char.1, ?_⟩
      rintro rfl
      exact absurd char.2 (by decide)
  | other name => exact form.elim

namespace Tokenisation

/-- What lengthens every gap in front of a text can be put in front of the text. -/
theorem Of.exists_behind {d : Tokenisation} {cs : List Char} (h : d.Of cs) (front : List Char)
    (longer : ∀ gap rest, gap ++ rest = cs → Gap rest gap → Gap rest (front ++ gap)) :
    ∃ d : Tokenisation, d.Of (front ++ cs) := by
  obtain ⟨pieces, last, left⟩ := d
  obtain ⟨text, cut, gap, stop⟩ := h
  cases cut with
  | nil =>
      refine ⟨⟨[], front ++ last, left⟩, ?_, .nil, longer last left text.symm gap, stop⟩
      rw [text]
      simp [passed]
  | @cons p ps first form ends rest =>
      have whole : p.gap ++ (p.token.text.toList ++ (ps.flatMap Piece.chars ++ (last ++ left))) = cs := by
        rw [text]
        simp [passed, Piece.chars]
      refine ⟨⟨⟨front ++ p.gap, p.token⟩ :: ps, last, left⟩, ?_, ?_, gap, stop⟩
      · rw [← whole]
        simp [passed, Piece.chars]
      · exact .cons (longer p.gap _ whole first) form ends rest

theorem Of.exists_behind_token {d : Tokenisation} {t : Token} {cs : List Char} (form : t.WellFormed)
    (ends : t.EndsBefore cs) (h : d.Of cs) : ∃ d : Tokenisation, d.Of (t.text.toList ++ cs) := by
  have rest : d.pieces.flatMap Piece.chars ++ (d.last ++ d.left) = cs := by
    rw [h.text, passed, List.append_assoc]
  refine ⟨⟨⟨[], t⟩ :: d.pieces, d.last, d.left⟩, ?_, .cons .nil form ?_ h.pieces, h.last, h.left⟩
  · rw [← rest]
    simp [passed, Piece.chars]
  · rw [rest]
    exact ends

theorem exists_of (cs : List Char) : ∃ d : Tokenisation, d.Of cs := by
  -- Not on the list: what stands behind an opening can be any shorter text.
  induction size : cs.length using Nat.strongRecOn generalizing cs with
  | ind n ih =>
      cases opening cs with
      | nothing => exact ⟨⟨[], [], []⟩, rfl, .nil, .nil, .inl rfl⟩
      | unclosed left => exact ⟨⟨[], [], cs⟩, rfl, .nil, .nil, .inr left⟩
      | @blank c rest isBlank =>
          obtain ⟨d, h⟩ := ih rest.length (by simp at size; omega) rest rfl
          exact h.exists_behind [c] fun gap after _ here => .blank isBlank here
      | @comment body rest inside ends =>
          obtain ⟨d, h⟩ := ih rest.length (by simp at size; omega) rest rfl
          apply h.exists_behind (';' :: body)
          rintro gap after rfl here
          exact .comment inside ends here
      | @token t rest form ends =>
          obtain ⟨c, chars, first, -, -⟩ := form.exists_first
          obtain ⟨d, h⟩ := ih rest.length (by simp [first] at size; omega) rest rfl
          exact h.exists_behind_token form ends

end Tokenisation

/-! A text can be cut up in one way only. -/

/-- Neither a blank nor a comment stands in front. -/
def EndsGap (cs : List Char) : Prop := ∀ c ∈ cs.head?, Text.isBlank c = false ∧ c ≠ ';'

theorem endsGap_cons {c : Char} (blank : Text.isBlank c = false) (other : c ≠ ';') (cs : List Char) :
    EndsGap (c :: cs) := by
  rintro d first
  cases first
  exact ⟨blank, other⟩

theorem endsGap_token {t : Token} (form : t.WellFormed) (rest : List Char) :
    EndsGap (t.text.toList ++ rest) := by
  obtain ⟨c, cs, chars, blank, other⟩ := form.exists_first
  rw [chars]
  exact endsGap_cons blank other _

theorem endsGap_left {cs : List Char} (left : cs = [] ∨ Unclosed cs) : EndsGap cs := by
  rcases left with rfl | ⟨inside, rfl, -⟩
  · exact nofun
  · exact endsGap_cons (by decide) (by decide) inside

theorem takeWhile_line {body rest : List Char} (inside : ∀ c ∈ body, c ≠ '\n') (ends : EndsLine rest) :
    (body ++ rest).takeWhile (· ≠ '\n') = body := by
  rw [List.takeWhile_append_of_pos (by simpa using inside)]
  cases rest with
  | nil => simp
  | cons c rest => simp [ends c rfl]

section Gaps

variable {g r : List Char} (gap : Gap r g)

include gap

theorem Gap.eq_nil (ends : EndsGap (g ++ r)) : g = [] := by
  cases gap with
  | nil => rfl
  | @blank c cs isBlank _ =>
      obtain ⟨notBlank, -⟩ := ends c rfl
      rw [isBlank] at notBlank
      cases notBlank
  | comment _ _ _ => exact absurd rfl (ends ';' rfl).2

theorem Gap.eq_blank {c : Char} {cs : List Char} (ends : EndsGap r) (isBlank : Text.isBlank c = true)
    (same : g ++ r = c :: cs) : ∃ g', g = c :: g' ∧ Gap r g' ∧ g' ++ r = cs := by
  cases gap with
  | nil =>
      obtain ⟨notBlank, -⟩ := ends c (by rw [show r = c :: cs from same]; rfl)
      rw [isBlank] at notBlank
      cases notBlank
  | @blank d g' _ rest =>
      cases same
      exact ⟨g', rfl, rest, rfl⟩
  | comment _ _ _ =>
      cases same
      exact absurd isBlank (by decide)

theorem Gap.eq_comment {body cs : List Char} (ends : EndsGap r) (inside : ∀ c ∈ body, c ≠ '\n')
    (line : EndsLine cs) (same : g ++ r = ';' :: (body ++ cs)) :
    ∃ g', g = ';' :: (body ++ g') ∧ Gap r g' ∧ g' ++ r = cs := by
  cases gap with
  | nil => exact absurd rfl (ends ';' (by rw [show r = ';' :: (body ++ cs) from same]; rfl)).2
  | blank isBlank _ =>
      obtain ⟨rfl, -⟩ := List.cons.inj same
      exact absurd isBlank (by decide)
  | @comment body' g' inside' line' rest =>
      rw [List.cons_append, List.append_assoc] at same
      have behind : body' ++ (g' ++ r) = body ++ cs := (List.cons.inj same).2
      have bodies := congrArg (List.takeWhile (· ≠ '\n')) behind
      rw [takeWhile_line inside' line', takeWhile_line inside line] at bodies
      subst bodies
      exact ⟨g', rfl, rest, List.append_cancel_left behind⟩

/-- A gap ends where neither a blank nor a comment follows, so it can be told from what follows. -/
theorem Gap.cancel {g' r' : List Char} (gap' : Gap r' g') (ends : EndsGap r) (ends' : EndsGap r')
    (same : g ++ r = g' ++ r') : g = g' ∧ r = r' := by
  induction gap generalizing g' with
  | nil =>
      have empty : g' = [] := gap'.eq_nil (by rw [← same]; exact ends)
      rw [empty] at same
      exact ⟨empty.symm, same⟩
  | blank isBlank _ ih =>
      obtain ⟨g'', rfl, rest, behind⟩ := gap'.eq_blank ends' isBlank same.symm
      obtain ⟨rfl, rfl⟩ := ih rest behind.symm
      exact ⟨rfl, rfl⟩
  | comment inside line _ ih =>
      rw [List.cons_append, List.append_assoc] at same
      obtain ⟨g'', rfl, rest, behind⟩ := gap'.eq_comment ends' inside line same.symm
      obtain ⟨rfl, rfl⟩ := ih rest behind.symm
      exact ⟨rfl, rfl⟩

end Gaps

/-- Pieces with the same tokens that begin the same text are the same. -/
theorem Tokenised.cancel {rest rest' : List Char} {ps ps' : List Piece} (cut : Tokenised rest ps)
    (cut' : Tokenised rest' ps') (tokens : ps.map Piece.token = ps'.map Piece.token)
    (same : ps.flatMap Piece.chars ++ rest = ps'.flatMap Piece.chars ++ rest') : ps = ps' ∧ rest = rest' := by
  induction cut generalizing ps' with
  | nil =>
      cases cut' with
      | nil => exact ⟨rfl, same⟩
      | cons => cases tokens
  | @cons p ps gap form _ _ ih =>
      cases cut' with
      | nil => cases tokens
      | @cons p' ps' gap' _ _ others =>
          obtain ⟨token, others'⟩ := List.cons.inj tokens
          obtain ⟨g, t⟩ := p
          obtain ⟨g', t'⟩ := p'
          obtain rfl : t = t' := token
          simp only [List.flatMap_cons, Piece.chars, List.append_assoc] at same
          obtain ⟨rfl, behind⟩ := gap.cancel gap' (endsGap_token form _) (endsGap_token form _) same
          obtain ⟨rfl, rfl⟩ := ih others others' (List.append_cancel_left behind)
          exact ⟨rfl, rfl⟩

/-- The lexer settles which tokens there are, and these settle the gaps. -/
theorem Tokenisation.Of.unique {d d' : Tokenisation} {cs : List Char} (h : d.Of cs) (h' : d'.Of cs) :
    d = d' := by
  have tokens : d.tokens = d'.tokens := by
    rw [← h.tokens_lexChars, ← h'.tokens_lexChars]
  have same : d.pieces.flatMap Piece.chars ++ (d.last ++ d.left) =
      d'.pieces.flatMap Piece.chars ++ (d'.last ++ d'.left) := by
    rw [← List.append_assoc, ← List.append_assoc]
    exact h.text.symm.trans h'.text
  obtain ⟨pieces, behind⟩ := h.pieces.cancel h'.pieces tokens same
  obtain ⟨last, left⟩ := h.last.cancel h'.last (endsGap_left h.left) (endsGap_left h'.left) behind
  obtain ⟨_, _, _⟩ := d
  obtain ⟨_, _, _⟩ := d'
  cases pieces
  cases last
  cases left
  rfl

theorem Unclosed.ne_nil {cs : List Char} (left : Unclosed cs) : cs ≠ [] := by
  obtain ⟨inside, rfl, -⟩ := left
  exact List.cons_ne_nil _ _

/-- Every text is in exactly one way a sequence of gaps and well-formed tokens, none of which can be made
longer, up to the end or up to a quote that nothing closes. These tokens are what the lexer yields; it fails
exactly when such a quote is left, and says where it stands. -/
theorem lex_tokenises_exactly (source : String) :
    ∃ d : Tokenisation, d.Of source.toList ∧ (∀ d' : Tokenisation, d'.Of source.toList → d' = d) ∧
      (lex source).tokens = d.tokens ∧
      ((lex source).failure = none ↔ d.left = []) ∧
      ∀ e, (lex source).failure = some e ↔
        Unclosed d.left ∧ e = .unclosedString d.passed.length := by
  obtain ⟨d, h⟩ := Tokenisation.exists_of source.toList
  refine ⟨d, h, fun d' h' => h'.unique h, h.tokens_lexChars, ?_⟩
  rcases h.left with complete | left
  · have lexed : lex source = ⟨d.tokens, none⟩ := h.lexChars_complete complete
    refine ⟨by simp [lexed, complete], fun e => ⟨by simp [lexed], ?_⟩⟩
    rintro ⟨left, -⟩
    exact absurd complete left.ne_nil
  · have lexed : lex source = ⟨d.tokens, some (.unclosedString d.passed.length)⟩ := h.lexChars_unclosed left
    simp [lexed, left, left.ne_nil, eq_comm]

example : lex "a;b\n\"c" = ⟨[⟨.symbol, "a"⟩], some (.unclosedString 4)⟩ := by decide +kernel

/-! Tokens with spaces between them -/

/-- The texts of tokens, with one space between each two. -/
def spaced (ts : List Token) : String := String.intercalate " " (ts.map Token.text)

theorem Token.endsBefore_space (t : Token) (cs : List Char) : t.EndsBefore (' ' :: cs) := by
  constructor
  · rintro - c first
    cases first
    decide
  · rintro - c first
    cases first
    decide

/-- Tokens with a space in front of each. -/
def behindSpaces (ts : List Token) : List Piece := ts.map fun t => ⟨[' '], t⟩

theorem Token.endsBefore_behindSpaces (t : Token) (ts : List Token) :
    t.EndsBefore ((behindSpaces ts).flatMap Piece.chars ++ []) := by
  cases ts with
  | nil => exact ⟨nofun, nofun⟩
  | cons u us => exact t.endsBefore_space _

theorem tokenised_behindSpaces {ts : List Token} (forms : ∀ t ∈ ts, t.WellFormed) :
    Tokenised [] (behindSpaces ts) := by
  induction ts with
  | nil => exact .nil
  | cons t ts ih =>
      obtain ⟨form, forms⟩ := List.forall_mem_cons.1 forms
      exact .cons (.blank (by decide) .nil) form (t.endsBefore_behindSpaces ts) (ih forms)

theorem toList_spaced (t : Token) (ts : List Token) :
    (spaced (t :: ts)).toList = t.text.toList ++ (behindSpaces ts).flatMap Piece.chars := by
  induction ts generalizing t with
  | nil => simp [spaced, behindSpaces]
  | cons u us ih =>
      have rest := ih u
      simp only [spaced, List.map_cons, String.toList_intercalate] at rest ⊢
      rw [List.intercalate_cons_cons, rest]
      simp [behindSpaces, Piece.chars]

theorem lex_spaced {ts : List Token} (forms : ∀ t ∈ ts, t.WellFormed) : lex (spaced ts) = ⟨ts, none⟩ := by
  cases ts with
  | nil => rfl
  | cons t ts =>
      obtain ⟨form, forms⟩ := List.forall_mem_cons.1 forms
      have cut : Tokenised [] (⟨[], t⟩ :: behindSpaces ts) :=
        .cons .nil form (t.endsBefore_behindSpaces ts) (tokenised_behindSpaces forms)
      have tokens : (behindSpaces ts).map Piece.token = ts := by
        rw [behindSpaces, List.map_map]
        exact List.map_id ts
      have lexed := cut.scansTo.lexChars_eq
      rw [List.map_cons, tokens] at lexed
      rw [lex, toList_spaced]
      exact lexed

/-- The tokens that are lexed from their own texts with spaces between them are the well-formed ones. So the
tokens of a text that can be lexed can be written in this way, and then they are read as the text is. -/
theorem lexing_inverts_spacing :
    (∀ ts, lex (spaced ts) = ⟨ts, none⟩ ↔ ∀ t ∈ ts, t.WellFormed) ∧
    ∀ source, (lex source).failure = none →
      lex (spaced (lex source).tokens) = lex source ∧
      readAll (spaced (lex source).tokens) = readAll source := by
  constructor
  · intro ts
    refine ⟨fun lexed => ?_, lex_spaced⟩
    have forms := wellFormed_of_mem_lex (spaced ts)
    rw [lexed] at forms
    exact forms
  · intro source clean
    have same : lex (spaced (lex source).tokens) = lex source := by
      rw [lex_spaced (wellFormed_of_mem_lex source), ← clean]
    refine ⟨same, ?_⟩
    rw [readAll, readAll, same]

/-- A comment, a literal that holds a semicolon and ends in a backslash, and tokens without blanks between
them. -/
theorem lexing_inverts_spacing_dense :
    let source := "(,@xs,y'\";\\\\\")z ; (\n"
    let joined := "( ,@ xs , y ' \";\\\\\" ) z"
    (lex source).failure = none ∧ spaced (lex source).tokens = joined ∧ lex joined = lex source ∧
      readAll joined = readAll source := by
  intro source joined
  have clean : (lex source).failure = none := by decide +kernel
  have texts : spaced (lex source).tokens = joined := by decide +kernel
  have inverts := lexing_inverts_spacing.2 source clean
  rw [texts] at inverts
  exact ⟨clean, texts, inverts⟩

end MiniLisp
