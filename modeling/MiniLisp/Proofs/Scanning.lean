import MiniLisp.Source.Lexer
import MiniLisp.Proofs.Word

/-!
The lexer, token by token. A run of characters scans to its tokens in front of what follows, at every
position; such runs can be put one after the other. Everything that the lexer produces is a
well-formed token of its kind.
-/

namespace MiniLisp

/-- What may stand between the quotes of a string literal: a backslash goes with the character
behind it, and no other quote stands there. -/
inductive LiteralBody : List Char → Prop
  | nil : LiteralBody []
  | plain {c cs} : c ≠ '"' → c ≠ '\\' → LiteralBody cs → LiteralBody (c :: cs)
  | escape {cs} (c : Char) : LiteralBody cs → LiteralBody ('\\' :: c :: cs)

theorem LiteralBody.append {cs ds : List Char} (hc : LiteralBody cs) (hd : LiteralBody ds) :
    LiteralBody (cs ++ ds) := by
  induction hc with
  | nil => exact hd
  | plain quote backslash _ ih => exact .plain quote backslash ih
  | escape c _ ih => exact .escape c ih

/-- The texts that tokens of source text can have. -/
def Token.WellFormed (t : Token) : Prop :=
  match t.kind with
  | .quote => t.text = "'" ∨ t.text = "\x60"
  | .unquote => t.text = "," ∨ t.text = ",@"
  | .lparen => t.text = "("
  | .rparen => t.text = ")"
  | .string => ∃ body, LiteralBody body ∧ t.text.toList = '"' :: (body ++ ['"'])
  | .symbol => IsWord t.text.toList
  | .other _ => False

/-- No character of a word stands in front. -/
def EndsWord (cs : List Char) : Prop := ∀ c ∈ cs.head?, isWordChar c = false

def Lexed.prepend (ts : List Token) (l : Lexed) : Lexed := ⟨ts ++ l.tokens, l.failure⟩

@[simp] theorem Lexed.prepend_nil (l : Lexed) : l.prepend [] = l := rfl

@[simp] theorem Lexed.prepend_prepend (ts us : List Token) (l : Lexed) :
    (l.prepend us).prepend ts = l.prepend (ts ++ us) := by
  simp [prepend]

namespace ScanState

/-! The steps of the scanner -/

theorem scan_cons (position : Nat) (state : ScanState) (c : Char) (cs : List Char) :
    scan position state (c :: cs) =
      (scan (position + 1) (state.step position c).2 cs).prepend (state.step position c).1 := rfl

theorem start_of_isWordChar {c : Char} (h : isWordChar c = true) (position : Nat) :
    start position c = ([], .word [c]) := by
  have ne (d : Char) (other : isWordChar d = false) : c ≠ d := by
    rintro rfl
    rw [h] at other
    cases other
  have blank : Text.isBlank c = false := by
    simp only [isWordChar, Bool.and_eq_true, Bool.not_eq_true'] at h
    exact h.1
  simp [start, blank, ne ';' (by decide), ne '\'' (by decide), ne '\x60' (by decide),
    ne ',' (by decide), ne '(' (by decide), ne ')' (by decide), ne '"' (by decide)]

/-- A word ends in front of a character that is not part of it, which then begins something new. -/
theorem scan_word_end {cs : List Char} (h : EndsWord cs) (position : Nat) (seen : List Char) :
    scan position (.word seen) cs = (scan position .between cs).prepend [wordToken seen] := by
  cases cs with
  | nil => rfl
  | cons c cs =>
      have other := h c rfl
      simp [scan_cons, step, other, Lexed.prepend]

theorem scan_word {cs : List Char} (h : ∀ c ∈ cs, isWordChar c = true) (position : Nat)
    (seen rest : List Char) :
    scan position (.word seen) (cs ++ rest) =
      scan (position + cs.length) (.word (cs.reverse ++ seen)) rest := by
  induction cs generalizing position seen with
  | nil => rfl
  | cons c cs ih =>
      have char := h c List.mem_cons_self
      rw [List.cons_append, scan_cons]
      simp only [step, char, if_true]
      rw [ih fun d hd => h d (List.mem_cons_of_mem c hd)]
      simp [Nat.add_assoc, Nat.add_comm 1]

theorem scan_literal {body : List Char} (h : LiteralBody body) (position opened : Nat)
    (seen rest : List Char) :
    scan position (.literal opened seen) (body ++ rest) =
      scan (position + body.length) (.literal opened (body.reverse ++ seen)) rest := by
  induction h generalizing position seen with
  | nil => rfl
  | plain quote backslash _ ih =>
      rw [List.cons_append, scan_cons]
      simp only [step, quote, backslash, if_false]
      rw [ih]
      simp [Nat.add_assoc, Nat.add_comm 1]
  | escape c _ ih =>
      rw [List.cons_append, List.cons_append, scan_cons, scan_cons]
      simp only [step, if_neg (show ¬ ('\\' : Char) = '"' by decide), if_true]
      rw [ih]
      simp [Nat.add_assoc, Nat.add_comm 2]

end ScanState

open ScanState

/-- In front of `rest` these characters are exactly these tokens. -/
def ScansTo (cs : List Char) (ts : List Token) (rest : List Char) : Prop :=
  ∀ position, scan position .between (cs ++ rest) =
    (scan (position + cs.length) .between rest).prepend ts

namespace ScansTo

theorem nil (rest : List Char) : ScansTo [] [] rest := fun _ => rfl

theorem append {cs ds rest : List Char} {ts us : List Token} (first : ScansTo cs ts (ds ++ rest))
    (second : ScansTo ds us rest) : ScansTo (cs ++ ds) (ts ++ us) rest := by
  intro position
  rw [List.append_assoc, first, second]
  simp [Nat.add_assoc]

theorem blank {c : Char} (h : Text.isBlank c = true) (rest : List Char) : ScansTo [c] [] rest := by
  intro position
  simp [scan_cons, step, start, h]

theorem lparen (rest : List Char) : ScansTo ['('] [⟨.lparen, "("⟩] rest := fun _ => rfl

theorem rparen (rest : List Char) : ScansTo [')'] [⟨.rparen, ")"⟩] rest := fun _ => rfl

theorem word {cs rest : List Char} (h : IsWord cs) (ends : EndsWord rest) :
    ScansTo cs [⟨.symbol, String.ofList cs⟩] rest := by
  intro position
  obtain ⟨c, cs', rfl⟩ := List.exists_cons_of_ne_nil h.ne_nil
  have tail : ∀ d ∈ cs', isWordChar d = true := fun d hd => h.chars d (List.mem_cons_of_mem c hd)
  rw [List.cons_append, scan_cons]
  simp only [step, start_of_isWordChar (h.chars c List.mem_cons_self)]
  rw [scan_word tail, scan_word_end ends]
  simp [wordToken, Nat.add_assoc, Nat.add_comm 1]

theorem literal {body : List Char} (h : LiteralBody body) (rest : List Char) :
    ScansTo ('"' :: (body ++ ['"'])) [⟨.string, String.ofList ('"' :: (body ++ ['"']))⟩] rest := by
  intro position
  have opening : start position '"' = ([], .literal position ['"']) := rfl
  rw [List.cons_append, List.append_assoc, scan_cons]
  simp only [step, opening]
  rw [scan_literal h, List.singleton_append, scan_cons]
  simp [step, literalToken, Nat.add_assoc, Nat.add_comm 1]

/-- A whole text that scans to tokens is lexed without failure. -/
theorem lexChars_eq {cs : List Char} {ts : List Token} (h : ScansTo cs ts []) :
    lexChars cs = ⟨ts, none⟩ := by
  have all := h 0
  rw [List.append_nil] at all
  rw [lexChars, all]
  simp [Lexed.prepend, scan, finish]

end ScansTo

namespace ScanState

/-! What the lexer produces -/

/-- The characters seen so far are the beginning of a token. -/
def Valid : ScanState → Prop
  | .between => True
  | .comment => True
  | .comma => True
  | .word seen => IsWord seen.reverse
  | .literal _ seen => ∃ body, LiteralBody body ∧ seen.reverse = '"' :: body
  | .escape _ seen => ∃ body, LiteralBody body ∧ seen.reverse = '"' :: (body ++ ['\\'])

/-- Completed tokens are well-formed, and what is not completed may still become one. -/
def Produces (next : List Token × ScanState) : Prop :=
  (∀ t ∈ next.1, t.WellFormed) ∧ next.2.Valid

theorem isWordChar_of_not_start {c : Char} (blank : Text.isBlank c = false)
    (other : ∀ d ∈ delimiters, c ≠ d) : isWordChar c = true := by
  have absent : c ∉ delimiters := fun mem => other c mem rfl
  simp [isWordChar, blank, absent]

theorem produces_start (position : Nat) (c : Char) : Produces (start position c) := by
  unfold start
  split
  · simp [Produces, Valid]
  split
  · simp [Produces, Valid]
  split
  · simp [Produces, Valid, Token.WellFormed]
  split
  · simp [Produces, Valid, Token.WellFormed]
  split
  · simp [Produces, Valid]
  split
  · simp [Produces, Valid, Token.WellFormed]
  split
  · simp [Produces, Valid, Token.WellFormed]
  split
  · next quote => exact ⟨by simp, [], .nil, by simp [quote]⟩
  · have char : isWordChar c = true := by
      refine isWordChar_of_not_start (by simp_all) ?_
      simp_all [delimiters]
    exact ⟨by simp, by simp, by simpa using char⟩

theorem produces_cons {t : Token} (h : t.WellFormed) {next : List Token × ScanState}
    (later : Produces next) : Produces (t :: next.1, next.2) := by
  refine ⟨?_, later.2⟩
  intro u hu
  rcases List.mem_cons.1 hu with rfl | mem
  · exact h
  · exact later.1 u mem

theorem wellFormed_wordToken {seen : List Char} (h : IsWord seen.reverse) :
    (wordToken seen).WellFormed := by
  simpa [Token.WellFormed, wordToken] using h

theorem produces_step (position : Nat) (c : Char) {state : ScanState} (h : state.Valid) :
    Produces (state.step position c) := by
  cases state with
  | between => exact produces_start position c
  | comment =>
      simp only [step]
      split <;> simp [Produces, Valid]
  | comma =>
      simp only [step]
      split
      · simp [Produces, Valid, Token.WellFormed]
      · exact produces_cons (by simp [Token.WellFormed, commaToken]) (produces_start position c)
  | word seen =>
      simp only [step]
      split
      · next char =>
          refine ⟨by simp, by simp, ?_⟩
          intro d hd
          simp only [List.reverse_cons, List.mem_append, List.mem_singleton] at hd
          rcases hd with old | rfl
          · exact h.chars d old
          · exact char
      · exact produces_cons (wellFormed_wordToken h) (produces_start position c)
  | literal opened seen =>
      obtain ⟨body, hb, eq⟩ := h
      simp only [step]
      split
      · next quote =>
          refine ⟨?_, trivial⟩
          intro t ht
          obtain rfl := List.mem_singleton.1 ht
          exact ⟨body, hb, by simp [literalToken, eq, quote]⟩
      split
      · next backslash => exact ⟨by simp, body, hb, by simp [eq, backslash]⟩
      · next quote backslash =>
          exact ⟨by simp, body ++ [c], hb.append (.plain quote backslash .nil), by simp [eq]⟩
  | escape opened seen =>
      obtain ⟨body, hb, eq⟩ := h
      exact ⟨by simp [step], body ++ ['\\', c], hb.append (.escape c .nil), by simp [eq]⟩

theorem wellFormed_of_mem_scan {state : ScanState} (h : state.Valid) (position : Nat) (cs : List Char) :
    ∀ t ∈ (scan position state cs).tokens, t.WellFormed := by
  induction cs generalizing state position with
  | nil =>
      intro t ht
      cases state with
      | comma =>
          obtain rfl := List.mem_singleton.1 ht
          exact Or.inl rfl
      | word seen =>
          obtain rfl := List.mem_singleton.1 ht
          exact wellFormed_wordToken h
      | _ => simp [scan, finish] at ht
  | cons c cs ih =>
      intro t ht
      have next := produces_step position c h
      rw [scan_cons] at ht
      rcases List.mem_append.1 ht with now | later
      · exact next.1 t now
      · exact ih next.2 (position + 1) t later

end ScanState

theorem wellFormed_of_mem_lex (source : String) : ∀ t ∈ (lex source).tokens, t.WellFormed :=
  wellFormed_of_mem_scan (show ScanState.between.Valid from trivial) 0 source.toList

end MiniLisp
