import MiniLisp.Proofs.Stream
import MiniLisp.Proofs.Tokenisation

/-!
Input that is not complete is told apart from input that is wrong. Tokens of source text either lead to a
stack of what is open behind them, or one of them is refused. What is refused stays refused, whatever follows,
and what is open can be closed. So the parser asks for more exactly where more would do, and the lexer's
failure behind the tokens comes out exactly when none of them is refused.
-/

namespace MiniLisp

/-- The tokens end where something is open. -/
inductive ReadError.Incomplete : ReadError → Prop
  | missingForm (mark : String) : Incomplete (.missingForm mark)
  | unclosedList : Incomplete .unclosedList

/-- A token of source text is refused. -/
inductive ReadError.Final : ReadError → Prop
  | strayClose : Final .strayClose
  | unknownEscape (letter : Char) (literal : String) : Final (.unknownEscape letter literal)
  | longInteger (digits : Nat) : Final (.longInteger digits)

theorem ReadError.Final.not_incomplete {e : ReadError} (final : e.Final) : ¬ e.Incomplete := by
  intro incomplete
  cases final <;> cases incomplete

def quoteMarks : List String := ["'", "\x60", ",", ",@"]

/-- A token as source text has them: of one of its kinds, and a mark is one that abbreviates a form. -/
def Token.Ordinary (t : Token) : Prop :=
  match t.kind with
  | .quote => t.text ∈ quoteMarks
  | .unquote => t.text ∈ quoteMarks
  | .other _ => False
  | _ => True

theorem Token.WellFormed.ordinary {t : Token} (form : t.WellFormed) : t.Ordinary := by
  obtain ⟨kind, text⟩ := t
  cases kind with
  | quote => rcases form with rfl | rfl <;> simp [Ordinary, quoteMarks]
  | unquote => rcases form with rfl | rfl <;> simp [Ordinary, quoteMarks]
  | other name => exact form.elim
  | _ => trivial

theorem ordinary_of_mem_lex (source : String) : ∀ t ∈ (lex source).tokens, t.Ordinary :=
  fun t member => (wellFormed_of_mem_lex source t member).ordinary

/-! Refused tokens -/

theorem final_of_parseAtom {word : String} {e : ReadError} (h : parseAtom word = .error e) :
    e.Final := by
  unfold parseAtom atomOfChars at h
  split at h
  · cases h
  split at h
  · cases h
  simp only at h
  split at h
  · split at h
    · cases h
    · cases h
      exact .longInteger _
  · split at h <;> cases h

theorem final_of_unescape {literal : String} {cs : List Char} {e : ReadError}
    (h : unescape literal cs = .error e) : e.Final := by
  fun_induction unescape literal cs with
  | case1 => cases h
  | case2 c => cases h
  | case3 d cs letter known ih => exact ih (map_eq_error_iff.1 h)
  | case4 d cs unknown =>
      cases h
      exact .unknownEscape d literal
  | case5 c d cs plain ih => exact ih (map_eq_error_iff.1 h)

theorem final_of_decodeString {literal : String} {e : ReadError}
    (h : decodeString literal = .error e) : e.Final :=
  final_of_unescape (map_eq_error_iff.1 h)

/-- The outcome of a step, if it is an error, is one that stays. -/
def ParseStep.Settled : ParseStep → Prop
  | .more _ => True
  | .form _ => True
  | .wrong e => e.Final
  | .stray _ => False

theorem attach_settled (v : Value) (stack : List Pending) : (attach v stack).Settled := by
  induction stack generalizing v with
  | nil => trivial
  | cons p stack ih =>
      cases p with
      | items read => trivial
      | quoted mark name => exact ih _

theorem attachLeaf_settled {leaf : Except ReadError Value} (h : ∀ e, leaf = .error e → e.Final)
    (stack : List Pending) : (attachLeaf leaf stack).Settled := by
  cases leaf with
  | ok v => exact attach_settled v stack
  | error e => exact h e rfl

theorem openQuote_settled {t : Token} (known : t.text ∈ quoteMarks) (stack : List Pending) :
    (openQuote t stack).Settled := by
  obtain ⟨kind, text⟩ := t
  simp only [quoteMarks, List.mem_cons, List.not_mem_nil, or_false] at known
  rcases known with rfl | rfl | rfl | rfl <;> trivial

theorem closeList_settled (stack : List Pending) : (closeList stack).Settled := by
  unfold closeList
  split
  · exact attach_settled _ _
  · exact .strayClose

theorem parseStep_settled {t : Token} (ordinary : t.Ordinary) (stack : List Pending) :
    (parseStep stack t).Settled := by
  obtain ⟨kind, text⟩ := t
  cases kind with
  | symbol => exact attachLeaf_settled (fun e => final_of_parseAtom) stack
  | string => exact attachLeaf_settled (fun e h => final_of_decodeString (map_eq_error_iff.1 h)) stack
  | quote => exact openQuote_settled ordinary stack
  | unquote => exact openQuote_settled ordinary stack
  | lparen => trivial
  | rparen => exact closeList_settled stack
  | other name => exact ordinary.elim

/-! What tokens lead to -/

/-- These tokens lead from one stack to another, and complete these forms on the way. -/
inductive ReadsTo : List Pending → List Token → List Value → List Pending → Prop
  | done (stack) : ReadsTo stack [] [] stack
  | more {stack stack' t ts vs last} : parseStep stack t = .more stack' → ReadsTo stack' ts vs last →
      ReadsTo stack (t :: ts) vs last
  | form {stack t ts v vs last} : parseStep stack t = .form v → ReadsTo [] ts vs last →
      ReadsTo stack (t :: ts) (v :: vs) last

/-- What follows the tokens is read behind what they have led to. -/
theorem ReadsTo.parseForms_append {stack last : List Pending} {ts : List Token} {vs : List Value}
    (reads : ReadsTo stack ts vs last) (failure : Option ReadError) (us : List Token) :
    parseForms failure stack (ts ++ us) = (parseForms failure last us).map (vs ++ ·) := by
  induction reads with
  | done stack => cases parsed : parseForms failure stack us <;> simp [parsed, Except.map]
  | more step _ ih =>
      rw [List.cons_append, parseForms_cons, step]
      exact ih
  | @form stack t ts v vs last step _ ih =>
      rw [List.cons_append, parseForms_cons, step]
      simp only [formsAfter, ih]
      cases parseForms failure last us <;> rfl

theorem ReadsTo.parseForms_eq {stack last : List Pending} {ts : List Token} {vs : List Value}
    (reads : ReadsTo stack ts vs last) (failure : Option ReadError) :
    parseForms failure stack ts = (parseForms failure last []).map (vs ++ ·) := by
  rw [← reads.parseForms_append, List.append_nil]

/-- One of the tokens is refused, whatever follows them. -/
structure Refused (stack : List Pending) (ts : List Token) (e : ReadError) : Prop where
  final : e.Final
  stays : ∀ failure us, parseForms failure stack (ts ++ us) = .error e

namespace Refused

variable {stack : List Pending} {t : Token} {ts : List Token} {e : ReadError}

theorem alone (refused : Refused stack ts e) (failure : Option ReadError) :
    parseForms failure stack ts = .error e := by
  have whole := refused.stays failure []
  rw [List.append_nil] at whole
  exact whole

theorem here (step : parseStep stack t = .wrong e) (final : e.Final) : Refused stack (t :: ts) e := by
  refine ⟨final, fun failure us => ?_⟩
  rw [List.cons_append, parseForms_cons, step]
  rfl

theorem behind_more {stack' : List Pending} (step : parseStep stack t = .more stack')
    (refused : Refused stack' ts e) : Refused stack (t :: ts) e := by
  refine ⟨refused.final, fun failure us => ?_⟩
  rw [List.cons_append, parseForms_cons, step]
  exact refused.stays failure us

theorem behind_form {v : Value} (step : parseStep stack t = .form v) (refused : Refused [] ts e) :
    Refused stack (t :: ts) e := by
  refine ⟨refused.final, fun failure us => ?_⟩
  rw [List.cons_append, parseForms_cons, step]
  simp only [formsAfter, refused.stays]
  rfl

end Refused

/-- Either the tokens lead to what is open behind them, or one of them is refused. -/
theorem readsTo_or_refused {ts : List Token} (ordinary : ∀ t ∈ ts, t.Ordinary) (stack : List Pending) :
    (∃ vs last, ReadsTo stack ts vs last) ∨ ∃ e, Refused stack ts e := by
  induction ts generalizing stack with
  | nil => exact .inl ⟨[], stack, .done stack⟩
  | cons t ts ih =>
      obtain ⟨first, rest⟩ := List.forall_mem_cons.1 ordinary
      have settled := parseStep_settled first stack
      cases step : parseStep stack t with
      | more stack' =>
          rcases ih rest stack' with ⟨vs, last, reads⟩ | ⟨e, refused⟩
          · exact .inl ⟨vs, last, .more step reads⟩
          · exact .inr ⟨e, refused.behind_more step⟩
      | form v =>
          rcases ih rest [] with ⟨vs, last, reads⟩ | ⟨e, refused⟩
          · exact .inl ⟨v :: vs, last, .form step reads⟩
          · exact .inr ⟨e, refused.behind_form step⟩
      | wrong e =>
          rw [step] at settled
          exact .inr ⟨e, .here step settled⟩
      | stray mark =>
          rw [step] at settled
          exact settled.elim

/-- A failure behind the tokens comes before what is open there. -/
theorem parseForms_nil_of_failure (e : ReadError) (stack : List Pending) :
    parseForms (some e) stack [] = .error e := by
  cases stack <;> rfl

theorem missing_incomplete (p : Pending) (stack : List Pending) : (missing (p :: stack)).Incomplete := by
  cases p with
  | items read => exact .unclosedList
  | quoted mark name => exact .missingForm mark

/-- Tokens that are not refused are accepted, or something is open behind them. -/
theorem ReadsTo.accepted_or_incomplete {stack last : List Pending} {ts : List Token} {vs : List Value}
    (reads : ReadsTo stack ts vs last) :
    parseForms none stack ts = .ok vs ∨ ∃ e : ReadError, e.Incomplete ∧ parseForms none stack ts = .error e := by
  rw [reads.parseForms_eq]
  cases last with
  | nil => exact .inl (by simp [parseForms, Except.map])
  | cons p rest => exact .inr ⟨_, missing_incomplete p rest, rfl⟩

/-! What is open can be closed. -/

/-- One closing parenthesis for each open list. -/
def closing : List Pending → List Token
  | [] => []
  | .items _ :: stack => ⟨.rparen, ")"⟩ :: closing stack
  | .quoted _ _ :: stack => closing stack

/-- A word for the form that a mark waits for, and then the closing parentheses. -/
def completion : List Pending → List Token
  | .quoted mark name :: stack => ⟨.symbol, "x"⟩ :: closing (.quoted mark name :: stack)
  | stack => closing stack

/-- A closing parenthesis gives the list that was open to what is open around it. -/
theorem parseForms_closing_items (read : List Value) (stack : List Pending) :
    parseForms none (.items read :: stack) (closing (.items read :: stack)) =
      formsAfter none (attach (.list read.reverse) stack) (closing stack) := by
  rw [closing, parseForms_cons]
  rfl

theorem formsAfter_attach_closing (v : Value) (stack : List Pending) :
    ∃ u, formsAfter none (attach v stack) (closing stack) = .ok [u] := by
  induction stack generalizing v with
  | nil => exact ⟨v, rfl⟩
  | cons p stack ih =>
      cases p with
      | items read =>
          obtain ⟨u, closed⟩ := ih (.list (v :: read).reverse)
          exact ⟨u, (parseForms_closing_items (v :: read) stack).trans closed⟩
      | quoted mark name => exact ih (.list [.sym name, v])

theorem parseForms_completion (stack : List Pending) :
    ∃ vs, parseForms none stack (completion stack) = .ok vs := by
  cases stack with
  | nil => exact ⟨[], rfl⟩
  | cons p stack =>
      cases p with
      | items read =>
          obtain ⟨u, closed⟩ := formsAfter_attach_closing (.list read.reverse) stack
          exact ⟨[u], (parseForms_closing_items read stack).trans closed⟩
      | quoted mark name =>
          obtain ⟨u, closed⟩ := formsAfter_attach_closing (.sym "x") (.quoted mark name :: stack)
          have word : parseAtom "x" = .ok (.sym "x") := by rfl
          refine ⟨[u], ?_⟩
          rw [completion, parseForms_cons, ← closed]
          simp only [parseStep, word, attachLeaf]

theorem ordinary_of_mem_closing {stack : List Pending} : ∀ t ∈ closing stack, t.Ordinary := by
  induction stack with
  | nil => nofun
  | cons p stack ih =>
      cases p with
      | items read => exact List.forall_mem_cons.2 ⟨trivial, ih⟩
      | quoted mark name => exact ih

theorem ordinary_of_mem_completion {stack : List Pending} : ∀ t ∈ completion stack, t.Ordinary := by
  unfold completion
  split
  · exact List.forall_mem_cons.2 ⟨trivial, ordinary_of_mem_closing⟩
  · exact ordinary_of_mem_closing

/-! A failure of the lexer behind the tokens -/

theorem exists_position_of_failure {source : String} {e : ReadError} (fails : (lex source).failure = some e) :
    ∃ position, e = .unclosedString position := by
  obtain ⟨d, h⟩ := Tokenisation.exists_of source.toList
  rcases h.left with complete | left
  · have lexed : lex source = ⟨d.tokens, none⟩ := h.lexChars_complete complete
    rw [lexed] at fails
    cases fails
  · have lexed : lex source = ⟨d.tokens, some (.unclosedString d.passed.length)⟩ := h.lexChars_unclosed left
    rw [lexed] at fails
    cases fails
    exact ⟨_, rfl⟩

/-- Where the lexer fails, its failure is what reading comes to, unless a token in front of it is refused; then
that is the error. The reader that takes the tokens one by one comes to the same. -/
theorem lexer_failure_comes_last {source : String} {e : ReadError} (fails : (lex source).failure = some e) :
    let tokens := (lex source).tokens
    (∃ position, e = .unclosedString position) ∧
    ((∃ err : ReadError, err.Final ∧ parseForms none [] tokens = .error err ∧ readAll source = .error err) ∨
      ((∃ vs, parseForms none [] tokens = .ok vs) ∨
          ∃ err : ReadError, err.Incomplete ∧ parseForms none [] tokens = .error err) ∧
        readAll source = .error e) ∧
    ∀ err, ((FormReader.ofStream (.ofLexed (lex source))).Fails err ↔ readAll source = .error err) ∧
      ((FormReader.ofStream (.ofTokens tokens)).Fails err ↔ parseForms none [] tokens = .error err) := by
  intro tokens
  refine ⟨exists_position_of_failure fails, ?_, fun err => ⟨?_, ?_⟩⟩
  · rw [readAll, fails]
    rcases readsTo_or_refused (ordinary_of_mem_lex source) [] with ⟨vs, last, reads⟩ | ⟨err, refused⟩
    · refine .inr ⟨?_, ?_⟩
      · rcases reads.accepted_or_incomplete with accepted | incomplete
        · exact .inl ⟨vs, accepted⟩
        · exact .inr incomplete
      · rw [reads.parseForms_eq, parseForms_nil_of_failure]
        rfl
    · exact .inl ⟨err, refused.final, refused.alone none, refused.alone (some e)⟩
  · exact FormReader.fails_iff_parseForms _ err
  · exact FormReader.fails_iff_parseForms _ err

/-- Both texts end in a literal that does not close. In front of it stands a closing parenthesis too many in the
first, an open list and a mark without its form in the second. -/
theorem lexer_failure_comes_last_twice :
    let refused := "(a))\"b"
    let incomplete := "(a) (b '\"c"
    ((lex refused).failure = some (.unclosedString 4) ∧ readAll refused = .error .strayClose) ∧
      (lex incomplete).failure = some (.unclosedString 8) ∧
      parseForms none [] (lex incomplete).tokens = .error (.missingForm "'") ∧
      readAll incomplete = .error (.unclosedString 8) := by
  have fails : (lex "(a))\"b").failure = some (.unclosedString 4) := by decide +kernel
  have alone : parseForms none [] (lex "(a))\"b").tokens = .error .strayClose := by rfl
  have fails' : (lex "(a) (b '\"c").failure = some (.unclosedString 8) := by decide +kernel
  have alone' : parseForms none [] (lex "(a) (b '\"c").tokens = .error (.missingForm "'") := by rfl
  obtain ⟨-, ⟨err, -, same, read⟩ | ⟨⟨vs, accepted⟩ | ⟨err, incomplete, same⟩, -⟩, -⟩ :=
    lexer_failure_comes_last fails
  · cases alone.symm.trans same
    obtain ⟨-, ⟨err, final, same, -⟩ | ⟨-, read'⟩, -⟩ := lexer_failure_comes_last fails'
    · cases alone'.symm.trans same
      cases final
    · exact ⟨⟨fails, read⟩, fails', alone', read'⟩
  · cases alone.symm.trans accepted
  · cases alone.symm.trans same
    cases incomplete

/-! More tokens -/

/-- Tokens that lead to something open are accepted when it is closed. -/
theorem ReadsTo.exists_completed {last : List Pending} {ts : List Token} {vs : List Value}
    (reads : ReadsTo [] ts vs last) :
    ∃ us, (∀ u ∈ us, u.Ordinary) ∧ ∃ vs, parseForms none [] (ts ++ us) = .ok vs := by
  obtain ⟨more, completed⟩ := parseForms_completion last
  refine ⟨completion last, fun u => ordinary_of_mem_completion u, vs ++ more, ?_⟩
  rw [reads.parseForms_append, completed]
  rfl

/-- The parser asks for more exactly where more would do: where it does not accept the tokens, and accepts
some that begin with them. Any other error stays, whatever follows. The reader that takes the tokens one by one
fails with the same errors. -/
theorem parser_asks_for_more_iff {ts : List Token} (ordinary : ∀ t ∈ ts, t.Ordinary) :
    ((∃ e : ReadError, e.Incomplete ∧ parseForms none [] ts = .error e) ↔
      (∀ vs, parseForms none [] ts ≠ .ok vs) ∧
        ∃ us, us ≠ [] ∧ (∀ u ∈ us, u.Ordinary) ∧ ∃ vs, parseForms none [] (ts ++ us) = .ok vs) ∧
    (∀ e, parseForms none [] ts = .error e → ¬ e.Incomplete →
      e.Final ∧ ∀ us, parseForms none [] (ts ++ us) = .error e) ∧
    ∀ us e, (FormReader.ofStream (.ofTokens (ts ++ us))).Fails e ↔ parseForms none [] (ts ++ us) = .error e := by
  refine ⟨?_, ?_, fun us e => FormReader.fails_iff_parseForms _ e⟩
  · constructor
    · rintro ⟨e, incomplete, fails⟩
      have not_accepted : ∀ vs, parseForms none [] ts ≠ .ok vs := by
        intro vs accepted
        cases fails.symm.trans accepted
      refine ⟨not_accepted, ?_⟩
      rcases readsTo_or_refused ordinary [] with ⟨vs, last, reads⟩ | ⟨err, refused⟩
      · obtain ⟨us, more, vs, accepted⟩ := reads.exists_completed
        refine ⟨us, ?_, more, vs, accepted⟩
        rintro rfl
        rw [List.append_nil] at accepted
        exact not_accepted vs accepted
      · cases fails.symm.trans (refused.alone none)
        exact absurd incomplete refused.final.not_incomplete
    · rintro ⟨not_accepted, us, -, -, vs, accepted⟩
      rcases readsTo_or_refused ordinary [] with ⟨forms, last, reads⟩ | ⟨err, refused⟩
      · rcases reads.accepted_or_incomplete with accepted | incomplete
        · exact absurd accepted (not_accepted forms)
        · exact incomplete
      · cases (refused.stays none us).symm.trans accepted
  · intro e fails other
    rcases readsTo_or_refused ordinary [] with ⟨vs, last, reads⟩ | ⟨err, refused⟩
    · rcases reads.accepted_or_incomplete with accepted | ⟨err, incomplete, same⟩
      · cases fails.symm.trans accepted
      · cases fails.symm.trans same
        exact absurd incomplete other
    · cases fails.symm.trans (refused.alone none)
      exact ⟨refused.final, refused.stays none⟩

/-- An open list, in which a mark waits for its form, can be completed; a closing parenthesis too many cannot. -/
theorem parser_asks_for_more_open :
    let incomplete : List Token := [⟨.lparen, "("⟩, ⟨.symbol, "a"⟩, ⟨.quote, "'"⟩]
    let wrong : List Token := [⟨.symbol, "a"⟩, ⟨.rparen, ")"⟩]
    ((∀ t ∈ incomplete, t.Ordinary) ∧ parseForms none [] incomplete = .error (.missingForm "'") ∧
      ∃ us, us ≠ [] ∧ ∃ vs, parseForms none [] (incomplete ++ us) = .ok vs) ∧
    (∀ t ∈ wrong, t.Ordinary) ∧ ∀ us, parseForms none [] (wrong ++ us) = .error .strayClose := by
  intro incomplete wrong
  have ordinary : ∀ t ∈ incomplete, t.Ordinary := by simp [incomplete, Token.Ordinary, quoteMarks]
  have ordinary' : ∀ t ∈ wrong, t.Ordinary := by simp [wrong, Token.Ordinary]
  have asks : parseForms none [] incomplete = .error (.missingForm "'") := by rfl
  have refuses : parseForms none [] wrong = .error .strayClose := by rfl
  obtain ⟨-, us, more, -, accepted⟩ := (parser_asks_for_more_iff ordinary).1.1 ⟨_, .missingForm "'", asks⟩
  obtain ⟨-, stays⟩ := (parser_asks_for_more_iff ordinary').2.1 .strayClose refuses nofun
  exact ⟨⟨ordinary, asks, us, more, accepted⟩, ordinary', stays⟩

end MiniLisp
