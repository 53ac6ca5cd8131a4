import MiniLisp.Interpreter
import MiniLisp.Proofs.Completion
import MiniLisp.Proofs.Grammar
import MiniLisp.Proofs.Outcome
import MiniLisp.Proofs.Scanning

/-!
Texts joined by a line break. A line break ends a word, a comma and a comment, so behind a text without
an open literal the lexer is back at its start; and behind complete forms so is the parser. Running the
joined text is then running one text and, unless it fails, the other. A text is read as a whole before
any of it runs.
-/

namespace MiniLisp

/-! Positions, which show up in the failure only -/

def ReadError.shift (k : Nat) : ReadError → ReadError
  | .unclosedString position => .unclosedString (position + k)
  | e => e

def Lexed.shift (k : Nat) (l : Lexed) : Lexed := ⟨l.tokens, l.failure.map (·.shift k)⟩

namespace ScanState

def shift (k : Nat) : ScanState → ScanState
  | .literal opened seen => .literal (opened + k) seen
  | .escape opened seen => .escape (opened + k) seen
  | state => state

theorem start_shift (position k : Nat) (c : Char) :
    start (position + k) c = ((start position c).1, (start position c).2.shift k) := by
  unfold start
  repeat' split
  all_goals rfl

theorem step_shift (position k : Nat) (c : Char) (state : ScanState) :
    (state.shift k).step (position + k) c =
      ((state.step position c).1, (state.step position c).2.shift k) := by
  cases state with
  | between => exact start_shift position k c
  | comment =>
      simp only [shift, step]
      split <;> rfl
  | comma =>
      simp only [shift, step, start_shift]
      split <;> rfl
  | word seen =>
      simp only [shift, step, start_shift]
      split <;> rfl
  | literal opened seen =>
      simp only [shift, step]
      split
      · rfl
      · split <;> rfl
  | escape opened seen => rfl

theorem scan_shift (k position : Nat) (state : ScanState) (cs : List Char) :
    scan (position + k) (state.shift k) cs = (scan position state cs).shift k := by
  induction cs generalizing position state with
  | nil => cases state <;> rfl
  | cons c cs ih =>
      rw [scan_cons, scan_cons, step_shift, Nat.add_right_comm, ih]
      rfl

/-- Where a text can end, a line break ends what has begun. -/
theorem step_newline {state : ScanState} (clean : state.finish.failure = none) (position : Nat) :
    state.step position '\n' = (state.finish.tokens, .between) := by
  cases state with
  | between => rfl
  | comment => rfl
  | comma => rfl
  | word seen => rfl
  | literal opened seen => cases clean
  | escape opened seen => cases clean

/-- The seam: the scan of the first text, and a scan of the second from the start. -/
theorem scan_append_newline {state : ScanState} {position : Nat} {cs : List Char}
    (clean : (scan position state cs).failure = none) (ds : List Char) :
    scan position state (cs ++ '\n' :: ds) =
      (scan (position + cs.length + 1) .between ds).prepend (scan position state cs).tokens := by
  induction cs generalizing position state with
  | nil =>
      rw [List.nil_append, scan_cons, step_newline clean]
      rfl
  | cons c cs ih =>
      rw [scan_cons] at clean ⊢
      rw [List.cons_append, scan_cons, ih clean]
      simp only [Lexed.prepend_prepend, List.length_cons]
      rw [Nat.add_assoc position 1, Nat.add_comm 1]
      rfl

end ScanState

theorem lexChars_append_newline {cs : List Char} (clean : (lexChars cs).failure = none)
    (ds : List Char) :
    lexChars (cs ++ '\n' :: ds) = ((lexChars ds).shift (cs.length + 1)).prepend (lexChars cs).tokens := by
  have seam := ScanState.scan_append_newline clean ds
  have moved := ScanState.scan_shift (cs.length + 1) 0 .between ds
  rw [lexChars, seam, Nat.add_assoc]
  exact congrArg _ moved

theorem lex_append_newline {a : String} (clean : (lex a).failure = none) (b : String) :
    lex (a ++ "\n" ++ b) = ((lex b).shift (a.length + 1)).prepend (lex a).tokens := by
  have chars : (a ++ "\n" ++ b).toList = a.toList ++ '\n' :: b.toList := by simp
  rw [lex, chars, lexChars_append_newline clean, String.length_toList]
  rfl

/-! Forms behind forms -/

theorem parseForms_append {ts : List Token} {vs : List Value} (first : parseForms none [] ts = .ok vs)
    (failure : Option ReadError) (us : List Token) :
    parseForms failure [] (ts ++ us) = (parseForms failure [] us).map (vs ++ ·) := by
  obtain ⟨ds, rfl, trees⟩ := (parseForms_eq_ok_iff ts vs).1 first
  clear first
  induction ds generalizing vs with
  | nil =>
      cases trees
      cases parsed : parseForms failure [] us <;> simp [Derivation.allTokens, parsed, Except.map]
  | cons d ds ih =>
      obtain ⟨v, rest, hv, hrest, rfl⟩ := Derivation.trees_cons_eq_ok_iff.1 trees
      rw [Derivation.allTokens, List.append_assoc, parseForms_tokens failure hv, ih hrest]
      cases parseForms failure [] us <;> rfl

/-- Only the lexer's failure knows its position; the errors of the parser do not. -/
theorem parseForms_shift {ts : List Token} (ordinary : ∀ t ∈ ts, t.Ordinary) (failure : Option ReadError)
    (k : Nat) :
    parseForms (failure.map (·.shift k)) [] ts = (parseForms failure [] ts).mapError (·.shift k) := by
  rcases readsTo_or_refused ordinary [] with ⟨vs, last, reads⟩ | ⟨e, refused⟩
  · rw [reads.parseForms_eq, reads.parseForms_eq]
    cases failure with
    | some e => rw [Option.map_some, parseForms_nil_of_failure, parseForms_nil_of_failure]; rfl
    | none =>
        cases last with
        | nil => rfl
        | cons p rest => cases p <;> rfl
  · rw [refused.alone, refused.alone]
    cases refused.final <;> rfl

/-- A text behind complete forms is read as it is alone. -/
theorem readAll_append_newline_eq {a : String} {fs : List Value} (first : readAll a = .ok fs) (b : String) :
    readAll (a ++ "\n" ++ b) = ((readAll b).mapError (·.shift (a.length + 1))).map (fs ++ ·) := by
  have clean : (lex a).failure = none := parseForms_failure_none first
  have alone : parseForms none [] (lex a).tokens = .ok fs := by
    rw [← clean]
    exact first
  rw [readAll, lex_append_newline clean]
  simp only [Lexed.prepend, Lexed.shift]
  rw [parseForms_append alone, parseForms_shift (ordinary_of_mem_lex b)]
  rfl

/-- Behind a text that can be read, a text on a new line is read as it is alone: its forms follow, or its error is
the error, at a position that counts the characters in front of it. -/
theorem readAll_lines_append {a : String} {fs : List Value} (first : readAll a = .ok fs) (b : String) :
    readAll (a ++ "\n" ++ b) =
      match readAll b with
      | .ok gs => .ok (fs ++ gs)
      | .error (.unclosedString position) => .error (.unclosedString (position + (a.length + 1)))
      | .error e => .error e := by
  rw [readAll_append_newline_eq first]
  cases readAll b with
  | ok gs => rfl
  | error e => cases e <;> rfl

/-- The first text ends in a comment. Behind it stand a splice mark at the beginning of a line, a closing
parenthesis too many, and a literal that does not close. -/
theorem readAll_lines_append_comment :
    let a := "(f x) ; one"
    readAll a = .ok [.list [.sym "f", .sym "x"]] ∧
      readAll (a ++ "\n" ++ ",@ y z") =
        .ok [.list [.sym "f", .sym "x"], .list [.sym "splice-unquote", .sym "y"], .sym "z"] ∧
      readAll (a ++ "\n" ++ "y ) \"z") = .error .strayClose ∧
      readAll (a ++ "\n" ++ "y \"z") = .error (.unclosedString 14) := by
  intro a
  have readA : readAll "(f x) ; one" = .ok [.list [.sym "f", .sym "x"]] := by rfl
  have forms : readAll ",@ y z" = .ok [.list [.sym "splice-unquote", .sym "y"], .sym "z"] := by rfl
  have close : readAll "y ) \"z" = .error .strayClose := by rfl
  have open_ : readAll "y \"z" = .error (.unclosedString 2) := by rfl
  refine ⟨readA, ?_, ?_, ?_⟩
  · rw [readAll_lines_append readA, forms]
    rfl
  · rw [readAll_lines_append readA, close]
  · rw [readAll_lines_append readA, open_]
    rfl

theorem readAll_append_newline {a b : String} {fs gs : List Value} (first : readAll a = .ok fs)
    (second : readAll b = .ok gs) : readAll (a ++ "\n" ++ b) = .ok (fs ++ gs) := by
  rw [readAll_append_newline_eq first, second]
  rfl

/-! Running -/

section Runs

variable {fuel : Nat} {env : FrameId}

theorem runForms_append (last : Option Value) (xs ys : List Value) :
    runForms fuel env last (xs ++ ys) = runForms fuel env last xs >>= fun v => runForms fuel env v ys := by
  induction xs generalizing last with
  | nil => rfl
  | cons form rest ih =>
      rw [List.cons_append, runForms, runForms, Eval.bind_assoc]
      exact congrArg _ (funext fun v => ih (some v))

/-- Forms that have run leave a value, whatever was there before. -/
theorem exists_of_runForms {last result : Option Value} {forms : List Value} {w w' : World}
    (given : forms ≠ []) (run : runForms fuel env last forms w = (.ok result, w')) :
    ∃ v, result = some v := by
  induction forms generalizing last w with
  | nil => exact absurd rfl given
  | cons form rest ih =>
      obtain ⟨v, w₁, -, others⟩ := Eval.bind_eq_ok_iff.1 run
      cases rest with
      | nil =>
          cases others
          exact ⟨v, rfl⟩
      | cons next rest => exact ih (by simp) others

theorem runText_of_readAll {text : String} {forms : List Value} (read : readAll text = .ok forms) :
    runText fuel env text = runForms fuel env none forms >>= lastValue := by
  rw [runText, read]
  rfl

end Runs

/-- A text of several lines runs as its parts do, one after the other and up to the first failure, when
each part is a sequence of forms; a text that cannot be read does not run at all. -/
theorem runText_lines (fuel : Nat) (env : FrameId) (w : World) :
    (∀ a b fs gs, readAll a = .ok fs → fs ≠ [] → readAll b = .ok gs → gs ≠ [] →
      runText fuel env (a ++ "\n" ++ b) w =
        match runText fuel env a w with
        | (.ok _, w') => runText fuel env b w'
        | (.error stop, w') => (.error stop, w')) ∧
    (∀ text e, readAll text = .error e →
      runText fuel env text w = (.error (.failed (.read e)), w)) := by
  constructor
  · intro a b fs gs readA someA readB someB
    rw [runText_of_readAll (readAll_append_newline readA readB), runText_of_readAll readA,
      runText_of_readAll readB, runForms_append]
    rcases first : runForms fuel env none fs w with ⟨result, w'⟩
    cases result with
    | error stop =>
        rw [Eval.bind_of_error first, Eval.bind_of_error (Eval.bind_of_error first)]
    | ok last =>
        obtain ⟨v, rfl⟩ := exists_of_runForms someA first
        rw [Eval.bind_assoc, Eval.bind_of_ok first, Eval.bind_of_ok first]
        cases gs with
        | nil => exact absurd rfl someB
        | cons form rest => rfl
  · intro text e read
    rw [runText, read]
    rfl

/-- The first text ends in a comment, and its definition is there for the second; a closing parenthesis
too many keeps what stands before it from being printed. -/
theorem runText_lines_comment :
    let w := World.start {} "" .stopped
    let a := "(def x 1) ; one"
    let b := "(list x)"
    let bad := "(println 1) )"
    (readAll a = .ok [.list [.sym "def", .sym "x", .int 1]] ∧
      readAll b = .ok [.list [.sym "list", .sym "x"]] ∧ readAll bad = .error .strayClose) ∧
    (runText 9 rootFrame (a ++ "\n" ++ b) w =
        match runText 9 rootFrame a w with
        | (.ok _, w') => runText 9 rootFrame b w'
        | (.error stop, w') => (.error stop, w')) ∧
    (runText 9 rootFrame (a ++ "\n" ++ b) w).1 = .ok (.list [.int 1]) ∧
    runText 9 rootFrame bad w = (.error (.failed (.read .strayClose)), w) := by
  intro w a b bad
  have readA : readAll "(def x 1) ; one" = .ok [.list [.sym "def", .sym "x", .int 1]] := by rfl
  have readB : readAll "(list x)" = .ok [.list [.sym "list", .sym "x"]] := by rfl
  have readBad : readAll "(println 1) )" = .error .strayClose := by rfl
  obtain ⟨joined, rejected⟩ := runText_lines 9 rootFrame w
  refine ⟨⟨readA, readB, readBad⟩, ?_, ?_, rejected bad _ readBad⟩
  · exact joined a b _ _ readA (by simp) readB (by simp)
  · rw [runText_of_readAll (readAll_append_newline readA readB)]
    rfl

end MiniLisp
