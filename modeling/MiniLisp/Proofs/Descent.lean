import MiniLisp.Proofs.Stream

/-!
Reading by recursive descent. A cursor looks ahead in a list of tokens that are produced one by one, and keeps
the tokens that were taken; to read a form it takes the tokens of the form, and calls itself for each form
inside. This comes to what the parser makes of the tokens with its stack: the same form or error, and the same
tokens left. Whatever a cursor is asked, it looks at most one token ahead and loses none.
-/

namespace MiniLisp

/-- The tokens that have been taken, those that have been looked at, and what has not been produced yet. -/
structure Cursor where
  taken : List Token
  ahead : List Token
  source : Lexed

namespace Cursor

def ofLexed (source : Lexed) : Cursor := ⟨[], [], source⟩

def left (c : Cursor) : Lexed := ⟨c.ahead ++ c.source.tokens, c.source.failure⟩

/-- Looks at the next token. It is produced if it has not been. -/
def peek (c : Cursor) : Except ReadError (Option Token) × Cursor :=
  match c.ahead with
  | t :: _ => (.ok (some t), c)
  | [] => match c.source.advance with
    | (.ok (some t), rest) => (.ok (some t), { c with ahead := c.ahead ++ [t], source := rest })
    | (none_, rest) => (none_, { c with source := rest })

/-- Takes the next token: the one that was looked at, or else the next that is produced. -/
def advance (c : Cursor) : Except ReadError (Option Token) × Cursor :=
  match c.ahead with
  | t :: ts => (.ok (some t), { c with taken := c.taken ++ [t], ahead := ts })
  | [] => match c.source.advance with
    | (.ok (some t), rest) => (.ok (some t), { c with taken := c.taken ++ [t], source := rest })
    | (none_, rest) => (none_, { c with source := rest })

/-- Where the descent stands: in front of a form, or in a list with its items so far, the last first. -/
inductive Place where
  | form
  | items (read : List Value)

/-- What follows a quote mark, given how a form is read. -/
def quoted (form : Cursor → Option (Except ReadError Value × Cursor)) (mark : String) (c : Cursor) :
    Option (Except ReadError Value × Cursor) :=
  match c.peek with
  | (.error e, c) => some (.error e, c)
  | (.ok none, c) => some (.error (.missingForm mark), c)
  | (.ok (some _), c) => match quoteName? mark with
    | none => some (.error (.unknownMark mark), c)
    | some name => (form c).map fun (r, c) => (r.map fun v => .list [.sym name, v], c)

/-- Reads a form, or the rest of a list. -/
def descend : Nat → Place → Cursor → Option (Except ReadError Value × Cursor)
  | 0, _, _ => none
  | fuel + 1, .form, c => match c.advance with
    | (.error e, c) => some (.error e, c)
    | (.ok none, c) => some (.error .endOfInput, c)
    | (.ok (some t), c) => match t.kind with
      | .symbol => some (parseAtom t.text, c)
      | .string => some ((decodeString t.text).map .str, c)
      | .quote => quoted (descend fuel .form) t.text c
      | .unquote => quoted (descend fuel .form) t.text c
      | .lparen => descend fuel (.items []) c
      | .rparen => some (.error .strayClose, c)
      | .other name => some (.error (.unknownToken name t.text), c)
  | fuel + 1, .items read, c => match c.peek with
    | (.error e, c) => some (.error e, c)
    | (.ok none, c) => some (.error .unclosedList, c)
    | (.ok (some t), c) =>
        if t.kind = .rparen then some (.ok (.list read.reverse), c.advance.2)
        else match descend fuel .form c with
          | none => none
          | some (.error e, c) => some (.error e, c)
          | some (.ok v, c) => descend fuel (.items (v :: read)) c

/-! What is left decides. -/

theorem peek_left (c : Cursor) : c.left.peek = Prod.map id left c.peek := by
  obtain ⟨taken, ahead, tokens, failure⟩ := c
  cases ahead with
  | cons t ts => rfl
  | nil =>
      cases tokens with
      | cons t ts => rfl
      | nil => cases failure <;> rfl

theorem advance_left (c : Cursor) : c.left.advance = Prod.map id left c.advance := by
  obtain ⟨taken, ahead, tokens, failure⟩ := c
  cases ahead with
  | cons t ts => rfl
  | nil =>
      cases tokens with
      | cons t ts => rfl
      | nil => cases failure <;> rfl

theorem peek_eq (c : Cursor) : ∃ c', c.peek = (c.left.peek.1, c') ∧ c'.left = c.left.peek.2 := by
  refine ⟨c.peek.2, ?_, ?_⟩ <;> rw [peek_left] <;> rfl

theorem advance_eq (c : Cursor) : ∃ c', c.advance = (c.left.advance.1, c') ∧ c'.left = c.left.advance.2 := by
  refine ⟨c.advance.2, ?_, ?_⟩ <;> rw [advance_left] <;> rfl

/-- What becomes of a form inside of what is open. -/
def resume (stack : List Pending) : Except ReadError Value × Cursor → Except ReadError Value × Lexed
  | (.ok v, c) => (formAfter (attach v stack) c.left.tokens).outcome c.left.failure
  | (.error e, c) => (.error e, c.left)

/-- A token is there, and it does not close what is open. -/
def FormDue (stack : List Pending) (ts : List Token) : Prop :=
  ∃ t us, ts = t :: us ∧ (t.kind = .rparen → closeList stack = .wrong .strayClose)

/-- A form is read as the parser reads it, whatever is open around it. -/
def ReadsForms (form : Cursor → Option (Except ReadError Value × Cursor)) : Prop :=
  ∀ c out, form c = some out → ∀ stack, FormDue stack c.left.tokens →
    (parseForm stack c.left.tokens).outcome c.left.failure = resume stack out

/-- The rest of a list is read as the parser reads it, whatever is open around the list. -/
def ReadsItems (items : List Value → Cursor → Option (Except ReadError Value × Cursor)) : Prop :=
  ∀ read c out, items read c = some out → ∀ stack,
    (parseForm (.items read :: stack) c.left.tokens).outcome c.left.failure = resume stack out

theorem quoted_eq {form : Cursor → Option (Except ReadError Value × Cursor)} (inner : ReadsForms form)
    {t : Token} {c : Cursor} {out : Except ReadError Value × Cursor} (h : quoted form t.text c = some out)
    (stack : List Pending) :
    (formAfter (openQuote t stack) c.left.tokens).outcome c.left.failure = resume stack out := by
  obtain ⟨c', peeked, left⟩ := c.peek_eq
  rw [quoted, peeked] at h
  generalize c.left = l at h left ⊢
  obtain ⟨tokens, failure⟩ := l
  cases tokens with
  | nil =>
      cases failure with
      | none =>
          cases h
          simp only [resume, left]
          cases known : quoteName? t.text <;> simp only [openQuote, known] <;> rfl
      | some e =>
          cases h
          simp only [resume, left]
          cases known : quoteName? t.text <;> simp only [openQuote, known] <;> rfl
  | cons u us =>
      simp only [Lexed.peek] at h left
      cases known : quoteName? t.text with
      | none =>
          simp only [known] at h
          cases h
          simp only [openQuote, known, resume, left]
          rfl
      | some name =>
          simp only [known] at h
          obtain ⟨⟨r, c''⟩, read, rfl⟩ := Option.map_eq_some_iff.1 h
          have within := inner c' _ read (.quoted t.text name :: stack)
          rw [left] at within
          have due : FormDue (.quoted t.text name :: stack) (u :: us) := ⟨u, us, rfl, fun _ => rfl⟩
          simp only [openQuote, known, formAfter]
          rw [within due]
          cases r <;> rfl

theorem leaf_eq (leaf : Except ReadError Value) (c : Cursor) (stack : List Pending) :
    (formAfter (attachLeaf leaf stack) c.left.tokens).outcome c.left.failure = resume stack (leaf, c) := by
  cases leaf <;> rfl

theorem form_eq {fuel : Nat} (inner : ReadsForms (descend fuel .form))
    (items : ReadsItems fun read => descend fuel (.items read)) : ReadsForms (descend (fuel + 1) .form) := by
  intro c out h stack due
  obtain ⟨c', advanced, left⟩ := c.advance_eq
  obtain ⟨t, ts, tokens, closes⟩ := due
  rw [descend, advanced] at h
  generalize c.left = l at h left tokens ⊢
  obtain ⟨_, failure⟩ := l
  subst tokens
  obtain ⟨rfl, rfl⟩ : c'.left.tokens = ts ∧ c'.left.failure = failure := by simp [left, Lexed.advance]
  obtain ⟨kind, text⟩ := t
  rw [parseForm_cons]
  cases kind with
  | symbol =>
      cases h
      exact leaf_eq _ c' stack
  | string =>
      cases h
      exact leaf_eq _ c' stack
  | quote => exact quoted_eq (t := ⟨.quote, text⟩) inner h stack
  | unquote => exact quoted_eq (t := ⟨.unquote, text⟩) inner h stack
  | lparen => exact items [] c' out h stack
  | rparen =>
      cases h
      simp only [parseStep, closes rfl]
      rfl
  | other name =>
      cases h
      rfl

theorem items_eq {fuel : Nat} (inner : ReadsForms (descend fuel .form))
    (items : ReadsItems fun read => descend fuel (.items read)) :
    ReadsItems fun read => descend (fuel + 1) (.items read) := by
  intro read c out h stack
  obtain ⟨c', peeked, left⟩ := c.peek_eq
  simp only [descend, peeked] at h
  generalize c.left = l at h left ⊢
  obtain ⟨tokens, failure⟩ := l
  cases tokens with
  | nil => cases failure <;> cases h <;> simp only [resume, left] <;> rfl
  | cons t ts =>
      simp only [Lexed.peek] at h left
      by_cases closes : t.kind = .rparen
      · obtain ⟨c'', advanced, left'⟩ := c'.advance_eq
        simp only [closes, if_true, Option.some.injEq] at h
        obtain ⟨rfl, rfl⟩ : c''.left.tokens = ts ∧ c''.left.failure = failure := by
          simp [left', left, Lexed.advance]
        rw [← h, advanced, parseForm_cons]
        simp only [parseStep, closes]
        rfl
      · simp only [closes, if_false] at h
        cases item : descend fuel .form c' with
        | none =>
            rw [item] at h
            cases h
        | some given =>
            -- The item is read with the list open around it, and then becomes one of those that were read.
            have due : FormDue (.items read :: stack) (t :: ts) :=
              ⟨t, ts, rfl, fun isClose => absurd isClose closes⟩
            have within := inner c' _ item (.items read :: stack)
            rw [left] at within
            rw [within due]
            obtain ⟨r, c''⟩ := given
            rw [item] at h
            cases r with
            | error e =>
                cases h
                rfl
            | ok v => exact items (v :: read) c'' out h stack

/-- The descent comes to what the parser comes to with its stack: what is open there are the calls that wait. -/
theorem descend_eq (fuel : Nat) :
    ReadsForms (descend fuel .form) ∧ ReadsItems fun read => descend fuel (.items read) := by
  induction fuel with
  | zero =>
      constructor
      · intro c out h
        cases h
      · intro read c out h
        cases h
  | succ fuel ih => exact ⟨form_eq ih.1 ih.2, items_eq ih.1 ih.2⟩

/-! With enough fuel the descent comes to its end: a list takes a token or begins a form, and a form takes a
token. -/

theorem eq_form_of_outcome {failure : Option ReadError} {parsed : Parsed} {v : Value} {l : Lexed}
    (h : parsed.outcome failure = (.ok v, l)) : parsed = .form v l.tokens := by
  cases parsed <;> cases h
  rfl

theorem formDue_of_ne_nil {ts : List Token} (given : ts ≠ []) : FormDue [] ts := by
  obtain ⟨t, us, rfl⟩ := List.exists_cons_of_ne_nil given
  exact ⟨t, us, rfl, fun _ => rfl⟩

theorem length_lt_of_descend {fuel : Nat} {c c' : Cursor} {v : Value} (given : c.left.tokens ≠ [])
    (h : descend fuel .form c = some (.ok v, c')) : c'.left.tokens.length < c.left.tokens.length :=
  length_lt_of_parseForm (eq_form_of_outcome ((descend_eq fuel).1 c _ h [] (formDue_of_ne_nil given)))

theorem exists_quoted {form : Cursor → Option (Except ReadError Value × Cursor)} {mark : String} {c : Cursor}
    (inner : ∀ c', c'.left.tokens = c.left.tokens → ∃ out, form c' = some out) :
    ∃ out, quoted form mark c = some out := by
  obtain ⟨c', peeked, left⟩ := c.peek_eq
  rw [quoted, peeked]
  generalize c.left = l at left inner ⊢
  obtain ⟨_ | ⟨u, us⟩, _ | e⟩ := l
  · exact ⟨_, rfl⟩
  · exact ⟨_, rfl⟩
  all_goals
    obtain ⟨out, read⟩ := inner c' (by rw [left]; rfl)
    cases quoteName? mark <;> simp [Lexed.peek, read]

/-- A list looks for a form where it stands, so it needs one step more. -/
def Place.rank : Place → Nat
  | .form => 0
  | .items _ => 1

theorem exists_descend {fuel : Nat} {place : Place} {c : Cursor}
    (enough : 2 * c.left.tokens.length + place.rank < fuel) : ∃ out, descend fuel place c = some out := by
  induction fuel generalizing place c with
  | zero => exact absurd enough (Nat.not_lt_zero _)
  | succ fuel ih =>
      cases place with
      | form =>
          obtain ⟨c', advanced, left⟩ := c.advance_eq
          rw [descend, advanced]
          generalize c.left = l at left enough ⊢
          obtain ⟨_ | ⟨⟨kind, text⟩, ts⟩, failure⟩ := l
          · cases failure <;> exact ⟨_, rfl⟩
          · have shorter : c'.left.tokens.length = ts.length := by rw [left]; rfl
            simp only [Place.rank, List.length_cons] at enough
            have inner : ∀ c'', c''.left.tokens = c'.left.tokens → ∃ out, descend fuel .form c'' = some out := by
              intro c'' same
              apply ih
              rw [same, shorter]
              simp only [Place.rank]
              omega
            cases kind with
            | quote => exact exists_quoted inner
            | unquote => exact exists_quoted inner
            | lparen =>
                apply ih
                simp only [Place.rank, shorter]
                omega
            | _ => exact ⟨_, rfl⟩
      | items read =>
          obtain ⟨c', peeked, left⟩ := c.peek_eq
          rw [descend, peeked]
          generalize c.left = l at left enough ⊢
          obtain ⟨_ | ⟨t, ts⟩, failure⟩ := l
          · cases failure <;> exact ⟨_, rfl⟩
          · have tokens : c'.left.tokens = t :: ts := by rw [left]; rfl
            simp only [Place.rank, List.length_cons] at enough
            by_cases closes : t.kind = .rparen
            · simp [Lexed.peek, closes]
            · simp only [Lexed.peek, closes, if_false]
              obtain ⟨⟨r, c''⟩, item⟩ : ∃ out, descend fuel .form c' = some out := by
                apply ih
                simp only [tokens, Place.rank, List.length_cons]
                omega
              rw [item]
              cases r with
              | error e => exact ⟨_, rfl⟩
              | ok v =>
                  have shorter := length_lt_of_descend (by simp [tokens]) item
                  rw [tokens, List.length_cons] at shorter
                  apply ih
                  simp only [Place.rank]
                  omega

theorem isSome_descend (c : Cursor) : (descend (2 * c.left.tokens.length + 1) .form c).isSome := by
  have enough : 2 * c.left.tokens.length + Place.form.rank < 2 * c.left.tokens.length + 1 := Nat.lt_succ_self _
  obtain ⟨out, read⟩ := exists_descend enough
  rw [read]
  rfl

/-- Reads a form. -/
def parse (c : Cursor) : Except ReadError Value × Cursor :=
  (descend (2 * c.left.tokens.length + 1) .form c).get c.isSome_descend

theorem descend_eq_parse (c : Cursor) : descend (2 * c.left.tokens.length + 1) .form c = some c.parse :=
  (Option.some_get _).symm

theorem parse_left (c : Cursor) : c.left.parse = Prod.map id left c.parse := by
  have read := c.descend_eq_parse
  generalize c.parse = out at read ⊢
  by_cases given : c.left.tokens = []
  · obtain ⟨c', advanced, left⟩ := c.advance_eq
    rw [given, descend, advanced] at read
    generalize c.left = l at read left given ⊢
    obtain ⟨_, failure⟩ := l
    subst given
    cases failure <;> cases read <;> simp only [Prod.map_apply, left] <;> rfl
  · obtain ⟨r, c'⟩ := out
    have reads := (descend_eq _).1 c _ read [] (formDue_of_ne_nil given)
    cases r <;> exact reads

/-! Tokens are neither lost nor taken twice. -/

/-- The tokens that were taken, looked at and not produced yet are these, and at most one was looked at. -/
structure Accounts (ts : List Token) (c : Cursor) : Prop where
  single : c.ahead.length ≤ 1
  whole : c.taken ++ c.ahead ++ c.source.tokens = ts

variable {ts : List Token} {c : Cursor}

theorem Accounts.ofLexed (source : Lexed) : Accounts source.tokens (.ofLexed source) := ⟨Nat.zero_le _, rfl⟩

theorem Accounts.peek (account : Accounts ts c) : Accounts ts c.peek.2 := by
  obtain ⟨single, rfl⟩ := account
  obtain ⟨taken, ahead, tokens, failure⟩ := c
  cases ahead with
  | cons t more => exact ⟨single, rfl⟩
  | nil =>
      cases tokens with
      | cons t more => exact ⟨Nat.le_refl 1, by simp [Cursor.peek, Lexed.advance]⟩
      | nil => cases failure <;> exact ⟨Nat.zero_le 1, rfl⟩

theorem Accounts.advance (account : Accounts ts c) : Accounts ts c.advance.2 := by
  obtain ⟨single, rfl⟩ := account
  obtain ⟨taken, ahead, tokens, failure⟩ := c
  cases ahead with
  | cons t more =>
      refine ⟨Nat.le_of_succ_le single, ?_⟩
      simp [Cursor.advance]
  | nil =>
      cases tokens with
      | cons t more => exact ⟨Nat.zero_le 1, by simp [Cursor.advance, Lexed.advance]⟩
      | nil => cases failure <;> exact ⟨Nat.zero_le 1, rfl⟩

theorem Accounts.quoted {form : Cursor → Option (Except ReadError Value × Cursor)}
    (inner : ∀ c out, Accounts ts c → form c = some out → Accounts ts out.2) (account : Accounts ts c)
    {mark : String} {out : Except ReadError Value × Cursor} (h : quoted form mark c = some out) :
    Accounts ts out.2 := by
  have looked := account.peek
  unfold Cursor.quoted at h
  generalize c.peek = look at h looked
  obtain ⟨(e | _ | t), c'⟩ := look
  · cases h
    exact looked
  · cases h
    exact looked
  · simp only at h
    cases known : quoteName? mark with
    | none =>
        rw [known] at h
        cases h
        exact looked
    | some name =>
        rw [known] at h
        obtain ⟨read, some_, rfl⟩ := Option.map_eq_some_iff.1 h
        exact inner c' read looked some_

theorem Accounts.descend {fuel : Nat} {place : Place} (account : Accounts ts c)
    {out : Except ReadError Value × Cursor} (h : descend fuel place c = some out) : Accounts ts out.2 := by
  induction fuel generalizing place c out with
  | zero => cases h
  | succ fuel ih =>
      cases place with
      | form =>
          have taken := account.advance
          unfold Cursor.descend at h
          generalize c.advance = take at h taken
          obtain ⟨(e | _ | ⟨kind, text⟩), c'⟩ := take
          · cases h
            exact taken
          · cases h
            exact taken
          · cases kind with
            | quote => exact taken.quoted (fun _ _ account read => ih account read) h
            | unquote => exact taken.quoted (fun _ _ account read => ih account read) h
            | lparen => exact ih taken h
            | _ =>
                cases h
                exact taken
      | items read =>
          have looked := account.peek
          unfold Cursor.descend at h
          generalize c.peek = look at h looked
          obtain ⟨(e | _ | t), c'⟩ := look
          · cases h
            exact looked
          · cases h
            exact looked
          · simp only at h
            split at h
            · cases h
              exact looked.advance
            · cases item : Cursor.descend fuel .form c' with
              | none =>
                  rw [item] at h
                  cases h
              | some given =>
                  have inside := ih looked item
                  rw [item] at h
                  obtain ⟨r, c''⟩ := given
                  cases r with
                  | error e =>
                      cases h
                      exact inside
                  | ok v => exact ih inside h

theorem Accounts.parse (account : Accounts ts c) : Accounts ts c.parse.2 := account.descend c.descend_eq_parse

/-! Cursors as streams -/

def ops : StreamOps Cursor := ⟨peek, advance, parse, nextBy peek parse⟩

theorem follows : ops.Follows Lexed.ops left where
  peek := peek_left
  advance := advance_left
  parse := parse_left
  next := nextBy_view peek_left parse_left

theorem keeps (ts : List Token) : ops.Keeps (Accounts ts) where
  peek _ account := account.peek
  advance _ account := account.advance
  parse _ account := account.parse
  next := nextBy_keeps (fun _ account => account.peek) fun _ account => account.parse

end Cursor

/-- Whatever a stream is asked, errors or not: at most one token has been looked at; the tokens that were taken,
that one and those still to come are the tokens of the source. The stream that keeps its next token aside has the
same tokens left and gives the same answers. And to look at a token once more, unless that fails, changes no
other answer. -/
theorem stream_loses_nothing (source : Lexed) (steps : List StreamStep) :
    let c := Cursor.ops.after (.ofLexed source) steps
    let s := TokenStream.ops.after (.ofLexed source) steps
    (c.ahead.length ≤ 1 ∧ c.taken ++ c.ahead ++ c.source.tokens = source.tokens) ∧
    (s.buffer.toList ++ s.upcoming = c.ahead ++ c.source.tokens ∧ s.failure = c.source.failure ∧
      TokenStream.ops.answers (.ofLexed source) steps = Cursor.ops.answers (.ofLexed source) steps) ∧
    ∀ i t, (TokenStream.ops.after (.ofLexed source) (steps.take i)).peek.1 = .ok t →
      TokenStream.ops.answers (.ofLexed source) (steps.insertIdx i .peek) =
        (TokenStream.ops.answers (.ofLexed source) steps).insertIdx i (.token (.ok t)) := by
  intro c s
  have account : Cursor.Accounts source.tokens c := (Cursor.keeps source.tokens).run (.ofLexed source) steps
  have ofCursor : Lexed.ops.after source steps = c.left := Cursor.follows.after (.ofLexed source) steps
  have ofStream : ∀ steps, Lexed.ops.after source steps = (TokenStream.ops.after (.ofLexed source) steps).left :=
    TokenStream.follows.after (.ofLexed source)
  have answers : ∀ steps, Lexed.ops.answers source steps = TokenStream.ops.answers (.ofLexed source) steps :=
    TokenStream.follows.answers (.ofLexed source)
  have same : s.left = c.left := (ofStream steps).symm.trans ofCursor
  refine ⟨⟨account.single, account.whole⟩, ⟨?_, ?_, ?_⟩, ?_⟩
  · exact congrArg Lexed.tokens same
  · exact congrArg Lexed.failure same
  · rw [← answers]
    exact Cursor.follows.answers (.ofLexed source) steps
  · intro i t quiet
    have looked : (Lexed.ops.after source (steps.take i)).peek.1 = .ok t := by
      rw [ofStream, TokenStream.peek_left]
      exact quiet
    rw [← answers, ← answers]
    exact Lexed.run_insertIdx_peek looked

/-- Two readers and single steps share a stream, beyond an error of the parser and one of the lexer. To look at
the closing parenthesis in front of the first error changes nothing. -/
theorem stream_loses_nothing_beyond_errors :
    let source := lex "(a) ) b \"c"
    let steps : List StreamStep := [.next 0, .parse, .advance, .advance, .next 1, .next 0]
    let answers : List StreamAnswer :=
      [.next (.ok (some (.list [.sym "a"]))), .form (.error .strayClose), .token (.ok (some ⟨.symbol, "b"⟩)),
        .token (.error (.unclosedString 8)), .next (.ok none), .next (.ok none)]
    let close : Token := ⟨.rparen, ")"⟩
    TokenStream.ops.answers (.ofLexed source) steps = answers ∧
      (TokenStream.ops.after (.ofLexed source) (steps.take 1)).peek.1 = .ok (some close) ∧
      TokenStream.ops.answers (.ofLexed source) (steps.insertIdx 1 .peek) =
        answers.insertIdx 1 (.token (.ok (some close))) := by
  intro source steps answers close
  have given : TokenStream.ops.answers (.ofLexed (lex "(a) ) b \"c")) steps = answers := by rfl
  have looked : (TokenStream.ops.after (.ofLexed (lex "(a) ) b \"c")) (steps.take 1)).peek.1 =
      .ok (some close) := by rfl
  refine ⟨given, looked, ?_⟩
  have inserted := (stream_loses_nothing (lex "(a) ) b \"c") steps).2.2 1 _ looked
  rw [given] at inserted
  exact inserted

end MiniLisp
