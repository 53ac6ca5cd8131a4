import MiniLisp.Source.Stream

/-!
The grammar of forms, and that the parser accepts exactly what it derives. A derivation is a tree
whose leaves are the tokens; the parser's stack stands for the derivations that have begun. What is
read from a complete derivation is its value, whatever stands around it, and whatever the parser
accepts has a derivation behind it. No token list has two derivations.
-/

namespace MiniLisp

theorem map_eq_ok_iff {ε α β : Type} {f : α → β} {x : Except ε α} {b : β} :
    x.map f = .ok b ↔ ∃ a, x = .ok a ∧ f a = b := by
  cases x with
  | error e => simp [Except.map]
  | ok a => simp [Except.map]

/-- Derivations of forms, where
`form ::= word | literal | mark form | ( form* )`.
They keep the texts of all tokens, and a mark its kind. -/
inductive Derivation where
  | word (text : String)
  | literal (text : String)
  | marked (kind : TokenKind) (mark name : String) (isMark : kind = .quote ∨ kind = .unquote)
      (known : quoteName? mark = some name) (form : Derivation)
  | parens (opening closing : String) (forms : List Derivation)

namespace Derivation

/-- Induction on derivations; those between parentheses are met as members of a list. -/
@[elab_as_elim, induction_eliminator]
theorem induct {motive : Derivation → Prop} (word : ∀ text, motive (.word text))
    (literal : ∀ text, motive (.literal text))
    (marked : ∀ kind mark name isMark known form, motive form →
      motive (.marked kind mark name isMark known form))
    (parens : ∀ opening closing forms, (∀ d ∈ forms, motive d) →
      motive (.parens opening closing forms)) : ∀ d, motive d
  | .word text => word text
  | .literal text => literal text
  | .marked kind mark name isMark known form =>
      marked kind mark name isMark known form (induct word literal marked parens form)
  | .parens opening closing forms =>
      parens opening closing forms fun d _ => induct word literal marked parens d

mutual

/-- The tokens of a derivation, from left to right. -/
def tokens : Derivation → List Token
  | .word text => [⟨.symbol, text⟩]
  | .literal text => [⟨.string, text⟩]
  | .marked kind mark _ _ _ form => ⟨kind, mark⟩ :: form.tokens
  | .parens opening closing forms => ⟨.lparen, opening⟩ :: (allTokens forms ++ [⟨.rparen, closing⟩])

def allTokens : List Derivation → List Token
  | [] => []
  | d :: ds => d.tokens ++ allTokens ds

end

mutual

/-- The tree that a derivation stands for, if its words and literals stand for something. -/
def tree : Derivation → Except ReadError Value
  | .word text => parseAtom text
  | .literal text => (decodeString text).map .str
  | .marked _ _ name _ _ form => form.tree.map fun v => .list [.sym name, v]
  | .parens _ _ forms => (trees forms).map .list

def trees : List Derivation → Except ReadError (List Value)
  | [] => .ok []
  | d :: ds => match d.tree with
    | .error e => .error e
    | .ok v => (trees ds).map (v :: ·)

end

theorem trees_cons_eq_ok_iff {d : Derivation} {ds : List Derivation} {us : List Value} :
    trees (d :: ds) = .ok us ↔ ∃ v vs, d.tree = .ok v ∧ trees ds = .ok vs ∧ us = v :: vs := by
  cases h : d.tree with
  | error e => simp [trees, h]
  | ok v =>
      simp only [trees, h, map_eq_ok_iff]
      constructor
      · rintro ⟨vs, hvs, rfl⟩
        exact ⟨v, vs, rfl, hvs, rfl⟩
      · rintro ⟨v', vs, same, hvs, rfl⟩
        cases same
        exact ⟨vs, hvs, rfl⟩

theorem allTokens_append (ds es : List Derivation) :
    allTokens (ds ++ es) = allTokens ds ++ allTokens es := by
  induction ds with
  | nil => rfl
  | cons d ds ih => simp [allTokens, ih]

theorem trees_append_singleton {ds : List Derivation} {d : Derivation} {vs : List Value} {v : Value}
    (hs : trees ds = .ok vs) (h : d.tree = .ok v) : trees (ds ++ [d]) = .ok (vs ++ [v]) := by
  induction ds generalizing vs with
  | nil =>
      cases hs
      simp [trees, h, Except.map]
  | cons e es ih =>
      obtain ⟨u, us, hu, hus, rfl⟩ := trees_cons_eq_ok_iff.1 hs
      exact trees_cons_eq_ok_iff.2 ⟨u, us ++ [v], hu, ih hus, rfl⟩

/-! No two derivations have the same tokens. -/

theorem tokens_eq_cons (d : Derivation) : ∃ t ts, d.tokens = t :: ts ∧ t.kind ≠ .rparen := by
  cases d with
  | word text => exact ⟨⟨.symbol, text⟩, [], by simp [tokens], by simp⟩
  | literal text => exact ⟨⟨.string, text⟩, [], by simp [tokens], by simp⟩
  | marked kind mark name isMark known form =>
      refine ⟨⟨kind, mark⟩, form.tokens, by simp [tokens], ?_⟩
      rcases isMark with rfl | rfl <;> simp
  | parens opening closing forms =>
      exact ⟨⟨.lparen, opening⟩, allTokens forms ++ [⟨.rparen, closing⟩], by simp [tokens], by simp⟩

/-- At these tokens no form begins: a closing parenthesis, or the end. -/
def AtClose (ts : List Token) : Prop := ∀ t ∈ ts.head?, t.kind = .rparen

theorem not_atClose_tokens (d : Derivation) (ts : List Token) : ¬ AtClose (d.tokens ++ ts) := by
  obtain ⟨t, us, eq, other⟩ := d.tokens_eq_cons
  intro h
  exact other (h t (by simp [eq]))

/-- A form ends at the same token in every derivation of what follows. -/
def Cancels (d : Derivation) : Prop :=
  ∀ e us ts, d.tokens ++ us = e.tokens ++ ts → d = e ∧ us = ts

theorem allTokens_cancel {ds es : List Derivation} {us ts : List Token} (cancel : ∀ d ∈ ds, Cancels d)
    (hus : AtClose us) (hts : AtClose ts) (h : allTokens ds ++ us = allTokens es ++ ts) :
    ds = es ∧ us = ts := by
  induction ds generalizing es with
  | nil =>
      cases es with
      | nil => exact ⟨rfl, h⟩
      | cons e es =>
          simp only [allTokens, List.nil_append, List.append_assoc] at h
          rw [h] at hus
          exact absurd hus (not_atClose_tokens e _)
  | cons d ds ih =>
      cases es with
      | nil =>
          simp only [allTokens, List.nil_append, List.append_assoc] at h
          rw [← h] at hts
          exact absurd hts (not_atClose_tokens d _)
      | cons e es =>
          simp only [allTokens, List.append_assoc] at h
          obtain ⟨rfl, rest⟩ := cancel d List.mem_cons_self _ _ _ h
          obtain ⟨rfl, same⟩ := ih (fun x hx => cancel x (List.mem_cons_of_mem d hx)) rest
          exact ⟨rfl, same⟩

theorem tokens_cancel (d : Derivation) : Cancels d := by
  induction d with
  | word text =>
      intro e us ts h
      cases e with
      | marked kind mark name isMark known form => rcases isMark with rfl | rfl <;> simp [tokens] at h
      | _ => simp_all [tokens]
  | literal text =>
      intro e us ts h
      cases e with
      | marked kind mark name isMark known form => rcases isMark with rfl | rfl <;> simp [tokens] at h
      | _ => simp_all [tokens]
  | marked kind mark name isMark known form ih =>
      intro e us ts h
      cases e with
      | marked kind' mark' name' isMark' known' form' =>
          simp only [tokens, List.cons_append, List.cons.injEq, Token.mk.injEq] at h
          obtain ⟨⟨rfl, rfl⟩, rest⟩ := h
          obtain ⟨rfl, same⟩ := ih form' us ts rest
          rw [known] at known'
          cases known'
          exact ⟨rfl, same⟩
      | _ => rcases isMark with rfl | rfl <;> simp [tokens] at h
  | parens opening closing forms ih =>
      intro e us ts h
      cases e with
      | parens opening' closing' forms' =>
          simp only [tokens, List.cons_append, List.append_assoc, List.nil_append, List.cons.injEq,
            Token.mk.injEq, true_and] at h
          obtain ⟨rfl, rest⟩ := h
          obtain ⟨rfl, same⟩ := allTokens_cancel ih (by simp [AtClose]) (by simp [AtClose]) rest
          simp only [List.cons.injEq, Token.mk.injEq, true_and] at same
          obtain ⟨rfl, same⟩ := same
          exact ⟨rfl, same⟩
      | marked kind mark name isMark known form => rcases isMark with rfl | rfl <;> simp [tokens] at h
      | _ => simp [tokens] at h

theorem allTokens_injective {ds es : List Derivation} (h : allTokens ds = allTokens es) : ds = es := by
  have close : AtClose [] := by simp [AtClose]
  have h' : allTokens ds ++ [] = allTokens es ++ [] := by rw [h]
  exact (allTokens_cancel (fun d _ => tokens_cancel d) close close h').1

end Derivation

/-- The grammar derives trees from tokens. -/
def Derives (ts : List Token) (vs : List Value) : Prop :=
  ∃ ds, Derivation.allTokens ds = ts ∧ Derivation.trees ds = .ok vs

/-! Reading on. The parser of one form and the parser of all forms go on alike as long as more tokens
are needed; `readOn` is what they share. -/

/-- Takes tokens while more are needed; gives the first other outcome and the tokens behind it. -/
def readOn : ParseStep → List Token → ParseStep × List Token
  | .more stack, t :: ts => readOn (parseStep stack t) ts
  | step, ts => (step, ts)

/-- What reading one form comes to after a step. -/
def formAfter : ParseStep → List Token → Parsed
  | .more stack, ts => parseForm stack ts
  | .form v, ts => .form v ts
  | .wrong e, ts => .wrong e ts
  | .stray mark, ts => parseStray mark ts

/-- What reading all forms comes to after a step. -/
def formsAfter (failure : Option ReadError) : ParseStep → List Token → Except ReadError (List Value)
  | .more stack, ts => parseForms failure stack ts
  | .form v, ts => (parseForms failure [] ts).map (v :: ·)
  | .wrong e, _ => .error e
  | .stray mark, ts => match ts with
    | [] => .error (failure.getD (.missingForm mark))
    | _ :: _ => .error (.unknownMark mark)

theorem parseForm_cons (stack : List Pending) (t : Token) (ts : List Token) :
    parseForm stack (t :: ts) = formAfter (parseStep stack t) ts := by
  rw [parseForm]
  cases parseStep stack t <;> rfl

theorem parseForms_cons (failure : Option ReadError) (stack : List Pending) (t : Token)
    (ts : List Token) :
    parseForms failure stack (t :: ts) = formsAfter failure (parseStep stack t) ts := by
  cases h : parseStep stack t with
  | stray mark => cases ts <;> simp only [parseForms, h, formsAfter]
  | _ => simp only [parseForms, h, formsAfter]

theorem formAfter_readOn (step : ParseStep) (ts : List Token) :
    formAfter step ts = formAfter (readOn step ts).1 (readOn step ts).2 := by
  induction ts generalizing step with
  | nil => cases step <;> rfl
  | cons t ts ih =>
      cases step with
      | more stack =>
          change parseForm stack (t :: ts) = _
          rw [parseForm_cons, ih]
          rfl
      | _ => rfl

theorem formsAfter_readOn (failure : Option ReadError) (step : ParseStep) (ts : List Token) :
    formsAfter failure step ts = formsAfter failure (readOn step ts).1 (readOn step ts).2 := by
  induction ts generalizing step with
  | nil => cases step <;> rfl
  | cons t ts ih =>
      cases step with
      | more stack =>
          change parseForms failure stack (t :: ts) = _
          rw [parseForms_cons, ih]
          rfl
      | _ => rfl

theorem attach_ne_more_nil (v : Value) (stack : List Pending) : attach v stack ≠ .more [] := by
  induction stack generalizing v with
  | nil => simp [attach]
  | cons p stack ih =>
      cases p with
      | items read => simp [attach]
      | quoted mark name => exact ih _

theorem parseStep_ne_more_nil (stack : List Pending) (t : Token) : parseStep stack t ≠ .more [] := by
  unfold parseStep
  split
  · cases parseAtom t.text with
    | ok v => exact attach_ne_more_nil v stack
    | error e => simp [attachLeaf]
  · cases decodeString t.text with
    | ok s => exact attach_ne_more_nil (.str s) stack
    | error e => simp [attachLeaf, Except.map]
  · cases h : quoteName? t.text <;> simp [openQuote, h]
  · cases h : quoteName? t.text <;> simp [openQuote, h]
  · simp
  · unfold closeList
    split
    · exact attach_ne_more_nil _ _
    · simp
  · simp

/-- Nothing is accepted in front of a failure of the lexer. -/
theorem parseForms_failure_none {failure : Option ReadError} {stack : List Pending} {ts : List Token}
    {vs : List Value} (h : parseForms failure stack ts = .ok vs) : failure = none := by
  induction ts generalizing stack vs with
  | nil =>
      cases failure with
      | none => rfl
      | some e => cases h
  | cons t ts ih =>
      rw [parseForms_cons] at h
      cases step : parseStep stack t with
      | more stack' =>
          rw [step] at h
          exact ih h
      | form v =>
          rw [step] at h
          obtain ⟨us, hus, _⟩ := map_eq_ok_iff.1 h
          exact ih hus
      | wrong e =>
          rw [step] at h
          cases h
      | stray mark =>
          rw [step] at h
          cases ts <;> cases h

/-- All forms are the first form and all forms behind it, unless nothing is left to read. -/
theorem parseForms_eq_parseForm (failure : Option ReadError) {stack : List Pending} {ts : List Token}
    (left : stack ≠ [] ∨ ts ≠ []) :
    parseForms failure stack ts = match parseForm stack ts with
      | .form v rest => (parseForms failure [] rest).map (v :: ·)
      | .wrong e _ => .error e
      | .incomplete e => .error (failure.getD e) := by
  induction ts generalizing stack with
  | nil =>
      cases stack with
      | nil => simp at left
      | cons p ps => cases failure <;> rfl
  | cons t ts ih =>
      rw [parseForms_cons, parseForm_cons]
      cases step : parseStep stack t with
      | more stack' =>
          refine ih (Or.inl ?_)
          rintro rfl
          exact parseStep_ne_more_nil _ t step
      | form v => rfl
      | wrong e => rfl
      | stray mark => cases ts <;> rfl

/-! Completeness: the tokens of a derivation are read as its tree, whatever is open around it. -/

theorem readOn_allTokens {ds : List Derivation} {vs : List Value} (h : Derivation.trees ds = .ok vs)
    (read : ∀ d ∈ ds, ∀ v, d.tree = .ok v → ∀ stack ts,
      readOn (.more stack) (d.tokens ++ ts) = readOn (attach v stack) ts)
    (acc : List Value) (stack : List Pending) (ts : List Token) :
    readOn (.more (.items acc :: stack)) (Derivation.allTokens ds ++ ts) =
      readOn (.more (.items (vs.reverse ++ acc) :: stack)) ts := by
  induction ds generalizing vs acc with
  | nil =>
      cases h
      rfl
  | cons d ds ih =>
      obtain ⟨v, us, hv, hus, rfl⟩ := Derivation.trees_cons_eq_ok_iff.1 h
      simp only [Derivation.allTokens, List.append_assoc]
      rw [read d List.mem_cons_self v hv]
      simp only [attach]
      rw [ih hus fun x hx => read x (List.mem_cons_of_mem d hx)]
      simp

theorem readOn_tokens (d : Derivation) {v : Value} (h : d.tree = .ok v) (stack : List Pending)
    (ts : List Token) : readOn (.more stack) (d.tokens ++ ts) = readOn (attach v stack) ts := by
  induction d generalizing v stack ts with
  | word text =>
      have leaf : parseAtom text = .ok v := h
      simp only [Derivation.tokens, List.cons_append, List.nil_append, readOn, parseStep, attachLeaf, leaf]
  | literal text =>
      have leaf : (decodeString text).map .str = .ok v := h
      simp only [Derivation.tokens, List.cons_append, List.nil_append, readOn, parseStep, attachLeaf, leaf]
  | marked kind mark name isMark known form ih =>
      obtain ⟨u, hu, rfl⟩ := map_eq_ok_iff.1 h
      have opened : parseStep stack ⟨kind, mark⟩ = .more (.quoted mark name :: stack) := by
        rcases isMark with rfl | rfl <;> simp only [parseStep, openQuote, known]
      simp only [Derivation.tokens, List.cons_append, readOn, opened]
      rw [ih hu]
      simp only [attach]
  | parens opening closing forms ih =>
      obtain ⟨us, hus, rfl⟩ := map_eq_ok_iff.1 h
      simp only [Derivation.tokens, List.cons_append, List.append_assoc, readOn, parseStep]
      rw [readOn_allTokens hus fun d hd v hv stack ts => ih d hd hv stack ts]
      simp only [List.append_nil, List.nil_append, readOn, parseStep, closeList, List.reverse_reverse]

theorem parseForm_tokens {d : Derivation} {v : Value} (h : d.tree = .ok v) (ts : List Token) :
    parseForm [] (d.tokens ++ ts) = .form v ts := by
  change formAfter (.more []) (d.tokens ++ ts) = _
  rw [formAfter_readOn, readOn_tokens d h, ← formAfter_readOn]
  rfl

theorem parseForms_tokens (failure : Option ReadError) {d : Derivation} {v : Value}
    (h : d.tree = .ok v) (ts : List Token) :
    parseForms failure [] (d.tokens ++ ts) = (parseForms failure [] ts).map (v :: ·) := by
  change formsAfter failure (.more []) (d.tokens ++ ts) = _
  rw [formsAfter_readOn, readOn_tokens d h, ← formsAfter_readOn]
  rfl

theorem parseForms_of_trees {ds : List Derivation} {vs : List Value}
    (h : Derivation.trees ds = .ok vs) : parseForms none [] (Derivation.allTokens ds) = .ok vs := by
  induction ds generalizing vs with
  | nil =>
      cases h
      rfl
  | cons d ds ih =>
      obtain ⟨v, us, hv, hus, rfl⟩ := Derivation.trees_cons_eq_ok_iff.1 h
      rw [Derivation.allTokens, parseForms_tokens none hv, ih hus]
      rfl

/-! Soundness: what is on the stack was read from derivations that have begun. -/

/-- These tokens, and no others, have led to this stack. -/
inductive Opened : List Pending → List Token → Prop
  | nil : Opened [] []
  | quoted {stack us kind mark name} : Opened stack us → kind = .quote ∨ kind = .unquote →
      quoteName? mark = some name → Opened (.quoted mark name :: stack) (us ++ [⟨kind, mark⟩])
  | items {stack us opening ds vs} : Opened stack us → Derivation.trees ds = .ok vs →
      Opened (.items vs.reverse :: stack) (us ++ ⟨.lparen, opening⟩ :: Derivation.allTokens ds)

/-- The outcome of a step is what the tokens so far stand for. -/
def ParseStep.ReadFrom (us : List Token) : ParseStep → Prop
  | .more stack => Opened stack us
  | .form v => ∃ d : Derivation, d.tokens = us ∧ d.tree = .ok v
  | .wrong _ => True
  | .stray _ => True

theorem attach_readFrom {stack : List Pending} {us : List Token} (open_ : Opened stack us)
    {d : Derivation} {v : Value} (h : d.tree = .ok v) :
    (attach v stack).ReadFrom (us ++ d.tokens) := by
  induction open_ generalizing d v with
  | nil => exact ⟨d, rfl, h⟩
  | @quoted stack us kind mark name _ isMark known ih =>
      have marked : (Derivation.marked kind mark name isMark known d).tree = .ok (.list [.sym name, v]) := by
        simp only [Derivation.tree, h, Except.map]
      have outer := ih marked
      simp only [Derivation.tokens] at outer
      simpa [attach] using outer
  | @items stack us opening ds vs under hs _ =>
      have more : Opened (.items (vs ++ [v]).reverse :: stack)
          (us ++ ⟨.lparen, opening⟩ :: Derivation.allTokens (ds ++ [d])) :=
        .items under (Derivation.trees_append_singleton hs h)
      simpa [attach, ParseStep.ReadFrom, Derivation.allTokens_append, Derivation.allTokens] using more

theorem attachLeaf_readFrom {stack : List Pending} {us : List Token} (open_ : Opened stack us)
    {d : Derivation} {leaf : Except ReadError Value} (h : d.tree = leaf) :
    (attachLeaf leaf stack).ReadFrom (us ++ d.tokens) := by
  cases leaf with
  | ok v => exact attach_readFrom open_ h
  | error e => trivial

theorem openQuote_readFrom {stack : List Pending} {us : List Token} (open_ : Opened stack us)
    {t : Token} (isMark : t.kind = .quote ∨ t.kind = .unquote) :
    (openQuote t stack).ReadFrom (us ++ [t]) := by
  unfold openQuote
  split
  · next name known => exact .quoted open_ isMark known
  · trivial

theorem closeList_readFrom {stack : List Pending} {us : List Token} (open_ : Opened stack us)
    (closing : String) : (closeList stack).ReadFrom (us ++ [⟨.rparen, closing⟩]) := by
  cases open_ with
  | nil => trivial
  | quoted under isMark known => trivial
  | @items stack us opening ds vs under hs =>
      have closed : (Derivation.parens opening closing ds).tree = .ok (.list vs) := by
        simp only [Derivation.tree, hs, Except.map]
      have outer := attach_readFrom under closed
      simpa [closeList, Derivation.tokens] using outer

/-- One step keeps the account of the tokens. -/
theorem parseStep_readFrom {stack : List Pending} {us : List Token} (open_ : Opened stack us)
    (t : Token) : (parseStep stack t).ReadFrom (us ++ [t]) := by
  obtain ⟨kind, text⟩ := t
  cases kind with
  | symbol => exact attachLeaf_readFrom open_ (show (Derivation.word text).tree = _ from rfl)
  | string => exact attachLeaf_readFrom open_ (show (Derivation.literal text).tree = _ from rfl)
  | quote => exact openQuote_readFrom open_ (Or.inl rfl)
  | unquote => exact openQuote_readFrom open_ (Or.inr rfl)
  | lparen => exact .items open_ (show Derivation.trees [] = .ok [] from rfl)
  | rparen => exact closeList_readFrom open_ text
  | other name => trivial

/-- A run that ends well has read a sequence of derivations. -/
theorem derives_of_parseForms {stack : List Pending} {us ts : List Token} {vs : List Value}
    (open_ : Opened stack us) (h : parseForms none stack ts = .ok vs) : Derives (us ++ ts) vs := by
  induction ts generalizing stack us vs with
  | nil =>
      cases open_ with
      | nil =>
          cases h
          exact ⟨[], rfl, rfl⟩
      | quoted under isMark known => cases h
      | items under hs => cases h
  | cons t ts ih =>
      have step := parseStep_readFrom open_ t
      rw [parseForms_cons] at h
      cases outcome : parseStep stack t with
      | more stack' =>
          rw [outcome] at h step
          simpa using ih step h
      | form v =>
          rw [outcome] at h step
          obtain ⟨d, hd, hv⟩ := step
          obtain ⟨rest, hrest, rfl⟩ := map_eq_ok_iff.1 h
          obtain ⟨ds, hds, hvs⟩ := ih .nil hrest
          refine ⟨d :: ds, ?_, Derivation.trees_cons_eq_ok_iff.2 ⟨v, rest, hv, hvs, rfl⟩⟩
          simp [Derivation.allTokens, hd, hds]
      | wrong e =>
          rw [outcome] at h
          cases h
      | stray mark =>
          rw [outcome] at h
          cases ts <;> cases h

theorem parseForms_eq_ok_iff (ts : List Token) (vs : List Value) :
    parseForms none [] ts = .ok vs ↔ Derives ts vs := by
  constructor
  · intro h
    exact derives_of_parseForms .nil h
  · rintro ⟨ds, rfl, h⟩
    exact parseForms_of_trees h

/-! Readers of streams -/

namespace TokenStream

theorem parse_of_pending {s : TokenStream} {d : Derivation} {v : Value} {rest : List Token}
    (h : d.tree = .ok v) (pending : s.pending = d.tokens ++ rest) :
    s.parse = (.ok v, ⟨none, rest, s.failure⟩) := by
  simp only [parse, pending, parseForm_tokens h]

theorem peek_of_pending_nil {s : TokenStream} (h : s.pending = []) (clean : s.failure = none) :
    s.peek = (.ok none, s) := by
  obtain ⟨buffer, upcoming, failure⟩ := s
  cases clean
  cases buffer with
  | some t => simp [pending] at h
  | none =>
      simp only [pending, Option.toList_none, List.nil_append] at h
      subst h
      rfl

/-- Looking at a token that is there changes nothing but the buffer. -/
theorem peek_of_pending_cons {s : TokenStream} {t : Token} {ts : List Token} (h : s.pending = t :: ts) :
    ∃ s' : TokenStream, s.peek = (.ok (some t), s') ∧ s'.pending = t :: ts ∧ s'.failure = s.failure := by
  obtain ⟨buffer, upcoming, failure⟩ := s
  cases buffer with
  | some u =>
      simp only [pending, Option.toList_some, List.cons_append, List.nil_append, List.cons.injEq] at h
      obtain ⟨rfl, rfl⟩ := h
      exact ⟨_, rfl, rfl, rfl⟩
  | none =>
      simp only [pending, Option.toList_none, List.nil_append] at h
      subst h
      exact ⟨_, rfl, rfl, rfl⟩

end TokenStream

namespace FormReader

/-- Asked again and again, the reader gives these forms and then comes to its end. -/
inductive Gives : FormReader → List Value → Prop
  | done {r r'} : r.next = (.ok none, r') → Gives r []
  | form {r r' v vs} : r.next = (.ok (some v), r') → Gives r' vs → Gives r (v :: vs)

/-- What comes next from tokens that are left is what the parser reads first. -/
theorem next_of_pending_cons {s : TokenStream} (left : s.pending ≠ []) :
    (ofStream s).next = match parseForm [] s.pending with
      | .form v rest => (.ok (some v), ofStream ⟨none, rest, s.failure⟩)
      | .wrong e rest => (.error e, ⟨⟨none, rest, s.failure⟩, true⟩)
      | .incomplete e => (.error (s.failure.getD e), ⟨⟨none, [], none⟩, true⟩) := by
  obtain ⟨t, ts, eq⟩ := List.exists_cons_of_ne_nil left
  obtain ⟨s', peeked, pending, failure⟩ := TokenStream.peek_of_pending_cons eq
  simp only [next, ofStream, peeked, TokenStream.parse, pending, failure, eq, Bool.false_eq_true, if_false]
  cases parseForm [] (t :: ts) <;> rfl

theorem next_of_pending_nil {s : TokenStream} (h : s.pending = []) (clean : s.failure = none) :
    (ofStream s).next = (.ok none, ⟨s, true⟩) := by
  simp only [next, ofStream, TokenStream.peek_of_pending_nil h clean, Bool.false_eq_true, if_false]

theorem gives_nil_iff {r : FormReader} : r.Gives [] ↔ ∃ r', r.next = (.ok none, r') := by
  constructor
  · rintro ⟨last⟩
    exact ⟨_, last⟩
  · rintro ⟨r', last⟩
    exact .done last

theorem gives_cons_iff {r : FormReader} {v : Value} {vs : List Value} :
    r.Gives (v :: vs) ↔ ∃ r', r.next = (.ok (some v), r') ∧ r'.Gives vs := by
  constructor
  · intro h
    cases h with
    | form given rest => exact ⟨_, given, rest⟩
  · rintro ⟨r', given, rest⟩
    exact .form given rest

/-- Reading form by form comes to the same as reading all at once. -/
theorem gives_iff_parseForms {s : TokenStream} (clean : s.failure = none) (vs : List Value) :
    (ofStream s).Gives vs ↔ parseForms none [] s.pending = .ok vs := by
  induction vs generalizing s with
  | nil =>
      rw [gives_nil_iff]
      by_cases left : s.pending = []
      · simp [next_of_pending_nil left clean, left, parseForms]
      · rw [next_of_pending_cons left, parseForms_eq_parseForm none (Or.inr left)]
        cases parseForm [] s.pending with
        | form v rest => simp [map_eq_ok_iff]
        | wrong e rest => simp
        | incomplete e => simp
  | cons v vs ih =>
      rw [gives_cons_iff]
      by_cases left : s.pending = []
      · simp [next_of_pending_nil left clean, left, parseForms]
      · rw [next_of_pending_cons left, parseForms_eq_parseForm none (Or.inr left), clean]
        cases parseForm [] s.pending with
        | form u rest =>
            have later := ih (s := ⟨none, rest, none⟩) rfl
            simp only [TokenStream.pending, Option.toList_none, List.nil_append] at later
            simp only [map_eq_ok_iff]
            constructor
            · rintro ⟨r', given, gives⟩
              cases given
              exact ⟨vs, later.1 gives, rfl⟩
            · rintro ⟨us, gives, same⟩
              cases same
              exact ⟨_, rfl, later.2 gives⟩
        | wrong e rest => simp
        | incomplete e => simp

end FormReader

/-- The parser accepts exactly what the grammar derives, all at once or form by form; what is
derived has one derivation; and a form is read off a stream up to its last token. -/
theorem parser_accepts_grammar (ts : List Token) :
    (∀ vs, parseForms none [] ts = .ok vs ↔ Derives ts vs) ∧
    (∀ vs, (FormReader.ofStream (.ofTokens ts)).Gives vs ↔ Derives ts vs) ∧
    (∀ ds es, Derivation.allTokens ds = ts → Derivation.allTokens es = ts → ds = es) ∧
    (∀ (s : TokenStream) (d : Derivation) v, d.tree = .ok v → s.pending = d.tokens ++ ts →
      s.parse = (.ok v, ⟨none, ts, s.failure⟩)) := by
  refine ⟨parseForms_eq_ok_iff ts, ?_, ?_, ?_⟩
  · intro vs
    exact (FormReader.gives_iff_parseForms rfl vs).trans (parseForms_eq_ok_iff ts vs)
  · intro ds es hds hes
    exact Derivation.allTokens_injective (hds.trans hes.symm)
  · intro s d v h pending
    exact TokenStream.parse_of_pending h pending

end MiniLisp
