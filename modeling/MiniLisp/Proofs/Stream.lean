import Mathlib.Logic.Function.Basic
import MiniLisp.Proofs.Grammar

/-!
Streams of tokens by what is left of them. What a stream answers, and what is left of it then, depends on the
tokens and the failure that are left and on nothing else; it does not matter whether the first token has been
looked at. So to look at a token once more changes no later answer. A reader of forms fails where reading all
at once does.
-/

namespace MiniLisp

theorem map_eq_error_iff {ε α β : Type} {f : α → β} {x : Except ε α} {e : ε} :
    x.map f = .error e ↔ x = .error e := by
  cases x with
  | error e => simp [Except.map]
  | ok a => simp [Except.map]

/-! Asking streams -/

/-- What a stream can be asked. -/
structure StreamOps (σ : Type) where
  peek : σ → Except ReadError (Option Token) × σ
  advance : σ → Except ReadError (Option Token) × σ
  parse : σ → Except ReadError Value × σ
  /-- The next form for a reader that may have finished, and whether it has finished then. -/
  next : Bool → σ → Except ReadError (Option Value) × Bool × σ

/-- A stream that readers share, and which of them have finished. -/
structure SharedStream (σ : Type) where
  stream : σ
  finished : Nat → Bool

/-- No reader has finished. -/
def SharedStream.ofStream {σ : Type} (s : σ) : SharedStream σ := ⟨s, fun _ => false⟩

def SharedStream.map {σ τ : Type} (view : σ → τ) (u : SharedStream σ) : SharedStream τ :=
  ⟨view u.stream, u.finished⟩

inductive StreamStep where
  | peek
  | advance
  | parse
  | next (reader : Nat)

inductive StreamAnswer where
  | token (answer : Except ReadError (Option Token))
  | form (answer : Except ReadError Value)
  | next (answer : Except ReadError (Option Value))

namespace StreamOps

variable {σ τ : Type}

def step (o : StreamOps σ) (u : SharedStream σ) : StreamStep → StreamAnswer × SharedStream σ
  | .peek => (.token (o.peek u.stream).1, { u with stream := (o.peek u.stream).2 })
  | .advance => (.token (o.advance u.stream).1, { u with stream := (o.advance u.stream).2 })
  | .parse => (.form (o.parse u.stream).1, { u with stream := (o.parse u.stream).2 })
  | .next reader =>
      let given := o.next (u.finished reader) u.stream
      (.next given.1, ⟨given.2.2, Function.update u.finished reader given.2.1⟩)

/-- The answers to steps that are taken one after the other, errors or not, and what there is then. -/
def run (o : StreamOps σ) (u : SharedStream σ) : List StreamStep → List StreamAnswer × SharedStream σ
  | [] => ([], u)
  | step :: steps =>
      let later := o.run (o.step u step).2 steps
      ((o.step u step).1 :: later.1, later.2)

def answers (o : StreamOps σ) (s : σ) (steps : List StreamStep) : List StreamAnswer :=
  (o.run (.ofStream s) steps).1

def after (o : StreamOps σ) (s : σ) (steps : List StreamStep) : σ := (o.run (.ofStream s) steps).2.stream

/-- A stream answers as another does that shows what there is to see of it. -/
structure Follows (o : StreamOps σ) (p : StreamOps τ) (view : σ → τ) : Prop where
  peek : ∀ s, p.peek (view s) = Prod.map id view (o.peek s)
  advance : ∀ s, p.advance (view s) = Prod.map id view (o.advance s)
  parse : ∀ s, p.parse (view s) = Prod.map id view (o.parse s)
  next : ∀ finished s, p.next finished (view s) = Prod.map id (Prod.map id view) (o.next finished s)

namespace Follows

variable {o : StreamOps σ} {p : StreamOps τ} {view : σ → τ}

theorem step (follows : o.Follows p view) (u : SharedStream σ) (step : StreamStep) :
    p.step (u.map view) step = Prod.map id (SharedStream.map view) (o.step u step) := by
  cases step with
  | peek => simp only [StreamOps.step, SharedStream.map, follows.peek]; rfl
  | advance => simp only [StreamOps.step, SharedStream.map, follows.advance]; rfl
  | parse => simp only [StreamOps.step, SharedStream.map, follows.parse]; rfl
  | next reader => simp only [StreamOps.step, SharedStream.map, follows.next]; rfl

theorem run (follows : o.Follows p view) (u : SharedStream σ) (steps : List StreamStep) :
    p.run (u.map view) steps = Prod.map id (SharedStream.map view) (o.run u steps) := by
  induction steps generalizing u with
  | nil => rfl
  | cons first steps ih =>
      simp only [StreamOps.run, follows.step, Prod.map_fst, Prod.map_snd, ih]
      rfl

theorem answers (follows : o.Follows p view) (s : σ) (steps : List StreamStep) :
    p.answers (view s) steps = o.answers s steps := by
  have runs := follows.run (.ofStream s) steps
  exact congrArg Prod.fst runs

theorem after (follows : o.Follows p view) (s : σ) (steps : List StreamStep) :
    p.after (view s) steps = view (o.after s steps) := by
  have runs := follows.run (.ofStream s) steps
  exact congrArg (fun out => out.2.stream) runs

end Follows

/-- What holds of a stream still holds when it has been asked something. -/
structure Keeps (o : StreamOps σ) (holds : σ → Prop) : Prop where
  peek : ∀ s, holds s → holds (o.peek s).2
  advance : ∀ s, holds s → holds (o.advance s).2
  parse : ∀ s, holds s → holds (o.parse s).2
  next : ∀ finished s, holds s → holds (o.next finished s).2.2

theorem Keeps.step {o : StreamOps σ} {holds : σ → Prop} (keeps : o.Keeps holds) {u : SharedStream σ}
    (start : holds u.stream) (step : StreamStep) : holds (o.step u step).2.stream := by
  cases step with
  | peek => exact keeps.peek _ start
  | advance => exact keeps.advance _ start
  | parse => exact keeps.parse _ start
  | next reader => exact keeps.next _ _ start

theorem Keeps.run {o : StreamOps σ} {holds : σ → Prop} (keeps : o.Keeps holds) {u : SharedStream σ}
    (start : holds u.stream) (steps : List StreamStep) : holds (o.run u steps).2.stream := by
  induction steps generalizing u with
  | nil => exact start
  | cons step steps ih => exact ih (keeps.step start step)

end StreamOps

/-- How a reader goes on: it looks at the next token, and if there is one it reads a form. -/
def nextBy {σ : Type} (peek : σ → Except ReadError (Option Token) × σ)
    (parse : σ → Except ReadError Value × σ) (finished : Bool) (s : σ) :
    Except ReadError (Option Value) × Bool × σ :=
  if finished then (.ok none, true, s)
  else match peek s with
    | (.error e, s') => (.error e, true, s')
    | (.ok none, s') => (.ok none, true, s')
    | (.ok (some _), s') => match parse s' with
      | (.ok v, s'') => (.ok (some v), false, s'')
      | (.error e, s'') => (.error e, true, s'')

theorem nextBy_view {σ τ : Type} {peek : σ → Except ReadError (Option Token) × σ}
    {peek' : τ → Except ReadError (Option Token) × τ} {parse : σ → Except ReadError Value × σ}
    {parse' : τ → Except ReadError Value × τ} {view : σ → τ}
    (peeks : ∀ s, peek' (view s) = Prod.map id view (peek s))
    (parses : ∀ s, parse' (view s) = Prod.map id view (parse s)) (finished : Bool) (s : σ) :
    nextBy peek' parse' finished (view s) =
      Prod.map id (Prod.map id view) (nextBy peek parse finished s) := by
  cases finished with
  | true => rfl
  | false =>
      simp only [nextBy, peeks, Bool.false_eq_true, if_false]
      rcases peek s with ⟨(e | _ | t), s'⟩
      · rfl
      · rfl
      · simp only [Prod.map_apply, id_eq, parses]
        rcases parse s' with ⟨(e | v), s''⟩ <;> rfl

theorem nextBy_keeps {σ : Type} {peek : σ → Except ReadError (Option Token) × σ}
    {parse : σ → Except ReadError Value × σ} {holds : σ → Prop} (peeks : ∀ s, holds s → holds (peek s).2)
    (parses : ∀ s, holds s → holds (parse s).2) (finished : Bool) (s : σ) (start : holds s) :
    holds (nextBy peek parse finished s).2.2 := by
  cases finished with
  | true => exact start
  | false =>
      have looked := peeks s start
      simp only [nextBy, Bool.false_eq_true, if_false]
      generalize peek s = look at looked
      obtain ⟨(e | _ | t), s'⟩ := look
      · exact looked
      · exact looked
      · have read := parses s' looked
        simp only
        generalize parse s' = given at read
        obtain ⟨(e | v), s''⟩ := given <;> exact read

/-! What is left of a stream -/

namespace Lexed

def peek : Lexed → Except ReadError (Option Token) × Lexed
  | ⟨t :: ts, failure⟩ => (.ok (some t), ⟨t :: ts, failure⟩)
  | ⟨[], some e⟩ => (.error e, ⟨[], none⟩)
  | ⟨[], none⟩ => (.ok none, ⟨[], none⟩)

def advance : Lexed → Except ReadError (Option Token) × Lexed
  | ⟨t :: ts, failure⟩ => (.ok (some t), ⟨ts, failure⟩)
  | ⟨[], failure⟩ => peek ⟨[], failure⟩

end Lexed

/-- What a stream says of the outcome, and what is left behind it. -/
def Parsed.outcome (failure : Option ReadError) : Parsed → Except ReadError Value × Lexed
  | .form v rest => (.ok v, ⟨rest, failure⟩)
  | .wrong e rest => (.error e, ⟨rest, failure⟩)
  | .incomplete e => (.error (failure.getD e), ⟨[], none⟩)

namespace Lexed

def parse (l : Lexed) : Except ReadError Value × Lexed := (parseForm [] l.tokens).outcome l.failure

def ops : StreamOps Lexed := ⟨peek, advance, parse, nextBy peek parse⟩

/-- To look at a token takes nothing away, unless the failure shows itself. -/
theorem peek_eq_of_ok {l : Lexed} {t : Option Token} (h : l.peek.1 = .ok t) : l.peek = (.ok t, l) := by
  obtain ⟨tokens, failure⟩ := l
  cases tokens with
  | cons u us =>
      cases h
      rfl
  | nil =>
      cases failure with
      | none =>
          cases h
          rfl
      | some e => cases h

theorem run_insertIdx_peek {u : SharedStream Lexed} {steps : List StreamStep} {i : Nat} {t : Option Token}
    (quiet : (ops.run u (steps.take i)).2.stream.peek.1 = .ok t) :
    (ops.run u (steps.insertIdx i .peek)).1 = (ops.run u steps).1.insertIdx i (.token (.ok t)) := by
  induction i generalizing u steps with
  | zero =>
      have looked : u.stream.peek = (.ok t, u.stream) := peek_eq_of_ok quiet
      simp only [List.insertIdx_zero, StreamOps.run, StreamOps.step, ops, looked]
  | succ i ih =>
      cases steps with
      | nil => rfl
      | cons step steps =>
          simp only [List.insertIdx_succ_cons, StreamOps.run]
          rw [ih quiet]

end Lexed

namespace TokenStream

def left (s : TokenStream) : Lexed := ⟨s.pending, s.failure⟩

def ops : StreamOps TokenStream where
  peek := peek
  advance := advance
  parse := parse
  next finished s :=
    let given := FormReader.next ⟨s, finished⟩
    (given.1, given.2.finished, given.2.stream)

theorem peek_left (s : TokenStream) : s.left.peek = Prod.map id left s.peek := by
  obtain ⟨buffer, upcoming, failure⟩ := s
  cases buffer with
  | some t => rfl
  | none =>
      cases upcoming with
      | cons t ts => rfl
      | nil => cases failure <;> rfl

theorem advance_left (s : TokenStream) : s.left.advance = Prod.map id left s.advance := by
  obtain ⟨buffer, upcoming, failure⟩ := s
  cases buffer with
  | some t => rfl
  | none =>
      cases upcoming with
      | cons t ts => rfl
      | nil => cases failure <;> rfl

theorem parse_left (s : TokenStream) : s.left.parse = Prod.map id left s.parse := by
  simp only [Lexed.parse, parse, left]
  cases parseForm [] s.pending <;> rfl

theorem next_eq (finished : Bool) (s : TokenStream) : ops.next finished s = nextBy peek parse finished s := by
  simp only [ops, FormReader.next, nextBy]
  cases finished with
  | true => rfl
  | false =>
      simp only [Bool.false_eq_true, if_false]
      rcases s.peek with ⟨(e | _ | t), s'⟩
      · rfl
      · rfl
      · simp only
        rcases s'.parse with ⟨(e | v), s''⟩ <;> rfl

theorem follows : ops.Follows Lexed.ops left where
  peek := peek_left
  advance := advance_left
  parse := parse_left
  next finished s := by
    rw [next_eq]
    exact nextBy_view peek_left parse_left finished s

end TokenStream

/-! Readers that fail -/

theorem length_lt_of_parseForm {stack : List Pending} {ts rest : List Token} {v : Value}
    (h : parseForm stack ts = .form v rest) : rest.length < ts.length := by
  induction ts generalizing stack with
  | nil => cases h
  | cons t ts ih =>
      rw [parseForm_cons] at h
      cases step : parseStep stack t with
      | more stack' =>
          rw [step] at h
          exact Nat.lt_succ_of_lt (ih h)
      | form u =>
          rw [step] at h
          cases h
          exact Nat.lt_succ_self _
      | wrong e =>
          rw [step] at h
          cases h
      | stray mark =>
          rw [step] at h
          cases ts <;> cases h

namespace FormReader

/-- Asked again and again, the reader comes to this error. -/
inductive Fails : FormReader → ReadError → Prop
  | now {r r' e} : r.next = (.error e, r') → Fails r e
  | later {r r' v e} : r.next = (.ok (some v), r') → Fails r' e → Fails r e

theorem fails_iff {r r' : FormReader} {e : ReadError} {given : Except ReadError (Option Value)}
    (h : r.next = (given, r')) :
    r.Fails e ↔ given = .error e ∨ ∃ v, given = .ok (some v) ∧ r'.Fails e := by
  constructor
  · intro fails
    cases fails with
    | now next =>
        rw [h] at next
        cases next
        exact .inl rfl
    | @later _ _ v _ next rest =>
        rw [h] at next
        cases next
        exact .inr ⟨v, rfl, rest⟩
  · rintro (rfl | ⟨v, rfl, rest⟩)
    · exact .now h
    · exact .later h rest

/-- At the end of the tokens the reader fails with the failure that is left, if there is one. -/
theorem fails_iff_failure {s : TokenStream} (h : s.pending = []) (e : ReadError) :
    (ofStream s).Fails e ↔ s.failure = some e := by
  obtain ⟨buffer, upcoming, failure⟩ := s
  cases buffer with
  | some t => cases h
  | none =>
      obtain rfl : upcoming = [] := h
      cases failure with
      | none => simp [fails_iff (next_of_pending_nil (s := ⟨none, [], none⟩) rfl rfl)]
      | some e' =>
          have next : (ofStream ⟨none, [], some e'⟩).next = (.error e', ⟨⟨none, [], none⟩, true⟩) :=
            rfl
          simp [fails_iff next]

/-- Reading form by form fails as reading all at once does. -/
theorem fails_iff_parseForms (s : TokenStream) (e : ReadError) :
    (ofStream s).Fails e ↔ parseForms s.failure [] s.pending = .error e := by
  -- Not on the tokens one by one: a form takes any number of them, but at least one.
  induction size : s.pending.length using Nat.strongRecOn generalizing s with
  | ind n ih =>
      by_cases left : s.pending = []
      · rw [fails_iff_failure left, left]
        cases s.failure <;> simp [parseForms]
      · have next := next_of_pending_cons left
        rw [parseForms_eq_parseForm s.failure (Or.inr left)]
        cases parsed : parseForm [] s.pending with
        | form v rest =>
            rw [parsed] at next
            have shorter := length_lt_of_parseForm parsed
            rw [size] at shorter
            have later : (ofStream ⟨none, rest, s.failure⟩).Fails e ↔
                parseForms s.failure [] rest = .error e :=
              ih rest.length shorter ⟨none, rest, s.failure⟩ rfl
            rw [fails_iff next, map_eq_error_iff, ← later]
            simp
        | wrong e' rest =>
            rw [parsed] at next
            simp [fails_iff next]
        | incomplete e' =>
            rw [parsed] at next
            simp [fails_iff next]

end FormReader

end MiniLisp
