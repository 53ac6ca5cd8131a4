import MiniLisp.Proofs.Invariant
import MiniLisp.Proofs.RoundTrip

/-!
What a session keeps. An interpreter reads, expands and evaluates, and is asked again in the world that
it has left, also after a failure. Trees that are read are made of words and literals, so an invariant of
the evaluator that allows these holds along every session.
-/

namespace MiniLisp

namespace Value.Hereditary

variable {P : Value → Prop}

/-- A tree that is read consists of words and literals. -/
theorem of_tree (h : Hereditary P) (integers : ∀ n, P (.int n)) {d : Derivation} {v : Value}
    (read : d.tree = .ok v) : P v := by
  induction d generalizing v with
  | word text =>
      obtain ⟨b, rfl⟩ | ⟨n, rfl⟩ | ⟨x, rfl⟩ | ⟨name, rfl⟩ := eq_leaf_of_atomOfChars read
      · exact h.bool b
      · exact integers n
      · exact h.float x
      · exact h.sym name
  | literal text =>
      obtain ⟨s, -, rfl⟩ := map_eq_ok_iff.1 read
      exact h.str s
  | marked kind mark name isMark known form ih =>
      obtain ⟨u, inner, rfl⟩ := map_eq_ok_iff.1 read
      apply h.list.2
      simp [h.sym name, ih inner]
  | parens opening closing forms ih =>
      obtain ⟨vs, inner, rfl⟩ := map_eq_ok_iff.1 read
      apply h.list.2
      intro u member
      obtain ⟨d, among, tree⟩ := exists_of_mem_trees inner member
      exact ih d among tree

theorem of_readAll (h : Hereditary P) (integers : ∀ n, P (.int n)) {source : String}
    {forms : List Value} (read : readAll source = .ok forms) : ∀ v ∈ forms, P v := by
  intro v member
  obtain ⟨ds, -, trees⟩ := derives_of_readAll read
  obtain ⟨d, -, tree⟩ := exists_of_mem_trees trees member
  exact h.of_tree integers tree

theorem of_readOne (h : Hereditary P) (integers : ∀ n, P (.int n)) {source : String} {form : Value}
    (read : readOne source = .ok form) : P form := by
  unfold readOne at read
  split at read
  · next all =>
      cases read
      exact h.of_readAll integers all form List.mem_cons_self
  · cases read
  · cases read

end Value.Hereditary

/-- The tree in a source, if it is one, has the property. -/
def Source.Holds (P : Value → Prop) : Source → Prop
  | .text _ => True
  | .tree v => P v

/-- What an interpreter can be asked to do in a frame. -/
inductive Operation where
  | ask (query : Query) (expr : Value)
  | single (source : Source)
  | sequence (sources : List Source)
  | all (source : String)

namespace Operation

def run (fuel : Nat) (env : FrameId) : Operation → Eval Value
  | .ask query expr => query.run (eval fuel) expr env
  | .single source => runSingle fuel env source
  | .sequence sources => runSequence fuel env sources
  | .all source => runText fuel env source

/-- All trees that come with the operation have the property. -/
def Holds (P : Value → Prop) : Operation → Prop
  | .ask _ expr => P expr
  | .single source => source.Holds P
  | .sequence sources => ∀ source ∈ sources, source.Holds P
  | .all _ => True

end Operation

namespace Invariant

variable {I : Invariant} {e : FrameId} {n : Nat}

theorem tracks_logFailure {x y : Eval Value} {post : Nat → Value → Prop} (shown : String)
    (h : I.Tracks e n x y post) : I.Tracks e n (logFailure shown x) (logFailure shown y) post := by
  intro w enough start
  have outcome := h w enough start
  unfold logFailure
  generalize x w = r, y w = r' at outcome
  cases outcome with
  | value grown holds known => exact .value grown holds known
  | @failed error w grown holds known =>
      by_cases language : error.isLanguage = true
      · simp only [language, if_true]
        exact .failed grown (holds.of_store_eq rfl) known
      · simp only [language]
        exact .failed grown holds known
  | cut grown holds => exact .cut grown holds

/-- What may be about after some forms: the value of the last, if there was one. -/
def Last (I : Invariant) (n : Nat) (last : Option Value) : Prop := ∀ v ∈ last, I.Held n v

theorem last_some {v : Value} (held : I.Held n v) : I.Last n (some v) := by
  rintro u ⟨⟩
  exact held

section

variable (integers : I.Integers) (reads : ∀ error, I.Fair (.read error))

include reads in
theorem tracks_liftRead {α : Type} {r : Except ReadError α} {post : Nat → α → Prop}
    (known : ∀ a, r = .ok a → ∀ m, post m a) : I.Tracks e n (liftRead r) (liftRead r) post := by
  cases r with
  | ok a => exact tracks_pure fun m _ => known a rfl m
  | error error => exact fun w _ start => .failed (Nat.le_refl _) start (reads error)

include integers in
theorem tracks_runForm (fuel : Nat) {form : Value} (held : I.Held n form) :
    I.Tracks e n (runForm fuel e form) (runForm fuel e form) I.Held := by
  have follows := follows_eval integers fuel
  refine tracks_print_bind held (tracks_record_bind _ _ (tracks_logFailure _ ?_))
  exact tracks_bind (tracks_expandAll follows fuel held) fun expanded m _ known => follows.run known e

include integers in
theorem tracks_runForms (fuel : Nat) {last : Option Value} (known : I.Last n last) {forms : List Value}
    (held : I.Each n forms) :
    I.Tracks e n (runForms fuel e last forms) (runForms fuel e last forms) I.Last := by
  induction forms generalizing last n with
  | nil => exact tracks_pure fun m more v here => I.mono more (known v here)
  | cons form rest ih =>
      rw [Each, List.forall_mem_cons] at held
      refine tracks_bind (tracks_runForm integers fuel held.1) fun v m more result => ?_
      exact ih (last_some result) (Each.mono held.2 more)

include integers reads

theorem tracks_runSources (fuel : Nat) {last : Option Value} (known : I.Last n last)
    {sources : List Source} (held : ∀ source ∈ sources, source.Holds (I.Held n)) :
    I.Tracks e n (runSources fuel e last sources) (runSources fuel e last sources) I.Last := by
  induction sources generalizing last n with
  | nil => exact tracks_pure fun m more v here => I.mono more (known v here)
  | cons source rest ih =>
      rw [List.forall_mem_cons] at held
      have later : ∀ {m}, n ≤ m → ∀ source ∈ rest, source.Holds (I.Held m) := by
        intro m more source member
        cases source with
        | text s => trivial
        | tree v => exact I.mono more (held.2 _ member)
      cases source with
      | text s =>
          have forms : ∀ forms, readAll s = .ok forms → ∀ m, I.Each m forms :=
            fun forms read m => (I.hereditary m).of_readAll (integers m) read
          refine tracks_bind (tracks_liftRead reads forms) fun forms m more each => ?_
          have still : I.Last m last := fun v here => I.mono more (known v here)
          refine tracks_bind (tracks_runForms integers fuel still each) fun v k further result => ?_
          exact ih result (later (Nat.le_trans more further))
      | tree form =>
          refine tracks_bind (tracks_runForm integers fuel held.1) fun v m more result => ?_
          exact ih (last_some result) (later more)

omit integers reads in
theorem tracks_lastValue {last : Option Value} (known : I.Last n last) :
    I.Tracks e n (lastValue last) (lastValue last) I.Held := by
  cases last with
  | none => exact tracks_raise (.arity _)
  | some v => exact tracks_held (known v rfl)

theorem tracks_operation (fuel : Nat) {op : Operation} (held : op.Holds (I.Held n)) :
    I.Tracks e n (op.run fuel e) (op.run fuel e) I.Held := by
  have nothing : ∀ m, I.Last m none := fun m => by rintro v ⟨⟩
  cases op with
  | ask query expr => exact tracks_query (follows_eval integers fuel) held e query
  | single source =>
      cases source with
      | text s =>
          have form : ∀ form, readOne s = .ok form → ∀ m, I.Held m form :=
            fun form read m => (I.hereditary m).of_readOne (integers m) read
          refine tracks_bind (tracks_liftRead reads form) fun form m _ known => ?_
          exact tracks_runForm integers fuel known
      | tree v => exact tracks_runForm integers fuel held
  | sequence sources =>
      refine tracks_bind (tracks_runSources integers reads fuel (nothing n) held) ?_
      exact fun last m _ known => tracks_lastValue known
  | all source =>
      have forms : ∀ forms, readAll source = .ok forms → ∀ m, I.Each m forms :=
        fun forms read m => (I.hereditary m).of_readAll (integers m) read
      refine tracks_bind (tracks_liftRead reads forms) fun forms m _ each => ?_
      refine tracks_bind (tracks_runForms integers fuel (nothing m) each) ?_
      exact fun last k _ known => tracks_lastValue known

end

end Invariant

end MiniLisp
