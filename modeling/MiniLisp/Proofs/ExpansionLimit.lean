import MiniLisp.Interpreter
import MiniLisp.Proofs.SharedFrames

/-!
The limit on macro expansions only ever cuts a run short. It is asked for at every full expansion, at
the top and wherever a program expands code itself, and going beyond it is an error that no program can
catch. So a run of an interpreter in which that error does not come up is the same under every higher
limit.
-/

namespace MiniLisp

/-- Limits by how much they allow; no bound allows most. -/
def LimitLe : Option Nat → Option Nat → Prop
  | _, none => True
  | some l, some l' => l ≤ l'
  | none, some _ => False

/-- The same settings, with at least as much room for expansions. -/
structure Config.Widens (c c' : Config) : Prop where
  scoping : c.scoping = c'.scoping
  limit : LimitLe c.maxExpansionDepth c'.maxExpansionDepth

/-- The failure of an expansion that went beyond the limit. -/
def Error.IsLimit (e : Error) : Prop := ∃ form l, e = .expansionLimit form l

theorem LimitLe.refl (limit : Option Nat) : LimitLe limit limit := by
  cases limit with
  | none => trivial
  | some l => exact Nat.le_refl l

theorem LimitLe.room {limit limit' : Option Nat} (le : LimitLe limit limit') :
    RoomFor Error.IsLimit limit limit' := by
  intro depth
  cases limit with
  | none =>
      cases limit' with
      | none => exact .inl rfl
      | some l' => exact le.elim
  | some l =>
      by_cases beyond : l < depth
      · refine .inr ⟨l, if_pos beyond, fun form => ⟨form, l, rfl⟩⟩
      · left
        cases limit' with
        | none => exact if_neg beyond
        | some l' =>
            have more : l ≤ l' := le
            simp only [exceeds, if_neg beyond, if_neg (show ¬ l' < depth by omega)]

theorem allows_widens : Config.Allows Error.IsLimit Config.Widens where
  default := ⟨rfl, .refl _⟩
  scoping h := h.scoping
  limit h := h.limit.room

/-! Two interpreters side by side -/

namespace Simulation

variable {S : Simulation} {e e' : FrameId} {α : Type} {post : α → Prop}

theorem lockstep_liftRead (r : Except ReadError α) :
    S.Lockstep e e' (liftRead r) (liftRead r) fun _ => True := by
  cases r with
  | ok a => exact lockstep_pure trivial
  | error error => exact lockstep_fail (Error.capturesOnly_read error)

theorem lockstep_logFailure {x y : Eval Value} {post : Value → Prop} (shown : String)
    (h : S.Lockstep e e' x y post) :
    S.Lockstep e e' (logFailure shown x) (logFailure shown y) post := by
  intro w w' start
  have outcome := h w w' start
  unfold logFailure
  generalize x w = r, y w' = r' at outcome
  cases outcome with
  | value holds related => exact .value holds related
  | @failed error w w' held related =>
      by_cases language : error.isLanguage = true
      · simp only [language, if_true]
        exact .failed held (S.record related _)
      · simp only [language]
        exact .failed held related
  | cut related => exact .cut related
  | @excused error w r fine =>
      by_cases language : error.isLanguage = true
      · simp only [language, if_true]
        exact .excused fine
      · simp only [language]
        exact .excused fine

variable (all : ∀ v : Value, v.CapturesOnly S.seen)

include all

theorem lockstep_runForm (fuel : Nat) (form : Value) :
    S.Lockstep e e' (runForm fuel e form) (runForm fuel e' form) fun _ => True := by
  have follows := follows_eval S fuel
  refine lockstep_bind (lockstep_print _ _) fun shown _ => ?_
  refine lockstep_bind (lockstep_record _ _) fun _ _ => ?_
  refine lockstep_logFailure shown ?_
  refine lockstep_bind (lockstep_expandAll follows fuel (all form)) fun expanded known => ?_
  intro w w' start
  exact (follows.run expanded e e' known w w' start).imp fun _ _ => trivial

theorem lockstep_runForms (fuel : Nat) (last : Option Value) (forms : List Value) :
    S.Lockstep e e' (runForms fuel e last forms) (runForms fuel e' last forms) fun _ => True := by
  induction forms generalizing last with
  | nil => exact lockstep_pure trivial
  | cons form rest ih => exact lockstep_bind (lockstep_runForm all fuel form) fun v _ => ih (some v)

theorem lockstep_runText (fuel : Nat) (text : String) :
    S.Lockstep e e' (runText fuel e text) (runText fuel e' text) fun _ => True := by
  refine lockstep_bind (lockstep_liftRead _) fun forms _ => ?_
  refine lockstep_bind (lockstep_runForms all fuel none forms) fun last _ => ?_
  cases last with
  | none => exact lockstep_raise (.arity _)
  | some v => exact lockstep_pure trivial

theorem lockstep_runSingle (fuel : Nat) (source : Source) :
    S.Lockstep e e' (runSingle fuel e source) (runSingle fuel e' source) fun _ => True := by
  cases source with
  | text s => exact lockstep_bind (lockstep_liftRead _) fun form _ => lockstep_runForm all fuel form
  | tree form => exact lockstep_runForm all fuel form

end Simulation

/-- What an interpreter is asked to run in its root frame: the forms of a text, or one form. -/
inductive Request where
  | text (s : String)
  | form (v : Value)

def Request.run (fuel : Nat) : Request → Eval Value
  | .text s => runText fuel rootFrame s
  | .form v => runSingle fuel rootFrame (Source.ofValue v)

/-- Requests in turn. One that fails keeps what it did, and the next goes on from there. -/
def runRequests (fuel : Nat) : List Request → World → List (Except Stop Value) × World
  | [], w => ([], w)
  | request :: rest, w =>
      let first := request.run fuel w
      let others := runRequests fuel rest first.2
      (first.1 :: others.1, others.2)

/-- Worlds that differ in the limit only, the second having more room. -/
def Widened (w w' : World) : Prop := Shared (fun _ => True) Config.Widens rootFrame rootFrame w w'

theorem Request.same_run (fuel : Nat) (request : Request) {w w' : World} (start : Widened w w') :
    (sharedSimulation (fun _ => True) allows_widens).Same rootFrame rootFrame (fun _ => True)
      (request.run fuel w) (request.run fuel w') := by
  have all : ∀ v : Value, v.CapturesOnly fun _ => True := fun _ _ _ => trivial
  cases request with
  | text s => exact Simulation.lockstep_runText all fuel s w w' start
  | form v => exact Simulation.lockstep_runSingle all fuel _ w w' start

/-- One request that stays within the limit. -/
theorem Request.run_widened (fuel : Nat) (request : Request) {w w' : World} (start : Widened w w')
    (within : ∀ error, (request.run fuel w).1 = .error (.failed error) → ¬ error.IsLimit) :
    (request.run fuel w').1 = (request.run fuel w).1 ∧
      Widened (request.run fuel w).2 (request.run fuel w').2 := by
  obtain ⟨result, related⟩ := (request.same_run fuel start).outcome within
  exact ⟨result.symm, related⟩

theorem runRequests_widened (fuel : Nat) (requests : List Request) {w w' : World}
    (start : Widened w w')
    (within : ∀ r ∈ (runRequests fuel requests w).1, ∀ error, r = .error (.failed error) →
      ¬ error.IsLimit) :
    (runRequests fuel requests w').1 = (runRequests fuel requests w).1 ∧
      Widened (runRequests fuel requests w).2 (runRequests fuel requests w').2 := by
  induction requests generalizing w w' with
  | nil => exact ⟨rfl, start⟩
  | cons request rest ih =>
      rw [runRequests, List.forall_mem_cons] at within
      obtain ⟨same, related⟩ := request.run_widened fuel start within.1
      obtain ⟨others, final⟩ := ih related within.2
      exact ⟨by rw [runRequests, runRequests, same, others], final⟩

theorem start_widened (config : Config) {limit : Option Nat}
    (more : LimitLe config.maxExpansionDepth limit) (input : String) (clock : Clock) :
    Widened (World.start config input clock)
      (World.start { config with maxExpansionDepth := limit } input clock) := by
  refine ⟨rfl, trivial, ⟨rfl, fun _ _ => trivial, ?_, fun _ _ _ _ _ _ => trivial,
    fun _ _ _ _ _ _ _ _ => trivial⟩, rfl, rfl⟩
  intro i _
  cases i with
  | zero => exact .some ⟨rfl, .root ⟨rfl, more⟩⟩
  | succ i => exact .none

/-- A fresh interpreter runs requests one after the other, and none fails by going beyond the limit on
expansions. Then under any higher limit every request has the same outcome, with the same traces
outside, and all frames end with the same bindings. -/
theorem raised_limit_same_run (config : Config) {limit : Option Nat}
    (more : LimitLe config.maxExpansionDepth limit) (input : String) (clock : Clock) (fuel : Nat)
    (requests : List Request)
    (within : ∀ r ∈ (runRequests fuel requests (World.start config input clock)).1,
      ∀ form l, r ≠ .error (.failed (.expansionLimit form l))) :
    let run := runRequests fuel requests (World.start config input clock)
    let run' := runRequests fuel requests
      (World.start { config with maxExpansionDepth := limit } input clock)
    run'.1 = run.1 ∧ run'.2.console = run.2.console ∧ run'.2.log = run.2.log ∧
      ∀ id, run'.2.store.bindings? id = run.2.store.bindings? id := by
  intro run run'
  have start := start_widened config more input clock
  have unexcused : ∀ r ∈ run.1, ∀ error, r = .error (.failed error) → ¬ error.IsLimit := by
    rintro r member error rfl ⟨form, l, rfl⟩
    exact within _ member form l rfl
  obtain ⟨results, final⟩ := runRequests_widened fuel requests start unexcused
  exact ⟨results, final.console.symm, final.log.symm, fun id => (final.store.bindings? trivial).symm⟩

/-- A macro, a call that takes two expansions, an expansion by the program itself, and a failure. -/
def macroRequests : List Request :=
  [.form (.list [.sym "def", .sym "same", .list [.sym "macro", .list [.sym "x"], .sym "x"]]),
    .form (.list [.sym "same", .list [.sym "same", .int 7]]),
    .form (.list [.sym "m-expand", .list [.sym "same", .int 8]]),
    .form (.list [.sym "car", .int 1])]

/-- Two expansions are enough for these requests, so they run the same without a bound. -/
theorem macroRequests_unbounded :
    let run := runRequests 20 macroRequests (World.start { maxExpansionDepth := some 2 } "" .stopped)
    let run' := runRequests 20 macroRequests (World.start { maxExpansionDepth := none } "" .stopped)
    (∀ r ∈ run.1, ∀ form l, r ≠ .error (.failed (.expansionLimit form l))) ∧
    (run'.1 = run.1 ∧ run'.2.console = run.2.console ∧ run'.2.log = run.2.log ∧
      ∀ id, run'.2.store.bindings? id = run.2.store.bindings? id) ∧
    run'.1 = [.ok (.sym "same"), .ok (.int 7), .ok (.int 8),
      .error (.failed (.typeMismatch (some .list) (.int 1)))] := by
  intro run run'
  have results : run.1 = [.ok (.sym "same"), .ok (.int 7), .ok (.int 8),
      .error (.failed (.typeMismatch (some .list) (.int 1)))] := rfl
  have within : ∀ r ∈ run.1, ∀ form l, r ≠ .error (.failed (.expansionLimit form l)) := by
    simp [results]
  have same := raised_limit_same_run { maxExpansionDepth := some 2 } (show LimitLe _ none from trivial)
    "" .stopped 20 macroRequests within
  exact ⟨within, same, same.1.trans results⟩

end MiniLisp
