import Mathlib.Algebra.Group.Nat.Defs
import Mathlib.Algebra.Ring.Int.Defs
import MiniLisp.Proofs.ValueClosure

/-!
How an evaluation can fail. An error keeps the values it is about and prints them when it is raised, and
printing has a limit of its own: an integer of too many digits has no text. So a failure is an error of
the language or that limit; and it is never the limit in a run that meets no such integer.
-/

namespace MiniLisp

open Eval (Within within_bind within_pure within_stop)

theorem Value.hereditary_printable : Value.Hereditary fun v => v.printable = true where
  float _ := rfl
  bool _ := rfl
  str _ := rfl
  sym _ := rfl
  list := Value.allPrintable_iff _
  parts h := by simpa [Value.printable] using h
  procedure _ _ _ inParams inBody := by simp [Value.printable, inParams, inBody]

namespace Error.About

variable {P : Value → Prop} {cause : Error}

theorem isLanguage (h : cause.About P) : cause.isLanguage = true := by
  cases h <;> rfl

theorem printable (h : cause.About fun v => v.printable = true) : cause.printable = true := by
  cases h with
  | typeMismatch _ known => exact known
  | malformedList known => exact known
  | expansionLimit _ known => exact known
  | _ => rfl

end Error.About

/-- Nothing is known but the two ways to fail. -/
def failureInvariant : Invariant where
  Held _ _ := True
  Fair error := error.isLanguage = true ∨ error = .integerText
  Place _ _ := True
  hereditary _ := Value.hereditary_true
  mono _ _ := trivial
  reports about := by
    unfold Error.reported
    split
    · exact .inl about.isLanguage
    · exact .inr rfl
  unprinted _ _ := .inr rfl
  lexical _ _ _ _ _ _ _ := trivial
  define _ _ _ := trivial
  child _ _ := trivial
  call _ _ _ := trivial
  back _ _ _ := trivial

/-- Whatever can be printed, no error about it fails to be. -/
def printableInvariant : Invariant where
  Held _ v := v.printable = true
  Fair error := error.isLanguage = true
  Place _ _ := True
  hereditary _ := Value.hereditary_printable
  mono _ known := known
  reports about := by
    rw [Error.reported, if_pos about.printable]
    exact about.isLanguage
  unprinted known long := by
    rw [known] at long
    cases long
  lexical _ _ kind _ _ inParams inBody := by simp [Value.printable, inParams, inBody]
  define _ _ _ := trivial
  child _ _ := trivial
  call _ _ _ := trivial
  back _ _ _ := trivial

/-- Gives up on a value that cannot be printed. -/
def keepPrintable (v : Value) : Eval Value :=
  if v.printable then pure v else Eval.stop .outOfFuel

/-- The evaluator, but one that gives up as soon as an evaluation on the way, or the whole, gives a value
that cannot be printed. -/
def evalPrintable : Nat → Value → FrameId → Eval Value
  | 0, _, _ => Eval.stop .outOfFuel
  | fuel + 1, expr, env => do keepPrintable (← evalStep (evalPrintable fuel) fuel expr env)

theorem confined_evalPrintable (fuel : Nat) : Evaluator.Confined (evalPrintable fuel) := by
  induction fuel with
  | zero => exact fun _ _ => within_stop _
  | succ fuel ih =>
      intro expr env
      refine within_bind (confined_evalStep ih fuel expr env) fun v => ?_
      unfold keepPrintable
      split
      · exact within_pure v
      · exact within_stop _

theorem tracks_keepPrintable {e : FrameId} {n : Nat} {x y : Eval Value} {post : Nat → Value → Prop}
    (h : printableInvariant.Tracks e n x y post) :
    printableInvariant.Tracks e n (x >>= keepPrintable) y printableInvariant.Held := by
  intro w enough start
  have outcome := h w enough start
  change printableInvariant.Ends e _ _ (Eval.bind x keepPrintable w) (y w)
  unfold Eval.bind
  generalize x w = r, y w = r' at outcome
  cases outcome with
  | @value v _ grown holds _ =>
      by_cases printable : v.printable = true
      · simp only [keepPrintable, if_pos printable]
        exact .value grown holds printable
      -- The one place where the two part: `y` goes on with the value.
      · simp only [keepPrintable, if_neg printable]
        exact .cut grown holds
  | failed grown holds fair => exact .failed grown holds fair
  | cut grown holds => exact .cut grown holds

theorem follows_evalPrintable (fuel : Nat) :
    printableInvariant.Follows (evalPrintable fuel) (eval fuel) := by
  induction fuel with
  | zero => exact ⟨confined_evalPrintable 0, fun _ _ => Invariant.tracks_cut _⟩
  | succ fuel ih =>
      refine ⟨confined_evalPrintable (fuel + 1), fun held e => ?_⟩
      exact tracks_keepPrintable (Invariant.tracks_evalStep ih fuel held)

/-- A run, asked for anything, fails with an error of the language or at the limit on integer text. It
never fails at that limit when all integers it starts from and comes upon are within it. -/
theorem failures_are_language_errors (query : Query) (fuel : Nat) (expr : Value) (env : FrameId)
    (w : World) :
    (∀ error, (query.run (eval fuel) expr env w).1 = .error (.failed error) →
      error.isLanguage = true ∨ error = .integerText) ∧
    (expr.printable = true → w.store.Binds (fun v => v.printable = true) →
      (query.run (evalPrintable fuel) expr env w).1 ≠ .error .outOfFuel →
      query.run (eval fuel) expr env w = query.run (evalPrintable fuel) expr env w ∧
      ∀ error, (query.run (eval fuel) expr env w).1 = .error (.failed error) →
        error.isLanguage = true) := by
  constructor
  · intro error run
    have follows := Invariant.follows_eval (I := failureInvariant) (fun _ _ => trivial) fuel
    have held : failureInvariant.Held 0 expr := trivial
    have ends := Invariant.tracks_query follows held env query w (Nat.zero_le _)
      ⟨fun _ _ _ _ _ => trivial, trivial⟩
    exact ends.fair run
  · intro printable bound finished
    have ends := Invariant.tracks_query (follows_evalPrintable fuel) (n := 0) printable env query w
      (Nat.zero_le _) ⟨bound, trivial⟩
    have same := ends.agree finished
    refine ⟨same, fun error run => ?_⟩
    rw [same] at run
    exact ends.fair run

/-- `(car 1)`. -/
def carOfNumber : Value := .list [.sym "car", .int 1]

/-- The run that keeps to printable values fails with an error of the language, so that is how the
evaluation fails. -/
theorem failures_of_carOfNumber :
    let w := World.start {} "" .stopped
    (carOfNumber.printable = true ∧ w.store.Binds (fun v => v.printable = true) ∧
      (evalPrintable 3 carOfNumber rootFrame w).1 ≠ .error .outOfFuel) ∧
    eval 3 carOfNumber rootFrame w = evalPrintable 3 carOfNumber rootFrame w ∧
    (eval 3 carOfNumber rootFrame w).1 = .error (.failed (.typeMismatch (some .list) (.int 1))) ∧
    (∀ error, (eval 3 carOfNumber rootFrame w).1 = .error (.failed error) → error.isLanguage = true) := by
  intro w
  have bound : w.store.Binds fun v => v.printable = true := binds_start (fun _ => rfl) {} "" .stopped
  have finished : (evalPrintable 3 carOfNumber rootFrame w).1 ≠ .error .outOfFuel := by
    have fails : (evalPrintable 3 carOfNumber rootFrame w).1 =
      .error (.failed (.typeMismatch (some .list) (.int 1))) := rfl
    rw [fails]
    simp
  have result := (failures_are_language_errors .evaluate 3 carOfNumber rootFrame w).2 rfl bound finished
  exact ⟨⟨rfl, bound, finished⟩, result.1, rfl, result.2⟩

/-! The limit itself -/

theorem atMostDigits_power_iff (k l : Nat) : atMostDigits k (10 ^ l) = true ↔ l < k := by
  rw [atMostDigits_iff]
  exact Nat.pow_lt_pow_iff_right (by decide)

theorem Value.printable_power_iff (k : Nat) :
    (Value.int (10 ^ k)).printable = true ↔ k < maxIntegerDigits := by
  rw [Value.printable, Int.natAbs_pow]
  exact atMostDigits_power_iff maxIntegerDigits k

theorem Value.not_printable_power {k : Nat} (long : maxIntegerDigits ≤ k) :
    (Value.int (10 ^ k)).printable = false := by
  rw [Bool.eq_false_iff, ne_eq, Value.printable_power_iff]
  exact Nat.not_lt_of_le long

/-- `(if (* a b) 1 2)`. -/
def branchOnProduct (a b : Int) : Value :=
  .list [.sym "if", .list [.sym "*", .int a, .int b], .int 1, .int 2]

/-- A product is no truth value, and the error that says so has to print it. -/
theorem eval_branchOnProduct (a b : Int) (config : Config) (input : String) (clock : Clock) :
    (eval 4 (branchOnProduct a b) rootFrame (World.start config input clock)).1 =
      .error (.failed (Error.typeMismatch (some .bool) (.int (1 * a * b))).reported) := rfl

/-- Values of the language only, each of them printable, and yet a failure that is no error of the
language: the product has one digit too many. -/
theorem branchOnProduct_integerText :
    let expr := branchOnProduct (10 ^ 4299) 10
    let w := World.start {} "" .stopped
    expr.Proper ∧ w.store.Binds Value.Proper ∧
    (eval 4 expr rootFrame w).1 = .error (.failed .integerText) ∧
    Error.integerText.isLanguage = false := by
  intro expr w
  refine ⟨rfl, binds_start (fun _ => rfl) {} "" .stopped, ?_, rfl⟩
  have long : (Value.int (10 ^ 4300)).printable = false := Value.not_printable_power (by decide)
  have product : (1 : Int) * 10 ^ 4299 * 10 = 10 ^ 4300 := by
    rw [Int.one_mul, ← Int.pow_succ]
  rw [eval_branchOnProduct, product, Error.reported, Error.printable, long]
  rfl

end MiniLisp
