import MiniLisp.Proofs.MacroFree

/-!
Full expansion position by position. Work on the code of a list is work on its code positions in turn,
after which the results are put back; and at a position there is a leaf, a list that is no macro call, or a
macro call, which is rewritten or fails.
-/

namespace MiniLisp

open Eval

/-! Work on the code of a list is work on its code positions in turn. -/

/-- A binding list with other values. -/
def withBoundValues : List Value → List Value → List Value
  | name :: _ :: rest, v :: vs => name :: v :: withBoundValues rest vs
  | short, _ => short

/-- A list with other code at its code positions. -/
def withCode : List Value → List Value → List Value
  | [], _ => []
  | head :: rest, code => match SpecialForm.ofHead? head, rest with
    | some (.procedure _), params :: _ => head :: params :: code
    | some .letIn, .list bindings :: _ =>
        let count := (boundValues bindings).length
        head :: .list (withBoundValues bindings (code.take count)) :: code.drop count
    | some form, _ => if form.isInert then head :: rest else code
    | none, _ => code

namespace Eval

variable {α β : Type}

theorem bind_pure_run (x : Eval α) (f : α → β) (w : World) :
    (x >>= fun a => return f a) w = ((x w).1.map f, (x w).2) := by
  rcases run : x w with ⟨result, v⟩
  cases result with
  | ok a => exact bind_of_ok run
  | error stop => exact bind_of_error run

theorem map_id_run (x : Eval α) : id <$> x = x := by
  funext w
  change (x >>= fun a => return id a) w = x w
  rw [bind_pure_run]
  rcases x w with ⟨result, v⟩
  cases result <;> rfl

instance : LawfulMonad Eval := LawfulMonad.mk' Eval map_id_run (fun _ _ => rfl) bind_assoc

theorem bind_congr_run {x : Eval α} {f g : α → Eval β} {w : World}
    (same : ∀ a v, x w = (.ok a, v) → f a v = g a v) : (x >>= f) w = (x >>= g) w := by
  rcases run : x w with ⟨result, v⟩
  cases result with
  | ok a => rw [bind_of_ok run, bind_of_ok run, same a v run]
  | error stop => rw [bind_of_error run, bind_of_error run]

theorem bind_eq_error_iff {x : Eval α} {f : α → Eval β} {stop : Stop} {w w' : World} :
    (x >>= f) w = (.error stop, w') ↔
      x w = (.error stop, w') ∨ ∃ a v, x w = (.ok a, v) ∧ f a v = (.error stop, w') := by
  rcases run : x w with ⟨result, v⟩
  cases result with
  | ok a =>
      rw [bind_of_ok run]
      simp
  | error cause =>
      rw [bind_of_error run]
      simp

theorem lift_eq_error_iff {r : Except Error α} {e : Error} {w w' : World} :
    lift r w = (.error (.failed e), w') ↔ r = .error e ∧ w' = w := by
  cases r with
  | ok a =>
      change (Except.ok a, w) = (Except.error _, w') ↔ _
      simp
  | error cause =>
      change (Except.error _, w) = (Except.error _, w') ↔ _
      simp [eq_comm]

theorem each_append (f : α → Eval β) (as bs : List α) :
    each f (as ++ bs) = (do
      let first ← each f as
      let second ← each f bs
      return first ++ second) := by
  induction as with
  | nil => exact (bind_pure (each f bs)).symm
  | cons a as ih =>
      simp only [List.cons_append, each, ih, LawfulMonad.bind_assoc, LawfulMonad.pure_bind]

theorem length_of_each {f : α → Eval β} {as : List α} {bs : List β} {w w' : World}
    (run : each f as w = (.ok bs, w')) : bs.length = as.length := by
  induction as generalizing bs w with
  | nil =>
      cases run
      rfl
  | cons a as ih =>
      obtain ⟨b, v, -, rest⟩ := bind_eq_ok_iff.1 run
      obtain ⟨others, u, run', last⟩ := bind_eq_ok_iff.1 rest
      cases last
      rw [List.length_cons, List.length_cons, ih run']

end Eval

theorem onBoundValues_eq (f : Value → Eval Value) (items : List Value) :
    onBoundValues f items = (do
      let values ← each f (boundValues items)
      return withBoundValues items values) := by
  fun_induction boundValues items with
  | case1 name v rest ih =>
      simp only [onBoundValues, ih, each, LawfulMonad.bind_assoc, LawfulMonad.pure_bind, withBoundValues]
  | case2 short other =>
      have same : withBoundValues short [] = short := by
        rw [withBoundValues]
        intro name v rest u us isLong
        exact fun none => by cases none
      rw [onBoundValues]
      · exact congrArg pure same.symm
      · exact other

/-- The values of a `let` come first, so as many results as there are values belong to the bindings. -/
theorem onCode_let_eq (f : Value → Eval Value) (bindings body : List Value) :
    onCode f (.sym "let" :: .list bindings :: body) = (do
      let code ← each f (codePositions (.sym "let" :: .list bindings :: body))
      return withCode (.sym "let" :: .list bindings :: body) code) := by
  rw [onCode_let, codePositions_let, onBoundValues_eq, each_append]
  simp only [LawfulMonad.bind_assoc, LawfulMonad.pure_bind]
  funext w
  apply bind_congr_run
  intro values v run
  have count : (boundValues bindings).length = values.length := (length_of_each run).symm
  have rebuilt (code : List Value) : withCode (.sym "let" :: .list bindings :: body) (values ++ code) =
      .sym "let" :: .list (withBoundValues bindings values) :: code := by
    change .sym "let" :: .list (withBoundValues bindings ((values ++ code).take _)) ::
      (values ++ code).drop _ = _
    rw [count, List.take_left, List.drop_left]
  simp only [rebuilt]

theorem onCode_eq (f : Value → Eval Value) (items : List Value) :
    onCode f items = (do
      let code ← each f (codePositions items)
      return withCode items code) := by
  cases items with
  | nil => rfl
  | cons head rest =>
      cases special : SpecialForm.ofHead? head with
      | none => simp only [onCode, codePositions, withCode, special, bind_pure]
      | some form =>
          cases form with
          | procedure kind =>
              cases rest with
              | nil => simp [onCode, codePositions, withCode, special, SpecialForm.isInert]
              | cons params body => simp only [onCode, codePositions, withCode, special]
          | letIn =>
              obtain rfl := eq_let_of_ofHead? special
              cases rest with
              | nil => exact (bind_pure _).symm
              | cons bindings body =>
                  cases bindings with
                  | list bindings => exact onCode_let_eq f bindings body
                  | _ => exact (bind_pure _).symm
          | quote | quasiquote | expandOnce | expandAll =>
              simp only [onCode, codePositions, withCode, special, SpecialForm.isInert, if_true]
              rfl
          | define | branch | sequence =>
              simp [onCode, codePositions, withCode, special, SpecialForm.isInert]

/-! What happens at one position -/

/-- A position is a leaf, a list that is no macro call, or a macro call, whose rewrite may fail. -/
inductive Site (ev : Evaluator) (env : FrameId) (w : World) : Value → Prop where
  | leaf {v : Value} (leaf : ∀ items, v ≠ .list items) : Site ev env w v
  | list {items : List Value} (settled : Macro.ofForm? w.store env (.list items) = none) :
      Site ev env w (.list items)
  | failing {form : Value} {m : Macro} {stop : Stop} {v : World}
      (call : Macro.ofForm? w.store env form = some m)
      (fails : expandCall ev m form env w = (.error stop, v)) : Site ev env w form
  | rewriting {form expansion : Value} {m : Macro} {v : World}
      (call : Macro.ofForm? w.store env form = some m)
      (rewrites : expandCall ev m form env w = (.ok expansion, v)) : Site ev env w form

theorem site (ev : Evaluator) (env : FrameId) (w : World) (form : Value) : Site ev env w form := by
  cases call : Macro.ofForm? w.store env form with
  | some m =>
      rcases run : expandCall ev m form env w with ⟨result, v⟩
      cases result with
      | ok expansion => exact .rewriting call run
      | error stop => exact .failing call run
  | none =>
      cases form with
      | list items => exact .list call
      | _ => exact .leaf (by simp)

/-- How a run goes on after the rewrite of a macro call. -/
def afterRewrite (ev : Evaluator) (limit : Option Nat) (env : FrameId) (steps depth : Nat)
    (first expansion : Value) : Eval Value :=
  match exceeds limit (depth + 1) with
  | some l => raise (.expansionLimit first l)
  | none => expandFrom ev limit env steps (depth + 1) first expansion

section Rules

variable {ev : Evaluator} {limit : Option Nat} {env : FrameId} {steps depth : Nat} {first form : Value}
  {m : Macro} {w v : World}

theorem expandFrom_at_call (call : Macro.ofForm? w.store env form = some m) :
    expandFrom ev limit env (steps + 1) depth first form w =
      (expandCall ev m form env >>= afterRewrite ev limit env steps depth first) w := by
  conv => lhs; unfold expandFrom
  rw [bind_of_ok (show Eval.store w = (.ok w.store, w) from rfl)]
  simp only [call]
  rfl

theorem expandFrom_failing {stop : Stop} (call : Macro.ofForm? w.store env form = some m)
    (fails : expandCall ev m form env w = (.error stop, v)) :
    expandFrom ev limit env (steps + 1) depth first form w = (.error stop, v) := by
  rw [expandFrom_at_call call, bind_of_error fails]

theorem expandFrom_rewriting {expansion : Value} (call : Macro.ofForm? w.store env form = some m)
    (rewrites : expandCall ev m form env w = (.ok expansion, v)) :
    expandFrom ev limit env (steps + 1) depth first form w =
      afterRewrite ev limit env steps depth first expansion v := by
  rw [expandFrom_at_call call, bind_of_ok rewrites]

variable {n L : Nat}

theorem exceeds_at (room : depth + 0 = L) : exceeds (some L) (depth + 1) = some L :=
  if_pos (by omega)

theorem exceeds_below (room : depth + (n + 1) = L) : exceeds (some L) (depth + 1) = none :=
  if_neg (by omega)

end Rules

end MiniLisp
