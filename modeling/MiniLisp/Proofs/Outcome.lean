import Mathlib.Data.List.Forall2
import MiniLisp.World

/-!
How evaluations compose: the monad laws, what a sequence that gave a value must have gone through,
and two ways to reason about values without running the parts: one evaluation gives what another
does, and what an evaluation gives has a property.
-/

namespace MiniLisp.Eval

variable {α β γ : Type}

theorem bind_of_ok {x : Eval α} {f : α → Eval β} {a : α} {w w' : World} (h : x w = (.ok a, w')) :
    (x >>= f) w = f a w' := by
  change Eval.bind x f w = f a w'
  simp only [Eval.bind, h]

theorem bind_of_error {x : Eval α} {f : α → Eval β} {stop : Stop} {w w' : World}
    (h : x w = (.error stop, w')) : (x >>= f) w = (.error stop, w') := by
  change Eval.bind x f w = _
  simp only [Eval.bind, h]

/-- A sequence gives a value exactly when its first part does and the second part goes on from it. -/
theorem bind_eq_ok_iff {x : Eval α} {f : α → Eval β} {b : β} {w w' : World} :
    (x >>= f) w = (.ok b, w') ↔ ∃ a v, x w = (.ok a, v) ∧ f a v = (.ok b, w') := by
  rcases run : x w with ⟨result, v⟩
  cases result with
  | ok a =>
      rw [bind_of_ok run]
      constructor
      · intro h
        exact ⟨a, v, rfl, h⟩
      · rintro ⟨a', v', same, h⟩
        cases same
        exact h
  | error stop =>
      rw [bind_of_error run]
      constructor
      · intro h
        cases h
      · rintro ⟨a', v', other, _⟩
        cases other

theorem bind_assoc (x : Eval α) (f : α → Eval β) (g : β → Eval γ) :
    x >>= f >>= g = x >>= fun a => f a >>= g := by
  funext w
  rcases run : x w with ⟨result, v⟩
  cases result with
  | ok a =>
      rw [bind_of_ok run]
      rcases run' : f a v with ⟨result', v'⟩
      have first : (x >>= f) w = (result', v') := (bind_of_ok run).trans run'
      cases result' with
      | ok b => rw [bind_of_ok first, bind_of_ok run']
      | error stop => rw [bind_of_error first, bind_of_error run']
  | error stop => rw [bind_of_error run, bind_of_error (bind_of_error run)]

theorem lift_eq_ok_iff {r : Except Error α} {a : α} {w w' : World} :
    lift r w = (.ok a, w') ↔ r = .ok a ∧ w' = w := by
  cases r with
  | ok b =>
      change (Except.ok b, w) = (Except.ok a, w') ↔ _
      simp [eq_comm]
  | error e =>
      change (Except.error _, w) = (Except.ok a, w') ↔ _
      simp

/-- Every value that `x` gives, `y` gives as well and with the same effect. -/
def Refines (x y : Eval α) : Prop := ∀ ⦃w a w'⦄, x w = (.ok a, w') → y w = (.ok a, w')

theorem refines_refl (x : Eval α) : Refines x x := fun _ _ _ run => run

theorem refines_raise (e : Error) (y : Eval α) : Refines (raise e) y := by
  intro w a w' run
  cases run

theorem refines_bind {x x' : Eval α} {f f' : α → Eval β} (hx : Refines x x')
    (hf : ∀ a, Refines (f a) (f' a)) : Refines (x >>= f) (x' >>= f') := by
  intro w b w' run
  obtain ⟨a, v, first, rest⟩ := bind_eq_ok_iff.1 run
  exact bind_eq_ok_iff.2 ⟨a, v, hx first, hf a rest⟩

theorem refines_each {f g : α → Eval β} (h : ∀ a, Refines (f a) (g a)) (as : List α) :
    Refines (each f as) (each g as) := by
  induction as with
  | nil => exact refines_refl _
  | cons a as ih => exact refines_bind (h a) fun b => refines_bind ih fun bs => refines_refl _

/-- From a world where `inv` holds, a value that `x` gives is as `post` says, and `inv` holds again. -/
def Yields (inv : World → Prop) (x : Eval α) (post : α → Prop) : Prop :=
  ∀ ⦃w a w'⦄, inv w → x w = (.ok a, w') → inv w' ∧ post a

variable {inv : World → Prop}

theorem yields_pure {post : α → Prop} {a : α} (h : post a) : Yields inv (pure a) post := by
  intro w b w' start run
  cases run
  exact ⟨start, h⟩

theorem Yields.imp {x : Eval α} {post post' : α → Prop} (h : Yields inv x post)
    (weaker : ∀ a, post a → post' a) : Yields inv x post' := by
  intro w a w' start run
  obtain ⟨stop, known⟩ := h start run
  exact ⟨stop, weaker a known⟩

theorem yields_bind {x : Eval α} {f : α → Eval β} {mid : α → Prop} {post : β → Prop}
    (hx : Yields inv x mid) (hf : ∀ a, mid a → Yields inv (f a) post) : Yields inv (x >>= f) post := by
  intro w b w' start run
  obtain ⟨a, v, first, rest⟩ := bind_eq_ok_iff.1 run
  obtain ⟨between, known⟩ := hx start first
  exact hf a known between rest

theorem yields_each {f : α → Eval β} {post : α → β → Prop} (h : ∀ a, Yields inv (f a) (post a))
    (as : List α) : Yields inv (each f as) (List.Forall₂ post as) := by
  induction as with
  | nil => exact yields_pure .nil
  | cons a as ih =>
      refine yields_bind (h a) fun b first => ?_
      exact yields_bind ih fun bs rest => yields_pure (.cons first rest)

end MiniLisp.Eval
