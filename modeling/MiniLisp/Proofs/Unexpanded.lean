import MiniLisp.Proofs.Positions

/-!
Code that full expansion leaves as it is. On macro-free code expansion is the identity, whatever evaluates
macro bodies and whatever the limit is, and it does nothing else. No other code is left alone: every macro
call that is rewritten opens a frame, and frames are never taken away again.
-/

namespace MiniLisp

open Eval

theorem Eval.Within.size_le {α : Type} {own : FrameId → Prop} {x : Eval α} (within : Within own x)
    {w w' : World} {result : Except Stop α} (run : x w = (result, w')) : w.store.size ≤ w'.store.size := by
  have effect := within w
  rw [run] at effect
  by_contra fewer
  obtain ⟨f, here⟩ := Store.exists_frame (Nat.lt_of_not_le fewer)
  obtain ⟨g, there, -, -⟩ := effect.grown here
  exact Nat.lt_irrefl _ (Store.lt_size_of_get? there)

section Calls

variable {ev : Evaluator} {env : FrameId} {w w' : World}

/-- A macro call that is rewritten leaves its frame behind. -/
theorem size_lt_of_expandCall (confined : ev.Confined) {m : Macro} {form expansion : Value}
    (run : expandCall ev m form env w = (.ok expansion, w')) : w.store.size < w'.store.size := by
  obtain ⟨frame, v, entered, rest⟩ := bind_eq_ok_iff.1 run
  obtain ⟨bindings, u, bound, opened⟩ := bind_eq_ok_iff.1 entered
  obtain ⟨-, rfl⟩ := lift_eq_ok_iff.1 bound
  cases opened
  have within : Within (· = u.store.size) (do
      let expansion ← ev m.body u.store.size
      let before ← Eval.lift form.print
      let after ← Eval.lift expansion.print
      Eval.record .expander s!"expanded {before} -> {after}"
      return expansion) := by
    refine within_bind (confined m.body _) fun expansion => ?_
    refine within_bind (within_lift _) fun before => ?_
    refine within_bind (within_lift _) fun after => ?_
    exact within_bind (within_record _ _) fun _ => within_pure expansion
  have grown := within.size_le rest
  rw [Store.size_push] at grown
  exact grown

/-- Work on a list that opens no frame opens none at any item, and so finds each item in the same world. -/
theorem each_still {α β : Type} {f : α → Eval β} {P : α → Prop}
    (within : ∀ a, Within (fun _ => False) (f a))
    (still : ∀ a b v, f a w = (.ok b, v) → v.store.size = w.store.size → v = w ∧ P a) {as : List α}
    {bs : List β} (run : each f as w = (.ok bs, w')) (same : w'.store.size = w.store.size) :
    w' = w ∧ ∀ a ∈ as, P a := by
  induction as generalizing bs with
  | nil =>
      cases run
      exact ⟨rfl, List.forall_mem_nil P⟩
  | cons a as ih =>
      obtain ⟨b, v, first, rest⟩ := bind_eq_ok_iff.1 run
      obtain ⟨others, u, run', last⟩ := bind_eq_ok_iff.1 rest
      cases last
      have before := (within a).size_le first
      have after := (within_each within as).size_le run'
      obtain ⟨rfl, here⟩ := still a b v first (by omega)
      obtain ⟨rfl, there⟩ := ih run'
      exact ⟨rfl, List.forall_mem_cons.2 ⟨here, there⟩⟩

theorem macroFree_of_still (confined : ev.Confined) {limit : Option Nat} {steps depth : Nat}
    {first form result : Value}
    (run : expandFrom ev limit env steps depth first form w = (.ok result, w'))
    (same : w'.store.size = w.store.size) : w' = w ∧ MacroFree w.store env form := by
  induction steps generalizing depth first form result w' with
  | zero => cases run
  | succ steps ih =>
      cases site ev env w form with
      | leaf leaf =>
          rw [expandFrom_leaf leaf] at run
          cases run
          exact ⟨rfl, .atom leaf⟩
      | @list items settled =>
          rw [expandFrom_list settled, onCode_eq, LawfulMonad.bind_assoc] at run
          obtain ⟨code, v, inside, last⟩ := bind_eq_ok_iff.1 run
          cases last
          have within (x : Value) : Within (fun _ => False) (expandFrom ev limit env steps depth x x) :=
            within_expandFrom confined limit env steps depth x x
          obtain ⟨rfl, parts⟩ := each_still within (fun x _ _ => ih) inside same
          exact ⟨rfl, .list settled parts⟩
      | failing call fails =>
          rw [expandFrom_failing call fails] at run
          cases run
      | rewriting call rewrites =>
          -- The frame of the call is never closed, so there are more frames at the end than at the start.
          obtain ⟨expansion, v, expanded, -, rest⟩ := expandFrom_call call run
          have opened := size_lt_of_expandCall confined expanded
          have within : Within (fun _ => False)
              (expandFrom ev limit env steps (depth + 1) first expansion) :=
            within_expandFrom confined limit env steps (depth + 1) first expansion
          have after := within.size_le rest
          omega

end Calls

/-- Macro-free code comes out of full expansion as it went in, with no effect at all, whatever evaluates the
bodies of macros and whatever limit the settings give. Code that the language's own evaluator brings through
in this way is macro-free. -/
theorem expansion_identity_iff_macroFree (env : FrameId) (form : Value) (w : World) {steps : Nat}
    (enough : sizeOf form ≤ steps) :
    (MacroFree w.store env form → ∀ ev, expandAll ev steps form env w = (.ok form, w)) ∧
    ∀ fuel, expandAll (eval fuel) steps form env w = (.ok form, w) → MacroFree w.store env form := by
  constructor
  · intro free ev
    exact expandFrom_of_macroFree free ev _ steps enough 0 form
  · intro fuel run
    exact (macroFree_of_still (confined_eval fuel) run rfl).2

/-- A frame that binds `twice` to a macro. -/
def twiceStore : Store :=
  ⟨#[⟨[("twice", .proc .macroProc (.list [.sym "x"]) (.sym "x") none)], .root {}⟩]⟩

def twiceWorld : World := ⟨twiceStore, ⟨[], "", .stopped⟩, #[]⟩

def twiceCall : Value := .list [.sym "twice", .int 1]

/-- Calls of `twice` as a name that is bound, in quoted data, as a parameter, and in a template. -/
def twiceAsData : Value :=
  .list [.sym "let", .list [twiceCall, .list [.sym "quote", twiceCall], twiceCall],
    .list [.sym "fn", .list [twiceCall], .list [.sym "if", .list [.sym "quasiquote", twiceCall],
      .list [.sym "m-expand", twiceCall], .list []]]]

theorem twiceAsData_unchanged :
    Macro.ofForm? twiceStore 0 twiceCall ≠ none ∧ MacroFree twiceStore 0 twiceAsData ∧
    ∀ ev, expandAll ev (sizeOf twiceAsData) twiceAsData 0 twiceWorld = (.ok twiceAsData, twiceWorld) := by
  have inert (name : String) (data : codePositions [.sym name, twiceCall] = [])
      (settled : Macro.ofForm? twiceStore 0 (.list [.sym name, twiceCall]) = none) :
      MacroFree twiceStore 0 (.list [.sym name, twiceCall]) := by
    refine .list settled ?_
    rw [data]
    exact List.forall_mem_nil _
  have items : ∀ x ∈ [.sym "if", .list [.sym "quasiquote", twiceCall],
      .list [.sym "m-expand", twiceCall], .list []], MacroFree twiceStore 0 x := by
    simp only [List.forall_mem_cons]
    exact ⟨.atom nofun, inert _ rfl rfl, inert _ rfl rfl, .list rfl (List.forall_mem_nil _),
      List.forall_mem_nil _⟩
  have procedure : MacroFree twiceStore 0 (.list [.sym "fn", .list [twiceCall], .list [.sym "if",
      .list [.sym "quasiquote", twiceCall], .list [.sym "m-expand", twiceCall], .list []]]) :=
    .list rfl (List.forall_mem_singleton.2 (.list rfl items))
  have free : MacroFree twiceStore 0 twiceAsData :=
    .list rfl (List.forall_mem_cons.2 ⟨inert _ rfl rfl, List.forall_mem_singleton.2 procedure⟩)
  exact ⟨by decide +kernel, free,
    (expansion_identity_iff_macroFree 0 twiceAsData twiceWorld (Nat.le_refl _)).1 free⟩

end MiniLisp
