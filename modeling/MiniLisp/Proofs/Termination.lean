import MiniLisp.Proofs.Positions

/-!
Bounded expansion terminates. A rewrite may give any tree, so the size of the form says nothing; but on a
path the rewrites that are left get fewer with each rewrite, and between two rewrites the form gets smaller
with each step down. Evaluators are taken as they are run, with fuel: one terminates on a body where all
runs with enough fuel come out the same and are not cut short.
-/

namespace MiniLisp

open Eval
open Store (Keeps)

/-- With enough fuel, runs from this world all end the same way, and not for want of fuel. -/
def Terminates {α : Type} (x : Nat → Eval α) (w : World) : Prop :=
  ∃ fuel out, out.1 ≠ .error .outOfFuel ∧ ∀ n, fuel ≤ n → x n w = out

namespace Terminates

variable {α β : Type} {w : World}

theorem of_total {x : Eval α} (total : (x w).1 ≠ .error .outOfFuel) : Terminates (fun _ => x) w :=
  ⟨0, x w, total, fun _ _ => rfl⟩

theorem lift (r : Except Error α) : Terminates (fun _ => Eval.lift r) w := by
  apply of_total
  cases r with
  | ok a => exact nofun
  | error e => exact nofun

/-- Runs with little fuel do not matter. -/
theorem congr {x y : Nat → Eval α} (h : Terminates x w) (k : Nat)
    (same : ∀ n, k ≤ n → y n w = x n w) : Terminates y w := by
  obtain ⟨fuel, out, ends, runs⟩ := h
  refine ⟨max fuel k, out, ends, ?_⟩
  intro n enough
  rw [same n (by omega), runs n (by omega)]

theorem bind {x : Nat → Eval α} {f : Nat → α → Eval β} (hx : Terminates x w)
    (hf : ∀ n a v, x n w = (.ok a, v) → Terminates (fun n => f n a) v) :
    Terminates (fun n => x n >>= f n) w := by
  obtain ⟨fuel, ⟨result, v⟩, ends, runs⟩ := hx
  cases result with
  | error stop =>
      refine ⟨fuel, (.error stop, v), ?_, ?_⟩
      · intro short
        cases short
        exact ends rfl
      · intro n enough
        exact bind_of_error (runs n enough)
  | ok a =>
      apply congr (hf fuel a v (runs fuel (Nat.le_refl fuel))) fuel
      intro n enough
      exact bind_of_ok (runs n enough)

/-- Work on a list terminates where the work on its items does, in every world that it can come to. -/
theorem each {inv : World → Prop} {f : Nat → α → Eval β} {as : List α}
    (stays : ∀ n a, Yields inv (f n a) fun _ => True)
    (h : ∀ a ∈ as, ∀ v, inv v → Terminates (fun n => f n a) v) (start : inv w) :
    Terminates (fun n => Eval.each (f n) as) w := by
  induction as generalizing w with
  | nil => exact of_total nofun
  | cons a as ih =>
      rw [List.forall_mem_cons] at h
      apply bind (h.1 w start)
      intro n b v run
      apply bind (ih h.2 (stays n a start run).1)
      intro _ bs u _
      exact of_total nofun

theorem expandCall {ev : Nat → Evaluator} {m : Macro}
    (body : ∀ frame v, Terminates (fun n => ev n m.body frame) v) (form : Value) (env : FrameId) :
    Terminates (fun n => MiniLisp.expandCall (ev n) m form env) w := by
  have entering : Terminates (fun _ => enter m.params (operands form) (m.env.getD env)) w := by
    apply bind (lift _)
    intro _ bindings v _
    exact of_total nofun
  apply bind entering
  intro _ frame v _
  apply bind (body frame v)
  intro _ expansion u _
  apply bind (lift form.print)
  intro _ before u' _
  apply bind (lift expansion.print)
  intro _ after u'' _
  exact of_total nofun

end Terminates

/-- The worlds that rewriting macro calls leads to. -/
inductive Reached (ev : Nat → Evaluator) (env : FrameId) (w : World) : World → Prop where
  | start : Reached ev env w w
  | rewrite {v v' : World} {n : Nat} {m : Macro} {call expansion : Value} : Reached ev env w v →
      Macro.ofForm? v.store env call = some m →
      expandCall (ev n) m call env v = (.ok expansion, v') → Reached ev env w v'

section Expansion

variable {ev : Nat → Evaluator} {env : FrameId} {w : World}

theorem Reached.expandFrom (limit : Option Nat) (n steps depth : Nat) (first form : Value) :
    Yields (Reached ev env w) (expandFrom (ev n) limit env steps depth first form) fun _ => True := by
  induction steps generalizing depth first form with
  | zero =>
      intro v r v' reached run
      cases run
  | succ steps ih =>
      intro v r v' reached run
      cases site (ev n) env v form with
      | leaf leaf =>
          rw [expandFrom_leaf leaf] at run
          cases run
          exact ⟨reached, trivial⟩
      | @list items settled =>
          rw [expandFrom_list settled, onCode_eq, LawfulMonad.bind_assoc] at run
          obtain ⟨code, u, inside, last⟩ := bind_eq_ok_iff.1 run
          cases last
          exact ⟨(yields_each (fun x => ih depth x x) _ reached inside).1, trivial⟩
      | failing call fails =>
          rw [expandFrom_failing call fails] at run
          cases run
      | rewriting call rewrites =>
          obtain ⟨expansion, u, expanded, -, rest⟩ := expandFrom_call call run
          exact ih (depth + 1) first expansion (reached.rewrite call expanded) rest

/-- The evaluator terminates on the body of every macro that an expansion can meet, in every frame. -/
def TerminatesOnBodies (ev : Nat → Evaluator) (env : FrameId) (w : World) : Prop :=
  ∀ v call m, Reached ev env w v → Macro.ofForm? v.store env call = some m →
    ∀ frame u, Terminates (fun n => ev n m.body frame) u

/-- Between two rewrites the form gets smaller: an expansion terminates if it does so after each rewrite. -/
theorem terminates_between (bodies : TerminatesOnBodies ev env w) {limit : Option Nat} {depth : Nat}
    (after : ∀ k first expansion v, Reached ev env w v →
      Terminates (fun n => afterRewrite (ev n) limit env (n - k) depth first expansion) v)
    (form first : Value) (k : Nat) {v : World} (reached : Reached ev env w v) :
    Terminates (fun n => expandFrom (ev n) limit env (n - k) depth first form) v := by
  induction same : sizeOf form using Nat.strongRecOn generalizing form first k v with
  | ind size ih =>
      -- A run that has fuel left makes one step, and spends one unit on it.
      have step (n : Nat) (enough : k + 1 ≤ n) : n - k = n - (k + 1) + 1 := by omega
      cases call : Macro.ofForm? v.store env form with
      | some m =>
          have once : Terminates (fun n => expandCall (ev n) m form env) v :=
            .expandCall (bodies v form m reached call) form env
          have rewriting := once.bind fun n expansion u run =>
            after (k + 1) first expansion u (reached.rewrite call run)
          apply rewriting.congr (k + 1)
          intro n enough
          rw [step n enough, expandFrom_at_call call]
      | none =>
          by_cases list : ∃ items, form = .list items
          · obtain ⟨items, rfl⟩ := list
            have parts : ∀ x ∈ codePositions items, ∀ u, Reached ev env w u →
                Terminates (fun n => expandFrom (ev n) limit env (n - (k + 1)) depth x x) u := by
              intro x member u reached
              have smaller : sizeOf x < size := same ▸ sizeOf_lt_of_mem_codePositions member
              exact ih (sizeOf x) smaller x x (k + 1) reached rfl
            have inside := Terminates.each
              (fun n x => Reached.expandFrom limit n (n - (k + 1)) depth x x) parts reached
            have whole := inside.bind (f := fun n code => return Value.list (withCode items code))
              fun n code u run => Terminates.of_total nofun
            apply whole.congr (k + 1)
            intro n enough
            rw [step n enough, expandFrom_list call, onCode_eq, LawfulMonad.bind_assoc]
            rfl
          · have leaf : ∀ items, form ≠ .list items := fun items isList => list ⟨items, isList⟩
            have done : Terminates (fun _ => return form) v := Terminates.of_total nofun
            apply done.congr (k + 1)
            intro n enough
            rw [step n enough, expandFrom_leaf leaf]
            rfl

/-- Along a path the rewrites that are left get fewer. -/
theorem expandFrom_terminates (bodies : TerminatesOnBodies ev env w) {L : Nat} (n : Nat) {depth : Nat}
    (room : depth + n = L) (form first : Value) (k : Nat) {v : World} (reached : Reached ev env w v) :
    Terminates (fun f => expandFrom (ev f) (some L) env (f - k) depth first form) v := by
  induction n generalizing depth form first k v with
  | zero =>
      apply terminates_between bodies ?_ form first k reached
      intro k first expansion u reached
      unfold afterRewrite
      rw [exceeds_at room]
      exact Terminates.of_total nofun
  | succ n ih =>
      apply terminates_between bodies ?_ form first k reached
      intro k first expansion u reached
      unfold afterRewrite
      rw [exceeds_below room]
      exact ih (by omega) expansion first k reached

end Expansion

/-- With a limit on expansions, and with macro bodies on which the evaluator terminates, full expansion ends
with a tree or an error, and with any more fuel it ends in the same way. -/
theorem bounded_expansion_terminates {ev : Nat → Evaluator} {env : FrameId} {w : World} {L : Nat}
    (limited : (w.store.config env).maxExpansionDepth = some L) (bodies : TerminatesOnBodies ev env w)
    (form : Value) :
    ∃ fuel out, ((∃ tree, out.1 = .ok tree) ∨ ∃ e, out.1 = .error (.failed e)) ∧
      ∀ n, fuel ≤ n → expandAll (ev n) n form env w = out := by
  obtain ⟨fuel, ⟨result, w'⟩, ends, runs⟩ :=
    expandFrom_terminates bodies L (Nat.zero_add L) form form 0 .start
  refine ⟨fuel, (result, w'), ?_, ?_⟩
  · cases result with
    | ok tree => exact .inl ⟨tree, rfl⟩
    | error stop =>
        cases stop with
        | failed e => exact .inr ⟨e, rfl⟩
        | outOfFuel => exact absurd rfl ends
  · intro n enough
    have run : expandFrom (ev n) (some L) env n 0 form form w = (result, w') := runs n enough
    rw [← limited] at run
    exact run

theorem Reached.keeps {ev : Nat → Evaluator} (confined : ∀ n, (ev n).Confined) {env : FrameId}
    {w v : World} (reached : Reached ev env w v) : Keeps w.store v.store := by
  induction reached with
  | start => exact Keeps.refl _
  | @rewrite v v' n m call expansion _ _ run ih =>
      have kept := (within_expandCall (confined n) m call env v).keeps
      rw [run] at kept
      exact ih.trans kept

/-- `(grow)` is rewritten to `((grow) (grow))`. -/
def growMacro : Macro :=
  ⟨.list [], .list [.sym "quote", .list [.list [.sym "grow"], .list [.sym "grow"]]], none⟩

def growStore : Store := ⟨#[⟨[("grow", growMacro.toValue)], .root { maxExpansionDepth := some 3 }⟩]⟩

def growWorld : World := ⟨growStore, ⟨[], "", .stopped⟩, #[]⟩

theorem eq_growMacro {call : Value} {m : Macro} (found : Macro.ofForm? growStore 0 call = some m) :
    m = growMacro := by
  obtain ⟨name, args, rfl, bound⟩ := Macro.exists_of_ofForm? found
  rw [Store.lookup?_eq_findSome?, show growStore.chain 0 = [0] from rfl, List.findSome?_singleton]
    at bound
  have member : (name, m.toValue) ∈ [("grow", growMacro.toValue)] := Store.mem_of_lookup bound
  cases m
  cases List.mem_singleton.1 member
  rfl

/-- Every rewrite gives a larger tree with more calls in it, and still the expansion ends. -/
theorem growWorld_terminates :
    (growWorld.store.config 0).maxExpansionDepth = some 3 ∧ TerminatesOnBodies eval 0 growWorld ∧
    ∃ fuel out, ((∃ tree, out.1 = .ok tree) ∨ ∃ e, out.1 = .error (.failed e)) ∧
      ∀ n, fuel ≤ n → expandAll (eval n) n (.list [.sym "grow"]) 0 growWorld = out := by
  have limited : (growWorld.store.config 0).maxExpansionDepth = some 3 := rfl
  have bodies : TerminatesOnBodies eval 0 growWorld := by
    intro v call m reached isCall frame u
    have kept := reached.keeps confined_eval
    rw [Macro.ofForm?_of_keeps (Store.linked_root _ _) (by decide) kept] at isCall
    rw [eq_growMacro isCall]
    refine ⟨1, (.ok (.list [.list [.sym "grow"], .list [.sym "grow"]]), u), nofun, ?_⟩
    intro n enough
    obtain ⟨n, rfl⟩ := Nat.exists_eq_add_of_le' enough
    rfl
  exact ⟨limited, bodies, bounded_expansion_terminates limited bodies _⟩

end MiniLisp
