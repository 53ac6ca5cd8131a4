import MiniLisp.Proofs.MacroFree

/-!
When full expansion is idempotent. The head of a list is looked at before the items are expanded, and
not again: a head that is itself a macro call may turn into a name, and then the list it heads is one
that was never looked at. Expansion is idempotent exactly where no macro call turns into the name of a
macro or into `let`, the one form whose code positions are not all items of the list.
-/

namespace MiniLisp

open Store (Keeps)
open Eval

theorem exceeds_of_le {limit : Option Nat} {depth depth' : Nat} (shallow : depth' ≤ depth)
    (h : exceeds limit depth = none) : exceeds limit depth' = none := by
  cases limit with
  | none => rfl
  | some l =>
      simp only [exceeds, ite_eq_right_iff, reduceCtorEq, imp_false] at h ⊢
      omega

/-- A result stands with more steps and with fewer expansions on the way to it. -/
theorem refines_expandFrom (ev : Evaluator) (limit : Option Nat) (env : FrameId)
    {steps steps' depth depth' : Nat} (more : steps ≤ steps') (shallow : depth' ≤ depth)
    (first form : Value) :
    Refines (expandFrom ev limit env steps depth first form)
      (expandFrom ev limit env steps' depth' first form) := by
  induction steps generalizing steps' depth depth' first form with
  | zero =>
      intro w r w' run
      cases run
  | succ steps ih =>
      obtain ⟨more', rfl⟩ : ∃ n, steps' = n + 1 := ⟨steps' - 1, by omega⟩
      have enough : steps ≤ more' := by omega
      refine refines_bind (refines_refl _) fun s => ?_
      cases Macro.ofForm? s env form with
      | some m =>
          refine refines_bind (refines_refl _) fun expansion => ?_
          cases room : exceeds limit (depth + 1) with
          | some l => exact refines_raise _ _
          | none =>
              rw [exceeds_of_le (Nat.succ_le_succ shallow) room]
              exact ih enough (Nat.succ_le_succ shallow) first expansion
      | none =>
          cases form with
          | list items =>
              have below := refines_onCode (fun x => ih enough shallow x x) items
              exact refines_bind below fun items' => refines_refl _
          | _ => exact refines_refl _

/-- `form` expands in full to `result`, when nesting and steps are not bounded too low. -/
def Expands (env : FrameId) (form : Value) (w : World) (result : Value) (w' : World) : Prop :=
  ∃ fuel steps, expandAll (eval fuel) steps form env w = (.ok result, w')

/-- In every world with the frames of `s`, a result expands to itself. -/
def ExpansionIdempotent (s : Store) (env : FrameId) : Prop :=
  ∀ form w result w', Keeps s w.store → Expands env form w result w' →
    ∃ w'', Expands env result w' result w''

/-- In every world with the frames of `s`, no macro call expands to a bare name that makes something
else of a list when it becomes the head of it. -/
def NoLateHead (s : Store) (env : FrameId) : Prop :=
  ∀ call w name w', Keeps s w.store → Macro.ofForm? s env call ≠ none →
    Expands env call w (.sym name) w' → name ≠ "let" ∧ ¬ s.NamesMacro env name

section Scope

variable {s t : Store} {env : FrameId}

/-- What full expansion has to make of a form that stands at a code position. -/
structure Settled (s : Store) (env : FrameId) (form result : Value) : Prop where
  free : MacroFree s env result
  leaf : (∀ items, form ≠ .list items) → result = form
  head : ∀ items name, form = .list items → result = .sym name →
    name ≠ "let" ∧ ¬ s.NamesMacro env name

theorem macroFree_of_mem {items items' : List Value} {x : Value}
    (each : List.Forall₂ (Settled s env) items items') (member : x ∈ items') : MacroFree s env x := by
  induction each with
  | nil => cases member
  | cons first others ih =>
      rcases List.mem_cons.1 member with rfl | later
      · exact first.free
      · exact ih later

/-- A settled head is no name of a macro, and it is `let` only where it was `let` before. -/
theorem Settled.quiet_head {head head' : Value} {rest : List Value} {name : String}
    (first : Settled s env head head') (settled : Macro.ofForm? s env (.list (head :: rest)) = none)
    (same : head' = .sym name) : ¬ s.NamesMacro env name ∧ (name = "let" → head = .sym "let") := by
  by_cases list : ∃ items, head = .list items
  · obtain ⟨items, wasList⟩ := list
    obtain ⟨notLet, quiet⟩ := first.head items name wasList same
    exact ⟨quiet, fun isLet => absurd isLet notLet⟩
  · have unchanged : head' = head := first.leaf fun items wasList => list ⟨items, wasList⟩
    obtain rfl : head = .sym name := unchanged.symm.trans same
    refine ⟨?_, fun isLet => by rw [isLet]⟩
    rintro ⟨m, found⟩
    cases settled.symm.trans found

/-- A list whose items are all settled is macro-free, unless it was a `let` with bindings. -/
theorem macroFree_of_settled_items {items items' : List Value}
    (settled : Macro.ofForm? s env (.list items) = none)
    (other : ∀ bindings body, items ≠ .sym "let" :: .list bindings :: body)
    (each : List.Forall₂ (Settled s env) items items') : MacroFree s env (.list items') := by
  cases each with
  | nil => exact .list rfl fun x member => by cases member
  | @cons head head' rest rest' first others =>
      refine .list (Macro.ofForm?_eq_none fun name same => (first.quiet_head settled same).1) ?_
      intro x member
      rcases mem_of_mem_codePositions member with item | ⟨bindings, body, shape, bound⟩
      · exact macroFree_of_mem (.cons first others) item
      · obtain ⟨isLet, rfl⟩ := List.cons.inj shape
        have wasLet : head = .sym "let" := (first.quiet_head settled isLet).2 rfl
        -- The second item is a list now, so it was one before: only lists turn into lists.
        cases others with
        | @cons second _ restBody _ secondSettled _ =>
            by_cases list : ∃ items, second = .list items
            · obtain ⟨items, rfl⟩ := list
              exact absurd (by rw [wasLet]) (other items restBody)
            · have unchanged := secondSettled.leaf fun items wasList => list ⟨items, wasList⟩
              exact absurd ⟨bindings, unchanged.symm⟩ list

theorem yields_macroFree {inv : World → Prop} {f : Value → Eval Value} {items : List Value}
    (h : ∀ v, Yields inv (f v) (Settled s env v))
    (settled : Macro.ofForm? s env (.list items) = none) :
    Yields inv (onCode f items) fun items' => MacroFree s env (.list items') := by
  refine (yields_onCode h items).imp fun items' result => ?_
  rcases result with ⟨head, each⟩ | ⟨each, other⟩
  · refine .list ?_ fun x member => macroFree_of_mem each member
    rw [Macro.ofForm?_congr head, settled]
  · exact macroFree_of_settled_items settled other each

end Scope

section Expansion

variable {s : Store} {env : FrameId} {fuel : Nat}

theorem call_of_expandFrom_sym {ev : Evaluator} {limit : Option Nat} {steps depth : Nat}
    {first : Value} {items : List Value} {name : String} {w w' : World}
    (run : expandFrom ev limit env steps depth first (.list items) w = (.ok (.sym name), w')) :
    Macro.ofForm? w.store env (.list items) ≠ none := by
  intro settled
  cases steps with
  | zero => cases run
  | succ steps =>
      rw [expandFrom_list settled] at run
      obtain ⟨items', v, -, last⟩ := bind_eq_ok_iff.1 run
      cases last

theorem eq_of_expandFrom_leaf {ev : Evaluator} {limit : Option Nat} {steps depth : Nat}
    {first v r : Value} {w w' : World} (leaf : ∀ items, v ≠ .list items)
    (run : expandFrom ev limit env steps depth first v w = (.ok r, w')) : r = v ∧ w' = w := by
  cases steps with
  | zero => cases run
  | succ steps =>
      rw [expandFrom_leaf leaf] at run
      cases run
      exact ⟨rfl, rfl⟩

/-- Where no call turns into a name that matters, macro-free results are settled. -/
theorem yields_settled (linked : s.Linked) (present : env < s.size) (quiet : NoLateHead s env)
    {steps depth : Nat} {v : Value}
    (free : Yields (fun w => Keeps s w.store)
      (expandFrom (eval fuel) (s.config env).maxExpansionDepth env steps depth v v) (MacroFree s env)) :
    Yields (fun w => Keeps s w.store)
      (expandFrom (eval fuel) (s.config env).maxExpansionDepth env steps depth v v)
      (Settled s env v) := by
  intro w r w' start run
  obtain ⟨stop, freeResult⟩ := free start run
  refine ⟨stop, freeResult, fun leaf => (eq_of_expandFrom_leaf leaf run).1, ?_⟩
  rintro items name rfl rfl
  have call := call_of_expandFrom_sym run
  rw [Macro.ofForm?_of_keeps linked present start] at call
  -- The run began below other expansions; from the top it only has more room.
  have fromTop := refines_expandFrom _ _ env (Nat.le_refl steps) (Nat.zero_le depth) _ _ run
  rw [← Store.config_of_keeps linked start present] at fromTop
  exact quiet _ w name w' start call ⟨fuel, steps, fromTop⟩

theorem yields_expandFrom (linked : s.Linked) (present : env < s.size) (quiet : NoLateHead s env)
    (steps depth : Nat) (first form : Value) :
    Yields (fun w => Keeps s w.store)
      (expandFrom (eval fuel) (s.config env).maxExpansionDepth env steps depth first form)
      (MacroFree s env) := by
  induction steps generalizing depth first form with
  | zero =>
      intro w r w' start run
      cases run
  | succ steps ih =>
      intro w r w' start run
      cases call : Macro.ofForm? w.store env form with
      | some m =>
          obtain ⟨expansion, v, expanded, -, rest⟩ := expandFrom_call call run
          have kept := (within_expandCall (confined_eval fuel) m form env w).keeps
          rw [expanded] at kept
          exact ih (depth + 1) first expansion (start.trans kept) rest
      | none =>
          by_cases list : ∃ items, form = .list items
          · obtain ⟨items, rfl⟩ := list
            rw [expandFrom_list call] at run
            rw [Macro.ofForm?_of_keeps linked present start] at call
            have below := yields_macroFree
              (fun v => yields_settled linked present quiet (ih depth v v)) call
            exact yields_bind below (fun items' free => yields_pure free) start run
          · have leaf : ∀ items, form ≠ .list items := fun items isList => list ⟨items, isList⟩
            obtain ⟨rfl, rfl⟩ := eq_of_expandFrom_leaf leaf run
            exact ⟨start, .atom leaf⟩

/-- For every parameter list there are arguments without macro calls that do not fit it. -/
theorem exists_misfit (s : Store) (env : FrameId) (params : Value) :
    ∃ args e, (∀ x ∈ args, MacroFree s env x) ∧ bindParams params args = .error e := by
  have none : ∀ x ∈ ([] : List Value), MacroFree s env x := by simp
  have one : ∀ x ∈ [Value.int 0], MacroFree s env x := by
    intro x member
    rw [List.mem_singleton.1 member]
    exact .atom (by simp)
  cases params with
  | list ps =>
      cases ps with
      | nil => exact ⟨[.int 0], _, one, rfl⟩
      | cons p ps => exact ⟨[], _, none, rfl⟩
  | _ => exact ⟨[], _, none, rfl⟩

theorem not_expandFrom_misfit {ev : Evaluator} {limit : Option Nat} {steps depth : Nat}
    {first r : Value} {name : String} {args : List Value} {m : Macro} {e : Error} {w w' : World}
    (call : Macro.ofForm? w.store env (.list (.sym name :: args)) = some m)
    (misfit : bindParams m.params args = .error e) :
    expandFrom ev limit env steps depth first (.list (.sym name :: args)) w ≠ (.ok r, w') := by
  intro run
  cases steps with
  | zero => cases run
  | succ steps =>
      obtain ⟨expansion, v, expanded, -, -⟩ := expandFrom_call call run
      obtain ⟨frame, u, entered, -⟩ := bind_eq_ok_iff.1 expanded
      obtain ⟨bindings, _, bound, -⟩ := bind_eq_ok_iff.1 entered
      obtain ⟨fits, -⟩ := lift_eq_ok_iff.1 bound
      cases misfit.symm.trans fits

/-- The head of a list expands, and items without macro calls stay as they are. -/
theorem Expands.head {items args : List Value} {result : Value} {w w' : World}
    (run : Expands env (.list items) w result w') (free : ∀ x ∈ args, MacroFree w'.store env x) :
    Expands env (.list (.list items :: args)) w (.list (result :: args)) w' := by
  obtain ⟨fuel, steps, run⟩ := run
  have first := refines_expandFrom (eval fuel) _ env (Nat.le_add_right steps (sizeOf args))
    (Nat.le_refl 0) _ _ run
  have rest : each (fun x => expandFrom (eval fuel) (w.store.config env).maxExpansionDepth env
      (steps + sizeOf args) 0 x x) args w' = (.ok args, w') := by
    refine each_of_fixed fun x member => ?_
    have small := List.sizeOf_lt_of_mem member
    exact expandFrom_of_macroFree (free x member) _ _ _ (by omega) 0 x
  refine ⟨fuel, steps + sizeOf args + 1, ?_⟩
  change expandFrom _ _ env _ 0 _ _ w = _
  rw [expandFrom_list rfl]
  simp only [onCode, SpecialForm.ofHead?]
  rw [each, bind_assoc, bind_of_ok first, bind_assoc, bind_of_ok rest]
  rfl

theorem Expands.keeps {form result : Value} {w w' : World} (run : Expands env form w result w') :
    Keeps w.store w'.store := by
  obtain ⟨fuel, steps, run⟩ := run
  have kept := keeps_expandAll (confined_eval fuel) steps form env w
  rw [run] at kept
  exact kept

theorem Expands.of_macroFree {v : Value} {w : World} (free : MacroFree w.store env v) :
    Expands env v w v w :=
  ⟨0, sizeOf v, expandFrom_of_macroFree free _ _ _ (Nat.le_refl _) 0 v⟩

end Expansion

section Exactness

variable {s : Store} {env : FrameId}

theorem macroFree_of_noLateHead (linked : s.Linked) (present : env < s.size)
    (quiet : NoLateHead s env) {form result : Value} {w w' : World} (start : Keeps s w.store)
    (run : Expands env form w result w') : MacroFree s env result := by
  obtain ⟨fuel, steps, run⟩ := run
  change expandFrom _ (w.store.config env).maxExpansionDepth env steps 0 form form w = _ at run
  rw [Store.config_of_keeps linked start present] at run
  exact (yields_expandFrom linked present quiet steps 0 form form start run).2

theorem exists_name_of_call {form : Value} (call : Macro.ofForm? s env form ≠ none) :
    ∃ name args m, form = .list (.sym name :: args) ∧
      (s.lookup? env name).bind Macro.ofValue? = some m := by
  obtain ⟨m, found⟩ := Option.ne_none_iff_exists'.1 call
  obtain ⟨name, args, rfl, -⟩ := Macro.exists_of_ofForm? found
  exact ⟨name, args, m, rfl, found⟩

/-- A call that turns into the name of a macro heads a list that expands to a call of that macro; with
arguments that do not fit, it does not expand again. -/
theorem not_namesMacro_of_idempotent (linked : s.Linked) (present : env < s.size)
    (idempotent : ExpansionIdempotent s env) {items : List Value} {name : String} {w w' : World}
    (start : Keeps s w.store) (run : Expands env (.list items) w (.sym name) w') :
    ¬ s.NamesMacro env name := by
  rintro ⟨m, found⟩
  have stop : Keeps s w'.store := start.trans run.keeps
  obtain ⟨args, e, free, misfit⟩ := exists_misfit s env m.params
  have once := run.head fun x member => (free x member).of_keeps linked present stop
  obtain ⟨w'', fuel, steps, again⟩ := idempotent _ w _ w' start once
  refine not_expandFrom_misfit ?_ misfit again
  rw [Macro.ofForm?_of_keeps linked present stop]
  exact found

theorem ne_let_of_idempotent (linked : s.Linked) (present : env < s.size)
    (idempotent : ExpansionIdempotent s env) {items : List Value} {name : String} {w w' : World}
    (call : Macro.ofForm? s env (.list items) ≠ none)
    (start : Keeps s w.store) (run : Expands env (.list items) w (.sym name) w') :
    name ≠ "let" := by
  rintro rfl
  have stop : Keeps s w'.store := start.trans run.keeps
  have letFree (rest : List Value) : Macro.ofForm? s env (.list (.sym "let" :: rest)) = none := by
    refine Macro.ofForm?_eq_none fun name same => ?_
    cases same
    exact not_namesMacro_of_idempotent linked present idempotent start run
  obtain ⟨macroName, _, m, -, found⟩ := exists_name_of_call call
  obtain ⟨args, e, free, misfit⟩ := exists_misfit s env m.params
  -- `(let (name args))` is macro-free code, but as a binding list it binds `let` to a macro call.
  have inner : MacroFree s env (.list [.sym "let", .list (.sym macroName :: args)]) := by
    refine .list (letFree _) fun x member => ?_
    rw [codePositions_let, List.append_nil] at member
    rcases List.mem_cons.1 (mem_of_mem_boundValues member) with rfl | argument
    · exact .atom (by simp)
    · exact free x argument
  have once := run.head (List.forall_mem_singleton.2 (inner.of_keeps linked present stop))
  obtain ⟨w'', fuel, steps, again⟩ := idempotent _ w _ w' start once
  cases steps with
  | zero => cases again
  | succ steps =>
      change expandFrom _ _ env _ 0 _ _ w' = _ at again
      rw [expandFrom_list (by rw [Macro.ofForm?_of_keeps linked present stop, letFree])] at again
      obtain ⟨items', _, code, -⟩ := bind_eq_ok_iff.1 again
      rw [onCode_let] at code
      obtain ⟨bindings', _, bound, -⟩ := bind_eq_ok_iff.1 code
      obtain ⟨value, _, misfitRun, -⟩ := bind_eq_ok_iff.1 bound
      refine not_expandFrom_misfit ?_ misfit misfitRun
      rw [Macro.ofForm?_of_keeps linked present stop]
      exact found

end Exactness

/-- Full expansion is idempotent in an environment exactly when all its results there are macro-free,
and exactly when no macro call expands to a bare name that is `let` or the name of a macro. -/
theorem expansion_idempotent_iff {s : Store} {env : FrameId} (linked : s.Linked)
    (present : env < s.size) :
    (ExpansionIdempotent s env ↔ NoLateHead s env) ∧
    (ExpansionIdempotent s env ↔ ∀ form w result w', Keeps s w.store →
      Expands env form w result w' → MacroFree s env result) := by
  have late : ExpansionIdempotent s env → NoLateHead s env := by
    intro idempotent call w name w' start isCall run
    obtain ⟨_, _, _, rfl, _⟩ := exists_name_of_call isCall
    exact ⟨ne_let_of_idempotent linked present idempotent isCall start run,
      not_namesMacro_of_idempotent linked present idempotent start run⟩
  have free : NoLateHead s env → ∀ form w result w', Keeps s w.store →
      Expands env form w result w' → MacroFree s env result :=
    fun quiet _ _ _ _ start run => macroFree_of_noLateHead linked present quiet start run
  have fixed : (∀ form w result w', Keeps s w.store →
      Expands env form w result w' → MacroFree s env result) → ExpansionIdempotent s env := by
    intro allFree form w result w' start run
    have stop : Keeps s w'.store := start.trans run.keeps
    have freeResult := (allFree form w result w' start run).of_keeps linked present stop
    exact ⟨w', .of_macroFree freeResult⟩
  exact ⟨⟨late, fun quiet => fixed (free quiet)⟩, ⟨fun idempotent => free (late idempotent), fixed⟩⟩

theorem expands_of_fst {env : FrameId} {form result : Value} {w : World} {fuel steps : Nat}
    (h : (expandAll (eval fuel) steps form env w).1 = .ok result) :
    Expands env form w result (expandAll (eval fuel) steps form env w).2 :=
  ⟨fuel, steps, Prod.ext h rfl⟩

/-- A macro that gives its argument back, and one whose calls give the name of the first. -/
def aliasStore : Store :=
  ⟨#[⟨[("same", .proc .macroProc (.list [.sym "x"]) (.sym "x") none),
      ("alias", .proc .macroProc (.list []) (.list [.sym "quote", .sym "same"]) none)], .root {}⟩]⟩

def aliasWorld : World := ⟨aliasStore, ⟨[], "", .stopped⟩, #[]⟩

theorem aliasStore_not_idempotent :
    aliasStore.Linked ∧ 0 < aliasStore.size ∧ ¬ ExpansionIdempotent aliasStore 0 ∧
      ExpansionIdempotent ⟨#[⟨[], .root {}⟩]⟩ 0 := by
  have linked : aliasStore.Linked := Store.linked_root _ _
  have present : 0 < aliasStore.size := by decide
  refine ⟨linked, present, ?_, ?_⟩
  · intro idempotent
    have quiet := (expansion_idempotent_iff linked present).1.1 idempotent
    have run : Expands 0 (.list [.sym "alias"]) aliasWorld (.sym "same") _ :=
      expands_of_fst (show (expandAll (eval 3) 3 _ 0 aliasWorld).1 = _ from rfl)
    have call : Macro.ofForm? aliasStore 0 (.list [.sym "alias"]) ≠ none := by decide +kernel
    exact (quiet _ aliasWorld "same" _ (Keeps.refl _) call run).2 ⟨_, rfl⟩
  · refine (expansion_idempotent_iff (Store.linked_root _ _) (by decide)).1.2 ?_
    intro call w name w' start isCall
    obtain ⟨called, _, m, -, found⟩ := exists_name_of_call isCall
    cases found

/-- `((alias) 7)` expands to `(same 7)`, and that expands to `7`. -/
theorem expansion_twice_differs :
    (expandAll (eval 9) 9 (.list [.list [.sym "alias"], .int 7]) 0 aliasWorld).1 =
      .ok (.list [.sym "same", .int 7]) ∧
    (expandAll (eval 9) 9 (.list [.sym "same", .int 7]) 0
      (expandAll (eval 9) 9 (.list [.list [.sym "alias"], .int 7]) 0 aliasWorld).2).1 =
      .ok (.int 7) :=
  ⟨rfl, rfl⟩

end MiniLisp
