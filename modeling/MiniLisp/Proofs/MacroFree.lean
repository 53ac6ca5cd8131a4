import MiniLisp.Proofs.Scope

/-!
Code without macro calls. The code positions of a list are the items that expansion goes down to; a
tree is macro-free when no list at a code position of it is a macro call. Expansion gives a
macro-free tree back as it is and does nothing else.
-/

namespace MiniLisp

open Store (Keeps)

/-- The values of a list of names and values. -/
def boundValues : List Value → List Value
  | _ :: v :: rest => v :: boundValues rest
  | _ => []

/-- The items of a list, or of the binding list of a `let`, that are code. -/
def codePositions : List Value → List Value
  | [] => []
  | head :: rest => match SpecialForm.ofHead? head, rest with
    | some (.procedure _), _ :: body => body
    | some .letIn, .list bindings :: body => boundValues bindings ++ body
    | some form, _ => if form.isInert then [] else head :: rest
    | none, _ => head :: rest

/-- A name that is bound to a macro. -/
def Store.NamesMacro (s : Store) (env : FrameId) (name : String) : Prop :=
  ∃ m, (s.lookup? env name).bind Macro.ofValue? = some m

/-- No list at a code position is headed by the name of a macro. -/
inductive MacroFree (s : Store) (env : FrameId) : Value → Prop where
  | atom {v : Value} (leaf : ∀ items, v ≠ .list items) : MacroFree s env v
  | list {items : List Value} (settled : Macro.ofForm? s env (.list items) = none)
      (parts : ∀ x ∈ codePositions items, MacroFree s env x) : MacroFree s env (.list items)

theorem mem_of_mem_boundValues {x : Value} {items : List Value} (h : x ∈ boundValues items) :
    x ∈ items := by
  fun_induction boundValues items with
  | case1 name v rest ih =>
      rcases List.mem_cons.1 h with rfl | h
      · simp
      · simp [ih h]
  | case2 short _ => cases h

theorem eq_let_of_ofHead? {head : Value} (h : SpecialForm.ofHead? head = some .letIn) :
    head = .sym "let" := by
  cases head with
  | sym name =>
      by_cases same : name = "let"
      · rw [same]
      · grind [SpecialForm.ofHead?, SpecialForm.ofName?]
  | _ => cases h

/-- How a list holds code: not at all, as the body of a procedure, as a `let`, or in every item. -/
inductive CodeLayout : List Value → Prop where
  | data {items : List Value} (positions : codePositions items = [])
      (acts : ∀ f, onCode f items = pure items) : CodeLayout items
  | procedure {head params : Value} {body : List Value} (kind : ProcKind)
      (special : SpecialForm.ofHead? head = some (.procedure kind)) : CodeLayout (head :: params :: body)
  | letIn (bindings body : List Value) : CodeLayout (.sym "let" :: .list bindings :: body)
  | plain {items : List Value} (positions : codePositions items = items)
      (acts : ∀ f, onCode f items = Eval.each f items)
      (other : ∀ bindings body, items ≠ .sym "let" :: .list bindings :: body) : CodeLayout items

theorem codeLayout (items : List Value) : CodeLayout items := by
  cases items with
  | nil => exact .data rfl fun _ => rfl
  | cons head rest =>
      by_cases shape : ∃ bindings body, head = .sym "let" ∧ rest = .list bindings :: body
      · obtain ⟨bindings, body, rfl, rfl⟩ := shape
        exact .letIn bindings body
      · have other : ∀ bindings body, head :: rest ≠ .sym "let" :: .list bindings :: body := by
          intro bindings body same
          cases same
          exact shape ⟨bindings, body, rfl, rfl⟩
        cases special : SpecialForm.ofHead? head with
        | none =>
            refine .plain ?_ (fun f => ?_) other
            · simp only [codePositions, special]
            · simp only [onCode, special]
        | some form =>
            cases form with
            | procedure kind =>
                cases rest with
                | nil =>
                    refine .plain ?_ (fun f => ?_) other
                    · simp [codePositions, special, SpecialForm.isInert]
                    · simp [onCode, special, SpecialForm.isInert]
                | cons params body => exact .procedure kind special
            | letIn =>
                obtain rfl := eq_let_of_ofHead? special
                cases rest with
                | nil => exact .plain rfl (fun _ => rfl) other
                | cons first body =>
                    cases first with
                    | list bindings => exact .letIn bindings body
                    | _ => exact .plain rfl (fun _ => rfl) other
            | quote | quasiquote | expandOnce | expandAll =>
                refine .data ?_ fun f => ?_
                · simp [codePositions, special, SpecialForm.isInert]
                · simp [onCode, special, SpecialForm.isInert]
            | define | branch | sequence =>
                refine .plain ?_ (fun f => ?_) other
                · simp [codePositions, special, SpecialForm.isInert]
                · simp [onCode, special, SpecialForm.isInert]

section Procedure

variable {head params : Value} {body : List Value} {kind : ProcKind}

theorem codePositions_procedure (special : SpecialForm.ofHead? head = some (.procedure kind)) :
    codePositions (head :: params :: body) = body := by
  simp only [codePositions, special]

theorem onCode_procedure (special : SpecialForm.ofHead? head = some (.procedure kind))
    (f : Value → Eval Value) :
    onCode f (head :: params :: body) = (do
      let body' ← Eval.each f body
      return head :: params :: body') := by
  simp only [onCode, special]

end Procedure

theorem codePositions_let (bindings body : List Value) :
    codePositions (.sym "let" :: .list bindings :: body) = boundValues bindings ++ body := rfl

theorem onCode_let (f : Value → Eval Value) (bindings body : List Value) :
    onCode f (.sym "let" :: .list bindings :: body) = (do
      let bindings' ← onBoundValues f bindings
      let body' ← Eval.each f body
      return .sym "let" :: .list bindings' :: body') := rfl

/-- A code position is an item of the list, or stands in the binding list of a `let`. -/
theorem mem_of_mem_codePositions {x : Value} {items : List Value} (h : x ∈ codePositions items) :
    x ∈ items ∨ ∃ bindings body, items = .sym "let" :: .list bindings :: body ∧ x ∈ bindings := by
  cases codeLayout items with
  | data positions acts =>
      rw [positions] at h
      cases h
  | procedure kind special =>
      rw [codePositions_procedure special] at h
      exact .inl (List.mem_cons_of_mem _ (List.mem_cons_of_mem _ h))
  | letIn bindings body =>
      rcases List.mem_append.1 h with bound | code
      · exact .inr ⟨bindings, body, rfl, mem_of_mem_boundValues bound⟩
      · exact .inl (List.mem_cons_of_mem _ (List.mem_cons_of_mem _ code))
  | plain positions acts other =>
      rw [positions] at h
      exact .inl h

section Fixed

variable {f : Value → Eval Value} {w : World}

theorem each_of_fixed {items : List Value} (fixed : ∀ x ∈ items, f x w = (.ok x, w)) :
    Eval.each f items w = (.ok items, w) := by
  induction items with
  | nil => rfl
  | cons x rest ih =>
      have first : f x w = (.ok x, w) := fixed x List.mem_cons_self
      have others := ih fun y member => fixed y (List.mem_cons_of_mem x member)
      rw [Eval.each, Eval.bind_of_ok first, Eval.bind_of_ok others]
      rfl

theorem onBoundValues_of_fixed {items : List Value}
    (fixed : ∀ x ∈ boundValues items, f x w = (.ok x, w)) :
    onBoundValues f items w = (.ok items, w) := by
  fun_induction onBoundValues f items with
  | case1 name v rest ih =>
      have first : f v w = (.ok v, w) := fixed v List.mem_cons_self
      have others := ih fun y member => fixed y (List.mem_cons_of_mem v member)
      rw [Eval.bind_of_ok first, Eval.bind_of_ok others]
      rfl
  | case2 short _ => rfl

theorem onCode_of_fixed {items : List Value}
    (fixed : ∀ x ∈ codePositions items, f x w = (.ok x, w)) : onCode f items w = (.ok items, w) := by
  cases codeLayout items with
  | data positions acts =>
      rw [acts]
      rfl
  | procedure kind special =>
      rw [codePositions_procedure special] at fixed
      rw [onCode_procedure special, Eval.bind_of_ok (each_of_fixed fixed)]
      rfl
  | letIn bindings body =>
      rw [codePositions_let] at fixed
      have bound := onBoundValues_of_fixed fun x member => fixed x (List.mem_append_left _ member)
      have code := each_of_fixed fun x member => fixed x (List.mem_append_right _ member)
      rw [onCode_let, Eval.bind_of_ok bound, Eval.bind_of_ok code]
      rfl
  | plain positions acts other =>
      rw [positions] at fixed
      rw [acts]
      exact each_of_fixed fixed

end Fixed

open Eval (Refines refines_refl refines_bind refines_each Yields yields_pure yields_bind yields_each)

section Refinement

variable {f g : Value → Eval Value}

theorem refines_onBoundValues (h : ∀ v, Refines (f v) (g v)) (items : List Value) :
    Refines (onBoundValues f items) (onBoundValues g items) := by
  fun_induction onBoundValues f items with
  | case1 name v rest ih =>
      exact refines_bind (h v) fun v' => refines_bind ih fun rest' => refines_refl _
  | case2 short other =>
      rw [onBoundValues]
      · exact refines_refl _
      · exact other

theorem refines_onCode (h : ∀ v, Refines (f v) (g v)) (items : List Value) :
    Refines (onCode f items) (onCode g items) := by
  cases codeLayout items with
  | data positions acts =>
      rw [acts, acts]
      exact refines_refl _
  | procedure kind special =>
      rw [onCode_procedure special, onCode_procedure special]
      exact refines_bind (refines_each h _) fun body' => refines_refl _
  | letIn bindings body =>
      rw [onCode_let, onCode_let]
      refine refines_bind (refines_onBoundValues h bindings) fun bindings' => ?_
      exact refines_bind (refines_each h body) fun body' => refines_refl _
  | plain positions acts other =>
      rw [acts, acts]
      exact refines_each h items

end Refinement

section Results

variable {inv : World → Prop} {f : Value → Eval Value} {post : Value → Value → Prop}

theorem yields_onBoundValues (h : ∀ v, Yields inv (f v) (post v)) (items : List Value) :
    Yields inv (onBoundValues f items) fun items' =>
      List.Forall₂ post (boundValues items) (boundValues items') := by
  fun_induction onBoundValues f items with
  | case1 name v rest ih =>
      refine yields_bind (h v) fun v' first => ?_
      exact yields_bind ih fun rest' others => yields_pure (.cons first others)
  | case2 short other =>
      refine yields_pure ?_
      rw [boundValues]
      · exact .nil
      · exact other

/-- Work on the code of a list leaves the head and works on the code positions, or it works on every
item; then the list was not a `let` with bindings. -/
theorem yields_onCode (h : ∀ v, Yields inv (f v) (post v)) (items : List Value) :
    Yields inv (onCode f items) fun items' =>
      (items'.head? = items.head? ∧ List.Forall₂ post (codePositions items) (codePositions items')) ∨
      (List.Forall₂ post items items' ∧
        ∀ bindings body, items ≠ .sym "let" :: .list bindings :: body) := by
  cases codeLayout items with
  | data positions acts =>
      rw [acts, positions]
      refine yields_pure (.inl ⟨rfl, ?_⟩)
      rw [positions]
      exact .nil
  | procedure kind special =>
      rw [onCode_procedure special, codePositions_procedure special]
      refine yields_bind (yields_each h _) fun body' code => yields_pure (.inl ⟨rfl, ?_⟩)
      rw [codePositions_procedure special]
      exact code
  | letIn bindings body =>
      rw [onCode_let]
      refine yields_bind (yields_onBoundValues h bindings) fun bindings' bound => ?_
      refine yields_bind (yields_each h body) fun body' code => yields_pure (.inl ⟨rfl, ?_⟩)
      exact List.rel_append bound code
  | plain positions acts other =>
      rw [acts]
      exact (yields_each h items).imp fun items' each => .inr ⟨each, other⟩

end Results

theorem sizeOf_lt_of_mem_codePositions {x : Value} {items : List Value}
    (h : x ∈ codePositions items) : sizeOf x < sizeOf (Value.list items) := by
  rw [Value.list.sizeOf_spec]
  rcases mem_of_mem_codePositions h with item | ⟨bindings, body, rfl, bound⟩
  · have := List.sizeOf_lt_of_mem item
    omega
  · have := List.sizeOf_lt_of_mem bound
    simp only [List.cons.sizeOf_spec, Value.list.sizeOf_spec]
    omega

theorem Macro.ofForm?_of_leaf {v : Value} (leaf : ∀ items, v ≠ .list items) (s : Store)
    (env : FrameId) : Macro.ofForm? s env v = none := by
  cases v with
  | list items => exact absurd rfl (leaf items)
  | _ => rfl

section Names

variable {s t : Store} {env : FrameId}

theorem Macro.ofForm?_eq_none {head : Value} {rest : List Value}
    (h : ∀ name, head = .sym name → ¬ s.NamesMacro env name) :
    Macro.ofForm? s env (.list (head :: rest)) = none := by
  cases head with
  | sym name => exact Option.eq_none_iff_forall_ne_some.2 fun m found => h name rfl ⟨m, found⟩
  | _ => rfl

/-- A macro call is a list that starts with a name for the macro. -/
theorem Macro.exists_of_ofForm? {form : Value} {m : Macro} (call : Macro.ofForm? s env form = some m) :
    ∃ name args, form = .list (.sym name :: args) ∧ s.lookup? env name = some m.toValue := by
  unfold Macro.ofForm? at call
  split at call
  · obtain ⟨v, found, isMacro⟩ := Option.bind_eq_some_iff.1 call
    unfold Macro.ofValue? at isMacro
    split at isMacro
    · cases isMacro
      exact ⟨_, _, rfl, found⟩
    · cases isMacro
  · cases call

theorem Macro.ofForm?_congr {items items' : List Value} (same : items'.head? = items.head?) :
    Macro.ofForm? s env (.list items') = Macro.ofForm? s env (.list items) := by
  cases items with
  | nil =>
      cases items' with
      | nil => rfl
      | cons head rest => cases same
  | cons head rest =>
      cases items' with
      | nil => cases same
      | cons head' rest' =>
          cases same
          cases head <;> rfl

theorem Macro.ofForm?_of_keeps (linked : s.Linked) (present : env < s.size) (keeps : Keeps s t)
    (form : Value) : Macro.ofForm? t env form = Macro.ofForm? s env form := by
  unfold Macro.ofForm?
  split
  · rw [Store.lookup?_of_keeps linked keeps present]
  · rfl

theorem MacroFree.of_keeps (linked : s.Linked) (present : env < s.size) (keeps : Keeps s t)
    {v : Value} (free : MacroFree s env v) : MacroFree t env v := by
  induction free with
  | atom leaf => exact .atom leaf
  | list settled parts ih =>
      refine .list ?_ ih
      rw [Macro.ofForm?_of_keeps linked present keeps, settled]

end Names

section Rules

variable {ev : Evaluator} {limit : Option Nat} {env : FrameId} {steps depth : Nat} {first : Value}
  {w : World}

theorem expandFrom_leaf {v : Value} (leaf : ∀ items, v ≠ .list items) :
    expandFrom ev limit env (steps + 1) depth first v w = (.ok v, w) := by
  unfold expandFrom
  rw [Eval.bind_of_ok (show Eval.store w = (.ok w.store, w) from rfl)]
  simp only [Macro.ofForm?_of_leaf leaf]
  cases v with
  | list items => exact absurd rfl (leaf items)
  | _ => rfl

theorem expandFrom_list {items : List Value}
    (settled : Macro.ofForm? w.store env (.list items) = none) :
    expandFrom ev limit env (steps + 1) depth first (.list items) w =
      (do
        let items' ← onCode (fun x => expandFrom ev limit env steps depth x x) items
        return .list items' : Eval Value) w := by
  conv => lhs; unfold expandFrom
  rw [Eval.bind_of_ok (show Eval.store w = (.ok w.store, w) from rfl)]
  simp only [settled]

/-- What a call that was expanded in full has gone through. -/
theorem expandFrom_call {form r : Value} {m : Macro} {w' : World}
    (call : Macro.ofForm? w.store env form = some m)
    (run : expandFrom ev limit env (steps + 1) depth first form w = (.ok r, w')) :
    ∃ expansion v, expandCall ev m form env w = (.ok expansion, v) ∧
      exceeds limit (depth + 1) = none ∧
      expandFrom ev limit env steps (depth + 1) first expansion v = (.ok r, w') := by
  unfold expandFrom at run
  rw [Eval.bind_of_ok (show Eval.store w = (.ok w.store, w) from rfl)] at run
  simp only [call] at run
  obtain ⟨expansion, v, expanded, rest⟩ := Eval.bind_eq_ok_iff.1 run
  cases room : exceeds limit (depth + 1) with
  | some l =>
      rw [room] at rest
      cases rest
  | none =>
      rw [room] at rest
      exact ⟨expansion, v, expanded, rfl, rest⟩

end Rules

theorem expandFrom_of_macroFree {v : Value} {env : FrameId} {w : World}
    (free : MacroFree w.store env v) (ev : Evaluator) (limit : Option Nat) (steps : Nat)
    (enough : sizeOf v ≤ steps) (depth : Nat) (first : Value) :
    expandFrom ev limit env steps depth first v w = (.ok v, w) := by
  induction free generalizing steps depth first with
  | @atom v leaf =>
      cases steps with
      | zero => cases v <;> simp at enough
      | succ steps => exact expandFrom_leaf leaf
  | @list items settled parts ih =>
      cases steps with
      | zero => simp at enough
      | succ steps =>
          rw [expandFrom_list settled]
          have fixed : ∀ x ∈ codePositions items,
              expandFrom ev limit env steps depth x x w = (.ok x, w) := by
            intro x member
            have smaller : sizeOf x < sizeOf (Value.list items) := sizeOf_lt_of_mem_codePositions member
            exact ih x member steps (by omega) depth x
          rw [Eval.bind_of_ok (onCode_of_fixed fixed)]
          rfl

end MiniLisp
