import MiniLisp.Eval.Evaluator
import MiniLisp.Proofs.Outcome

/-!
What an evaluation can do to the frames that were there before it. An evaluator is confined when it
only adds to the frame it works in: other frames stay as they are, and in its own frame names are
bound at the end or bound again in place. Confinement passes from the evaluator of subforms to each
rule of the language, and so, by induction on fuel, to the evaluator itself.
-/

namespace MiniLisp

/-- The names that a frame binds, in order of first definition. -/
def Frame.names (f : Frame) : List String := f.bindings.map Prod.fst

theorem setBinding_names (name : String) (v : Value) (bindings : List (String × Value)) :
    bindings.map Prod.fst <+: (setBinding name v bindings).map Prod.fst := by
  induction bindings with
  | nil => exact List.nil_prefix
  | cons b rest ih =>
      obtain ⟨n, u⟩ := b
      by_cases same : n = name
      · simp [setBinding, same]
      · simpa [setBinding, same, List.cons_prefix_cons] using ih

namespace Store

/-- From `s` to `t` frames outside `own` stay as they are. Those in `own` keep their link and their
names, in the same order, and new names come after them. -/
structure Effect (own : FrameId → Prop) (s t : Store) : Prop where
  kept : ∀ {id f}, ¬ own id → s.get? id = some f → t.get? id = some f
  grown : ∀ {id f}, s.get? id = some f → ∃ g, t.get? id = some g ∧ g.link = f.link ∧ f.names <+: g.names

/-- Every frame of `s` stands unchanged in `t`. -/
def Keeps (s t : Store) : Prop := ∀ id f, s.get? id = some f → t.get? id = some f

/-- Every frame of `s` but `env` stands unchanged in `t`, and `env` has kept its link and its names,
in the same order, with new names after them. -/
structure Grows (env : FrameId) (s t : Store) : Prop where
  others : ∀ id f, id ≠ env → s.get? id = some f → t.get? id = some f
  current : ∀ f, s.get? env = some f →
    ∃ g, t.get? env = some g ∧ g.link = f.link ∧ f.names <+: g.names

variable {own : FrameId → Prop} {s t u : Store}

theorem Effect.refl (own : FrameId → Prop) (s : Store) : Effect own s s :=
  ⟨fun _ h => h, fun {_ f} h => ⟨f, h, rfl, List.prefix_rfl⟩⟩

theorem Effect.trans (first : Effect own s t) (second : Effect own t u) : Effect own s u := by
  refine ⟨fun out h => second.kept out (first.kept out h), ?_⟩
  intro id f h
  obtain ⟨g, hg, link, names⟩ := first.grown h
  obtain ⟨k, hk, link', names'⟩ := second.grown hg
  exact ⟨k, hk, link'.trans link, names.trans names'⟩

theorem Effect.keeps (h : Effect (fun _ => False) s t) : Keeps s t :=
  fun _ _ present => h.kept id present

theorem Effect.grows {env : FrameId} (h : Effect (· = env) s t) : Grows env s t :=
  ⟨fun _ _ other present => h.kept other present, fun _ present => h.grown present⟩

theorem Keeps.effect (h : Keeps s t) (own : FrameId → Prop) : Effect own s t :=
  ⟨fun _ present => h _ _ present, fun {_ f} present => ⟨f, h _ _ present, rfl, List.prefix_rfl⟩⟩

theorem Keeps.refl (s : Store) : Keeps s s := fun _ _ h => h

theorem Keeps.trans (first : Keeps s t) (second : Keeps t u) : Keeps s u :=
  fun id f h => second id f (first id f h)

theorem lt_size_of_get? {id : FrameId} {f : Frame} (h : s.get? id = some f) : id < s.size :=
  (Array.getElem?_eq_some_iff.1 h).1

theorem get?_push {id : FrameId} {f : Frame} (g : Frame) (h : s.get? id = some f) :
    (s.push g).get? id = some f := by
  have bound : id < s.frames.size := lt_size_of_get? h
  simp only [get?, push, Array.getElem?_push]
  rw [if_neg (Nat.ne_of_lt bound)]
  exact h

/-- A new frame is none of the old ones, so work that is confined to it keeps them all. -/
theorem keeps_of_effect_push {g : Frame} (h : Effect (· = s.size) (s.push g) t) : Keeps s t := by
  intro id f present
  exact h.kept (Nat.ne_of_lt (lt_size_of_get? present)) (get?_push g present)

theorem effect_define (s : Store) (id : FrameId) (name : String) (v : Value) :
    Effect (· = id) s (s.define id name v) := by
  have get (i : FrameId) : (s.define id name v).get? i =
      if id = i then (s.get? i).map (·.define name v) else s.get? i := by
    simp [get?, define, Array.getElem?_modify]
  constructor
  · intro i f other present
    rw [get, if_neg (Ne.symm other)]
    exact present
  · intro i f present
    by_cases same : id = i
    · refine ⟨f.define name v, ?_, rfl, setBinding_names name v f.bindings⟩
      rw [get, if_pos same, present]
      rfl
    · refine ⟨f, ?_, rfl, List.prefix_rfl⟩
      rw [get, if_neg same]
      exact present

end Store

open Store (Effect Keeps Grows)

namespace Eval

variable {α β : Type} {own : FrameId → Prop}

/-- Whatever comes of it, the evaluation has no effect outside `own`. -/
def Within (own : FrameId → Prop) (x : Eval α) : Prop := ∀ w, Effect own w.store (x w).2.store

theorem within_of_store_eq {x : Eval α} (h : ∀ w, (x w).2.store = w.store) : Within own x := by
  intro w
  rw [h w]
  exact Effect.refl own w.store

theorem within_pure (a : α) : Within own (pure a : Eval α) := within_of_store_eq fun _ => rfl

theorem within_stop (s : Stop) : Within own (stop s : Eval α) := within_of_store_eq fun _ => rfl

theorem within_raise (e : Error) : Within own (raise e : Eval α) := within_stop _

theorem within_lift (r : Except Error α) : Within own (lift r) := by
  cases r with
  | ok a => exact within_pure a
  | error e => exact within_stop _

theorem within_store : Within own store := within_of_store_eq fun _ => rfl

theorem within_record (source : LogSource) (message : String) : Within own (record source message) :=
  within_of_store_eq fun _ => rfl

theorem within_write (text : String) : Within own (write text) := within_of_store_eq fun _ => rfl

theorem within_readClock : Within own readClock := within_of_store_eq fun _ => rfl

theorem within_readLine : Within own readLine := within_of_store_eq fun _ => rfl

theorem within_define (id : FrameId) (name : String) (v : Value) : Within (· = id) (define id name v) :=
  fun w => Store.effect_define w.store id name v

theorem within_bind {x : Eval α} {f : α → Eval β} (hx : Within own x) (hf : ∀ a, Within own (f a)) :
    Within own (x >>= f) := by
  intro w
  have first := hx w
  change Effect own w.store (Eval.bind x f w).2.store
  unfold Eval.bind
  rcases run : x w with ⟨result, w'⟩
  rw [run] at first
  cases result with
  | ok a => exact first.trans (hf a w')
  | error s => exact first

theorem within_each {f : α → Eval β} (hf : ∀ a, Within own (f a)) (as : List α) :
    Within own (each f as) := by
  induction as with
  | nil => exact within_pure []
  | cons a as ih => exact within_bind (hf a) fun b => within_bind ih fun bs => within_pure (b :: bs)

/-- What happens in a new frame has no effect on the frames before it. -/
theorem within_newFrame_bind {f : FrameId → Eval β} (frame : Frame)
    (hf : ∀ id, Within (· = id) (f id)) : Within own (newFrame frame >>= f) := by
  intro w
  have inner := hf w.store.size { w with store := w.store.push frame }
  exact (Store.keeps_of_effect_push inner).effect own

end Eval

open Eval

theorem within_enter_bind {own : FrameId → Prop} {f : FrameId → Eval Value} (params : Value)
    (args : List Value) (outer : FrameId) (hf : ∀ id, Within (· = id) (f id)) :
    Within own (enter params args outer >>= f) := by
  unfold enter
  rw [bind_assoc]
  exact within_bind (within_lift _) fun bindings => within_newFrame_bind _ hf

/-- An evaluator that has no effect outside the frame it is given. -/
def Evaluator.Confined (ev : Evaluator) : Prop := ∀ form env, Within (· = env) (ev form env)

section Rules

variable {ev : Evaluator} {own : FrameId → Prop}

/-! Console operations -/

theorem within_operand (op : ConsoleOp) (args : List Value) : Within own (op.operand args) := by
  unfold ConsoleOp.operand
  split
  · exact within_pure _
  · exact within_raise _

theorem within_printValue (h : ev.Confined) (form : Value) (env : FrameId) (ending : String) :
    Within (· = env) (printValue ev form env ending) := by
  refine within_bind (h form env) fun v => ?_
  refine within_bind (within_lift _) fun text => ?_
  exact within_bind (within_write _) fun _ => within_pure v

theorem within_debugForm (h : ev.Confined) (form : Value) (env : FrameId) :
    Within (· = env) (debugForm ev form env) := by
  refine within_bind (h form env) fun v => ?_
  refine within_bind (within_lift _) fun shown => ?_
  refine within_bind (within_lift _) fun inspected => ?_
  refine within_bind (within_record _ _) fun _ => ?_
  refine within_bind (within_lift _) fun text => ?_
  exact within_bind (within_write _) fun _ => within_pure v

theorem within_readLineForm (h : ev.Confined) (env : FrameId) (args : List Value) :
    Within (· = env) (readLineForm ev env args) := by
  unfold readLineForm
  split
  · exact within_bind within_readLine fun _ => within_pure _
  · refine within_bind (h _ env) fun v => ?_
    refine within_bind (within_lift _) fun prompt => ?_
    refine within_bind (within_write _) fun _ => ?_
    exact within_bind within_readLine fun _ => within_pure _
  · exact within_raise _

theorem within_timeForm (h : ev.Confined) (form : Value) (env : FrameId) :
    Within (· = env) (timeForm ev form env) := by
  refine within_bind within_readClock fun started => ?_
  refine within_bind (h form env) fun v => ?_
  refine within_bind within_readClock fun ended => ?_
  refine within_bind (within_lift _) fun shown => ?_
  exact within_bind (within_write _) fun _ => within_pure v

theorem within_console (h : ev.Confined) (op : ConsoleOp) (args : List Value) (env : FrameId) :
    Within (· = env) (op.run ev args env) := by
  cases op with
  | print => exact within_bind (within_operand _ _) fun form => within_printValue h form env _
  | printLine => exact within_bind (within_operand _ _) fun form => within_printValue h form env _
  | debug => exact within_bind (within_operand _ _) fun form => within_debugForm h form env
  | readLine => exact within_readLineForm h env args
  | time => exact within_bind (within_operand _ _) fun form => within_timeForm h form env

/-! Macro expansion: bodies run in frames of their own. -/

theorem within_expandCall (h : ev.Confined) (m : Macro) (form : Value) (env : FrameId) :
    Within own (expandCall ev m form env) := by
  refine within_enter_bind _ _ _ fun frame => ?_
  refine within_bind (h m.body frame) fun expansion => ?_
  refine within_bind (within_lift _) fun before => ?_
  refine within_bind (within_lift _) fun after => ?_
  exact within_bind (within_record _ _) fun _ => within_pure expansion

theorem within_expandOnce (h : ev.Confined) (form : Value) (env : FrameId) :
    Within own (expandOnce ev form env) := by
  refine within_bind within_store fun s => ?_
  split
  · exact within_expandCall h _ form env
  · exact within_pure form

theorem within_onBoundValues {f : Value → Eval Value} (hf : ∀ v, Within own (f v))
    (items : List Value) : Within own (onBoundValues f items) := by
  fun_induction onBoundValues f items with
  | case1 name v rest ih =>
      exact within_bind (hf v) fun v' => within_bind ih fun rest' => within_pure _
  | case2 short _ => exact within_pure short

theorem within_onCode {f : Value → Eval Value} (hf : ∀ v, Within own (f v)) (items : List Value) :
    Within own (onCode f items) := by
  unfold onCode
  split
  · exact within_pure []
  · split
    · exact within_bind (within_each hf _) fun body' => within_pure _
    · refine within_bind (within_onBoundValues hf _) fun bindings' => ?_
      exact within_bind (within_each hf _) fun body' => within_pure _
    · split
      · exact within_pure _
      · exact within_each hf _
    · exact within_each hf _

theorem within_expandFrom (h : ev.Confined) (limit : Option Nat) (env : FrameId)
    (fuel depth : Nat) (first form : Value) :
    Within own (expandFrom ev limit env fuel depth first form) := by
  induction fuel generalizing depth first form with
  | zero => exact within_stop _
  | succ fuel ih =>
      refine within_bind within_store fun s => ?_
      split
      · refine within_bind (within_expandCall h _ form env) fun expansion => ?_
        split
        · exact within_raise _
        · exact ih (depth + 1) first expansion
      · split
        · refine within_bind (within_onCode (fun x => ih depth x x) _) fun items' => within_pure _
        · exact within_pure _

theorem within_expandAll (h : ev.Confined) (fuel : Nat) (form : Value) (env : FrameId) :
    Within own (expandAll ev fuel form env) :=
  within_bind within_store fun _ => within_expandFrom h _ env fuel 0 form form

/-! Special forms -/

theorem within_evalDefine (h : ev.Confined) (env : FrameId) (args : List Value) :
    Within (· = env) (evalDefine ev env args) := by
  unfold evalDefine
  split
  · refine within_bind (within_lift _) fun name => ?_
    refine within_bind (h _ env) fun v => ?_
    exact within_bind (within_define env name v) fun _ => within_pure _
  · exact within_raise _

theorem within_evalBranch (h : ev.Confined) (env : FrameId) (args : List Value) :
    Within (· = env) (evalBranch ev env args) := by
  unfold evalBranch
  split
  · refine within_bind (h _ env) fun v => ?_
    refine within_bind (within_lift _) fun b => ?_
    split
    · exact h _ env
    · exact h _ env
  · exact within_raise _

theorem within_evalProcedure (kind : ProcKind) (env : FrameId) (args : List Value) :
    Within own (evalProcedure kind env args) := by
  unfold evalProcedure
  split
  · exact within_bind within_store fun s => within_pure _
  · exact within_raise _

theorem within_bindPairs (h : ev.Confined) (env : FrameId) (items : List Value) :
    Within (· = env) (bindPairs ev env items) := by
  fun_induction bindPairs ev env items with
  | case1 target form rest ih =>
      refine within_bind (within_lift _) fun name => ?_
      refine within_bind (h form env) fun v => ?_
      exact within_bind (within_define env name v) fun _ => ih
  | case2 short _ => exact within_pure ()

/-- A `let` only writes to the frame that it makes. -/
theorem within_evalLet (h : ev.Confined) (env : FrameId) (args : List Value) :
    Within own (evalLet ev env args) := by
  unfold evalLet
  split
  · refine within_bind (within_lift _) fun pairs => ?_
    split
    · refine within_newFrame_bind _ fun inner => ?_
      exact within_bind (within_bindPairs h inner pairs) fun _ => h _ inner
    · exact within_raise _
  · exact within_raise _

theorem within_evalLast (h : ev.Confined) (env : FrameId) (form : Value) (rest : List Value) :
    Within (· = env) (evalLast ev env form rest) := by
  induction rest generalizing form with
  | nil => exact h form env
  | cons next rest ih => exact within_bind (h form env) fun _ => ih next

/-- A `do` only writes to the frame that it makes. -/
theorem within_evalSequence (h : ev.Confined) (env : FrameId) (args : List Value) :
    Within own (evalSequence ev env args) := by
  unfold evalSequence
  split
  · exact within_raise _
  · exact within_newFrame_bind _ fun inner => within_evalLast h inner _ _

theorem within_dataOperand (form : String) (args : List Value) :
    Within own (dataOperand form args) := by
  unfold dataOperand
  split
  · exact within_pure _
  · exact within_raise _

theorem within_evalForm (h : ev.Confined) (fuel : Nat) (form : SpecialForm) (args : List Value)
    (env : FrameId) : Within (· = env) (evalForm ev fuel form args env) := by
  cases form with
  | define => exact within_evalDefine h env args
  | branch => exact within_evalBranch h env args
  | procedure kind => exact within_evalProcedure kind env args
  | letIn => exact within_evalLet h env args
  | sequence => exact within_evalSequence h env args
  | quote => exact within_dataOperand _ args
  | quasiquote =>
      refine within_bind (within_dataOperand _ args) fun template => ?_
      exact within_bind within_store fun s => within_lift _
  | expandOnce =>
      exact within_bind (within_dataOperand _ args) fun form => within_expandOnce h form env
  | expandAll =>
      exact within_bind (within_dataOperand _ args) fun form => within_expandAll h fuel form env

/-! Application, and the evaluator -/

/-- The arguments are evaluated in the caller's frame and the body in a new one, whichever frame
that one hangs off. -/
theorem within_apply (h : ev.Confined) (f : Value) (args : List Value) (env : FrameId)
    (form : List Value) : Within (· = env) (apply ev f args env form) := by
  unfold apply
  split
  · exact within_bind (within_each (fun x => h x env) args) fun vs => within_lift _
  · exact within_console h _ args env
  · refine within_bind (within_each (fun x => h x env) args) fun vs => ?_
    exact within_enter_bind _ _ _ fun frame => h _ frame
  · exact within_raise _

theorem confined_evalStep (h : ev.Confined) (fuel : Nat) : Evaluator.Confined (evalStep ev fuel) := by
  intro expr env
  unfold evalStep
  split
  · exact within_bind within_store fun s => within_lift _
  · exact within_raise _
  · split
    · exact within_evalForm h fuel _ _ env
    · exact within_bind (h _ env) fun f => within_apply h f _ env _
  · exact within_raise _
  · exact within_pure _

end Rules

theorem confined_eval (fuel : Nat) : Evaluator.Confined (eval fuel) := by
  induction fuel with
  | zero => exact fun _ _ => within_stop _
  | succ fuel ih => exact confined_evalStep ih fuel

theorem keeps_expandAll {ev : Evaluator} (h : ev.Confined) (fuel : Nat) (form : Value)
    (env : FrameId) (w : World) : Keeps w.store (expandAll ev fuel form env w).2.store :=
  (within_expandAll h fuel form env w).keeps

/-- A form whose rule only works in a frame of its own keeps all frames, also the current one. -/
theorem keeps_eval_of_evalForm {head : Value} {form : SpecialForm}
    (special : SpecialForm.ofHead? head = some form) {args : List Value} {env : FrameId}
    (h : ∀ fuel, Within (fun _ => False) (evalForm (eval fuel) fuel form args env))
    (fuel : Nat) (w : World) : Keeps w.store (eval fuel (.list (head :: args)) env w).2.store := by
  cases fuel with
  | zero => exact Keeps.refl _
  | succ fuel =>
      have step : eval (fuel + 1) (.list (head :: args)) env = evalForm (eval fuel) fuel form args env := by
        simp only [eval, evalStep, special]
      rw [step]
      exact (h fuel w).keeps

/-- An evaluation changes no frame but the one it works in, and there it removes nothing; expansion,
`let` and `do` change no frame at all. `w` is any world, and the world afterwards is compared with it
whether the evaluation gave a value, failed or was cut short. -/
theorem eval_frame_effect (fuel steps : Nat) (expr : Value) (env : FrameId) (w : World) :
    Grows env w.store (eval fuel expr env w).2.store ∧
    Keeps w.store (expandOnce (eval fuel) expr env w).2.store ∧
    Keeps w.store (expandAll (eval fuel) steps expr env w).2.store ∧
    (∀ args, Keeps w.store (eval fuel (.list (.sym "let" :: args)) env w).2.store) ∧
    (∀ args, Keeps w.store (eval fuel (.list (.sym "do" :: args)) env w).2.store) := by
  refine ⟨(confined_eval fuel expr env w).grows, ?_, ?_, ?_, ?_⟩
  · exact (within_expandOnce (confined_eval fuel) expr env w).keeps
  · exact keeps_expandAll (confined_eval fuel) steps expr env w
  · intro args
    have special : SpecialForm.ofHead? (.sym "let") = some .letIn := by decide
    exact keeps_eval_of_evalForm special (fun n => within_evalLet (confined_eval n) env args) fuel w
  · intro args
    have special : SpecialForm.ofHead? (.sym "do") = some .sequence := by decide
    exact keeps_eval_of_evalForm special (fun n => within_evalSequence (confined_eval n) env args) fuel w

end MiniLisp
