import MiniLisp.Eval.Evaluator
import MiniLisp.Proofs.Outcome
import MiniLisp.Proofs.Scope
import MiniLisp.Proofs.Template

/-!
Macros whose body is a template. A call of such a macro stands for the template with the argument forms put
in for the parameters, all at once: what is put in is neither evaluated nor looked at. Other names mean what
they mean where the macro was made.
-/

namespace MiniLisp

namespace Template

/-- What an element of a template becomes when `args` take the place of names, and `outside` says what other
names stand for. -/
def filled (args : List (String × Value)) (outside : String → Option Value) : Value → List Value
  | .list [.sym "unquote", .sym name] => match args.lookup name with
    | some a => [a]
    | none => [(outside name).getD (.list [.sym "unquote", .sym name])]
  | .list [.sym "splice-unquote", .sym name] => match args.lookup name with
    | some (.list items) => items
    | _ => []
  | .list items => [.list (items.flatMap fun x => filled args outside x)]
  | v => [v]

/-- A whole template with `args` in the place of names. -/
def substitute (args : List (String × Value)) (outside : String → Option Value) : Value → Value
  | .list [.sym "unquote", .sym name] => match args.lookup name with
    | some a => a
    | none => (outside name).getD (.list [.sym "unquote", .sym name])
  | .list [.sym "splice-unquote", .sym name] =>
      .list (filled args outside (.list [.sym "splice-unquote", .sym name]))
  | .list items => .list (items.flatMap (filled args outside))
  | v => v

/-- What is wrong with an element when only `params` can be spliced. -/
def misfit? (params : List String) : Value → Option Error
  | .list [.sym "unquote", .sym _] => none
  | .list [.sym "splice-unquote", .sym name] => if name ∈ params then none else some (.unbound name)
  | .list (.sym "unquote" :: .sym _ :: _) => some (.arity (.mark "unquote"))
  | .list (.sym "splice-unquote" :: .sym _ :: _) => some (.arity (.mark "splice-unquote"))
  | _ => none

section Frame

variable {s : Store} {env : FrameId} {args : List (String × Value)} {outside : String → Option Value}

theorem contribution_eq_filled (own : ∀ name, s.local? env name = args.lookup name)
    (chain : ∀ name, s.lookup? env name = (args.lookup name).or (outside name)) (v : Value) :
    contribution s env v = filled args outside v := by
  fun_induction filled args outside v with
  | case1 name a given =>
      rw [contribution, chain, given]
      rfl
  | case2 name free =>
      rw [contribution, chain, free]
      rfl
  | case3 name items given => rw [contribution, own, given]
  | case4 name other =>
      rw [contribution, own]
      split
      · next items given => exact absurd given (other items)
      · rfl
  | case5 items notUnquote notSplice ih =>
      rw [contribution]
      · exact congrArg (fun parts => [Value.list parts]) (List.flatMap_congr ih)
      · exact notUnquote
      · exact notSplice
  | case6 v notUnquote notSplice leaf =>
      rw [contribution]
      · exact notUnquote
      · exact notSplice
      · exact leaf

theorem copy_eq_substitute (own : ∀ name, s.local? env name = args.lookup name)
    (chain : ∀ name, s.lookup? env name = (args.lookup name).or (outside name)) (v : Value) :
    copy s env v = substitute args outside v := by
  have parts := contribution_eq_filled own chain
  fun_cases substitute args outside v with
  | case1 name a given =>
      rw [copy, chain, given]
      rfl
  | case2 name free =>
      rw [copy, chain, free]
      rfl
  | case3 name => rw [copy, parts]
  | case4 items notUnquote notSplice =>
      rw [copy]
      · exact congrArg Value.list (List.flatMap_congr fun x _ => parts x)
      · exact notUnquote
      · exact notSplice
  | case5 v notUnquote notSplice leaf =>
      rw [copy]
      · exact notUnquote
      · exact notSplice
      · exact leaf

theorem fault?_eq_misfit? {params : List String} (own : ∀ name, s.local? env name = none ↔ name ∉ params)
    (v : Value) : fault? s env v = misfit? params v := by
  fun_cases misfit? params v with
  | case1 name => rw [fault?]
  | case2 name known =>
      have bound : s.local? env name ≠ none := fun free => (own name).1 free known
      obtain ⟨v, here⟩ := Option.ne_none_iff_exists'.1 bound
      rw [fault?, here]
  | case3 name stray => rw [fault?, (own name).2 stray]
  | case4 name rest more =>
      rw [fault?]
      exact more
  | case5 name rest more =>
      rw [fault?]
      exact more
  | case6 v notUnquote notSplice noMoreUnquote noMoreSplice =>
      rw [fault?]
      · exact notUnquote
      · exact notSplice
      · exact noMoreUnquote
      · exact noMoreSplice

end Frame

/-- Something stands behind a mark and a name. -/
def Excess (v : Value) : Prop :=
  ∃ (mark : Mark) (name : String) (extra : Value) (rest : List Value),
    v = .list (.sym mark.name :: .sym name :: extra :: rest)

/-- Without excess all that can be wrong is a spliced name that is no parameter. -/
theorem exists_stray_of_misfit? {params : List String} {v : Value} {e : Error} (plain : ¬ Excess v) :
    misfit? params v = some e →
      ∃ name, name ∉ params ∧ v = .list [.sym "splice-unquote", .sym name] ∧ e = .unbound name := by
  have excess (mark : Mark) (name : String) (rest : List Value) (more : rest ≠ []) :
      Excess (.list (.sym mark.name :: .sym name :: rest)) := by
    obtain ⟨extra, others, rfl⟩ := List.exists_cons_of_ne_nil more
    exact ⟨mark, name, extra, others, rfl⟩
  fun_cases misfit? params v with
  | case1 name => nofun
  | case2 name known => nofun
  | case3 name stray =>
      intro wrong
      cases wrong
      exact ⟨name, stray, rfl, rfl⟩
  | case4 name rest more => exact absurd (excess .unquote name rest more) plain
  | case5 name rest more => exact absurd (excess .splice name rest more) plain
  | case6 => nofun

end Template

open Template

/-! The frame of a call -/

theorem setBinding_of_fresh {name : String} {bindings : List (String × Value)}
    (fresh : name ∉ bindings.map Prod.fst) (v : Value) :
    setBinding name v bindings = bindings ++ [(name, v)] := by
  induction bindings with
  | nil => rfl
  | cons b rest ih =>
      obtain ⟨n, u⟩ := b
      simp only [List.map_cons, List.mem_cons, not_or] at fresh
      rw [setBinding, if_neg (Ne.symm fresh.1), ih fresh.2]
      rfl

theorem bindNames_syms {params : List String} (distinct : params.Nodup) {args : List Value}
    {bound : List (String × Value)} (fresh : ∀ name ∈ params, name ∉ bound.map Prod.fst) :
    bindNames bound (params.map .sym) args = .ok (bound ++ params.zip args) := by
  induction params generalizing args bound with
  | nil => simp [bindNames]
  | cons p ps ih =>
      obtain ⟨absent, distinct⟩ := List.nodup_cons.1 distinct
      cases args with
      | nil => simp [bindNames]
      | cons a as =>
          have new := setBinding_of_fresh (fresh p List.mem_cons_self) a
          have others : ∀ name ∈ ps, name ∉ (bound ++ [(p, a)]).map Prod.fst := by
            intro name member
            have old := fresh name (List.mem_cons_of_mem p member)
            have differs : name ≠ p := by
              rintro rfl
              exact absent member
            simp [differs, old]
          rw [List.map_cons, bindNames, Value.expectSymbol]
          simp only [new, ih distinct others]
          simp

/-- A call of a macro whose parameters are distinct names and whose body is a template, with as many arguments
as there are parameters. -/
structure TemplateCall (s : Store) (env : FrameId) where
  name : String
  params : List String
  template : Value
  captured : Option FrameId
  args : List Value
  bound : s.lookup? env name = some (.proc .macroProc (.list (params.map .sym))
    (.list [.sym "quasiquote", template]) captured)
  distinct : params.Nodup
  fits : args.length = params.length
  present : captured.getD env < s.size

namespace TemplateCall

variable {s : Store} {env : FrameId} (c : TemplateCall s env)

def form : Value := .list (.sym c.name :: c.args)

/-- The frame that the macro was made in, or the frame of the call when it captured none. -/
def home : FrameId := c.captured.getD env

def bindings : List (String × Value) := c.params.zip c.args

/-- The frames when the arguments are bound. -/
def opened : Store := s.push ⟨c.bindings, .child c.home⟩

/-- The template with the arguments in the place of the parameters. -/
def expansion : Value := substitute c.bindings (s.lookup? c.home) c.template

/-- What is wrong with the template, in the order in which it is written. -/
def misfits : List Error := (visited c.template).filterMap (misfit? c.params)

theorem bindParams_eq : bindParams (.list (c.params.map .sym)) c.args = .ok c.bindings := by
  rw [bindParams, Value.expectList]
  simp only [List.length_map, c.fits, if_true]
  rw [bindNames_syms c.distinct (by simp)]
  rfl

theorem lookup_bindings_eq_none_iff (name : String) : c.bindings.lookup name = none ↔ name ∉ c.params := by
  have names : c.bindings.map Prod.fst = c.params := List.map_fst_zip (Nat.le_of_eq c.fits.symm)
  rw [List.lookup_eq_none_iff, ← names]
  simp only [bne_iff_ne, List.mem_map, not_exists, not_and]
  exact forall₂_congr fun p _ => ne_comm

theorem expand_opened (linked : s.Linked) :
    expand c.opened s.size c.template = reportLast c.misfits c.expansion := by
  have own (name : String) : c.opened.local? s.size name = c.bindings.lookup name := Store.local?_child name
  have chain (name : String) : c.opened.lookup? s.size name =
      (c.bindings.lookup name).or (s.lookup? c.home name) := Store.lookup?_child linked c.present name
  have faulty : fault? c.opened s.size = misfit? c.params := by
    funext v
    apply fault?_eq_misfit?
    intro name
    rw [own, c.lookup_bindings_eq_none_iff]
  rw [expand_eq, copy_eq_substitute own chain, faults, faulty]
  rfl

end TemplateCall

/-- Nothing but the body of the macro is evaluated, and that is the template. -/
theorem TemplateCall.expandOnce_form {w : World} {env : FrameId} (linked : w.store.Linked)
    (c : TemplateCall w.store env) (sub : Evaluator) (steps : Nat) :
    expandOnce (evalStep sub steps) c.form env w = (do
      let expansion ← Eval.lift (reportLast c.misfits c.expansion)
      let before ← Eval.lift c.form.print
      let after ← Eval.lift expansion.print
      Eval.record .expander s!"expanded {before} -> {after}"
      return expansion : Eval Value) { w with store := c.opened } := by
  have call : Macro.ofForm? w.store env c.form = some ⟨.list (c.params.map .sym),
      .list [.sym "quasiquote", c.template], c.captured⟩ := by
    change (w.store.lookup? env c.name).bind Macro.ofValue? = _
    rw [c.bound]
    rfl
  have entered : enter (.list (c.params.map .sym)) c.args (c.captured.getD env) w =
      (.ok w.store.size, { w with store := c.opened }) := by
    rw [enter, c.bindParams_eq]
    rfl
  rw [expandOnce, Eval.bind_of_ok (show Eval.store w = (.ok w.store, w) from rfl)]
  simp only [call]
  rw [expandCall, Eval.bind_of_ok (show enter _ (operands c.form) _ w = _ from entered)]
  -- The body is a `quasiquote` form, and evaluating that is expanding its operand in the new frame.
  rw [← c.expand_opened linked]
  rfl

/-- A call of a template macro stands for the template with the arguments in the place of the parameters.
It makes the frame of the call and a log record, and nothing else; it fails with the last fault that is
written in the template, which is an unbound name where all marks have one name each and a name is spliced that
is no parameter. No argument is evaluated: whatever evaluates subforms, the outcome is the same. -/
theorem template_macro_substitutes {w : World} {env : FrameId} (linked : w.store.Linked)
    (c : TemplateCall w.store env) (fuel : Nat) :
    (c.misfits = [] → c.form.printable = true → c.expansion.printable = true →
      expandOnce (eval (fuel + 1)) c.form env w = (.ok c.expansion,
        { w with
          store := c.opened
          log := w.log.push ⟨.expander, s!"expanded {c.form.text} -> {c.expansion.text}"⟩ })) ∧
    (∀ e, c.misfits.getLast? = some e →
      expandOnce (eval (fuel + 1)) c.form env w = (.error (.failed e), { w with store := c.opened })) ∧
    ((∃ name, name ∉ c.params ∧ .list [.sym "splice-unquote", .sym name] ∈ visited c.template) →
      (∀ x ∈ visited c.template, ¬ Excess x) →
      ∃ name, name ∉ c.params ∧ .list [.sym "splice-unquote", .sym name] ∈ visited c.template ∧
        expandOnce (eval (fuel + 1)) c.form env w =
          (.error (.failed (.unbound name)), { w with store := c.opened })) ∧
    (∀ sub steps, expandOnce (evalStep sub steps) c.form env w = expandOnce (eval (fuel + 1)) c.form env w) ∧
    Store.Keeps w.store c.opened := by
  have run : expandOnce (eval (fuel + 1)) c.form env w = _ := c.expandOnce_form linked (eval fuel) fuel
  have failing (e : Error) (last : c.misfits.getLast? = some e) :
      expandOnce (eval (fuel + 1)) c.form env w = (.error (.failed e), { w with store := c.opened }) := by
    have wrong : reportLast c.misfits c.expansion = .error e := reportLast_eq_error_iff.2 last
    rw [run, wrong]
    rfl
  have anyhow (sub : Evaluator) (steps : Nat) :
      expandOnce (evalStep sub steps) c.form env w = expandOnce (eval (fuel + 1)) c.form env w :=
    (c.expandOnce_form linked sub steps).trans run.symm
  refine ⟨?_, failing, ?_, anyhow, Store.keeps_push _ _⟩
  · intro fine before after
    have right : reportLast c.misfits c.expansion = .ok c.expansion := reportLast_eq_ok_iff.2 ⟨fine, rfl⟩
    rw [run, right, Value.print, if_pos before]
    change (Eval.lift c.expansion.print >>= _) _ = _
    rw [Value.print, if_pos after]
    rfl
  · rintro ⟨name, stray, member⟩ plain
    have wrong : misfit? c.params (.list [.sym "splice-unquote", .sym name]) = some (.unbound name) :=
      if_neg stray
    have some : c.misfits ≠ [] := List.ne_nil_of_mem (List.mem_filterMap.2 ⟨_, member, wrong⟩)
    obtain ⟨e, last⟩ : ∃ e, c.misfits.getLast? = .some e := ⟨_, List.getLast?_eq_some_getLast some⟩
    obtain ⟨x, visits, misfit⟩ := List.mem_filterMap.1 (List.mem_of_getLast? last)
    obtain ⟨other, foreign, rfl, rfl⟩ := exists_stray_of_misfit? (plain x visits) misfit
    exact ⟨other, foreign, visits, failing _ last⟩

def weaveTemplate : Value :=
  .list [.sym "list", .list [.sym "unquote", .sym "x"],
    .list [.list [.sym "splice-unquote", .sym "xs"], .list [.sym "unquote", .sym "y"]],
    .list [.sym "unquote", .sym "z"]]

def strayTemplate : Value :=
  .list [.list [.sym "splice-unquote", .sym "y"], .list [.sym "unquote", .sym "x"]]

/-- The root frame binds `x`, `y` and two macros: `weave`, which has `x` for a parameter, and `stray`, which
splices a name that is none. -/
def weaveStore : Store :=
  ⟨#[⟨[("x", .int 5), ("y", .int 6),
      ("weave", .proc .macroProc (.list [.sym "x", .sym "xs"])
        (.list [.sym "quasiquote", weaveTemplate]) none),
      ("stray", .proc .macroProc (.list [.sym "x"])
        (.list [.sym "quasiquote", strayTemplate]) (some 0))],
    .root {}⟩]⟩

def weaveWorld : World := ⟨weaveStore, ⟨[], "", .stopped⟩, #[]⟩

/-- `(weave (unquote xs) ((splice-unquote x) (weave 1 2)))` -/
def weaveCall : TemplateCall weaveStore 0 where
  name := "weave"
  params := ["x", "xs"]
  template := weaveTemplate
  captured := none
  args := [.list [.sym "unquote", .sym "xs"],
    .list [.list [.sym "splice-unquote", .sym "x"], .list [.sym "weave", .int 1, .int 2]]]
  bound := rfl
  distinct := by decide
  fits := rfl
  present := by decide

def strayCall : TemplateCall weaveStore 0 where
  name := "stray"
  params := ["x"]
  template := strayTemplate
  captured := some 0
  args := [.int 1]
  bound := rfl
  distinct := by decide
  fits := rfl
  present := by decide

/-- The arguments hold marks, names of parameters and a call of the macro, and come through as they are. -/
theorem weaveCall_substitutes :
    weaveStore.Linked ∧
    weaveCall.expansion = .list [.sym "list", .list [.sym "unquote", .sym "xs"],
      .list [.list [.sym "splice-unquote", .sym "x"], .list [.sym "weave", .int 1, .int 2], .int 6],
      .list [.sym "unquote", .sym "z"]] ∧
    (expandOnce (eval 1) weaveCall.form 0 weaveWorld).1 = .ok weaveCall.expansion ∧
    (expandOnce (eval 1) strayCall.form 0 weaveWorld).1 = .error (.failed (.unbound "y")) := by
  have linked : weaveWorld.store.Linked := Store.linked_root _ _
  have expansion : weaveCall.expansion = .list [.sym "list", .list [.sym "unquote", .sym "xs"],
      .list [.list [.sym "splice-unquote", .sym "x"], .list [.sym "weave", .int 1, .int 2], .int 6],
      .list [.sym "unquote", .sym "z"]] := by
    have outside : weaveStore.lookup? 0 "y" = some (.int 6) ∧ weaveStore.lookup? 0 "z" = none := ⟨rfl, rfl⟩
    simp [TemplateCall.expansion, TemplateCall.bindings, TemplateCall.home, weaveCall, weaveTemplate,
      substitute, filled, List.lookup_cons, outside]
  have fine : weaveCall.misfits = [] := by
    simp [TemplateCall.misfits, weaveCall, weaveTemplate, visited, misfit?]
  have last : strayCall.misfits.getLast? = some (.unbound "y") := by
    simp [TemplateCall.misfits, strayCall, strayTemplate, visited, misfit?]
  have printable : weaveCall.expansion.printable = true := by
    rw [expansion]
    decide
  have weaves := (template_macro_substitutes linked weaveCall 0).1 fine (by decide) printable
  have strays := (template_macro_substitutes linked strayCall 0).2.1 _ last
  exact ⟨linked, expansion, congrArg Prod.fst weaves, congrArg Prod.fst strays⟩

end MiniLisp
