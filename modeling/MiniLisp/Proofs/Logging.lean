import MiniLisp.Proofs.ExpansionLimit
import MiniLisp.Proofs.Failures
import MiniLisp.Proofs.Idempotence

/-!
What logging adds to a run. No rule reads the log, so runs that differ in their logs stay the same
otherwise. But a log message is built whether or not anybody reads it, and it prints the form that is
about to run, or a macro call and its expansion: there an integer that is too long makes a run fail that
would not fail without the log.
-/

namespace MiniLisp

/-- Outcomes that at most their logs tell apart. -/
structure SameOutcome (r r' : Except Stop Value × World) : Prop where
  result : r.1 = r'.1
  store : r.2.store = r'.2.store
  console : r.2.console = r'.2.console

/-- Worlds that at most their logs tell apart, seen from one frame. -/
structure SameButLog (e e' : FrameId) (w w' : World) : Prop where
  frame : e = e'
  store : w.store = w'.store
  console : w.console = w'.console

/-- Runs that start with different logs, as a simulation in which every frame may be held. -/
def logSimulation : Simulation where
  At := SameButLog
  seen _ := True
  excused _ := False
  lookup h name := by rw [h.frame, h.store]
  own h name := by rw [h.frame, h.store]
  known _ := ⟨fun _ _ _ _ _ => trivial, fun _ _ _ _ _ => trivial⟩
  scoping h := by rw [h.frame, h.store]
  lexical h _ := ⟨h.frame, trivial⟩
  limit h depth := .inl (by rw [World.limit, World.limit, h.frame, h.store])
  console h := h.console
  setConsole h c := { h with console := rfl }
  record h r := { h with }
  define h name v _ := { h with store := by rw [h.frame, h.store] }
  child h bindings _ :=
    { frame := by rw [h.store], store := by rw [h.frame, h.store], console := h.console }
  captured h o _ bindings _ := { frame := by rw [h.store], store := by rw [h.store], console := h.console }
  back h inner _ _ := { inner with frame := h.frame }

theorem SameOutcome.of_same {e e' : FrameId} {post : Value → Prop} {r r' : Except Stop Value × World}
    (h : logSimulation.Same e e' post r r') : SameOutcome r r' := by
  obtain ⟨result, related⟩ := h.outcome fun _ _ never => never
  exact ⟨result, related.store, related.console⟩

@[simp] theorem SameOutcome.refl (r : Except Stop Value × World) : SameOutcome r r := ⟨rfl, rfl, rfl⟩

theorem SameOutcome.trans {r₁ r₂ r₃ : Except Stop Value × World} (h : SameOutcome r₁ r₂)
    (h' : SameOutcome r₂ r₃) : SameOutcome r₁ r₃ :=
  ⟨h.result.trans h'.result, h.store.trans h'.store, h.console.trans h'.console⟩

/-- Expands a form and evaluates what that gives. -/
def expandThenEval (fuel : Nat) (env : FrameId) (form : Value) : Eval Value := do
  let expanded ← expandAll (eval fuel) fuel form env
  eval fuel expanded env

/-- Evaluates the body of a macro with its parameters bound to the operands of a call. -/
def expandByBody (ev : Evaluator) (m : Macro) (form : Value) (env : FrameId) : Eval Value := do
  let frame ← enter m.params (operands form) (m.env.getD env)
  ev m.body frame

/-- What was logged before makes no difference to an expansion or an evaluation. -/
theorem sameOutcome_expandThenEval (fuel : Nat) (env : FrameId) (form : Value) (w : World)
    (log : Array LogRecord) :
    SameOutcome (expandThenEval fuel env form { w with log := log }) (expandThenEval fuel env form w) := by
  have follows := Simulation.follows_eval logSimulation fuel
  have known : ∀ v : Value, logSimulation.Held v := fun _ _ _ => trivial
  have steps : logSimulation.Lockstep env env (expandThenEval fuel env form)
      (expandThenEval fuel env form) logSimulation.Held :=
    Simulation.lockstep_bind (Simulation.lockstep_expandAll follows fuel (known form)) fun v held =>
      follows.run v env env held
  exact .of_same (steps _ w ⟨rfl, rfl, rfl⟩)

theorem sameOutcome_logFailure (shown : String) (action : Eval Value) (w : World) :
    SameOutcome (logFailure shown action w) (action w) := by
  unfold logFailure
  split
  · next error w' run =>
      rw [run]
      split
      · exact ⟨rfl, rfl, rfl⟩
      · exact ⟨rfl, rfl, rfl⟩
  · exact ⟨rfl, rfl, rfl⟩

/-- A form that can be printed runs as it would without the log. -/
theorem sameOutcome_runForm (fuel : Nat) (env : FrameId) {form : Value}
    (printable : form.printable = true) (w : World) :
    SameOutcome (runForm fuel env form w) (expandThenEval fuel env form w) := by
  have run : runForm fuel env form w = logFailure form.text (expandThenEval fuel env form)
      { w with log := w.log.push ⟨.interpreter, s!"evaluating {form.text}"⟩ } := by
    rw [runForm, Value.print, if_pos printable]
    rfl
  rw [run]
  exact (sameOutcome_logFailure _ _ _).trans (sameOutcome_expandThenEval fuel env form w _)

/-- A form that cannot be printed does not run at all. -/
theorem runForm_of_long (fuel : Nat) (env : FrameId) {form : Value} (long : form.printable = false)
    (w : World) : runForm fuel env form w = (.error (.failed .integerText), w) := by
  rw [runForm, Value.print, if_neg (by simp [long])]
  rfl

theorem runSingle_ofValue (fuel : Nat) (env : FrameId) {form : Value} (notText : ∀ s, form ≠ .str s) :
    runSingle fuel env (.ofValue form) = runForm fuel env form := by
  cases form with
  | str s => exact absurd rfl (notText s)
  | _ => rfl

theorem expandCall_eq (ev : Evaluator) (m : Macro) (form : Value) (env : FrameId) :
    expandCall ev m form env = expandByBody ev m form env >>= fun expansion => do
      let before ← Eval.lift form.print
      let after ← Eval.lift expansion.print
      Eval.record .expander s!"expanded {before} -> {after}"
      return expansion := by
  rw [expandByBody, Eval.bind_assoc]
  rfl

/-- A macro call gives what the body gives exactly when the message about it can be printed. -/
theorem sameOutcome_expandCall_iff (ev : Evaluator) (m : Macro) (form : Value) (env : FrameId)
    (w : World) :
    SameOutcome (expandCall ev m form env w) (expandByBody ev m form env w) ↔
      ∀ v, (expandByBody ev m form env w).1 = .ok v → form.printable = true ∧ v.printable = true := by
  rw [expandCall_eq]
  rcases run : expandByBody ev m form env w with ⟨result, w'⟩
  cases result with
  | error stop =>
      rw [Eval.bind_of_error run]
      simp [SameOutcome.refl]
  | ok v =>
      rw [Eval.bind_of_ok run]
      simp only [Except.ok.injEq, forall_eq']
      -- Whichever text is missing, the call has failed where the body gave a value.
      cases before : form.printable with
      | false =>
          simp only [Value.print, before, Bool.false_eq_true, if_false, false_and, iff_false]
          intro same
          cases same.result
      | true =>
          cases after : v.printable with
          | false =>
              simp only [Value.print, before, after, Bool.false_eq_true, if_true, if_false, and_false,
                iff_false]
              intro same
              cases same.result
          | true =>
              simp only [Value.print, before, after, if_true, and_self, iff_true]
              exact ⟨rfl, rfl, rfl⟩

/-- Logging makes no difference to the run of a form exactly when the form can be printed, or the run
comes to that same failure by itself; and none to a macro call exactly when the call and its expansion can
be printed. -/
theorem logging_transparent_iff (fuel : Nat) (env : FrameId) (form : Value) (w : World) :
    ((∀ s, form ≠ .str s) →
      (SameOutcome (runSingle fuel env (.ofValue form) w) (expandThenEval fuel env form w) ↔
        form.printable = true ∨
          SameOutcome (.error (.failed .integerText), w) (expandThenEval fuel env form w))) ∧
    ∀ m, Macro.ofForm? w.store env form = some m →
      (SameOutcome (expandOnce (eval fuel) form env w) (expandByBody (eval fuel) m form env w) ↔
        ∀ v, (expandByBody (eval fuel) m form env w).1 = .ok v →
          form.printable = true ∧ v.printable = true) := by
  constructor
  · intro notText
    rw [runSingle_ofValue fuel env notText]
    by_cases printable : form.printable = true
    · exact ⟨fun _ => .inl printable, fun _ => sameOutcome_runForm fuel env printable w⟩
    · rw [runForm_of_long fuel env (Bool.eq_false_iff.2 printable)]
      simp [printable]
  · intro m call
    have once : expandOnce (eval fuel) form env w = expandCall (eval fuel) m form env w := by
      rw [expandOnce, Eval.bind_of_ok (show Eval.store w = _ from rfl), call]
    rw [once]
    exact sameOutcome_expandCall_iff (eval fuel) m form env w

/-- `(same 7)`, where `same` is a macro that stands for its operand. -/
theorem logging_transparent_same :
    let form := Value.list [.sym "same", .int 7]
    SameOutcome (runSingle 9 rootFrame (.ofValue form) aliasWorld)
      (expandThenEval 9 rootFrame form aliasWorld) ∧
    (expandThenEval 9 rootFrame form aliasWorld).1 = .ok (.int 7) ∧
    ∃ m, Macro.ofForm? aliasWorld.store rootFrame form = some m ∧
      SameOutcome (expandOnce (eval 9) form rootFrame aliasWorld)
        (expandByBody (eval 9) m form rootFrame aliasWorld) := by
  intro form
  have transparent := logging_transparent_iff 9 rootFrame form aliasWorld
  refine ⟨(transparent.1 nofun).2 (.inl rfl), rfl, ⟨.list [.sym "x"], .sym "x", none⟩, rfl, ?_⟩
  refine (transparent.2 _ rfl).2 fun v given => ?_
  cases given
  exact ⟨rfl, rfl⟩

/-- An integer of one digit too many is its own value, but its log message cannot be built. -/
theorem longInteger_not_transparent :
    let form := Value.int (10 ^ 4300)
    let w := World.start {} "" .stopped
    (expandThenEval 2 rootFrame form w).1 = .ok form ∧
    (runSingle 2 rootFrame (.ofValue form) w).1 = .error (.failed .integerText) ∧
    ¬ SameOutcome (runSingle 2 rootFrame (.ofValue form) w) (expandThenEval 2 rootFrame form w) := by
  intro form w
  have value : (expandThenEval 2 rootFrame form w).1 = .ok form := rfl
  have long : form.printable = false := Value.not_printable_power (by decide)
  have failed : (runSingle 2 rootFrame (.ofValue form) w).1 = .error (.failed .integerText) :=
    congrArg Prod.fst (runForm_of_long 2 rootFrame long w)
  refine ⟨value, failed, fun same => ?_⟩
  have result := same.result
  rw [value, failed] at result
  cases result

end MiniLisp
