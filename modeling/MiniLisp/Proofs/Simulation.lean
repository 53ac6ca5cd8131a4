import MiniLisp.Proofs.Captures
import MiniLisp.Proofs.MacroFree

/-!
Two runs of one expression, side by side. A simulation says when the worlds of two runs count as the
same, each seen from the frame that its run works in. It has to answer for the few operations that
touch a world: reading names and settings, defining a name, opening a frame and coming back from one,
and the console. Every rule of the language is made of these, so by induction on fuel the evaluator
takes related worlds to related worlds, with one outcome for both runs.
-/

namespace MiniLisp

open Store (Keeps)
open Eval (Within within_bind within_lift within_record within_pure)

/-- The limit on macro expansions that is in force in a frame. -/
def World.limit (w : World) (env : FrameId) : Option Nat := (w.store.config env).maxExpansionDepth

/-- The second limit never stops where the first does not; where they differ, the first stops with an
error that is excused. -/
def RoomFor (excused : Error → Prop) (limit limit' : Option Nat) : Prop :=
  ∀ depth, exceeds limit depth = exceeds limit' depth ∨
    ∃ l, exceeds limit depth = some l ∧ ∀ form, excused (.expansionLimit form l)

/-- When two runs, the first in frame `e` and the second in `e'`, are at the same place. -/
structure Simulation where
  At : (e e' : FrameId) → (w w' : World) → Prop
  /-- Frames that values may hold. They have one number in both runs. -/
  seen : FrameId → Prop
  /-- Errors of the first run for which the second owes nothing. -/
  excused : Error → Prop
  lookup : ∀ {e e' w w'}, At e e' w w' → ∀ name, w.store.lookup? e name = w'.store.lookup? e' name
  own : ∀ {e e' w w'}, At e e' w w' → ∀ name, w.store.local? e name = w'.store.local? e' name
  known : ∀ {e e' w w'}, At e e' w w' → Template.KnownNames seen w.store e
  scoping : ∀ {e e' w w'}, At e e' w w' →
    (w.store.config e).scoping = (w'.store.config e').scoping
  lexical : ∀ {e e' w w'}, At e e' w w' → (w.store.config e).scoping = .lexical → e = e' ∧ seen e
  limit : ∀ {e e' w w'}, At e e' w w' → RoomFor excused (w.limit e) (w'.limit e')
  console : ∀ {e e' w w'}, At e e' w w' → w.console = w'.console
  setConsole : ∀ {e e' w w'}, At e e' w w' → ∀ c,
    At e e' { w with console := c } { w' with console := c }
  record : ∀ {e e' w w'}, At e e' w w' → ∀ r,
    At e e' { w with log := w.log.push r } { w' with log := w'.log.push r }
  define : ∀ {e e' w w'}, At e e' w w' → ∀ name v, v.CapturesOnly seen →
    At e e' { w with store := w.store.define e name v } { w' with store := w'.store.define e' name v }
  /-- A new frame inside the current ones. -/
  child : ∀ {e e' w w'}, At e e' w w' → ∀ bindings, (∀ b ∈ bindings, b.2.CapturesOnly seen) →
    At w.store.size w'.store.size { w with store := w.store.push ⟨bindings, .child e⟩ }
      { w' with store := w'.store.push ⟨bindings, .child e'⟩ }
  /-- A new frame inside one that a procedure has captured. -/
  captured : ∀ {e e' w w'}, At e e' w w' → ∀ o, seen o → ∀ bindings,
    (∀ b ∈ bindings, b.2.CapturesOnly seen) →
    At w.store.size w'.store.size { w with store := w.store.push ⟨bindings, .child o⟩ }
      { w' with store := w'.store.push ⟨bindings, .child o⟩ }
  /-- Back from other frames to the current ones, which nobody has changed meanwhile. -/
  back : ∀ {e e' c c' w w' v v'}, At e e' w w' → At c c' v v' → Keeps w.store v.store →
    Keeps w'.store v'.store → At e e' v v'

namespace Template

variable {s t : Store} {e e' : FrameId}

mutual

theorem element_congr (chain : ∀ name, s.lookup? e name = t.lookup? e' name)
    (own : ∀ name, s.local? e name = t.local? e' name) (v : Value) :
    element s e v = element t e' v := by
  cases v with
  | list items =>
      simp only [element, unquoted, spliced, chain, own, elements_congr chain own items]
  | _ => rfl

theorem elements_congr (chain : ∀ name, s.lookup? e name = t.lookup? e' name)
    (own : ∀ name, s.local? e name = t.local? e' name) (vs : List Value) :
    elements s e vs = elements t e' vs := by
  cases vs with
  | nil => rfl
  | cons v vs => simp only [elements, elements_congr chain own vs, element_congr chain own v]

end

/-- A template only asks for names, in the chain and in the frame itself. -/
theorem expand_congr (chain : ∀ name, s.lookup? e name = t.lookup? e' name)
    (own : ∀ name, s.local? e name = t.local? e' name) (template : Value) :
    expand s e template = expand t e' template := by
  cases template with
  | list items =>
      simp only [expand, unquoted, spliced, chain, own, elements_congr chain own items]
  | _ => rfl

end Template

namespace Simulation

variable {S : Simulation} {e e' : FrameId} {α β : Type}

/-- The frames that the value holds have one number in both runs. -/
abbrev Held (S : Simulation) (v : Value) : Prop := v.CapturesOnly S.seen

theorem hereditary_held (S : Simulation) : Value.Hereditary S.Held :=
  Value.hereditary_capturesOnly S.seen

/-- One outcome of two runs: the same value, for which `post` holds, the same failure, about values that
the two may hold, or no more fuel, in related worlds; or the first run has failed with an excuse. -/
inductive Same (S : Simulation) (e e' : FrameId) (post : α → Prop) :
    Except Stop α × World → Except Stop α × World → Prop where
  | value {a : α} {w w' : World} : post a → S.At e e' w w' → Same S e e' post (.ok a, w) (.ok a, w')
  | failed {error : Error} {w w' : World} : error.CapturesOnly S.seen → S.At e e' w w' →
      Same S e e' post (.error (.failed error), w) (.error (.failed error), w')
  | cut {w w' : World} : S.At e e' w w' →
      Same S e e' post (.error .outOfFuel, w) (.error .outOfFuel, w')
  | excused {error : Error} {w : World} {r : Except Stop α × World} : S.excused error →
      Same S e e' post (.error (.failed error), w) r

/-- From related worlds the two evaluations come to one outcome. -/
def Lockstep (S : Simulation) (e e' : FrameId) (x y : Eval α) (post : α → Prop) : Prop :=
  ∀ w w', S.At e e' w w' → S.Same e e' post (x w) (y w')

section Combinators

variable {post : α → Prop} {x y : Eval α}

theorem Same.imp {post' : α → Prop} {r r' : Except Stop α × World} (h : S.Same e e' post r r')
    (weaker : ∀ a, post a → post' a) : S.Same e e' post' r r' := by
  cases h with
  | value holds related => exact .value (weaker _ holds) related
  | failed held related => exact .failed held related
  | cut related => exact .cut related
  | excused fine => exact .excused fine

theorem Same.of_ok {a : α} {r r' : Except Stop α × World} (h : S.Same e e' post r r')
    (run : r.1 = .ok a) : post a := by
  cases h with
  | value holds _ =>
      cases run
      exact holds
  | failed => cases run
  | cut => cases run
  | excused => cases run

theorem Same.of_failed {error : Error} {r r' : Except Stop α × World} (h : S.Same e e' post r r')
    (run : r.1 = .error (.failed error)) (unexcused : ¬ S.excused error) :
    error.CapturesOnly S.seen := by
  cases h with
  | value => cases run
  | failed held _ =>
      cases run
      exact held
  | cut => cases run
  | excused fine =>
      cases run
      exact absurd fine unexcused

/-- Where the first run has no excuse, both have one outcome. -/
theorem Same.outcome {r r' : Except Stop α × World} (h : S.Same e e' post r r')
    (unexcused : ∀ error, r.1 = .error (.failed error) → ¬ S.excused error) :
    r.1 = r'.1 ∧ S.At e e' r.2 r'.2 := by
  cases h with
  | value _ related => exact ⟨rfl, related⟩
  | failed _ related => exact ⟨rfl, related⟩
  | cut related => exact ⟨rfl, related⟩
  | excused fine => exact absurd fine (unexcused _ rfl)

theorem lockstep_pure {a : α} (h : post a) : S.Lockstep e e' (pure a) (pure a) post :=
  fun _ _ start => .value h start

theorem lockstep_cut : S.Lockstep e e' (Eval.stop .outOfFuel) (Eval.stop .outOfFuel) post :=
  fun _ _ start => .cut start

theorem lockstep_fail {error : Error} (held : error.CapturesOnly S.seen) :
    S.Lockstep e e' (Eval.stop (.failed error)) (Eval.stop (.failed error)) post :=
  fun _ _ start => .failed held start

theorem lockstep_raise {cause : Error} (about : cause.About S.Held) :
    S.Lockstep e e' (Eval.raise cause) (Eval.raise cause) post :=
  lockstep_fail about.capturesOnly_reported

theorem lockstep_lift {r : Except Error α} (checks : Checks S.Held post r) :
    S.Lockstep e e' (Eval.lift r) (Eval.lift r) post := by
  cases checks with
  | ok holds => exact lockstep_pure holds
  | error about => exact lockstep_raise about

/-- A value is printed, as `text`, if it can be. -/
theorem lockstep_print (v : Value) (text : String) :
    S.Lockstep e e' (Eval.lift (if v.printable then .ok text else .error .integerText))
      (Eval.lift (if v.printable then .ok text else .error .integerText))
      fun _ => v.printable = true := by
  by_cases printable : v.printable = true
  · rw [if_pos printable]
    exact lockstep_pure printable
  · rw [if_neg printable]
    exact lockstep_fail Error.capturesOnly_integerText

theorem lockstep_bind {mid : α → Prop} {post : β → Prop} {f g : α → Eval β}
    (first : S.Lockstep e e' x y mid) (rest : ∀ a, mid a → S.Lockstep e e' (f a) (g a) post) :
    S.Lockstep e e' (x >>= f) (y >>= g) post := by
  intro w w' start
  have outcome := first w w' start
  change S.Same e e' post (Eval.bind x f w) (Eval.bind y g w')
  unfold Eval.bind
  generalize x w = r, y w' = r' at outcome
  cases outcome with
  | value holds related => exact rest _ holds _ _ related
  | failed held related => exact .failed held related
  | cut related => exact .cut related
  | excused fine => exact .excused fine

/-- Two evaluations that look at their stores first. -/
theorem lockstep_store_bind {post : β → Prop} {f g : Store → Eval β}
    (h : ∀ w w', S.At e e' w w' → S.Same e e' post (f w.store w) (g w'.store w')) :
    S.Lockstep e e' (Eval.store >>= f) (Eval.store >>= g) post := h

theorem lockstep_each {f g : Value → Eval Value} {post : Value → Prop} {items : List Value}
    (h : ∀ x ∈ items, S.Lockstep e e' (f x) (g x) post) :
    S.Lockstep e e' (Eval.each f items) (Eval.each g items) fun vs => ∀ v ∈ vs, post v := by
  induction items with
  | nil => exact lockstep_pure (by simp)
  | cons x items ih =>
      refine lockstep_bind (h x List.mem_cons_self) fun v first => ?_
      refine lockstep_bind (ih fun y member => h y (List.mem_cons_of_mem x member)) fun vs rest => ?_
      exact lockstep_pure (List.forall_mem_cons.2 ⟨first, rest⟩)

theorem lockstep_record (source : LogSource) (message : String) :
    S.Lockstep e e' (Eval.record source message) (Eval.record source message) fun _ => True :=
  fun _ _ start => .value trivial (S.record start _)

theorem lockstep_define (name : String) {v : Value} (held : S.Held v) :
    S.Lockstep e e' (Eval.define e name v) (Eval.define e' name v) fun _ => True :=
  fun _ _ start => .value trivial (S.define start name v held)

/-- An operation that only works on the console does the same to both. -/
theorem lockstep_console (act : Console → α × Console)
    (hx : ∀ w, x w = (.ok (act w.console).1, { w with console := (act w.console).2 })) :
    S.Lockstep e e' x x fun _ => True := by
  intro w w' start
  rw [hx w, hx w', ← S.console start]
  exact .value trivial (S.setConsole start _)

theorem lockstep_write (text : String) :
    S.Lockstep e e' (Eval.write text) (Eval.write text) fun _ => True :=
  lockstep_console (fun c => ((), { c with output := c.output ++ text })) fun _ => rfl

theorem lockstep_readClock : S.Lockstep e e' Eval.readClock Eval.readClock fun _ => True :=
  lockstep_console (fun c => (c.clock.read.1, { c with clock := c.clock.read.2 })) fun _ => rfl

theorem lockstep_readLine : S.Lockstep e e' Eval.readLine Eval.readLine fun _ => True :=
  lockstep_console (fun c =>
    (String.ofList (((c.input.takeWhile (· ≠ '\n')).reverse.dropWhile (· = '\r')).reverse),
      { c with input := (c.input.dropWhile (· ≠ '\n')).drop 1 })) fun _ => rfl

end Combinators

section Frames

variable {post : β → Prop} {f : FrameId → Eval β}

/-- An outcome in other frames, seen from the current ones. -/
theorem Same.back {c c' : FrameId} {w w' : World} {r r' : Except Stop β × World}
    (start : S.At e e' w w') (inner : S.Same c c' post r r') (kept : Keeps w.store r.2.store)
    (kept' : Keeps w'.store r'.2.store) : S.Same e e' post r r' := by
  cases inner with
  | value holds related => exact .value holds (S.back start related kept kept')
  | failed held related => exact .failed held (S.back start related kept kept')
  | cut related => exact .cut (S.back start related kept kept')
  | excused fine => exact .excused fine

theorem lockstep_newFrame_bind {frame frame' : Frame}
    (opened : ∀ {w w'}, S.At e e' w w' → S.At w.store.size w'.store.size
      { w with store := w.store.push frame } { w' with store := w'.store.push frame' })
    (inner : ∀ c c', S.Lockstep c c' (f c) (f c') post) (confined : ∀ c, Within (· = c) (f c)) :
    S.Lockstep e e' (Eval.newFrame frame >>= f) (Eval.newFrame frame' >>= f) post := by
  intro w w' start
  have outcome := inner _ _ _ _ (opened start)
  have kept := Store.keeps_of_effect_push (confined _ { w with store := w.store.push frame })
  have kept' := Store.keeps_of_effect_push (confined _ { w' with store := w'.store.push frame' })
  exact outcome.back start kept kept'

theorem lockstep_newChild_bind (inner : ∀ c c', S.Lockstep c c' (f c) (f c') post)
    (confined : ∀ c, Within (· = c) (f c)) :
    S.Lockstep e e' (Eval.newChild e >>= f) (Eval.newChild e' >>= f) post :=
  lockstep_newFrame_bind (fun start => S.child start [] (by simp)) inner confined

/-- A call opens its frame inside the captured frame, or else inside the caller's. -/
theorem lockstep_enter_bind {params : Value} {args : List Value} {captured : Option FrameId}
    (names : S.Held params) (held : ∀ x ∈ args, S.Held x)
    (holds : ∀ o, captured = some o → S.seen o)
    (inner : ∀ c c', S.Lockstep c c' (f c) (f c') post) (confined : ∀ c, Within (· = c) (f c)) :
    S.Lockstep e e' (enter params args (captured.getD e) >>= f)
      (enter params args (captured.getD e') >>= f) post := by
  unfold enter
  rw [Eval.bind_assoc, Eval.bind_assoc]
  refine lockstep_bind (lockstep_lift (checks_bindParams S.hereditary_held names held)) ?_
  intro bindings known
  refine lockstep_newFrame_bind (fun start => ?_) inner confined
  cases captured with
  | none => exact S.child start bindings known
  | some o => exact S.captured start o (holds o rfl) bindings known

end Frames

/-- An evaluator that writes to its own frame only, and for which two runs stay in step. -/
structure Follows (S : Simulation) (ev : Evaluator) : Prop where
  confined : ev.Confined
  run : ∀ form e e', S.Held form → S.Lockstep e e' (ev form e) (ev form e') S.Held

section Rules

variable {ev : Evaluator} {form : Value} {args : List Value}

/-! Console operations -/

theorem lockstep_operand (op : ConsoleOp) (held : ∀ x ∈ args, S.Held x) :
    S.Lockstep e e' (op.operand args) (op.operand args) S.Held := by
  unfold ConsoleOp.operand
  split
  · exact lockstep_pure (List.forall_mem_singleton.1 held)
  · exact lockstep_raise (.arity _)

theorem lockstep_printValue (h : S.Follows ev) (held : S.Held form) (ending : String) :
    S.Lockstep e e' (printValue ev form e ending) (printValue ev form e' ending) S.Held := by
  refine lockstep_bind (h.run form e e' held) fun v known => ?_
  refine lockstep_bind (lockstep_print _ _) fun text _ => ?_
  exact lockstep_bind (lockstep_write _) fun _ _ => lockstep_pure known

theorem lockstep_debugForm (h : S.Follows ev) (held : S.Held form) :
    S.Lockstep e e' (debugForm ev form e) (debugForm ev form e') S.Held := by
  refine lockstep_bind (h.run form e e' held) fun v known => ?_
  refine lockstep_bind (lockstep_print _ _) fun shown _ => ?_
  refine lockstep_bind (lockstep_print _ _) fun inspected _ => ?_
  refine lockstep_bind (lockstep_record _ _) fun _ _ => ?_
  refine lockstep_bind (lockstep_print _ _) fun text _ => ?_
  exact lockstep_bind (lockstep_write _) fun _ _ => lockstep_pure known

theorem lockstep_readLineForm (h : S.Follows ev) (held : ∀ x ∈ args, S.Held x) :
    S.Lockstep e e' (readLineForm ev e args) (readLineForm ev e' args) S.Held := by
  unfold readLineForm
  split
  · exact lockstep_bind lockstep_readLine fun _ _ => lockstep_pure (Value.capturesOnly_str _)
  · refine lockstep_bind (h.run _ e e' (List.forall_mem_singleton.1 held)) fun v known => ?_
    refine lockstep_bind (lockstep_lift (checks_expectString known)) fun prompt _ => ?_
    refine lockstep_bind (lockstep_write _) fun _ _ => ?_
    exact lockstep_bind lockstep_readLine fun _ _ => lockstep_pure (Value.capturesOnly_str _)
  · exact lockstep_raise (.arity _)

theorem lockstep_timeForm (h : S.Follows ev) (held : S.Held form) :
    S.Lockstep e e' (timeForm ev form e) (timeForm ev form e') S.Held := by
  refine lockstep_bind lockstep_readClock fun started _ => ?_
  refine lockstep_bind (h.run form e e' held) fun v known => ?_
  refine lockstep_bind lockstep_readClock fun ended _ => ?_
  refine lockstep_bind (lockstep_print _ _) fun shown _ => ?_
  exact lockstep_bind (lockstep_write _) fun _ _ => lockstep_pure known

theorem lockstep_consoleOp (h : S.Follows ev) (op : ConsoleOp)
    (held : ∀ x ∈ args, S.Held x) :
    S.Lockstep e e' (op.run ev args e) (op.run ev args e') S.Held := by
  cases op with
  | print =>
      exact lockstep_bind (lockstep_operand _ held) fun form known => lockstep_printValue h known _
  | printLine =>
      exact lockstep_bind (lockstep_operand _ held) fun form known => lockstep_printValue h known _
  | debug => exact lockstep_bind (lockstep_operand _ held) fun form known => lockstep_debugForm h known
  | readLine => exact lockstep_readLineForm h held
  | time => exact lockstep_bind (lockstep_operand _ held) fun form known => lockstep_timeForm h known

/-! Macro expansion -/

theorem ofForm?_of_at {w w' : World} (start : S.At e e' w w') (form : Value) :
    Macro.ofForm? w.store e form = Macro.ofForm? w'.store e' form := by
  unfold Macro.ofForm?
  split
  · rw [S.lookup start]
  · rfl

theorem capturesOnly_of_ofForm? {w w' : World} (start : S.At e e' w w') {m : Macro}
    (call : Macro.ofForm? w.store e form = some m) : S.Held m.toValue := by
  obtain ⟨name, args, rfl, found⟩ := Macro.exists_of_ofForm? call
  exact (S.known start).chain name _ found

/-- A call that expands could also be printed. -/
theorem lockstep_expandCall (h : S.Follows ev) {m : Macro} (macroHeld : S.Held m.toValue)
    (held : S.Held form) :
    S.Lockstep e e' (expandCall ev m form e) (expandCall ev m form e') fun v =>
      S.Held v ∧ form.printable = true := by
  obtain ⟨paramsHeld, bodyHeld, envHeld⟩ := Value.capturesOnly_proc.1 macroHeld
  have operandsHeld := forall_operands S.hereditary_held held
  refine lockstep_enter_bind paramsHeld operandsHeld envHeld (fun c c' => ?_) fun c => ?_
  · refine lockstep_bind (h.run m.body c c' bodyHeld) fun expansion known => ?_
    refine lockstep_bind (lockstep_print _ _) fun before printable => ?_
    refine lockstep_bind (lockstep_print _ _) fun after _ => ?_
    exact lockstep_bind (lockstep_record _ _) fun _ _ => lockstep_pure ⟨known, printable⟩
  · refine within_bind (h.confined m.body c) fun expansion => ?_
    refine within_bind (within_lift _) fun before => ?_
    refine within_bind (within_lift _) fun after => ?_
    exact within_bind (within_record _ _) fun _ => within_pure expansion

theorem lockstep_expandOnce (h : S.Follows ev) (held : S.Held form) :
    S.Lockstep e e' (expandOnce ev form e) (expandOnce ev form e') S.Held := by
  refine lockstep_store_bind fun w w' start => ?_
  rw [← ofForm?_of_at start]
  cases call : Macro.ofForm? w.store e form with
  | none => exact lockstep_pure held w w' start
  | some m =>
      have expanded := lockstep_expandCall h (capturesOnly_of_ofForm? start call) held w w' start
      exact expanded.imp fun v known => known.1

theorem lockstep_onBoundValues {f g : Value → Eval Value} {items : List Value}
    (h : ∀ x, S.Held x → S.Lockstep e e' (f x) (g x) S.Held)
    (held : ∀ x ∈ items, S.Held x) :
    S.Lockstep e e' (onBoundValues f items) (onBoundValues g items) fun vs =>
      ∀ v ∈ vs, S.Held v := by
  fun_induction onBoundValues f items with
  | case1 name v rest ih =>
      simp only [List.forall_mem_cons] at held
      refine lockstep_bind (h v held.2.1) fun v' known => ?_
      refine lockstep_bind (ih held.2.2) fun rest' others => ?_
      exact lockstep_pure (List.forall_mem_cons.2 ⟨held.1, List.forall_mem_cons.2 ⟨known, others⟩⟩)
  | case2 short other =>
      rw [onBoundValues]
      · exact lockstep_pure held
      · exact other

theorem lockstep_onCode {f g : Value → Eval Value} {items : List Value}
    (h : ∀ x, S.Held x → S.Lockstep e e' (f x) (g x) S.Held)
    (held : ∀ x ∈ items, S.Held x) :
    S.Lockstep e e' (onCode f items) (onCode g items) fun vs => ∀ v ∈ vs, S.Held v := by
  cases codeLayout items with
  | data positions acts =>
      rw [acts, acts]
      exact lockstep_pure held
  | procedure kind special =>
      simp only [List.forall_mem_cons] at held
      rw [onCode_procedure special, onCode_procedure special]
      refine lockstep_bind (lockstep_each fun x member => h x (held.2.2 x member)) fun body' code => ?_
      exact lockstep_pure (List.forall_mem_cons.2 ⟨held.1, List.forall_mem_cons.2 ⟨held.2.1, code⟩⟩)
  | letIn bindings body =>
      simp only [List.forall_mem_cons, Value.capturesOnly_list] at held
      rw [onCode_let, onCode_let]
      refine lockstep_bind (lockstep_onBoundValues h held.2.1) fun bindings' bound => ?_
      refine lockstep_bind (lockstep_each fun x member => h x (held.2.2 x member)) fun body' code => ?_
      refine lockstep_pure (List.forall_mem_cons.2 ⟨held.1, List.forall_mem_cons.2 ⟨?_, code⟩⟩)
      exact Value.capturesOnly_list.2 bound
  | plain positions acts other =>
      rw [acts, acts]
      exact lockstep_each fun x member => h x (held x member)

theorem reported_expansionLimit {first : Value} (printable : first.printable = true) (l : Nat) :
    (Error.expansionLimit first l).reported = .expansionLimit first l := by
  simp [Error.reported, Error.printable, printable]

/-- Two expansions under limits of their own. The form that would be reported as too deep has been
printed by then, so it is that error which is raised. -/
theorem lockstep_expandFrom (h : S.Follows ev) {limit limit' : Option Nat}
    (room : RoomFor S.excused limit limit') (fuel depth : Nat) {first form : Value}
    (shown : form = first ∨ first.printable = true) (firstHeld : S.Held first) (held : S.Held form) :
    S.Lockstep e e' (expandFrom ev limit e fuel depth first form)
      (expandFrom ev limit' e' fuel depth first form) S.Held := by
  induction fuel generalizing depth first form with
  | zero => exact lockstep_cut
  | succ fuel ih =>
      refine lockstep_store_bind fun w w' start => ?_
      rw [← ofForm?_of_at start]
      cases call : Macro.ofForm? w.store e form with
      | some m =>
          have macroHeld := capturesOnly_of_ofForm? start call
          refine lockstep_bind (lockstep_expandCall h macroHeld held) (fun expansion known => ?_) w w' start
          have printable : first.printable = true := by
            rcases shown with rfl | printable
            · exact known.2
            · exact printable
          rcases room (depth + 1) with same | ⟨l, stops, fine⟩
          · rw [← same]
            cases exceeds limit (depth + 1) with
            | some l => exact lockstep_raise (.expansionLimit l firstHeld)
            | none => exact ih (depth + 1) (.inr printable) firstHeld known.1
          · rw [stops]
            intro v v' _
            simp only [Eval.raise, reported_expansionLimit printable]
            exact .excused (fine first)
      | none =>
          cases form with
          | list items =>
              have inside := lockstep_onCode (fun x known => ih depth (.inl rfl) known known)
                (Value.capturesOnly_list.1 held)
              refine lockstep_bind inside (fun items' known => ?_) w w' start
              exact lockstep_pure (Value.capturesOnly_list.2 known)
          | _ => exact lockstep_pure held w w' start

theorem lockstep_expandAll (h : S.Follows ev) (fuel : Nat) (held : S.Held form) :
    S.Lockstep e e' (expandAll ev fuel form e) (expandAll ev fuel form e') S.Held :=
  lockstep_store_bind fun w w' start =>
    lockstep_expandFrom h (S.limit start) fuel 0 (.inl rfl) held held w w' start

/-! Special forms -/

theorem lockstep_evalDefine (h : S.Follows ev) (held : ∀ x ∈ args, S.Held x) :
    S.Lockstep e e' (evalDefine ev e args) (evalDefine ev e' args) S.Held := by
  unfold evalDefine
  split
  · simp only [List.forall_mem_cons] at held
    refine lockstep_bind (lockstep_lift (checks_expectSymbol held.1)) fun name _ => ?_
    refine lockstep_bind (h.run _ e e' held.2.1) fun v known => ?_
    exact lockstep_bind (lockstep_define name known) fun _ _ => lockstep_pure (Value.capturesOnly_sym name)
  · exact lockstep_raise (.arity _)

theorem lockstep_evalBranch (h : S.Follows ev) (held : ∀ x ∈ args, S.Held x) :
    S.Lockstep e e' (evalBranch ev e args) (evalBranch ev e' args) S.Held := by
  unfold evalBranch
  split
  · simp only [List.forall_mem_cons] at held
    refine lockstep_bind (h.run _ e e' held.1) fun v known => ?_
    refine lockstep_bind (lockstep_lift (checks_expectBool known)) fun b _ => ?_
    split
    · exact h.run _ e e' held.2.1
    · exact h.run _ e e' held.2.2.1
  · exact lockstep_raise (.arity _)

/-- Only a lexically scoped procedure keeps its frame, and that frame has one number in both runs. -/
theorem lockstep_evalProcedure (kind : ProcKind) (held : ∀ x ∈ args, S.Held x) :
    S.Lockstep e e' (evalProcedure kind e args) (evalProcedure kind e' args) S.Held := by
  unfold evalProcedure
  split
  · simp only [List.forall_mem_cons] at held
    refine lockstep_store_bind fun w w' start => ?_
    rw [← S.scoping start]
    cases scoping : (w.store.config e).scoping with
    | dynamic => exact .value (Value.capturesOnly_proc.2 ⟨held.1, held.2.1, by simp⟩) start
    | lexical =>
        obtain ⟨rfl, here⟩ := S.lexical start scoping
        exact .value (Value.capturesOnly_proc.2 ⟨held.1, held.2.1, by simpa using here⟩) start
  · exact lockstep_raise (.arity _)

theorem lockstep_bindPairs (h : S.Follows ev) {items : List Value}
    (held : ∀ x ∈ items, S.Held x) :
    S.Lockstep e e' (bindPairs ev e items) (bindPairs ev e' items) fun _ => True := by
  fun_induction bindPairs ev e items with
  | case1 target form rest ih =>
      simp only [List.forall_mem_cons] at held
      refine lockstep_bind (lockstep_lift (checks_expectSymbol held.1)) fun name _ => ?_
      refine lockstep_bind (h.run form e e' held.2.1) fun v known => ?_
      exact lockstep_bind (lockstep_define name known) fun _ _ => ih held.2.2
  | case2 short other =>
      rw [bindPairs]
      · exact lockstep_pure trivial
      · exact other

theorem lockstep_evalLet (h : S.Follows ev) (held : ∀ x ∈ args, S.Held x) :
    S.Lockstep e e' (evalLet ev e args) (evalLet ev e' args) S.Held := by
  unfold evalLet
  split
  · simp only [List.forall_mem_cons] at held
    refine lockstep_bind (lockstep_lift (checks_expectList S.hereditary_held held.1)) ?_
    intro pairs known
    split
    · refine lockstep_newChild_bind (fun c c' => ?_) fun c => ?_
      · exact lockstep_bind (lockstep_bindPairs h known) fun _ _ => h.run _ c c' held.2.1
      · exact within_bind (within_bindPairs h.confined c pairs) fun _ => h.confined _ c
    · exact lockstep_raise (.arity _)
  · exact lockstep_raise (.arity _)

theorem lockstep_evalLast (h : S.Follows ev) {rest : List Value} (held : S.Held form)
    (others : ∀ x ∈ rest, S.Held x) :
    S.Lockstep e e' (evalLast ev e form rest) (evalLast ev e' form rest) S.Held := by
  induction rest generalizing form with
  | nil => exact h.run form e e' held
  | cons next rest ih =>
      simp only [List.forall_mem_cons] at others
      exact lockstep_bind (h.run form e e' held) fun _ _ => ih others.1 others.2

theorem lockstep_evalSequence (h : S.Follows ev) (held : ∀ x ∈ args, S.Held x) :
    S.Lockstep e e' (evalSequence ev e args) (evalSequence ev e' args) S.Held := by
  unfold evalSequence
  split
  · exact lockstep_raise (.arity _)
  · simp only [List.forall_mem_cons] at held
    refine lockstep_newChild_bind (fun c c' => ?_) fun c => ?_
    · exact lockstep_evalLast h held.1 held.2
    · exact within_evalLast h.confined c _ _

theorem lockstep_dataOperand (name : String) (held : ∀ x ∈ args, S.Held x) :
    S.Lockstep e e' (dataOperand name args) (dataOperand name args) S.Held := by
  unfold dataOperand
  split
  · exact lockstep_pure (List.forall_mem_singleton.1 held)
  · exact lockstep_raise (.arity _)

theorem lockstep_evalForm (h : S.Follows ev) (fuel : Nat) (special : SpecialForm)
    (held : ∀ x ∈ args, S.Held x) :
    S.Lockstep e e' (evalForm ev fuel special args e) (evalForm ev fuel special args e') S.Held := by
  cases special with
  | define => exact lockstep_evalDefine h held
  | branch => exact lockstep_evalBranch h held
  | procedure kind => exact lockstep_evalProcedure kind held
  | letIn => exact lockstep_evalLet h held
  | sequence => exact lockstep_evalSequence h held
  | quote => exact lockstep_dataOperand _ held
  | quasiquote =>
      refine lockstep_bind (lockstep_dataOperand _ held) fun template known => ?_
      refine lockstep_store_bind fun w w' start => ?_
      rw [← Template.expand_congr (S.lookup start) (S.own start) template]
      have names := S.known start
      have checks := Template.checks_expand S.hereditary_held names.chain names.own known
      exact lockstep_lift checks w w' start
  | expandOnce =>
      exact lockstep_bind (lockstep_dataOperand _ held) fun form known => lockstep_expandOnce h known
  | expandAll =>
      exact lockstep_bind (lockstep_dataOperand _ held) fun form known => lockstep_expandAll h fuel known

/-! Application, and the evaluator -/

theorem lockstep_arguments (h : S.Follows ev) (held : ∀ x ∈ args, S.Held x) :
    S.Lockstep e e' (Eval.each (fun x => ev x e) args) (Eval.each (fun x => ev x e') args)
      fun vs => ∀ v ∈ vs, S.Held v :=
  lockstep_each fun x member => h.run x e e' (held x member)

theorem lockstep_apply (h : S.Follows ev) {f : Value} (fHeld : S.Held f)
    (held : ∀ x ∈ args, S.Held x) {form : List Value} (whole : S.Held (.list form)) :
    S.Lockstep e e' (apply ev f args e form) (apply ev f args e' form) S.Held := by
  unfold apply
  split
  · refine lockstep_bind (lockstep_arguments h held) fun vs known => ?_
    refine lockstep_lift ((checks_primitive S.hereditary_held _ known).imp fun v given => ?_)
    exact given Value.capturesOnly_int
  · exact lockstep_consoleOp h _ held
  · obtain ⟨paramsHeld, bodyHeld, envHeld⟩ := Value.capturesOnly_proc.1 fHeld
    refine lockstep_bind (lockstep_arguments h held) fun vs known => ?_
    refine lockstep_enter_bind paramsHeld known envHeld (fun c c' => ?_) fun c => h.confined _ c
    exact h.run _ c c' bodyHeld
  · exact lockstep_raise (.malformedList whole)

theorem lookup_of_at {w w' : World} (start : S.At e e' w w') (name : String) :
    w.store.lookup e name = w'.store.lookup e' name := by
  rw [Store.lookup, Store.lookup, S.lookup start]

theorem lockstep_evalStep (h : S.Follows ev) (fuel : Nat) (held : S.Held form) :
    S.Lockstep e e' (evalStep ev fuel form e) (evalStep ev fuel form e') S.Held := by
  unfold evalStep
  split
  · refine lockstep_store_bind fun w w' start => ?_
    rw [← lookup_of_at start]
    exact lockstep_lift (checks_lookup (S.known start).chain _) w w' start
  · exact lockstep_raise (.malformedList held)
  · obtain ⟨first, rest⟩ := List.forall_mem_cons.1 (Value.capturesOnly_list.1 held)
    split
    · exact lockstep_evalForm h fuel _ rest
    · exact lockstep_bind (h.run _ e e' first) fun f known => lockstep_apply h known rest held
  · exact lockstep_raise (.typeMismatch none held)
  · exact lockstep_pure held

end Rules

theorem follows_eval (S : Simulation) (fuel : Nat) : S.Follows (eval fuel) := by
  induction fuel with
  | zero => exact ⟨confined_eval 0, fun _ _ _ _ => lockstep_cut⟩
  | succ fuel ih => exact ⟨confined_eval (fuel + 1), fun _ _ _ held => lockstep_evalStep ih fuel held⟩

end Simulation

end MiniLisp
