import MiniLisp.Interpreter
import MiniLisp.Proofs.Hereditary
import MiniLisp.Proofs.MacroFree

/-!
What an evaluation keeps. An invariant says which values may be about, which errors may come up, and
what is known of the current frame; it has to answer for the few operations that make a value or a
frame. Every rule of the language is made of these, so by induction on fuel the evaluator keeps the
invariant, whether it gives a value, fails or is cut short. The rules are followed for two evaluators at
once, the first of which may give up where the second goes on; otherwise the two do the same.
-/

namespace MiniLisp

open Store (Keeps Binds)
open Eval (Within within_bind within_lift within_record within_pure)

namespace Store

variable {P Q : Value → Prop} {s : Store}

theorem Binds.imp (bound : s.Binds P) (weaker : ∀ v, P v → Q v) : s.Binds Q :=
  fun id f here b member => weaker b.2 (bound id f here b member)

theorem Binds.define (bound : s.Binds P) (id : FrameId) (name : String) {v : Value} (known : P v) :
    (s.define id name v).Binds P := by
  intro i f here
  obtain ⟨g, there, -, rfl | rfl⟩ := exists_of_get?_define here
  · exact bound i _ there
  · exact forall_setBinding known (bound i g there)

theorem Binds.push (bound : s.Binds P) {frame : Frame} (known : ∀ b ∈ frame.bindings, P b.2) :
    (s.push frame).Binds P := by
  intro i f here
  rw [get?_push_eq] at here
  by_cases new : i = s.size
  · rw [if_pos new] at here
    cases here
    exact known
  · rw [if_neg new] at here
    exact bound i f here

theorem size_le_of_keeps {t : Store} (keeps : Keeps s t) : s.size ≤ t.size := by
  by_contra smaller
  exact Nat.lt_irrefl _ (lt_size_of_keeps keeps (Nat.lt_of_not_le smaller))

end Store

/-- At the start only built-in procedures are bound. -/
theorem binds_start {P : Value → Prop} (native : ∀ p, P (.native p)) (config : Config) (input : String)
    (clock : Clock) : (World.start config input clock).store.Binds P := by
  intro id f here b member
  obtain ⟨bound, rfl⟩ := Array.getElem?_eq_some_iff.1 here
  obtain rfl : id = 0 := Nat.lt_one_iff.1 bound
  obtain ⟨p, -, rfl⟩ := List.mem_map.1 member
  exact native p

/-- What may be about during an evaluation. -/
structure Invariant where
  /-- Values that may be bound and passed on while there are so many frames. -/
  Held : Nat → Value → Prop
  /-- Errors that an evaluation may fail with. -/
  Fair : Error → Prop
  /-- What is known of the frame that an evaluation works in. -/
  Place : FrameId → Store → Prop
  hereditary : ∀ n, Value.Hereditary (Held n)
  mono : ∀ {n m v}, n ≤ m → Held n v → Held m v
  reports : ∀ {n cause}, Error.About (Held n) cause → Fair cause.reported
  unprinted : ∀ {n v}, Held n v → v.printable = false → Fair .integerText
  lexical : ∀ {e s}, Place e s → (s.config e).scoping = .lexical → ∀ kind {params body},
    Held s.size params → Held s.size body → Held s.size (.proc kind params body (some e))
  define : ∀ {e s}, Place e s → ∀ name v, Place e (s.define e name v)
  /-- A new frame inside the current one. -/
  child : ∀ {e s}, Place e s → ∀ bindings, Place s.size (s.push ⟨bindings, .child e⟩)
  /-- A new frame inside one that a procedure has captured. -/
  call : ∀ {e s kind params body o}, Place e s → Held s.size (.proc kind params body (some o)) →
    ∀ bindings, Place s.size (s.push ⟨bindings, .child o⟩)
  /-- Back to the current frame, which nobody has changed meanwhile. -/
  back : ∀ {e c s t}, Place e s → Place c t → Keeps s t → Place e t

namespace Invariant

variable {I : Invariant} {e : FrameId} {n : Nat} {α β : Type}

/-- A world in which the invariant holds, seen from frame `e`. -/
structure At (I : Invariant) (e : FrameId) (w : World) : Prop where
  bound : w.store.Binds (I.Held w.store.size)
  place : I.Place e w.store

/-- Outcomes of two evaluations, from a world with `n` frames: they are the same, with a value as `post`
says or a fair error, unless the first has given up. -/
inductive Ends (I : Invariant) (e : FrameId) (n : Nat) (post : Nat → α → Prop) :
    Except Stop α × World → Except Stop α × World → Prop where
  | value {a : α} {w : World} : n ≤ w.store.size → I.At e w → post w.store.size a →
      Ends I e n post (.ok a, w) (.ok a, w)
  | failed {error : Error} {w : World} : n ≤ w.store.size → I.At e w → I.Fair error →
      Ends I e n post (.error (.failed error), w) (.error (.failed error), w)
  | cut {w : World} {r : Except Stop α × World} : n ≤ w.store.size → I.At e w →
      Ends I e n post (.error .outOfFuel, w) r

/-- From a world with at least `n` frames in which the invariant holds, it holds again at the end. -/
def Tracks (I : Invariant) (e : FrameId) (n : Nat) (x y : Eval α) (post : Nat → α → Prop) : Prop :=
  ∀ w, n ≤ w.store.size → I.At e w → I.Ends e w.store.size post (x w) (y w)

/-- All values of a list may be about. -/
abbrev Each (I : Invariant) (n : Nat) (items : List Value) : Prop := ∀ x ∈ items, I.Held n x

theorem Each.mono {m : Nat} {items : List Value} (each : I.Each n items) (more : n ≤ m) :
    I.Each m items := fun x member => I.mono more (each x member)

/-- Integers of any size may be about. -/
def Integers (I : Invariant) : Prop := ∀ n i, I.Held n (.int i)

/-- What a rule gives: all but the integers of arithmetic may be about. -/
abbrev Given (I : Invariant) (n : Nat) (v : Value) : Prop := I.Integers → I.Held n v

theorem At.of_store_eq {w w' : World} (h : I.At e w) (same : w'.store = w.store) : I.At e w' := by
  constructor
  · rw [same]
    exact h.bound
  · rw [same]
    exact h.place

theorem At.define {w : World} (h : I.At e w) (name : String) {v : Value}
    (held : I.Held w.store.size v) : I.At e { w with store := w.store.define e name v } := by
  refine ⟨?_, I.define h.place name v⟩
  rw [Store.size_define]
  exact h.bound.define e name held

theorem At.push {w : World} {c : FrameId} {frame : Frame} (h : I.At e w)
    (held : ∀ b ∈ frame.bindings, I.Held w.store.size b.2) (place : I.Place c (w.store.push frame)) :
    I.At c { w with store := w.store.push frame } := by
  refine ⟨?_, place⟩
  refine (h.bound.push held).imp fun v known => ?_
  exact I.mono (by simp) known

namespace Ends

variable {post : Nat → α → Prop} {r r' : Except Stop α × World}

theorem holds (h : I.Ends e n post r r') : I.At e r.2 := by
  cases h <;> assumption

theorem of_ok {a : α} (h : I.Ends e n post r r') (run : r.1 = .ok a) : post r.2.store.size a := by
  cases h with
  | value _ _ known =>
      cases run
      exact known
  | failed => cases run
  | cut => cases run

theorem fair {error : Error} (h : I.Ends e n post r r') (run : r.1 = .error (.failed error)) :
    I.Fair error := by
  cases h with
  | value => cases run
  | failed _ _ known =>
      cases run
      exact known
  | cut => cases run

theorem agree (h : I.Ends e n post r r') (finished : r.1 ≠ .error .outOfFuel) : r' = r := by
  cases h with
  | value => rfl
  | failed => rfl
  | cut => exact absurd rfl finished

theorem imp {m : Nat} {post' : Nat → α → Prop} (h : I.Ends e n post r r') (more : m ≤ n)
    (weaker : ∀ k a, post k a → post' k a) : I.Ends e m post' r r' := by
  cases h with
  | value grown holds known => exact .value (Nat.le_trans more grown) holds (weaker _ _ known)
  | failed grown holds known => exact .failed (Nat.le_trans more grown) holds known
  | cut grown holds => exact .cut (Nat.le_trans more grown) holds

end Ends

section Combinators

variable {post : Nat → β → Prop} {f g : α → Eval β}

theorem Tracks.imp {x y : Eval β} {post' : Nat → β → Prop} (h : I.Tracks e n x y post)
    (weaker : ∀ k b, post k b → post' k b) : I.Tracks e n x y post' :=
  fun w enough start => (h w enough start).imp (Nat.le_refl _) weaker

theorem tracks_pure {b : β} (known : ∀ m, n ≤ m → post m b) :
    I.Tracks e n (pure b) (pure b) post :=
  fun _ enough start => .value (Nat.le_refl _) start (known _ enough)

theorem tracks_held {v : Value} (held : I.Held n v) : I.Tracks e n (pure v) (pure v) I.Held :=
  tracks_pure fun _ more => I.mono more held

theorem tracks_cut (y : Eval β) : I.Tracks e n (Eval.stop .outOfFuel) y post :=
  fun _ _ start => .cut (Nat.le_refl _) start

theorem tracks_raise {cause : Error} (about : cause.About (I.Held n)) :
    I.Tracks e n (Eval.raise cause) (Eval.raise cause) post :=
  fun _ _ start => .failed (Nat.le_refl _) start (I.reports about)

theorem tracks_bind {x y : Eval α} {mid : Nat → α → Prop} (first : I.Tracks e n x y mid)
    (rest : ∀ a m, n ≤ m → mid m a → I.Tracks e m (f a) (g a) post) :
    I.Tracks e n (x >>= f) (y >>= g) post := by
  intro w enough start
  have outcome := first w enough start
  change I.Ends e _ post (Eval.bind x f w) (Eval.bind y g w)
  unfold Eval.bind
  generalize x w = r, y w = r' at outcome
  cases outcome with
  | value grown holds known =>
      have finish := rest _ _ (Nat.le_trans enough grown) known _ (Nat.le_refl _) holds
      exact finish.imp grown fun _ _ => id
  | failed grown holds known => exact .failed grown holds known
  | cut grown holds => exact .cut grown holds

/-- Two evaluations that look at their store first. -/
theorem tracks_store_bind {f g : Store → Eval β}
    (h : ∀ w, n ≤ w.store.size → I.At e w → I.Ends e w.store.size post (f w.store w) (g w.store w)) :
    I.Tracks e n (Eval.store >>= f) (Eval.store >>= g) post := h

theorem tracks_lift {r : Except Error β} {given : β → Prop} (checks : Checks (I.Held n) given r)
    (known : ∀ m, n ≤ m → ∀ b, given b → post m b) :
    I.Tracks e n (Eval.lift r) (Eval.lift r) post := by
  cases checks with
  | ok holds => exact tracks_pure fun m more => known m more _ holds
  | error about => exact tracks_raise about

theorem tracks_lift_bind {r : Except Error α} {given : α → Prop}
    (checks : Checks (I.Held n) given r) (rest : ∀ a, given a → I.Tracks e n (f a) (g a) post) :
    I.Tracks e n (Eval.lift r >>= f) (Eval.lift r >>= g) post := by
  cases checks with
  | ok holds => exact rest _ holds
  | error about => exact fun _ _ start => .failed (Nat.le_refl _) start (I.reports about)

/-- A value is printed, as `text`, if it can be. -/
theorem tracks_print_bind {f g : String → Eval β} {v : Value} (held : I.Held n v) {text : String}
    (rest : I.Tracks e n (f text) (g text) post) :
    I.Tracks e n (Eval.lift (if v.printable then .ok text else .error .integerText) >>= f)
      (Eval.lift (if v.printable then .ok text else .error .integerText) >>= g) post := by
  by_cases printable : v.printable = true
  · rw [if_pos printable]
    exact rest
  · rw [if_neg printable]
    intro w enough start
    exact .failed (Nat.le_refl _) start (I.unprinted held (Bool.eq_false_iff.2 printable))

/-- An operation that leaves the store as it is. -/
theorem tracks_quiet_bind {x : Eval α} (quiet : ∀ w, ∃ a w', x w = (.ok a, w') ∧ w'.store = w.store)
    (rest : ∀ a, I.Tracks e n (f a) (g a) post) : I.Tracks e n (x >>= f) (x >>= g) post := by
  intro w enough start
  obtain ⟨a, w', run, same⟩ := quiet w
  rw [Eval.bind_of_ok run, Eval.bind_of_ok run, ← same]
  exact rest a w' (by rwa [same]) (start.of_store_eq same)

theorem tracks_record_bind {f g : Unit → Eval β} (source : LogSource) (message : String)
    (rest : I.Tracks e n (f ()) (g ()) post) :
    I.Tracks e n (Eval.record source message >>= f) (Eval.record source message >>= g) post :=
  tracks_quiet_bind (fun _ => ⟨(), _, rfl, rfl⟩) fun _ => rest

theorem tracks_write_bind {f g : Unit → Eval β} (text : String)
    (rest : I.Tracks e n (f ()) (g ()) post) :
    I.Tracks e n (Eval.write text >>= f) (Eval.write text >>= g) post :=
  tracks_quiet_bind (fun _ => ⟨(), _, rfl, rfl⟩) fun _ => rest

theorem tracks_define_bind {f g : Unit → Eval β} (name : String) {v : Value} (held : I.Held n v)
    (rest : I.Tracks e n (f ()) (g ()) post) :
    I.Tracks e n (Eval.define e name v >>= f) (Eval.define e name v >>= g) post := by
  intro w enough start
  have defined := start.define name (I.mono enough held)
  have finish := rest _ (by simpa using enough) defined
  rw [Store.size_define] at finish
  exact finish

theorem tracks_each {f g : Value → Eval Value} {items : List Value}
    (h : ∀ x m, n ≤ m → I.Held m x → I.Tracks e m (f x) (g x) I.Held) (held : I.Each n items) :
    I.Tracks e n (Eval.each f items) (Eval.each g items) I.Each := by
  induction items generalizing n with
  | nil => exact tracks_pure fun _ _ => List.forall_mem_nil _
  | cons x items ih =>
      rw [Each, List.forall_mem_cons] at held
      refine tracks_bind (h x n (Nat.le_refl n) held.1) fun v m more known => ?_
      have others := ih (fun y k enough => h y k (Nat.le_trans more enough)) (Each.mono held.2 more)
      refine tracks_bind others fun vs k further rest => ?_
      exact tracks_pure fun l enough =>
        Each.mono (List.forall_mem_cons.2 ⟨I.mono further known, rest⟩) enough

end Combinators

section Frames

variable {post : Nat → β → Prop} {f g : FrameId → Eval β}

/-- An outcome in another frame, seen from the current one. -/
theorem Ends.back {c : FrameId} {m : Nat} {w : World} {r r' : Except Stop β × World}
    (start : I.At e w) (inner : I.Ends c m post r r') (kept : Keeps w.store r.2.store) :
    I.Ends e w.store.size post r r' := by
  have grown := Store.size_le_of_keeps kept
  cases inner with
  | value _ holds known => exact .value grown ⟨holds.bound, I.back start.place holds.place kept⟩ known
  | failed _ holds known => exact .failed grown ⟨holds.bound, I.back start.place holds.place kept⟩ known
  | cut _ holds => exact .cut grown ⟨holds.bound, I.back start.place holds.place kept⟩

theorem tracks_newFrame_bind {frame : Frame} (held : ∀ b ∈ frame.bindings, I.Held n b.2)
    (opened : ∀ {s}, n ≤ s.size → I.Place e s → I.Place s.size (s.push frame))
    (inner : ∀ c m, n ≤ m → I.Tracks c m (f c) (g c) post) (confined : ∀ c, Within (· = c) (f c)) :
    I.Tracks e n (Eval.newFrame frame >>= f) (Eval.newFrame frame >>= g) post := by
  intro w enough start
  have inside := start.push (fun b member => I.mono enough (held b member)) (opened enough start.place)
  have larger : n ≤ (w.store.push frame).size := by
    rw [Store.size_push]
    exact Nat.le_succ_of_le enough
  have outcome := inner _ _ larger _ (Nat.le_refl _) inside
  -- The body writes to the new frame only, so the current one is still as it was.
  have kept := Store.keeps_of_effect_push (confined _ { w with store := w.store.push frame })
  exact outcome.back start kept

theorem tracks_newChild_bind (inner : ∀ c m, n ≤ m → I.Tracks c m (f c) (g c) post)
    (confined : ∀ c, Within (· = c) (f c)) :
    I.Tracks e n (Eval.newChild e >>= f) (Eval.newChild e >>= g) post :=
  tracks_newFrame_bind (by simp) (fun _ place => I.child place []) inner confined

/-- A call opens its frame inside the captured frame, or else inside the caller's. -/
theorem tracks_enter_bind {kind : ProcKind} {params body : Value} {captured : Option FrameId}
    {args : List Value} (procedure : I.Held n (.proc kind params body captured))
    (held : I.Each n args) (inner : ∀ c m, n ≤ m → I.Tracks c m (f c) (g c) post)
    (confined : ∀ c, Within (· = c) (f c)) :
    I.Tracks e n (enter params args (captured.getD e) >>= f) (enter params args (captured.getD e) >>= g)
      post := by
  unfold enter
  rw [Eval.bind_assoc, Eval.bind_assoc]
  have names := ((I.hereditary n).parts procedure).1
  refine tracks_lift_bind (checks_bindParams (I.hereditary n) names held) fun bindings known => ?_
  refine tracks_newFrame_bind known (fun enough place => ?_) inner confined
  cases captured with
  | none => exact I.child place bindings
  | some o => exact I.call place (I.mono enough procedure) bindings

end Frames

/-- Two evaluators that keep the invariant together. The first writes to its own frame only. -/
structure Follows (I : Invariant) (ev ev' : Evaluator) : Prop where
  confined : ev.Confined
  run : ∀ {n form}, I.Held n form → ∀ e, I.Tracks e n (ev form e) (ev' form e) I.Held

section Rules

variable {ev ev' : Evaluator} {form : Value} {args : List Value}

/-! Console operations -/

theorem tracks_operand (op : ConsoleOp) (held : I.Each n args) :
    I.Tracks e n (op.operand args) (op.operand args) I.Held := by
  unfold ConsoleOp.operand
  split
  · exact tracks_held (List.forall_mem_singleton.1 held)
  · exact tracks_raise (.arity _)

theorem tracks_printValue (h : I.Follows ev ev') (held : I.Held n form) (ending : String) :
    I.Tracks e n (printValue ev form e ending) (printValue ev' form e ending) I.Held := by
  refine tracks_bind (h.run held e) fun v m _ known => ?_
  refine tracks_print_bind known ?_
  exact tracks_write_bind _ (tracks_held known)

theorem tracks_debugForm (h : I.Follows ev ev') (held : I.Held n form) :
    I.Tracks e n (debugForm ev form e) (debugForm ev' form e) I.Held := by
  refine tracks_bind (h.run held e) fun v m more known => ?_
  refine tracks_print_bind (I.mono more held) ?_
  refine tracks_print_bind known ?_
  refine tracks_record_bind _ _ ?_
  refine tracks_print_bind known ?_
  exact tracks_write_bind _ (tracks_held known)

theorem tracks_readLine : I.Tracks e n (do return .str (← Eval.readLine))
    (do return .str (← Eval.readLine)) I.Held :=
  tracks_quiet_bind (fun _ => ⟨_, _, rfl, rfl⟩) fun line => tracks_held ((I.hereditary n).str line)

theorem tracks_readLineForm (h : I.Follows ev ev') (held : I.Each n args) :
    I.Tracks e n (readLineForm ev e args) (readLineForm ev' e args) I.Held := by
  unfold readLineForm
  split
  · exact tracks_readLine
  · refine tracks_bind (h.run (List.forall_mem_singleton.1 held) e) fun v m _ known => ?_
    refine tracks_lift_bind (checks_expectString known) fun prompt _ => ?_
    exact tracks_write_bind _ tracks_readLine
  · exact tracks_raise (.arity _)

theorem tracks_timeForm (h : I.Follows ev ev') (held : I.Held n form) :
    I.Tracks e n (timeForm ev form e) (timeForm ev' form e) I.Held := by
  refine tracks_quiet_bind (fun _ => ⟨_, _, rfl, rfl⟩) fun started => ?_
  refine tracks_bind (h.run held e) fun v m more known => ?_
  refine tracks_quiet_bind (fun _ => ⟨_, _, rfl, rfl⟩) fun ended => ?_
  refine tracks_print_bind (I.mono more held) ?_
  exact tracks_write_bind _ (tracks_held known)

theorem tracks_consoleOp (h : I.Follows ev ev') (op : ConsoleOp) (held : I.Each n args) :
    I.Tracks e n (op.run ev args e) (op.run ev' args e) I.Held := by
  cases op with
  | print => exact tracks_bind (tracks_operand _ held) fun form m _ known => tracks_printValue h known _
  | printLine =>
      exact tracks_bind (tracks_operand _ held) fun form m _ known => tracks_printValue h known _
  | debug => exact tracks_bind (tracks_operand _ held) fun form m _ known => tracks_debugForm h known
  | readLine => exact tracks_readLineForm h held
  | time => exact tracks_bind (tracks_operand _ held) fun form m _ known => tracks_timeForm h known

/-! Macro expansion -/

theorem held_of_ofForm? {w : World} (start : I.At e w) {m : Macro}
    (call : Macro.ofForm? w.store e form = some m) : I.Held w.store.size m.toValue := by
  obtain ⟨name, args, rfl, found⟩ := Macro.exists_of_ofForm? call
  exact start.bound.lookup? found

theorem tracks_expandCall (h : I.Follows ev ev') {m : Macro} (macroHeld : I.Held n m.toValue)
    (held : I.Held n form) :
    I.Tracks e n (expandCall ev m form e) (expandCall ev' m form e) I.Held := by
  have body := ((I.hereditary n).parts macroHeld).2
  have operandsHeld := forall_operands (I.hereditary n) held
  refine tracks_enter_bind macroHeld operandsHeld (fun c k more => ?_) fun c => ?_
  · refine tracks_bind (h.run (I.mono more body) c) fun expansion l further known => ?_
    refine tracks_print_bind (I.mono (Nat.le_trans more further) held) ?_
    refine tracks_print_bind known ?_
    exact tracks_record_bind _ _ (tracks_held known)
  · refine within_bind (h.confined m.body c) fun expansion => ?_
    refine within_bind (within_lift _) fun before => ?_
    refine within_bind (within_lift _) fun after => ?_
    exact within_bind (within_record _ _) fun _ => within_pure expansion

theorem tracks_expandOnce (h : I.Follows ev ev') (held : I.Held n form) :
    I.Tracks e n (expandOnce ev form e) (expandOnce ev' form e) I.Held := by
  refine tracks_store_bind fun w enough start => ?_
  have here := I.mono enough held
  cases call : Macro.ofForm? w.store e form with
  | none => exact tracks_held here w (Nat.le_refl _) start
  | some m => exact tracks_expandCall h (held_of_ofForm? start call) here w (Nat.le_refl _) start

theorem tracks_onBoundValues {f g : Value → Eval Value} {items : List Value}
    (h : ∀ x m, n ≤ m → I.Held m x → I.Tracks e m (f x) (g x) I.Held) (held : I.Each n items) :
    I.Tracks e n (onBoundValues f items) (onBoundValues g items) I.Each := by
  fun_induction onBoundValues f items generalizing n with
  | case1 name v rest ih =>
      simp only [Each, List.forall_mem_cons] at held
      refine tracks_bind (h v n (Nat.le_refl n) held.2.1) fun v' m more known => ?_
      have others := ih (fun y k enough => h y k (Nat.le_trans more enough)) (Each.mono held.2.2 more)
      refine tracks_bind others fun rest' k further bound => tracks_pure fun l enough => ?_
      refine Each.mono (List.forall_mem_cons.2 ⟨I.mono (Nat.le_trans more further) held.1, ?_⟩) enough
      exact List.forall_mem_cons.2 ⟨I.mono further known, bound⟩
  | case2 short other =>
      rw [onBoundValues]
      · exact tracks_pure fun _ more => Each.mono held more
      · exact other

theorem tracks_onCode {f g : Value → Eval Value} {items : List Value}
    (h : ∀ x m, n ≤ m → I.Held m x → I.Tracks e m (f x) (g x) I.Held) (held : I.Each n items) :
    I.Tracks e n (onCode f items) (onCode g items) I.Each := by
  cases codeLayout items with
  | data positions acts =>
      rw [acts, acts]
      exact tracks_pure fun _ more => Each.mono held more
  | procedure kind special =>
      simp only [Each, List.forall_mem_cons] at held
      rw [onCode_procedure special, onCode_procedure special]
      refine tracks_bind (tracks_each h held.2.2) fun body' m more code => tracks_pure fun k enough => ?_
      have front := Nat.le_trans more enough
      exact List.forall_mem_cons.2 ⟨I.mono front held.1,
        List.forall_mem_cons.2 ⟨I.mono front held.2.1, Each.mono code enough⟩⟩
  | letIn bindings body =>
      simp only [Each, List.forall_mem_cons] at held
      rw [onCode_let, onCode_let]
      have names := (I.hereditary n).list.1 held.2.1
      refine tracks_bind (tracks_onBoundValues h names) fun bindings' m more bound => ?_
      have inside := tracks_each (fun x k enough => h x k (Nat.le_trans more enough))
        (Each.mono held.2.2 more)
      refine tracks_bind inside fun body' k further code => tracks_pure fun l enough => ?_
      have list := (I.hereditary l).list.2 (Each.mono bound (Nat.le_trans further enough))
      exact List.forall_mem_cons.2 ⟨(I.hereditary l).sym _,
        List.forall_mem_cons.2 ⟨list, Each.mono code enough⟩⟩
  | plain positions acts other =>
      rw [acts, acts]
      exact tracks_each h held

theorem tracks_expandFrom (h : I.Follows ev ev') (limit : Option Nat) (fuel depth : Nat)
    {first form : Value} (known : I.Held n first) (held : I.Held n form) :
    I.Tracks e n (expandFrom ev limit e fuel depth first form)
      (expandFrom ev' limit e fuel depth first form) I.Held := by
  -- `first` is carried along for the error of the limit, which is about it.
  induction fuel generalizing depth first form n with
  | zero => exact tracks_cut _
  | succ fuel ih =>
      refine tracks_store_bind fun w enough start => ?_
      have here := I.mono enough held
      cases call : Macro.ofForm? w.store e form with
      | some m =>
          have macroHeld := held_of_ofForm? start call
          refine tracks_bind (tracks_expandCall h macroHeld here) (fun expansion k more result => ?_) w
            (Nat.le_refl _) start
          have still := I.mono (Nat.le_trans enough more) known
          cases exceeds limit (depth + 1) with
          | some l => exact tracks_raise (.expansionLimit l still)
          | none => exact ih (depth + 1) still result
      | none =>
          cases form with
          | list items =>
              have inside := tracks_onCode (fun x m _ code => ih depth code code)
                ((I.hereditary _).list.1 here)
              refine tracks_bind inside (fun items' m _ code => ?_) w (Nat.le_refl _) start
              exact tracks_held ((I.hereditary m).list.2 code)
          | _ => exact tracks_held here w (Nat.le_refl _) start

theorem tracks_expandAll (h : I.Follows ev ev') (fuel : Nat) (held : I.Held n form) :
    I.Tracks e n (expandAll ev fuel form e) (expandAll ev' fuel form e) I.Held :=
  tracks_store_bind fun w enough start => tracks_expandFrom h _ fuel 0 held held w enough start

/-! Special forms -/

theorem tracks_evalDefine (h : I.Follows ev ev') (held : I.Each n args) :
    I.Tracks e n (evalDefine ev e args) (evalDefine ev' e args) I.Held := by
  unfold evalDefine
  split
  · simp only [Each, List.forall_mem_cons] at held
    refine tracks_lift_bind (checks_expectSymbol held.1) fun name _ => ?_
    refine tracks_bind (h.run held.2.1 e) fun v m _ known => ?_
    exact tracks_define_bind name known (tracks_held ((I.hereditary m).sym name))
  · exact tracks_raise (.arity _)

theorem tracks_evalBranch (h : I.Follows ev ev') (held : I.Each n args) :
    I.Tracks e n (evalBranch ev e args) (evalBranch ev' e args) I.Held := by
  unfold evalBranch
  split
  · simp only [Each, List.forall_mem_cons] at held
    refine tracks_bind (h.run held.1 e) fun v m more known => ?_
    refine tracks_lift_bind (checks_expectBool known) fun b _ => ?_
    split
    · exact h.run (I.mono more held.2.1) e
    · exact h.run (I.mono more held.2.2.1) e
  · exact tracks_raise (.arity _)

/-- Only a lexically scoped procedure keeps the current frame. -/
theorem tracks_evalProcedure (kind : ProcKind) (held : I.Each n args) :
    I.Tracks e n (evalProcedure kind e args) (evalProcedure kind e args) I.Held := by
  unfold evalProcedure
  split
  · simp only [Each, List.forall_mem_cons] at held
    refine tracks_store_bind fun w enough start => ?_
    have params := I.mono enough held.1
    have body := I.mono enough held.2.1
    cases scoping : (w.store.config e).scoping with
    | dynamic => exact .value (Nat.le_refl _) start ((I.hereditary _).procedure kind params body)
    | lexical => exact .value (Nat.le_refl _) start (I.lexical start.place scoping kind params body)
  · exact tracks_raise (.arity _)

theorem tracks_bindPairs (h : I.Follows ev ev') {items : List Value} (held : I.Each n items) :
    I.Tracks e n (bindPairs ev e items) (bindPairs ev' e items) fun _ _ => True := by
  fun_induction bindPairs ev e items generalizing n with
  | case1 target form rest ih =>
      simp only [Each, List.forall_mem_cons] at held
      refine tracks_lift_bind (checks_expectSymbol held.1) fun name _ => ?_
      refine tracks_bind (h.run held.2.1 e) fun v m more known => ?_
      exact tracks_define_bind name known (ih (Each.mono held.2.2 more))
  | case2 short other =>
      rw [bindPairs]
      · exact tracks_pure fun _ _ => trivial
      · exact other

theorem tracks_evalLet (h : I.Follows ev ev') (held : I.Each n args) :
    I.Tracks e n (evalLet ev e args) (evalLet ev' e args) I.Held := by
  unfold evalLet
  split
  · simp only [Each, List.forall_mem_cons] at held
    refine tracks_lift_bind (checks_expectList (I.hereditary n) held.1) fun pairs known => ?_
    split
    · refine tracks_newChild_bind (fun c m more => ?_) fun c => ?_
      · refine tracks_bind (tracks_bindPairs h (Each.mono known more)) fun _ k further _ => ?_
        exact h.run (I.mono (Nat.le_trans more further) held.2.1) c
      · exact within_bind (within_bindPairs h.confined c pairs) fun _ => h.confined _ c
    · exact tracks_raise (.arity _)
  · exact tracks_raise (.arity _)

theorem tracks_evalLast (h : I.Follows ev ev') {rest : List Value} (held : I.Held n form)
    (others : I.Each n rest) :
    I.Tracks e n (evalLast ev e form rest) (evalLast ev' e form rest) I.Held := by
  induction rest generalizing form n with
  | nil => exact h.run held e
  | cons next rest ih =>
      refine tracks_bind (h.run held e) fun _ m more _ => ?_
      have still := List.forall_mem_cons.1 (Each.mono others more)
      exact ih still.1 still.2

theorem tracks_evalSequence (h : I.Follows ev ev') (held : I.Each n args) :
    I.Tracks e n (evalSequence ev e args) (evalSequence ev' e args) I.Held := by
  unfold evalSequence
  split
  · exact tracks_raise (.arity _)
  · refine tracks_newChild_bind (fun c m more => ?_) fun c => ?_
    · have still := List.forall_mem_cons.1 (Each.mono held more)
      exact tracks_evalLast h still.1 still.2
    · exact within_evalLast h.confined c _ _

theorem tracks_dataOperand (name : String) (held : I.Each n args) :
    I.Tracks e n (dataOperand name args) (dataOperand name args) I.Held := by
  unfold dataOperand
  split
  · exact tracks_held (List.forall_mem_singleton.1 held)
  · exact tracks_raise (.arity _)

theorem tracks_template (held : I.Held n form) :
    I.Tracks e n (do Eval.lift (Template.expand (← Eval.store) e form))
      (do Eval.lift (Template.expand (← Eval.store) e form)) I.Held := by
  refine tracks_store_bind fun w enough start => ?_
  have chain : ∀ name v, w.store.lookup? e name = some v → I.Held w.store.size v :=
    fun _ _ => start.bound.lookup?
  have own : ∀ name v, w.store.local? e name = some v → I.Held w.store.size v :=
    fun _ _ => start.bound.local?
  have checks := Template.checks_expand (I.hereditary _) chain own (I.mono enough held)
  exact tracks_lift checks (fun m more v known => I.mono more known) w (Nat.le_refl _) start

theorem tracks_evalForm (h : I.Follows ev ev') (fuel : Nat) (special : SpecialForm)
    (held : I.Each n args) :
    I.Tracks e n (evalForm ev fuel special args e) (evalForm ev' fuel special args e) I.Held := by
  cases special with
  | define => exact tracks_evalDefine h held
  | branch => exact tracks_evalBranch h held
  | procedure kind => exact tracks_evalProcedure kind held
  | letIn => exact tracks_evalLet h held
  | sequence => exact tracks_evalSequence h held
  | quote => exact tracks_dataOperand _ held
  | quasiquote =>
      exact tracks_bind (tracks_dataOperand _ held) fun template m _ known => tracks_template known
  | expandOnce =>
      exact tracks_bind (tracks_dataOperand _ held) fun form m _ known => tracks_expandOnce h known
  | expandAll =>
      exact tracks_bind (tracks_dataOperand _ held) fun form m _ known => tracks_expandAll h fuel known

/-! Application, and the evaluator -/

theorem tracks_arguments (h : I.Follows ev ev') (held : I.Each n args) :
    I.Tracks e n (Eval.each (fun x => ev x e) args) (Eval.each (fun x => ev' x e) args) I.Each :=
  tracks_each (fun _ _ _ known => h.run known e) held

/-- Only a primitive can give a value that may not be about, and only by arithmetic. -/
theorem tracks_apply (h : I.Follows ev ev') {f : Value} (head : I.Held n f) {whole : List Value}
    (list : I.Held n (.list whole)) (held : I.Each n args) :
    I.Tracks e n (apply ev f args e whole) (apply ev' f args e whole) I.Given := by
  unfold apply
  split
  · refine tracks_bind (tracks_arguments h held) fun vs m _ known => ?_
    refine tracks_lift (checks_primitive (I.hereditary m) _ known) fun k more v upTo integers => ?_
    exact I.mono more (upTo (integers m))
  · exact (tracks_consoleOp h _ held).imp fun _ _ known _ => known
  · refine tracks_bind (tracks_arguments h held) fun vs m more known => ?_
    have procedure := I.mono more head
    have body := ((I.hereditary m).parts procedure).2
    refine tracks_enter_bind procedure known (fun c k further => ?_) fun c => h.confined _ c
    exact (h.run (I.mono further body) c).imp fun _ _ known _ => known
  · exact tracks_raise (.malformedList list)

theorem tracks_evalStep (h : I.Follows ev ev') (fuel : Nat) (held : I.Held n form) :
    I.Tracks e n (evalStep ev fuel form e) (evalStep ev' fuel form e) I.Given := by
  unfold evalStep
  split
  · next name =>
      refine tracks_store_bind fun w enough start => ?_
      have checks : Checks (I.Held w.store.size) (I.Held w.store.size) (w.store.lookup e name) :=
        checks_lookup (fun _ _ => start.bound.lookup?) name
      exact tracks_lift checks (fun m more v known _ => I.mono more known) w (Nat.le_refl _) start
  · exact tracks_raise (.malformedList held)
  · have each := List.forall_mem_cons.1 ((I.hereditary n).list.1 held)
    split
    · exact (tracks_evalForm h fuel _ each.2).imp fun _ _ known _ => known
    · refine tracks_bind (h.run each.1 e) fun f m more known => ?_
      exact tracks_apply h known (I.mono more held) (Each.mono each.2 more)
  · exact tracks_raise (.typeMismatch none held)
  · exact (tracks_held held).imp fun _ _ known _ => known

end Rules

/-- The evaluator keeps an invariant that allows all integers. -/
theorem follows_eval (integers : I.Integers) (fuel : Nat) : I.Follows (eval fuel) (eval fuel) := by
  induction fuel with
  | zero => exact ⟨confined_eval 0, fun _ _ => tracks_cut _⟩
  | succ fuel ih =>
      refine ⟨confined_eval (fuel + 1), fun held e => ?_⟩
      exact (tracks_evalStep ih fuel held).imp fun _ _ given => given integers

end Invariant

/-- What can be asked about an expression in an environment: its value, its expansion in one step or in
full, or the expression itself as a template. -/
inductive Query where
  | evaluate
  | expandOnce
  | expandAll (fuel : Nat)
  | fill

def Query.run (ev : Evaluator) (expr : Value) (env : FrameId) : Query → Eval Value
  | .evaluate => ev expr env
  | .expandOnce => MiniLisp.expandOnce ev expr env
  | .expandAll fuel => MiniLisp.expandAll ev fuel expr env
  | .fill => do Eval.lift (Template.expand (← Eval.store) env expr)

theorem Invariant.tracks_query {I : Invariant} {ev ev' : Evaluator} (h : I.Follows ev ev') {n : Nat}
    {expr : Value} (held : I.Held n expr) (e : FrameId) (query : Query) :
    I.Tracks e n (query.run ev expr e) (query.run ev' expr e) I.Held := by
  cases query with
  | evaluate => exact h.run held e
  | expandOnce => exact tracks_expandOnce h held
  | expandAll fuel => exact tracks_expandAll h fuel held
  | fill => exact tracks_template held

end MiniLisp
