import MiniLisp.Proofs.Simulation

/-!
What a program can tell of its environment under dynamic scoping. Nothing is captured there, so an
environment answers three kinds of questions only: its settings, what the current frame binds, and
what a name means in it. Two environments that give the same answers stay alike whatever is
evaluated in them, also when their frames are chained in different ways.
-/

namespace MiniLisp

open Store (Keeps)

/-- No procedure in the value has captured a frame. -/
def Value.Plain (v : Value) : Prop := ∀ id, ¬ v.Captures id

/-- No procedure that any frame binds has captured a frame. -/
def Store.Plain (s : Store) : Prop := ∀ id f, s.get? id = some f → ∀ b ∈ f.bindings, b.2.Plain

/-- Two environments with the same settings, the same bindings in the current frame, and the same
value, or none, for every name. -/
structure Store.SameView (s : Store) (e : FrameId) (t : Store) (e' : FrameId) : Prop where
  config : s.config e = t.config e'
  own : ∀ name, s.local? e name = t.local? e' name
  names : ∀ name, s.lookup? e name = t.lookup? e' name

open Store (SameView)

/-- The same value or the same failure, with the same traces outside the store, after which the two
environments are alike. -/
structure SameRun (e e' : FrameId) (r r' : Except Stop Value × World) : Prop where
  result : r.1 = r'.1
  console : r.2.console = r'.2.console
  log : r.2.log = r'.2.log
  view : SameView r.2.store e r'.2.store e'

/-- The worlds of two runs in environments that look alike. `ordered` is whether the current frames
also list their bindings in the same order. -/
structure Mirror (ordered : Prop) (e e' : FrameId) (w w' : World) : Prop where
  linked : w.store.Linked
  linked' : w'.store.Linked
  present : e < w.store.size
  present' : e' < w'.store.size
  view : SameView w.store e w'.store e'
  order : ordered → w.store.bindings? e = w'.store.bindings? e'
  dynamic : (w.store.config e).scoping = .dynamic
  plain : ∀ name v, w.store.lookup? e name = some v → v.Plain
  console : w.console = w'.console
  log : w.log = w'.log

namespace Mirror

variable {ordered : Prop} {e e' : FrameId} {w w' : World}

theorem known (h : Mirror ordered e e' w w') : Template.KnownNames (fun _ => False) w.store e :=
  ⟨h.plain, fun name v here => h.plain name v (Store.lookup?_of_local? h.present here)⟩

theorem define (h : Mirror ordered e e' w w') (name : String) (v : Value) (plain : v.Plain) :
    Mirror ordered e e' { w with store := w.store.define e name v }
      { w' with store := w'.store.define e' name v } where
  linked := h.linked.define
  linked' := h.linked'.define
  present := by simpa using h.present
  present' := by simpa using h.present'
  view := by
    constructor
    · rw [Store.config_define, Store.config_define, h.view.config]
    · intro other
      rw [Store.local?_define h.present, Store.local?_define h.present', h.view.own]
      simp
    · intro other
      rw [Store.lookup?_define h.present, Store.lookup?_define h.present', h.view.names]
  order := by
    intro sorted
    rw [Store.bindings?_define, Store.bindings?_define, h.order sorted]
  dynamic := by rw [Store.config_define, h.dynamic]
  plain := by
    intro other u found
    rw [Store.lookup?_define h.present] at found
    split at found
    · cases found
      exact plain
    · exact h.plain other u found
  console := h.console
  log := h.log

theorem child (h : Mirror ordered e e' w w') (bindings : List (String × Value))
    (plain : ∀ b ∈ bindings, b.2.Plain) :
    Mirror ordered w.store.size w'.store.size { w with store := w.store.push ⟨bindings, .child e⟩ }
      { w' with store := w'.store.push ⟨bindings, .child e'⟩ } where
  linked := h.linked.child h.present
  linked' := h.linked'.child h.present'
  present := by simp
  present' := by simp
  view := by
    constructor
    · rw [Store.config_child h.linked h.present, Store.config_child h.linked' h.present', h.view.config]
    · intro name
      rw [Store.local?_child, Store.local?_child]
    · intro name
      rw [Store.lookup?_child h.linked h.present, Store.lookup?_child h.linked' h.present', h.view.names]
  order := by
    intro _
    rw [Store.bindings?_child, Store.bindings?_child]
  dynamic := by rw [Store.config_child h.linked h.present, h.dynamic]
  plain := by
    intro name v found
    rw [Store.lookup?_child h.linked h.present, Option.or_eq_some_iff] at found
    rcases found with inner | ⟨-, outer⟩
    · exact plain _ (Store.mem_of_lookup inner)
    · exact h.plain name v outer
  console := h.console
  log := h.log

/-- A frame inside is done with, and all older frames are as they were. -/
theorem back {c c' : FrameId} {v v' : World} (h : Mirror ordered e e' w w')
    (inner : Mirror ordered c c' v v') (kept : Keeps w.store v.store) (kept' : Keeps w'.store v'.store) :
    Mirror ordered e e' v v' where
  linked := inner.linked
  linked' := inner.linked'
  present := Store.lt_size_of_keeps kept h.present
  present' := Store.lt_size_of_keeps kept' h.present'
  view := by
    constructor
    · rw [Store.config_of_keeps h.linked kept h.present,
        Store.config_of_keeps h.linked' kept' h.present', h.view.config]
    · intro name
      rw [Store.local?, Store.local?, Store.get?_of_keeps kept h.present,
        Store.get?_of_keeps kept' h.present']
      exact h.view.own name
    · intro name
      rw [Store.lookup?_of_keeps h.linked kept h.present,
        Store.lookup?_of_keeps h.linked' kept' h.present', h.view.names]
  order := by
    intro sorted
    rw [Store.bindings?, Store.bindings?, Store.get?_of_keeps kept h.present,
      Store.get?_of_keeps kept' h.present']
    exact h.order sorted
  dynamic := by rw [Store.config_of_keeps h.linked kept h.present, h.dynamic]
  plain := by
    intro name u found
    rw [Store.lookup?_of_keeps h.linked kept h.present] at found
    exact h.plain name u found
  console := inner.console
  log := inner.log

end Mirror

/-- Environments that look alike, as a simulation in which no frame is ever captured. -/
def mirrorSimulation (ordered : Prop) : Simulation where
  At := Mirror ordered
  seen _ := False
  excused _ := False
  lookup h := h.view.names
  own h := h.view.own
  known h := h.known
  scoping h := by rw [h.view.config]
  lexical h isLexical := by
    rw [h.dynamic] at isLexical
    cases isLexical
  limit h depth := .inl (by rw [World.limit, World.limit, h.view.config])
  console h := h.console
  setConsole h c := { h with console := rfl }
  record h r := { h with log := by rw [h.log] }
  define h name v plain := h.define name v plain
  child h bindings plain := h.child bindings plain
  captured h o never := never.elim
  back h inner kept kept' := h.back inner kept kept'

section Runs

variable {ordered : Prop} {e e' : FrameId} {w w' : World} {post : Value → Prop}
  {r r' : Except Stop Value × World}

theorem sameRun_of_same (h : (mirrorSimulation ordered).Same e e' post r r') : SameRun e e' r r' := by
  obtain ⟨result, related⟩ := h.outcome fun _ _ never => never
  exact ⟨result, related.console, related.log, related.view⟩

theorem order_of_same (h : (mirrorSimulation ordered).Same e e' post r r') (sorted : ordered) :
    r.2.store.bindings? e = r'.2.store.bindings? e' := by
  obtain ⟨-, related⟩ := h.outcome fun _ _ never => never
  exact related.order sorted

theorem same_eval (h : Mirror ordered e e' w w') {expr : Value} (plain : expr.Plain) (fuel : Nat) :
    (mirrorSimulation ordered).Same e e' (Value.CapturesOnly fun _ => False)
      (eval fuel expr e w) (eval fuel expr e' w') :=
  (Simulation.follows_eval (mirrorSimulation ordered) fuel).run expr e e' plain w w' h

theorem same_expandAll (h : Mirror ordered e e' w w') {expr : Value} (plain : expr.Plain)
    (fuel steps : Nat) :
    (mirrorSimulation ordered).Same e e' (Value.CapturesOnly fun _ => False)
      (expandAll (eval fuel) steps expr e w) (expandAll (eval fuel) steps expr e' w') :=
  Simulation.lockstep_expandAll (Simulation.follows_eval (mirrorSimulation ordered) fuel) steps plain w w' h

end Runs

theorem Store.plain_of_lookup? {s : Store} (plain : s.Plain) {e : FrameId} {name : String} {v : Value}
    (found : s.lookup? e name = some v) : v.Plain :=
  Store.Binds.lookup? plain found

/-- Under dynamic scoping and without captured frames, an environment is no more than its settings,
its current frame and the meaning of its names: two that agree in these give the same run of every
expression and agree again afterwards. -/
theorem dynamic_environment_observed {w : World} {e₁ e₂ : FrameId} (linked : w.store.Linked)
    (present₁ : e₁ < w.store.size) (present₂ : e₂ < w.store.size)
    (dynamic : (w.store.config e₁).scoping = .dynamic) (plain : w.store.Plain)
    (alike : SameView w.store e₁ w.store e₂) {expr : Value} (plainExpr : expr.Plain) :
    (∀ fuel, SameRun e₁ e₂ (eval fuel expr e₁ w) (eval fuel expr e₂ w)) ∧
    (∀ fuel steps, SameRun e₁ e₂ (expandAll (eval fuel) steps expr e₁ w)
      (expandAll (eval fuel) steps expr e₂ w)) ∧
    Template.expand w.store e₁ expr = Template.expand w.store e₂ expr ∧
    (w.store.bindings? e₁ = w.store.bindings? e₂ → ∀ fuel,
      (eval fuel expr e₁ w).2.store.bindings? e₁ = (eval fuel expr e₂ w).2.store.bindings? e₂) := by
  have start : Mirror (w.store.bindings? e₁ = w.store.bindings? e₂) e₁ e₂ w w :=
    { linked := linked, linked' := linked, present := present₁, present' := present₂, view := alike,
      order := id, dynamic := dynamic, plain := fun _ _ => w.store.plain_of_lookup? plain,
      console := rfl, log := rfl }
  refine ⟨fun fuel => ?_, fun fuel steps => ?_, ?_, fun sorted fuel => ?_⟩
  · exact sameRun_of_same (same_eval start plainExpr fuel)
  · exact sameRun_of_same (same_expandAll start plainExpr fuel steps)
  · exact Template.expand_congr alike.names alike.own expr
  · exact order_of_same (same_eval start plainExpr fuel) sorted

/-- Frame 2 stands right inside the root. Frame 3 has a frame in between, which says of `x` what the
root says. -/
def detourWorld : World where
  store := ⟨#[
    ⟨[("+", .native (.primitive .add)), ("x", .int 2),
      ("shift", .proc .lambda (.list [.sym "n"]) (.list [.sym "+", .sym "n", .sym "x"]) none)], .root {}⟩,
    ⟨[("x", .int 2)], .child 0⟩,
    ⟨[("y", .int 5)], .child 0⟩,
    ⟨[("y", .int 5)], .child 1⟩]⟩
  console := ⟨[], "", .stopped⟩
  log := #[]

theorem detourWorld_linked : detourWorld.store.Linked := by
  intro id f outer here link
  rcases id with _ | _ | _ | _ | id <;> cases here <;> cases link <;> decide

theorem detourWorld_plain : detourWorld.store.Plain := by
  intro id f here
  change ∀ b ∈ f.bindings, b.2.CapturesOnly fun _ => False
  rcases id with _ | _ | _ | _ | id <;> cases here <;> simp [detourWorld]

theorem detourWorld_alike : SameView detourWorld.store 2 detourWorld.store 3 := by
  refine ⟨by decide, fun name => rfl, fun name => ?_⟩
  have short : detourWorld.store.chain 2 = [2, 0] := rfl
  have long : detourWorld.store.chain 3 = [3, 1, 0] := rfl
  have own : detourWorld.store.local? 3 name = detourWorld.store.local? 2 name := rfl
  rw [Store.lookup?_eq_findSome?, Store.lookup?_eq_findSome?, short, long]
  simp only [List.findSome?_cons, own]
  by_cases same : name = "x"
  · subst same
    rfl
  · have between : detourWorld.store.local? 1 name = none := by
      simp [detourWorld, Store.local?, Store.get?, Frame.get?, List.lookup_cons,
        beq_eq_false_iff_ne.2 same]
    rw [between]

/-- `(def z (shift y))`. -/
def detourForm : Value := .list [.sym "def", .sym "z", .list [.sym "shift", .sym "y"]]

theorem detourForm_plain : detourForm.Plain := by
  change detourForm.CapturesOnly fun _ => False
  simp [detourForm]

/-- In both frames `shift` finds `x`, along different chains, and `z` becomes 7. -/
theorem detourWorld_observed :
    (detourWorld.store.Linked ∧ detourWorld.store.Plain ∧
      SameView detourWorld.store 2 detourWorld.store 3 ∧ detourForm.Plain) ∧
    SameRun 2 3 (eval 9 detourForm 2 detourWorld) (eval 9 detourForm 3 detourWorld) ∧
    (eval 9 detourForm 3 detourWorld).2.store.local? 3 "z" = some (.int 7) := by
  refine ⟨⟨detourWorld_linked, detourWorld_plain, detourWorld_alike, detourForm_plain⟩, ?_, by rfl⟩
  exact (dynamic_environment_observed detourWorld_linked (by decide) (by decide) (by decide)
    detourWorld_plain detourWorld_alike detourForm_plain).1 9

end MiniLisp
