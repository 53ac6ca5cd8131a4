import MiniLisp.Proofs.SharedFrames

/-!
Evaluation depends on what it can reach and on nothing else. A frame is reached from the frame of an
evaluation, or from one that the expression holds, along outer frames and along the frames that bound
procedures have captured. Stores of one size that agree on the reachable frames give the same run, and
afterwards they agree on what is reachable then.
-/

namespace MiniLisp

namespace Store

/-- Frames that are reached from the roots by way of outer frames and of captured ones. -/
inductive Reach (s : Store) (roots : FrameId → Prop) : FrameId → Prop where
  | root {i : FrameId} : roots i → Reach s roots i
  | outer {i o : FrameId} {f : Frame} : Reach s roots i → s.get? i = some f → f.outer? = some o →
      Reach s roots o
  | captured {i j : FrameId} {f : Frame} {b : String × Value} : Reach s roots i →
      s.get? i = some f → b ∈ f.bindings → b.2.Captures j → Reach s roots j

variable {s t : Store} {roots : FrameId → Prop}

/-- Where two stores agree on the frames that one of them reaches, both reach the same ones. -/
theorem reach_iff_of_agree (agree : ∀ i, s.Reach roots i → s.get? i = t.get? i) (i : FrameId) :
    s.Reach roots i ↔ t.Reach roots i := by
  constructor
  · intro reached
    induction reached with
    | root start => exact .root start
    | outer before here link ih =>
        rw [agree _ before] at here
        exact .outer ih here link
    | captured before here member holds ih =>
        rw [agree _ before] at here
        exact .captured ih here member holds
  · intro reached
    induction reached with
    | root start => exact .root start
    | outer before here link ih =>
        rw [← agree _ ih] at here
        exact .outer ih here link
    | captured before here member holds ih =>
        rw [← agree _ ih] at here
        exact .captured ih here member holds

namespace Overlap

variable {P : FrameId → Prop} {Q : Config → Config → Prop}

/-- From common frames only common frames are reached. -/
theorem of_reach (h : Overlap P Q s t) (start : ∀ i, roots i → P i) {i : FrameId}
    (reached : s.Reach roots i) : P i := by
  induction reached with
  | root first => exact start _ first
  | outer before here link ih => exact h.outer _ _ _ ih here link
  | captured before here member holds ih => exact h.bound _ _ ih here _ member _ holds

theorem get?_eq (h : Overlap P (· = ·) s t) {i : FrameId} (inside : P i) : s.get? i = t.get? i := by
  cases here : s.get? i with
  | none => exact (h.missing inside here).symm
  | some f =>
      obtain ⟨g, there, same⟩ := h.frame inside here
      rw [there]
      obtain ⟨bindings, link⟩ := f
      obtain ⟨bindings', link'⟩ := g
      obtain ⟨rfl, sameLink⟩ := same
      cases sameLink with
      | root related => rw [related]
      | child outer => rfl

end Overlap

/-- Reached from the roots, or still to be made. -/
def InSight (s : Store) (roots : FrameId → Prop) (i : FrameId) : Prop := s.Reach roots i ∨ s.size ≤ i

theorem overlap_of_agree (size : s.size = t.size)
    (agree : ∀ i, s.Reach roots i → s.get? i = t.get? i) : Overlap (s.InSight roots) (· = ·) s t := by
  have absent {u : Store} {i : FrameId} (large : u.size ≤ i) : u.get? i = none :=
    Array.getElem?_eq_none large
  refine ⟨size, fun i large => .inr large, ?_, ?_, ?_⟩
  · rintro i (reached | large)
    · rw [← agree i reached]
      cases s.get? i with
      | none => exact .none
      | some f =>
          obtain ⟨bindings, link⟩ := f
          refine .some ⟨rfl, ?_⟩
          cases link with
          | root config => exact .root rfl
          | child outer => exact .child outer
    · rw [absent large, absent (size ▸ large)]
      exact .none
  · rintro i f o (reached | large) here link
    · exact .inl (.outer reached here link)
    · rw [absent large] at here
      cases here
  · rintro i f (reached | large) here b member j holds
    · exact .inl (.captured reached here member holds)
    · rw [absent large] at here
      cases here

end Store

/-- What an evaluation starts from: its frame, and the frames that its expression holds. -/
def rootsBefore (env : FrameId) (expr : Value) (i : FrameId) : Prop := i = env ∨ expr.Captures i

/-- What is left after it: its frame, and the frames that its value or its error holds. -/
def rootsAfter (env : FrameId) (result : Except Stop Value) (i : FrameId) : Prop :=
  i = env ∨ (∃ v, result = .ok v ∧ v.Captures i) ∨
    ∃ error, result = .error (.failed error) ∧ error.Captures i

/-- Two runs with one outcome and one trace, after which the stores reach the same frames from there
and agree on them. -/
structure SameReach (env : FrameId) (r r' : Except Stop Value × World) : Prop where
  result : r.1 = r'.1
  console : r.2.console = r'.2.console
  log : r.2.log = r'.2.log
  size : r.2.store.size = r'.2.store.size
  reach : ∀ i, r.2.store.Reach (rootsAfter env r.1) i ↔ r'.2.store.Reach (rootsAfter env r'.1) i
  frames : ∀ i, r.2.store.Reach (rootsAfter env r.1) i → r.2.store.get? i = r'.2.store.get? i

/-- Equal settings never tell two runs apart. -/
theorem allows_eq : Config.Allows (fun _ => False) (· = ·) where
  default := rfl
  scoping same := by rw [same]
  limit same := by
    rw [same]
    exact fun _ => .inl rfl

theorem sameReach_of_same {P : FrameId → Prop} {env : FrameId} {r r' : Except Stop Value × World}
    (h : (sharedSimulation P allows_eq).Same env env (Value.CapturesOnly P) r r') :
    SameReach env r r' := by
  obtain ⟨result, related⟩ := h.outcome fun _ _ never => never
  have held : ∀ i, rootsAfter env r.1 i → P i := by
    rintro i (rfl | ⟨v, run, captured⟩ | ⟨error, run, captured⟩)
    · exact related.inside
    · exact h.of_ok run i captured
    · exact h.of_failed run id i captured
  have agree : ∀ i, r.2.store.Reach (rootsAfter env r.1) i → r.2.store.get? i = r'.2.store.get? i :=
    fun i reached => related.store.get?_eq (related.store.of_reach held reached)
  refine ⟨result, related.console, related.log, related.store.size, ?_, agree⟩
  rw [← result]
  exact Store.reach_iff_of_agree agree

/-- An evaluation reads the reachable frames only: in two stores of one size that agree on them, under
either scoping, it has the same result and the same effects, and again the stores agree on every frame
that can be reached from its frame and its result. -/
theorem eval_local {expr : Value} {env : FrameId} {w : World} {t : Store}
    (size : w.store.size = t.size)
    (agree : ∀ i, w.store.Reach (rootsBefore env expr) i → w.store.get? i = t.get? i) (fuel : Nat) :
    SameReach env (eval fuel expr env w) (eval fuel expr env { w with store := t }) := by
  have start : Shared (w.store.InSight (rootsBefore env expr)) (· = ·) env env w { w with store := t } :=
    ⟨rfl, .inl (.root (.inl rfl)), Store.overlap_of_agree size agree, rfl, rfl⟩
  have held : expr.CapturesOnly (w.store.InSight (rootsBefore env expr)) :=
    fun i captured => .inl (.root (.inr captured))
  have follows := Simulation.follows_eval
    (sharedSimulation (w.store.InSight (rootsBefore env expr)) allows_eq) fuel
  exact sameReach_of_same (follows.run expr env env held w _ start)

/-- A root, a frame that `raise` has captured, and a third frame that nothing in the others leads to. -/
def closureStore (third : List (String × Value)) : Store :=
  ⟨#[⟨[("+", .native (.primitive .add)),
      ("raise", .proc .lambda (.list [.sym "n"]) (.list [.sym "+", .sym "n", .sym "step"]) (some 1))],
        .root { scoping := .lexical }⟩,
    ⟨[("step", .int 10)], .child 0⟩,
    ⟨third, .child 0⟩]⟩

/-- `(raise 5)`. -/
def closureCall : Value := .list [.sym "raise", .int 5]

theorem closureStore_reach {third : List (String × Value)} {i : FrameId}
    (reached : (closureStore third).Reach (rootsBefore 0 closureCall) i) : i = 0 ∨ i = 1 := by
  have bound : ∀ j f, j = 0 ∨ j = 1 → (closureStore third).get? j = some f →
      (∀ o, f.outer? = some o → o = 0 ∨ o = 1) ∧
        ∀ b ∈ f.bindings, b.2.CapturesOnly fun k => k = 0 ∨ k = 1 := by
    rintro j f (rfl | rfl) here <;> cases here <;> simp [closureStore, Frame.outer?]
  induction reached with
  | root start =>
      rcases start with rfl | captured
      · exact .inl rfl
      · have none : closureCall.CapturesOnly fun _ => False := by simp [closureCall]
        exact (none _ captured).elim
  | outer before here link ih => exact (bound _ _ ih here).1 _ link
  | captured before here member holds ih => exact (bound _ _ ih here).2 _ member _ holds

theorem closureStore_agree (third third' : List (String × Value)) (i : FrameId)
    (reached : (closureStore third).Reach (rootsBefore 0 closureCall) i) :
    (closureStore third).get? i = (closureStore third').get? i := by
  rcases closureStore_reach reached with rfl | rfl <;> rfl

def closureWorld : World := ⟨closureStore [("secret", .int 1)], ⟨[], "", .stopped⟩, #[]⟩

/-- Another store in place of the first, which differs in a frame out of reach: the call gives 15. -/
theorem closureCall_local :
    let t := closureStore [("secret", .int 2), ("step", .int 0)]
    closureWorld.store.size = t.size ∧
    (∀ i, closureWorld.store.Reach (rootsBefore 0 closureCall) i →
      closureWorld.store.get? i = t.get? i) ∧
    SameReach 0 (eval 9 closureCall 0 closureWorld)
      (eval 9 closureCall 0 { closureWorld with store := t }) ∧
    (eval 9 closureCall 0 { closureWorld with store := t }).1 = .ok (.int 15) := by
  intro t
  have size : closureWorld.store.size = t.size := rfl
  have agree : ∀ i, closureWorld.store.Reach (rootsBefore 0 closureCall) i →
      closureWorld.store.get? i = t.get? i := closureStore_agree _ _
  exact ⟨size, agree, eval_local size agree 9, rfl⟩

/-- `(if raise 1 2)` fails with an error that keeps the procedure, and with it the captured frame. -/
example :
    let call := Value.list [.sym "if", .sym "raise", .int 1, .int 2]
    rootsAfter 0 (eval 9 call 0 closureWorld).1 1 :=
  .inr (.inr ⟨_, rfl, _, List.mem_singleton.2 rfl, .here _ _ _ _⟩)

end MiniLisp
