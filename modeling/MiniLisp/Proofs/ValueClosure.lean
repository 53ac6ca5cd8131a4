import MiniLisp.Proofs.DynamicScope
import MiniLisp.Proofs.Invariant

/-!
What never comes up in a run. A program cannot make a foreign value: where none stands in the expression
or in a frame, none stands in any frame afterwards or in the result. Under dynamic scoping no procedure
comes to capture a frame.
-/

namespace MiniLisp

open Store (Keeps Binds)

namespace Value

mutual

/-- No foreign value stands in the value, at any depth. -/
def proper : Value → Bool
  | .list items => allProper items
  | .proc _ params body _ => params.proper && body.proper
  | .foreign => false
  | _ => true

def allProper : List Value → Bool
  | [] => true
  | v :: vs => v.proper && allProper vs

end

/-- A value of the language, with values of the language as its parts. -/
def Proper (v : Value) : Prop := v.proper = true

theorem allProper_iff (vs : List Value) : allProper vs = true ↔ ∀ v ∈ vs, v.Proper := by
  induction vs with
  | nil => simp [allProper]
  | cons v vs ih => simp [allProper, ih, Proper]

theorem hereditary_proper : Hereditary Proper where
  float _ := rfl
  bool _ := rfl
  str _ := rfl
  sym _ := rfl
  list := allProper_iff _
  parts h := by simpa [Proper, proper] using h
  procedure _ _ _ inParams inBody := by simp_all [Proper, proper]

theorem Proper.exists_kind {v : Value} (h : v.Proper) : ∃ k, v.kind = .ok k := by
  unfold kind
  cases known : v.kind? with
  | some k => exact ⟨k, rfl⟩
  | none =>
      rw [(kind?_eq_none_iff v).1 known] at h
      cases h

end Value

/-- Values of the language are all that is ever about. -/
def properInvariant : Invariant where
  Held _ := Value.Proper
  Fair _ := True
  Place _ _ := True
  hereditary _ := Value.hereditary_proper
  mono _ known := known
  reports _ := trivial
  unprinted _ _ := trivial
  lexical _ _ _ _ _ inParams inBody := by simp_all [Value.Proper, Value.proper]
  define _ _ _ := trivial
  child _ _ := trivial
  call _ _ _ := trivial
  back _ _ _ := trivial

/-- A frame that is there and in which procedures capture nothing. -/
structure DynamicFrame (e : FrameId) (s : Store) : Prop where
  linked : s.Linked
  present : e < s.size
  dynamic : (s.config e).scoping = .dynamic

namespace DynamicFrame

variable {e : FrameId} {s : Store}

theorem define (h : DynamicFrame e s) (name : String) (v : Value) :
    DynamicFrame e (s.define e name v) where
  linked := h.linked.define
  present := by simpa using h.present
  dynamic := by rw [Store.config_define, h.dynamic]

theorem child (h : DynamicFrame e s) (bindings : List (String × Value)) :
    DynamicFrame s.size (s.push ⟨bindings, .child e⟩) where
  linked := h.linked.child h.present
  present := by simp
  dynamic := by rw [Store.config_child h.linked h.present, h.dynamic]

theorem back {c : FrameId} {t : Store} (h : DynamicFrame e s) (inner : DynamicFrame c t)
    (kept : Keeps s t) : DynamicFrame e t where
  linked := inner.linked
  present := Store.lt_size_of_keeps kept h.present
  dynamic := by rw [Store.config_of_keeps h.linked kept h.present, h.dynamic]

end DynamicFrame

/-- Under dynamic scoping nothing is captured. -/
def plainInvariant : Invariant where
  Held _ := Value.Plain
  Fair _ := True
  Place := DynamicFrame
  hereditary _ := Value.hereditary_capturesOnly fun _ => False
  mono _ known := known
  reports _ := trivial
  unprinted _ _ := trivial
  lexical place isLexical := by
    rw [place.dynamic] at isLexical
    cases isLexical
  define place := place.define
  child place := place.child
  call _ plain := absurd (.here _ _ _ _) (plain _)
  back place inner kept := place.back inner kept

/-- All that a run leaves behind has the property: what the frames bind, and the result if there is one. -/
structure Leaves (P : Value → Prop) (r : Except Stop Value × World) : Prop where
  bound : r.2.store.Binds P
  result : ∀ v, r.1 = .ok v → P v

theorem Invariant.Ends.leaves {I : Invariant} {P : Value → Prop} (same : ∀ n, I.Held n = P) {e : FrameId}
    {n : Nat} {r r' : Except Stop Value × World} (h : I.Ends e n I.Held r r') : Leaves P r := by
  constructor
  · rw [← same]
    exact h.holds.bound
  · intro v run
    rw [← same]
    exact h.of_ok run

/-- Values stay within the language, whatever is asked and however it ends: where no foreign value stands
in the expression or in a frame, none does afterwards, so every result has a kind. Under dynamic scoping
the same holds of captured frames. -/
theorem values_closed (query : Query) (fuel : Nat) (expr : Value) (e : FrameId) (w : World) :
    (w.store.Binds Value.Proper → expr.Proper →
      Leaves Value.Proper (query.run (eval fuel) expr e w) ∧
      ∀ v, (query.run (eval fuel) expr e w).1 = .ok v → ∃ k, v.kind = .ok k) ∧
    (w.store.Linked → e < w.store.size → (w.store.config e).scoping = .dynamic →
      w.store.Plain → expr.Plain → Leaves Value.Plain (query.run (eval fuel) expr e w)) := by
  constructor
  · intro bound proper
    have follows := Invariant.follows_eval (I := properInvariant) (fun _ _ => rfl) fuel
    have ends := Invariant.tracks_query follows (n := 0) proper e query w (Nat.zero_le _)
      ⟨bound, trivial⟩
    have leaves : Leaves Value.Proper _ := ends.leaves fun _ => rfl
    exact ⟨leaves, fun v run => (leaves.result v run).exists_kind⟩
  · intro linked present dynamic bound plain
    have integers : plainInvariant.Integers := fun _ i => Value.capturesOnly_int i
    have follows := Invariant.follows_eval integers fuel
    have ends := Invariant.tracks_query follows (n := 0) plain e query w (Nat.zero_le _)
      ⟨bound, linked, present, dynamic⟩
    exact ends.leaves fun _ => rfl

/-- `(def pair (fn (x) (list x x)))`. -/
def pairDefinition : Value :=
  .list [.sym "def", .sym "pair",
    .list [.sym "fn", .list [.sym "x"], .list [.sym "list", .sym "x", .sym "x"]]]

/-- The root frame comes to bind a procedure, which has captured nothing. -/
theorem values_closed_definition :
    let w := World.start {} "" .stopped
    (w.store.Binds Value.Proper ∧ pairDefinition.Proper ∧ w.store.Plain ∧ pairDefinition.Plain) ∧
    Leaves Value.Proper (eval 9 pairDefinition rootFrame w) ∧
    Leaves Value.Plain (eval 9 pairDefinition rootFrame w) ∧
    ((eval 9 pairDefinition rootFrame w).2.store.local? rootFrame "pair").isSome := by
  intro w
  have proper : w.store.Binds Value.Proper := binds_start (fun _ => rfl) {} "" .stopped
  have plain : w.store.Plain := binds_start Value.capturesOnly_native {} "" .stopped
  have plainExpr : pairDefinition.CapturesOnly fun _ => False := by simp [pairDefinition]
  have closed := values_closed .evaluate 9 pairDefinition rootFrame w
  refine ⟨⟨proper, rfl, plain, plainExpr⟩, (closed.1 proper rfl).1, ?_, rfl⟩
  exact closed.2 (Store.linked_root _ _) (by decide) rfl plain plainExpr

end MiniLisp
