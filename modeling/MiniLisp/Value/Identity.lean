import MiniLisp.Value.Basic

/-!
Identity of procedures. Two procedures are the same when they are of one kind and share the very
parameter list, body and captured frame; objects are named by numbers here. A table of procedures looks
under a key first, in which the captured frame plays no part, and among those it finds there by identity.
-/

namespace MiniLisp

/-- The objects that a procedure is made of. -/
structure ProcIdentity where
  kind : ProcKind
  params : Nat
  body : Nat
  env : Option Nat
deriving DecidableEq

namespace ProcIdentity

def same (a b : ProcIdentity) : Bool := decide (a = b)

/-- What a table of procedures sorts them by. -/
def key (p : ProcIdentity) : ProcKind × Nat × Nat := (p.kind, p.params, p.body)

def sameKey (a b : ProcIdentity) : Bool := decide (a.key = b.key)

/-- Procedures under one key differ in their frames at most. -/
theorem same_iff (a b : ProcIdentity) :
    a.same b = true ↔ a.sameKey b = true ∧ a.env = b.env := by
  obtain ⟨kind, params, body, env⟩ := a
  obtain ⟨kind', params', body', env'⟩ := b
  simp [same, sameKey, key, and_assoc]

/-- A table misses nothing by looking under the key only: it finds the procedure that a search through
all of its entries finds. -/
theorem find?_under_key (table : List ProcIdentity) (p : ProcIdentity) :
    (table.filter p.sameKey).find? p.same = table.find? p.same := by
  induction table with
  | nil => rfl
  | cons q table ih =>
      by_cases here : p.sameKey q = true
      · rw [List.filter_cons_of_pos here, List.find?_cons, List.find?_cons, ih]
      · have other : ¬ p.same q = true := fun same => here ((p.same_iff q).1 same).1
        rw [List.filter_cons_of_neg here, List.find?_cons_of_neg other, ih]

end ProcIdentity

end MiniLisp
