import MiniLisp.Eval.Expansion
import MiniLisp.Eval.Quasiquote
import MiniLisp.Primitive.Apply

/-!
Properties that values share with their parts. Primitives, parameters and templates only take values
apart and put them together: what they give has every such property of what they were given, up to the
integers that arithmetic makes, and the errors they report are about values that have it.
-/

namespace MiniLisp

/-- A property that a list has when its items have it, and that a procedure hands down to its parameters
and its body. -/
structure Value.Hereditary (P : Value → Prop) : Prop where
  float (x : Float) : P (.float x)
  bool (b : Bool) : P (.bool b)
  str (s : String) : P (.str s)
  sym (name : String) : P (.sym name)
  list {items : List Value} : P (.list items) ↔ ∀ x ∈ items, P x
  parts {kind : ProcKind} {params body : Value} {env : Option FrameId} :
    P (.proc kind params body env) → P params ∧ P body
  procedure (kind : ProcKind) {params body : Value} : P params → P body → P (.proc kind params body none)

theorem Value.hereditary_true : Value.Hereditary fun _ => True :=
  ⟨fun _ => trivial, fun _ => trivial, fun _ => trivial, fun _ => trivial, by simp, by simp, by simp⟩

/-- Errors of an evaluation, about values with a property. -/
inductive Error.About (P : Value → Prop) : Error → Prop where
  | typeMismatch (expected : Option Kind) {v : Value} : P v → About P (.typeMismatch expected v)
  | unbound (name : String) : About P (.unbound name)
  | malformedList {items : List Value} : P (.list items) → About P (.malformedList items)
  | arity (fault : ArityFault) : About P (.arity fault)
  | expansionLimit {form : Value} (limit : Nat) : P form → About P (.expansionLimit form limit)
  | divisionByZero : About P .divisionByZero

/-- Gives something as `post` says, or reports an error about values with the property. -/
inductive Checks {α : Type} (P : Value → Prop) (post : α → Prop) : Except Error α → Prop where
  | ok {a : α} : post a → Checks P post (.ok a)
  | error {cause : Error} : cause.About P → Checks P post (.error cause.reported)

namespace Checks

variable {α β : Type} {P : Value → Prop} {mid : α → Prop} {post : β → Prop} {r : Except Error α}

theorem imp {mid' : α → Prop} (h : Checks P mid r) (weaker : ∀ a, mid a → mid' a) :
    Checks P mid' r := by
  cases h with
  | ok holds => exact .ok (weaker _ holds)
  | error about => exact .error about

theorem map {f : α → β} (h : Checks P mid r) (hf : ∀ a, mid a → post (f a)) :
    Checks P post (r.map f) := by
  cases h with
  | ok holds => exact .ok (hf _ holds)
  | error about => exact .error about

theorem bind {f : α → Except Error β} (h : Checks P mid r) (hf : ∀ a, mid a → Checks P post (f a)) :
    Checks P post (r >>= f) := by
  cases h with
  | ok holds => exact hf _ holds
  | error about => exact .error about

end Checks

section

variable {P : Value → Prop}

/-! Kinds -/

theorem checks_expectSymbol {v : Value} (known : P v) : Checks P (fun _ => True) v.expectSymbol := by
  cases v with
  | sym name => exact .ok trivial
  | _ => exact .error (.typeMismatch _ known)

theorem checks_expectBool {v : Value} (known : P v) : Checks P (fun _ => True) v.expectBool := by
  cases v with
  | bool b => exact .ok trivial
  | _ => exact .error (.typeMismatch _ known)

theorem checks_expectString {v : Value} (known : P v) : Checks P (fun _ => True) v.expectString := by
  cases v with
  | str s => exact .ok trivial
  | _ => exact .error (.typeMismatch _ known)

theorem checks_expectList (h : Value.Hereditary P) {v : Value} (known : P v) :
    Checks P (fun items => ∀ x ∈ items, P x) v.expectList := by
  cases v with
  | list items => exact .ok (h.list.1 known)
  | _ => exact .error (.typeMismatch _ known)

/-! Numbers -/

theorem checks_allInts {args : List Value} (known : ∀ x ∈ args, P x) :
    Checks P (fun _ => True) (allInts args) := by
  induction args with
  | nil => exact .ok trivial
  | cons v rest ih =>
      rw [List.forall_mem_cons] at known
      cases v with
      | int n => exact (ih known.2).map fun _ _ => trivial
      | _ => exact .error (.typeMismatch _ known.1)

theorem checks_allFloats {args : List Value} (known : ∀ x ∈ args, P x) :
    Checks P (fun _ => True) (allFloats args) := by
  induction args with
  | nil => exact .ok trivial
  | cons v rest ih =>
      rw [List.forall_mem_cons] at known
      cases v with
      | float x => exact (ih known.2).map fun _ _ => trivial
      | _ => exact .error (.typeMismatch _ known.1)

theorem checks_numbers {args : List Value} (known : ∀ x ∈ args, P x) :
    Checks P (fun _ => True) (numbers args) := by
  cases args with
  | nil => exact .ok trivial
  | cons v rest =>
      rw [List.forall_mem_cons] at known
      cases v with
      | int n => exact (checks_allInts known.2).map fun _ _ => trivial
      | float x => exact (checks_allFloats known.2).map fun _ _ => trivial
      | _ => exact .error (.typeMismatch _ known.1)

theorem checks_someNumbers (operator : String) {args : List Value} (known : ∀ x ∈ args, P x) :
    Checks P (fun _ => True) (someNumbers operator args) := by
  unfold someNumbers
  split
  · exact .error (.arity _)
  · exact checks_numbers known

/-- The property holds of the value if it holds of every integer. -/
abbrev UpToIntegers (P : Value → Prop) (v : Value) : Prop := (∀ n, P (.int n)) → P v

theorem upToIntegers_sum (h : Value.Hereditary P) (ns : Numbers) : UpToIntegers P (sum ns) := by
  intro int
  cases ns with
  | ints ns => exact int _
  | floats xs => exact h.float _

theorem upToIntegers_product (h : Value.Hereditary P) (ns : Numbers) :
    UpToIntegers P (product ns) := by
  intro int
  cases ns with
  | ints ns => exact int _
  | floats xs => exact h.float _

theorem upToIntegers_difference (h : Value.Hereditary P) (ns : Numbers) :
    UpToIntegers P (difference ns) := by
  intro int
  unfold difference
  split
  all_goals first | exact int _ | exact h.float _

theorem checks_divideInts (n : Int) (ds : List Int) : Checks P (fun _ => True) (divideInts n ds) := by
  induction ds generalizing n with
  | nil => exact .ok trivial
  | cons d ds ih =>
      rw [divideInts]
      split
      · exact .error .divisionByZero
      · exact ih _

theorem checks_divideFloats (x : Float) (ds : List Float) :
    Checks P (fun _ => True) (divideFloats x ds) := by
  induction ds generalizing x with
  | nil => exact .ok trivial
  | cons d ds ih =>
      rw [divideFloats]
      split
      · exact .error .divisionByZero
      · exact ih _

theorem checks_quotient (h : Value.Hereditary P) (ns : Numbers) :
    Checks P (UpToIntegers P) (quotient ns) := by
  unfold quotient
  split
  · exact .ok fun int => int _
  · exact (checks_divideInts _ _).map fun n _ int => int n
  · exact .ok fun _ => h.float _
  · exact (checks_divideFloats _ _).map fun x _ _ => h.float x

/-! Truth values and lists -/

theorem checks_allBools {args : List Value} (known : ∀ x ∈ args, P x) :
    Checks P (fun _ => True) (allBools args) := by
  induction args with
  | nil => exact .ok trivial
  | cons v rest ih =>
      rw [List.forall_mem_cons] at known
      exact (checks_expectBool known.1).bind fun b _ => (ih known.2).bind fun bs _ => .ok trivial

theorem checks_single (operator : String) {args : List Value} (known : ∀ x ∈ args, P x) :
    Checks P P (single operator args) := by
  unfold single
  split
  · exact .ok (List.forall_mem_singleton.1 known)
  · exact .error (.arity _)

theorem checks_uncons (h : Value.Hereditary P) (operator : String) {args : List Value}
    (known : ∀ x ∈ args, P x) :
    Checks P (fun p => P p.1 ∧ ∀ x ∈ p.2, P x) (uncons operator args) := by
  refine (checks_single operator known).bind fun v only => ?_
  refine (checks_expectList h only).bind fun items each => ?_
  cases items with
  | nil => exact .error (.arity _)
  | cons first rest => exact .ok (List.forall_mem_cons.1 each)

theorem checks_consValue (h : Value.Hereditary P) {args : List Value} (known : ∀ x ∈ args, P x) :
    Checks P P (consValue args) := by
  unfold consValue
  split
  · simp only [List.forall_mem_cons] at known
    refine (checks_expectList h known.2.1).map fun items each => ?_
    exact h.list.2 (List.forall_mem_cons.2 ⟨known.1, each⟩)
  · exact .error (.arity _)

/-- Only arithmetic makes values that are not made of the arguments, and these are numbers. -/
theorem checks_primitive (h : Value.Hereditary P) (p : Primitive) {args : List Value}
    (known : ∀ x ∈ args, P x) : Checks P (UpToIntegers P) (p.apply args) := by
  cases p with
  | add => exact (checks_numbers known).map fun ns _ => upToIntegers_sum h ns
  | sub => exact (checks_someNumbers _ known).map fun ns _ => upToIntegers_difference h ns
  | mul => exact (checks_numbers known).map fun ns _ => upToIntegers_product h ns
  | div => exact (checks_someNumbers _ known).bind fun ns _ => checks_quotient h ns
  | equal | less | lessEq | greater | greaterEq =>
      exact (checks_numbers known).map fun ns _ _ => h.bool _
  | conj | disj => exact (checks_allBools known).map fun bs _ _ => h.bool _
  | negate => exact (checks_single _ known).map fun v _ _ => h.bool _
  | list => exact .ok fun _ => h.list.2 known
  | car => exact (checks_uncons h _ known).map fun p each _ => each.1
  | cdr => exact (checks_uncons h _ known).map fun p each _ => h.list.2 each.2
  | cons => exact (checks_consValue h known).imp fun v holds _ => holds
  | isEmpty =>
      refine (checks_single _ known).bind fun v only => ?_
      exact (checks_expectList h only).bind fun items _ => .ok fun _ => h.bool _

/-! Operands and bindings -/

theorem forall_operands (h : Value.Hereditary P) {form : Value} (known : P form) :
    ∀ x ∈ operands form, P x := by
  unfold operands
  split
  · exact (List.forall_mem_cons.1 (h.list.1 known)).2
  · exact List.forall_mem_nil _

theorem mem_setBinding {name : String} {v : Value} {bindings : List (String × Value)}
    {b : String × Value} (member : b ∈ setBinding name v bindings) : b.2 = v ∨ b ∈ bindings := by
  induction bindings with
  | nil =>
      obtain rfl := List.mem_singleton.1 member
      exact .inl rfl
  | cons first rest ih =>
      obtain ⟨n, u⟩ := first
      by_cases same : n = name
      · rcases List.mem_cons.1 (by simpa [setBinding, same] using member) with rfl | old
        · exact .inl rfl
        · exact .inr (List.mem_cons_of_mem _ old)
      · rcases List.mem_cons.1 (by simpa [setBinding, same] using member) with rfl | later
        · exact .inr List.mem_cons_self
        · exact (ih later).imp_right (List.mem_cons_of_mem _)

theorem forall_setBinding {name : String} {v : Value} {bindings : List (String × Value)}
    (known : P v) (old : ∀ b ∈ bindings, P b.2) : ∀ b ∈ setBinding name v bindings, P b.2 := by
  intro b member
  rcases mem_setBinding member with same | before
  · rw [same]
    exact known
  · exact old b before

variable {Q : Value → Prop}

/-- Arguments become values of bindings; it is the parameters that can be wrong. -/
theorem checks_bindNames {params args : List Value} {start : List (String × Value)}
    (old : ∀ b ∈ start, P b.2) (names : ∀ x ∈ params, Q x) (known : ∀ x ∈ args, P x) :
    Checks Q (fun bindings => ∀ b ∈ bindings, P b.2) (bindNames start params args) := by
  induction params generalizing start args with
  | nil => exact .ok old
  | cons p ps ih =>
      rw [List.forall_mem_cons] at names
      cases args with
      | nil => exact .ok old
      | cons a as =>
          rw [List.forall_mem_cons] at known
          have name := checks_expectSymbol names.1
          rw [bindNames]
          generalize p.expectSymbol = r at name
          cases name with
          | ok _ => exact ih (forall_setBinding known.1 old) names.2 known.2
          | error about => exact .error about

theorem checks_bindParams (h : Value.Hereditary Q) {params : Value} {args : List Value}
    (names : Q params) (known : ∀ x ∈ args, P x) :
    Checks Q (fun bindings => ∀ b ∈ bindings, P b.2) (bindParams params args) := by
  have list := checks_expectList h names
  unfold bindParams
  generalize params.expectList = r at list
  cases list with
  | error about => exact .error about
  | ok each =>
      dsimp only
      split
      · exact checks_bindNames (by simp) each known
      · exact .error (.arity _)

/-! Names and templates -/

variable {s : Store} {env : FrameId}

theorem checks_lookup (chain : ∀ name v, s.lookup? env name = some v → P v) (name : String) :
    Checks P P (s.lookup env name) := by
  unfold Store.lookup
  split
  · next found => exact .ok (chain name _ found)
  · exact .error (.unbound name)

namespace Template

theorem checks_ofItems (items : List Value) : Checks P (fun _ => True) (Mark.ofItems items) := by
  unfold Mark.ofItems
  split
  · split
    · exact .ok trivial
    · split
      · exact .ok trivial
      · exact .error (.arity _)
  · exact .ok trivial

theorem of_unquoted (chain : ∀ name v, s.lookup? env name = some v → P v) (name : String)
    {items : List Value} (known : P (.list items)) : P (unquoted s env name items) := by
  unfold unquoted
  cases found : s.lookup? env name with
  | none => exact known
  | some v => exact chain name v found

theorem checks_spliced (h : Value.Hereditary P) (own : ∀ name v, s.local? env name = some v → P v)
    (name : String) : Checks P (fun items => ∀ x ∈ items, P x) (spliced s env name) := by
  unfold spliced
  split
  · next found => exact .ok (h.list.1 (own name _ found))
  · exact .ok (by simp)
  · exact .error (.unbound name)

mutual

theorem checks_element (h : Value.Hereditary P)
    (chain : ∀ name v, s.lookup? env name = some v → P v)
    (own : ∀ name v, s.local? env name = some v → P v) (v : Value) (known : P v) :
    Checks P (fun items => ∀ x ∈ items, P x) (element s env v) := by
  cases v with
  | list parts =>
      have mark := checks_ofItems (P := P) parts
      rw [element]
      generalize Mark.ofItems parts = r at mark
      cases mark with
      | error about => exact .error about
      | @ok found _ =>
          match found with
          | some (.unquote, name) =>
              exact .ok (List.forall_mem_singleton.2 (of_unquoted chain name known))
          | some (.splice, name) => exact checks_spliced h own name
          | none =>
              refine (checks_elements h chain own parts (h.list.1 known)).map fun vs each => ?_
              exact List.forall_mem_singleton.2 (h.list.2 each)
  | _ => exact .ok (List.forall_mem_singleton.2 known)

theorem checks_elements (h : Value.Hereditary P)
    (chain : ∀ name v, s.lookup? env name = some v → P v)
    (own : ∀ name v, s.local? env name = some v → P v) (vs : List Value) (known : ∀ v ∈ vs, P v) :
    Checks P (fun items => ∀ x ∈ items, P x) (elements s env vs) := by
  cases vs with
  | nil => exact .ok (by simp)
  | cons v vs =>
      rw [List.forall_mem_cons] at known
      have later := checks_elements h chain own vs known.2
      rw [elements]
      generalize elements s env vs = r at later
      cases later with
      | error about => exact .error about
      | ok rest =>
          refine (checks_element h chain own v known.1).map fun front first => ?_
          exact List.forall_mem_append.2 ⟨first, rest⟩

end

theorem checks_expand (h : Value.Hereditary P) (chain : ∀ name v, s.lookup? env name = some v → P v)
    (own : ∀ name v, s.local? env name = some v → P v) {template : Value} (known : P template) :
    Checks P P (expand s env template) := by
  cases template with
  | list items =>
      have mark := checks_ofItems (P := P) items
      rw [expand]
      generalize Mark.ofItems items = r at mark
      cases mark with
      | error about => exact .error about
      | @ok found _ =>
          match found with
          | some (.unquote, name) => exact .ok (of_unquoted chain name known)
          | some (.splice, name) => exact (checks_spliced h own name).map fun vs each => h.list.2 each
          | none =>
              exact (checks_elements h chain own items (h.list.1 known)).map fun vs each => h.list.2 each
  | _ => exact .ok known

end Template

end

end MiniLisp
