import MiniLisp.Primitive.Apply

/-!
Calls of arithmetic and of comparison. What is wrong with a call is said without the checks that
find it: each call has at most one fault, a call fails exactly with its fault, and a call without
fault gives a number of the kind of its arguments, or a truth value.
-/

namespace MiniLisp

namespace Primitive

def arithmetic : List Primitive := [.add, .sub, .mul, .div]

def comparisons : List Primitive := [.equal, .less, .lessEq, .greater, .greaterEq]

end Primitive

namespace Value

def IsNumber (v : Value) : Prop := v.kind? = some .number ∨ v.kind? = some .float

/-- A zero, of either sign. -/
def IsZero : Value → Prop
  | .int n => n = 0
  | .float x => (x == 0.0) = true
  | _ => False

end Value

/-- What is wrong with a call of a primitive on numbers. Of the arguments after the first, the
leftmost of another kind is reported. -/
inductive NumericFault (p : Primitive) : List Value → Error → Prop
  | noArguments : p = .sub ∨ p = .div → NumericFault p [] (.arity (.atLeastOne p.name))
  | notNumber {v rest} : ¬ v.IsNumber → NumericFault p (v :: rest) (.typeMismatch (some .float) v)
  | otherKind {v rest kind got} : v.IsNumber → v.kind? = some kind →
      rest.find? (fun u => u.kind? ≠ some kind) = some got →
      NumericFault p (v :: rest) (.typeMismatch (some kind) got)
  | zeroDivisor {v rest kind} : p = .div → v.IsNumber → v.kind? = some kind →
      (∀ u ∈ rest, u.kind? = some kind) → (∃ d ∈ rest, d.IsZero) →
      NumericFault p (v :: rest) .divisionByZero

/-- No call has two faults. -/
theorem NumericFault.unique {p : Primitive} {args : List Value} {e f : Error}
    (he : NumericFault p args e) (hf : NumericFault p args f) : e = f := by
  have clash {rest : List Value} {kind : Kind} {got : Value}
      (stray : rest.find? (fun u => u.kind? ≠ some kind) = some got)
      (each : ∀ u ∈ rest, u.kind? = some kind) : False := by
    have other := List.find?_some stray
    simp [each got (List.mem_of_find?_eq_some stray)] at other
  cases he with
  | noArguments =>
      cases hf with
      | noArguments => rfl
  | notNumber not =>
      cases hf with
      | notNumber => rfl
      | otherKind number => exact absurd number not
      | zeroDivisor _ number => exact absurd number not
  | otherKind number kind stray =>
      cases hf with
      | notNumber not => exact absurd number not
      | otherKind _ kind' stray' =>
          obtain rfl := Option.some.inj (kind.symm.trans kind')
          rw [Option.some.inj (stray.symm.trans stray')]
      | zeroDivisor _ _ kind' each =>
          obtain rfl := Option.some.inj (kind.symm.trans kind')
          exact (clash stray each).elim
  | zeroDivisor _ number kind each =>
      cases hf with
      | notNumber not => exact absurd number not
      | otherKind _ kind' stray =>
          obtain rfl := Option.some.inj (kind.symm.trans kind')
          exact (clash stray each).elim
      | zeroDivisor => rfl

/-- Arguments of one kind of number leave only the faults that are not about kinds. -/
theorem NumericFault.of_uniform {p : Primitive} {args : List Value} {kind : Kind} {e : Error}
    (h : NumericFault p args e) (isKind : kind = .number ∨ kind = .float)
    (each : ∀ u ∈ args, u.kind? = some kind) :
    (args = [] ∧ (p = .sub ∨ p = .div)) ∨ (p = .div ∧ ∃ d ∈ args.tail, d.IsZero) := by
  cases h with
  | noArguments operator => exact Or.inl ⟨rfl, operator⟩
  | @notNumber v rest not =>
      refine absurd ?_ not
      rw [Value.IsNumber, each v List.mem_cons_self, Option.some.injEq, Option.some.injEq]
      exact isKind
  | @otherKind v rest kind' got _ first stray =>
      obtain rfl := Option.some.inj ((each v List.mem_cons_self).symm.trans first)
      have other := List.find?_some stray
      simp [each got (List.mem_cons_of_mem v (List.mem_of_find?_eq_some stray))] at other
  | zeroDivisor operator _ _ _ zero => exact Or.inr ⟨operator, zero⟩

/-! Gathering the numbers -/

namespace Numbers

def kind : Numbers → Kind
  | .ints _ => .number
  | .floats _ => .float

def values : Numbers → List Value
  | .ints ns => ns.map .int
  | .floats xs => xs.map .float

theorem kind?_of_mem_values {ns : Numbers} {v : Value} (h : v ∈ ns.values) : v.kind? = some ns.kind := by
  cases ns with
  | ints ns =>
      obtain ⟨n, _, rfl⟩ := List.mem_map.1 h
      rfl
  | floats xs =>
      obtain ⟨x, _, rfl⟩ := List.mem_map.1 h
      rfl

theorem kind_cases (ns : Numbers) : ns.kind = .number ∨ ns.kind = .float := by
  cases ns with
  | ints ns => exact Or.inl rfl
  | floats xs => exact Or.inr rfl

end Numbers

/-- How values of one kind are gathered: all of them, or the leftmost other one is refused. -/
inductive Gathers {α : Type} (kind : Kind) (make : α → Value) :
    List Value → Except Error (List α) → Prop
  | all (xs : List α) : Gathers kind make (xs.map make) (.ok xs)
  | stray {args : List Value} {got : Value} : args.find? (fun u => u.kind? ≠ some kind) = some got →
      Gathers kind make args (fail (.typeMismatch (some kind) got))

namespace Gathers

variable {α : Type} {kind : Kind} {make : α → Value}

theorem cons {args : List Value} {r : Except Error (List α)} (h : Gathers kind make args r) (x : α)
    (isKind : (make x).kind? = some kind) : Gathers kind make (make x :: args) (r.map (x :: ·)) := by
  cases h with
  | all xs => exact .all (x :: xs)
  | stray found => exact .stray (by rw [List.find?_cons_of_neg (by simp [isKind]), found])

theorem other {v : Value} (h : v.kind? ≠ some kind) (args : List Value) :
    Gathers kind make (v :: args) (fail (.typeMismatch (some kind) v)) :=
  .stray (List.find?_cons_of_pos (by simp [h]))

end Gathers

theorem gathers_allInts (args : List Value) : Gathers .number .int args (allInts args) := by
  induction args with
  | nil => exact .all []
  | cons v args ih =>
      cases v with
      | int n => exact ih.cons n rfl
      | proc kind _ _ _ => cases kind <;> exact .other (by simp [Value.kind?]) args
      | _ => exact .other (by simp [Value.kind?]) args

theorem gathers_allFloats (args : List Value) : Gathers .float .float args (allFloats args) := by
  induction args with
  | nil => exact .all []
  | cons v args ih =>
      cases v with
      | float x => exact ih.cons x rfl
      | proc kind _ _ _ => cases kind <;> exact .other (by simp [Value.kind?]) args
      | _ => exact .other (by simp [Value.kind?]) args

/-- What arithmetic gives for these arguments: an integer if all of them are integers. -/
def sharedKind (args : List Value) : Kind :=
  if ∀ v ∈ args, v.kind? = some .number then .number else .float

/-- The numbers of an argument list, or the fault that every primitive finds in it. -/
theorem numbers_cases (args : List Value) :
    (∃ ns, numbers args = .ok ns ∧ ns.values = args ∧ ns.kind = sharedKind args) ∨
      ∃ e, numbers args = fail e ∧ args ≠ [] ∧ ∀ p, NumericFault p args e := by
  cases args with
  | nil => exact Or.inl ⟨.ints [], rfl, rfl, rfl⟩
  | cons v rest =>
      cases v with
      | int n =>
          have gathered := gathers_allInts rest
          rw [numbers]
          generalize allInts rest = r at gathered
          cases gathered with
          | all ns => exact Or.inl ⟨.ints (n :: ns), rfl, rfl, by simp [sharedKind, Numbers.kind, Value.kind?]⟩
          | stray found =>
              exact Or.inr ⟨_, rfl, List.cons_ne_nil _ _, fun _ => .otherKind (Or.inl rfl) rfl found⟩
      | float x =>
          have gathered := gathers_allFloats rest
          rw [numbers]
          generalize allFloats rest = r at gathered
          cases gathered with
          | all xs => exact Or.inl ⟨.floats (x :: xs), rfl, rfl, by simp [sharedKind, Numbers.kind, Value.kind?]⟩
          | stray found =>
              exact Or.inr ⟨_, rfl, List.cons_ne_nil _ _, fun _ => .otherKind (Or.inr rfl) rfl found⟩
      | proc kind _ _ _ =>
          refine Or.inr ⟨_, rfl, List.cons_ne_nil _ _, fun _ => .notNumber ?_⟩
          cases kind <;> simp [Value.IsNumber, Value.kind?]
      | _ =>
          refine Or.inr ⟨_, rfl, List.cons_ne_nil _ _, fun _ => .notNumber ?_⟩
          simp [Value.IsNumber, Value.kind?]

/-! Computing with them -/

theorem kind?_sum (ns : Numbers) : (sum ns).kind? = some ns.kind := by
  cases ns <;> rfl

theorem kind?_product (ns : Numbers) : (product ns).kind? = some ns.kind := by
  cases ns <;> rfl

theorem kind?_difference (ns : Numbers) : (difference ns).kind? = some ns.kind := by
  unfold difference
  split <;> rfl

theorem divideInts_eq (n : Int) (ds : List Int) :
    divideInts n ds = if 0 ∈ ds then fail .divisionByZero else .ok (ds.foldl Int.fdiv n) := by
  induction ds generalizing n with
  | nil => rfl
  | cons d ds ih =>
      rw [divideInts, ih]
      by_cases zero : d = 0
      · simp [zero]
      · simp [zero, Ne.symm zero]

theorem divideFloats_eq (x : Float) (ds : List Float) :
    divideFloats x ds = if ds.any (· == 0.0) then fail .divisionByZero else .ok (ds.foldl (· / ·) x) := by
  induction ds generalizing x with
  | nil => rfl
  | cons d ds ih =>
      rw [divideFloats, ih]
      by_cases zero : (d == 0.0) = true
      · simp [zero]
      · simp [zero]

theorem quotient_cases (ns : Numbers) :
    (∃ v, quotient ns = .ok v ∧ v.kind? = some ns.kind ∧ ∀ d ∈ ns.values.tail, ¬ d.IsZero) ∨
      (quotient ns = fail .divisionByZero ∧ ∃ d ∈ ns.values.tail, d.IsZero) := by
  cases ns with
  | ints ns =>
      cases ns with
      | nil => exact Or.inl ⟨_, rfl, rfl, List.forall_mem_nil _⟩
      | cons n ds =>
          rw [quotient, divideInts_eq]
          by_cases zero : 0 ∈ ds
          · rw [if_pos zero]
            exact Or.inr ⟨rfl, .int 0, List.mem_map_of_mem zero, rfl⟩
          · rw [if_neg zero]
            refine Or.inl ⟨_, rfl, rfl, ?_⟩
            intro v hv isZero
            obtain ⟨d, hd, rfl⟩ := List.mem_map.1 hv
            obtain rfl : d = 0 := isZero
            exact zero hd
  | floats xs =>
      cases xs with
      | nil => exact Or.inl ⟨_, rfl, rfl, List.forall_mem_nil _⟩
      | cons x ds =>
          rw [quotient, divideFloats_eq]
          by_cases zero : ds.any (· == 0.0) = true
          · rw [if_pos zero]
            obtain ⟨d, hd, isZero⟩ := List.any_eq_true.1 zero
            exact Or.inr ⟨rfl, .float d, List.mem_map_of_mem hd, isZero⟩
          · rw [if_neg zero]
            refine Or.inl ⟨_, rfl, rfl, ?_⟩
            intro v hv isZero
            obtain ⟨d, hd, rfl⟩ := List.mem_map.1 hv
            exact zero (List.any_eq_true.2 ⟨d, hd, isZero⟩)

/-! Calls -/

/-- The kind of the result of a call without fault. -/
def Primitive.GivesKind (p : Primitive) (args : List Value) (v : Value) : Prop :=
  (p ∈ arithmetic → v.kind? = some (sharedKind args)) ∧ (p ∈ comparisons → v.kind? = some .bool)

/-- A call has no fault and gives a value of the right kind, or it fails with its fault. -/
inductive Decided (p : Primitive) (args : List Value) : Except Error Value → Prop
  | result {v} : (∀ e, ¬ NumericFault p args e) → p.GivesKind args v → Decided p args (.ok v)
  | fault {e} : NumericFault p args e → Decided p args (fail e)

theorem NumericFault.zero {p : Primitive} (operator : p = .div) {ns : Numbers}
    (zero : ∃ d ∈ ns.values.tail, d.IsZero) : NumericFault p ns.values .divisionByZero := by
  have isKind : ∀ v ∈ ns.values, v.kind? = some ns.kind := fun v hv => Numbers.kind?_of_mem_values hv
  cases values : ns.values with
  | nil =>
      rw [values] at zero
      obtain ⟨d, absent, _⟩ := zero
      cases absent
  | cons v rest =>
      rw [values] at zero isKind
      obtain ⟨first, each⟩ := List.forall_mem_cons.1 isKind
      have number : v.IsNumber := by
        rw [Value.IsNumber, first, Option.some.injEq, Option.some.injEq]
        exact ns.kind_cases
      exact .zeroDivisor operator number first each zero

/-- A call that goes through its numbers is decided once it is decided for numbers. -/
theorem decided_of_numbers {p : Primitive} {args : List Value} {r : Except Error Value}
    (operands : args = [] → p ≠ .sub ∧ p ≠ .div) (refused : ∀ e, numbers args = fail e → r = fail e)
    (done : ∀ ns, numbers args = .ok ns → ns.values = args → ns.kind = sharedKind args →
      (∃ v, r = .ok v ∧ p.GivesKind args v ∧ (p = .div → ∀ d ∈ args.tail, ¬ d.IsZero)) ∨
        (r = fail .divisionByZero ∧ p = .div ∧ ∃ d ∈ args.tail, d.IsZero)) :
    Decided p args r := by
  obtain ⟨ns, eq, rfl, kind⟩ | ⟨e, eq, _, fault⟩ := numbers_cases args
  · obtain ⟨v, rfl, gives, noZero⟩ | ⟨rfl, operator, zero⟩ := done ns eq rfl kind
    · refine .result ?_ gives
      intro e fault
      have left := fault.of_uniform ns.kind_cases fun u hu => Numbers.kind?_of_mem_values hu
      rcases left with ⟨empty, rfl | rfl⟩ | ⟨operator, d, hd, zero⟩
      · exact (operands empty).1 rfl
      · exact (operands empty).2 rfl
      · exact noZero operator d hd zero
    · exact .fault (.zero operator zero)
  · rw [refused e eq]
    exact .fault (fault p)

theorem decided_map {p : Primitive} {args : List Value} {f : Numbers → Value} (noDivision : p ≠ .div)
    (operands : args = [] → p ≠ .sub) (gives : ∀ ns, ns.kind = sharedKind args → p.GivesKind args (f ns)) :
    Decided p args ((numbers args).map f) := by
  refine decided_of_numbers (fun empty => ⟨operands empty, noDivision⟩) ?_ ?_
  · intro e refused
    rw [refused]
    rfl
  · intro ns eq _ kind
    refine Or.inl ⟨f ns, ?_, gives ns kind, fun operator => absurd operator noDivision⟩
    rw [eq]
    rfl

theorem givesKind_arithmetic {p : Primitive} (h : p ∉ Primitive.comparisons) {ns : Numbers} {v : Value}
    (isKind : v.kind? = some ns.kind) {args : List Value} (shared : ns.kind = sharedKind args) :
    p.GivesKind args v :=
  ⟨fun _ => isKind.trans (congrArg some shared), fun comparison => absurd comparison h⟩

theorem givesKind_comparison {p : Primitive} (h : p ∉ Primitive.arithmetic) (args : List Value) (b : Bool) :
    p.GivesKind args (.bool b) :=
  ⟨fun arithmetic => absurd arithmetic h, fun _ => rfl⟩

theorem someNumbers_of_ne_nil (operator : String) {args : List Value} (h : args ≠ []) :
    someNumbers operator args = numbers args := by
  rw [someNumbers, List.isEmpty_eq_false_iff.2 h]
  rfl

theorem decided_difference (args : List Value) : Decided .sub args (Primitive.sub.apply args) := by
  by_cases empty : args = []
  · subst empty
    exact .fault (.noArguments (Or.inl rfl))
  · rw [Primitive.apply, someNumbers_of_ne_nil "-" empty]
    exact decided_map (by decide) (fun h => absurd h empty)
      fun ns kind => givesKind_arithmetic (by decide) (kind?_difference ns) kind

theorem decided_quotient (args : List Value) : Decided .div args (Primitive.div.apply args) := by
  by_cases empty : args = []
  · subst empty
    exact .fault (.noArguments (Or.inr rfl))
  · rw [Primitive.apply, someNumbers_of_ne_nil "/" empty]
    refine decided_of_numbers (fun h => absurd h empty) ?_ ?_
    · intro e refused
      rw [refused]
      rfl
    · rintro ns eq rfl kind
      rw [eq]
      obtain ⟨v, done, isKind, noZero⟩ | ⟨refused, zero⟩ := quotient_cases ns
      · exact Or.inl ⟨v, done, givesKind_arithmetic (by decide) isKind kind, fun _ => noZero⟩
      · exact Or.inr ⟨refused, rfl, zero⟩

theorem decided_apply {p : Primitive} (numeric : p ∈ Primitive.arithmetic ∨ p ∈ Primitive.comparisons)
    (args : List Value) : Decided p args (p.apply args) := by
  cases p with
  | add =>
      exact decided_map (by decide) (fun _ => by decide)
        fun ns kind => givesKind_arithmetic (by decide) (kind?_sum ns) kind
  | mul =>
      exact decided_map (by decide) (fun _ => by decide)
        fun ns kind => givesKind_arithmetic (by decide) (kind?_product ns) kind
  | sub => exact decided_difference args
  | div => exact decided_quotient args
  | equal | less | lessEq | greater | greaterEq =>
      exact decided_map (by decide) (fun _ => by decide)
        fun _ _ => givesKind_comparison (by decide) args _
  | _ => exact absurd numeric (by decide)

theorem NumericFault.reported_eq {p : Primitive} {args : List Value} {e : Error} (h : NumericFault p args e)
    (printable : ∀ kind v, NumericFault p args (.typeMismatch kind v) → v.printable = true) :
    e.reported = e := by
  have shown : e.printable = true := by
    cases h with
    | noArguments => rfl
    | notNumber not => exact printable _ _ (.notNumber not)
    | otherKind number first stray => exact printable _ _ (.otherKind number first stray)
    | zeroDivisor => rfl
  rw [Error.reported, if_pos shown]

/-- A call of a primitive on numbers fails exactly with its fault, as long as the value that the
fault is about can be printed; and a call without fault gives a number of the arguments' kind, or a
truth value. -/
theorem numeric_calls_decided {p : Primitive} (numeric : p ∈ Primitive.arithmetic ∨ p ∈ Primitive.comparisons)
    (args : List Value)
    (printable : ∀ kind v, NumericFault p args (.typeMismatch kind v) → v.printable = true) :
    (∀ e, p.apply args = .error e ↔ NumericFault p args e) ∧
      ((∀ e, ¬ NumericFault p args e) → ∃ v, p.apply args = .ok v ∧
        (p ∈ Primitive.arithmetic → v.kind? = some (sharedKind args)) ∧
        (p ∈ Primitive.comparisons → v.kind? = some .bool)) := by
  have decided := decided_apply numeric args
  generalize p.apply args = r at decided
  cases decided with
  | @result v noFault gives =>
      refine ⟨fun e => ⟨?_, fun fault => absurd fault (noFault e)⟩, fun _ => ⟨v, rfl, gives⟩⟩
      intro failed
      cases failed
  | @fault e fault =>
      have same : fail (α := Value) e = .error e := congrArg Except.error (fault.reported_eq printable)
      rw [same]
      refine ⟨fun f => ⟨?_, ?_⟩, fun noFault => absurd fault (noFault e)⟩
      · intro failed
        cases failed
        exact fault
      · intro other
        rw [fault.unique other]

/-- A zero divisor, a float among integers and a truth value: the float stands first. -/
theorem numeric_calls_decided_three :
    let args : List Value := [.int 1, .int 0, .float 2.5, .bool true]
    Primitive.div ∈ Primitive.arithmetic ∧
      (∀ kind v, NumericFault .div args (.typeMismatch kind v) → v.printable = true) ∧
      Primitive.div.apply args = .error (.typeMismatch (some .number) (.float 2.5)) := by
  intro args
  have known : NumericFault .div args (.typeMismatch (some .number) (.float 2.5)) :=
    .otherKind (Or.inl rfl) rfl rfl
  have printable : ∀ kind v, NumericFault .div args (.typeMismatch kind v) → v.printable = true := by
    intro kind v fault
    cases known.unique fault
    rfl
  have decided := numeric_calls_decided (Or.inl (by decide)) args printable
  exact ⟨by decide, printable, (decided.1 _).2 known⟩

end MiniLisp
