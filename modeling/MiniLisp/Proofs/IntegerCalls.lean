import Mathlib.Data.Rat.Floor
import Mathlib.Data.List.Chain
import MiniLisp.Proofs.NumericCalls

/-!
Calls on integers. Division by several numbers rounds in every step and yet, when the later ones are
positive, gives what one division by their product gives. A comparison looks at neighbours only and yet
decides all pairs.
-/

namespace MiniLisp

theorem allInts_map_int (ns : List Int) : allInts (ns.map .int) = .ok ns := by
  induction ns with
  | nil => rfl
  | cons n ns ih =>
      rw [List.map_cons, allInts, ih]
      rfl

theorem numbers_map_int (ns : List Int) : numbers (ns.map .int) = .ok (.ints ns) := by
  cases ns with
  | nil => rfl
  | cons n ns =>
      rw [List.map_cons, numbers, allInts_map_int]
      rfl

/-! Division -/

/-- The number divided by each divisor in turn, every quotient rounded down. -/
def floorQuotient (n : Int) (ds : List Int) : Int :=
  ds.foldl (fun (q d : Int) => ⌊(q : Rat) / d⌋) n

theorem fdiv_eq_floor (a b : Int) : a.fdiv b = ⌊(a : Rat) / b⌋ := by
  have nonneg (a b : Int) (h : 0 ≤ b) : a.fdiv b = ⌊(a : Rat) / b⌋ := by
    rw [Int.fdiv_eq_ediv_of_nonneg a h, Int.floor_div_cast_of_nonneg h, Int.floor_intCast]
  rcases Int.le_total 0 b with h | h
  · exact nonneg a b h
  -- changing both signs changes neither side
  · calc a.fdiv b = (-a).fdiv (-b) := (Int.neg_fdiv_neg a b).symm
      _ = ⌊((-a : Int) : Rat) / (-b : Int)⌋ := nonneg (-a) (-b) (by omega)
      _ = ⌊(a : Rat) / b⌋ := by rw [Int.cast_neg, Int.cast_neg, neg_div_neg_eq]

theorem foldl_fdiv_eq_floorQuotient (n : Int) (ds : List Int) : ds.foldl Int.fdiv n = floorQuotient n ds := by
  have step : Int.fdiv = fun (q d : Int) => ⌊(q : Rat) / d⌋ := by
    funext q d
    exact fdiv_eq_floor q d
  rw [floorQuotient, step]

/-- Rounding before a division by a positive number is not seen once the quotient is rounded. -/
theorem floor_floor_div (x : Rat) {d : Int} (pos : 0 < d) : ⌊(⌊x⌋ : Rat) / d⌋ = ⌊x / d⌋ := by
  rw [Int.floor_div_cast_of_nonneg pos.le, Int.floor_div_cast_of_nonneg pos.le, Int.floor_intCast]

/-- The running quotient is the floor of the exact one. -/
theorem floorQuotient_floor (x : Rat) {ds : List Int} (pos : ∀ d ∈ ds, 0 < d) :
    floorQuotient ⌊x⌋ ds = ⌊x / (ds.prod : Int)⌋ := by
  -- the exact quotient varies with the divisors that are left: a step goes on from `x / d`
  induction ds generalizing x with
  | nil => simp [floorQuotient]
  | cons d ds ih =>
      obtain ⟨first, later⟩ := List.forall_mem_cons.1 pos
      calc floorQuotient ⌊x⌋ (d :: ds) = floorQuotient ⌊(⌊x⌋ : Rat) / d⌋ ds := rfl
        _ = floorQuotient ⌊x / d⌋ ds := by rw [floor_floor_div x first]
        _ = ⌊x / d / (ds.prod : Int)⌋ := ih (x / d) later
        _ = ⌊x / ((d :: ds).prod : Int)⌋ := by rw [div_div, List.prod_cons, Int.cast_mul]

/-- The first divisor may be negative: its quotient is the exact one that the others start from. -/
theorem floorQuotient_eq_floor (a b : Int) {ds : List Int} (pos : ∀ d ∈ ds, 0 < d) :
    floorQuotient a (b :: ds) = ⌊(a : Rat) / ((b :: ds).prod : Int)⌋ := by
  have rest := floorQuotient_floor ((a : Rat) / b) pos
  rw [div_div, ← Int.cast_mul, ← List.prod_cons] at rest
  exact rest

theorem floorQuotient_perm (n : Int) {ds es : List Int} (pos : ∀ d ∈ ds, 0 < d) (same : ds.Perm es) :
    floorQuotient n es = floorQuotient n ds := by
  have posOther : ∀ d ∈ es, 0 < d := fun d hd => pos d (same.mem_iff.2 hd)
  have whole := floorQuotient_floor (n : Rat) pos
  have other := floorQuotient_floor (n : Rat) posOther
  rw [Int.floor_intCast] at whole other
  rw [whole, other, same.prod_eq]

theorem div_map_int (n : Int) {ds : List Int} (nonzero : ∀ d ∈ ds, d ≠ 0) :
    Primitive.div.apply ((n :: ds).map .int) = .ok (.int (floorQuotient n ds)) := by
  have absent : 0 ∉ ds := fun mem => nonzero 0 mem rfl
  have gathered : someNumbers "/" ((n :: ds).map .int) = .ok (.ints (n :: ds)) := by
    rw [someNumbers_of_ne_nil "/" (by simp), numbers_map_int]
  rw [Primitive.apply, gathered]
  change quotient (.ints (n :: ds)) = _
  rw [quotient, divideInts_eq, if_neg absent, foldl_fdiv_eq_floorQuotient]
  rfl

/-- Division by several numbers rounds down in every step. With positive numbers behind the first
divisor it gives the floor of the quotient by the product, and positive divisors may stand in any
order. -/
theorem division_folds_to_one_floor (a b : Int) {ds : List Int} (nonzero : ∀ d ∈ b :: ds, d ≠ 0) :
    Primitive.div.apply ((a :: b :: ds).map .int) = .ok (.int (floorQuotient a (b :: ds))) ∧
    ((∀ d ∈ ds, 0 < d) →
      Primitive.div.apply ((a :: b :: ds).map .int) = .ok (.int ⌊(a : Rat) / ((b :: ds).prod : Int)⌋)) ∧
    ((∀ d ∈ b :: ds, 0 < d) → ∀ es, (b :: ds).Perm es →
      Primitive.div.apply ((a :: es).map .int) = Primitive.div.apply ((a :: b :: ds).map .int)) := by
  have given := div_map_int a nonzero
  refine ⟨given, ?_, ?_⟩
  · intro pos
    rw [given, floorQuotient_eq_floor a b pos]
  · intro pos es same
    have nonzeroOther : ∀ d ∈ es, d ≠ 0 := fun d hd => nonzero d (same.mem_iff.2 hd)
    rw [given, div_map_int a nonzeroOther, floorQuotient_perm a pos same]

/-- A negative first divisor, and a negative number divided in two orders. -/
theorem division_folds_to_one_floor_signs :
    (∀ d ∈ ([-2, 2, 3] : List Int), d ≠ 0) ∧ (∀ d ∈ ([2, 3] : List Int), 0 < d) ∧
      Primitive.div.apply ([7, -2, 2, 3].map .int) = .ok (.int (-1)) ∧
      (∀ d ∈ ([5, 2, 3] : List Int), 0 < d) ∧
      Primitive.div.apply ([-31, 3, 5, 2].map .int) = Primitive.div.apply ([-31, 5, 2, 3].map .int) := by
  have nonzero : ∀ d ∈ ([-2, 2, 3] : List Int), d ≠ 0 := by decide
  have nonzeroAll : ∀ d ∈ ([5, 2, 3] : List Int), d ≠ 0 := by decide
  have pos : ∀ d ∈ ([2, 3] : List Int), 0 < d := by decide
  have posAll : ∀ d ∈ ([5, 2, 3] : List Int), 0 < d := by decide
  have rounded : ⌊((7 : Int) : Rat) / (([-2, 2, 3] : List Int).prod : Int)⌋ = -1 := by decide +kernel
  have whole := (division_folds_to_one_floor 7 (-2) nonzero).2.1 pos
  rw [rounded] at whole
  have ordered := (division_folds_to_one_floor (-31) 5 nonzeroAll).2.2 posAll [3, 5, 2] (by decide)
  exact ⟨nonzero, pos, whole, posAll, ordered⟩

/-- With a negative number behind the first divisor the quotient by the product may be another one. -/
example : Primitive.div.apply ([1, 2, -1].map .int) = .ok (.int 0) ∧ ⌊(1 : Rat) / (2 * -1)⌋ = -1 :=
  ⟨rfl, by decide +kernel⟩

/-! Comparison -/

/-- Which relation a primitive compares by. -/
inductive Compares : Primitive → (Int → Int → Prop) → Prop
  | equal : Compares .equal (· = ·)
  | less : Compares .less (· < ·)
  | lessEq : Compares .lessEq (· ≤ ·)
  | greater : Compares .greater (· > ·)
  | greaterEq : Compares .greaterEq (· ≥ ·)

section Adjacent

variable {α : Type}

theorem adjacent_iff_isChain (r : α → α → Bool) (xs : List α) :
    adjacent r xs = true ↔ xs.IsChain (fun a b => r a b = true) := by
  fun_induction adjacent r xs with
  | case1 => simp
  | case2 a => simp
  | case3 a b rest ih => rw [List.isChain_cons_cons, Bool.and_eq_true, ih]

theorem adjacent_reverse (r : α → α → Bool) (xs : List α) :
    adjacent r xs.reverse = adjacent (fun a b => r b a) xs := by
  rw [Bool.eq_iff_iff, adjacent_iff_isChain, adjacent_iff_isChain, List.isChain_reverse]

/-- A transitive relation between neighbours holds wherever one item stands before another. -/
theorem adjacent_iff_forall_lt {r : α → α → Bool} {rel : α → α → Prop} [Trans rel rel rel]
    (decides : ∀ a b, r a b = true ↔ rel a b) (xs : List α) :
    adjacent r xs = true ↔ ∀ i j : Fin xs.length, i < j → rel (xs.get i) (xs.get j) := by
  have same : (fun a b => r a b = true) = rel := by
    funext a b
    exact propext (decides a b)
  rw [adjacent_iff_isChain, same, List.isChain_iff_pairwise, List.pairwise_iff_get]

end Adjacent

theorem compareWith_map_int (c : Comparison) (ns : List Int) :
    compareWith c (ns.map .int) = .ok (.bool (adjacent c.ints ns)) := by
  rw [compareWith, numbers_map_int]
  rfl

theorem compareWith_decides {c : Comparison} {rel : Int → Int → Prop} [Trans rel rel rel]
    (decides : ∀ a b, c.ints a b = true ↔ rel a b) (ns : List Int) :
    ∃ b, compareWith c (ns.map .int) = .ok (.bool b) ∧
      (b = true ↔ ∀ i j : Fin ns.length, i < j → rel (ns.get i) (ns.get j)) :=
  ⟨adjacent c.ints ns, compareWith_map_int c ns, adjacent_iff_forall_lt decides ns⟩

theorem Compares.decides {p : Primitive} {rel : Int → Int → Prop} (h : Compares p rel) (ns : List Int) :
    ∃ b, p.apply (ns.map .int) = .ok (.bool b) ∧
      (b = true ↔ ∀ i j : Fin ns.length, i < j → rel (ns.get i) (ns.get j)) := by
  cases h with
  | equal | less | lessEq | greater | greaterEq =>
      exact compareWith_decides (fun _ _ => decide_eq_true_iff) ns

/-- A comparison of integers gives `true` exactly when its relation holds between any two of them, the
one before the other; and an ascending list, read from behind, is a descending one. -/
theorem comparison_decides_all_pairs (ns : List Int) :
    (∀ p rel, Compares p rel → ∃ b, p.apply (ns.map .int) = .ok (.bool b) ∧
      (b = true ↔ ∀ i j : Fin ns.length, i < j → rel (ns.get i) (ns.get j))) ∧
    Primitive.less.apply (ns.map .int) = Primitive.greater.apply (ns.reverse.map .int) ∧
    Primitive.lessEq.apply (ns.map .int) = Primitive.greaterEq.apply (ns.reverse.map .int) := by
  refine ⟨fun p rel h => h.decides ns, ?_, ?_⟩
  · simp only [Primitive.apply, compareWith_map_int, adjacent_reverse]
    rfl
  · simp only [Primitive.apply, compareWith_map_int, adjacent_reverse]
    rfl

/-- Numbers in ascending order, two of them equal, and the same numbers from behind. -/
theorem comparison_decides_all_pairs_ascending :
    let ns : List Int := [-4, 2, 2, 7]
    Compares .lessEq (· ≤ ·) ∧ Primitive.lessEq.apply (ns.map .int) = .ok (.bool true) ∧
      Primitive.greaterEq.apply (ns.reverse.map .int) = .ok (.bool true) := by
  intro ns
  obtain ⟨each, _, reversed⟩ := comparison_decides_all_pairs ns
  obtain ⟨b, given, iff⟩ := each .lessEq (· ≤ ·) .lessEq
  have pairs : ∀ i j : Fin ns.length, i < j → ns.get i ≤ ns.get j := by decide
  rw [iff.2 pairs] at given
  exact ⟨.lessEq, given, reversed.symm.trans given⟩

end MiniLisp
