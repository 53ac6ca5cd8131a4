import Mathlib.Data.Nat.Digits.Defs
import Mathlib.Data.List.Forall2
import MiniLisp.Error
import MiniLisp.Proofs.Word

/-!
Integer literals. A digit stands as far behind the zero of its script as it counts, and a literal has
the value that its digits have in base ten, whatever scripts they are from.
-/

namespace MiniLisp

open Text (isDigit digitValue digitValue? digitZeros valueOfDigits)

/-! Digits -/

/-- The character is the digit `d` of a script. -/
def IsDigitOf (c : Char) (d : Nat) : Prop := ∃ z ∈ digitZeros, c.toNat = z + d ∧ d < 10

/-- The digits of two scripts do not overlap. -/
theorem digitZeros_apart :
    ∀ z ∈ digitZeros, ∀ w ∈ digitZeros, z = w ∨ z + 10 ≤ w ∨ w + 10 ≤ z := by decide +kernel

theorem IsDigitOf.unique {c : Char} {d e : Nat} (hd : IsDigitOf c d) (he : IsDigitOf c e) : d = e := by
  obtain ⟨z, hz, eqD, smallD⟩ := hd
  obtain ⟨w, hw, eqE, smallE⟩ := he
  -- one character cannot be a digit of two scripts, so both count from the same zero
  have apart := digitZeros_apart z hz w hw
  omega

theorem IsDigitOf.isDigit {c : Char} {d : Nat} (h : IsDigitOf c d) : isDigit c = true := by
  obtain ⟨z, hz, eq, small⟩ := h
  exact (Text.isDigit_iff c).2 ⟨z, hz, by omega, by omega⟩

theorem isDigitOf_digitValue {c : Char} (h : isDigit c = true) : IsDigitOf c (digitValue c) := by
  obtain ⟨d, known⟩ := Option.isSome_iff_exists.1 h
  rw [digitValue, known, Option.getD_some]
  obtain ⟨z, found, rfl⟩ := Option.map_eq_some_iff.1 known
  have range := List.find?_some found
  simp only [Bool.and_eq_true, decide_eq_true_eq] at range
  exact ⟨z, List.mem_of_find?_eq_some found, by omega, by omega⟩

theorem isDigitOf_iff (c : Char) (d : Nat) : IsDigitOf c d ↔ isDigit c = true ∧ d = digitValue c := by
  constructor
  · intro h
    exact ⟨h.isDigit, h.unique (isDigitOf_digitValue h.isDigit)⟩
  · rintro ⟨digit, rfl⟩
    exact isDigitOf_digitValue digit

theorem forall₂_isDigitOf_iff (row : List Char) (ds : List Nat) :
    List.Forall₂ IsDigitOf row ds ↔ (∀ c ∈ row, isDigit c = true) ∧ ds = row.map digitValue := by
  induction row generalizing ds with
  | nil => simp
  | cons c row ih =>
      cases ds with
      | nil => simp
      | cons d ds =>
          rw [List.forall₂_cons, isDigitOf_iff, ih, List.forall_mem_cons, List.map_cons, List.cons.injEq]
          exact and_and_and_comm

theorem valueOfDigits_eq_ofDigits (row : List Char) :
    valueOfDigits row = Nat.ofDigits 10 (row.map digitValue).reverse := by
  -- the fold from the most significant digit on is the other one over the reversed row
  have step : (fun (n : Nat) (c : Char) => 10 * n + digitValue c) = fun n c => digitValue c + 10 * n := by
    funext n c
    exact Nat.add_comm _ _
  rw [valueOfDigits, step, Nat.ofDigits_eq_foldr, List.foldr_reverse, List.foldl_map]
  rfl

/-! Literals -/

/-- A sign, or none, and the factor it stands for. -/
inductive SignOf : List Char → Int → Prop
  | none : SignOf [] 1
  | plus : SignOf ['+'] 1
  | minus : SignOf ['-'] (-1)

/-- A literal of an integer: behind a sign or none stand its digits, the most significant first. -/
inductive IntegerLiteral : List Char → List Nat → Int → Prop
  | mk {sign factor row ds} : SignOf sign factor → List.Forall₂ IsDigitOf row ds → ds ≠ [] →
      IntegerLiteral (sign ++ row) ds (factor * (Nat.ofDigits 10 ds.reverse : Nat))

namespace SignOf

variable {sign row : List Char} {factor : Int}

theorem splitSign_append (h : SignOf sign factor) (unsigned : Unsigned row) :
    splitSign (sign ++ row) = (decide (factor < 0), row) := by
  cases h with
  | none => exact splitSign_of_unsigned unsigned
  | plus => rfl
  | minus => rfl

theorem signedValue_eq (h : SignOf sign factor) (digits : List Char) :
    signedValue (decide (factor < 0)) digits = factor * valueOfDigits digits := by
  cases h <;> simp [signedValue]

theorem exists_append (cs : List Char) :
    ∃ sign factor, SignOf sign factor ∧ cs = sign ++ (splitSign cs).2 := by
  obtain ⟨sign, rfl | rfl | rfl, eq⟩ := eq_sign_append cs
  · exact ⟨[], 1, .none, eq⟩
  · exact ⟨['+'], 1, .plus, eq⟩
  · exact ⟨['-'], -1, .minus, eq⟩

end SignOf

theorem integerLiteral_iff (cs : List Char) (ds : List Nat) (n : Int) :
    IntegerLiteral cs ds n ↔ IsDigitRow (splitSign cs).2 ∧ ds = (splitSign cs).2.map digitValue ∧
      n = signedValue (splitSign cs).1 (splitSign cs).2 := by
  constructor
  · rintro ⟨hs, hr, ne⟩
    obtain ⟨digits, rfl⟩ := (forall₂_isDigitOf_iff _ ds).1 hr
    have row : IsDigitRow _ := ⟨by simpa using ne, digits⟩
    rw [hs.splitSign_append row.unsigned]
    refine ⟨row, rfl, ?_⟩
    rw [hs.signedValue_eq, valueOfDigits_eq_ofDigits]
  · rintro ⟨row, rfl, rfl⟩
    -- the sign that is split off is the one that stands there, since no digit is a sign
    obtain ⟨sign, factor, hs, eq⟩ := SignOf.exists_append cs
    have split := hs.splitSign_append row.unsigned
    rw [← eq] at split
    have literal := IntegerLiteral.mk hs ((forall₂_isDigitOf_iff _ _).2 ⟨row.digits, rfl⟩) (by simpa using row.ne_nil)
    rw [← eq, ← valueOfDigits_eq_ofDigits, ← hs.signedValue_eq] at literal
    rw [congrArg Prod.fst split]
    exact literal

theorem atomOfChars_of_literal {cs : List Char} {ds : List Nat} {n : Int} (h : IntegerLiteral cs ds n) :
    atomOfChars cs = if ds.length ≤ maxIntegerDigits then .ok (.int n) else .error (.longInteger ds.length) := by
  obtain ⟨row, rfl, rfl⟩ := (integerLiteral_iff cs ds n).1 h
  rw [atomOfChars_of_ne_bool (ne_boolChars_of_isDigitRow row), if_pos ((isDigits_iff _).2 row), List.length_map]

theorem integerText_iff_literal (cs : List Char) : IsIntegerText cs ↔ ∃ ds n, IntegerLiteral cs ds n := by
  rw [integerText_iff, isDigits_iff]
  constructor
  · intro row
    exact ⟨_, _, (integerLiteral_iff cs _ _).2 ⟨row, rfl, rfl⟩⟩
  · rintro ⟨ds, n, literal⟩
    exact ((integerLiteral_iff cs ds n).1 literal).1

/-- How a word is read, as far as integers go. -/
inductive ReadsInteger (cs : List Char) : Except ReadError Value → Prop
  | value {ds n} : IntegerLiteral cs ds n → ds.length ≤ maxIntegerDigits → ReadsInteger cs (.ok (.int n))
  | tooLong {ds n} : IntegerLiteral cs ds n → maxIntegerDigits < ds.length →
      ReadsInteger cs (.error (.longInteger ds.length))
  | other {v} : ¬ IsIntegerText cs → (∀ n, v ≠ .int n) → ReadsInteger cs (.ok v)

theorem readsInteger_of_not_integerText {cs : List Char} (h : ¬ IsIntegerText cs) :
    ReadsInteger cs (atomOfChars cs) := by
  by_cases bool : ∃ b, cs = boolChars b
  · obtain ⟨b, rfl⟩ := bool
    rw [atomOfChars_boolChars]
    exact .other h (by simp)
  · have noRow : ¬ isDigits (splitSign cs).2 = true := fun digits => h ((integerText_iff cs).2 digits)
    rw [atomOfChars_of_ne_bool fun b eq => bool ⟨b, eq⟩, if_neg noRow]
    cases decimalFloat? cs with
    | some x => exact .other h (by simp)
    | none => exact .other h (by simp)

theorem readsInteger_atomOfChars (cs : List Char) : ReadsInteger cs (atomOfChars cs) := by
  by_cases integer : IsIntegerText cs
  · obtain ⟨ds, n, literal⟩ := (integerText_iff_literal cs).1 integer
    rw [atomOfChars_of_literal literal]
    split
    · next short => exact .value literal short
    · next long => exact .tooLong literal (Nat.lt_of_not_le long)
  · exact readsInteger_of_not_integerText integer

theorem atomOfChars_eq_int_iff (cs : List Char) (n : Int) :
    atomOfChars cs = .ok (.int n) ↔ ∃ ds, IntegerLiteral cs ds n ∧ ds.length ≤ maxIntegerDigits := by
  constructor
  · intro read
    have outcome := readsInteger_atomOfChars cs
    rw [read] at outcome
    cases outcome with
    | value literal short => exact ⟨_, literal, short⟩
    | other _ notInt => exact absurd rfl (notInt n)
  · rintro ⟨ds, literal, short⟩
    rw [atomOfChars_of_literal literal, if_pos short]

theorem atomOfChars_eq_error_iff (cs : List Char) (e : ReadError) :
    atomOfChars cs = .error e ↔
      ∃ ds n, IntegerLiteral cs ds n ∧ maxIntegerDigits < ds.length ∧ e = .longInteger ds.length := by
  constructor
  · intro refused
    have outcome := readsInteger_atomOfChars cs
    rw [refused] at outcome
    cases outcome with
    | tooLong literal long => exact ⟨_, _, literal, long, rfl⟩
  · rintro ⟨ds, n, literal, long, rfl⟩
    rw [atomOfChars_of_literal literal, if_neg (Nat.not_le_of_lt long)]

theorem IntegerLiteral.not_decimal {cs : List Char} {ds : List Nat} {n : Int} (h : IntegerLiteral cs ds n) :
    ¬ IsDecimalText cs := by
  obtain ⟨row, _, _⟩ := (integerLiteral_iff cs ds n).1 h
  rw [decimalText_iff, decimalFloat?_of_isDigitRow row]
  exact Bool.false_ne_true

theorem parseAtom_print {n : Int} (short : Decimal.digitCount n.natAbs ≤ maxIntegerDigits) :
    ∃ text, (Value.int n).print = .ok text ∧ parseAtom text = .ok (.int n) := by
  refine ⟨(Value.int n).text, if_pos ((Value.printable_int_iff n).2 short), ?_⟩
  rw [parseAtom, Value.text, String.toList_ofList]
  exact atomOfChars_intChars short

/-- A word is an integer when it is a sign or none and 1 to 4300 digits, and it is refused when it has
more; the value is that of the digits in base ten. No literal of an integer is one of a float, and the
printed form of an integer of at most 4300 digits is a literal of it. -/
theorem integer_literals_positional :
    (∀ (word : String) n, parseAtom word = .ok (.int n) ↔
      ∃ ds, IntegerLiteral word.toList ds n ∧ ds.length ≤ 4300) ∧
    (∀ (word : String) e, parseAtom word = .error e ↔
      ∃ ds n, IntegerLiteral word.toList ds n ∧ 4300 < ds.length ∧ e = .longInteger ds.length) ∧
    (∀ word : String, ¬ ((∃ ds n, IntegerLiteral word.toList ds n) ∧ IsDecimalText word.toList)) ∧
    ∀ n : Int, Decimal.digitCount n.natAbs ≤ 4300 →
      ∃ text, (Value.int n).print = .ok text ∧ parseAtom text = .ok (.int n) := by
  refine ⟨fun word n => atomOfChars_eq_int_iff word.toList n, fun word e => atomOfChars_eq_error_iff word.toList e,
    ?_, fun n short => parseAtom_print short⟩
  rintro word ⟨⟨ds, n, literal⟩, decimal⟩
  exact literal.not_decimal decimal

/-- Digits of three scripts behind a minus, with a zero in front; and zeros alone that are too many. -/
theorem integer_literals_positional_scripts :
    parseAtom "-\u0660\u0969\uFF17" = .ok (.int (-37)) ∧
      parseAtom (String.ofList ('+' :: List.replicate 4301 '0')) = .error (.longInteger 4301) ∧
      Decimal.digitCount (-37 : Int).natAbs ≤ 4300 ∧
      ∃ text, (Value.int (-37)).print = .ok text ∧ parseAtom text = .ok (.int (-37)) := by
  obtain ⟨integer, refused, _, printed⟩ := integer_literals_positional
  have scripts : IntegerLiteral "-\u0660\u0969\uFF17".toList [0, 3, 7] (-37) :=
    .mk .minus ((forall₂_isDigitOf_iff ['\u0660', '\u0969', '\uFF17'] _).2 ⟨List.all_eq_true.1 (by decide), rfl⟩)
      (by decide)
  have zeros (k : Nat) (long : 4300 < k) :
      parseAtom (String.ofList ('+' :: List.replicate k '0')) = .error (.longInteger k) := by
    have digits : ∀ c ∈ List.replicate k '0', isDigit c = true := by
      intro c hc
      rw [List.eq_of_mem_replicate hc]
      rfl
    have row := (forall₂_isDigitOf_iff _ _).2 ⟨digits, rfl⟩
    have literal := IntegerLiteral.mk .plus row (List.ne_nil_of_length_pos (by simp; omega))
    exact (refused _ _).2 ⟨_, _, by simpa using literal, by simpa using long, by simp⟩
  have short : Decimal.digitCount (-37 : Int).natAbs ≤ 4300 := by decide
  exact ⟨(integer _ _).2 ⟨_, scripts, by decide⟩, zeros 4301 (by decide), short, printed (-37) short⟩

end MiniLisp
