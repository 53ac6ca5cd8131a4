import MiniLisp.Source.Atom
import MiniLisp.Source.Token

/-!
Words and what they stand for. The shapes of number literals are said here without the functions
that read them; a word is a symbol exactly when it is no truth value and has none of those shapes,
and an integer that may be printed is read back from its digits.
-/

namespace MiniLisp

open Text (isDigit digitValue digitValue? valueOfDigits)

/-- Characters of a word, at least one. -/
structure IsWord (cs : List Char) : Prop where
  ne_nil : cs ≠ []
  chars : ∀ c ∈ cs, isWordChar c = true

instance (cs : List Char) : Decidable (IsWord cs) :=
  decidable_of_iff (cs ≠ [] ∧ cs.all isWordChar = true)
    ⟨fun h => ⟨h.1, List.all_eq_true.1 h.2⟩, fun h => ⟨h.1, List.all_eq_true.2 h.2⟩⟩

/-- Nothing, a plus or a minus. -/
def IsSign (cs : List Char) : Prop := cs = [] ∨ cs = ['+'] ∨ cs = ['-']

/-- Digits, at least one. -/
structure IsDigitRow (cs : List Char) : Prop where
  ne_nil : cs ≠ []
  digits : ∀ c ∈ cs, isDigit c = true

/-- A row of digits that a sign may precede. -/
def IsIntegerText (cs : List Char) : Prop :=
  ∃ sign row, cs = sign ++ row ∧ IsSign sign ∧ IsDigitRow row

/-- A decimal number without its sign, in one of the four shapes `1.`, `.5`, `1e5` and `1.5e5`. -/
inductive IsUnsignedDecimal : List Char → Prop
  | point {whole fraction} : IsDigitRow whole → (∀ c ∈ fraction, isDigit c = true) →
      IsUnsignedDecimal (whole ++ '.' :: fraction)
  | fraction {row} : IsDigitRow row → IsUnsignedDecimal ('.' :: row)
  | scaled {whole mark exponent} : IsDigitRow whole → mark = 'e' ∨ mark = 'E' →
      IsIntegerText exponent → IsUnsignedDecimal (whole ++ mark :: exponent)
  | pointScaled {whole fraction mark exponent} : IsDigitRow whole →
      (∀ c ∈ fraction, isDigit c = true) → mark = 'e' ∨ mark = 'E' → IsIntegerText exponent →
      IsUnsignedDecimal (whole ++ '.' :: (fraction ++ mark :: exponent))

/-- A decimal number that a sign may precede. -/
def IsDecimalText (cs : List Char) : Prop :=
  ∃ sign rest, cs = sign ++ rest ∧ IsSign sign ∧ IsUnsignedDecimal rest

/-- Neither a truth value nor a number. -/
structure IsSymbolText (cs : List Char) : Prop where
  ne_bool : ∀ b, cs ≠ boolChars b
  not_integer : ¬ IsIntegerText cs
  not_decimal : ¬ IsDecimalText cs

/-! Signs -/

/-- No sign stands in front. -/
def Unsigned (cs : List Char) : Prop := ∀ c ∈ cs.head?, c ≠ '+' ∧ c ≠ '-'

theorem splitSign_of_unsigned {cs : List Char} (h : Unsigned cs) : splitSign cs = (false, cs) := by
  cases cs with
  | nil => rfl
  | cons c cs =>
      obtain ⟨plus, minus⟩ := h c rfl
      simp only [splitSign, plus, minus, if_false]

theorem splitSign_append {sign rest : List Char} (hs : IsSign sign) (h : Unsigned rest) :
    (splitSign (sign ++ rest)).2 = rest := by
  rcases hs with rfl | rfl | rfl
  · simp [splitSign_of_unsigned h]
  · simp [splitSign]
  · simp [splitSign]

theorem eq_sign_append (cs : List Char) : ∃ sign, IsSign sign ∧ cs = sign ++ (splitSign cs).2 := by
  cases cs with
  | nil => exact ⟨[], Or.inl rfl, rfl⟩
  | cons c cs =>
      by_cases minus : c = '-'
      · exact ⟨['-'], Or.inr (Or.inr rfl), by simp [splitSign, minus]⟩
      by_cases plus : c = '+'
      · exact ⟨['+'], Or.inr (Or.inl rfl), by simp [splitSign, plus]⟩
      · exact ⟨[], Or.inl rfl, by simp [splitSign, minus, plus]⟩

/-- What has a shape behind an optional sign has it behind the sign that is split off. -/
theorem signed_iff {shape : List Char → Prop} (unsigned : ∀ {cs}, shape cs → Unsigned cs)
    (cs : List Char) :
    (∃ sign rest, cs = sign ++ rest ∧ IsSign sign ∧ shape rest) ↔ shape (splitSign cs).2 := by
  constructor
  · rintro ⟨sign, rest, rfl, hs, h⟩
    rw [splitSign_append hs (unsigned h)]
    exact h
  · intro h
    obtain ⟨sign, hs, eq⟩ := eq_sign_append cs
    exact ⟨sign, _, eq, hs, h⟩

/-! Rows of digits -/

theorem isDigits_iff (cs : List Char) : isDigits cs = true ↔ IsDigitRow cs := by
  cases cs with
  | nil =>
      simp only [isDigits, List.isEmpty_nil, Bool.not_true, Bool.false_and, Bool.false_eq_true, false_iff]
      exact fun h => h.ne_nil rfl
  | cons c cs =>
      simp only [isDigits, List.isEmpty_cons, Bool.not_false, Bool.true_and, List.all_eq_true]
      exact ⟨fun h => ⟨List.cons_ne_nil c cs, h⟩, fun h => h.digits⟩

theorem ne_of_isDigit {c d : Char} (h : isDigit c = true) (other : isDigit d = false) : c ≠ d := by
  rintro rfl
  rw [h] at other
  cases other

theorem IsDigitRow.append_unsigned {row : List Char} (h : IsDigitRow row) (cs : List Char) :
    Unsigned (row ++ cs) := by
  obtain ⟨c, row', rfl⟩ := List.exists_cons_of_ne_nil h.ne_nil
  intro d hd
  cases hd
  have digit := h.digits c List.mem_cons_self
  exact ⟨ne_of_isDigit digit (by decide), ne_of_isDigit digit (by decide)⟩

theorem IsDigitRow.unsigned {row : List Char} (h : IsDigitRow row) : Unsigned row := by
  simpa using h.append_unsigned []

theorem integerText_iff (cs : List Char) :
    IsIntegerText cs ↔ isDigits (splitSign cs).2 = true := by
  rw [isDigits_iff]
  exact signed_iff IsDigitRow.unsigned cs

/-- No digit stands in front. -/
def StopsDigits (cs : List Char) : Prop := ∀ c ∈ cs.head?, isDigit c = false

theorem stopsDigits_nil : StopsDigits [] := by simp [StopsDigits]

theorem stopsDigits_cons {c : Char} (h : isDigit c = false) (cs : List Char) : StopsDigits (c :: cs) := by
  simpa [StopsDigits] using h

theorem takeWhile_digits {row cs : List Char} (h : ∀ c ∈ row, isDigit c = true) (stop : StopsDigits cs) :
    (row ++ cs).takeWhile isDigit = row := by
  rw [List.takeWhile_append_of_pos h]
  cases cs with
  | nil => simp
  | cons c cs => simp [stop c rfl]

theorem dropWhile_digits {row cs : List Char} (h : ∀ c ∈ row, isDigit c = true) (stop : StopsDigits cs) :
    (row ++ cs).dropWhile isDigit = cs := by
  rw [List.dropWhile_append_of_pos h]
  cases cs with
  | nil => rfl
  | cons c cs => simp [stop c rfl]

theorem eq_digits_append (cs : List Char) :
    ∃ row rest, cs = row ++ rest ∧ (∀ c ∈ row, isDigit c = true) ∧ StopsDigits rest := by
  refine ⟨cs.takeWhile isDigit, cs.dropWhile isDigit, by simp, ?_, ?_⟩
  · intro c hc
    exact List.all_eq_true.1 List.all_takeWhile c hc
  · intro c hc
    have stop := List.head?_dropWhile_not isDigit cs
    rw [Option.mem_def.1 hc] at stop
    exact stop

/-! Decimal numbers -/

theorem exponentMark_iff (c : Char) : isExponentMark c = true ↔ c = 'e' ∨ c = 'E' := by
  simp [isExponentMark]

theorem isDigit_exponentMark {c : Char} (h : c = 'e' ∨ c = 'E') : isDigit c = false := by
  rcases h with rfl | rfl <;> decide

theorem isDigitRow_iff {cs : List Char} (h : ∀ c ∈ cs, isDigit c = true) :
    IsDigitRow cs ↔ cs.isEmpty = false := by
  rw [List.isEmpty_eq_false_iff]
  exact ⟨fun row => row.ne_nil, fun ne => ⟨ne, h⟩⟩

theorem exponent?_isSome_iff (cs : List Char) : (exponent? cs).isSome = true ↔ IsIntegerText cs := by
  rw [integerText_iff]
  simp [exponent?]

theorem unsignedDecimal?_digits {row : List Char} (h : ∀ c ∈ row, isDigit c = true) :
    unsignedDecimal? row = none := by
  have tail := dropWhile_digits h stopsDigits_nil
  rw [List.append_nil] at tail
  simp only [unsignedDecimal?, tail]

theorem unsignedDecimal?_point {whole fraction : List Char} (hw : ∀ c ∈ whole, isDigit c = true)
    (hf : ∀ c ∈ fraction, isDigit c = true) :
    unsignedDecimal? (whole ++ '.' :: fraction) =
      if whole.isEmpty && fraction.isEmpty then none else some (decimalOf whole fraction 0) := by
  have stop : StopsDigits ('.' :: fraction) := stopsDigits_cons (by decide) fraction
  have head := takeWhile_digits hf stopsDigits_nil
  have tail := dropWhile_digits hf stopsDigits_nil
  rw [List.append_nil] at head tail
  simp only [unsignedDecimal?, takeWhile_digits hw stop, dropWhile_digits hw stop, head, tail, if_true]

theorem unsignedDecimal?_pointScaled {whole fraction : List Char} {mark : Char} (exponent : List Char)
    (hw : ∀ c ∈ whole, isDigit c = true) (hf : ∀ c ∈ fraction, isDigit c = true)
    (hm : isDigit mark = false) :
    unsignedDecimal? (whole ++ '.' :: (fraction ++ mark :: exponent)) =
      if isExponentMark mark && !whole.isEmpty then (exponent? exponent).map (decimalOf whole fraction)
      else none := by
  have stop : StopsDigits ('.' :: (fraction ++ mark :: exponent)) := stopsDigits_cons (by decide) _
  have stop' : StopsDigits (mark :: exponent) := stopsDigits_cons hm exponent
  simp only [unsignedDecimal?, takeWhile_digits hw stop, dropWhile_digits hw stop,
    takeWhile_digits hf stop', dropWhile_digits hf stop', if_true]

theorem unsignedDecimal?_scaled {whole : List Char} {mark : Char} (exponent : List Char)
    (hw : ∀ c ∈ whole, isDigit c = true) (hm : isDigit mark = false) (noPoint : mark ≠ '.') :
    unsignedDecimal? (whole ++ mark :: exponent) =
      if isExponentMark mark && !whole.isEmpty then (exponent? exponent).map (decimalOf whole []) else none := by
  have stop : StopsDigits (mark :: exponent) := stopsDigits_cons hm exponent
  simp only [unsignedDecimal?, takeWhile_digits hw stop, dropWhile_digits hw stop, noPoint, if_false]

theorem isSome_scaled_iff {whole : List Char} {mark : Char} {exponent : List Char}
    (hw : ∀ c ∈ whole, isDigit c = true) (f : Int → Decimal) :
    (if isExponentMark mark && !whole.isEmpty then (exponent? exponent).map f else none).isSome = true ↔
      (mark = 'e' ∨ mark = 'E') ∧ IsDigitRow whole ∧ IsIntegerText exponent := by
  rw [isDigitRow_iff hw, ← exponent?_isSome_iff, ← exponentMark_iff]
  cases isExponentMark mark <;> cases whole.isEmpty <;> simp

theorem unsignedDecimal?_isSome_iff (cs : List Char) :
    (unsignedDecimal? cs).isSome = true ↔ IsUnsignedDecimal cs := by
  constructor
  · intro h
    obtain ⟨whole, rest, rfl, hw, stop⟩ := eq_digits_append cs
    cases rest with
    | nil => simp [unsignedDecimal?_digits hw] at h
    | cons c rest =>
        by_cases point : c = '.'
        · subst point
          obtain ⟨fraction, tail, rfl, hf, stop'⟩ := eq_digits_append rest
          cases tail with
          | nil =>
              rw [List.append_nil] at h ⊢
              rw [unsignedDecimal?_point hw hf] at h
              by_cases empty : whole.isEmpty
              · obtain rfl := List.isEmpty_iff.1 empty
                have row : IsDigitRow fraction := (isDigitRow_iff hf).2 (by simpa using h)
                exact .fraction row
              · exact .point ((isDigitRow_iff hw).2 (by simpa using empty)) hf
          | cons mark exponent =>
              rw [unsignedDecimal?_pointScaled exponent hw hf (stop' mark rfl), isSome_scaled_iff hw] at h
              exact .pointScaled h.2.1 hf h.1 h.2.2
        · rw [unsignedDecimal?_scaled rest hw (stop c rfl) point, isSome_scaled_iff hw] at h
          exact .scaled h.2.1 h.1 h.2.2
  · intro h
    cases h with
    | point row digits =>
        rw [unsignedDecimal?_point row.digits digits]
        simp [row.ne_nil]
    | @fraction row h =>
        have eq := unsignedDecimal?_point (List.forall_mem_nil _) h.digits
        rw [List.nil_append] at eq
        simp [eq, h.ne_nil]
    | @scaled whole mark exponent row hm integer =>
        have noPoint : mark ≠ '.' := by rcases hm with rfl | rfl <;> decide
        rw [unsignedDecimal?_scaled exponent row.digits (isDigit_exponentMark hm) noPoint,
          isSome_scaled_iff row.digits]
        exact ⟨hm, row, integer⟩
    | @pointScaled whole fraction mark exponent row digits hm integer =>
        rw [unsignedDecimal?_pointScaled exponent row.digits digits (isDigit_exponentMark hm),
          isSome_scaled_iff row.digits]
        exact ⟨hm, row, integer⟩

theorem IsUnsignedDecimal.unsigned {cs : List Char} (h : IsUnsignedDecimal cs) : Unsigned cs := by
  cases h with
  | point row digits => exact row.append_unsigned _
  | fraction row => simp [Unsigned]
  | scaled row mark integer => exact row.append_unsigned _
  | pointScaled row digits mark integer => exact row.append_unsigned _

theorem decimalText_iff (cs : List Char) : IsDecimalText cs ↔ (decimalFloat? cs).isSome = true := by
  refine (signed_iff IsUnsignedDecimal.unsigned cs).trans ?_
  simp only [decimalFloat?, Option.isSome_map]
  exact (unsignedDecimal?_isSome_iff _).symm

theorem decimalFloat?_of_isDigitRow {cs : List Char} (row : IsDigitRow (splitSign cs).2) :
    decimalFloat? cs = none := by
  simp [decimalFloat?, unsignedDecimal?_digits row.digits]

/-! What words stand for -/

theorem atomOfChars_boolChars (b : Bool) : atomOfChars (boolChars b) = .ok (.bool b) := by
  cases b <;> rfl

/-- Digits, with a sign or without, are no truth value. -/
theorem ne_boolChars_of_isDigitRow {cs : List Char} (row : IsDigitRow (splitSign cs).2) (b : Bool) :
    cs ≠ boolChars b := by
  rintro rfl
  have digits := (isDigits_iff _).2 row
  cases b <;> exact absurd digits (by decide)

/-- A word that is no truth value is read as a number if it has the shape of one. -/
theorem atomOfChars_of_ne_bool {cs : List Char} (h : ∀ b, cs ≠ boolChars b) :
    atomOfChars cs =
      if isDigits (splitSign cs).2 then
        if (splitSign cs).2.length ≤ maxIntegerDigits then
          .ok (.int (signedValue (splitSign cs).1 (splitSign cs).2))
        else .error (.longInteger (splitSign cs).2.length)
      else match decimalFloat? cs with
        | some x => .ok (.float x)
        | none => .ok (.sym (String.ofList cs)) := by
  unfold atomOfChars
  exact (if_neg (h true)).trans (if_neg (h false))

theorem eq_leaf_of_atomOfChars {cs : List Char} {v : Value} (h : atomOfChars cs = .ok v) :
    (∃ b, v = .bool b) ∨ (∃ n, v = .int n) ∨ (∃ x, v = .float x) ∨ ∃ name, v = .sym name := by
  by_cases bool : ∃ b, cs = boolChars b
  · obtain ⟨b, rfl⟩ := bool
    rw [atomOfChars_boolChars] at h
    cases h
    exact Or.inl ⟨b, rfl⟩
  · rw [atomOfChars_of_ne_bool fun b eq => bool ⟨b, eq⟩] at h
    split at h
    · split at h
      · cases h
        exact Or.inr (Or.inl ⟨_, rfl⟩)
      · cases h
    · split at h
      · cases h
        exact Or.inr (Or.inr (Or.inl ⟨_, rfl⟩))
      · cases h
        exact Or.inr (Or.inr (Or.inr ⟨_, rfl⟩))

theorem atomOfChars_eq_sym_iff (cs : List Char) (name : String) :
    atomOfChars cs = .ok (.sym name) ↔ name = String.ofList cs ∧ IsSymbolText cs := by
  by_cases bool : ∃ b, cs = boolChars b
  · obtain ⟨b, rfl⟩ := bool
    rw [atomOfChars_boolChars]
    constructor
    · intro h
      cases h
    · rintro ⟨_, h⟩
      exact absurd rfl (h.ne_bool b)
  · have ne : ∀ b, cs ≠ boolChars b := fun b eq => bool ⟨b, eq⟩
    rw [atomOfChars_of_ne_bool ne]
    constructor
    · intro h
      split at h
      · split at h <;> cases h
      · next integer =>
          split at h
          · cases h
          · next decimal =>
              cases h
              refine ⟨rfl, ne, ?_, ?_⟩
              · rw [integerText_iff]
                exact integer
              · rw [decimalText_iff, decimal]
                simp
    · rintro ⟨rfl, symbol⟩
      have integer := symbol.not_integer
      have decimal := symbol.not_decimal
      rw [integerText_iff] at integer
      rw [decimalText_iff, Bool.not_eq_true, Option.isSome_eq_false_iff, Option.isNone_iff_eq_none] at decimal
      rw [if_neg integer, decimal]

/-! Integers and their digits -/

theorem digitValue?_of_ascii {c : Char} (h : c.isDigit = true) :
    digitValue? c = some (c.toNat - '0'.toNat) := by
  have range : 48 ≤ c.toNat ∧ c.toNat ≤ 57 := by
    simpa [Char.isDigit, Char.le_def, UInt32.le_iff_toNat_le] using h
  have found : (decide (48 ≤ c.toNat) && decide (c.toNat < 48 + 10)) = true := by
    simp only [Bool.and_eq_true, decide_eq_true_eq]
    omega
  simp only [digitValue?, Text.digitZeros, List.find?_cons, found]
  rfl

theorem isDigit_of_ascii {c : Char} (h : c.isDigit = true) : isDigit c = true := by
  rw [isDigit, digitValue?_of_ascii h]
  rfl

theorem valueOfDigits_of_ascii {cs : List Char} (h : ∀ c ∈ cs, c.isDigit = true) (init : Nat) :
    cs.foldl (fun n c => 10 * n + digitValue c) init = Nat.ofDigitChars 10 cs init := by
  induction cs generalizing init with
  | nil => rfl
  | cons c cs ih =>
      have digit : digitValue c = c.toNat - '0'.toNat := by
        rw [digitValue, digitValue?_of_ascii (h c List.mem_cons_self)]
        rfl
      rw [List.foldl_cons, Nat.ofDigitChars_cons, ih fun d hd => h d (List.mem_cons_of_mem c hd), digit]

theorem valueOfDigits_toDigits (n : Nat) : valueOfDigits (Nat.toDigits 10 n) = n := by
  have ascii : ∀ c ∈ Nat.toDigits 10 n, c.isDigit = true :=
    fun c hc => Nat.isDigit_of_mem_toDigits (by decide) (by decide) hc
  rw [valueOfDigits, valueOfDigits_of_ascii ascii, Nat.ofDigitChars_ten_toDigits]

theorem isDigitRow_toDigits (n : Nat) : IsDigitRow (Nat.toDigits 10 n) :=
  ⟨Nat.toDigits_ne_nil, fun _ hc =>
    isDigit_of_ascii (Nat.isDigit_of_mem_toDigits (by decide) (by decide) hc)⟩

theorem splitSign_intChars (n : Int) :
    splitSign (intChars n) = (decide (n < 0), Nat.toDigits 10 n.natAbs) := by
  cases n with
  | ofNat n =>
      rw [intChars, splitSign_of_unsigned (isDigitRow_toDigits n).unsigned]
      simp
  | negSucc n => simp [intChars, splitSign, Int.natAbs_negSucc]

theorem signedValue_toDigits (n : Int) :
    signedValue (decide (n < 0)) (Nat.toDigits 10 n.natAbs) = n := by
  simp only [signedValue, valueOfDigits_toDigits, decide_eq_true_eq]
  split <;> omega

theorem intChars_ne_boolChars (n : Int) (b : Bool) : intChars n ≠ boolChars b := by
  have row := isDigitRow_toDigits n.natAbs
  have digits : (splitSign (intChars n)).2 = Nat.toDigits 10 n.natAbs := by rw [splitSign_intChars]
  rw [← digits] at row
  exact ne_boolChars_of_isDigitRow row b

theorem Value.printable_int_iff (n : Int) :
    (Value.int n).printable = true ↔ Decimal.digitCount n.natAbs ≤ maxIntegerDigits := by
  rw [Value.printable, atMostDigits_iff, Nat.pow_eq]
  exact (Nat.length_toDigits_le_iff (by decide) (by decide)).symm

/-- An integer of at most 4300 digits is read back from its printed form. -/
theorem atomOfChars_intChars {n : Int} (h : Decimal.digitCount n.natAbs ≤ maxIntegerDigits) :
    atomOfChars (intChars n) = .ok (.int n) := by
  have short : (Nat.toDigits 10 n.natAbs).length ≤ maxIntegerDigits := h
  rw [atomOfChars_of_ne_bool (intChars_ne_boolChars n), splitSign_intChars]
  simp only [(isDigits_iff _).2 (isDigitRow_toDigits n.natAbs), short, signedValue_toDigits, if_true]

theorem isBlank_of_isDigit {c : Char} (h : isDigit c = true) : Text.isBlank c = false := by
  obtain ⟨z, hz, low, high⟩ := (Text.isDigit_iff c).1 h
  have apart : ∀ r ∈ Text.blankRanges, ∀ z ∈ Text.digitZeros, r.2 < z ∨ z + 10 ≤ r.1 := by decide +kernel
  rw [← Bool.not_eq_true, Text.isBlank, Text.Ranges.contains_iff]
  rintro ⟨r, hr, above, below⟩
  have outside := apart r hr z hz
  omega

/-- Digits of all scripts stand in words. -/
theorem isWordChar_of_isDigit {c : Char} (h : isDigit c = true) : isWordChar c = true := by
  have other : c ∉ delimiters := by
    intro mem
    have none : delimiters.filter isDigit = [] := by decide
    exact List.filter_eq_nil_iff.1 none c mem h
  simp [isWordChar, isBlank_of_isDigit h, other]

theorem IsDigitRow.isWord {row : List Char} (h : IsDigitRow row) : IsWord row :=
  ⟨h.ne_nil, fun c hc => isWordChar_of_isDigit (h.digits c hc)⟩

theorem isWord_intChars (n : Int) : IsWord (intChars n) := by
  cases n with
  | ofNat n => exact (isDigitRow_toDigits n).isWord
  | negSucc n =>
      refine ⟨List.cons_ne_nil _ _, ?_⟩
      intro c hc
      rcases List.mem_cons.1 hc with rfl | digit
      · decide
      · exact (isDigitRow_toDigits (n + 1)).isWord.chars c digit

theorem isWord_boolChars (b : Bool) : IsWord (boolChars b) := by
  cases b <;> decide

/-! The size of an integer literal -/

theorem digitValue_lt_ten (c : Char) : digitValue c < 10 := by
  unfold digitValue
  cases h : digitValue? c with
  | none => simp
  | some d => exact Text.digitValue?_lt_ten c d h

theorem foldl_digits_lt (cs : List Char) (init : Nat) :
    cs.foldl (fun n c => 10 * n + digitValue c) init < (init + 1) * Nat.pow 10 cs.length := by
  induction cs generalizing init with
  | nil => simp
  | cons c cs ih =>
      have digit := digitValue_lt_ten c
      calc (c :: cs).foldl (fun n c => 10 * n + digitValue c) init
          < (10 * init + digitValue c + 1) * Nat.pow 10 cs.length := ih _
        _ ≤ ((init + 1) * 10) * Nat.pow 10 cs.length := Nat.mul_le_mul_right _ (by omega)
        _ = (init + 1) * Nat.pow 10 (c :: cs).length := by
            rw [Nat.mul_assoc, Nat.mul_comm 10]
            rfl

theorem valueOfDigits_lt (cs : List Char) : valueOfDigits cs < Nat.pow 10 cs.length := by
  simpa [valueOfDigits] using foldl_digits_lt cs 0

/-- Zeros in front count against the limit of a literal, so what it stands for has no more digits. -/
theorem digitCount_of_atomOfChars {cs : List Char} {n : Int} (h : atomOfChars cs = .ok (.int n)) :
    Decimal.digitCount n.natAbs ≤ maxIntegerDigits := by
  have ne : ∀ b, cs ≠ boolChars b := by
    rintro b rfl
    rw [atomOfChars_boolChars] at h
    cases h
  rw [atomOfChars_of_ne_bool ne] at h
  split at h
  · next digits =>
      split at h
      · next short =>
          cases h
          have value : (signedValue (splitSign cs).1 (splitSign cs).2).natAbs = valueOfDigits (splitSign cs).2 := by
            unfold signedValue
            split <;> simp
          have pos : 0 < (splitSign cs).2.length := List.length_pos_iff.2 ((isDigits_iff _).1 digits).ne_nil
          rw [Decimal.digitCount, value]
          refine Nat.le_trans ?_ short
          exact (Nat.length_toDigits_le_iff (by decide) pos).2 (valueOfDigits_lt _)
      · cases h
  · split at h <;> cases h

/-! Decimal numbers are words, and are read as floats. -/

theorem IsSign.wordChars {sign : List Char} (h : IsSign sign) : ∀ c ∈ sign, isWordChar c = true := by
  rcases h with rfl | rfl | rfl
  · exact List.forall_mem_nil _
  · exact IsWord.chars (by decide)
  · exact IsWord.chars (by decide)

theorem IsIntegerText.wordChars {cs : List Char} (h : IsIntegerText cs) :
    ∀ c ∈ cs, isWordChar c = true := by
  obtain ⟨sign, row, rfl, hs, hr⟩ := h
  exact List.forall_mem_append.2 ⟨hs.wordChars, hr.isWord.chars⟩

theorem isWordChar_exponentMark {c : Char} (h : c = 'e' ∨ c = 'E') : isWordChar c = true := by
  rcases h with rfl | rfl <;> decide

theorem IsUnsignedDecimal.isWord {cs : List Char} (h : IsUnsignedDecimal cs) : IsWord cs := by
  have point : isWordChar '.' = true := by decide
  cases h with
  | point row digits =>
      refine ⟨by simp, List.forall_mem_append.2 ⟨row.isWord.chars, List.forall_mem_cons.2 ⟨point, ?_⟩⟩⟩
      exact fun c hc => isWordChar_of_isDigit (digits c hc)
  | fraction row => exact ⟨by simp, List.forall_mem_cons.2 ⟨point, row.isWord.chars⟩⟩
  | scaled row mark integer =>
      refine ⟨by simp, List.forall_mem_append.2 ⟨row.isWord.chars, List.forall_mem_cons.2 ?_⟩⟩
      exact ⟨isWordChar_exponentMark mark, integer.wordChars⟩
  | pointScaled row digits mark integer =>
      refine ⟨by simp, List.forall_mem_append.2 ⟨row.isWord.chars, List.forall_mem_cons.2 ⟨point, ?_⟩⟩⟩
      refine List.forall_mem_append.2 ⟨fun c hc => isWordChar_of_isDigit (digits c hc), ?_⟩
      exact List.forall_mem_cons.2 ⟨isWordChar_exponentMark mark, integer.wordChars⟩

theorem IsDecimalText.isWord {cs : List Char} (h : IsDecimalText cs) : IsWord cs := by
  obtain ⟨sign, rest, rfl, hs, hr⟩ := h
  refine ⟨?_, List.forall_mem_append.2 ⟨hs.wordChars, hr.isWord.chars⟩⟩
  simp [hr.isWord.ne_nil]

theorem atomOfChars_of_decimalFloat? {cs : List Char} {x : Float} (h : decimalFloat? cs = some x) :
    atomOfChars cs = .ok (.float x) := by
  have ne : ∀ b, cs ≠ boolChars b := by
    rintro b rfl
    cases b <;> cases h
  have notDigits : ¬ isDigits (splitSign cs).2 = true := by
    intro digits
    rw [decimalFloat?_of_isDigitRow ((isDigits_iff _).1 digits)] at h
    cases h
  rw [atomOfChars_of_ne_bool ne, if_neg notDigits, h]

end MiniLisp
