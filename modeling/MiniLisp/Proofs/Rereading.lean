import MiniLisp.Proofs.RoundTrip

/-!
Reading, printing and reading again. Whatever a text stands for can be printed, and the printed form
stands for the same tree, except that a number beyond the binary64 range was read as an infinity, and
its text is that of a symbol.
-/

namespace MiniLisp

open Float.Model (UnpackedFloat Format)

/-! The texts of floats that are not finite -/

theorem isFinite_unpack_eq_false_iff (b : BitVec 64) :
    (UnpackedFloat.unpack Format.binary64 b).isFinite = false ↔
      @UnpackedFloat.unpackExponent Format.binary64 b = -1#11 := by
  unfold UnpackedFloat.unpack
  dsimp only
  by_cases top : @UnpackedFloat.unpackExponent Format.binary64 b = -1#11
  · rw [if_pos top]
    refine iff_of_true ?_ top
    by_cases infinite : @UnpackedFloat.unpackMantissa Format.binary64 b = 0#52
    · rw [if_pos infinite]
      rfl
    · rw [if_neg infinite]
      rfl
  · rw [if_neg top]
    refine iff_of_false (fun infinite => ?_) top
    by_cases small : @UnpackedFloat.unpackExponent Format.binary64 b = 0#11
    · rw [if_pos small] at infinite
      by_cases zero : @UnpackedFloat.unpackMantissa Format.binary64 b = 0#52
      · rw [dif_pos zero] at infinite
        cases infinite
      · rw [dif_neg zero] at infinite
        cases infinite
    · rw [if_neg small] at infinite
      cases infinite

theorem toNat_unpackExponent (b : BitVec 64) :
    (@UnpackedFloat.unpackExponent Format.binary64 b).toNat =
      b.toNat / Nat.pow 2 52 % Nat.pow 2 11 := by
  change (BitVec.extractLsb (52 + 11 - 1) 52 b).toNat = _
  simp [BitVec.extractLsb, BitVec.extractLsb', Nat.shiftRight_eq_div_pow]

/-- The layout tells infinities and NaNs by the exponent of all ones, as the format does. -/
theorem isFinite_eq_false_iff (x : Float) :
    x.isFinite = false ↔ x.toBits.toNat / Nat.pow 2 52 % Nat.pow 2 11 = 2047 := by
  have exponent := isFinite_unpack_eq_false_iff x.toBits.toBitVec
  rw [BitVec.toNat_eq, toNat_unpackExponent] at exponent
  exact exponent

theorem floatChars_of_not_isFinite {x : Float} (h : x.isFinite = false) :
    floatChars x ∈ ["inf".toList, "-inf".toList, "nan".toList] := by
  unfold floatChars Decimal.Layout.text
  simp only [(isFinite_eq_false_iff x).1 h, if_true]
  split
  · split <;> decide
  · decide

/-- A float that is not finite is written like a symbol. -/
theorem readableName_of_not_isFinite {x : Float} (h : x.isFinite = false) :
    ReadableName (String.ofList (floatChars x)) := by
  have texts : ∀ cs ∈ ["inf".toList, "-inf".toList, "nan".toList], ReadableName (String.ofList cs) := by
    decide
  exact texts _ (floatChars_of_not_isFinite h)

/-- The text of the float is a decimal number whose nearest binary64 value is the float. -/
def TextExact (x : Float) : Prop := decimalFloat? (floatChars x) = some x

theorem TextExact.readable {x : Float} (h : TextExact x) : ReadableFloat x where
  word := IsDecimalText.isWord ((decimalText_iff _).2 (by rw [h, Option.isSome_some]))
  atom := atomOfChars_of_decimalFloat? h

namespace Value

mutual

/-- All floats of a tree. -/
def floats : Value → List Float
  | .float x => [x]
  | .list items => allFloats items
  | .proc _ params body _ => params.floats ++ body.floats
  | _ => []

def allFloats : List Value → List Float
  | [] => []
  | v :: vs => v.floats ++ allFloats vs

end

theorem mem_allFloats {x : Float} {vs : List Value} : x ∈ allFloats vs ↔ ∃ v ∈ vs, x ∈ v.floats := by
  induction vs with
  | nil => simp [allFloats]
  | cons v vs ih => simp [allFloats, ih]

mutual

/-- What the printed form of a tree stands for: where a float is not finite, the symbol of its text. -/
def reread : Value → Value
  | .float x => if x.isFinite then .float x else .sym (String.ofList (floatChars x))
  | .list items => .list (rereadAll items)
  | v => v

def rereadAll : List Value → List Value
  | [] => []
  | v :: vs => v.reread :: rereadAll vs

end

theorem mem_rereadAll {u : Value} {vs : List Value} : u ∈ rereadAll vs ↔ ∃ v ∈ vs, v.reread = u := by
  induction vs with
  | nil => simp [rereadAll]
  | cons v vs ih => simp [rereadAll, ih, eq_comm]

theorem rereadAll_eq_iff {vs : List Value} : rereadAll vs = vs ↔ ∀ v ∈ vs, v.reread = v := by
  induction vs with
  | nil => simp [rereadAll]
  | cons v vs ih => simp [rereadAll, ih]

theorem itemChars_rereadAll {vs : List Value} (each : ∀ v ∈ vs, v.reread.chars = v.chars) :
    itemChars (rereadAll vs) = itemChars vs := by
  induction vs with
  | nil => rfl
  | cons v vs ih =>
      have first := each v List.mem_cons_self
      have later := ih fun w hw => each w (List.mem_cons_of_mem v hw)
      cases vs with
      | nil => simpa [rereadAll, itemChars] using first
      | cons w ws =>
          simp only [rereadAll] at later ⊢
          rw [itemChars, itemChars, first, later]

/-- Trees of integers that can be printed, any floats, truth values, strings, and symbols that can be
read. -/
inductive FromSource : Value → Prop
  | int {n : Int} : Decimal.digitCount n.natAbs ≤ maxIntegerDigits → FromSource (.int n)
  | float (x : Float) : FromSource (.float x)
  | bool (b : Bool) : FromSource (.bool b)
  | str (s : String) : FromSource (.str s)
  | sym {name : String} : ReadableName name → FromSource (.sym name)
  | list {items : List Value} : (∀ v ∈ items, FromSource v) → FromSource (.list items)

theorem fromSource_of_atomOfChars {cs : List Char} (word : IsWord cs) {v : Value}
    (h : atomOfChars cs = .ok v) : v.FromSource := by
  have readable := readable_of_atomOfChars word h
  obtain ⟨b, rfl⟩ | ⟨n, rfl⟩ | ⟨x, rfl⟩ | ⟨name, rfl⟩ := eq_leaf_of_atomOfChars h
  · exact .bool b
  · exact .int (digitCount_of_atomOfChars h)
  · exact .float x
  · exact .sym (readable name (by simp [symbols]))

/-- Every tree that a text stands for is of this form. -/
theorem fromSource_of_readAll {source : String} {vs : List Value} (h : readAll source = .ok vs) :
    ∀ v ∈ vs, v.FromSource := by
  refine ReaderClosed.of_readAll ?_ h
  exact {
    atom := fun word h => fromSource_of_atomOfChars word h
    str := .str
    mark := .sym
    list := .list }

namespace FromSource

variable {v : Value}

theorem printable (h : v.FromSource) : v.printable = true := by
  induction h with
  | int short => exact (IsDatum.int short).printable
  | list _ ih =>
      rw [Value.printable, allPrintable_iff]
      exact ih
  | _ => rfl

theorem chars_reread (h : v.FromSource) : v.reread.chars = v.chars := by
  induction h with
  | float x =>
      rw [reread]
      split
      · rfl
      · simp [chars]
  | list _ ih => rw [reread, chars, chars, itemChars_rereadAll ih]
  | _ => rfl

theorem isDatum_reread (h : v.FromSource) (exact : ∀ x ∈ v.floats, x.isFinite = true → TextExact x) :
    v.reread.IsDatum := by
  induction h with
  | int short => exact .int short
  | float x =>
      rw [reread]
      split
      · next finite => exact .float (exact x (by simp [floats]) finite).readable
      · exact .sym _
  | bool b => exact .bool b
  | str s => exact .str s
  | sym _ => exact .sym _
  | list _ ih =>
      refine .list fun u hu => ?_
      obtain ⟨v, hv, rfl⟩ := mem_rereadAll.1 hu
      exact ih v hv fun x mem => exact x (mem_allFloats.2 ⟨v, hv, mem⟩)

theorem readable_reread (h : v.FromSource) : ∀ name ∈ v.reread.symbols, ReadableName name := by
  induction h with
  | float x =>
      rw [reread]
      split
      · simp [symbols]
      · next infinite => simpa [symbols] using readableName_of_not_isFinite (by simpa using infinite)
  | sym readable => simpa [reread, symbols] using readable
  | list _ ih =>
      intro name mem
      obtain ⟨u, hu, mem⟩ := mem_allSymbols.1 mem
      obtain ⟨v, hv, rfl⟩ := mem_rereadAll.1 hu
      exact ih v hv name mem
  | _ => simp [reread, symbols]

theorem reread_eq_self_iff (h : v.FromSource) : v.reread = v ↔ ∀ x ∈ v.floats, x.isFinite = true := by
  induction h with
  | float x =>
      rw [reread]
      split
      · next finite => simp [floats, finite]
      · next infinite => simp [floats, infinite]
  | @list items _ ih =>
      rw [reread, Value.list.injEq, rereadAll_eq_iff]
      constructor
      · intro same x mem
        obtain ⟨v, hv, mem⟩ := mem_allFloats.1 mem
        exact (ih v hv).1 (same v hv) x mem
      · intro finite v hv
        exact (ih v hv).2 fun x mem => finite x (mem_allFloats.2 ⟨v, hv, mem⟩)
  | _ => simp [reread, floats]

end FromSource

end Value

/-- Every tree that is read can be printed, and what is read from the printed form is the tree itself
exactly when all its floats are finite. Of the texts of finite floats, only those in the tree
must stand for their floats. -/
theorem read_print_read {source : String} {vs : List Value} (accepted : readAll source = .ok vs)
    {v : Value} (mem : v ∈ vs) (exact : ∀ x ∈ v.floats, x.isFinite = true → TextExact x) :
    v.print = .ok v.text ∧ readOne v.text = .ok v.reread ∧
      (readOne v.text = .ok v ↔ ∀ x ∈ v.floats, x.isFinite = true) := by
  have origin := Value.fromSource_of_readAll accepted v mem
  have same : v.reread.text = v.text := congrArg String.ofList origin.chars_reread
  have again := readOne_text (origin.isDatum_reread exact) origin.readable_reread
  rw [same] at again
  refine ⟨?_, again, ?_⟩
  · rw [Value.print, if_pos origin.printable]
  · rw [again, Except.ok.injEq]
    exact origin.reread_eq_self_iff

theorem isFinite_infinity : Decimal.infinity.isFinite = false := by decide +kernel

/-- Zeros in front, an escape, a quote mark, and a number beyond the range. -/
theorem read_print_read_overflow :
    let v : Value := .list [.sym "quote", .list [.int 7, .float 1.5, .str "a\n", .float Decimal.infinity]]
    readAll "'(007 01.5 \"a\\n\" 1e400)" = .ok [v] ∧ v.print = .ok "(quote (7 1.5 \"a\\n\" inf))" ∧
      readOne v.text = .ok v.reread ∧ readOne v.text ≠ .ok v := by
  intro v
  have accepted : readAll "'(007 01.5 \"a\\n\" 1e400)" = .ok [v] := by rfl
  have exact : ∀ x ∈ v.floats, x.isFinite = true → TextExact x := by
    have only : v.floats = [1.5, Decimal.infinity] := rfl
    rw [only]
    simp only [List.forall_mem_cons]
    refine ⟨fun _ => ?_, fun finite => ?_, List.forall_mem_nil _⟩
    · have shown : floatChars 1.5 = ['1', '.', '5'] := by decide +kernel
      rw [TextExact, shown]
      rfl
    · rw [isFinite_infinity] at finite
      cases finite
  obtain ⟨printed, again, iff⟩ := read_print_read accepted (List.mem_singleton.2 rfl) exact
  have text : v.text = "(quote (7 1.5 \"a\\n\" inf))" := by decide +kernel
  refine ⟨accepted, text ▸ printed, again, ?_⟩
  intro same
  have finite := iff.1 same Decimal.infinity (by simp [v, Value.floats, Value.allFloats])
  rw [isFinite_infinity] at finite
  cases finite

/-- The text of an infinity is read as a symbol, and no text of a finite float is asked for. -/
theorem read_print_read_infinity :
    let v : Value := .float Decimal.infinity
    readAll "1e400" = .ok [v] ∧ (∀ x ∈ v.floats, x.isFinite = true → TextExact x) ∧
      v.print = .ok "inf" ∧ readOne "inf" = .ok (.sym "inf") := by
  intro v
  refine ⟨by rfl, ?_, by rfl, by rfl⟩
  intro x mem finite
  obtain rfl := List.mem_singleton.1 mem
  rw [isFinite_infinity] at finite
  cases finite

end MiniLisp
