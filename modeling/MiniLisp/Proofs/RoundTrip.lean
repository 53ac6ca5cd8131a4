import MiniLisp.Error
import MiniLisp.Proofs.Grammar
import MiniLisp.Proofs.Scanning

/-!
Printing and reading back. A tree of data is read back from its printed form exactly when all its
symbols can be read. That it is read back follows the printer: its text scans to the tokens of a
derivation whose tree it is. That nothing else is read back follows from the reader, which gives no
other symbols.
-/

namespace MiniLisp

instance (cs : List Char) : Decidable (IsSymbolText cs) :=
  decidable_of_iff ((∀ b, cs ≠ boolChars b) ∧ isDigits (splitSign cs).2 = false ∧ decimalFloat? cs = none) <| by
    rw [← Bool.not_eq_true, ← integerText_iff, ← Option.isNone_iff_eq_none, ← Option.isSome_eq_false_iff,
      ← Bool.not_eq_true, ← decimalText_iff]
    exact ⟨fun h => ⟨h.1, h.2.1, h.2.2⟩, fun h => ⟨h.1, h.2, h.3⟩⟩

/-- A name that can be read: a word that is no truth value and no number. -/
structure ReadableName (name : String) : Prop where
  word : IsWord name.toList
  symbol : IsSymbolText name.toList

instance (name : String) : Decidable (ReadableName name) :=
  decidable_of_iff (IsWord name.toList ∧ IsSymbolText name.toList) ⟨fun h => ⟨h.1, h.2⟩, fun h => ⟨h.1, h.2⟩⟩

/-- A float whose printed form is a word that stands for it. -/
structure ReadableFloat (x : Float) : Prop where
  word : IsWord (floatChars x)
  atom : atomOfChars (floatChars x) = .ok (.float x)

namespace Value

mutual

/-- The names of all symbols of a tree. -/
def symbols : Value → List String
  | .sym name => [name]
  | .list items => allSymbols items
  | .proc _ params body _ => params.symbols ++ body.symbols
  | _ => []

def allSymbols : List Value → List String
  | [] => []
  | v :: vs => v.symbols ++ allSymbols vs

end

theorem mem_allSymbols {name : String} {vs : List Value} :
    name ∈ allSymbols vs ↔ ∃ v ∈ vs, name ∈ v.symbols := by
  induction vs with
  | nil => simp [allSymbols]
  | cons v vs ih => simp [allSymbols, ih]

/-- Trees of data: lists, symbols, strings and truth values, integers of at most 4300 digits, and
floats that their printed forms stand for. -/
inductive IsDatum : Value → Prop
  | int {n : Int} : Decimal.digitCount n.natAbs ≤ maxIntegerDigits → IsDatum (.int n)
  | float {x : Float} : ReadableFloat x → IsDatum (.float x)
  | bool (b : Bool) : IsDatum (.bool b)
  | str (s : String) : IsDatum (.str s)
  | sym (name : String) : IsDatum (.sym name)
  | list {items : List Value} : (∀ v ∈ items, IsDatum v) → IsDatum (.list items)

theorem IsDatum.printable {v : Value} (h : v.IsDatum) : v.printable = true := by
  induction h with
  | @int n short => exact (Value.printable_int_iff n).2 short
  | list _ ih =>
      rw [Value.printable, allPrintable_iff]
      exact ih
  | _ => rfl

end Value

/-! String literals -/

/-- A character of a literal stands for itself, or behind a backslash for what the letter there
stands for. -/
theorem escapeChar_cases (c : Char) :
    (∃ letter, escapeChar c = ['\\', letter] ∧ escapeValue? letter = some c) ∨
      (escapeChar c = [c] ∧ c ≠ '"' ∧ c ≠ '\\') := by
  unfold escapeChar
  split
  · next eq => exact Or.inl ⟨'\\', rfl, by simp [escapeValue?, eq]⟩
  split
  · next eq => exact Or.inl ⟨'"', rfl, by simp [escapeValue?, eq]⟩
  split
  · next eq => exact Or.inl ⟨'n', rfl, by simp [escapeValue?, eq]⟩
  split
  · next eq => exact Or.inl ⟨'t', rfl, by simp [escapeValue?, eq]⟩
  · next backslash quote _ _ => exact Or.inr ⟨rfl, quote, backslash⟩

theorem literalBody_escaped (cs : List Char) : LiteralBody (escaped cs) := by
  induction cs with
  | nil => exact .nil
  | cons c cs ih =>
      rw [escaped_cons]
      obtain ⟨letter, eq, _⟩ | ⟨eq, quote, backslash⟩ := escapeChar_cases c
      · rw [eq]
        exact .escape letter ih
      · rw [eq]
        exact .plain quote backslash ih

theorem unescape_cons {c : Char} (h : c ≠ '\\') (literal : String) (cs : List Char) :
    unescape literal (c :: cs) = (unescape literal cs).map (c :: ·) := by
  cases cs with
  | nil => rfl
  | cons d cs => simp only [unescape, h, if_false]

theorem unescape_escaped (literal : String) (cs : List Char) :
    unescape literal (escaped cs) = .ok cs := by
  induction cs with
  | nil => rfl
  | cons c cs ih =>
      rw [escaped_cons]
      obtain ⟨letter, eq, value⟩ | ⟨eq, _, backslash⟩ := escapeChar_cases c
      · simp only [eq, List.cons_append, List.nil_append, unescape, if_true, value, ih]
        rfl
      · rw [eq, List.singleton_append, unescape_cons backslash, ih]
        rfl

theorem decodeString_literalChars (s : String) :
    decodeString (String.ofList (literalChars s.toList)) = .ok s := by
  simp [decodeString, literalChars, unescape_escaped, Except.map]

/-! From a tree to its text, and back -/

namespace Value

mutual

/-- The derivation that the printed form of a tree of data has. -/
def written : Value → Derivation
  | .str s => .literal (String.ofList (literalChars s.toList))
  | .list items => .parens "(" ")" (allWritten items)
  | v => .word v.text

def allWritten : List Value → List Derivation
  | [] => []
  | v :: vs => v.written :: allWritten vs

end

end Value

open Value

theorem endsWord_cons {c : Char} (h : isWordChar c = false) (cs : List Char) : EndsWord (c :: cs) := by
  simpa [EndsWord] using h

theorem scansTo_itemChars {items : List Value} {rest : List Char} (ends : EndsWord rest)
    (each : ∀ v ∈ items, ∀ rest, EndsWord rest → ScansTo v.chars v.written.tokens rest) :
    ScansTo (itemChars items) (Derivation.allTokens (allWritten items)) rest := by
  induction items with
  | nil => exact ScansTo.nil rest
  | cons v vs ih =>
      have first := each v List.mem_cons_self
      cases vs with
      | nil =>
          have only := first rest ends
          simpa [itemChars, allWritten, Derivation.allTokens] using only
      | cons u us =>
          have later := ih fun x hx => each x (List.mem_cons_of_mem v hx)
          have space : EndsWord (' ' :: (itemChars (u :: us) ++ rest)) := endsWord_cons (by decide) _
          have gap : ScansTo [' '] [] (itemChars (u :: us) ++ rest) := ScansTo.blank (by decide) _
          exact (first _ space).append (gap.append later)

/-- The text of a tree scans to the tokens of its derivation. -/
theorem scansTo_chars {v : Value} (datum : v.IsDatum) (readable : ∀ name ∈ v.symbols, ReadableName name)
    {rest : List Char} (ends : EndsWord rest) : ScansTo v.chars v.written.tokens rest := by
  induction datum generalizing rest with
  | @int n _ => exact ScansTo.word (isWord_intChars n) ends
  | float h => exact ScansTo.word h.word ends
  | bool b => exact ScansTo.word (isWord_boolChars b) ends
  | str s => exact ScansTo.literal (literalBody_escaped s.toList) rest
  | sym name =>
      have word := (readable name (by simp [symbols])).word
      exact ScansTo.word word ends
  | @list items _ ih =>
      have close : EndsWord (')' :: rest) := endsWord_cons (by decide) rest
      have inner : ScansTo (itemChars items) (Derivation.allTokens (allWritten items)) (')' :: rest) := by
        refine scansTo_itemChars close fun v hv rest ends => ih v hv ?_ ends
        intro name mem
        exact readable name (mem_allSymbols.2 ⟨v, hv, mem⟩)
      exact (ScansTo.lparen _).append (inner.append (ScansTo.rparen rest))

theorem trees_allWritten {items : List Value} (each : ∀ v ∈ items, v.written.tree = .ok v) :
    Derivation.trees (allWritten items) = .ok items := by
  induction items with
  | nil => rfl
  | cons v vs ih =>
      have later := ih fun x hx => each x (List.mem_cons_of_mem v hx)
      exact Derivation.trees_cons_eq_ok_iff.2 ⟨v, vs, each v List.mem_cons_self, later, rfl⟩

/-- The derivation of a printed tree stands for the tree. -/
theorem tree_written {v : Value} (datum : v.IsDatum) (readable : ∀ name ∈ v.symbols, ReadableName name) :
    v.written.tree = .ok v := by
  induction datum with
  | int short => simpa [written, Derivation.tree, parseAtom, text, chars] using atomOfChars_intChars short
  | float h => simpa [written, Derivation.tree, parseAtom, text, chars] using h.atom
  | bool b => simpa [written, Derivation.tree, parseAtom, text, chars] using atomOfChars_boolChars b
  | str s => simp [written, Derivation.tree, decodeString_literalChars, Except.map]
  | sym name =>
      have symbol := (readable name (by simp [symbols])).symbol
      simpa [written, Derivation.tree, parseAtom, text, chars] using
        (atomOfChars_eq_sym_iff name.toList name).2 ⟨by simp, symbol⟩
  | @list items _ ih =>
      have inner : Derivation.trees (allWritten items) = .ok items := by
        refine trees_allWritten fun v hv => ih v hv ?_
        intro name mem
        exact readable name (mem_allSymbols.2 ⟨v, hv, mem⟩)
      simp [written, Derivation.tree, inner, Except.map]

theorem readOne_text {v : Value} (datum : v.IsDatum) (readable : ∀ name ∈ v.symbols, ReadableName name) :
    readOne v.text = .ok v := by
  have scanned := (scansTo_chars datum readable (by simp [EndsWord] : EndsWord [])).lexChars_eq
  have all : parseForms none [] v.written.tokens = .ok [v] := by
    have forms : Derivation.trees [v.written] = .ok [v] := by
      simp [Derivation.trees, tree_written datum readable, Except.map]
    simpa [Derivation.allTokens] using parseForms_of_trees forms
  simp [readOne, readAll, lex, text, scanned, all]

/-! What the reader gives -/

theorem readableName_of_quoteName? {mark name : String} (h : quoteName? mark = some name) :
    ReadableName name := by
  unfold quoteName? at h
  split at h
  · cases h
    decide
  split at h
  · cases h
    decide
  split at h
  · cases h
    decide
  split at h
  · cases h
    decide
  · cases h

theorem readable_of_atomOfChars {cs : List Char} (word : IsWord cs) {v : Value}
    (h : atomOfChars cs = .ok v) : ∀ name ∈ v.symbols, ReadableName name := by
  obtain ⟨b, rfl⟩ | ⟨n, rfl⟩ | ⟨x, rfl⟩ | ⟨name, rfl⟩ := eq_leaf_of_atomOfChars h
  · simp [symbols]
  · simp [symbols]
  · simp [symbols]
  · obtain ⟨rfl, symbol⟩ := (atomOfChars_eq_sym_iff cs name).1 h
    intro other mem
    obtain rfl := List.mem_singleton.1 mem
    exact ⟨by simpa using word, by simpa using symbol⟩

theorem exists_of_mem_trees {ds : List Derivation} {vs : List Value} (h : Derivation.trees ds = .ok vs)
    {v : Value} (mem : v ∈ vs) : ∃ d ∈ ds, d.tree = .ok v := by
  induction ds generalizing vs with
  | nil =>
      cases h
      cases mem
  | cons d ds ih =>
      obtain ⟨u, us, hu, hus, rfl⟩ := Derivation.trees_cons_eq_ok_iff.1 h
      rcases List.mem_cons.1 mem with rfl | later
      · exact ⟨d, List.mem_cons_self, hu⟩
      · obtain ⟨e, he, tree⟩ := ih hus later
        exact ⟨e, List.mem_cons_of_mem d he, tree⟩

theorem mem_allTokens {ds : List Derivation} {d : Derivation} (h : d ∈ ds) {t : Token}
    (mem : t ∈ d.tokens) : t ∈ Derivation.allTokens ds := by
  induction ds with
  | nil => cases h
  | cons e ds ih =>
      rw [Derivation.allTokens, List.mem_append]
      rcases List.mem_cons.1 h with rfl | later
      · exact Or.inl mem
      · exact Or.inr (ih later)

/-- Whatever holds of what words and strings stand for, and of a list if it holds of its items,
holds of every tree that is read. -/
structure ReaderClosed (P : Value → Prop) : Prop where
  atom {cs : List Char} {v : Value} : IsWord cs → atomOfChars cs = .ok v → P v
  str (s : String) : P (.str s)
  /-- The symbol that a quote mark stands for. -/
  mark {name : String} : ReadableName name → P (.sym name)
  list {items : List Value} : (∀ v ∈ items, P v) → P (.list items)

theorem ReaderClosed.of_tree {P : Value → Prop} (closed : ReaderClosed P) {d : Derivation}
    (wf : ∀ t ∈ d.tokens, t.WellFormed) {v : Value} (h : d.tree = .ok v) : P v := by
  induction d generalizing v with
  | word text => exact closed.atom (wf ⟨.symbol, text⟩ (by simp [Derivation.tokens])) h
  | literal text =>
      obtain ⟨s, _, rfl⟩ := map_eq_ok_iff.1 h
      exact closed.str s
  | marked kind mark name isMark known form ih =>
      obtain ⟨u, hu, rfl⟩ := map_eq_ok_iff.1 h
      have inner : P u := ih (fun t ht => wf t (by simp [Derivation.tokens, ht])) hu
      have outer : P (.sym name) := closed.mark (readableName_of_quoteName? known)
      refine closed.list (List.forall_mem_cons.2 ⟨outer, ?_⟩)
      simpa using inner
  | parens opening closing forms ih =>
      obtain ⟨vs, hvs, rfl⟩ := map_eq_ok_iff.1 h
      refine closed.list fun v hv => ?_
      obtain ⟨d, hd, tree⟩ := exists_of_mem_trees hvs hv
      refine ih d hd (fun t ht => wf t ?_) tree
      simp [Derivation.tokens, mem_allTokens hd ht]

theorem derives_of_readAll {source : String} {vs : List Value} (h : readAll source = .ok vs) :
    Derives (lex source).tokens vs := by
  have accepted : parseForms (lex source).failure [] (lex source).tokens = .ok vs := h
  rw [parseForms_failure_none accepted] at accepted
  exact (parseForms_eq_ok_iff _ vs).1 accepted

theorem ReaderClosed.of_readAll {P : Value → Prop} (closed : ReaderClosed P) {source : String}
    {vs : List Value} (h : readAll source = .ok vs) : ∀ v ∈ vs, P v := by
  intro v hv
  obtain ⟨ds, tokens, trees⟩ := derives_of_readAll h
  obtain ⟨d, hd, tree⟩ := exists_of_mem_trees trees hv
  refine closed.of_tree (fun t ht => ?_) tree
  apply wellFormed_of_mem_lex source t
  rw [← tokens]
  exact mem_allTokens hd ht

/-- The reader gives no other symbols than those that can be read. -/
theorem readable_of_readAll {source : String} {vs : List Value} (h : readAll source = .ok vs) :
    ∀ v ∈ vs, ∀ name ∈ v.symbols, ReadableName name := by
  refine ReaderClosed.of_readAll ?_ h
  exact {
    atom := fun word h => readable_of_atomOfChars word h
    str := fun s => by simp [symbols]
    mark := fun readable => by simpa [symbols] using readable
    list := fun each name mem => by
      obtain ⟨v, hv, mem⟩ := mem_allSymbols.1 mem
      exact each v hv name mem }

/-- A tree of data is read back from its printed form exactly when all its symbols can be read. -/
theorem readOne_print_iff {v : Value} (datum : v.IsDatum) :
    (∃ text, v.print = .ok text ∧ readOne text = .ok v) ↔ ∀ name ∈ v.symbols, ReadableName name := by
  constructor
  · rintro ⟨text, _, read⟩
    unfold readOne at read
    split at read
    · next u all =>
        cases read
        exact readable_of_readAll all v (List.mem_singleton.2 rfl)
    · cases read
    · cases read
  · intro readable
    refine ⟨v.text, ?_, readOne_text datum readable⟩
    rw [Value.print, if_pos datum.printable]

/-- Nested lists, a string with quotes, a backslash, a newline and delimiters, and all kinds of atoms. -/
theorem readOne_print_nested :
    let v : Value := .list [.sym "set!", .list [.str "\"a\\;\n(", .list []], .int (-120), .float 0.5, .bool true]
    v.IsDatum ∧ ∃ text, v.print = .ok text ∧ readOne text = .ok v := by
  intro v
  have shown : floatChars 0.5 = ['0', '.', '5'] := by decide +kernel
  have half : ReadableFloat 0.5 := by
    constructor
    · rw [shown]
      decide
    · rw [shown]
      rfl
  have datum : v.IsDatum := by
    refine .list (List.forall_mem_cons.2 ⟨.sym _, List.forall_mem_cons.2 ⟨.list ?_, ?_⟩⟩)
    · simp only [List.forall_mem_cons]
      exact ⟨.str _, .list (List.forall_mem_nil _), List.forall_mem_nil _⟩
    · simp only [List.forall_mem_cons]
      exact ⟨.int (by decide), .float half, .bool true, List.forall_mem_nil _⟩
  have readable : ∀ name ∈ v.symbols, ReadableName name := by
    have only : v.symbols = ["set!"] := rfl
    rw [only]
    decide
  exact ⟨datum, (readOne_print_iff datum).2 readable⟩

end MiniLisp
