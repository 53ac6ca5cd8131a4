import MiniLisp.Proofs.RoundTrip

/-!
Escapes in string literals. Between its quotes a literal falls into pieces, from left to right: a
backslash with the letter behind it, or one other character. A literal is refused exactly when one
of its escapes has an unknown letter, and one that is accepted is the printed form of its string
unless a line break or a tab stands in it as it is.
-/

namespace MiniLisp

/-- A piece of what stands between the quotes of a literal. -/
inductive LiteralPiece where
  | plain (c : Char) (notQuote : c ≠ '"') (notBackslash : c ≠ '\\')
  | escape (letter : Char)

namespace LiteralPiece

def chars : LiteralPiece → List Char
  | .plain c _ _ => [c]
  | .escape letter => ['\\', letter]

/-- The character that a piece stands for, if its escape is known. -/
def value? : LiteralPiece → Option Char
  | .plain c _ _ => some c
  | .escape letter => escapeValue? letter

/-- The literal that consists of these pieces. -/
def literal (pieces : List LiteralPiece) : String :=
  String.ofList ('"' :: (pieces.flatMap chars ++ ['"']))

@[simp] theorem toList_literal (pieces : List LiteralPiece) :
    (literal pieces).toList = '"' :: (pieces.flatMap chars ++ ['"']) :=
  String.toList_ofList

/-! Cutting a literal into pieces -/

theorem literalBody_iff (body : List Char) :
    LiteralBody body ↔ ∃ pieces : List LiteralPiece, body = pieces.flatMap chars := by
  constructor
  · intro h
    induction h with
    | nil => exact ⟨[], rfl⟩
    | @plain c cs quote backslash _ ih =>
        obtain ⟨pieces, rfl⟩ := ih
        exact ⟨.plain c quote backslash :: pieces, rfl⟩
    | @escape cs letter _ ih =>
        obtain ⟨pieces, rfl⟩ := ih
        exact ⟨.escape letter :: pieces, rfl⟩
  · rintro ⟨pieces, rfl⟩
    induction pieces with
    | nil => exact .nil
    | cons p pieces ih =>
        cases p with
        | plain c quote backslash => exact .plain quote backslash ih
        | escape letter => exact .escape letter ih

/-- Backslashes are paired in one way only. -/
theorem eq_of_flatMap_chars {ps qs : List LiteralPiece} (h : ps.flatMap chars = qs.flatMap chars) :
    ps = qs := by
  induction ps generalizing qs with
  | nil =>
      cases qs with
      | nil => rfl
      | cons q qs => cases q <;> cases h
  | cons p ps ih =>
      cases qs with
      | nil => cases p <;> cases h
      | cons q qs =>
          rw [List.flatMap_cons, List.flatMap_cons] at h
          cases p with
          | plain c quote backslash =>
              cases q with
              | plain d _ _ =>
                  obtain ⟨rfl, rest⟩ := List.cons.inj h
                  rw [ih rest]
              | escape letter => exact absurd (List.cons.inj h).1 backslash
          | escape letter =>
              cases q with
              | plain d _ backslash => exact absurd (List.cons.inj h).1.symm backslash
              | escape letter' =>
                  obtain ⟨rfl, rest⟩ := List.cons.inj (List.cons.inj h).2
                  rw [ih rest]

theorem eq_literal_iff {ps qs : List LiteralPiece} : literal ps = literal qs ↔ ps = qs := by
  constructor
  · intro h
    have same := congrArg String.toList h
    rw [toList_literal, toList_literal] at same
    exact eq_of_flatMap_chars (List.append_cancel_right (List.cons.inj same).2)
  · rintro rfl
    rfl

/-- The texts of string tokens are the literals. -/
theorem wellFormed_iff_literal (text : String) :
    Token.WellFormed ⟨.string, text⟩ ↔ ∃ pieces, text = literal pieces := by
  constructor
  · rintro ⟨body, hb, eq⟩
    obtain ⟨pieces, rfl⟩ := (literalBody_iff body).1 hb
    exact ⟨pieces, String.toList_inj.1 (by rw [eq, toList_literal])⟩
  · rintro ⟨pieces, rfl⟩
    exact ⟨pieces.flatMap chars, (literalBody_iff _).2 ⟨pieces, rfl⟩, toList_literal pieces⟩

/-! What the pieces stand for -/

theorem escapeValue?_eq_none_iff (letter : Char) :
    escapeValue? letter = none ↔ letter ∉ ['\\', '"', 'n', 't'] := by
  unfold escapeValue?
  split
  · simp [*]
  split
  · simp [*]
  split
  · simp [*]
  split
  · simp [*]
  · simp [*]

theorem unescape_known {p : LiteralPiece} {c : Char} (h : p.value? = some c) (text : String) (cs : List Char) :
    unescape text (p.chars ++ cs) = (unescape text cs).map (c :: ·) := by
  cases p with
  | plain d quote backslash =>
      cases h
      exact unescape_cons backslash text cs
  | escape letter =>
      have value : escapeValue? letter = some c := h
      simp only [chars, List.cons_append, List.nil_append, unescape, if_true, value]

theorem unescape_unknown {letter : Char} (h : escapeValue? letter = none) (text : String) (cs : List Char) :
    unescape text ((escape letter).chars ++ cs) = .error (.unknownEscape letter text) := by
  simp only [chars, List.cons_append, List.nil_append, unescape, if_true, h]

/-- The first piece without a value, which is an escape. -/
structure FirstUnknown (pieces : List LiteralPiece) (letter : Char) : Prop where
  unknown : escapeValue? letter = none
  first : ∃ before after, pieces = before ++ escape letter :: after ∧ ∀ p ∈ before, p.value? ≠ none

theorem FirstUnknown.cons {pieces : List LiteralPiece} {letter : Char} (h : FirstUnknown pieces letter)
    {p : LiteralPiece} (known : p.value? ≠ none) : FirstUnknown (p :: pieces) letter := by
  obtain ⟨unknown, before, after, rfl, each⟩ := h
  exact ⟨unknown, p :: before, after, rfl, List.forall_mem_cons.2 ⟨known, each⟩⟩

/-- Either every piece has a value, or the first one without a value is refused. -/
theorem unescape_cases (text : String) (pieces : List LiteralPiece) :
    (∃ s, unescape text (pieces.flatMap chars) = .ok s ∧ pieces.map value? = s.map some) ∨
      ∃ letter, unescape text (pieces.flatMap chars) = .error (.unknownEscape letter text) ∧
        FirstUnknown pieces letter := by
  induction pieces with
  | nil => exact Or.inl ⟨[], rfl, rfl⟩
  | cons p pieces ih =>
      rw [List.flatMap_cons]
      cases value : p.value? with
      | some c =>
          rw [unescape_known value]
          obtain ⟨s, eq, values⟩ | ⟨letter, eq, first⟩ := ih
          · refine Or.inl ⟨c :: s, ?_, ?_⟩
            · rw [eq]
              rfl
            · rw [List.map_cons, List.map_cons, value, values]
          · refine Or.inr ⟨letter, ?_, first.cons (by simp [value])⟩
            rw [eq]
            rfl
      | none =>
          cases p with
          | plain c _ _ => cases value
          | escape letter =>
              refine Or.inr ⟨letter, unescape_unknown value text _, value, [], pieces, rfl, ?_⟩
              simp

theorem FirstUnknown.mem {pieces : List LiteralPiece} {letter : Char} (h : FirstUnknown pieces letter) :
    escape letter ∈ pieces := by
  obtain ⟨_, before, after, rfl, _⟩ := h
  exact List.mem_append_right before List.mem_cons_self

theorem ne_none_of_values {pieces : List LiteralPiece} {s : List Char}
    (values : pieces.map value? = s.map some) {letter : Char} (mem : escape letter ∈ pieces) :
    escapeValue? letter ≠ none := by
  have value : (escape letter).value? ∈ s.map some := values ▸ List.mem_map_of_mem mem
  obtain ⟨c, _, eq⟩ := List.mem_map.1 value
  intro unknown
  cases eq.trans unknown

theorem decodeString_literal (pieces : List LiteralPiece) :
    decodeString (literal pieces) =
      (unescape (literal pieces) (pieces.flatMap chars)).map String.ofList := by
  simp [decodeString]

/-! Printing what the pieces stand for -/

/-- No line break and no tab stands in the text as it is. -/
def Clean (cs : List Char) : Prop := ∀ c ∈ cs, c ≠ '\n' ∧ c ≠ '\t'

instance (cs : List Char) : Decidable (Clean cs) := List.decidableBAll (fun c => c ≠ '\n' ∧ c ≠ '\t') cs

theorem clean_escapeChar (c : Char) : Clean (escapeChar c) := by
  unfold escapeChar
  split
  · simp [Clean]
  split
  · simp [Clean]
  split
  · simp [Clean]
  split
  · simp [Clean]
  · next newline tab => simp [Clean, newline, tab]

theorem escapeChar_of_escapeValue? {letter c : Char} (h : escapeValue? letter = some c) :
    escapeChar c = ['\\', letter] := by
  unfold escapeValue? at h
  split at h
  · next eq => cases h; rw [eq]; rfl
  split at h
  · next eq => cases h; rw [eq]; rfl
  split at h
  · next eq => cases h; rw [eq]; rfl
  split at h
  · next eq => cases h; rw [eq]; rfl
  · cases h

theorem escapeChar_eq_chars {p : LiteralPiece} {c : Char} (h : p.value? = some c) (clean : Clean p.chars) :
    escapeChar c = p.chars := by
  cases p with
  | plain d quote backslash =>
      obtain rfl : d = c := Option.some.inj h
      obtain ⟨newline, tab⟩ := clean d (List.mem_singleton.2 rfl)
      simp [escapeChar, chars, quote, backslash, newline, tab]
  | escape letter => exact escapeChar_of_escapeValue? h

/-- Escaping what the pieces stand for gives the pieces back unless one of them has to be escaped. -/
theorem escaped_eq_iff {pieces : List LiteralPiece} {s : List Char}
    (values : pieces.map value? = s.map some) :
    escaped s = pieces.flatMap chars ↔ Clean (pieces.flatMap chars) := by
  constructor
  · intro same c hc
    rw [← same, escaped_eq_flatMap, List.mem_flatMap] at hc
    obtain ⟨d, _, mem⟩ := hc
    exact clean_escapeChar d c mem
  · intro clean
    induction pieces generalizing s with
    | nil =>
        cases s with
        | nil => rfl
        | cons c s => cases values
    | cons p pieces ih =>
        cases s with
        | nil => cases values
        | cons c s =>
            obtain ⟨value, rest⟩ := List.cons.inj values
            obtain ⟨here, behind⟩ := List.forall_mem_append.1 clean
            rw [escaped_cons, List.flatMap_cons, escapeChar_eq_chars value here, ih rest behind]

theorem clean_literal_iff (pieces : List LiteralPiece) :
    Clean (literal pieces).toList ↔ Clean (pieces.flatMap chars) := by
  rw [toList_literal]
  constructor
  · intro clean c hc
    exact clean c (List.mem_cons_of_mem _ (List.mem_append_left _ hc))
  · intro clean c hc
    simp only [List.mem_cons, List.mem_append, List.not_mem_nil, or_false] at hc
    rcases hc with rfl | inside | rfl
    · decide
    · exact clean c inside
    · decide

theorem print_eq_literal_iff {pieces : List LiteralPiece} {s : List Char}
    (values : pieces.map value? = s.map some) :
    (Value.str (String.ofList s)).print = .ok (literal pieces) ↔ Clean (literal pieces).toList := by
  have printed : (Value.str (String.ofList s)).print = .ok (String.ofList (literalChars s)) := by
    have printable : (Value.str (String.ofList s)).printable = true := rfl
    rw [Value.print, if_pos printable, Value.text, Value.chars, String.toList_ofList]
  rw [printed, Except.ok.injEq, literal, String.ofList_inj, literalChars, List.cons_inj_right,
    List.append_left_inj, escaped_eq_iff values, ← clean_literal_iff, literal]

end LiteralPiece

open LiteralPiece

/-- A string token falls into pieces in one way. It is refused exactly when one of its escapes is
unknown, the first such being named; and if it is accepted, the string prints as this very token
exactly when no line break and no tab stands in the token as it is. -/
theorem literal_escapes_canonical {t : Token} (isString : t.kind = .string) (wf : t.WellFormed) :
    ∃ pieces : List LiteralPiece, (∀ others, t.text = literal others ↔ others = pieces) ∧
      ((∃ e, decodeString t.text = .error e) ↔
        ∃ letter, .escape letter ∈ pieces ∧ letter ∉ ['\\', '"', 'n', 't']) ∧
      (∀ e, decodeString t.text = .error e →
        ∃ letter, FirstUnknown pieces letter ∧ e = .unknownEscape letter t.text) ∧
      ∀ s, decodeString t.text = .ok s →
        ((Value.str s).print = .ok t.text ↔ ∀ c ∈ t.text.toList, c ≠ '\n' ∧ c ≠ '\t') := by
  obtain ⟨kind, text⟩ := t
  cases isString
  obtain ⟨pieces, rfl⟩ := (wellFormed_iff_literal text).1 wf
  refine ⟨pieces, fun others => eq_literal_iff.trans eq_comm, ?_⟩
  rw [decodeString_literal]
  obtain ⟨s, decoded, values⟩ | ⟨letter, refused, first⟩ := unescape_cases (literal pieces) pieces
  · rw [decoded]
    refine ⟨⟨?_, ?_⟩, ?_, ?_⟩
    · rintro ⟨e, he⟩
      cases he
    · rintro ⟨letter, mem, other⟩
      exact absurd ((escapeValue?_eq_none_iff letter).2 other) (ne_none_of_values values mem)
    · intro e he
      cases he
    · intro text h
      cases h
      exact print_eq_literal_iff values
  · rw [refused]
    refine ⟨⟨fun _ => ⟨letter, first.mem, (escapeValue?_eq_none_iff letter).1 first.unknown⟩, fun _ => ⟨_, rfl⟩⟩,
      ?_, ?_⟩
    · intro e he
      cases he
      exact ⟨letter, first, rfl⟩
    · intro s h
      cases h

/-- Runs of backslashes in front of letters and of a quote. -/
theorem literal_escapes_canonical_backslashes :
    let t : Token := ⟨.string, "\"\\\\\\n\\\\n\\\"\""⟩
    t.kind = .string ∧ t.WellFormed ∧
      ∃ s, decodeString t.text = .ok s ∧ (Value.str s).print = .ok t.text := by
  intro t
  have wf : t.WellFormed :=
    (wellFormed_iff_literal t.text).2
      ⟨[.escape '\\', .escape 'n', .escape '\\', .plain 'n' (by decide) (by decide), .escape '"'], rfl⟩
  have decoded : decodeString t.text = .ok "\\\n\\n\"" := by cbv
  obtain ⟨_, _, _, _, printed⟩ := literal_escapes_canonical rfl wf
  have clean : Clean t.text.toList := by decide +kernel
  exact ⟨rfl, wf, _, decoded, (printed _ decoded).2 clean⟩

end MiniLisp
