import MiniLisp.Config
import MiniLisp.Proofs.LetterCase
import MiniLisp.Proofs.Word

/-!
Settings and the texts that set them. Both texts are read without the blanks around them and without
regard to the case of letters; a depth is a number with a plus, zeros in front and underscores
between its digits, or one of the words for no bound. These texts and no others are accepted, and no
accepted depth is zero.
-/

namespace MiniLisp

open Text (isBlank isDigit valueOfDigits trimBlanks IsSettingChar)

/-- The text is this word, up to blanks around it and to the case of letters. -/
def Spells (text : String) (word : List Char) : Prop :=
  ∃ before core after, text.toList = before ++ (core ++ after) ∧ (∀ c ∈ before, isBlank c = true) ∧
    (∀ c ∈ after, isBlank c = true) ∧ core.map Char.toLower = word

/-- Digits with single underscores between some of them, and the digits alone. -/
inductive Grouped : List Char → List Char → Prop
  | digit {c} : isDigit c = true → Grouped [c] [c]
  | next {c text digits} : isDigit c = true → Grouped text digits → Grouped (c :: text) (c :: digits)
  | underscore {c text digits} : isDigit c = true → Grouped text digits →
      Grouped (c :: '_' :: text) (c :: digits)

/-- The texts that set a depth. -/
inductive SetsDepth (text : String) : Option Nat → Prop
  | blank : Spells text [] → SetsDepth text (some defaultExpansionDepth)
  | none : Spells text "none".toList → SetsDepth text none
  | zero : Spells text ['0'] → SetsDepth text none
  | number {sign grouped digits} : sign = [] ∨ sign = ['+'] → Grouped grouped digits →
      digits.length ≤ maxIntegerDigits → 1 ≤ valueOfDigits digits → Spells text (sign ++ grouped) →
      SetsDepth text (some (valueOfDigits digits))

/-! Blanks around a word -/

theorem dropWhile_blank {cs : List Char} (ne : cs ≠ []) (h : ∀ c ∈ cs, isBlank c = false)
    (rest : List Char) : (cs ++ rest).dropWhile isBlank = cs ++ rest := by
  obtain ⟨c, cs, rfl⟩ := List.exists_cons_of_ne_nil ne
  exact List.dropWhile_cons_of_neg (by simp [h c List.mem_cons_self])

theorem trimBlanks_padded {before core after : List Char} (hb : ∀ c ∈ before, isBlank c = true)
    (hc : ∀ c ∈ core, isBlank c = false) (ha : ∀ c ∈ after, isBlank c = true) :
    trimBlanks (before ++ (core ++ after)) = core := by
  rw [trimBlanks, List.dropWhile_append_of_pos hb]
  by_cases empty : core = []
  · subst empty
    have gone : (after ++ []).dropWhile isBlank = [] := List.dropWhile_append_of_pos ha
    rw [List.append_nil] at gone
    simp [gone]
  · rw [dropWhile_blank empty hc, List.reverse_append,
      List.dropWhile_append_of_pos fun c hc => ha c (List.mem_reverse.1 hc)]
    have front := dropWhile_blank (mt List.reverse_eq_nil_iff.1 empty)
      (fun c mem => hc c (List.mem_reverse.1 mem)) []
    rw [List.append_nil] at front
    rw [front, List.reverse_reverse]

theorem exists_padding (cs : List Char) :
    ∃ before after, cs = before ++ (trimBlanks cs ++ after) ∧ (∀ c ∈ before, isBlank c = true) ∧
      ∀ c ∈ after, isBlank c = true := by
  have blank (ds : List Char) : ∀ c ∈ ds.takeWhile isBlank, isBlank c = true :=
    List.all_eq_true.1 List.all_takeWhile
  refine ⟨cs.takeWhile isBlank, ((cs.dropWhile isBlank).reverse.takeWhile isBlank).reverse, ?_, blank cs, ?_⟩
  · rw [trimBlanks, ← List.reverse_append, List.takeWhile_append_dropWhile, List.reverse_reverse,
      List.takeWhile_append_dropWhile]
  · intro c hc
    exact blank _ c (List.mem_reverse.1 hc)

theorem toLower_of_isBlank {c : Char} (h : isBlank c = true) : c.toLower = c := by
  obtain ⟨r, hr, low, high⟩ := (Text.Ranges.contains_iff _ c).1 h
  have apart : ∀ r ∈ Text.blankRanges, r.2 < 65 ∨ 90 < r.1 := by decide
  have noCapital : ¬ (c.val ≥ 'A'.val ∧ c.val ≤ 'Z'.val) := by
    rintro ⟨above, below⟩
    have above' : 65 ≤ c.toNat := above
    have below' : c.toNat ≤ 90 := below
    have outside := apart r hr
    omega
  exact dif_neg noCapital

/-- Characters that a normalized setting may have. -/
def IsSettingWord (word : List Char) : Prop := ∀ d ∈ word, IsSettingChar d ∧ isBlank d = false

instance (word : List Char) : Decidable (IsSettingWord word) :=
  List.decidableBAll (fun d => IsSettingChar d ∧ isBlank d = false) word

theorem normalize_eq_iff {word : List Char} (h : IsSettingWord word) (text : String) :
    Config.normalize text = String.ofList word ↔ Spells text word := by
  have lower := Text.lowerCase_eq_iff fun d hd => (h d hd).1
  rw [Config.normalize, String.ofList_inj, lower]
  constructor
  · intro same
    obtain ⟨before, after, eq, hb, ha⟩ := exists_padding text.toList
    exact ⟨before, trimBlanks text.toList, after, eq, hb, ha, same⟩
  · rintro ⟨before, core, after, eq, hb, ha, rfl⟩
    have solid : ∀ c ∈ core, isBlank c = false := by
      intro c hc
      cases blank : isBlank c with
      | false => rfl
      | true =>
          have not := (h _ (List.mem_map_of_mem hc)).2
          rw [toLower_of_isBlank blank, blank] at not
          cases not
    rw [eq, trimBlanks_padded hb solid ha]

/-! Numbers -/

theorem Grouped.exists_cons {text digits : List Char} (h : Grouped text digits) :
    ∃ c rest, text = c :: rest ∧ isDigit c = true := by
  cases h with
  | digit h => exact ⟨_, _, rfl, h⟩
  | next h _ => exact ⟨_, _, rfl, h⟩
  | underscore h _ => exact ⟨_, _, rfl, h⟩

theorem Grouped.chars {text digits : List Char} (h : Grouped text digits) :
    ∀ c ∈ text, isDigit c = true ∨ c = '_' := by
  induction h with
  | digit h => exact List.forall_mem_singleton.2 (Or.inl h)
  | next h _ ih => exact List.forall_mem_cons.2 ⟨Or.inl h, ih⟩
  | underscore h _ ih => exact List.forall_mem_cons.2 ⟨Or.inl h, List.forall_mem_cons.2 ⟨Or.inr rfl, ih⟩⟩

theorem Grouped.unsigned {text digits : List Char} (h : Grouped text digits) : Unsigned text := by
  obtain ⟨c, rest, rfl, digit⟩ := h.exists_cons
  exact IsDigitRow.append_unsigned ⟨List.cons_ne_nil c [], List.forall_mem_singleton.2 digit⟩ rest

theorem grouped_of_ungroup? {text digits : List Char} (h : Config.ungroup? text = some digits) :
    Grouped text digits := by
  fun_induction Config.ungroup? text generalizing digits with
  | case1 => cases h
  | case2 c digit =>
      cases h
      exact .digit digit
  | case3 => cases h
  | case4 c cs digit ih =>
      obtain ⟨rest, eq, rfl⟩ := Option.map_eq_some_iff.1 h
      exact .underscore digit (ih eq)
  | case5 c d cs digit other ih =>
      obtain ⟨rest, eq, rfl⟩ := Option.map_eq_some_iff.1 h
      exact .next digit (ih eq)
  | case6 => cases h

theorem ungroup?_eq_some_iff (text digits : List Char) :
    Config.ungroup? text = some digits ↔ Grouped text digits := by
  constructor
  · exact grouped_of_ungroup?
  · intro h
    induction h with
    | digit h => simp [Config.ungroup?, h]
    | underscore h _ ih => simp [Config.ungroup?, h, ih]
    | next h later ih =>
        obtain ⟨d, rest, rfl, digit⟩ := later.exists_cons
        have other : d ≠ '_' := ne_of_isDigit digit (by decide)
        simp [Config.ungroup?, h, other, ih]

theorem exists_plus {cs : List Char} (h : (splitSign cs).1 = false) :
    ∃ sign, (sign = [] ∨ sign = ['+']) ∧ cs = sign ++ (splitSign cs).2 := by
  cases cs with
  | nil => exact ⟨[], Or.inl rfl, rfl⟩
  | cons c cs =>
      by_cases minus : c = '-'
      · simp [splitSign, minus] at h
      by_cases plus : c = '+'
      · exact ⟨['+'], Or.inr rfl, by simp [splitSign, plus]⟩
      · exact ⟨[], Or.inl rfl, by simp [splitSign, minus, plus]⟩

/-- The positive integers that are read. -/
theorem integer?_eq_some_iff (text : List Char) {k : Int} (pos : 1 ≤ k) :
    Config.integer? text = some k ↔
      ∃ sign grouped digits, text = sign ++ grouped ∧ (sign = [] ∨ sign = ['+']) ∧ Grouped grouped digits ∧
        digits.length ≤ maxIntegerDigits ∧ k = valueOfDigits digits := by
  constructor
  · intro h
    unfold Config.integer? at h
    split at h
    next negative grouped split =>
    split at h
    · next digits ungrouped =>
        split at h
        · next short =>
            have value := Option.some.inj h
            cases negative with
            | true =>
                rw [signedValue, if_pos rfl] at value
                omega
            | false =>
                rw [signedValue, if_neg Bool.false_ne_true] at value
                obtain ⟨sign, isSign, eq⟩ := exists_plus (congrArg Prod.fst split)
                rw [split] at eq
                exact ⟨sign, grouped, digits, eq, isSign, grouped_of_ungroup? ungrouped, short, value.symm⟩
        · cases h
    · cases h
  · rintro ⟨sign, grouped, digits, rfl, isSign, h, short, rfl⟩
    have split : splitSign (sign ++ grouped) = (false, grouped) := by
      rcases isSign with rfl | rfl
      · exact splitSign_of_unsigned h.unsigned
      · rfl
    have ungrouped := (ungroup?_eq_some_iff grouped digits).2 h
    simp only [Config.integer?, split, ungrouped, if_pos short, signedValue]
    rfl

/-! The depth -/

theorem isSettingWord_number {sign grouped digits : List Char} (isSign : sign = [] ∨ sign = ['+'])
    (h : Grouped grouped digits) : IsSettingWord (sign ++ grouped) := by
  have inside : IsSettingWord grouped := by
    intro c hc
    rcases h.chars c hc with digit | rfl
    · exact ⟨Or.inr digit, isBlank_of_isDigit digit⟩
    · decide
  rcases isSign with rfl | rfl
  · exact inside
  · exact List.forall_mem_cons.2 ⟨by decide, inside⟩

theorem depthOfText_of_integer? {text : String} {k : Int} (pos : 1 ≤ k)
    (h : Config.integer? (Config.normalize text).toList = some k) :
    Config.depthOfText (some text) = .ok (some k) := by
  have ne (word : String) (other : ∀ k, Config.integer? word.toList = some k → k < 1) :
      Config.normalize text ≠ word := by
    intro same
    rw [same] at h
    have below := other k h
    omega
  have notBlank := ne "" fun k h => nomatch h
  have notNone := ne "none" fun k h => nomatch h
  have notZero := ne "0" fun k h => by
    obtain rfl : (0 : Int) = k := Option.some.inj h
    decide
  simp [Config.depthOfText, notBlank, notNone, notZero, h]

theorem depthOfText_cases {text : String} {depth : Option Int} (h : Config.depthOfText (some text) = .ok depth) :
    (Config.normalize text = "" ∧ depth = some defaultExpansionDepth) ∨
      ((Config.normalize text = "none" ∨ Config.normalize text = "0") ∧ depth = none) ∨
      ∃ k, Config.integer? (Config.normalize text).toList = some k ∧ depth = some k := by
  simp only [Config.depthOfText] at h
  split at h
  · next blank =>
      cases h
      exact Or.inl ⟨blank, rfl⟩
  split at h
  · next word =>
      cases h
      simp only [Bool.or_eq_true, decide_eq_true_eq] at word
      exact Or.inr (Or.inl ⟨word, rfl⟩)
  split at h
  · next k number =>
      cases h
      exact Or.inr (Or.inr ⟨k, number, rfl⟩)
  · cases h

/-- Depths as a setting holds them. -/
def depthValue (depth : Option Nat) : Option Int := depth.map Int.ofNat

theorem depthValue_eq_none_iff (depth : Option Nat) : depthValue depth = none ↔ depth = none :=
  Option.map_eq_none_iff

theorem depthValue_eq_some_iff (depth : Option Nat) (k : Int) :
    depthValue depth = some k ↔ ∃ n : Nat, depth = some n ∧ (n : Int) = k :=
  Option.map_eq_some_iff

theorem depthOfText_of_setsDepth {text : String} {depth : Option Nat} (h : SetsDepth text depth) :
    Config.depthOfText (some text) = .ok (depthValue depth) := by
  cases h with
  | blank spells =>
      have eq := (normalize_eq_iff (by decide) text).2 spells
      rw [Config.depthOfText, eq]
      rfl
  | none spells =>
      have eq := (normalize_eq_iff (by decide) text).2 spells
      rw [Config.depthOfText, eq]
      rfl
  | zero spells =>
      have eq := (normalize_eq_iff (by decide) text).2 spells
      rw [Config.depthOfText, eq]
      rfl
  | @number sign grouped digits isSign isGrouped short pos spells =>
      have eq := (normalize_eq_iff (isSettingWord_number isSign isGrouped) text).2 spells
      have positive : (1 : Int) ≤ valueOfDigits digits := by omega
      refine depthOfText_of_integer? positive ?_
      rw [eq, String.toList_ofList]
      exact (integer?_eq_some_iff _ positive).2 ⟨sign, grouped, digits, rfl, isSign, isGrouped, short, rfl⟩

theorem SetsDepth.positive {text : String} {depth : Option Nat} (h : SetsDepth text depth) :
    ∀ n, depth = some n → 1 ≤ n := by
  rintro n rfl
  cases h with
  | blank => decide
  | number _ _ _ pos => exact pos

theorem setsDepth_of_depthOfText {text : String} {depth : Option Nat}
    (h : Config.depthOfText (some text) = .ok (depthValue depth)) (positive : ∀ n, depth = some n → 1 ≤ n) :
    SetsDepth text depth := by
  obtain ⟨blank, eq⟩ | ⟨word, eq⟩ | ⟨k, number, eq⟩ := depthOfText_cases h
  · obtain ⟨n, rfl, same⟩ := (depthValue_eq_some_iff depth _).1 eq
    obtain rfl := Int.ofNat_inj.1 same
    exact .blank ((normalize_eq_iff (by decide) text).1 blank)
  · obtain rfl := (depthValue_eq_none_iff depth).1 eq
    rcases word with none | zero
    · exact .none ((normalize_eq_iff (by decide) text).1 none)
    · exact .zero ((normalize_eq_iff (by decide) text).1 zero)
  · obtain ⟨n, rfl, rfl⟩ := (depthValue_eq_some_iff depth k).1 eq
    have pos : (1 : Int) ≤ n := by exact_mod_cast positive n rfl
    obtain ⟨sign, grouped, digits, same, isSign, isGrouped, short, value⟩ :=
      (integer?_eq_some_iff _ pos).1 number
    obtain rfl := Int.ofNat_inj.1 value
    refine .number isSign isGrouped short (positive _ rfl) ?_
    apply (normalize_eq_iff (isSettingWord_number isSign isGrouped) text).1
    rw [← same, String.ofList_toList]

/-! Both settings -/

theorem ofName?_eq_some_iff (name : String) (s : Scoping) : Scoping.ofName? name = some s ↔ name = s.name := by
  constructor
  · intro h
    unfold Scoping.ofName? at h
    split at h
    · next eq =>
        cases h
        exact eq
    split at h
    · next eq =>
        cases h
        exact eq
    · cases h
  · rintro rfl
    exact Scoping.ofName?_name s

theorem make_eq_ok_iff (name : String) (depth : Option Int) (c : Config) :
    Config.make name depth = .ok c ↔ name = c.scoping.name ∧ depth = depthValue c.maxExpansionDepth ∧
      ∀ n, c.maxExpansionDepth = some n → 1 ≤ n := by
  constructor
  · intro h
    unfold Config.make at h
    split at h
    · cases h
    · next s known =>
        obtain rfl := (ofName?_eq_some_iff name s).1 known
        split at h
        · cases h
          exact ⟨rfl, rfl, fun n h => nomatch h⟩
        · next d =>
            split at h
            · cases h
            · next notBelow =>
                cases h
                refine ⟨rfl, congrArg some (Int.toNat_of_nonneg (by omega)).symm, ?_⟩
                rintro n ⟨⟩
                omega
  · obtain ⟨s, limit⟩ := c
    rintro ⟨rfl, rfl, positive⟩
    rw [Config.make, Scoping.ofName?_name]
    cases limit with
    | none => rfl
    | some n =>
        have notBelow : ¬ (n : Int) < 1 := by
          have pos := positive n rfl
          omega
        exact if_neg notBelow

theorem isSettingWord_name (s : Scoping) : IsSettingWord s.name.toList := by
  cases s <;> decide

theorem normalize_eq_name_iff (text : String) (s : Scoping) :
    Config.normalize text = s.name ↔ Spells text s.name.toList := by
  rw [← normalize_eq_iff (isSettingWord_name s), String.ofList_toList]

/-- Two texts set a configuration when they spell it, and no other texts do. -/
theorem ofTexts_eq_ok_iff (scoping depth : String) (c : Config) :
    Config.ofTexts (some scoping) (some depth) = .ok c ↔
      Spells scoping c.scoping.name.toList ∧ SetsDepth depth c.maxExpansionDepth := by
  rw [← normalize_eq_name_iff]
  constructor
  · intro h
    unfold Config.ofTexts at h
    split at h
    · cases h
    · next d read =>
        obtain ⟨name, rfl, positive⟩ := (make_eq_ok_iff _ d c).1 h
        exact ⟨name, setsDepth_of_depthOfText read positive⟩
  · rintro ⟨name, sets⟩
    have read := depthOfText_of_setsDepth sets
    have made := (make_eq_ok_iff (Config.normalize scoping) _ c).2 ⟨name, rfl, sets.positive⟩
    simpa [Config.ofTexts, read] using made

/-- Zeros in front do not change the value. -/
theorem valueOfDigits_decimal (zeros n : Nat) :
    valueOfDigits (List.replicate zeros '0' ++ Nat.toDigits 10 n) = n := by
  rw [valueOfDigits, List.foldl_append]
  have front : (List.replicate zeros '0').foldl (fun n c => 10 * n + Text.digitValue c) 0 = 0 := by
    induction zeros with
    | zero => rfl
    | succ zeros ih => exact ih
  rw [front]
  exact valueOfDigits_toDigits n

theorem setsDepth_decimal {text : String} {n zeros : Nat} {sign grouped : List Char} (pos : 1 ≤ n)
    (short : zeros + Decimal.digitCount n ≤ maxIntegerDigits) (isSign : sign = [] ∨ sign = ['+'])
    (isGrouped : Grouped grouped (List.replicate zeros '0' ++ Nat.toDigits 10 n))
    (spells : Spells text (sign ++ grouped)) : SetsDepth text (some n) := by
  have value := valueOfDigits_decimal zeros n
  rw [← value]
  refine .number isSign isGrouped ?_ (by omega) spells
  rw [List.length_append, List.length_replicate]
  exact short

/-- Texts that spell a scoping and a depth set exactly these; the decimal text of a depth, with a plus,
zeros in front and underscores, sets the depth; and two texts, whatever they are, set a configuration
without bound or with a positive one, or are refused. -/
theorem settings_read_exactly (scoping depth : String) :
    (∀ c, Config.ofTexts (some scoping) (some depth) = .ok c ↔
      Spells scoping c.scoping.name.toList ∧ SetsDepth depth c.maxExpansionDepth) ∧
    (∀ (s : Scoping) (n zeros : Nat) (sign grouped : List Char), Spells scoping s.name.toList →
      1 ≤ n → zeros + Decimal.digitCount n ≤ maxIntegerDigits → sign = [] ∨ sign = ['+'] →
      Grouped grouped (List.replicate zeros '0' ++ Nat.toDigits 10 n) → Spells depth (sign ++ grouped) →
      Config.ofTexts (some scoping) (some depth) = .ok ⟨s, some n⟩) ∧
    ((∃ e, Config.ofTexts (some scoping) (some depth) = .error e) ∨
      ∃ c, Config.ofTexts (some scoping) (some depth) = .ok c ∧
        (c.scoping = .dynamic ∨ c.scoping = .lexical) ∧
        (c.maxExpansionDepth = none ∨ ∃ n, c.maxExpansionDepth = some n ∧ 1 ≤ n)) := by
  refine ⟨ofTexts_eq_ok_iff scoping depth, ?_, ?_⟩
  · intro s n zeros sign grouped name pos short isSign isGrouped spells
    have sets := setsDepth_decimal pos short isSign isGrouped spells
    exact (ofTexts_eq_ok_iff scoping depth ⟨s, some n⟩).2 ⟨name, sets⟩
  · cases read : Config.ofTexts (some scoping) (some depth) with
    | error e => exact Or.inl ⟨e, rfl⟩
    | ok c =>
        obtain ⟨_, sets⟩ := (ofTexts_eq_ok_iff scoping depth c).1 read
        refine Or.inr ⟨c, rfl, ?_, ?_⟩
        · cases c.scoping with
          | dynamic => exact Or.inl rfl
          | lexical => exact Or.inr rfl
        · cases limit : c.maxExpansionDepth with
          | none => exact Or.inl rfl
          | some n => exact Or.inr ⟨n, rfl, sets.positive n limit⟩

/-- A wide space and a line break around the texts, capitals, a plus, zeros and underscores. -/
theorem settings_read_exactly_padded :
    Config.ofTexts (some "\u2003LeXicaL") (some "\t+0_02_500\n") = .ok ⟨.lexical, some 2500⟩ := by
  have name : Spells "\u2003LeXicaL" Scoping.lexical.name.toList :=
    ⟨['\u2003'], "LeXicaL".toList, [], by decide, List.all_eq_true.1 (by decide), List.forall_mem_nil _, by decide⟩
  have grouped : Grouped "0_02_500".toList (List.replicate 2 '0' ++ Nat.toDigits 10 2500) :=
    .underscore rfl (.next rfl (.underscore rfl (.next rfl (.next rfl (.digit rfl)))))
  have number : Spells "\t+0_02_500\n" (['+'] ++ "0_02_500".toList) :=
    ⟨['\t'], "+0_02_500".toList, ['\n'], by decide, List.all_eq_true.1 (by decide), List.all_eq_true.1 (by decide),
      by decide⟩
  exact (settings_read_exactly _ _).2.1 .lexical 2500 2 ['+'] _ name (by decide) (by decide) (Or.inr rfl) grouped
    number

end MiniLisp
