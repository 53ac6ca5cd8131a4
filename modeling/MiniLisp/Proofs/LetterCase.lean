import MiniLisp.Text.DecimalDigit
import MiniLisp.Text.LowerCase

/-!
Lower case of ASCII text and of digits. On these only the ASCII capitals change, and nothing else has
such a lower case, apart from the Kelvin sign, whose lower case is the letter k.
-/

namespace MiniLisp.Text

/-- Blocks that hold all capitals beyond ASCII and, but for the letter k, their lower-case letters. -/
def letterBlocks : Ranges := [
  (0x00C0, 0x0586), (0x10A0, 0x13FD), (0x1C90, 0x2D2D), (0xA640, 0xA7F6), (0xAB53, 0xABBF),
  (0xFF21, 0x1044F), (0x104B0, 0x10CF2), (0x118A0, 0x118DF), (0x16E40, 0x16E7F), (0x1E900, 0x1E943)
]

theorem block_of_capitalRun {r : Nat × Nat × Nat × Int} (h : r ∈ capitalRuns) :
    ∃ b ∈ letterBlocks, b.1 ≤ r.1 ∧ r.2.1 ≤ b.2 := by
  have all : ∀ r ∈ capitalRuns, ∃ b ∈ letterBlocks, b.1 ≤ r.1 ∧ r.2.1 ≤ b.2 := by decide +kernel
  exact all r h

theorem block_of_shifted {r : Nat × Nat × Nat × Int} (h : r ∈ capitalRuns) :
    ((r.1 : Int) + r.2.2.2 = 107 ∧ r.2.1 = r.1) ∨
      ∃ b ∈ letterBlocks, (b.1 : Int) ≤ r.1 + r.2.2.2 ∧ r.2.1 + r.2.2.2 ≤ b.2 := by
  have all : ∀ r ∈ capitalRuns, ((r.1 : Int) + r.2.2.2 = 107 ∧ r.2.1 = r.1) ∨
      ∃ b ∈ letterBlocks, (b.1 : Int) ≤ r.1 + r.2.2.2 ∧ r.2.1 + r.2.2.2 ≤ b.2 := by decide +kernel
  exact all r h

theorem block_apart {b : Nat × Nat} (hb : b ∈ letterBlocks) {z : Nat} (hz : z ∈ digitZeros) :
    b.2 < z ∨ z + 10 ≤ b.1 := by
  have all : ∀ b ∈ letterBlocks, ∀ z ∈ digitZeros, b.2 < z ∨ z + 10 ≤ b.1 := by decide +kernel
  exact all b hb z hz

theorem block_bounds {b : Nat × Nat} (hb : b ∈ letterBlocks) :
    128 ≤ b.1 ∧ (b.2 < 0xD800 ∨ (0xE000 ≤ b.1 ∧ b.2 < 0x110000)) := by
  have all : ∀ b ∈ letterBlocks, 128 ≤ b.1 ∧ (b.2 < 0xD800 ∨ (0xE000 ≤ b.1 ∧ b.2 < 0x110000)) := by decide
  exact all b hb

theorem not_isDigit_of_block {b : Nat × Nat} (hb : b ∈ letterBlocks) {c : Char} (low : b.1 ≤ c.toNat)
    (high : c.toNat ≤ b.2) : ¬ isDigit c = true := by
  intro digit
  obtain ⟨z, hz, above, below⟩ := (isDigit_iff c).1 digit
  have apart := block_apart hb hz
  omega

theorem toNat_ofNat_of_block {b : Nat × Nat} (hb : b ∈ letterBlocks) {n : Nat} (low : b.1 ≤ n)
    (high : n ≤ b.2) : (Char.ofNat n).toNat = n := by
  have valid : n.isValidChar := by
    have bounds := block_bounds hb
    unfold Nat.isValidChar
    omega
  rw [Char.ofNat, dif_pos valid]
  rfl

/-- The character stands in one of the blocks. -/
def InBlock (c : Char) : Prop := ∃ b ∈ letterBlocks, b.1 ≤ c.toNat ∧ c.toNat ≤ b.2

/-- ASCII without the letter k, and the digits of all scripts. -/
def IsSettingChar (c : Char) : Prop := (c.toNat < 128 ∧ c ≠ 'k') ∨ isDigit c = true

instance : DecidablePred IsSettingChar :=
  fun c => inferInstanceAs (Decidable ((c.toNat < 128 ∧ c ≠ 'k') ∨ isDigit c = true))

theorem not_setting_of_inBlock {c : Char} (h : InBlock c) : ¬ IsSettingChar c := by
  obtain ⟨b, hb, low, high⟩ := h
  rintro (⟨ascii, _⟩ | digit)
  · have bounds := block_bounds hb
    omega
  · exact not_isDigit_of_block hb low high digit

theorem toLower_of_not_ascii {c : Char} (h : 128 ≤ c.toNat) : c.toLower = c := by
  have noCapital : ¬ (c.val ≥ 'A'.val ∧ c.val ≤ 'Z'.val) := by
    rintro ⟨_, high⟩
    have bound : c.toNat ≤ 90 := high
    omega
  exact dif_neg noCapital

/-- A capital beyond ASCII turns into a letter of a block or into k. -/
theorem not_setting_of_capitalRun? {c : Char} {r : Nat × Nat × Nat × Int} (h : capitalRun? c.toNat = some r) :
    InBlock c ∧ ¬ IsSettingChar (Char.ofNat (c.toNat + r.2.2.2).toNat) := by
  have mem : r ∈ capitalRuns := List.mem_of_find?_eq_some h
  have inRun := List.find?_some h
  simp only [Bool.and_eq_true, decide_eq_true_eq] at inRun
  obtain ⟨⟨first, last⟩, _⟩ := inRun
  constructor
  · obtain ⟨b, hb, low, high⟩ := block_of_capitalRun mem
    exact ⟨b, hb, by omega, by omega⟩
  · obtain ⟨letterK, single⟩ | ⟨b, hb, low, high⟩ := block_of_shifted mem
    · rw [show (c.toNat + r.2.2.2 : Int).toNat = 107 by omega]
      decide
    · apply not_setting_of_inBlock
      have low' : b.1 ≤ (c.toNat + r.2.2.2 : Int).toNat := by omega
      have high' : (c.toNat + r.2.2.2 : Int).toNat ≤ b.2 := by omega
      refine ⟨b, hb, ?_⟩
      rw [toNat_ofNat_of_block hb low' high']
      exact ⟨low', high'⟩

/-- A character has its ASCII lower case, or it turns into something that no setting is made of. -/
theorem lowerOf_cases (c : Char) :
    lowerOf c = [c.toLower] ∨ (InBlock c ∧ ∃ d ∈ lowerOf c, ¬ IsSettingChar d) := by
  by_cases ascii : c.toNat < 128
  · exact Or.inl (if_pos ascii)
  have keeps : c.toLower = c := toLower_of_not_ascii (by omega)
  by_cases dotted : c.toNat = 0x0130
  · right
    have eq : lowerOf c = ['i', Char.ofNat 0x0307] := by rw [lowerOf, if_neg ascii, if_pos dotted]
    refine ⟨⟨(0x00C0, 0x0586), by decide, by omega, by omega⟩, Char.ofNat 0x0307, by simp [eq], ?_⟩
    apply not_setting_of_inBlock
    exact ⟨(0x00C0, 0x0586), by decide, by decide, by decide⟩
  cases run : capitalRun? c.toNat with
  | none =>
      left
      simp only [lowerOf, if_neg ascii, if_neg dotted, run, keeps]
  | some r =>
      right
      obtain ⟨block, other⟩ := not_setting_of_capitalRun? run
      exact ⟨block, _, by simp [lowerOf, if_neg ascii, if_neg dotted, run], other⟩

theorem inBlock_of_sigma {c : Char} (h : c.toNat = 0x03A3) : InBlock c :=
  ⟨(0x00C0, 0x0586), by decide, by omega, by omega⟩

theorem not_setting_finalSigma : ¬ IsSettingChar (Char.ofNat 0x03C2) :=
  not_setting_of_inBlock ⟨(0x00C0, 0x0586), by decide, by decide, by decide⟩

/-- Only ASCII capitals change in a text without characters of the blocks. -/
theorem lowerAfter_eq_map {cs : List Char} (outside : ∀ c ∈ cs, ¬ InBlock c) (inWord : Bool) :
    lowerAfter inWord cs = cs.map Char.toLower := by
  induction cs generalizing inWord with
  | nil => rfl
  | cons c cs ih =>
      obtain ⟨first, rest⟩ := List.forall_mem_cons.1 outside
      have sigma : c.toNat ≠ 0x03A3 := fun h => first (inBlock_of_sigma h)
      obtain eq | ⟨block, _⟩ := lowerOf_cases c
      · simp [lowerAfter, sigma, eq, ih rest]
      · exact absurd block first

/-- A text whose lower case is made of setting characters has only ASCII capitals. -/
theorem lowerAfter_eq_map_of_setting {cs : List Char} {inWord : Bool}
    (setting : ∀ d ∈ lowerAfter inWord cs, IsSettingChar d) : lowerAfter inWord cs = cs.map Char.toLower := by
  induction cs generalizing inWord with
  | nil => rfl
  | cons c cs ih =>
      rw [lowerAfter, List.forall_mem_append] at setting
      obtain ⟨here, behind⟩ := setting
      rw [lowerAfter, ih behind, List.map_cons]
      split
      · next sigma =>
          rw [if_pos sigma] at here
          exact absurd (here _ List.mem_cons_self) not_setting_finalSigma
      · next sigma =>
          rw [if_neg sigma] at here
          obtain eq | ⟨_, d, hd, other⟩ := lowerOf_cases c
          · rw [eq]
            rfl
          · exact absurd (here d hd) other

theorem lowerCase_eq_iff {word : List Char} (setting : ∀ d ∈ word, IsSettingChar d) (cs : List Char) :
    lowerCase cs = word ↔ cs.map Char.toLower = word := by
  constructor
  · intro h
    rw [← h] at setting
    exact (lowerAfter_eq_map_of_setting setting).symm.trans h
  · rintro rfl
    apply lowerAfter_eq_map
    intro c hc block
    obtain ⟨b, hb, low, _⟩ := id block
    have bounds := block_bounds hb
    have lower := setting _ (List.mem_map_of_mem hc)
    rw [toLower_of_not_ascii (by omega)] at lower
    exact not_setting_of_inBlock block lower

end MiniLisp.Text
