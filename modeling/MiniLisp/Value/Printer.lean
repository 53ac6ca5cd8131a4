import MiniLisp.Value.Basic
import MiniLisp.Text.Quoted
import MiniLisp.Decimal.Notation

/-!
The printed form of a value, which reads back as the same tree, and its inspected form, which shows
the kind of every leaf. Both exist as text for every value; `printable` says which values a program
may print: those without an integer of more than 4300 digits.
-/

namespace MiniLisp

/-- The most digits an integer may have in a literal or in printed text. -/
def maxIntegerDigits : Nat := 4300

def atMostDigits : Nat → Nat → Bool
  | 0, n => n == 0
  | k + 1, n => if n < 10 then true else atMostDigits k (n / 10)

theorem atMostDigits_iff (k n : Nat) : atMostDigits k n = true ↔ n < Nat.pow 10 k := by
  induction k generalizing n with
  | zero => simp [atMostDigits]
  | succ k ih =>
      have pos : 0 < Nat.pow 10 k := Nat.pow_pos (by decide)
      change _ ↔ n < Nat.pow 10 k * 10
      by_cases small : n < 10
      · simp only [atMostDigits, small, if_true, true_iff]
        omega
      · simp only [atMostDigits, small, if_false, ih]
        omega

/-- Floats are written positionally from `0.0001` on and below `10 ^ 16`; a written exponent has a
sign and at least two digits. -/
def floatLayout : Decimal.Layout where
  plainFrom := -4
  plainBelow := 16
  exponentWidth := 2
  notANumber := "nan"
  infinite := "inf"

def floatChars (x : Float) : List Char := floatLayout.text x

def intChars : Int → List Char
  | .ofNat n => Nat.toDigits 10 n
  | .negSucc n => '-' :: Nat.toDigits 10 (n + 1)

/-- Puts `text` in place of every `c`. -/
def replaceChar (c : Char) (text cs : List Char) : List Char :=
  cs.flatMap fun d => if d = c then text else [d]

/-- The backslash is first: the other replacements bring in backslashes of their own. -/
def escaped (cs : List Char) : List Char :=
  let slashed := replaceChar '\\' ['\\', '\\'] cs
  let quoted := replaceChar '"' ['\\', '"'] slashed
  let broken := replaceChar '\n' ['\\', 'n'] quoted
  replaceChar '\t' ['\\', 't'] broken

def literalChars (cs : List Char) : List Char := '"' :: (escaped cs ++ ['"'])

/-- What all replacements together make of one character. -/
def escapeChar (c : Char) : List Char :=
  if c = '\\' then ['\\', '\\']
  else if c = '"' then ['\\', '"']
  else if c = '\n' then ['\\', 'n']
  else if c = '\t' then ['\\', 't']
  else [c]

/-- No replacement touches what another has put in. -/
theorem escaped_singleton (c : Char) : escaped [c] = escapeChar c := by
  by_cases slash : c = '\\'
  · rw [slash]
    rfl
  by_cases quote : c = '"'
  · rw [quote]
    rfl
  by_cases newline : c = '\n'
  · rw [newline]
    rfl
  by_cases tab : c = '\t'
  · rw [tab]
    rfl
  simp [escaped, replaceChar, escapeChar, slash, quote, newline, tab]

theorem escaped_append (cs ds : List Char) : escaped (cs ++ ds) = escaped cs ++ escaped ds := by
  simp [escaped, replaceChar]

theorem escaped_cons (c : Char) (cs : List Char) : escaped (c :: cs) = escapeChar c ++ escaped cs := by
  rw [← escaped_singleton]
  exact escaped_append [c] cs

theorem escaped_eq_flatMap (cs : List Char) : escaped cs = cs.flatMap escapeChar := by
  induction cs with
  | nil => rfl
  | cons c cs ih => rw [escaped_cons, ih, List.flatMap_cons]

def boolChars : Bool → List Char
  | true => ['t', 'r', 'u', 'e']
  | false => ['f', 'a', 'l', 's', 'e']

def nativeChars (p : Native) : List Char := "#<native ".toList ++ p.name.toList ++ ['>']

namespace Value

mutual

def chars : Value → List Char
  | .int n => intChars n
  | .float x => floatChars x
  | .bool b => boolChars b
  | .str s => literalChars s.toList
  | .sym name => name.toList
  | .list items => '(' :: (itemChars items ++ [')'])
  | .native p => nativeChars p
  | .proc kind params body _ =>
      '(' :: (kind.label.toList ++ ' ' :: (params.chars ++ ' ' :: (body.chars ++ [')'])))
  | .foreign => "None".toList

/-- Printed forms with one space between them. -/
def itemChars : List Value → List Char
  | [] => []
  | [v] => v.chars
  | v :: w :: vs => v.chars ++ ' ' :: itemChars (w :: vs)

end

mutual

def inspectChars : Value → List Char
  | .int n => intChars n
  | .float x => floatChars x
  | .bool true => "True".toList
  | .bool false => "False".toList
  | .str s => Text.quotedChars s.toList
  | .sym name => "Symbol(".toList ++ Text.quotedChars name.toList ++ [')']
  | .list items => '[' :: (inspectItems items ++ [']'])
  | .native p => "NativeProcedure(".toList ++ Text.quotedChars p.name.toList ++ [')']
  | .proc kind params body env => chars (.proc kind params body env)
  | .foreign => "None".toList

/-- Inspected forms with a comma and a space between them. -/
def inspectItems : List Value → List Char
  | [] => []
  | [v] => v.inspectChars
  | v :: w :: vs => v.inspectChars ++ ',' :: ' ' :: inspectItems (w :: vs)

end

mutual

/-- No integer in the tree is too long to be printed. -/
def printable : Value → Bool
  | .int n => atMostDigits maxIntegerDigits n.natAbs
  | .list items => allPrintable items
  | .proc _ params body _ => params.printable && body.printable
  | _ => true

def allPrintable : List Value → Bool
  | [] => true
  | v :: vs => v.printable && allPrintable vs

end

def text (v : Value) : String := String.ofList v.chars

def inspect (v : Value) : String := String.ofList v.inspectChars

/-- The text that goes to the console: a string stands for itself, without its quotes. -/
def rawText : Value → String
  | .str s => s
  | v => v.text

theorem allPrintable_iff (vs : List Value) : allPrintable vs = true ↔ ∀ v ∈ vs, v.printable = true := by
  induction vs with
  | nil => simp [allPrintable]
  | cons v vs ih => simp [allPrintable, ih]

end Value

end MiniLisp
