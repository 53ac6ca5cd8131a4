import MiniLisp.Text.Blank
import MiniLisp.Text.LowerCase
import MiniLisp.Text.Quoted
import MiniLisp.Source.Atom

/-!
Settings of an interpreter, and how they are read from the texts of two environment variables.
-/

namespace MiniLisp

/-- Which frame a procedure call extends: the caller's, or the one the procedure was made in. -/
inductive Scoping where
  | dynamic
  | lexical
deriving DecidableEq, Repr

namespace Scoping

def name : Scoping → String
  | .dynamic => "dynamic"
  | .lexical => "lexical"

def ofName? (name : String) : Option Scoping :=
  if name = "dynamic" then some .dynamic else if name = "lexical" then some .lexical else none

theorem ofName?_name (s : Scoping) : ofName? s.name = some s := by
  cases s <;> decide

end Scoping

def defaultExpansionDepth : Nat := 1000

/-- `maxExpansionDepth` bounds the macro expansions on a path into a form; `none` is no bound. -/
structure Config where
  scoping : Scoping := .dynamic
  maxExpansionDepth : Option Nat := some defaultExpansionDepth
deriving DecidableEq, Repr

inductive ConfigError where
  | scoping (text : String)
  | depthNotPositive
  | depthText (text : String)
  /-- Settings were given for a frame that has an outer frame. -/
  | notAtRoot
deriving DecidableEq

def ConfigError.message : ConfigError → String
  | .scoping text => "scoping must be one of ('dynamic', 'lexical'), got " ++ Text.quoted text
  | .depthNotPositive => "max_expansion_depth must be a positive integer or None"
  | .depthText text =>
      "SABLE_MAX_EXPANSION_DEPTH must be an integer or 'none', got " ++ Text.quoted text
  | .notAtRoot => "config can only be set on a root environment"

namespace Config

def make (scoping : String) (depth : Option Int) : Except ConfigError Config :=
  match Scoping.ofName? scoping with
  | none => .error (.scoping scoping)
  | some s => match depth with
    | none => .ok ⟨s, none⟩
    | some d => if d < 1 then .error .depthNotPositive else .ok ⟨s, some d.toNat⟩

/-- Settings of which either may be missing; a depth that is there may be no bound. -/
def ofFields (scoping : Option String) (depth : Option (Option Int)) : Except ConfigError Config :=
  make (scoping.getD Scoping.dynamic.name) (depth.getD (some defaultExpansionDepth))

/-- The digits of a number whose digits may have single underscores between them. -/
def ungroup? : List Char → Option (List Char)
  | [] => none
  | [c] => if Text.isDigit c then some [c] else none
  | c :: d :: cs =>
      if Text.isDigit c then
        if d = '_' then (ungroup? cs).map (c :: ·) else (ungroup? (d :: cs)).map (c :: ·)
      else none

/-- A signed integer of at most 4300 digits. -/
def integer? (cs : List Char) : Option Int :=
  let (negative, grouped) := splitSign cs
  match ungroup? grouped with
  | some digits =>
      if digits.length ≤ maxIntegerDigits then some (signedValue negative digits) else none
  | none => none

def normalize (text : String) : String :=
  String.ofList (Text.lowerCase (Text.trimBlanks text.toList))

/-- The depth that a text sets: `none` and `0` are no bound, and a blank text is the default. -/
def depthOfText (text : Option String) : Except ConfigError (Option Int) :=
  match text with
  | none => .ok (some defaultExpansionDepth)
  | some raw =>
      let t := normalize raw
      if t = "" then .ok (some defaultExpansionDepth)
      else if t = "none" || t = "0" then .ok none
      else match integer? t.toList with
        | some d => .ok (some d)
        | none => .error (.depthText t)

def ofTexts (scoping depth : Option String) : Except ConfigError Config :=
  match depthOfText depth with
  | .error e => .error e
  | .ok d => make (normalize (scoping.getD Scoping.dynamic.name)) d

end Config

end MiniLisp
