/- Module: TicketWarden/Python/Unicode
   source: Python standard library (unicodedata, re, sys.setrecursionlimit)
   digest: What the interpreter decides: its character database and the depth of its stack;
   the character classes of its regular expressions, and the expressions the guardrails are
   written with. -/

import TicketWarden.Patterns.Scan

/-!
Python's `re` decides `\d`, `\s`, `\w` and `\b` on strings by the Unicode database, and
`unicodedata.normalize` folds by it. The database changes from one Python to the next, so
it is a value here: what the standard library documents about it is part of the value, and
results hold for every such database. So is the room the recursion limit leaves on the stack.
-/

set_option autoImplicit false
set_option relaxedAutoImplicit false

namespace TicketWarden.Python

open Patterns

def asciiSpace (c : Char) : Bool :=
  (9 ≤ c.toNat && c.toNat ≤ 13) || (28 ≤ c.toNat && c.toNat ≤ 32)

/-- The four characters beyond ASCII that match an ASCII letter when case is ignored: dotted
capital I, dotless small i, long s and the Kelvin sign. -/
def caseExtra : List Char :=
  [Char.ofNat 0x130, Char.ofNat 0x131, Char.ofNat 0x17F, Char.ofNat 0x212A]

/-- What the code takes from the interpreter and from LangGraph: the Unicode database; the
frames the stack has left for a scan, those that a call of a built-in function counts for, and
the levels of lists and dictionaries that `json.dumps` descends; and the texts of the
exceptions at the recursion limits of Python and of LangGraph. -/
structure Runtime where
  isDecimal : Char → Bool
  isSpace : Char → Bool
  isAlnum : Char → Bool
  nfkc : List Char → List Char
  stackFrames : ℕ
  builtinFrames : ℕ
  dumpsDepth : ℕ
  stackMessage : String
  limitMessage : ℕ → String
  isDecimal_ascii : ∀ c : Char, c.toNat < 128 → isDecimal c = c.isDigit
  isSpace_ascii : ∀ c : Char, c.toNat < 128 → isSpace c = asciiSpace c
  isAlnum_ascii : ∀ c : Char, c.toNat < 128 → isAlnum c = c.isAlphanum
  isAlnum_of_isDecimal : ∀ c : Char, isDecimal c = true → isAlnum c = true
  isAlnum_of_isSpace : ∀ c : Char, isSpace c = true → isAlnum c = false
  isAlnum_caseExtra : ∀ c ∈ caseExtra, isAlnum c = true
  isDecimal_caseExtra : ∀ c ∈ caseExtra, isDecimal c = false
  nfkc_ascii : ∀ text : List Char, (∀ c ∈ text, c.toNat < 128) → nfkc text = text

/-- `\w`. -/
def Runtime.isWord (db : Runtime) (c : Char) : Bool := db.isAlnum c || c == '_'

def asciiData : Runtime where
  isDecimal := Char.isDigit
  isSpace := asciiSpace
  isAlnum c := c.isAlphanum || caseExtra.contains c
  nfkc := id
  stackFrames := 900
  builtinFrames := 1
  dumpsDepth := 900
  stackMessage := "maximum recursion depth exceeded"
  limitMessage limit := "Recursion limit of " ++ toString limit ++
    " reached without hitting a stop condition."
  isDecimal_ascii _ _ := rfl
  isSpace_ascii _ _ := rfl
  isAlnum_ascii c hc := by
    have hextra : (caseExtra.all fun d => decide (128 ≤ d.toNat)) = true := by decide
    have hnot : caseExtra.contains c = false := by
      rw [List.contains_eq_mem, decide_eq_false_iff_not]
      intro hmem
      have hlow := of_decide_eq_true (List.all_eq_true.mp hextra c hmem)
      omega
    simp only [hnot, Bool.or_false]
  isAlnum_of_isDecimal c hc := by simp [Char.isAlphanum, hc]
  isAlnum_of_isSpace c hc := by
    have hextra : (caseExtra.all fun d => !asciiSpace d) = true := by decide
    have hnot : caseExtra.contains c = false := by
      rw [List.contains_eq_mem, decide_eq_false_iff_not]
      intro hmem
      have hnospace := List.all_eq_true.mp hextra c hmem
      rw [hc] at hnospace
      cases hnospace
    have hlow : c.toNat ≤ 32 := by
      simp only [asciiSpace, Bool.or_eq_true, Bool.and_eq_true, decide_eq_true_eq] at hc
      omega
    have halnum : ∀ n, n ≤ 32 → (Char.ofNat n).isAlphanum = false := by decide
    rw [hnot, Bool.or_false, ← Char.ofNat_toNat c]
    exact halnum _ hlow
  isAlnum_caseExtra c hc := by
    rw [List.contains_eq_mem, decide_eq_true hc, Bool.or_true]
  isDecimal_caseExtra c hc := by
    have hextra : (caseExtra.all fun d => !d.isDigit) = true := by decide
    simpa using List.all_eq_true.mp hextra c hc
  nfkc_ascii _ _ := rfl

def caseFold (c : Char) : Char :=
  if c = Char.ofNat 0x130 ∨ c = Char.ofNat 0x131 then 'i'
  else if c = Char.ofNat 0x17F then 's'
  else if c = Char.ofNat 0x212A then 'k'
  else c.toLower

def cat : List (Regex Char) → Regex Char
  | [] => .empty
  | [r] => r
  | r :: rs => .seq r (cat rs)

def oneOf : List (Regex Char) → Regex Char
  | [] => .cls fun _ => false
  | [r] => r
  | r :: rs => .alt r (oneOf rs)

/-- `r?`, `r*`, `r+`, `r{n}`, `r{n,}` and `r{lo,hi}`. -/
def opt (r : Regex Char) : Regex Char := .rep r 0 (some 1) true
def star (r : Regex Char) : Regex Char := .rep r 0 none true
def plus (r : Regex Char) : Regex Char := .rep r 1 none true
def times (n : ℕ) (r : Regex Char) : Regex Char := .rep r n (some 0) true
def atLeast (n : ℕ) (r : Regex Char) : Regex Char := .rep r n none true
def between (lo hi : ℕ) (r : Regex Char) : Regex Char := .rep r lo (some (hi - lo)) true

/-- `r*?`. -/
def lazyStar (r : Regex Char) : Regex Char := .rep r 0 none false

def among (cs : String) : Regex Char := .cls fun c => cs.toList.contains c

def lit (s : String) : Regex Char := cat (s.toList.map fun x => .cls fun c => c == x)
def word (s : String) : Regex Char := cat (s.toList.map fun x => .cls fun c => caseFold c == x)

def words (ss : List String) : Regex Char := oneOf (ss.map word)

section Classes

variable (db : Runtime)

/-- `\d`, `\s`, `\w`, `\S` and `\b`. -/
def digit : Regex Char := .cls db.isDecimal
def space : Regex Char := .cls db.isSpace
def wordChar : Regex Char := .cls db.isWord
def nonSpace : Regex Char := .cls fun c => !db.isSpace c
def wordEdge : Regex Char := .boundary db.isWord

/-- `\s+`. -/
def gap : Regex Char := plus (space db)

end Classes

end TicketWarden.Python
