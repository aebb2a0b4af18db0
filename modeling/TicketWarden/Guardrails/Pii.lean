/- Module: TicketWarden/Guardrails/Pii
   source: apps/api/src/guardrails/pii.py
   digest: Redaction of personal data with business references kept. -/

import TicketWarden.Python.Builtins

set_option autoImplicit false
set_option relaxedAutoImplicit false

namespace TicketWarden.Guardrails

open Patterns Python

def mask : List Char := "[REDACTED]".toList

section

variable (db : Runtime)

/-- `_BUSINESS_REF`: a keyword, a bounded connector and at least three digits. -/
def businessRef : Regex Char :=
  cat [wordEdge db,
    words ["order", "invoice", "tracking", "ticket", "reference", "ref", "awb"],
    wordEdge db,
    between 0 20 (oneOf [.cls fun c => db.isSpace c || c == ':' || c == '#',
      word "id", cat [word "no", opt (lit ".")], word "number"]),
    atLeast 3 (digit db), wordEdge db]

/-- The characters of an e-mail address before and after the `@`. -/
def emailLocal (c : Char) : Bool := c.isAlphanum || "._%+-".toList.contains c
def emailDomain (c : Char) : Bool := c.isAlphanum || ".-".toList.contains c

def email : Regex Char :=
  cat [plus (.cls emailLocal), lit "@", plus (.cls emailDomain), lit ".",
    atLeast 2 (.cls Char.isAlpha)]

def ssn : Regex Char :=
  cat [wordEdge db, times 3 (digit db), lit "-", times 2 (digit db), lit "-",
    times 4 (digit db), wordEdge db]

def card : Regex Char :=
  cat [wordEdge db, between 13 16 (cat [digit db, lazyStar (among " -")]), wordEdge db]

/-- `[\s.-]`. -/
def phoneSep : Regex Char := .cls fun c => db.isSpace c || c == '.' || c == '-'

def phone : Regex Char :=
  cat [.notBehind db.isDecimal,
    opt (cat [opt (lit "+"), between 1 2 (digit db), opt (phoneSep db)]),
    oneOf [cat [lit "(", times 3 (digit db), lit ")"], times 3 (digit db)],
    opt (phoneSep db), times 3 (digit db), opt (phoneSep db), times 4 (digit db),
    .notAhead db.isDecimal]

def ipAddress : Regex Char :=
  cat [wordEdge db, times 3 (cat [between 1 3 (digit db), lit "."]), between 1 3 (digit db),
    wordEdge db]

/-- `_PII_PATTERNS`, in the order in which they are substituted. -/
def piiPatterns : List (String × Regex Char) :=
  [("email", email), ("ssn", ssn db), ("card", card db), ("phone", phone db),
    ("ip_address", ipAddress db)]

def placeholder (index : ℕ) : List Char :=
  Char.ofNat 0 :: "REF".toList ++ (Nat.repr index).toList ++ [Char.ofNat 0]

def stash : ℕ → List (Token Char) → List Char
  | _, [] => []
  | n, .char x :: ts => x :: stash n ts
  | n, .hit _ :: ts => placeholder n ++ stash (n + 1) ts

/-- `_shield_business_refs`: the shielded text and the references it stands for. -/
def shieldBusinessRefs (text : List Char) : List Char × List (List Char) :=
  let ts := (businessRef db).scan text
  (stash 0 ts, hits ts)

/-- `_unshield_business_refs`: the placeholders are replaced one index after the other. -/
def unshieldBusinessRefs (text : List Char) (saved : List (List Char)) : List Char :=
  saved.zipIdx.foldl (fun text entry => replace (placeholder entry.2) entry.1 text) text

/-- The substitutions of `redact_pii` on a shielded text. -/
def maskPii (shielded : List Char) : List Char :=
  (piiPatterns db).foldl (fun text entry => entry.2.sub mask text) shielded

def redactChars (text : List Char) : List Char :=
  let (shielded, saved) := shieldBusinessRefs db text
  unshieldBusinessRefs (maskPii db shielded) saved

/-- `redact_pii`. -/
def redactPii (text : String) : String :=
  if text = "" then "" else String.ofList (redactChars db text.toList)

/-- `find_pii`: the number of spans of each category that has any. -/
def findPii (text : String) : List (String × ℕ) :=
  if text = "" then []
  else
    let shielded := (shieldBusinessRefs db text.toList).1
    (piiPatterns db).filterMap fun entry =>
      let hits := entry.2.findAll shielded
      if hits = [] then none else some (entry.1, hits.length)

end

end TicketWarden.Guardrails
