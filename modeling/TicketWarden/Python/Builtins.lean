/- Module: TicketWarden/Python/Builtins
   source: Python standard library (str, list, round)
   digest: The built-in operations the service uses, and JSON-like values. -/

import Mathlib.Data.Rat.Floor
import TicketWarden.Python.Unicode

set_option autoImplicit false
set_option relaxedAutoImplicit false

namespace TicketWarden.Python

private def replaceFrom (old new : List Char) : ℕ → List Char → List Char
  | 0, text => text
  | _ + 1, [] => []
  | n + 1, x :: xs =>
    if old.isPrefixOf (x :: xs) then new ++ replaceFrom old new n ((x :: xs).drop old.length)
    else x :: replaceFrom old new n xs

/-- `text.replace(old, new)` for a nonempty `old`: leftmost occurrences first, none inside
what has just been written. -/
def replace (old new text : List Char) : List Char := replaceFrom old new text.length text

@[simp] theorem replace_nil (old new : List Char) : replace old new [] = [] := rfl

private theorem replaceFrom_eq {old : List Char} (hold : old ≠ []) (new : List Char) {n : ℕ}
    {text : List Char} (hn : text.length ≤ n) :
    replaceFrom old new n text = replace old new text := by
  induction hlen : text.length using Nat.strongRecOn generalizing n text with
  | _ m ih =>
    subst hlen
    match n, text, hn with
    | 0, [], _ => rfl
    | _ + 1, [], _ => rfl
    | n + 1, x :: xs, hn =>
      have hpos : 0 < old.length := List.length_pos_iff.mpr hold
      have hdrop : ((x :: xs).drop old.length).length ≤ xs.length := by
        rw [List.length_drop, List.length_cons]
        omega
      have hxs : xs.length ≤ n := by simpa using hn
      have hless : xs.length < (x :: xs).length := Nat.lt_succ_self _
      rw [replace, List.length_cons, replaceFrom, replaceFrom,
        ih _ (by omega) (le_trans hdrop hxs) rfl, ih _ (by omega) hdrop rfl,
        ih _ hless hxs rfl, ih _ hless (Nat.le_refl _) rfl]

theorem replace_found {old : List Char} (hold : old ≠ []) (new rest : List Char) :
    replace old new (old ++ rest) = new ++ replace old new rest := by
  cases hcons : old ++ rest with
  | nil => exact absurd (List.append_eq_nil_iff.mp hcons).1 hold
  | cons x xs =>
    have hpre : old.isPrefixOf (x :: xs) = true :=
      List.isPrefixOf_iff_prefix.mpr ⟨rest, hcons⟩
    have hlen := congrArg List.length hcons
    have hpos : 0 < old.length := List.length_pos_iff.mpr hold
    rw [List.length_append, List.length_cons] at hlen
    rw [replace, List.length_cons, replaceFrom, if_pos hpre, ← hcons, List.drop_left,
      replaceFrom_eq hold new (by omega)]

theorem replace_passed {old : List Char} (hold : old ≠ []) (new : List Char) {x : Char}
    {xs : List Char} (h : ¬ old <+: x :: xs) :
    replace old new (x :: xs) = x :: replace old new xs := by
  have hpre : old.isPrefixOf (x :: xs) = false :=
    Bool.eq_false_iff.mpr fun hp => h (List.isPrefixOf_iff_prefix.mp hp)
  rw [replace, List.length_cons, replaceFrom, hpre, if_neg Bool.false_ne_true,
    replaceFrom_eq hold new (Nat.le_refl _)]

/-- `len(text.split())`: the number of maximal runs of characters that are not whitespace. -/
def wordCount (db : Runtime) (text : List Char) : ℕ :=
  ((text.splitBy fun x y => db.isSpace x == db.isSpace y).filter fun w =>
    w.any fun c => !db.isSpace c).length

/-- `xs[:n]`, where a negative `n` counts from the end. -/
def sliceTo {α : Type} (xs : List α) (n : ℤ) : List α :=
  if 0 ≤ n then xs.take n.toNat else xs.take (xs.length - (-n).toNat)

def roundHalfEven (x : ℚ) : ℤ :=
  let d := x - x.floor
  if d < 1 / 2 then x.floor
  else if 1 / 2 < d then x.floor + 1
  else if x.floor % 2 = 0 then x.floor else x.floor + 1

/-- `round(x, digits)` in exact decimal arithmetic. -/
def round (x : ℚ) (digits : ℕ) : ℚ := roundHalfEven (x * 10 ^ digits) / 10 ^ digits

inductive Json where
  | null
  | bool (b : Bool)
  | int (n : ℤ)
  | float (x : ℚ)
  | str (s : String)
  | list (xs : List Json)
  | dict (entries : List (String × Json))

abbrev Dict := List (String × Json)

def Json.truthy : Json → Bool
  | .null => false
  | .bool b => b
  | .int n => n != 0
  | .float x => x != 0
  | .str s => s != ""
  | .list xs => !xs.isEmpty
  | .dict entries => !entries.isEmpty

/-- `value.get(key)` when the value is a dictionary. -/
def Json.get? : Json → String → Option Json
  | .dict entries, key => entries.lookup key
  | _, _ => none

end TicketWarden.Python
