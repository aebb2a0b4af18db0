/- Module: TicketWarden/Patterns/Scan
   source: none (library)
   digest: Leftmost non-overlapping matches of an expression in a text, and the
   searching, finding and substituting that are defined from them. -/

import TicketWarden.Patterns.Regex

set_option autoImplicit false
set_option relaxedAutoImplicit false

namespace TicketWarden.Patterns

variable {α β : Type}

/-- A scanned text is made of characters outside every match and of matched words. -/
inductive Token (α : Type) where
  | char (x : α)
  | hit (w : List α)
  deriving DecidableEq

def Token.text : Token α → List α
  | .char x => [x]
  | .hit w => w

def hits : List (Token α) → List (List α)
  | [] => []
  | .char _ :: ts => hits ts
  | .hit w :: ts => w :: hits ts

theorem hits_append (ts ts' : List (Token α)) : hits (ts ++ ts') = hits ts ++ hits ts' := by
  induction ts with
  | nil => rfl
  | cons token ts ih =>
    cases token with
    | char x => exact ih
    | hit w => exact congrArg (w :: ·) ih

theorem hits_map_char_append (w : List α) (ts : List (Token α)) :
    hits (w.map .char ++ ts) = hits ts := by
  induction w with
  | nil => rfl
  | cons x w ih => exact ih

namespace Regex

def scanFrom (r : Regex α) : ℕ → Cursor α → List (Token α)
  | 0, _ => []
  | n + 1, ⟨prev, rest⟩ =>
    match rest with
    | [] => []
    | x :: xs =>
      match r.matchAt ⟨prev, x :: xs⟩ with
      | some c =>
        if c.rest.length ≤ xs.length then
          .hit ((x :: xs).take (xs.length + 1 - c.rest.length)) :: r.scanFrom n c
        else .char x :: r.scanFrom n ⟨some x, xs⟩
      | none => .char x :: r.scanFrom n ⟨some x, xs⟩

def scan (r : Regex α) (text : List α) : List (Token α) := r.scanFrom text.length ⟨none, text⟩

def sub (r : Regex α) (mask text : List α) : List α :=
  (r.scan text).flatMap fun
    | .char x => [x]
    | .hit _ => mask

def findAll (r : Regex α) (text : List α) : List (List α) := hits (r.scan text)

def searchFrom (r : Regex α) : Option α → List α → Bool
  | prev, [] => !(r.ends ⟨prev, []⟩).isEmpty
  | prev, x :: xs => !(r.ends ⟨prev, x :: xs⟩).isEmpty || r.searchFrom (some x) xs

def search (r : Regex α) (text : List α) : Bool := r.searchFrom none text

end Regex

/-- The tokens of a text: a character is passed over only where nothing matches, and a hit
is the match the matcher returns there. -/
inductive Scans (r : Regex α) : Cursor α → List (Token α) → Prop
  | nil (prev : Option α) : Scans r ⟨prev, []⟩ []
  | char {prev : Option α} {x : α} {xs : List α} {ts : List (Token α)} :
      r.matchAt ⟨prev, x :: xs⟩ = none → Scans r ⟨some x, xs⟩ ts →
      Scans r ⟨prev, x :: xs⟩ (.char x :: ts)
  | hit {prev : Option α} {w rest : List α} {ts : List (Token α)} :
      w ≠ [] → r.matchAt ⟨prev, w ++ rest⟩ = some ⟨w.getLast?.or prev, rest⟩ →
      Scans r ⟨w.getLast?.or prev, rest⟩ ts →
      Scans r ⟨prev, w ++ rest⟩ (.hit w :: ts)

private theorem Regex.matchAt_consumes {r : Regex α} (hp : r.proper = true) (hc : r.consumes = true)
    {c c' : Cursor α} (h : r.matchAt c = some c') :
    ∃ w, w ≠ [] ∧ c.rest = w ++ c'.rest ∧ c'.prev = w.getLast?.or c.prev ∧
      r.Matches c.prev w c'.rest.head? := by
  obtain ⟨w, hrest, hprev, hm⟩ := Regex.matchAt_reaches hp h
  refine ⟨w, ?_, hrest, hprev, hm⟩
  rintro rfl
  exact Regex.not_matches_nil hc _ _ hm

theorem Regex.matches_of_matchAt {r : Regex α} (hp : r.proper = true) {p q : Option α}
    {w rest : List α} (h : r.matchAt ⟨p, w ++ rest⟩ = some ⟨q, rest⟩) :
    r.Matches p w rest.head? := by
  obtain ⟨w', hw', -, hm⟩ := Regex.matchAt_reaches hp h
  obtain rfl : w = w' := List.append_cancel_right hw'
  exact hm

theorem Regex.not_matches_of_matchAt {r : Regex α} (hp : r.proper = true) {p : Option α}
    {text w rest : List α} (h : r.matchAt ⟨p, text⟩ = none) (heq : text = w ++ rest) :
    ¬ r.Matches p w rest.head? := by
  intro hm
  have hsome : (r.matchAt ⟨p, text⟩).isSome :=
    (Regex.matchAt_isSome_iff hp _).mpr ⟨⟨w.getLast?.or p, rest⟩, w, heq, rfl, hm⟩
  rw [h] at hsome
  cases hsome

theorem getLast_cons_or {x : α} {a : List α} {prev : Option α} :
    (x :: a).getLast?.or prev = a.getLast?.or (some x) := by
  rw [List.getLast?_cons]
  cases a.getLast? <;> rfl

private theorem scans_scanFrom {r : Regex α} (hp : r.proper = true) (hc : r.consumes = true)
    (n : ℕ) (c : Cursor α) (hn : c.rest.length ≤ n) : Scans r c (r.scanFrom n c) := by
  induction n generalizing c with
  | zero =>
    obtain ⟨prev, rest⟩ := c
    obtain rfl : rest = [] := List.eq_nil_of_length_eq_zero (Nat.le_zero.mp hn)
    exact .nil prev
  | succ n ih =>
    obtain ⟨prev, rest⟩ := c
    rcases rest with _ | ⟨x, xs⟩
    · exact .nil prev
    · have hxs : xs.length ≤ n := by simpa using hn
      cases hm : r.matchAt ⟨prev, x :: xs⟩ with
      | none =>
        simp only [Regex.scanFrom, hm]
        exact .char hm (ih _ hxs)
      | some c =>
        obtain ⟨w, hw, hrest, hprev, -⟩ := Regex.matchAt_consumes hp hc hm
        obtain ⟨prev', rest'⟩ := c
        simp only at hrest hprev
        have hlen : w.length + rest'.length = xs.length + 1 := by
          rw [← List.length_append, ← hrest, List.length_cons]
        have hpos : 0 < w.length := List.length_pos_iff.mpr hw
        have htake : (x :: xs).take (xs.length + 1 - rest'.length) = w := by
          rw [hrest, ← hlen, Nat.add_sub_cancel, List.take_left]
        simp only [Regex.scanFrom, hm]
        rw [if_pos (by omega), htake]
        subst hprev
        rw [hrest] at hm ⊢
        exact .hit hw hm (ih _ (by simp only; omega))

/-- Scanning a text with a consuming expression. -/
theorem scans_scan {r : Regex α} (hp : r.proper = true) (hc : r.consumes = true)
    (text : List α) : Scans r ⟨none, text⟩ (r.scan text) :=
  scans_scanFrom hp hc _ _ (Nat.le_refl _)

theorem Scans.of_nil {r : Regex α} {p : Option α} {ts : List (Token α)}
    (h : Scans r ⟨p, []⟩ ts) : ts = [] := by
  generalize hc : (⟨p, []⟩ : Cursor α) = c at h
  cases h with
  | nil => rfl
  | char => cases hc
  | hit hne =>
    have heq := (Cursor.mk.inj hc).2
    exact absurd (List.append_eq_nil_iff.mp heq.symm).1 hne

theorem Scans.flatMap_text {r : Regex α} {c : Cursor α} {ts : List (Token α)}
    (h : Scans r c ts) : ts.flatMap Token.text = c.rest := by
  induction h with
  | nil prev => rfl
  | char _ _ ih => simpa [Token.text] using ih
  | hit _ _ _ ih => simpa [Token.text] using ih

theorem Scans.eq_map_char {r : Regex α} {c : Cursor α} {ts : List (Token α)}
    (h : Scans r c ts) (hnone : hits ts = []) : ts = c.rest.map .char := by
  induction h with
  | nil prev => rfl
  | char _ _ ih => simpa using ih hnone
  | hit _ _ _ _ => simp [hits] at hnone

theorem Regex.sub_cls_nil (p : α → Bool) (text : List α) :
    (Regex.cls p).sub [] text = text.filter fun x => !p x := by
  have herase : ∀ {c : Cursor α} {ts : List (Token α)}, Scans (.cls p) c ts →
      (ts.flatMap fun | .char x => [x] | .hit _ => []) = c.rest.filter fun x => !p x := by
    intro c ts h
    induction h with
    | nil prev => rfl
    | @char prev x xs ts hnone _ ih =>
      have hx : p x = false := by
        by_contra hx
        simp [Regex.matchAt, Regex.ends, hx] at hnone
      simpa [List.filter_cons, hx] using ih
    | @hit prev w rest ts _ hmatch _ ih =>
      obtain ⟨x, rfl, hx⟩ := Regex.matches_of_matchAt (r := .cls p) rfl hmatch
      simpa [List.filter_cons, hx] using ih
  exact herase (scans_scan rfl rfl text)

private theorem Regex.searchFrom_iff {r : Regex α} (prev : Option α) (text : List α) :
    r.searchFrom prev text = true ↔
      ∃ a b, text = a ++ b ∧ r.ends ⟨a.getLast?.or prev, b⟩ ≠ [] := by
  induction text generalizing prev with
  | nil => simp [Regex.searchFrom]
  | cons x xs ih =>
    simp only [Regex.searchFrom, Bool.or_eq_true, ih, Bool.not_eq_true', List.isEmpty_eq_false_iff]
    constructor
    · rintro (h | ⟨a, b, rfl, h⟩)
      · exact ⟨[], x :: xs, rfl, h⟩
      · refine ⟨x :: a, b, rfl, ?_⟩
        rwa [getLast_cons_or]
    · rintro ⟨a, b, hab, h⟩
      rcases a with _ | ⟨y, a⟩
      · obtain rfl : x :: xs = b := hab
        exact .inl (by simpa using h)
      · obtain ⟨rfl, rfl⟩ := List.cons_eq_cons.mp hab
        refine .inr ⟨a, b, rfl, ?_⟩
        rwa [getLast_cons_or] at h

/-- Searching succeeds exactly when the text has a matched word somewhere. -/
theorem Regex.search_iff {r : Regex α} (hp : r.proper = true) (text : List α) :
    r.search text = true ↔
      ∃ a w b, text = a ++ w ++ b ∧ r.Matches a.getLast? w b.head? := by
  rw [Regex.search, Regex.searchFrom_iff]
  constructor
  · rintro ⟨a, b, rfl, h⟩
    obtain ⟨c', hc'⟩ := List.exists_mem_of_ne_nil _ h
    obtain ⟨w, hrest, -, hm⟩ := (Regex.mem_ends_iff hp _ _).mp hc'
    refine ⟨a, w, c'.rest, ?_, by simpa using hm⟩
    rw [List.append_assoc, ← hrest]
  · rintro ⟨a, w, b, rfl, hm⟩
    refine ⟨a, w ++ b, by rw [List.append_assoc], ?_⟩
    have hmem : ⟨w.getLast?.or a.getLast?, b⟩ ∈ r.ends ⟨a.getLast?.or none, w ++ b⟩ :=
      (Regex.mem_ends_iff hp _ _).mpr ⟨w, rfl, by simp, by simpa using hm⟩
    exact List.ne_nil_of_mem hmem

end TicketWarden.Patterns
