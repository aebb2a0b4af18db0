/- Module: TicketWarden/Patterns/Regex
   source: none (library)
   digest: Backtracking regular expressions with one-character assertions, and the
   contextual languages they denote. -/

import Mathlib.Data.List.Basic
import Mathlib.Tactic.Common

/-!
A backtracking matcher explores the ways to match an expression in a fixed order and
returns the first. `Regex.ends` lists all of them in that order, so that its head is what
the matcher returns and its members are what the expression can match at all. The
assertions look at one character on either side only: whether a word is matched depends
on the word, the character before it and the character after it.
-/

set_option autoImplicit false
set_option relaxedAutoImplicit false

namespace TicketWarden.Patterns

variable {α : Type}

/-- A place in a text: the character before it and the text after it. -/
@[ext] structure Cursor (α : Type) where
  prev : Option α
  rest : List α
  deriving DecidableEq

/-- Regular expressions over an alphabet. `rep r lo extra greedy` repeats `r` at least `lo`
and at most `lo + extra` times (without limit when `extra` is absent). -/
inductive Regex (α : Type) where
  | empty
  | cls (p : α → Bool)
  | seq (r s : Regex α)
  | alt (r s : Regex α)
  | rep (r : Regex α) (lo : ℕ) (extra : Option ℕ) (greedy : Bool)
  | boundary (isWord : α → Bool)
  | notBehind (p : α → Bool)
  | notAhead (p : α → Bool)

def holdsAt (p : α → Bool) : Option α → Bool
  | none => false
  | some x => p x

@[simp] theorem holdsAt_none (p : α → Bool) : holdsAt p none = false := rfl
@[simp] theorem holdsAt_some (p : α → Bool) (x : α) : holdsAt p (some x) = p x := rfl

/-- The places reached by at most so many optional rounds of a step, in the order a matcher
tries them: a greedy one goes on first, a lazy one stops first. -/
def optionalEnds (f : Cursor α → List (Cursor α)) (greedy : Bool) : ℕ → Cursor α → List (Cursor α)
  | 0, c => [c]
  | n + 1, c =>
    let more := (f c).flatMap (optionalEnds f greedy n)
    if greedy then more ++ [c] else c :: more

def repeatEnds (f : Cursor α → List (Cursor α)) (greedy : Bool) (extra : ℕ) :
    ℕ → Cursor α → List (Cursor α)
  | 0, c => optionalEnds f greedy extra c
  | m + 1, c => (f c).flatMap (repeatEnds f greedy extra m)

namespace Regex

def ends : Regex α → Cursor α → List (Cursor α)
  | .empty, c => [c]
  | .cls p, c =>
    match c.rest with
    | [] => []
    | x :: xs => if p x then [⟨some x, xs⟩] else []
  | .seq r s, c => (r.ends c).flatMap s.ends
  | .alt r s, c => r.ends c ++ s.ends c
  | .rep r lo extra greedy, c => repeatEnds r.ends greedy (extra.getD c.rest.length) lo c
  | .boundary w, c => if holdsAt w c.prev != holdsAt w c.rest.head? then [c] else []
  | .notBehind p, c => if holdsAt p c.prev then [] else [c]
  | .notAhead p, c => if holdsAt p c.rest.head? then [] else [c]

def matchAt (r : Regex α) (c : Cursor α) : Option (Cursor α) := (r.ends c).head?

def consumes : Regex α → Bool
  | .cls _ => true
  | .seq r s => r.consumes || s.consumes
  | .alt r s => r.consumes && s.consumes
  | .rep r lo _ _ => 0 < lo && r.consumes
  | .empty | .boundary _ | .notBehind _ | .notAhead _ => false

def proper : Regex α → Bool
  | .seq r s => r.proper && s.proper
  | .alt r s => r.proper && s.proper
  | .rep r _ extra _ => r.proper && (extra.isSome || r.consumes)
  | .empty | .cls _ | .boundary _ | .notBehind _ | .notAhead _ => true

end Regex

abbrev Lang (α : Type) := Option α → List α → Option α → Prop

def Lang.seq (L M : Lang α) : Lang α := fun prev w next =>
  ∃ u v, w = u ++ v ∧ L prev u (v.head?.or next) ∧ M (u.getLast?.or prev) v next

def Lang.pow (L : Lang α) : ℕ → Lang α
  | 0 => fun _ w _ => w = []
  | n + 1 => L.seq (L.pow n)

def Regex.Matches : Regex α → Lang α
  | .empty => fun _ w _ => w = []
  | .cls p => fun _ w _ => ∃ x, w = [x] ∧ p x = true
  | .seq r s => r.Matches.seq s.Matches
  | .alt r s => fun prev w next => r.Matches prev w next ∨ s.Matches prev w next
  | .rep r lo extra _ => fun prev w next =>
    ∃ n, lo ≤ n ∧ (∀ m ∈ extra, n ≤ lo + m) ∧ r.Matches.pow n prev w next
  | .boundary isWord => fun prev w next => w = [] ∧ holdsAt isWord prev ≠ holdsAt isWord next
  | .notBehind p => fun prev w _ => w = [] ∧ holdsAt p prev = false
  | .notAhead p => fun _ w next => w = [] ∧ holdsAt p next = false

/-- Reading a word of the language leads from one cursor to the other. -/
def Lang.Reaches (L : Lang α) (c c' : Cursor α) : Prop :=
  ∃ w, c.rest = w ++ c'.rest ∧ c'.prev = w.getLast?.or c.prev ∧ L c.prev w c'.rest.head?

private theorem Lang.reaches_seq_iff {L M : Lang α} {c c' : Cursor α} :
    (L.seq M).Reaches c c' ↔ ∃ d, L.Reaches c d ∧ M.Reaches d c' := by
  constructor
  · rintro ⟨w, hrest, hprev, u, v, rfl, hu, hv⟩
    refine ⟨⟨u.getLast?.or c.prev, v ++ c'.rest⟩, ⟨u, ?_, rfl, ?_⟩, v, rfl, ?_, hv⟩
    · rw [hrest, List.append_assoc]
    · simpa [List.head?_append] using hu
    · rw [hprev, List.getLast?_append, Option.or_assoc]
  · rintro ⟨d, ⟨u, hrest, hprev, hu⟩, v, hrest', hprev', hv⟩
    refine ⟨u ++ v, ?_, ?_, u, v, rfl, ?_, ?_⟩
    · rw [hrest, hrest', List.append_assoc]
    · rw [hprev', hprev, List.getLast?_append, Option.or_assoc]
    · simpa [hrest', List.head?_append] using hu
    · rwa [hprev] at hv

private theorem Lang.reaches_nil_iff {c c' : Cursor α} {P : Option α → Option α → Prop} :
    Lang.Reaches (fun prev w next => w = [] ∧ P prev next) c c' ↔
      c' = c ∧ P c.prev c.rest.head? := by
  constructor
  · rintro ⟨w, hrest, hprev, rfl, hP⟩
    obtain rfl : c' = c := by
      ext1
      · simpa using hprev
      · simpa using hrest.symm
    exact ⟨rfl, hP⟩
  · rintro ⟨rfl, hP⟩
    exact ⟨[], by simp, by simp, rfl, hP⟩

private theorem Lang.reaches_pow_zero_iff {L : Lang α} {c c' : Cursor α} :
    (L.pow 0).Reaches c c' ↔ c' = c := by
  simpa [Lang.pow, Lang.Reaches] using
    @Lang.reaches_nil_iff α c c' fun _ _ => True

private theorem mem_optionalEnds_iff {f : Cursor α → List (Cursor α)} {L : Lang α}
    (hf : ∀ c c', c' ∈ f c ↔ L.Reaches c c') (greedy : Bool) (extra : ℕ) (c c' : Cursor α) :
    c' ∈ optionalEnds f greedy extra c ↔ ∃ n ≤ extra, (L.pow n).Reaches c c' := by
  induction extra generalizing c with
  | zero => simp [optionalEnds, Lang.reaches_pow_zero_iff]
  | succ extra ih =>
    have hend : c' ∈ optionalEnds f greedy (extra + 1) c ↔
        c' ∈ (f c).flatMap (optionalEnds f greedy extra) ∨ c' = c := by
      cases greedy
      · simp [optionalEnds, or_comm]
      · simp [optionalEnds]
    have hmore : c' ∈ (f c).flatMap (optionalEnds f greedy extra) ↔
        ∃ n ≤ extra, (L.pow (n + 1)).Reaches c c' := by
      simp only [List.mem_flatMap, ih, hf, Lang.pow, Lang.reaches_seq_iff]
      constructor
      · rintro ⟨d, hd, n, hn, h⟩
        exact ⟨n, hn, d, hd, h⟩
      · rintro ⟨n, hn, d, hd, h⟩
        exact ⟨d, hd, n, hn, h⟩
    rw [hend, hmore]
    constructor
    · rintro (⟨n, hn, h⟩ | rfl)
      · exact ⟨n + 1, by omega, h⟩
      · exact ⟨0, by omega, Lang.reaches_pow_zero_iff.mpr rfl⟩
    · rintro ⟨n, hn, h⟩
      cases n with
      | zero => exact .inr (Lang.reaches_pow_zero_iff.mp h)
      | succ n => exact .inl ⟨n, by omega, h⟩

private theorem mem_repeatEnds_iff {f : Cursor α → List (Cursor α)} {L : Lang α}
    (hf : ∀ c c', c' ∈ f c ↔ L.Reaches c c') (greedy : Bool) (extra lo : ℕ)
    (c c' : Cursor α) :
    c' ∈ repeatEnds f greedy extra lo c ↔
      ∃ n, lo ≤ n ∧ n ≤ lo + extra ∧ (L.pow n).Reaches c c' := by
  induction lo generalizing c with
  | zero => simpa [repeatEnds] using mem_optionalEnds_iff hf greedy extra c c'
  | succ lo ih =>
    simp only [repeatEnds, List.mem_flatMap, ih, hf]
    constructor
    · rintro ⟨d, hd, n, hn, hn', h⟩
      exact ⟨n + 1, by omega, by omega, Lang.reaches_seq_iff.mpr ⟨d, hd, h⟩⟩
    · rintro ⟨n, hn, hn', h⟩
      obtain ⟨n, rfl⟩ : ∃ k, n = k + 1 := ⟨n - 1, by omega⟩
      obtain ⟨d, hd, h⟩ := Lang.reaches_seq_iff.mp h
      exact ⟨d, hd, n, by omega, by omega, h⟩

private theorem Lang.pow_length {L : Lang α} (hL : ∀ prev next, ¬ L prev [] next) {n : ℕ}
    {prev next : Option α} {w : List α} (h : L.pow n prev w next) : n ≤ w.length := by
  induction n generalizing prev w with
  | zero => exact Nat.zero_le _
  | succ n ih =>
    obtain ⟨u, v, rfl, hu, hv⟩ := h
    have hpos : 0 < u.length := by
      rcases u with _ | ⟨x, u⟩
      · exact absurd hu (hL _ _)
      · simp
    have hrest := ih hv
    rw [List.length_append]
    omega

theorem Regex.not_matches_nil {r : Regex α} (h : r.consumes = true) (prev next : Option α) :
    ¬ r.Matches prev [] next := by
  induction r generalizing prev next with
  | empty | boundary | notBehind | notAhead => simp [Regex.consumes] at h
  | cls p => simp [Regex.Matches]
  | seq r s ihr ihs =>
    rintro ⟨u, v, huv, hu, hv⟩
    obtain ⟨rfl, rfl⟩ := List.append_eq_nil_iff.mp huv.symm
    rcases Bool.or_eq_true _ _ |>.mp h with h | h
    · exact ihr h _ _ hu
    · exact ihs h _ _ hv
  | alt r s ihr ihs =>
    obtain ⟨hr, hs⟩ := Bool.and_eq_true _ _ |>.mp h
    rintro (hm | hm)
    · exact ihr hr _ _ hm
    · exact ihs hs _ _ hm
  | rep r lo extra greedy ih =>
    obtain ⟨hlo, hr⟩ := Bool.and_eq_true _ _ |>.mp h
    have hlo : 0 < lo := of_decide_eq_true hlo
    rintro ⟨n, hn, -, hm⟩
    have hlen := Lang.pow_length (fun prev next => ih hr prev next) hm
    rw [List.length_nil] at hlen
    omega

private theorem mem_ends_cls_iff (p : α → Bool) (c c' : Cursor α) :
    c' ∈ (Regex.cls p).ends c ↔ (Regex.cls p).Matches.Reaches c c' := by
  obtain ⟨prev, rest⟩ := c
  obtain ⟨prev', rest'⟩ := c'
  rcases rest with _ | ⟨x, xs⟩
  · simp [Regex.ends, Regex.Matches, Lang.Reaches]
  · by_cases hx : p x = true
    · simp only [Regex.ends, hx, if_true, List.mem_singleton, Cursor.mk.injEq, Regex.Matches,
        Lang.Reaches]
      constructor
      · rintro ⟨rfl, rfl⟩
        exact ⟨[x], rfl, rfl, x, rfl, hx⟩
      · rintro ⟨w, hrest, hprev, y, rfl, -⟩
        obtain ⟨rfl, rfl⟩ := List.cons_eq_cons.mp hrest
        exact ⟨by simpa using hprev, rfl⟩
    · simp only [Regex.ends, hx, Bool.false_eq_true, if_false, List.not_mem_nil, false_iff,
        Regex.Matches, Lang.Reaches]
      rintro ⟨w, hrest, -, y, rfl, hy⟩
      obtain ⟨rfl, -⟩ := List.cons_eq_cons.mp hrest
      exact hx hy

private theorem mem_ends_rep_iff {r : Regex α} {lo : ℕ} {extra : Option ℕ} {greedy : Bool}
    (hextra : (extra.isSome || r.consumes) = true)
    (ih : ∀ c c', c' ∈ r.ends c ↔ r.Matches.Reaches c c') (c c' : Cursor α) :
    c' ∈ (Regex.rep r lo extra greedy).ends c ↔
      (Regex.rep r lo extra greedy).Matches.Reaches c c' := by
  rw [Regex.ends, mem_repeatEnds_iff ih]
  simp only [Regex.Matches]
  cases extra with
  | some m =>
    simp only [Option.getD_some, Option.mem_some_iff, forall_eq', Lang.Reaches]
    constructor
    · rintro ⟨n, hn, hn', w, hrest, hprev, hm⟩
      exact ⟨w, hrest, hprev, n, hn, hn', hm⟩
    · rintro ⟨w, hrest, hprev, n, hn, hn', hm⟩
      exact ⟨n, hn, hn', w, hrest, hprev, hm⟩
  | none =>
    have hcons : r.consumes = true := by simpa using hextra
    simp only [Option.getD_none, Option.not_mem_none, false_imp_iff, implies_true, true_and,
      Lang.Reaches]
    constructor
    · rintro ⟨n, hn, -, w, hrest, hprev, hm⟩
      exact ⟨w, hrest, hprev, n, hn, hm⟩
    · rintro ⟨w, hrest, hprev, n, hn, hm⟩
      -- a round consumes a character, so the text bounds the number of rounds
      have hlen := Lang.pow_length (fun prev next => Regex.not_matches_nil hcons prev next) hm
      have hle : w.length ≤ c.rest.length := by
        rw [hrest, List.length_append]
        omega
      exact ⟨n, hn, by omega, w, hrest, hprev, hm⟩

/-- The matcher's ends are exactly the ends of the words the expression denotes. -/
theorem Regex.mem_ends_iff {r : Regex α} (h : r.proper = true) (c c' : Cursor α) :
    c' ∈ r.ends c ↔ r.Matches.Reaches c c' := by
  induction r generalizing c c' with
  | empty =>
    simpa [Regex.ends, Regex.Matches, Lang.Reaches] using
      (@Lang.reaches_nil_iff α c c' fun _ _ => True).symm
  | cls p => exact mem_ends_cls_iff p c c'
  | seq r s ihr ihs =>
    obtain ⟨hr, hs⟩ := Bool.and_eq_true _ _ |>.mp h
    simp only [Regex.ends, List.mem_flatMap, ihr hr, ihs hs, Regex.Matches, Lang.reaches_seq_iff]
  | alt r s ihr ihs =>
    obtain ⟨hr, hs⟩ := Bool.and_eq_true _ _ |>.mp h
    simp only [Regex.ends, List.mem_append, ihr hr, ihs hs, Regex.Matches, Lang.Reaches,
      ← exists_or, ← and_or_left]
  | rep r lo extra greedy ih =>
    obtain ⟨hr, hextra⟩ := Bool.and_eq_true _ _ |>.mp h
    exact mem_ends_rep_iff hextra (ih hr) c c'
  | boundary isWord =>
    simp only [Regex.Matches, Lang.reaches_nil_iff, Regex.ends]
    by_cases hb : holdsAt isWord c.prev = holdsAt isWord c.rest.head?
    · simp [hb]
    · simp [hb]
  | notBehind p =>
    simp only [Regex.Matches, Regex.ends]
    rw [Lang.reaches_nil_iff (P := fun prev _ => holdsAt p prev = false)]
    by_cases hb : holdsAt p c.prev = true
    · simp [hb]
    · simp [hb]
  | notAhead p =>
    simp only [Regex.Matches, Regex.ends]
    rw [Lang.reaches_nil_iff (P := fun _ next => holdsAt p next = false)]
    by_cases hb : holdsAt p c.rest.head? = true
    · simp [hb]
    · simp [hb]

theorem Regex.matchAt_isSome_iff {r : Regex α} (h : r.proper = true) (c : Cursor α) :
    (r.matchAt c).isSome ↔ ∃ c', r.Matches.Reaches c c' := by
  rw [Regex.matchAt, List.isSome_head?, ne_eq]
  constructor
  · intro hne
    obtain ⟨c', hc'⟩ := List.exists_mem_of_ne_nil _ hne
    exact ⟨c', (Regex.mem_ends_iff h c c').mp hc'⟩
  · rintro ⟨c', hc'⟩ hnil
    rw [← Regex.mem_ends_iff h, hnil] at hc'
    exact List.not_mem_nil hc'

theorem Regex.matchAt_reaches {r : Regex α} (h : r.proper = true) {c c' : Cursor α}
    (hm : r.matchAt c = some c') : r.Matches.Reaches c c' :=
  (Regex.mem_ends_iff h c c').mp (List.mem_of_mem_head? hm)

end TicketWarden.Patterns
