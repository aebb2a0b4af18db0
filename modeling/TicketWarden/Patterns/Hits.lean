/- Module: TicketWarden/Patterns/Hits
   source: none (library)
   digest: What scanning a text finds, and how much of the text a substitution leaves. -/

import TicketWarden.Patterns.Context

set_option autoImplicit false
set_option relaxedAutoImplicit false

namespace TicketWarden.Patterns

variable {α : Type}

theorem Regex.not_mem_of_matches {r : Regex α} {x : α} (hx : r.chars x = false)
    {p n : Option α} {w : List α} (h : r.Matches p w n) : x ∉ w := by
  intro hmem
  exact Bool.false_ne_true (hx.symm.trans (Regex.chars_of_matches h x hmem))

theorem Scans.length_hits_le {r : Regex α} {c : Cursor α} {ts : List (Token α)}
    (h : Scans r c ts) : (hits ts).length ≤ c.rest.length := by
  induction h with
  | nil prev => exact Nat.le_refl 0
  | char _ _ ih => exact Nat.le_succ_of_le ih
  | @hit prev w rest ts hne _ _ ih =>
    have hpos : 0 < w.length := List.length_pos_iff.mpr hne
    have hcount : (hits ts).length ≤ rest.length := ih
    simp only [hits, List.length_cons, List.length_append]
    omega

theorem Scans.hits_eq_nil_iff {r : Regex α} (hp : r.proper = true) (hc : r.consumes = true)
    {c : Cursor α} {ts : List (Token α)} (h : Scans r c ts) :
    hits ts = [] ↔ ∀ a w b, c.rest = a ++ w ++ b →
      ¬ r.Matches (a.getLast?.or c.prev) w b.head? := by
  induction h with
  | nil prev =>
    refine iff_of_true rfl fun a w b heq hm => ?_
    obtain ⟨haw, -⟩ := List.append_eq_nil_iff.mp heq.symm
    obtain ⟨-, rfl⟩ := List.append_eq_nil_iff.mp haw
    exact Regex.not_matches_nil hc _ _ hm
  | @char prev x xs ts hnone _ ih =>
    rw [show hits (.char x :: ts) = hits ts from rfl, ih]
    constructor
    · intro hnot a w b heq hm
      cases a with
      | nil =>
        exact Regex.not_matches_of_matchAt hp hnone heq hm
      | cons y a =>
        obtain ⟨rfl, hxs⟩ := List.cons.inj heq
        rw [getLast_cons_or] at hm
        exact hnot a w b hxs hm
    · intro hnot a w b heq hm
      refine hnot (x :: a) w b (congrArg (x :: ·) heq) ?_
      rwa [getLast_cons_or]
  | @hit prev w rest ts hne hmatch _ _ =>
    refine iff_of_false (List.cons_ne_nil _ _) fun hnot => ?_
    have hm := Regex.matches_of_matchAt hp hmatch
    exact hnot [] w rest rfl hm

theorem Regex.sub_eq_self {r : Regex α} (hp : r.proper = true) (hc : r.consumes = true)
    {text : List α} (h : r.findAll text = []) (mask : List α) : r.sub mask text = text := by
  have hscan := scans_scan hp hc text
  have hchars := hscan.eq_map_char h
  rw [Regex.sub, hchars, List.flatMap_map]
  exact List.flatMap_singleton' text

def Token.shown (mask : List α) : Token α → List α
  | .char x => [x]
  | .hit _ => mask

theorem Regex.sub_eq (r : Regex α) (mask text : List α) :
    r.sub mask text = (r.scan text).flatMap (Token.shown mask) := rfl

theorem Regex.count_sub [BEq α] [LawfulBEq α] {r : Regex α} (hp : r.proper = true)
    (hc : r.consumes = true) {x : α} (hx : r.chars x = false) (mask text : List α) :
    (r.sub mask text).count x = text.count x + (r.findAll text).length * mask.count x := by
  have hcount : ∀ {c : Cursor α} {ts : List (Token α)}, Scans r c ts →
      (ts.flatMap (Token.shown mask)).count x =
        c.rest.count x + (hits ts).length * mask.count x := by
    intro c ts h
    induction h with
    | nil prev => simp [hits]
    | @char prev y ys ts _ _ ih =>
      rw [List.flatMap_cons, List.count_append, ih, ← Nat.add_assoc, ← List.count_append]
      rfl
    | @hit prev w rest ts _ hmatch _ ih =>
      have hm := Regex.matches_of_matchAt hp hmatch
      have hzero : w.count x = 0 := List.count_eq_zero.mpr (Regex.not_mem_of_matches hx hm)
      have hrest : (ts.flatMap (Token.shown mask)).count x =
        rest.count x + (hits ts).length * mask.count x := ih
      have hsucc : (hits (Token.hit w :: ts)).length = (hits ts).length + 1 := rfl
      have hmask : (Token.hit w).shown mask = mask := rfl
      rw [List.flatMap_cons, List.count_append, hrest, List.count_append, hzero, hsucc, hmask,
        Nat.succ_mul]
      omega
  rw [Regex.sub_eq]
  exact hcount (scans_scan hp hc text)

end TicketWarden.Patterns
