/- Module: TicketWarden/Patterns/Wildcard
   source: none (library)
   digest: Patterns of symbols and wildcards, and when a pattern between two wildcards is
   a search for a part of a text. -/

import Mathlib.Data.List.Forall2
import Mathlib.Data.List.Infix
import Mathlib.Tactic.Common

set_option autoImplicit false
set_option relaxedAutoImplicit false

namespace TicketWarden.Patterns

/-- A symbol of the alphabet, any one symbol or any run of symbols. -/
inductive Wild (α : Type) where
  | sym (a : α)
  | one
  | run
  deriving DecidableEq

variable {α : Type} {same : α → α → Bool}

/-- Whether a whole text matches a pattern, with symbols compared by `same`. -/
def matchesWild (same : α → α → Bool) : List (Wild α) → List α → Bool
  | [], xs => xs.isEmpty
  | .run :: pattern, xs => xs.tails.any (matchesWild same pattern)
  | .one :: pattern, xs =>
    match xs with
    | [] => false
    | _ :: rest => matchesWild same pattern rest
  | .sym a :: pattern, xs =>
    match xs with
    | [] => false
    | x :: rest => same a x && matchesWild same pattern rest

@[simp] theorem matchesWild_nil {xs : List α} : matchesWild same [] xs = true ↔ xs = [] := by
  cases xs <;> simp [matchesWild]

@[simp] theorem matchesWild_run {pattern : List (Wild α)} {xs : List α} :
    matchesWild same (.run :: pattern) xs = true ↔
      ∃ ys zs, xs = ys ++ zs ∧ matchesWild same pattern zs = true := by
  simp only [matchesWild, List.any_eq_true, List.mem_tails]
  constructor
  · rintro ⟨zs, ⟨ys, rfl⟩, h⟩
    exact ⟨ys, zs, rfl, h⟩
  · rintro ⟨ys, zs, rfl, h⟩
    exact ⟨zs, ⟨ys, rfl⟩, h⟩

@[simp] theorem matchesWild_one {pattern : List (Wild α)} {xs : List α} :
    matchesWild same (.one :: pattern) xs = true ↔
      ∃ x rest, xs = x :: rest ∧ matchesWild same pattern rest = true := by
  cases xs <;> simp [matchesWild]

@[simp] theorem matchesWild_sym {a : α} {pattern : List (Wild α)} {xs : List α} :
    matchesWild same (.sym a :: pattern) xs = true ↔
      ∃ x rest, xs = x :: rest ∧ same a x = true ∧ matchesWild same pattern rest = true := by
  cases xs <;> simp [matchesWild]

private theorem matchesWild_append {p q : List (Wild α)} {xs : List α} :
    matchesWild same (p ++ q) xs = true ↔
      ∃ ys zs, xs = ys ++ zs ∧ matchesWild same p ys = true ∧ matchesWild same q zs = true := by
  induction p generalizing xs with
  | nil => simp
  | cons w p ih =>
    cases w with
    | sym a =>
      simp only [List.cons_append, matchesWild_sym, ih]
      constructor
      · rintro ⟨x, _, rfl, ha, ys, zs, rfl, hp, hq⟩
        exact ⟨x :: ys, zs, rfl, ⟨x, ys, rfl, ha, hp⟩, hq⟩
      · rintro ⟨_, zs, rfl, ⟨x, ys, rfl, ha, hp⟩, hq⟩
        exact ⟨x, ys ++ zs, rfl, ha, ys, zs, rfl, hp, hq⟩
    | one =>
      simp only [List.cons_append, matchesWild_one, ih]
      constructor
      · rintro ⟨x, _, rfl, ys, zs, rfl, hp, hq⟩
        exact ⟨x :: ys, zs, rfl, ⟨x, ys, rfl, hp⟩, hq⟩
      · rintro ⟨_, zs, rfl, ⟨x, ys, rfl, hp⟩, hq⟩
        exact ⟨x, ys ++ zs, rfl, ys, zs, rfl, hp, hq⟩
    | run =>
      simp only [List.cons_append, matchesWild_run, ih]
      constructor
      · rintro ⟨us, _, rfl, ys, zs, rfl, hp, hq⟩
        exact ⟨us ++ ys, zs, (List.append_assoc us ys zs).symm, ⟨us, ys, rfl, hp⟩, hq⟩
      · rintro ⟨_, zs, rfl, ⟨us, ys, rfl, hp⟩, hq⟩
        exact ⟨us, ys ++ zs, List.append_assoc us ys zs, ys, zs, rfl, hp, hq⟩

theorem matchesWild_map_sym {as xs : List α} :
    matchesWild same (as.map .sym) xs = true ↔ List.Forall₂ (fun a x => same a x = true) as xs := by
  induction as generalizing xs with
  | nil => simp
  | cons a as ih =>
    simp only [List.map_cons, matchesWild_sym, ih, List.forall₂_cons_left_iff]
    constructor
    · rintro ⟨x, rest, rfl, ha, hrest⟩
      exact ⟨x, rest, ha, hrest, rfl⟩
    · rintro ⟨x, rest, ha, hrest, rfl⟩
      exact ⟨x, rest, rfl, ha, hrest⟩

theorem matchesWild_between {pattern : List (Wild α)} {xs : List α} :
    matchesWild same (.run :: (pattern ++ [.run])) xs = true ↔
      ∃ ys part zs, xs = ys ++ part ++ zs ∧ matchesWild same pattern part = true := by
  simp only [matchesWild_run, matchesWild_append, matchesWild_nil]
  constructor
  · rintro ⟨ys, _, rfl, part, _, rfl, h, zs, _, rfl, rfl⟩
    exact ⟨ys, part, zs, by simp, h⟩
  · rintro ⟨ys, part, zs, rfl, h⟩
    exact ⟨ys, part ++ zs, by simp, part, zs, rfl, h, zs, [], by simp, rfl⟩

theorem matchesWild_of_forall₂ {pattern : List (Wild α)} {xs : List α}
    (h : List.Forall₂ (fun w x => matchesWild same [w] [x] = true) pattern xs) :
    matchesWild same pattern xs = true := by
  induction h with
  | nil => rfl
  | @cons w x pattern xs hw _ ih => exact matchesWild_append.mpr ⟨[x], xs, rfl, hw, ih⟩

end TicketWarden.Patterns
