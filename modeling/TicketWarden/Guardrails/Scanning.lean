/- Module: TicketWarden/Guardrails/Scanning
   source: apps/api/src/guardrails/injection.py
   digest: What the scans ask about a text: its normal form, the signals matched in it and
   what these ask of the neighbours of a match. -/

import Mathlib.Algebra.Order.BigOperators.Group.List
import TicketWarden.Guardrails.Injection
import TicketWarden.Python.Expressions

set_option autoImplicit false
set_option relaxedAutoImplicit false

namespace TicketWarden.Guardrails

open Patterns Python

variable {x y : Option Char}

variable {db : Runtime}

theorem signals_alike (h : holdsAt db.isWord x = holdsAt db.isWord y) :
    ∀ signal ∈ allSignals db, signal.pattern.Alike x y := by
  simp [allSignals, highSignals, mediumSignals, lowSignals, wordEdge, gap, opt, plus, Python.star,
    times, atLeast, lazyStar, space, wordChar, among, Regex.Alike, h]

theorem leakPatterns_alike (h : holdsAt db.isWord x = holdsAt db.isWord y) :
    ∀ entry ∈ leakPatterns db, entry.2.Alike x y := by
  simp [leakPatterns, wordEdge, gap, opt, plus, Python.star, space, nonSpace, among, Regex.Alike, h]

theorem signals_proper (db : Runtime) :
    ∀ signal ∈ allSignals db, signal.pattern.proper = true := by
  have hall : (allSignals db).all (fun signal => signal.pattern.proper) = true := rfl
  exact List.all_eq_true.mp hall

private theorem signals_consume (db : Runtime) :
    ∀ signal ∈ allSignals db, signal.pattern.consumes = true := by
  have hall : (allSignals db).all (fun signal => signal.pattern.consumes) = true := rfl
  exact List.all_eq_true.mp hall

theorem leakPatterns_proper (db : Runtime) :
    ∀ entry ∈ leakPatterns db, entry.2.proper = true := by
  have hall : (leakPatterns db).all (fun entry => entry.2.proper) = true := rfl
  exact List.all_eq_true.mp hall

private theorem leakPatterns_consume (db : Runtime) :
    ∀ entry ∈ leakPatterns db, entry.2.consumes = true := by
  have hall : (leakPatterns db).all (fun entry => entry.2.consumes) = true := rfl
  exact List.all_eq_true.mp hall

section

variable (db : Runtime)

/-- The class of `_INVISIBLE_CHARS`. -/
def invisible (c : Char) : Bool :=
  [0x200B, 0x200C, 0x200D, 0x2060, 0xFEFF, 0xAD, 0x200E, 0x200F].contains c.toNat ||
    (0x202A ≤ c.toNat && c.toNat ≤ 0x202E) || (0x2066 ≤ c.toNat && c.toNat ≤ 0x2069)

/-- A text without its invisible characters. -/
def visible (text : List Char) : List Char := text.filter fun c => !invisible c

@[simp] theorem visible_append (a b : List Char) :
    visible (a ++ b) = visible a ++ visible b := List.filter_append a b

theorem toNat_of_invisible {c : Char} (h : invisible c = true) : 128 ≤ c.toNat := by
  simp only [invisible, List.contains_cons, List.contains_nil, Bool.or_false, Bool.or_eq_true,
    beq_iff_eq, Bool.and_eq_true, decide_eq_true_eq] at h
  omega

theorem visible_ascii {text : List Char} (h : ∀ c ∈ text, c.toNat < 128) : visible text = text := by
  apply List.filter_eq_self.mpr
  intro c hc
  rw [Bool.not_eq_true', ← Bool.not_eq_true]
  intro hinvisible
  have hlow := h c hc
  have hhigh := toNat_of_invisible hinvisible
  omega

theorem normalize_eq (text : List Char) : normalize db text = visible (db.nfkc text) := by
  unfold normalize
  split
  · rename_i hnil
    rw [hnil, db.nfkc_ascii [] (by simp)]
    rfl
  · exact Regex.sub_cls_nil invisible _

theorem isInjection_iff {text : String} :
    isInjection db text = true ↔
      text ≠ "" ∧ refuseThreshold ≤ (riskScore db (normalize db text.toList)).1 := by
  unfold isInjection detectInjection
  split
  · simp [*]
  · dsimp only
    split
    · rename_i hne hscore
      exact iff_of_true rfl ⟨hne, hscore⟩
    · rename_i hscore
      exact iff_of_false (by simp) fun h => hscore h.2

private theorem search_nil {r : Regex Char} (hr : r.proper = true) (hconsumes : r.consumes = true) :
    r.search [] = false := by
  by_contra hsearch
  obtain ⟨a, w, b, hnil, hm⟩ := (Regex.search_iff hr []).mp (by simpa using hsearch)
  obtain rfl : w = [] := by simp_all
  exact Regex.not_matches_nil hconsumes _ _ hm

theorem riskScore_nil : riskScore db [] = (0, []) := by
  have hnone : (allSignals db).filter (fun signal => signal.pattern.search []) = [] := by
    rw [List.filter_eq_nil_iff]
    intro signal hsignal hsearch
    rw [search_nil (signals_proper db signal hsignal) (signals_consume db signal hsignal)]
      at hsearch
    cases hsearch
  simp only [riskScore, hnone, List.map_nil, List.sum_nil]

theorem detectInjection_congr {text text' : String}
    (h : normalize db text.toList = normalize db text'.toList) :
    detectInjection db text = detectInjection db text' := by
  have heq : ∀ text : String, detectInjection db text =
      if refuseThreshold ≤ (riskScore db (normalize db text.toList)).1 then
        (true, some ("risk_score=" ++ Nat.repr (riskScore db (normalize db text.toList)).1 ++
          " signals=" ++ ",".intercalate (riskScore db (normalize db text.toList)).2))
      else (false, none) := by
    intro text
    unfold detectInjection
    split
    · rename_i hnil
      subst hnil
      rw [show normalize db "".toList = [] from rfl, riskScore_nil]
      rfl
    · rfl
  rw [heq, heq, h]

theorem detectPromptLeak_iff {text : String} :
    (detectPromptLeak db (some text)).1 = true ↔
      ∃ entry ∈ leakPatterns db, entry.2.search (normalize db text.toList) = true := by
  unfold detectPromptLeak
  dsimp only
  split
  · rename_i hnil
    subst hnil
    have hnormal : normalize db "".toList = [] := rfl
    refine iff_of_false (by simp) ?_
    rintro ⟨entry, hentry, hsearch⟩
    rw [hnormal, search_nil (leakPatterns_proper db entry hentry)
      (leakPatterns_consume db entry hentry)] at hsearch
    cases hsearch
  · split
    · rename_i entry hfind
      have hsearch := List.find?_some hfind
      exact iff_of_true rfl ⟨entry, List.mem_of_find?_eq_some hfind, hsearch⟩
    · rename_i hfind
      refine iff_of_false (by simp) ?_
      rintro ⟨entry, hentry, hsearch⟩
      exact List.find?_eq_none.mp hfind entry hentry hsearch

theorem riskScore_mono {text text' : List Char}
    (h : ∀ signal ∈ allSignals db, signal.pattern.search text = true →
      signal.pattern.search text' = true) :
    (riskScore db text).1 ≤ (riskScore db text').1 ∧
      ∀ label ∈ (riskScore db text).2, label ∈ (riskScore db text').2 := by
  have hsub : ((allSignals db).filter fun signal => signal.pattern.search text).Sublist
      ((allSignals db).filter fun signal => signal.pattern.search text') := by
    have hboth : (allSignals db).filter (fun signal => signal.pattern.search text) =
        ((allSignals db).filter fun signal => signal.pattern.search text').filter
          fun signal => signal.pattern.search text := by
      rw [List.filter_filter]
      apply List.filter_congr
      intro signal hsignal
      cases hmatch : signal.pattern.search text with
      | false => rfl
      | true => rw [h signal hsignal hmatch]; rfl
    rw [hboth]
    exact List.filter_sublist
  refine ⟨(hsub.map Signal.weight).sum_le_sum fun _ _ => Nat.zero_le _, ?_⟩
  intro label hlabel
  exact (hsub.map Signal.label).subset hlabel

end

end TicketWarden.Guardrails
