/- Module: TicketWarden/Guardrails/PiiFree
   source: apps/api/src/guardrails/pii.py, apps/api/src/guardrails/injection.py
   digest: Texts in which no personal data can be found: the reasons the guardrails write
   themselves. -/

import Mathlib.Algebra.Order.BigOperators.Group.List
import TicketWarden.Guardrails.Injection
import TicketWarden.Guardrails.Pii
import TicketWarden.Patterns.Needs

set_option autoImplicit false
set_option relaxedAutoImplicit false

namespace TicketWarden.Guardrails

open Patterns Python

variable (db : Runtime)

theorem email_needs : email.Matches.Needs (· == '@') 1 :=
  Regex.needs_right _ (Regex.needs_left _ (Regex.needs_cls fun _ h => h))

private theorem digit_needs :
    (digit db).Matches.Needs db.isDecimal 1 := Regex.needs_cls fun _ h => h

private theorem digits_needs (lo : ℕ) (extra : Option ℕ) :
    (Regex.rep (digit db) lo extra true).Matches.Needs db.isDecimal lo := by
  have h : (Regex.rep (digit db) lo extra true).Matches.Needs db.isDecimal (lo * 1) :=
    Regex.needs_rep (digit_needs db)
  rwa [Nat.mul_one] at h

open Regex in
private theorem ssn_needs : (ssn db).Matches.Needs db.isDecimal 9 :=
  needs_right _ <| needs_seq (digits_needs db 3 _) <| needs_right _ <|
    needs_seq (digits_needs db 2 _) <| needs_right _ <| needs_left _ (digits_needs db 4 _)

open Regex in
theorem card_needs : (card db).Matches.Needs db.isDecimal 13 :=
  needs_right _ <| needs_left _ <| needs_rep (needs_left _ (digit_needs db))

open Regex in
theorem phone_needs : (phone db).Matches.Needs db.isDecimal 10 := by
  have harea : (oneOf [cat [lit "(", times 3 (digit db), lit ")"],
      times 3 (digit db)]).Matches.Needs db.isDecimal 3 :=
    needs_alt (needs_right _ (needs_left _ (digits_needs db 3 _))) (digits_needs db 3 _)
  exact needs_right _ <| needs_right _ <| needs_seq harea <| needs_right _ <|
    needs_seq (digits_needs db 3 _) <| needs_right _ <| needs_left _ (digits_needs db 4 _)

open Regex in
private theorem ipAddress_needs : (ipAddress db).Matches.Needs db.isDecimal 4 :=
  needs_right _ <| needs_seq (needs_rep (needs_left _ (digits_needs db 1 _))) <|
    needs_left _ (digits_needs db 1 _)

open Regex in
theorem businessRef_needs : (businessRef db).Matches.Needs db.isDecimal 3 :=
  needs_right _ <| needs_right _ <| needs_right _ <| needs_right _ <|
    needs_left _ (digits_needs db 3 _)

/-- A text without an `@` and with fewer than three digits is not personal data. -/
structure Sparse (text : List Char) : Prop where
  at_sign : '@' ∉ text
  digits : text.countP db.isDecimal < 3

private theorem piiPatterns_need {entry : String × Regex Char} (h : entry ∈ piiPatterns db) :
    entry.2.proper = true ∧ entry.2.consumes = true ∧
      (entry.2.Matches.Needs (· == '@') 1 ∨ entry.2.Matches.Needs db.isDecimal 3) := by
  simp only [piiPatterns, List.mem_cons, List.not_mem_nil, or_false] at h
  rcases h with rfl | rfl | rfl | rfl | rfl
  · exact ⟨rfl, rfl, .inl email_needs⟩
  · exact ⟨rfl, rfl, .inr ((ssn_needs db).mono (by decide))⟩
  · exact ⟨rfl, rfl, .inr ((card_needs db).mono (by decide))⟩
  · exact ⟨rfl, rfl, .inr ((phone_needs db).mono (by decide))⟩
  · exact ⟨rfl, rfl, .inr ((ipAddress_needs db).mono (by decide))⟩

variable {db}

private theorem Sparse.stash_eq {text : List Char} (h : Sparse db text) :
    (shieldBusinessRefs db text).1 = text := by
  have hscans : Scans (businessRef db) ⟨none, text⟩ ((businessRef db).scan text) :=
    scans_scan rfl rfl text
  have hnone : hits ((businessRef db).scan text) = [] :=
    hits_eq_nil_of_needs rfl rfl (businessRef_needs db) h.digits
  have hchars : ∀ (n : ℕ) (cs : List Char), stash n (cs.map .char) = cs := by
    intro n cs
    induction cs with
    | nil => rfl
    | cons c cs ih => exact congrArg (c :: ·) ih
  rw [shieldBusinessRefs, hscans.eq_map_char hnone]
  exact hchars 0 text

theorem Sparse.findPii_eq_nil {text : String} (h : Sparse db text.toList) :
    findPii db text = [] := by
  unfold findPii
  split
  · rfl
  dsimp only
  rw [h.stash_eq, List.filterMap_eq_nil_iff]
  intro entry hentry
  obtain ⟨hproper, hconsumes, hneeds⟩ := piiPatterns_need db hentry
  have hnone : entry.2.findAll text.toList = [] := by
    rcases hneeds with hat | hdigits
    · have hcount : text.toList.countP (· == '@') < 1 := by
        have hzero : text.toList.countP (· == '@') = 0 := by
          apply List.countP_eq_zero.mpr
          intro c hc heq
          exact h.at_sign (eq_of_beq heq ▸ hc)
        omega
      exact hits_eq_nil_of_needs hproper hconsumes hat hcount
    · exact hits_eq_nil_of_needs hproper hconsumes hdigits h.digits
  rw [if_pos hnone]

def plain (c : Char) : Bool := decide (c.toNat < 128) && !c.isDigit && c != '@'

private theorem isDecimal_of_plain (db : Runtime) {c : Char} (h : plain c = true) :
    db.isDecimal c = false := by
  simp only [plain, Bool.and_eq_true, decide_eq_true_eq, Bool.not_eq_true'] at h
  rw [db.isDecimal_ascii c h.1.1]
  exact h.1.2

theorem countP_plain (db : Runtime) {text : List Char} (h : text.all plain = true) :
    text.countP db.isDecimal = 0 := by
  apply List.countP_eq_zero.mpr
  intro c hc
  have hplain := List.all_eq_true.mp h c hc
  simp [isDecimal_of_plain db hplain]

theorem sparse_around (db : Runtime) {before number after : List Char}
    (hbefore : before.all plain = true) (hlength : number.length < 3) (hat : '@' ∉ number)
    (hafter : after.all plain = true) : Sparse db (before ++ number ++ after) := by
  have hnot : ∀ {text : List Char}, text.all plain = true → '@' ∉ text := by
    intro text hall hmem
    exact absurd (List.all_eq_true.mp hall '@' hmem) (by decide)
  constructor
  · intro hmem
    rcases List.mem_append.mp hmem with hmem | hmem
    · rcases List.mem_append.mp hmem with hmem | hmem
      · exact hnot hbefore hmem
      · exact hat hmem
    · exact hnot hafter hmem
  · have hle : number.countP db.isDecimal ≤ number.length := List.countP_le_length
    rw [List.countP_append, List.countP_append, countP_plain db hbefore, countP_plain db hafter]
    omega

theorem sparse_plain (db : Runtime) {text : List Char} (h : text.all plain = true) :
    Sparse db text := by
  have hsparse : Sparse db (text ++ [] ++ []) :=
    sparse_around db h (by decide) (by simp) rfl
  simpa using hsparse

theorem plain_intercalate {sep : List Char} {texts : List (List Char)}
    (hsep : sep.all plain = true) (htexts : ∀ text ∈ texts, text.all plain = true) :
    (sep.intercalate texts).all plain = true := by
  induction texts with
  | nil => rfl
  | cons text texts ih =>
    have hhead : text.all plain = true := htexts text List.mem_cons_self
    have htail := ih fun t ht => htexts t (List.mem_cons_of_mem text ht)
    cases texts with
    | nil => simpa using hhead
    | cons text' texts =>
      rw [List.intercalate_cons_cons, List.all_append, List.all_append, hhead, hsep, htail]
      rfl

private theorem labels_eq (db db' : Runtime) :
    (allSignals db).map Signal.label = (allSignals db').map Signal.label := by
  simp only [allSignals, highSignals, mediumSignals, lowSignals, List.map_append, List.map_cons,
    List.map_nil]

private theorem weights_eq (db : Runtime) :
    (allSignals db).map Signal.weight =
      List.replicate 15 3 ++ List.replicate 5 2 ++ List.replicate 2 1 := by
  simp only [allSignals, highSignals, mediumSignals, lowSignals, List.map_append, List.map_cons,
    List.map_nil]
  rfl

private theorem signals_plain (db : Runtime) :
    ∀ signal ∈ allSignals db, signal.label.toList.all plain = true := by
  intro signal hsignal
  have hlabels : ((allSignals db).map Signal.label).all fun label =>
      label.toList.all plain := by
    rw [labels_eq db asciiData]
    decide +kernel
  exact List.all_eq_true.mp hlabels _ (List.mem_map_of_mem hsignal)

theorem detectInjection_reason {text : String} {reason : Option String}
    (h : detectInjection db text = (true, reason)) :
    ∃ score labels, score < 100 ∧ (∀ label ∈ labels, label.toList.all plain = true) ∧
      reason = some ("risk_score=" ++ Nat.repr score ++ " signals=" ++
        ",".intercalate labels) := by
  unfold detectInjection at h
  split at h
  · cases h
  dsimp only at h
  split at h
  · obtain ⟨-, rfl⟩ := Prod.mk.inj h
    refine ⟨_, _, ?_, ?_, rfl⟩
    · have hsub : (((allSignals db).filter fun signal => signal.pattern.search
          (normalize db text.toList)).map Signal.weight).Sublist
          ((allSignals db).map Signal.weight) := List.filter_sublist.map _
      have hle := hsub.sum_le_sum fun _ _ => Nat.zero_le _
      rw [weights_eq] at hle
      exact lt_of_le_of_lt hle (by decide)
    · intro label hlabel
      obtain ⟨signal, hsignal, rfl⟩ := List.mem_map.mp hlabel
      exact signals_plain db signal (List.mem_of_mem_filter hsignal)
  · cases h

private theorem leakPatterns_plain (db : Runtime) :
    ∀ entry ∈ leakPatterns db, entry.1.toList.all plain = true := by
  intro entry hentry
  have hsame : (leakPatterns db).map Prod.fst = (leakPatterns asciiData).map Prod.fst := by
    simp only [leakPatterns, List.map_cons, List.map_nil]
  have hall : ((leakPatterns db).map Prod.fst).all fun text => text.toList.all plain := by
    rw [hsame]
    decide +kernel
  exact List.all_eq_true.mp hall _ (List.mem_map_of_mem hentry)

theorem detectPromptLeak_pattern {text : Option String} {pattern : Option String}
    (h : detectPromptLeak db text = (true, pattern)) :
    ∃ label, pattern = some label ∧ label.toList.all plain = true := by
  cases text with
  | none => cases h
  | some text =>
    unfold detectPromptLeak at h
    dsimp only at h
    split at h
    · cases h
    split at h
    · rename_i entry hfind
      obtain ⟨-, rfl⟩ := Prod.mk.inj h
      exact ⟨_, rfl, leakPatterns_plain db entry (List.mem_of_find?_eq_some hfind)⟩
    · cases h

end TicketWarden.Guardrails
