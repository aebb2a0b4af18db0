/- Module: TicketWarden/Guardrails/Rescan
   source: apps/api/src/guardrails/pii.py
   digest: Scanning a redacted text for business references finds every reference again,
   and otherwise what is found while they are set aside. -/

import TicketWarden.Guardrails.Masking
import TicketWarden.Guardrails.Reference

set_option autoImplicit false
set_option relaxedAutoImplicit false

namespace TicketWarden.Guardrails

open Patterns Python

variable {db : Runtime}

private theorem businessRef_chars {c : Char} (hlow : c.toNat < 128)
    (hc : (letter c || asciiSpace c || c.isDigit || [':', '#', '.'].contains c) = false) :
    (businessRef db).chars c = false := by
  rw [Bool.eq_false_iff]
  intro hchars
  have hcases := chars_of_businessRef hchars
  rw [db.isSpace_ascii c hlow, db.isDecimal_ascii c hlow] at hcases
  simp only [Bool.or_eq_false_iff, List.contains_eq_mem, decide_eq_false_iff_not] at hc
  obtain ⟨⟨⟨hletter, hspace⟩, hdigit⟩, hother⟩ := hc
  rw [hletter, hspace, hdigit] at hcases
  simp [hother] at hcases

theorem inert_mask_reference : Inert (businessRef db) mask where
  first := ⟨'[', rfl, businessRef_chars (by decide) (by decide)⟩
  last := ⟨']', by decide, businessRef_chars (by decide) (by decide)⟩
  free w hw p n hm := by
    have hle : w.countP db.isDecimal ≤ mask.countP db.isDecimal := hw.sublist.countP_le
    have hzero : mask.countP db.isDecimal = 0 := countP_plain db (by decide)
    have hneeds := businessRef_needs db hm
    omega

theorem placeholder_getLast (index : ℕ) : (placeholder index).getLast? = some nul := by
  rw [placeholder_eq, ← List.cons_append, List.getLast?_concat]

theorem inert_placeholder_reference (index : ℕ) : Inert (businessRef db) (placeholder index) where
  first := ⟨nul, rfl, businessRef_chars (by decide) (by decide)⟩
  last := ⟨nul, placeholder_getLast index, businessRef_chars (by decide) (by decide)⟩
  free w hw p n hm := by
    obtain ⟨x, hx, hword⟩ := (refShape_of_matches hm).inner
    have hmem := hw.subset hx
    rw [placeholder_eq, List.mem_cons, List.mem_append, List.mem_singleton] at hmem
    have hnul : nul ∉ w := (firm_of_matches hm).nul_not_mem
    rcases hmem with rfl | hlabel | rfl
    · exact hnul hx
    · rw [isWord_of_isAlphanum (label_isAlphanum hlabel)] at hword
      cases hword
    · exact hnul hx

theorem businessRef_alike {x y : Option Char} (h : holdsAt db.isWord x = holdsAt db.isWord y) :
    (businessRef db).Alike x y := by
  simp [businessRef, between, atLeast, digit, wordEdge, opt, Regex.Alike, h]

def found : Step (Option ℕ) Char → List (Token Char)
  | .keep (.char x) => [.char x]
  | .keep (.block none _) => mask.map .char
  | .keep (.block (some _) w) => [.hit w]
  | .hit w => [.hit w]

/-- The references among some pieces are references of some text. -/
def Referenced (db : Runtime) (ps : List Part) : Prop :=
  ∀ index m, Piece.block (some index) m ∈ ps → ∃ p n, (businessRef db).Matches p m n

theorem Referenced.left {ps qs : List Part} (h : Referenced db (ps ++ qs)) : Referenced db ps :=
  fun index m hm => h index m (List.mem_append_left qs hm)

theorem Referenced.right {ps qs : List Part} (h : Referenced db (ps ++ qs)) : Referenced db qs :=
  fun index m hm => h index m (List.mem_append_right ps hm)

theorem Referenced.tail {piece : Part} {ps : List Part} (h : Referenced db (piece :: ps)) :
    Referenced db ps :=
  fun index m hm => h index m (List.mem_cons_of_mem piece hm)

private theorem run_of_reference {p n : Option Char} {u v rest : List Char} {y : Char}
    {ps : List Part}
    (hw : (businessRef db).Matches p (u ++ [y] ++ v) n) (hedged : Edged db (some y) ps)
    (hrefs : Referenced db ps) (heq : render final ps = v ++ rest) :
    ∃ qs, ps = v.map .char ++ qs ∧ rest = render final qs := by
  induction v generalizing u y ps with
  | nil => exact ⟨ps, rfl, heq.symm⟩
  | cons x v ih =>
    match ps with
    | [] => cases heq
    | .char z :: ps =>
      obtain ⟨rfl, htail⟩ := List.cons.inj heq
      obtain ⟨qs, rfl, hrest⟩ := @ih (u ++ [y]) z ps (by simpa using hw) hedged
        hrefs.tail htail
      exact ⟨qs, rfl, hrest⟩
    | .block none m :: ps =>
      exfalso
      have hopen : (render final (Piece.block none m :: ps)).head? = some '[' := rfl
      rw [heq] at hopen
      obtain rfl : x = '[' := Option.some.inj hopen
      have hnot : '[' ∉ u ++ [y] ++ '[' :: v := not_mem_of_businessRef hw (by decide) (by decide)
      exact hnot (by simp)
    | .block (some index) m :: ps =>
      exfalso
      obtain ⟨p', n', hm⟩ := hrefs index m List.mem_cons_self
      exact not_overlap hw hm ⟨y, by simp, hedged.1⟩ (by simp) heq.symm

section

variable {p p' n : Option Char} {w rest : List Char} {ts : List (Token Char)} {ps : List Part}
  {index : ℕ}

private theorem scan_reference (hm : (businessRef db).Matches p w rest.head?)
    (h : Scans (businessRef db) ⟨p, w ++ rest⟩ ts) :
    ∃ ts', ts = .hit w :: ts' ∧ Scans (businessRef db) ⟨w.getLast?.or p, rest⟩ ts' := by
  generalize hc : (⟨p, w ++ rest⟩ : Cursor Char) = c at h
  cases h with
  | nil =>
    obtain ⟨rfl, -⟩ := List.append_eq_nil_iff.mp (Cursor.mk.inj hc).2
    exact absurd hm (Regex.not_matches_nil rfl _ _)
  | char hnone _ =>
    obtain ⟨rfl, heq⟩ := Cursor.mk.inj hc
    exact absurd hm (Regex.not_matches_of_matchAt rfl hnone heq.symm)
  | @hit _ v rest' _ _ hmatch hscan =>
    obtain ⟨rfl, heq⟩ := Cursor.mk.inj hc
    have hv := Regex.matches_of_matchAt (by rfl) hmatch
    obtain rfl : w = v := reference_unique hm hv heq (refShape_of_matches hm).edge.2
      (refShape_of_matches hv).edge.2
    obtain rfl : rest = rest' := List.append_cancel_left heq
    exact ⟨_, rfl, hscan⟩

private theorem alike_before (hm : (businessRef db).Matches n w p)
    (hp : holdsAt db.isWord p' = holdsAt db.isWord n ∨
      holdsAt db.isWord (w ++ rest).head? = false) :
    holdsAt db.isWord p' = holdsAt db.isWord n := by
  rcases hp with halike | hhead
  · exact halike
  · obtain ⟨x, hx, hletter⟩ := (refShape_of_matches hm).first
    rw [List.head?_append, hx, Option.some_or, holdsAt_some, isWord_of_letter hletter] at hhead
    cases hhead

private theorem isWord_head_face (h : holdsAt db.isWord (render final ps).head? = false) :
    holdsAt db.isWord (render face ps).head? = false := by
  match ps with
  | [] => rfl
  | .char x :: ps => exact h
  | .block none v :: ps => exact isWord_open
  | .block (some index) w :: ps => exact isWord_nul

private theorem isWord_head_final (hedged : Edged db p ps) (hp : holdsAt db.isWord p = true)
    (h : holdsAt db.isWord (render face ps).head? = false) :
    holdsAt db.isWord (render final ps).head? = false := by
  match ps with
  | [] => rfl
  | .char x :: ps => exact h
  | .block none v :: ps => exact isWord_open
  | .block (some index) w :: ps =>
    rw [hedged.1] at hp
    cases hp

private theorem isWord_getLast_reference (hm : (businessRef db).Matches p w n) (q : Option Char) :
    holdsAt db.isWord (w.getLast?.or q) = true := by
  obtain ⟨u, ds, rfl, hne, -, hdigits⟩ := (refShape_of_matches hm).digits
  rw [List.getLast?_append, List.getLast?_eq_some_getLast hne, Option.some_or, Option.some_or,
    holdsAt_some]
  exact isWord_of_isDecimal (hdigits _ (List.getLast_mem hne))

private theorem scan_char {x : Char} (hnone : ∀ v tail, x :: render face ps = v ++ tail →
      ¬ (businessRef db).Matches p v tail.head?)
    (hedged : Edged db (some x) ps) (hrefs : Referenced db ps)
    (hp : holdsAt db.isWord p = holdsAt db.isWord p' ∨ db.isWord x = false)
    (h : Scans (businessRef db) ⟨p', x :: render final ps⟩ ts) :
    ∃ ts', ts = .char x :: ts' ∧ Scans (businessRef db) ⟨some x, render final ps⟩ ts' := by
  generalize hc : (⟨p', x :: render final ps⟩ : Cursor Char) = c at h
  cases h with
  | nil => cases hc
  | char _ hscan =>
    cases hc
    exact ⟨_, rfl, hscan⟩
  | @hit _ v tail _ hne hmatch _ =>
    exfalso
    obtain ⟨rfl, heq⟩ := Cursor.mk.inj hc
    have hv := Regex.matches_of_matchAt (by rfl) hmatch
    have hedge := (refShape_of_matches hv).edge
    cases v with
    | nil => exact hne rfl
    | cons y v =>
      obtain ⟨rfl, htail⟩ := List.cons.inj heq
      obtain ⟨qs, rfl, rfl⟩ := run_of_reference (u := []) hv hedged hrefs htail
      refine hnone (x :: v) (render face qs) (by simp) (hv.congr ?_ ?_)
      · have hbefore := @alike_before db _ _ _ _ (render final qs) hv hp
        exact businessRef_alike hbefore.symm
      · exact businessRef_alike (hedge.2.trans (isWord_head_face hedge.2).symm)

private theorem scan_block (hm : (businessRef db).Matches n w p)
    (hedged : Edged db p' (.block (some index) w :: ps))
    (h : Scans (businessRef db) ⟨p', w ++ render final ps⟩ ts) :
    ∃ ts', ts = .hit w :: ts' ∧
      Scans (businessRef db) ⟨w.getLast?.or p', render final ps⟩ ts' := by
  obtain ⟨hprev, hnext, -⟩ := hedged
  have hedge := (refShape_of_matches hm).edge
  refine scan_reference (hm.congr ?_ ?_) h
  · exact businessRef_alike (hedge.1.trans hprev.symm)
  · exact businessRef_alike (hedge.2.trans hnext.symm)

private theorem scan_hit (hm : (businessRef db).Matches p w (render face ps).head?)
    (hedged : Edged db (w.getLast?.or p') ps)
    (hp : holdsAt db.isWord p = holdsAt db.isWord p' ∨
      holdsAt db.isWord (w ++ render final ps).head? = false)
    (h : Scans (businessRef db) ⟨p', w ++ render final ps⟩ ts) :
    ∃ ts', ts = .hit w :: ts' ∧
      Scans (businessRef db) ⟨w.getLast?.or p', render final ps⟩ ts' := by
  have hedge := (refShape_of_matches hm).edge
  have hnext := isWord_head_final hedged (isWord_getLast_reference hm p') hedge.2
  have hprev : holdsAt db.isWord p' = holdsAt db.isWord p := alike_before hm (hp.imp Eq.symm id)
  refine scan_reference (hm.congr ?_ ?_) h
  · exact businessRef_alike hprev.symm
  · exact businessRef_alike (hedge.2.trans hnext.symm)

end

/-- Every reference is found again, and the others are those of the text in which the references
are set aside. -/
theorem scan_final {p p' : Option Char} {S : List (Step (Option ℕ) Char)} {ts : List (Token Char)}
    (hS : Substitutes (businessRef db) face p S) (hedged : Edged db p' (sources S))
    (hrefs : Referenced db (sources S))
    (hp : holdsAt db.isWord p = holdsAt db.isWord p' ∨
      holdsAt db.isWord (render final (sources S)).head? = false)
    (h : Scans (businessRef db) ⟨p', render final (sources S)⟩ ts) : ts = S.flatMap found := by
  induction hS generalizing p' ts with
  | nil => exact h.of_nil
  | @char p x S hnone _ ih =>
    obtain ⟨ts, rfl, hts⟩ := scan_char hnone hedged hrefs.tail hp h
    exact congrArg (Token.char x :: ·) (ih hedged hrefs.tail (.inl rfl) hts)
  | @block p kind w S _ ih =>
    cases kind with
    | none =>
      obtain ⟨ts, rfl, hts⟩ := h.skip rfl inert_mask_reference (u := []) (v := mask) rfl
      exact congrArg (mask.map Token.char ++ ·) (ih hedged hrefs.tail (.inl rfl) hts)
    | some index =>
      obtain ⟨q, n, hm⟩ := hrefs index w List.mem_cons_self
      obtain ⟨ts, rfl, hts⟩ := scan_block hm hedged h
      exact congrArg (Token.hit w :: ·) (ih hedged.2.2 hrefs.tail (.inr hedged.2.1) hts)
  | @hit p w S _ hm _ ih =>
    have hedged' : Edged db (w.getLast?.or p') (sources S) := edged_map_char_append.mp hedged
    rw [show sources (.hit w :: S) = w.map .char ++ sources S from rfl, render_append,
      render_map_char] at hp h
    obtain ⟨ts, rfl, hts⟩ := scan_hit hm hedged' hp h
    refine congrArg (Token.hit w :: ·) (ih hedged' hrefs.right (.inl ?_) hts)
    rw [isWord_getLast_reference hm, isWord_getLast_reference hm]

end TicketWarden.Guardrails
