/- Module: TicketWarden/Guardrails/PiiShape
   source: apps/api/src/guardrails/pii.py
   digest: What the words matched by the expressions of redaction look like, and which
   neighbours they can have. -/

import TicketWarden.Guardrails.PiiFree
import TicketWarden.Patterns.Pieces
import TicketWarden.Python.Expressions

set_option autoImplicit false
set_option relaxedAutoImplicit false

namespace TicketWarden.Guardrails

open Patterns Python

/-- The categories of personal data. -/
inductive Category where
  | email | ssn | card | phone | ipAddress
  deriving DecidableEq

section

variable (db : Runtime)

def Category.pattern : Category → Regex Char
  | .email => Guardrails.email
  | .ssn => Guardrails.ssn db
  | .card => Guardrails.card db
  | .phone => Guardrails.phone db
  | .ipAddress => Guardrails.ipAddress db

def categories : List Category := [.email, .ssn, .card, .phone, .ipAddress]

def masked (ks : List Category) (text : List Char) : List Char :=
  ks.foldl (fun text k => (k.pattern db).sub mask text) text

theorem masked_append (ks ks' : List Category) (text : List Char) :
    masked db (ks ++ ks') text = masked db ks' (masked db ks text) := List.foldl_append

theorem maskPii_eq (text : List Char) : maskPii db text = masked db categories text := rfl

theorem exists_category {entry : String × Regex Char} (h : entry ∈ piiPatterns db) :
    ∃ k, entry.2 = Category.pattern db k := by
  have hmem : entry.2 ∈ categories.map (Category.pattern db) := List.mem_map_of_mem h
  obtain ⟨k, -, hk⟩ := List.mem_map.mp hmem
  exact ⟨k, hk.symm⟩

theorem Category.proper (k : Category) : (k.pattern db).proper = true := by cases k <;> rfl

theorem Category.consumes (k : Category) : (k.pattern db).consumes = true := by cases k <;> rfl

def numericChar (c : Char) : Bool :=
  db.isDecimal c || db.isSpace c || "()+-.".toList.contains c

end

variable {db : Runtime}

def cardSep (c : Char) : Bool := c == ' ' || c == '-'

theorem isWord_cardSep {c : Char} (h : cardSep c = true) : db.isWord c = false := by
  rcases Bool.or_eq_true_iff.mp h with h | h
  · rw [eq_of_beq h, isWord_ascii (by decide)]
    decide
  · rw [eq_of_beq h, isWord_ascii (by decide)]
    decide

section

variable {k : Category} {p n : Option Char} {w : List Char} {x : Char}

theorem numericChar_of_chars (hk : k ≠ .email) (h : (k.pattern db).chars x = true) :
    numericChar db x = true := by
  have hblank : db.isSpace ' ' = true := isSpace_blank
  cases k with
  | email => exact absurd rfl hk
  | ssn =>
    have hx : db.isDecimal x = true ∨ x = '-' := by
      simpa [Category.pattern, ssn, cat, times, digit, wordEdge, lit, Regex.chars, or_comm,
        or_left_comm] using h
    rcases hx with hx | rfl <;> simp [numericChar, *]
  | card =>
    have hx : db.isDecimal x = true ∨ x = ' ' ∨ x = '-' := by
      simpa [Category.pattern, card, cat, between, digit, wordEdge, lazyStar, among,
        Regex.chars] using h
    rcases hx with hx | rfl | rfl <;> simp [numericChar, *]
  | phone =>
    simp [Category.pattern, phone, cat, opt, between, times, oneOf, digit, lit, phoneSep,
      Regex.chars] at h
    simp [numericChar]
    tauto
  | ipAddress =>
    have hx : db.isDecimal x = true ∨ x = '.' := by
      simpa [Category.pattern, ipAddress, cat, between, times, digit, lit, wordEdge,
        Regex.chars, or_comm, or_left_comm] using h
    rcases hx with hx | rfl <;> simp [numericChar, *]

theorem Category.alike (k : Category) {p p' : Option Char}
    (hword : holdsAt db.isWord p = holdsAt db.isWord p')
    (hdecimal : holdsAt db.isDecimal p = holdsAt db.isDecimal p') :
    (k.pattern db).Alike p p' := by
  cases k with
  | email => simp [pattern, Guardrails.email, cat, plus, atLeast, lit, Regex.Alike]
  | ssn =>
    simp [pattern, Guardrails.ssn, cat, times, digit, wordEdge, lit, Regex.Alike, hword]
  | card =>
    simp [pattern, Guardrails.card, cat, between, digit, wordEdge, lazyStar, among,
      Regex.Alike, hword]
  | phone =>
    simp [pattern, Guardrails.phone, cat, opt, between, times, oneOf, digit, lit, phoneSep,
      Regex.Alike, hdecimal]
  | ipAddress =>
    simp [pattern, Guardrails.ipAddress, cat, between, times, digit, lit, wordEdge,
      Regex.Alike, hword]

theorem Category.alike_outside (k : Category) {p p' : Option Char}
    (hp : holdsAt db.isWord p = false) (hp' : holdsAt db.isWord p' = false) :
    (k.pattern db).Alike p p' :=
  k.alike (hp.trans hp'.symm)
    ((holdsAt_isDecimal_eq_false hp).trans (holdsAt_isDecimal_eq_false hp').symm)

theorem first_numeric (hk : k ≠ .email) (h : (k.pattern db).Matches p (x :: w) n) :
    db.isDecimal x = true ∨ k = .phone ∧ (x = '+' ∨ x = '(') := by
  have hfirst := Regex.first_of_matches h
  cases k with
  | email => exact absurd rfl hk
  | ssn =>
    left
    simpa [Category.pattern, ssn, cat, times, digit, wordEdge, Regex.first,
      Regex.consumes] using hfirst
  | card =>
    left
    simpa [Category.pattern, card, cat, between, digit, wordEdge, Regex.first,
      Regex.consumes] using hfirst
  | phone =>
    simp [Category.pattern, phone, cat, opt, between, times, digit, lit, oneOf, Regex.first,
      Regex.consumes] at hfirst
    tauto
  | ipAddress =>
    left
    simpa [Category.pattern, ipAddress, cat, between, times, digit, wordEdge, Regex.first,
      Regex.consumes] using hfirst

theorem last_numeric (hk : k ≠ .email) (h : (k.pattern db).Matches p (w ++ [x]) n) :
    db.isDecimal x = true ∨ k = .card ∧ cardSep x = true := by
  have hlast := Regex.last_of_matches h
  cases k with
  | email => exact absurd rfl hk
  | ssn =>
    left
    simpa [Category.pattern, ssn, cat, times, digit, lit, Regex.last, Regex.consumes,
      wordEdge] using hlast
  | card =>
    simp [Category.pattern, card, cat, between, digit, wordEdge, lazyStar, among, Regex.last,
      Regex.consumes] at hlast
    simp [cardSep]
    tauto
  | phone =>
    left
    simpa [Category.pattern, phone, cat, opt, times, digit, lit, oneOf, Regex.last,
      Regex.consumes] using hlast
  | ipAddress =>
    left
    simpa [Category.pattern, ipAddress, cat, between, times, digit, lit, Regex.last,
      Regex.consumes, wordEdge] using hlast

theorem before_numeric (hk : k ≠ .email) (h : (k.pattern db).Matches p w n) :
    holdsAt db.isDecimal p = false := by
  cases w with
  | nil => exact absurd h (Regex.not_matches_nil (k.consumes db) p n)
  | cons x w =>
    have hfirst := first_numeric hk h
    have hword : ∀ r : Regex Char,
        (Regex.seq (.boundary db.isWord) r).Matches p (x :: w) n → db.isDecimal x = true →
        holdsAt db.isDecimal p = false := by
      intro r hm hx
      obtain ⟨hne, -⟩ := Regex.boundary_of_matches hm
      rw [isWord_of_isDecimal hx] at hne
      exact holdsAt_isDecimal_eq_false (Bool.eq_false_iff.mpr hne)
    cases k with
    | email => exact absurd rfl hk
    | ssn => exact hword _ h (by simpa using hfirst)
    | card => exact hword _ h (by simpa using hfirst)
    | phone =>
      obtain ⟨u, v, -, ⟨rfl, hnot⟩, -⟩ := h
      exact hnot
    | ipAddress => exact hword _ h (by simpa using hfirst)

private theorem end_numeric (hk : k ≠ .email) (h : (k.pattern db).Matches p (w ++ [x]) n) :
    db.isWord x ≠ holdsAt db.isWord n ∨ k = .phone ∧ holdsAt db.isDecimal n = false := by
  cases k with
  | email => exact absurd rfl hk
  | ssn => exact .inl (Regex.boundary_of_matches_final rfl h)
  | card => exact .inl (Regex.boundary_of_matches_final rfl h)
  | phone =>
    obtain ⟨u, v, -, -, hnot⟩ := Regex.final_matches h
    exact .inr ⟨rfl, hnot⟩
  | ipAddress => exact .inl (Regex.boundary_of_matches_final rfl h)

theorem after_numeric (hk : k ≠ .email) (h : (k.pattern db).Matches p (w ++ [x]) n)
    (hx : db.isDecimal x = true) : holdsAt db.isDecimal n = false := by
  rcases end_numeric hk h with hne | ⟨-, hn⟩
  · rw [isWord_of_isDecimal hx] at hne
    exact holdsAt_isDecimal_eq_false (Bool.eq_false_iff.mpr hne.symm)
  · exact hn

theorem isDecimal_of_end (hk : k ≠ .email) (h : (k.pattern db).Matches p (w ++ [x]) n)
    (hn : holdsAt db.isWord n = false) : db.isDecimal x = true := by
  rcases last_numeric hk h with hx | ⟨rfl, hsep⟩
  · exact hx
  · rcases end_numeric hk h with hne | ⟨hphone, -⟩
    · rw [isWord_cardSep hsep, hn] at hne
      exact absurd rfl hne
    · cases hphone

theorem none_after_numeric (hk : k ≠ .email) (h : (k.pattern db).Matches p (w ++ [x]) n)
    (hx : db.isDecimal x = true) : (k.pattern db).Matches p (w ++ [x]) none := by
  rcases end_numeric hk h with hne | ⟨rfl, hn⟩
  · rw [isWord_of_isDecimal hx] at hne
    have hword : holdsAt db.isWord n = false := Bool.eq_false_iff.mpr hne.symm
    exact h.congr (Regex.alike_refl _ p) (k.alike hword (holdsAt_isDecimal_eq_false hword))
  · refine h.congr (Regex.alike_refl _ p) ?_
    simp [Category.pattern, phone, cat, opt, between, times, oneOf, digit, lit, phoneSep,
      Regex.Alike, hn]

private theorem card_rounds {m : ℕ}
    (h : (cat [digit db, lazyStar (among " -")]).Matches.pow (m + 1) p w n) :
    ∃ u z s, w = u ++ [z] ++ s ∧ db.isDecimal z = true ∧ (∀ c ∈ s, cardSep c = true) ∧
      ∀ p' n', (cat [digit db, lazyStar (among " -")]).Matches.pow (m + 1) p' (u ++ [z]) n' := by
  induction m generalizing p w with
  | zero =>
    obtain ⟨v, e, rfl, ⟨d, s, rfl, ⟨z, rfl, hz⟩, hs⟩, rfl⟩ := h
    refine ⟨[], z, s, by simp, hz, ?_, ?_⟩
    · intro c hc
      have hsep := Regex.chars_of_matches hs c hc
      simpa [cat, lazyStar, among, Regex.chars, cardSep] using hsep
    · intro p' n'
      exact ⟨[z], [], rfl, ⟨[z], [], rfl, ⟨z, rfl, hz⟩, 0, Nat.le_refl 0, by simp, rfl⟩, rfl⟩
  | succ m ih =>
    obtain ⟨v, w, rfl, hv, hw⟩ := h
    obtain ⟨u, z, s, rfl, hz, hs, hround⟩ := ih hw
    refine ⟨v ++ u, z, s, by simp, hz, hs, ?_⟩
    intro p' n'
    refine ⟨v, u ++ [z], List.append_assoc _ _ _, hv.congr ?_ ?_, hround _ _⟩
    · simp [cat, digit, lazyStar, among, Regex.Alike]
    · simp [cat, digit, lazyStar, among, Regex.Alike]

private theorem card_trim (h : (card db).Matches p w n) :
    ∃ u z s, w = u ++ [z] ++ s ∧ (∀ c ∈ s, cardSep c = true) ∧
      ∀ n', holdsAt db.isWord n' = false → (card db).Matches p (u ++ [z]) n' := by
  obtain ⟨e, r, rfl, ⟨rfl, hp⟩, v, e, rfl, ⟨m, hlo, hhi, hpow⟩, rfl, -⟩ := h
  obtain ⟨m, rfl⟩ : ∃ k, m = k + 1 := ⟨m - 1, by omega⟩
  obtain ⟨u, z, s, rfl, hz, hs, hround⟩ := card_rounds hpow
  refine ⟨u, z, s, by simp, hs, ?_⟩
  intro n' hn'
  refine ⟨[], u ++ [z], rfl, ⟨rfl, ?_⟩, u ++ [z], [], by simp, ⟨m + 1, hlo, hhi, hround _ _⟩, rfl,
    ?_⟩
  · cases u <;> simpa using hp
  · simp [isWord_of_isDecimal hz, hn']

theorem trim_numeric (hk : k ≠ .email) (h : (k.pattern db).Matches p w n) :
    ∃ u s, w = u ++ s ∧ (∀ c ∈ s, cardSep c = true) ∧
      ∀ n', holdsAt db.isWord n' = false → (k.pattern db).Matches p u n' := by
  rcases List.eq_nil_or_concat w with rfl | ⟨w, x, rfl⟩
  · exact absurd h (Regex.not_matches_nil (k.consumes db) p n)
  · rw [List.concat_eq_append] at h ⊢
    rcases last_numeric hk h with hx | ⟨rfl, -⟩
    · refine ⟨w ++ [x], [], (List.append_nil _).symm, by simp, ?_⟩
      intro n' hn'
      exact (none_after_numeric hk h hx).congr (Regex.alike_refl _ p) (k.alike_outside rfl hn')
    · obtain ⟨u, z, s, heq, hs, hcard⟩ := card_trim h
      exact ⟨u ++ [z], s, heq, hs, hcard⟩

end

private theorem matches_of_plus {r s : Regex Char} {p n : Option Char} {w : List Char}
    (hr : r.consumes = true) (hfirst : r.first '+' = false)
    (h : (Regex.seq (.seq (opt (lit "+")) r) s).Matches p ('+' :: w) n) :
    (Regex.seq (.seq (opt (lit "+")) r) s).Matches (some '+') w n := by
  rw [Regex.matches_seq_assoc] at h ⊢
  apply Regex.matches_optional_seq_iff.mpr
  left
  rcases Regex.matches_optional_seq_iff.mp h with hrest | ⟨u, v, heq, ⟨x, rfl, -⟩, hv⟩
  · have hplus := Regex.first_of_matches hrest
    simp [Regex.first, hr, hfirst] at hplus
  · obtain ⟨rfl, rfl⟩ := List.cons.inj heq
    exact hv

theorem phone_of_plus {p n : Option Char} {w : List Char}
    (h : (phone db).Matches p ('+' :: w) n) : (phone db).Matches (some '+') w n := by
  have hplus : db.isDecimal '+' = false := (db.isDecimal_ascii '+' (by decide)).trans (by decide)
  obtain ⟨u, v, heq, ⟨rfl, -⟩, hv⟩ := h
  obtain rfl : '+' :: w = v := heq
  refine ⟨[], w, rfl, ⟨rfl, hplus⟩, Regex.matches_optional_seq_iff.mpr (.inr ?_)⟩
  rcases Regex.matches_optional_seq_iff.mp hv with hrest | hcode
  · have hfirst := Regex.first_of_matches hrest
    simp [cat, oneOf, times, digit, lit, Regex.first, Regex.consumes, hplus] at hfirst
  · refine matches_of_plus rfl ?_ hcode
    simp [cat, between, digit, Regex.first, Regex.consumes, hplus]

theorem email_congr {p p' n n' : Option Char} {w : List Char} (h : email.Matches p w n) :
    email.Matches p' w n' := by
  apply h.congr
  · simp [email, cat, plus, atLeast, lit, Regex.Alike]
  · simp [email, cat, plus, atLeast, lit, Regex.Alike]

theorem email_cons {p p' n : Option Char} {w : List Char} {x : Char} (hx : emailLocal x = true)
    (h : email.Matches p w n) : email.Matches p' (x :: w) n := by
  have hnext : email.Matches (some x) w n := email_congr h
  obtain ⟨u, v, rfl, ⟨m, hlo, -, hu⟩, hv⟩ := hnext
  refine ⟨x :: u, v, rfl, ⟨m + 1, by omega, by simp, [x], u, rfl, ⟨x, rfl, hx⟩, hu⟩, ?_⟩
  rwa [getLast_cons_or]

private theorem isDecimal_of_numericChar {c : Char} (hc : numericChar db c = true)
    (hword : db.isWord c = true) : db.isDecimal c = true := by
  rw [numericChar, Bool.or_eq_true, Bool.or_eq_true, List.contains_iff_mem] at hc
  rcases hc with (hc | hc) | hc
  · exact hc
  · rw [isWord_of_isSpace hc] at hword
    cases hword
  · rw [isWord_of_mem (by decide) hc] at hword
    cases hword

theorem letter_not_mem {k : Category} {p n : Option Char} {w : List Char} (hk : k ≠ .email)
    (h : (k.pattern db).Matches p w n) {x : Char} (hx : letter x = true) : x ∉ w := by
  intro hmem
  have hnumeric := numericChar_of_chars hk (Regex.chars_of_matches h x hmem)
  have hdecimal := isDecimal_of_numericChar hnumeric (isWord_of_letter hx)
  rw [isDecimal_of_letter hx] at hdecimal
  cases hdecimal

/-- A reference is a keyword, a connector and digits, and no word goes on on either side or
from the keyword into the connector. -/
structure RefShape (db : Runtime) (p : Option Char) (w : List Char) (n : Option Char) :
    Prop where
  edge : holdsAt db.isWord p = false ∧ holdsAt db.isWord n = false
  first : ∃ x ∈ w.head?, letter x = true
  inner : ∃ x ∈ w, db.isWord x = false
  digits : ∃ u v, w = u ++ v ∧ v ≠ [] ∧ (∀ c ∈ u, db.isDecimal c = false) ∧
    ∀ c ∈ v, db.isDecimal c = true

theorem keyword_letter {x : Char}
    (h : (words ["order", "invoice", "tracking", "ticket", "reference", "ref", "awb"]).chars x =
      true) : letter x = true :=
  letter_of_words (by decide) h

private theorem connector_isDecimal {x : Char}
    (h : (oneOf [.cls fun c => db.isSpace c || c == ':' || c == '#', word "id",
      cat [word "no", opt (lit ".")], word "number"]).chars x = true) :
    db.isDecimal x = false := by
  simp only [chars_oneOf, chars_cat, opt, Regex.chars, List.any_cons, List.any_nil,
    Bool.or_eq_true, Bool.or_false] at h
  have hnot : ∀ {c : Char}, db.isWord c = false → db.isDecimal c = false := by
    intro c hc
    cases hdecimal : db.isDecimal c with
    | false => rfl
    | true => rw [isWord_of_isDecimal hdecimal] at hc; cases hc
  rcases h with ((h | h) | h) | h | (h | h) | h
  · exact hnot (isWord_of_isSpace h)
  · exact hnot (isWord_of_mem (show ([':'].all _) = true by decide) (by simpa using h))
  · exact hnot (isWord_of_mem (show (['#'].all _) = true by decide) (by simpa using h))
  · exact isDecimal_of_letter (letter_of_word (by decide) h)
  · exact isDecimal_of_letter (letter_of_word (by decide) h)
  · exact hnot (isWord_of_mem (show (['.'].all _) = true by decide)
      (by simpa [lit, cat, Regex.chars] using h))
  · exact isDecimal_of_letter (letter_of_word (by decide) h)

theorem refShape_of_matches {p n : Option Char} {w : List Char}
    (h : (businessRef db).Matches p w n) : RefShape db p w n := by
  have hmatch := h
  obtain ⟨e, r, rfl, ⟨rfl, -⟩, kw, r, rfl, hkw, e, r', rfl, ⟨rfl, hedge⟩, conn, r, rfl, hconn,
    ds, e, rfl, hds, rfl, -⟩ := h
  have hkeyword := Regex.chars_of_matches hkw
  have hconnector := Regex.chars_of_matches hconn
  have hdigits := Regex.chars_of_matches hds
  rcases List.eq_nil_or_concat ds with rfl | ⟨ds, d, rfl⟩
  · exact absurd hds (Regex.not_matches_nil rfl _ _)
  cases kw with
  | nil => exact absurd hkw (Regex.not_matches_nil rfl _ _)
  | cons x kw =>
    have hx : letter x = true := keyword_letter (hkeyword x List.mem_cons_self)
    have hd : db.isDecimal d = true := hdigits d (by simp)
    have hw : [] ++ (x :: kw ++ ([] ++ (conn ++ (ds.concat d ++ [])))) =
        x :: (kw ++ (conn ++ ds)) ++ [d] := by simp
    rw [hw] at hmatch ⊢
    constructor
    · constructor
      · have hstart := (Regex.boundary_of_matches hmatch).1
        rw [isWord_of_letter hx] at hstart
        exact Bool.eq_false_iff.mpr hstart
      · have hend := Regex.boundary_of_matches_final rfl hmatch
        rw [isWord_of_isDecimal hd] at hend
        exact Bool.eq_false_iff.mpr hend.symm
    · exact ⟨x, by simp, hx⟩
    · obtain ⟨z, hz⟩ : ∃ z, (conn ++ (ds.concat d ++ [])).head? = some z := by
        cases conn <;> cases ds <;> simp
      have hlast : (x :: kw).getLast? = some ((x :: kw).getLast (by simp)) :=
        List.getLast?_eq_some_getLast (by simp)
      have hletter := keyword_letter (hkeyword _ (List.getLast_mem (l := x :: kw) (by simp)))
      have hword : db.isWord z = false := by
        simp only [hz, hlast, Option.some_or, holdsAt_some, isWord_of_letter hletter] at hedge
        exact Bool.eq_false_iff.mpr hedge.symm
      have hmem : z ∈ conn ++ (ds.concat d ++ []) := List.mem_of_mem_head? hz
      refine ⟨z, ?_, hword⟩
      simp only [List.concat_eq_append, List.append_nil] at hmem ⊢
      simp only [List.mem_cons, List.mem_append] at hmem ⊢
      tauto
    · refine ⟨x :: kw ++ conn, ds.concat d, by simp, by simp, ?_, hdigits⟩
      intro c hc
      rcases List.mem_append.mp hc with hc | hc
      · exact isDecimal_of_letter (keyword_letter (hkeyword c hc))
      · exact connector_isDecimal (hconnector c hc)

end TicketWarden.Guardrails
