/- Module: TicketWarden/Guardrails/Reference
   source: apps/api/src/guardrails/pii.py
   digest: Business references neither overlap nor come in two lengths. -/

import TicketWarden.Guardrails.PiiShape

set_option autoImplicit false
set_option relaxedAutoImplicit false

namespace TicketWarden.Guardrails

open Patterns Python

def keywordStarts : List (List Char) :=
  [['o', 'r'], ['i', 'n'], ['t', 'r'], ['t', 'i'], ['r', 'e'], ['a', 'w']]
def connectorStarts : List (List Char) := [['i', 'd'], ['n', 'o'], ['n', 'u']]

def start (w : List Char) : List Char := (w.map caseFold).take 2

theorem start_append {u v : List Char} (h : 2 ≤ u.length) : start (u ++ v) = start u := by
  rw [start, start, List.map_append, List.take_append_of_le_length (by simpa using h)]

theorem length_of_start {starts : List (List Char)} (hstarts : ∀ s ∈ starts, s.length = 2)
    {w : List Char} (h : start w ∈ starts) : 2 ≤ w.length := by
  have hlen := hstarts _ h
  rw [start, List.length_take, List.length_map] at hlen
  omega

variable {db : Runtime}

variable (db) in
def connector : Regex Char :=
  oneOf [.cls fun c => db.isSpace c || c == ':' || c == '#', word "id",
    cat [word "no", opt (lit ".")], word "number"]

private theorem letter_of_map_eq {s : String} (hs : s.toList.all Char.isLower = true)
    {w : List Char}
    (h : w.map caseFold = s.toList) : ∀ z ∈ w, letter z = true := by
  intro z hz
  have hmem : caseFold z ∈ s.toList := h ▸ List.mem_map_of_mem hz
  exact List.all_eq_true.mp hs _ hmem

private theorem not_letter_of_not_isWord {c : Char} (h : db.isWord c = false) :
    letter c = false := by
  rw [Bool.eq_false_iff]
  intro hletter
  rw [isWord_of_letter hletter] at h
  cases h

private theorem connector_cases {p n : Option Char} {w : List Char}
    (h : (connector db).Matches p w n) :
    (∃ x, w = [x] ∧ letter x = false) ∨
      (start w ∈ connectorStarts ∧ ∀ u z v, w = u ++ z :: v → v ≠ [] → letter z = true) := by
  have hword : ∀ (s : String), s.toList.all Char.isLower = true →
      s.toList.take 2 ∈ connectorStarts → ∀ w : List Char, w.map caseFold = s.toList →
      start w ∈ connectorStarts ∧ ∀ u z v, w = u ++ z :: v → v ≠ [] → letter z = true := by
    intro s hs hstart w hw
    refine ⟨by rwa [start, hw], ?_⟩
    rintro u z v rfl -
    exact letter_of_map_eq hs hw z (by simp)
  rcases h with h | h | h | h
  · left
    obtain ⟨x, rfl, hx⟩ := h
    refine ⟨x, rfl, ?_⟩
    simp only [Bool.or_eq_true, beq_iff_eq] at hx
    rcases hx with (hx | rfl) | rfl
    · exact not_letter_of_not_isWord (isWord_of_isSpace hx)
    · decide
    · decide
  · exact .inr (hword "id" (by decide) (by decide) w (matches_word_iff.mp h))
  · right
    obtain ⟨u, v, rfl, hu, m, -, hm, hv⟩ := h
    have hno := matches_word_iff.mp hu
    have hle : v.length ≤ 1 := by
      have hm1 : m ≤ 1 := by simpa using hm 1 rfl
      match m, hm1 with
      | 0, _ =>
        obtain rfl : v = [] := hv
        exact Nat.zero_le 1
      | 1, _ =>
        obtain ⟨a, b, rfl, ⟨x, rfl, -⟩, rfl⟩ := hv
        exact Nat.le_refl 1
    have hlen : u.length = 2 := by
      rw [← List.length_map (f := caseFold), hno]
      rfl
    refine ⟨?_, ?_⟩
    · rw [start_append (by omega), start, hno]
      decide
    · intro a z b heq hb
      rcases List.append_eq_append_iff.mp heq with ⟨a', rfl, hv'⟩ | ⟨a', rfl, hv'⟩
      · exfalso
        rw [hv', List.length_append, List.length_cons] at hle
        have hpos : 0 < b.length := List.length_pos_iff.mpr hb
        omega
      · cases a' with
        | nil =>
          rw [List.nil_append] at hv'
          rw [← hv', List.length_cons] at hle
          have hpos : 0 < b.length := List.length_pos_iff.mpr hb
          omega
        | cons y a' =>
          obtain ⟨rfl, -⟩ := List.cons.inj hv'
          exact letter_of_map_eq (by decide) hno z (by simp)
  · exact .inr (hword "number" (by decide) (by decide) w (matches_word_iff.mp h))

private theorem connector_start {m : ℕ} {p n : Option Char} {c u v : List Char}
    (h : (connector db).Matches.pow m p c n) (hc : c = u ++ v)
    (hv : ∃ f ∈ v.head?, letter f = true) (hu : ∀ z ∈ u.getLast?, letter z = false) :
    start v ∈ connectorStarts := by
  induction m generalizing p c u with
  | zero =>
    obtain rfl : c = [] := h
    obtain ⟨f, hf, -⟩ := hv
    obtain ⟨-, rfl⟩ := List.append_eq_nil_iff.mp hc.symm
    cases hf
  | succ m ih =>
    obtain ⟨i, c', rfl, hi, hrest⟩ := h
    rcases List.append_eq_append_iff.mp hc with ⟨u', rfl, hc'⟩ | ⟨i', rfl, hv'⟩
    · refine ih hrest hc' ?_
      intro z hz
      exact hu z (by rw [List.getLast?_append, hz]; rfl)
    · cases i' with
      | nil => exact ih hrest (u := []) hv'.symm (by simp)
      | cons f i' =>
        obtain ⟨f', hf', hletter⟩ := hv
        rw [hv'] at hf'
        obtain rfl : f = f' := by simpa using hf'
        rcases connector_cases hi with ⟨x, hx, hnot⟩ | ⟨hstart, hletters⟩
        · cases u with
          | nil =>
            obtain ⟨rfl, -⟩ := List.cons.inj hx
            rw [hletter] at hnot
            cases hnot
          | cons y u => exact absurd (congrArg List.length hx) (by simp)
        · rcases List.eq_nil_or_concat u with rfl | ⟨u, z, rfl⟩
          · have hlen : 2 ≤ (f :: i').length := length_of_start (by decide) hstart
            rw [hv', start_append hlen]
            exact hstart
          · rw [List.concat_eq_append] at hu hletters
            have hz := hletters u z (f :: i') (by simp) (by simp)
            have hnot := hu z (by simp)
            rw [hz] at hnot
            cases hnot

theorem start_of_matches {p n : Option Char} {w : List Char}
    (h : (businessRef db).Matches p w n) : start w ∈ keywordStarts := by
  obtain ⟨e, r, rfl, ⟨rfl, -⟩, kw, r, rfl, hkw, -⟩ := h
  obtain ⟨s, hs, hw⟩ := exists_of_matches_words hkw
  have hstarts : ∀ s ∈ ["order", "invoice", "tracking", "ticket", "reference", "ref", "awb"],
      s.toList.take 2 ∈ keywordStarts ∧ 2 ≤ s.toList.length := by decide
  have hlen : 2 ≤ kw.length := by
    rw [← List.length_map (f := caseFold), hw]
    exact (hstarts s hs).2
  rw [List.nil_append, start_append hlen, start, hw]
  exact (hstarts s hs).1

theorem not_overlap {p n p' n' : Option Char} {u v m b c : List Char}
    (hw : (businessRef db).Matches p (u ++ v) n) (hm : (businessRef db).Matches p' m n')
    (hu : ∃ z ∈ u.getLast?, db.isWord z = false) (hv : v ≠ []) (heq : v ++ b = m ++ c) :
    False := by
  have hmstart := start_of_matches hm
  have hmlen : 2 ≤ m.length := length_of_start (by decide) hmstart
  obtain ⟨f, hf, hletter⟩ := (refShape_of_matches hm).first
  have hvf : v.head? = some f := by
    have hhead := congrArg List.head? heq
    cases v with
    | nil => exact absurd rfl hv
    | cons x v => rw [List.head?_append, List.head?_append, hf] at hhead; simpa using hhead
  obtain ⟨z, hz, hzword⟩ := hu
  obtain ⟨e, r, hsplit, ⟨rfl, -⟩, kw, r, rfl, hkw, e, r', rfl, ⟨rfl, -⟩, conn, r, rfl, hconn, ds,
    e, rfl, hds, rfl, -⟩ := hw
  have hkeyword := Regex.chars_of_matches hkw
  have hdigits := Regex.chars_of_matches hds
  simp only [List.nil_append, List.append_nil] at hsplit
  have hzkw : z ∉ kw := by
    intro hmem
    rw [isWord_of_letter (keyword_letter (hkeyword z hmem))] at hzword
    cases hzword
  have hfds : f ∉ ds := by
    intro hmem
    have hdecimal : db.isDecimal f = true := hdigits f hmem
    rw [isDecimal_of_letter hletter] at hdecimal
    cases hdecimal
  rcases List.append_eq_append_iff.mp hsplit with ⟨k, rfl, -⟩ | ⟨u', rfl, htail⟩
  · exact hzkw (List.mem_append_left k (List.mem_of_mem_getLast? hz))
  · rcases List.append_eq_append_iff.mp htail with ⟨u'', rfl, rfl⟩ | ⟨c₂, rfl, rfl⟩
    · exact hfds (List.mem_append_right u'' (List.mem_of_mem_head? hvf))
    · cases c₂ with
      | nil => exact hfds (List.mem_of_mem_head? hvf)
      | cons x c₂ =>
        obtain ⟨k, -, -, hpow⟩ := hconn
        have hstart : start (x :: c₂) ∈ connectorStarts := by
          refine connector_start hpow rfl ⟨f, by simpa using hvf, hletter⟩ ?_
          intro z' hz'
          have hlast : (kw ++ u').getLast? = some z' := by
            rw [List.getLast?_append, hz']
            rfl
          obtain rfl : z' = z := Option.some.inj (hlast.symm.trans hz)
          exact not_letter_of_not_isWord hzword
        have hclen : 2 ≤ (x :: c₂).length := length_of_start (by decide) hstart
        have hsame : start (x :: c₂) = start m := by
          rw [← start_append (v := ds ++ b) hclen, ← start_append (v := c) hmlen, ← heq,
            List.append_assoc]
        have hdisjoint : ∀ s ∈ keywordStarts, s ∉ connectorStarts := by decide
        exact hdisjoint _ hmstart (hsame ▸ hstart)

private theorem eq_of_digits {u v u' v' b b' : List Char} (heq : u ++ v ++ b = u' ++ v' ++ b')
    (hu : ∀ c ∈ u, db.isDecimal c = false) (hu' : ∀ c ∈ u', db.isDecimal c = false)
    (hv : ∀ c ∈ v, db.isDecimal c = true) (hv' : ∀ c ∈ v', db.isDecimal c = true)
    (hne : v ≠ []) (hne' : v' ≠ []) (hb : holdsAt db.isDecimal b.head? = false)
    (hb' : holdsAt db.isDecimal b'.head? = false) : u ++ v = u' ++ v' := by
  have hrun : ∀ {u v b : List Char}, (∀ c ∈ u, db.isDecimal c = false) →
      (∀ c ∈ v, db.isDecimal c = true) → v ≠ [] → holdsAt db.isDecimal b.head? = false →
      (u ++ v ++ b).takeWhile (fun c => !db.isDecimal c) = u ∧
        ((u ++ v ++ b).dropWhile (fun c => !db.isDecimal c)).takeWhile db.isDecimal = v := by
    intro u v b hu hv hne hb
    have hnot : ∀ c ∈ u, (!db.isDecimal c) = true := fun c hc => by rw [hu c hc]; rfl
    cases v with
    | nil => exact absurd rfl hne
    | cons x v =>
      have hx : db.isDecimal x = true := hv x List.mem_cons_self
      have htail : b.takeWhile db.isDecimal = [] := by
        cases b with
        | nil => rfl
        | cons y b =>
          have hy : db.isDecimal y = false := hb
          rw [List.takeWhile_cons_of_neg (by simp [hy])]
      constructor
      · rw [List.append_assoc, List.takeWhile_append_of_pos hnot, List.cons_append,
          List.takeWhile_cons_of_neg (by simp [hx]), List.append_nil]
      · rw [List.append_assoc, List.dropWhile_append_of_pos hnot, List.cons_append,
          List.dropWhile_cons_of_neg (by simp [hx]), ← List.cons_append,
          List.takeWhile_append_of_pos hv, htail, List.append_nil]
  have hleft := hrun hu hv hne hb
  have hright := hrun hu' hv' hne' hb'
  rw [heq] at hleft
  rw [← hleft.1, ← hleft.2, hright.1, hright.2]

theorem reference_unique {p n p' n' : Option Char} {w m b c : List Char}
    (hw : (businessRef db).Matches p w n) (hm : (businessRef db).Matches p' m n')
    (heq : w ++ b = m ++ c) (hb : holdsAt db.isWord b.head? = false)
    (hc : holdsAt db.isWord c.head? = false) : w = m := by
  obtain ⟨u, v, rfl, hne, hu, hv⟩ := (refShape_of_matches hw).digits
  obtain ⟨u', v', rfl, hne', hu', hv'⟩ := (refShape_of_matches hm).digits
  exact eq_of_digits heq hu hu' hv hv' hne hne' (holdsAt_isDecimal_eq_false hb)
    (holdsAt_isDecimal_eq_false hc)

end TicketWarden.Guardrails
