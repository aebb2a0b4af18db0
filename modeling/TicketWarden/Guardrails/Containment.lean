/- Module: TicketWarden/Guardrails/Containment
   source: apps/api/src/guardrails/pii.py
   digest: Personal data that is left after redaction lies inside business references, unless
   it reached across an end of one or a telephone number was glued to another number. -/

import TicketWarden.Guardrails.Idempotence

set_option autoImplicit false
set_option relaxedAutoImplicit false

namespace TicketWarden.Guardrails

open Patterns Python

variable {db : Runtime}

private theorem spelled_append (ps qs : List Part) :
    spelled (ps ++ qs) = spelled ps ++ spelled qs := by
  induction ps with
  | nil => rfl
  | cons piece ps ih =>
    match piece with
    | .char x => exact congrArg (.char x :: ·) ih
    | .block none w => exact congrArg (.block none w :: ·) ih
    | .block (some index) w =>
      rw [List.cons_append, spelled, spelled, ih, List.append_assoc]

private theorem split_spelled {ps qs rest : List Part} (h : spelled ps = qs ++ rest) :
    (∃ ps₁ ps₂, ps = ps₁ ++ ps₂ ∧ spelled ps₁ = qs ∧ spelled ps₂ = rest) ∨
      ∃ ps₁ index m₁ m₂ ps₂, ps = ps₁ ++ .block (some index) (m₁ ++ m₂) :: ps₂ ∧ m₁ ≠ [] ∧
        m₂ ≠ [] ∧ qs = spelled ps₁ ++ m₁.map .char ∧ rest = m₂.map .char ++ spelled ps₂ := by
  induction ps generalizing qs with
  | nil =>
    obtain ⟨rfl, rfl⟩ := List.append_eq_nil_iff.mp h.symm
    exact .inl ⟨[], [], rfl, rfl, rfl⟩
  | cons piece ps ih =>
    have hnext : ∀ qs', qs = spelled [piece] ++ qs' → spelled ps = qs' ++ rest →
        (∃ ps₁ ps₂, piece :: ps = ps₁ ++ ps₂ ∧ spelled ps₁ = qs ∧ spelled ps₂ = rest) ∨
          ∃ ps₁ index m₁ m₂ ps₂, piece :: ps = ps₁ ++ .block (some index) (m₁ ++ m₂) :: ps₂ ∧
            m₁ ≠ [] ∧ m₂ ≠ [] ∧ qs = spelled ps₁ ++ m₁.map .char ∧
              rest = m₂.map .char ++ spelled ps₂ := by
      rintro qs' rfl htail
      rcases ih htail with ⟨ps₁, ps₂, rfl, rfl, hrest⟩ |
        ⟨ps₁, index, m₁, m₂, ps₂, rfl, hm₁, hm₂, rfl, hrest⟩
      · refine .inl ⟨piece :: ps₁, ps₂, rfl, ?_, hrest⟩
        rw [← spelled_append]
        rfl
      · refine .inr ⟨piece :: ps₁, index, m₁, m₂, ps₂, rfl, hm₁, hm₂, ?_, hrest⟩
        rw [← List.append_assoc, ← spelled_append]
        rfl
    cases qs with
    | nil => exact .inl ⟨[], piece :: ps, rfl, rfl, h⟩
    | cons q qs =>
      rcases piece with x | ⟨_ | index, m⟩
      · obtain ⟨rfl, htail⟩ := List.cons.inj h
        exact hnext qs rfl htail
      · obtain ⟨rfl, htail⟩ := List.cons.inj h
        exact hnext qs rfl htail
      · rw [spelled] at h
        rcases List.append_eq_append_iff.mp h with ⟨qs', hqs, htail⟩ | ⟨ms, hms, hrest⟩
        · refine hnext qs' ?_ htail
          rw [hqs, spelled, spelled, List.append_nil]
        · obtain ⟨m₁, m₂, rfl, hm₁, rfl⟩ := List.map_eq_append_iff.mp hms
          by_cases hm₂ : m₂ = []
          · subst hm₂
            refine .inl ⟨[.block (some index) (m₁ ++ [])], ps, rfl, ?_, hrest.symm⟩
            rw [spelled, spelled, List.append_nil, List.append_nil, hm₁]
          · refine .inr ⟨[], index, m₁, m₂, ps, rfl, ?_, hm₂, hm₁.symm, hrest⟩
            rintro rfl
            cases hm₁

private theorem reach_spelled {ps rest : List Part} {w : List Char}
    (h : spelled ps = w.map .char ++ rest) :
    (∃ rs, ps = w.map .char ++ rs ∧ spelled rs = rest) ∨
      ∃ u v index m rs, ps = u.map .char ++ .block (some index) m :: rs ∧ w = u ++ v ∧ v ≠ [] ∧
        m.map .char ++ spelled rs = v.map .char ++ rest := by
  induction w generalizing ps with
  | nil => exact .inl ⟨ps, rfl, h⟩
  | cons x w ih =>
    match ps with
    | [] => cases h
    | .char y :: ps =>
      obtain ⟨hxy, htail⟩ := List.cons.inj h
      cases hxy
      rcases ih htail with ⟨rs, rfl, hrest⟩ | ⟨u, v, index, m, rs, rfl, rfl, hv, hrest⟩
      · exact .inl ⟨rs, rfl, hrest⟩
      · exact .inr ⟨x :: u, v, index, m, rs, rfl, rfl, hv, hrest⟩
    | .block none m :: ps => exact absurd (List.cons.inj h).1 (by simp)
    | .block (some index) m :: ps =>
      exact .inr ⟨[], x :: w, index, m, ps, rfl, rfl, List.cons_ne_nil x w, h⟩

section

variable (db)

/-- Every reference among the pieces is one in the text. -/
def Anchored (ps : List Part) : Prop :=
  ∀ ps₁ index m ps₂, ps = ps₁ ++ .block (some index) m :: ps₂ →
    (businessRef db).Matches (original ps₁).getLast? m (original ps₂).head?

/-- Before masked data stands no digit, or an e-mail address was masked that the character
before it is no part of. -/
def Parted (ps : List Part) : Prop :=
  ∀ qs z v rs, ps = qs ++ .char z :: .block none v :: rs →
    db.isDecimal z = false ∨ emailLocal z = false ∧ email.Matches none v none

end

theorem Anchored.referenced {ps : List Part} (h : Anchored db ps) : Referenced db ps := by
  intro index m hm
  obtain ⟨ps₁, ps₂, rfl⟩ := List.append_of_mem hm
  exact ⟨_, _, h ps₁ index m ps₂ rfl⟩

private theorem anchored_pieces {c : Cursor Char} {ts : List (Token Char)}
    (h : Scans (businessRef db) c ts) {n : ℕ} {ps₁ ps₂ : List Part} {index : ℕ} {m : List Char}
    (hsplit : pieces n ts = ps₁ ++ .block (some index) m :: ps₂) :
    (businessRef db).Matches ((original ps₁).getLast?.or c.prev) m (original ps₂).head? := by
  induction h generalizing n ps₁ with
  | nil => exact absurd hsplit (by simp [pieces])
  | @char prev x xs ts _ _ ih =>
    cases ps₁ with
    | nil => exact absurd (List.cons.inj hsplit).1 (by simp)
    | cons q ps₁ =>
      obtain ⟨rfl, htail⟩ := List.cons.inj hsplit
      have hm := ih htail
      rwa [original_char, getLast_cons_or]
  | @hit prev v rest ts _ hmatch hscan ih =>
    cases ps₁ with
    | nil =>
      obtain ⟨hblock, rfl⟩ := List.cons.inj hsplit
      cases hblock
      have hm := Regex.matches_of_matchAt (by rfl) hmatch
      rw [original_pieces, hscan.flatMap_text]
      exact hm
    | cons q ps₁ =>
      obtain ⟨rfl, htail⟩ := List.cons.inj hsplit
      have hm := ih htail
      rwa [original_block, List.getLast?_append, Option.or_assoc]

section

variable {j : Category} {S : List (Step (Option ℕ) Char)}

private theorem anchored_targets (h : Anchored db (sources S)) : Anchored db (targets none S) := by
  intro ps₁ index m ps₂ hsplit
  obtain ⟨S₁, S', rfl, rfl, hS'⟩ := List.map_eq_append_iff.mp hsplit
  obtain ⟨s, S₂, rfl, hs, rfl⟩ := List.map_eq_cons_iff.mp hS'
  cases s with
  | hit v => cases hs
  | keep piece =>
    obtain rfl : piece = .block (some index) m := hs
    have hm := h (sources S₁) index m (sources S₂) (by simp [Step.source])
    rwa [← original_targets none S₁, ← original_targets none S₂] at hm

private theorem parted_targets (hS : Substitutes (j.pattern db) face none S)
    (h : Parted db (sources S)) : Parted db (targets none S) := by
  intro qs z v rs hsplit
  obtain ⟨S₁, S', rfl, -, hS'⟩ := List.map_eq_append_iff.mp hsplit
  obtain ⟨s₁, S'', rfl, hs₁, hS''⟩ := List.map_eq_cons_iff.mp hS'
  obtain ⟨s₂, S₂, rfl, hs₂, -⟩ := List.map_eq_cons_iff.mp hS''
  cases s₁ with
  | hit u => cases hs₁
  | keep piece =>
    obtain rfl : piece = .char z := hs₁
    cases s₂ with
    | keep piece =>
      obtain rfl : piece = .block none v := hs₂
      exact h (sources S₁) z v (sources S₂) (by simp [Step.source])
    | hit u =>
      have hdrop := hS.drop
      cases hdrop with
      | char hnone hrest =>
        cases hrest with
        | hit _ hm _ =>
          by_cases hj : j = .email
          · subst hj
            cases hz : emailLocal z with
            | false =>
              obtain rfl : u = v := by simpa [Step.target] using hs₂
              exact .inr ⟨rfl, email_congr hm⟩
            | true =>
              exfalso
              refine hnone (z :: u) (render face (sources S₂)) ?_ (email_cons hz hm)
              simp [Step.source]
          · left
            have hbefore := before_numeric hj hm
            rwa [holdsAt_some] at hbefore

end

private theorem last_face {ps : List Part} (hrefs : Referenced db ps) :
    (render face ps).getLast? = (render final ps).getLast? ∨
      ∃ z, (render final ps).getLast? = some z ∧ db.isDecimal z = true := by
  rcases List.eq_nil_or_concat ps with rfl | ⟨qs, piece, rfl⟩
  · exact .inl rfl
  · rw [List.concat_eq_append] at hrefs ⊢
    match piece with
    | .char x => left; simp
    | .block none v =>
      left
      simp [face, final, List.getLast?_append, mask_getLast]
    | .block (some index) m =>
      right
      obtain ⟨p, n, hm⟩ := hrefs index m (by simp)
      obtain ⟨u, ds, rfl, hne, -, hdigits⟩ := (refShape_of_matches hm).digits
      refine ⟨ds.getLast hne, ?_, hdigits _ (List.getLast_mem hne)⟩
      simp [final, List.getLast?_append, List.getLast?_eq_some_getLast hne]

private theorem head_final {ps : List Part} (hrefs : Referenced db ps) :
    (render final ps).head? = (original ps).head? ∨ ∃ v rs, ps = Piece.block none v :: rs := by
  match ps with
  | [] => exact .inl rfl
  | .char x :: rs => exact .inl rfl
  | .block none v :: rs => exact .inr ⟨v, rs, rfl⟩
  | .block (some index) w :: rs =>
    left
    obtain ⟨p, n, hm⟩ := hrefs index w List.mem_cons_self
    cases w with
    | nil => exact absurd hm (Regex.not_matches_nil rfl _ _)
    | cons x w => rfl

private theorem head_face (ps : List Part) :
    (render face ps).head? = (render final ps).head? ∨
      ∃ index m rs, ps = Piece.block (some index) m :: rs := by
  match ps with
  | [] => exact .inl rfl
  | .char x :: rs => exact .inl rfl
  | .block none v :: rs => exact .inl rfl
  | .block (some index) m :: rs => exact .inr ⟨index, m, rs, rfl⟩

private theorem Free.not_matches_final {k : Category} {ps₁ rs : List Part} {w : List Char}
    (hfree : Free (k.pattern db) (ps₁ ++ w.map .char ++ rs)) (hrefs : Referenced db ps₁) :
    ¬ (k.pattern db).Matches (render final ps₁).getLast? w (render final rs).head? := by
  intro hm
  by_cases hk : k = .email
  · subst hk
    exact hfree ps₁ w rs rfl (email_congr hm)
  rcases last_face hrefs with hlast | ⟨z, hlast, hz⟩
  · rw [← hlast] at hm
    rcases head_face rs with hhead | ⟨index, m, rs, rfl⟩
    · rw [← hhead] at hm
      exact hfree ps₁ w rs rfl hm
    · -- a card number may end with separators that belong to no word
      obtain ⟨u, s, rfl, hs, htrim⟩ := trim_numeric hk hm
      refine hfree ps₁ u (s.map .char ++ .block (some index) m :: rs) (by simp) (htrim _ ?_)
      cases s with
      | nil => exact isWord_nul
      | cons c s => exact isWord_cardSep (hs c List.mem_cons_self)
  · have hbefore := before_numeric hk hm
    rw [hlast, holdsAt_some, hz] at hbefore
    cases hbefore

section

variable (db)

/-- A word of a text lies inside a reference there. -/
def Sheltered (text a w : List Char) : Prop :=
  ∃ a₀ m b₀, text = a₀ ++ m ++ b₀ ∧ (businessRef db).Matches a₀.getLast? m b₀.head? ∧
    a₀.length ≤ a.length ∧ a.length + w.length ≤ a₀.length + m.length

/-- A word of a text has characters of a reference there and others. -/
def Straddles (text a w : List Char) : Prop :=
  ∃ a₀ m b₀, text = a₀ ++ m ++ b₀ ∧ (businessRef db).Matches a₀.getLast? m b₀.head? ∧
    a₀.length < a.length + w.length ∧ a.length < a₀.length + m.length ∧
    ¬ (a₀.length ≤ a.length ∧ a.length + w.length ≤ a₀.length + m.length)

/-- The character after a word, which may be left out when an e-mail address begins there
that the word is no part of. -/
def Sees (w b : List Char) (n : Option Char) : Prop :=
  n = b.head? ∨ n = none ∧ (∃ z ∈ w.getLast?, emailLocal z = false) ∧
    ∃ v c, b = v ++ c ∧ email.Matches none v none

/-- Personal data reaches over an end of a reference. -/
def Straddled (text : List Char) : Prop :=
  ∃ (k : Category) (a w b : List Char) (n : Option Char), text = a ++ w ++ b ∧ Sees w b n ∧
    (k.pattern db).Matches a.getLast? w n ∧ Straddles db text a w

end

private theorem exists_letter_mem {ps rest : List Part} {v m : List Char} {p n : Option Char}
    (hm : (businessRef db).Matches p m n) (hv : v ≠ [])
    (h : m.map .char ++ ps = v.map .char ++ rest) : ∃ x ∈ v, letter x = true := by
  obtain ⟨x, hx, hletter⟩ := (refShape_of_matches hm).first
  cases m with
  | nil => cases hx
  | cons y m =>
    cases v with
    | nil => exact absurd rfl hv
    | cons z v =>
      have hyz := (List.cons.inj h).1
      cases hyz
      obtain rfl : y = x := Option.some.inj hx
      exact ⟨y, List.mem_cons_self, hletter⟩

section

variable {ps₁ ps₂ : List Part} {index : ℕ} {m : List Char}

private theorem Anchored.matches_final (h : Anchored db (ps₁ ++ .block (some index) m :: ps₂))
    (hedged : Edged db none (ps₁ ++ .block (some index) m :: ps₂)) :
    (businessRef db).Matches (render final ps₁).getLast? m (render final ps₂).head? := by
  have hm := h ps₁ index m ps₂ rfl
  have hedge := (refShape_of_matches hm).edge
  obtain ⟨hprev, hnext, -⟩ := hedged.drop
  rw [Option.or_none] at hprev
  apply hm.congr
  · exact businessRef_alike (hedge.1.trans hprev.symm)
  · exact businessRef_alike (hedge.2.trans hnext.symm)

private theorem Anchored.sheltered {a w : List Char}
    (h : Anchored db (ps₁ ++ .block (some index) m :: ps₂))
    (hedged : Edged db none (ps₁ ++ .block (some index) m :: ps₂))
    (ha : (render final ps₁).length ≤ a.length)
    (hw : a.length + w.length ≤ (render final ps₁).length + m.length) :
    Sheltered db (render final (ps₁ ++ .block (some index) m :: ps₂)) a w :=
  ⟨render final ps₁, m, render final ps₂, by simp [final], h.matches_final hedged, ha, hw⟩

end

section

variable {k : Category} {ps₁ ps₂ rs : List Part} {index : ℕ} {w : List Char}

private theorem not_straddling {m₁ m₂ v b : List Char}
    (hanchored : Anchored db (ps₁ ++ .block (some index) (m₁ ++ m₂) :: ps₂))
    (hunstraddled : ¬ Straddled db (original (ps₁ ++ .block (some index) (m₁ ++ m₂) :: ps₂)))
    (hm₁ : m₁ ≠ []) (hm₂ : m₂ ≠ []) (hv : v ≠ []) (htext : original ps₂ = v ++ b)
    {n : Option Char} (hsees : Sees (m₂ ++ v) b n) :
    ¬ (k.pattern db).Matches (original ps₁ ++ m₁).getLast? (m₂ ++ v) n := by
  intro hn
  refine hunstraddled ⟨k, original ps₁ ++ m₁, _, b, n, ?_, hsees, hn,
    original ps₁, m₁ ++ m₂, original ps₂, ?_, hanchored ps₁ index _ ps₂ rfl, ?_⟩
  · simp [htext]
  · simp
  · have hpos₁ : 0 < m₁.length := List.length_pos_iff.mpr hm₁
    have hpos₂ : 0 < m₂.length := List.length_pos_iff.mpr hm₂
    have hpos : 0 < v.length := List.length_pos_iff.mpr hv
    simp only [List.length_append]
    exact ⟨by omega, by omega, by omega⟩

/-- Data that starts inside a reference does not go on after it. -/
private theorem not_past_reference {m₁ m₂ r : List Char} {z : Char}
    (hanchored : Anchored db (ps₁ ++ .block (some index) (m₁ ++ m₂) :: ps₂))
    (hparted : Parted db (ps₁ ++ .block (some index) (m₁ ++ m₂) :: ps₂))
    (hunstraddled : ¬ Straddled db (original (ps₁ ++ .block (some index) (m₁ ++ m₂) :: ps₂)))
    (hm₁ : m₁ ≠ []) (hm₂ : m₂ ≠ []) (hspelled : spelled ps₂ = (r ++ [z]).map .char ++ rs) :
    ¬ (k.pattern db).Matches (original ps₁ ++ m₁).getLast? (m₂ ++ (r ++ [z]))
      (render final rs).head? := by
  intro hm
  have htext : original ps₂ = (r ++ [z]) ++ original rs := by
    rw [← original_spelled, hspelled, original_append, original_map_char]
  have hstraddled : ∀ n, Sees (m₂ ++ (r ++ [z])) (original rs) n →
      ¬ (k.pattern db).Matches (original ps₁ ++ m₁).getLast? (m₂ ++ (r ++ [z])) n :=
    fun n => not_straddling hanchored hunstraddled hm₁ hm₂ (by simp) htext
  by_cases hk : k = .email
  · subst hk
    exact hstraddled _ (.inl rfl) (email_congr hm)
  have hrefs : Referenced db ps₂ := hanchored.referenced.right.tail
  rcases reach_spelled hspelled with ⟨rs', rfl, rfl⟩ | ⟨u, v, i, m, rs', rfl, hr, hv, hreach⟩
  · rw [render_spelled] at hm
    rw [original_spelled] at hstraddled
    rcases head_final hrefs.right with hhead | ⟨v, qs, rfl⟩
    · rw [hhead] at hm
      exact hstraddled _ (.inl rfl) hm
    · have hopen : (render final (Piece.block none v :: qs)).head? = some '[' := rfl
      rw [hopen, ← List.append_assoc] at hm
      have hdecimal : db.isDecimal z = true := isDecimal_of_end hk hm isWord_open
      have hafter := hparted (ps₁ ++ .block (some index) (m₁ ++ m₂) :: r.map .char) z v qs
        (by simp)
      rcases hafter with hz | ⟨hz, hemail⟩
      · rw [hz] at hdecimal
        cases hdecimal
      · refine hstraddled none (.inr ⟨rfl, ⟨z, by simp, hz⟩, v, original qs, rfl, hemail⟩) ?_
        rw [← List.append_assoc]
        exact hm.congr (Regex.alike_refl _ _) (k.alike_outside isWord_open rfl)
  · obtain ⟨p, n, href⟩ := hrefs i m (by simp)
    obtain ⟨x, hx, hletter⟩ := exists_letter_mem href hv hreach
    refine letter_not_mem hk hm hletter ?_
    rw [hr]
    simp [hx]

private theorem sheltered_of_inside {m₁ m₂ : List Char}
    (hanchored : Anchored db (ps₁ ++ .block (some index) (m₁ ++ m₂) :: ps₂))
    (hparted : Parted db (ps₁ ++ .block (some index) (m₁ ++ m₂) :: ps₂))
    (hedged : Edged db none (ps₁ ++ .block (some index) (m₁ ++ m₂) :: ps₂))
    (hunstraddled : ¬ Straddled db (original (ps₁ ++ .block (some index) (m₁ ++ m₂) :: ps₂)))
    (hm₁ : m₁ ≠ []) (hm₂ : m₂ ≠ []) (hrest : w.map .char ++ rs = m₂.map .char ++ spelled ps₂)
    (hm : (k.pattern db).Matches (render final ps₁ ++ m₁).getLast? w (render final rs).head?) :
    Sheltered db (render final (ps₁ ++ .block (some index) (m₁ ++ m₂) :: ps₂))
      (render final ps₁ ++ m₁) w := by
  by_cases hlen : w.length ≤ m₂.length
  · refine hanchored.sheltered hedged ?_ ?_
    · simp
    · simp only [List.length_append]
      omega
  exfalso
  rcases List.append_eq_append_iff.mp hrest with ⟨as, has, -⟩ | ⟨bs, hbs, hspelled⟩
  · have hle := congrArg List.length has
    simp only [List.length_append, List.length_map] at hle
    omega
  obtain ⟨m₂', r, rfl, hsame, rfl⟩ := List.map_eq_append_iff.mp hbs
  obtain rfl : m₂' = m₂ := List.map_injective_iff.mpr (fun _ _ h => Piece.char.inj h) hsame
  rcases List.eq_nil_or_concat r with rfl | ⟨r, z, rfl⟩
  · simp at hlen
  rw [List.concat_eq_append] at hspelled hm
  have hlast : (render final ps₁ ++ m₁).getLast? = (original ps₁ ++ m₁).getLast? := by
    simp [List.getLast?_append, List.getLast?_eq_some_getLast hm₁]
  rw [hlast] at hm
  exact not_past_reference hanchored hparted hunstraddled hm₁ hm₂ hspelled hm

private theorem sheltered_of_reaching {u v m : List Char}
    (hanchored : Anchored db (ps₁ ++ (u.map .char ++ .block (some index) m :: ps₂)))
    (hedged : Edged db none (ps₁ ++ (u.map .char ++ .block (some index) m :: ps₂)))
    (hunstraddled : ¬ Straddled db
      (original (ps₁ ++ (u.map .char ++ .block (some index) m :: ps₂))))
    (hv : v ≠ []) (hreach : m.map .char ++ spelled ps₂ = v.map .char ++ rs)
    {p n : Option Char} (hm : (k.pattern db).Matches p (u ++ v) n) :
    Sheltered db (render final (ps₁ ++ (u.map .char ++ .block (some index) m :: ps₂)))
      (render final ps₁) (u ++ v) := by
  rw [← List.append_assoc] at hanchored hedged hunstraddled ⊢
  have href := hanchored _ index m ps₂ rfl
  by_cases hk : k = .email
  · subst hk
    by_cases hinside : u = [] ∧ v.length ≤ m.length
    · obtain ⟨rfl, hlen⟩ := hinside
      refine hanchored.sheltered hedged ?_ ?_
      · simp
      · simpa using hlen
    · exfalso
      have htext : m ++ original ps₂ = v ++ original rs := by
        have horiginal := congrArg original hreach
        rwa [original_append, original_append, original_map_char, original_map_char,
          original_spelled] at horiginal
      have hpos : 0 < v.length := List.length_pos_iff.mpr hv
      obtain ⟨x, hx, -⟩ := (refShape_of_matches href).first
      have hmpos : 0 < m.length :=
        List.length_pos_iff.mpr (List.ne_nil_of_mem (List.mem_of_mem_head? hx))
      refine hunstraddled ⟨.email, original ps₁, u ++ v, original rs, (original rs).head?, ?_,
        .inl rfl, email_congr hm, _, m, original ps₂, ?_, href, ?_⟩
      · simp [htext]
      · simp
      · simp only [original_append, original_map_char, List.length_append]
        refine ⟨by omega, by omega, ?_⟩
        rintro ⟨hu, hle⟩
        refine hinside ⟨List.length_eq_zero_iff.mp (by omega), by omega⟩
  · exfalso
    obtain ⟨x, hx, hletter⟩ := exists_letter_mem href hv hreach
    exact letter_not_mem hk hm hletter (List.mem_append_right u hx)

end

private theorem sheltered_of_matches {ps : List Part}
    (hfree : ∀ k : Category, Free (k.pattern db) ps)
    (hanchored : Anchored db ps) (hparted : Parted db ps) (hedged : Edged db none ps)
    (hunstraddled : ¬ Straddled db (original ps)) {k : Category} {a w b : List Char}
    (heq : render final ps = a ++ (w ++ b)) (hm : (k.pattern db).Matches a.getLast? w b.head?) :
    Sheltered db (render final ps) a w := by
  have hne : w ≠ [] := by
    rintro rfl
    exact Regex.not_matches_nil (k.consumes db) _ _ hm
  have hblocks : ∀ kind v, Piece.block kind v ∈ spelled ps → Avoids w (final kind v) := by
    intro kind v hmem
    rw [eq_none_of_mem_spelled hmem]
    exact (inert_mask k).avoids hm
  have hspelled : render final (spelled ps) = a ++ (w ++ b) := (render_spelled ps).trans heq
  obtain ⟨qs, rs, hsplit, rfl, rfl⟩ := exists_run hne hblocks hspelled
  rw [List.append_assoc] at hsplit
  rcases split_spelled hsplit with
    ⟨ps₁, ps₂, rfl, rfl, hrest⟩ | ⟨ps₁, index, m₁, m₂, ps₂, rfl, hm₁, hm₂, rfl, hrest⟩
  · rw [render_spelled] at hm ⊢
    rcases reach_spelled hrest with ⟨rs', rfl, rfl⟩ | ⟨u, v, index, m, ps₂, rfl, rfl, hv, hreach⟩
    · exfalso
      rw [render_spelled] at hm
      rw [← List.append_assoc] at hfree
      exact (hfree k).not_matches_final hanchored.referenced.left hm
    · exact sheltered_of_reaching hanchored hedged hunstraddled hv hreach hm
  · have hleft : render final (spelled ps₁ ++ m₁.map .char) = render final ps₁ ++ m₁ := by
      rw [render_append, render_spelled, render_map_char]
    rw [hleft] at hm ⊢
    exact sheltered_of_inside hanchored hparted hedged hunstraddled hm₁ hm₂ hrest hm

variable (db)

/-- Redaction sets every reference aside and puts it back, leaves no telephone number behind a
mask, and no personal data of the text reaches over an end of a reference. -/
structure Contained (text : List Char) : Prop where
  few : (references db text).length ≤ 10 ^ 9
  unforged : ¬ Forged db text
  unglued : ¬ Glued db text
  unstraddled : ¬ Straddled db text

variable {db}

theorem Contained.exists_pieces {text : List Char} (h : Contained db text) :
    ∃ ps, redactChars db text = render final ps ∧ original ps = text ∧ Edged db none ps ∧
      (∀ k : Category, Free (k.pattern db) ps) ∧ Anchored db ps ∧ Parted db ps := by
  have hanchored : Anchored db (pieces 0 ((businessRef db).scan text)) := by
    intro ps₁ index m ps₂ hsplit
    have hm := anchored_pieces (scans_references db text) hsplit
    rwa [Option.or_none] at hm
  have hparted : Parted db (pieces 0 ((businessRef db).scan text)) := by
    intro qs z v rs hsplit
    refine absurd ?_ (none_not_mem_pieces 0 ((businessRef db).scan text) v)
    rw [hsplit]
    simp
  obtain ⟨ps, hmasked, horiginal, hrefs, hedged, hfree, hanchored, hparted⟩ :=
    @Guardrails.exists_pieces db (fun done ps =>
      (∀ k ∈ done, Free (k.pattern db) ps) ∧ Anchored db ps ∧ Parted db ps) text h.few
      ⟨fun k hk => absurd hk List.not_mem_nil, hanchored, hparted⟩
      fun done j rest S hdone hS htokens hinv =>
        ⟨free_step h.unglued hdone hS htokens hinv.1, anchored_targets hinv.2.1,
          parted_targets hS hinv.2.2⟩
  refine ⟨ps, ?_, horiginal, hedged, ?_, hanchored, hparted⟩
  · rw [redactChars_eq_restored hmasked hrefs hedged, restored_eq_render]
    intro index hindex hinner
    rw [horiginal] at hinner
    exact h.unforged ⟨index, hindex, hinner⟩
  · exact fun k => hfree k (by cases k <;> decide)

variable (db)

/-- Personal data that is left lies inside a business reference. -/
theorem sheltered_redactPii (text : String) (h : Contained db text.toList)
    {entry : String × Regex Char} (hentry : entry ∈ piiPatterns db) {a w b : List Char}
    (heq : (redactPii db text).toList = a ++ w ++ b)
    (hm : entry.2.Matches a.getLast? w b.head?) :
    Sheltered db (redactPii db text).toList a w := by
  obtain ⟨ps, hredact, horiginal, hedged, hfree, hanchored, hparted⟩ := h.exists_pieces
  obtain ⟨k, hk⟩ := exists_category db hentry
  rw [hk] at hm
  rw [toList_redactPii, hredact] at heq ⊢
  rw [List.append_assoc] at heq
  refine sheltered_of_matches hfree hanchored hparted hedged ?_ heq hm
  rw [horiginal]
  exact h.unstraddled

private theorem Follows.hits_ne_nil {k : Category} {P : List Char → Option Char → Prop}
    {text : List Char} (h : Follows db k P text) :
    hits ((k.pattern db).scan (stage db k text)) ≠ [] := by
  obtain ⟨ts₁, v, w, ts₂, hscan, -⟩ := h
  rw [hscan, hits_append, hits]
  exact List.append_ne_nil_of_right_ne_nil _ (List.cons_ne_nil _ _)

def phoneOrder : String := "Order 5551234567"

private theorem not_straddled_phoneOrder : ¬ Straddled asciiData phoneOrder.toList := by
  rintro ⟨k, a, w, b, n, hsplit, -, -, a₀, m, b₀, hplace, hm, -, -, hnot⟩
  have hlen := congrArg List.length hsplit
  have hlen₀ := congrArg List.length hplace
  rw [List.length_append, List.length_append] at hlen hlen₀
  have hstarts : ∀ i ≤ phoneOrder.toList.length,
      start (phoneOrder.toList.drop i) ∈ keywordStarts → i = 0 := by decide +kernel
  have hends : ∀ i ≤ phoneOrder.toList.length,
      holdsAt asciiData.isWord (phoneOrder.toList.drop i).head? = false →
      5 < i → i = phoneOrder.toList.length := by decide +kernel
  have hdigits : ∀ i ≤ 5, (phoneOrder.toList.take i).countP asciiData.isDecimal = 0 := by
    decide +kernel
  have hmstart := start_of_matches hm
  have hmlen : 2 ≤ m.length := length_of_start (by decide) hmstart
  have hfirst : a₀.length = 0 := by
    refine hstarts _ (by omega) ?_
    rw [hplace, List.append_assoc, List.drop_left, start_append hmlen]
    exact hmstart
  obtain rfl := List.length_eq_zero_iff.mp hfirst
  rw [List.nil_append] at hplace
  have hlast : m.length = phoneOrder.toList.length := by
    refine hends _ (by omega) ?_ ?_
    · rw [hplace, List.drop_left]
      exact (refShape_of_matches hm).edge.2
    · by_contra hle
      have hzero := hdigits m.length (by omega)
      rw [hplace, List.take_left] at hzero
      have hneeds := businessRef_needs asciiData hm
      omega
  refine hnot ⟨Nat.zero_le _, ?_⟩
  rw [hfirst, hlast]
  omega

theorem sheltered_phoneOrder :
    Sheltered asciiData (redactPii asciiData phoneOrder).toList "Order ".toList
      "5551234567".toList := by
  have hcontained : Contained asciiData phoneOrder.toList := by
    refine ⟨by decide +kernel, ?_, ?_, not_straddled_phoneOrder⟩
    · rintro ⟨index, -, hinner⟩
      have hmem : nul ∈ phoneOrder.toList := hinner.subset (by simp [placeholder_eq])
      exact absurd hmem (by decide +kernel)
    · rintro (h | h)
      · exact h.hits_ne_nil asciiData (by decide +kernel)
      · exact h.hits_ne_nil asciiData (by decide +kernel)
  have hmatch : (phone asciiData).matchAt ⟨some ' ', "5551234567".toList⟩ =
      some ⟨some '7', []⟩ := by decide +kernel
  obtain ⟨w, hw, -, hm⟩ := Regex.matchAt_reaches (by rfl) hmatch
  rw [List.append_nil] at hw
  rw [← hw] at hm
  have hentry : ("phone", phone asciiData) ∈ piiPatterns asciiData := by simp [piiPatterns]
  exact sheltered_redactPii asciiData phoneOrder hcontained hentry (b := []) (by decide +kernel) hm

def ssnOrder : String := "order 123-45-6789"

theorem not_sheltered_ssnOrder : ¬ ∀ text : String, ∀ entry ∈ piiPatterns asciiData,
    ∀ a w b : List Char, (redactPii asciiData text).toList = a ++ w ++ b →
      entry.2.Matches a.getLast? w b.head? →
      Sheltered asciiData (redactPii asciiData text).toList a w := by
  intro hclaim
  have hredact : redactPii asciiData ssnOrder = ssnOrder := by decide +kernel
  have hmatch : (ssn asciiData).matchAt ⟨some ' ', "123-45-6789".toList⟩ =
      some ⟨some '9', []⟩ := by decide +kernel
  obtain ⟨w, hw, -, hm⟩ := Regex.matchAt_reaches (by rfl) hmatch
  rw [List.append_nil] at hw
  rw [← hw] at hm
  have hsheltered := hclaim ssnOrder ("ssn", ssn asciiData) (by simp [piiPatterns])
    "order ".toList "123-45-6789".toList [] (by rw [hredact]; decide +kernel) hm
  obtain ⟨a₀, m, b₀, hplace, href, ha, hw⟩ := hredact ▸ hsheltered
  have hdash : ∀ i ≤ 6, '-' ∈ (ssnOrder.toList.drop i).take (17 - i) := by decide +kernel
  have hlen := congrArg List.length hplace
  rw [List.length_append, List.length_append] at hlen
  have hlength : ssnOrder.toList.length = 17 := by decide +kernel
  have hfirst : "order ".toList.length = 6 := by decide
  have hsecond : "123-45-6789".toList.length = 11 := by decide
  have hmem := hdash a₀.length (by omega)
  rw [hplace, List.append_assoc, List.drop_left, List.take_append_of_le_length (by omega),
    List.take_of_length_le (by omega)] at hmem
  exact not_mem_of_businessRef href (by decide) (by decide) hmem

end TicketWarden.Guardrails
