/- Module: TicketWarden/Guardrails/Residue
   source: apps/api/src/guardrails/pii.py
   digest: What the substitutions of redaction leave: only a telephone number in brackets
   that stood directly after a number replaced with it or after it. -/

import TicketWarden.Guardrails.Redaction

set_option autoImplicit false
set_option relaxedAutoImplicit false

namespace TicketWarden.Guardrails

open Patterns Python

variable {db : Runtime}

/-- The expression matches no run of characters among the pieces. -/
def Free (r : Regex Char) (ps : List Part) : Prop :=
  ∀ qs w rs, ps = qs ++ w.map .char ++ rs →
    ¬ r.Matches (render face qs).getLast? w (render face rs).head?

private theorem mask_ne_nil : mask ≠ [] := by decide

private theorem face_ne_nil (k : Option ℕ) (w : List Char) : face k w ≠ [] := by
  cases k with
  | none => exact mask_ne_nil
  | some index => exact placeholder_ne_nil index

/-- A telephone number that starts with its area code in brackets. -/
def Bracketed (db : Runtime) (w : List Char) (n : Option Char) : Prop :=
  w.head? = some '(' ∧ (phone db).Matches none w n

theorem Bracketed.matches {w : List Char} {p n n' : Option Char} (h : Bracketed db w n)
    (hp : holdsAt db.isWord p = false) (hn : n' = n ∨ holdsAt db.isWord n' = false) :
    (phone db).Matches p w n' := by
  have hm : (phone db).Matches p w n :=
    h.2.congr (Category.alike_outside .phone rfl hp) (Regex.alike_refl _ _)
  rcases hn with rfl | hn
  · exact hm
  · have hphone : Category.phone ≠ .email := by decide
    rcases List.eq_nil_or_concat w with rfl | ⟨w, z, rfl⟩
    · exact absurd hm (Regex.not_matches_nil rfl _ _)
    · rw [List.concat_eq_append] at hm ⊢
      have hz := (last_numeric (k := .phone) hphone hm).resolve_right (by simp)
      exact (none_after_numeric (k := .phone) hphone hm hz).congr (Regex.alike_refl _ _)
        (Category.alike_outside .phone rfl hn)

section

variable {k j : Category} {S S₁ S₂ : List (Step (Option ℕ) Char)} {w : List Char}

private theorem matches_head_sources (hk : k ≠ .email) (hj : j ≠ .email) {p q : Option Char}
    (hS : Substitutes (j.pattern db) face q S₂) (hq : q = w.getLast?.or p)
    (h : (k.pattern db).Matches p w (render face (targets none S₂)).head?) :
    (k.pattern db).Matches p w (render face (sources S₂)).head? := by
  have hhead : (render face (targets none S₂)).head? = (render face (sources S₂)).head? ∨
      ∃ v T, S₂ = .hit v :: T := head_targets face_ne_nil S₂
  rcases hhead with heq | ⟨v, T, rfl⟩
  · rwa [heq] at h
  · exfalso
    have hopen : (render face (targets none (Step.hit v :: T))).head? = some '[' := rfl
    rw [hopen] at h
    rcases List.eq_nil_or_concat w with rfl | ⟨w, z, rfl⟩
    · exact Regex.not_matches_nil (k.consumes db) _ _ h
    · rw [List.concat_eq_append] at h hq
      have hz : db.isDecimal z = true := isDecimal_of_end hk h isWord_open
      rw [List.getLast?_concat, Option.some_or] at hq
      subst hq
      cases hS with
      | hit _ hm _ =>
        have hnot := before_numeric hj hm
        rw [holdsAt_some, hz] at hnot
        cases hnot

theorem matches_outside (hk : k ≠ .email) {p n : Option Char} {x : Char}
    (hp : holdsAt db.isWord p = false) (hm : (k.pattern db).Matches p (x :: w) n) :
    db.isDecimal x = true ∨ (x = '+' ∧ (k.pattern db).Matches (some '+') w n) ∨
      k = .phone ∧ Bracketed db (x :: w) n := by
  rcases first_numeric hk hm with hx | ⟨rfl, rfl | rfl⟩
  · exact .inl hx
  · exact .inr (.inl ⟨rfl, phone_of_plus hm⟩)
  · exact .inr (.inr ⟨rfl, rfl, hm.congr (Category.alike_outside .phone hp rfl)
      (Regex.alike_refl _ _)⟩)

private theorem matches_before_mask (hk : k ≠ .email) (hj : j ≠ .email) {p n : Option Char}
    {x y : Char}
    {v : List Char} (hhit : (j.pattern db).Matches p (v ++ [y]) (some x))
    (hm : (k.pattern db).Matches (some ']') (x :: w) n) :
    (k.pattern db).Matches (some y) (x :: w) n ∨
      (x = '+' ∧ (k.pattern db).Matches (some '+') w n) ∨ k = .phone ∧ Bracketed db (x :: w) n := by
  rcases matches_outside (p := some ']') hk isWord_close hm with hx | hrest
  · rcases last_numeric hj hhit with hy | ⟨-, hy⟩
    · have hnot := after_numeric hj hhit hy
      rw [holdsAt_some, hx] at hnot
      cases hnot
    · exact .inl (hm.congr (k.alike_outside isWord_close (isWord_cardSep hy))
        (Regex.alike_refl _ _))
  · exact .inr hrest

private theorem matches_next (hk : k ≠ .email) (hj : j ≠ .email) {p q : Option Char}
    {u v : List Char}
    (hS : Substitutes (j.pattern db) face q (S₁ ++ kept (u ++ v) ++ S₂)) (hv : v ≠ [])
    (h : (k.pattern db).Matches p v (render face (targets none S₂)).head?) :
    (k.pattern db).Matches p v (render face (sources S₂)).head? := by
  refine matches_head_sources (p := p) hk hj hS.drop ?_ h
  have hlast : v.getLast? = some (v.getLast hv) := List.getLast?_eq_some_getLast hv
  simp [List.getLast?_append, hlast]

private theorem match_after_hit (hk : k ≠ .email) (hj : j ≠ .email)
    {T : List (Step (Option ℕ) Char)}
    {v : List Char}
    (hS : Substitutes (j.pattern db) face none (T ++ [.hit v] ++ kept w ++ S₂))
    (hm : (k.pattern db).Matches (some ']') w (render face (targets none S₂)).head?) :
    (∃ u u', w = u ++ u' ∧ (k.pattern db).Matches
      (render face (sources (T ++ [.hit v] ++ kept u))).getLast? u'
        (render face (sources S₂)).head?) ∨
      k = .phone ∧ Bracketed db w (render face (targets none S₂)).head? := by
  cases w with
  | nil => exact absurd hm (Regex.not_matches_nil (k.consumes db) _ _)
  | cons x w =>
    have hreplaced : v ≠ [] ∧ (j.pattern db).Matches (render face (sources T)).getLast? v
        (some x) := by
      have hdrop := hS
      rw [List.append_assoc, List.append_assoc] at hdrop
      have hrest := hdrop.drop
      rw [Option.or_none] at hrest
      cases hrest with
      | hit hv hmatch _ => exact ⟨hv, hmatch⟩
    obtain ⟨hv, hhit⟩ := hreplaced
    rcases List.eq_nil_or_concat v with rfl | ⟨v, y, rfl⟩
    · exact absurd rfl hv
    rw [List.concat_eq_append] at hhit hS ⊢
    rcases matches_before_mask hk hj hhit hm with hbefore | ⟨rfl, hrest⟩ | hopen
    · left
      refine ⟨[], x :: w, rfl, ?_⟩
      have hlast : (render face (sources (T ++ [Step.hit (v ++ [y])] ++ kept []))).getLast? =
          some y := by simp [kept, Step.source]
      rw [hlast]
      exact matches_next (u := []) hk hj hS (List.cons_ne_nil x w) hbefore
    · left
      refine ⟨['+'], w, rfl, ?_⟩
      have hne : w ≠ [] := by
        rintro rfl
        exact Regex.not_matches_nil (k.consumes db) _ _ hrest
      have hlast : (render face (sources (T ++ [Step.hit (v ++ [y])] ++ kept ['+']))).getLast? =
          some '+' := by simp
      rw [hlast]
      exact matches_next (u := ['+']) hk hj hS hne hrest
    · exact .inr hopen

/-- What is matched after a substitution was matched before it, or is a telephone number in
brackets directly after a word that was replaced. -/
private theorem match_targets (horder : k ≠ .email → j ≠ .email)
    (hS : Substitutes (j.pattern db) face none (S₁ ++ kept w ++ S₂))
    (hm : (k.pattern db).Matches (render face (targets none S₁)).getLast? w
      (render face (targets none S₂)).head?) :
    (∃ u v, w = u ++ v ∧ (k.pattern db).Matches (render face (sources (S₁ ++ kept u))).getLast? v
      (render face (sources S₂)).head?) ∨
      k = .phone ∧ Bracketed db w (render face (targets none S₂)).head? ∧
        ∃ T v, S₁ = T ++ [.hit v] := by
  have hnone : S₁ ++ kept [] = S₁ := List.append_nil S₁
  by_cases hemail : k = .email
  · subst hemail
    exact .inl ⟨[], w, rfl, email_congr hm⟩
  · have hj := horder hemail
    have hlast : (render face (targets none S₁)).getLast? = (render face (sources S₁)).getLast? ∨
        ∃ T v, S₁ = T ++ [.hit v] := last_targets face_ne_nil S₁
    rcases hlast with heq | ⟨T, v, rfl⟩
    · have hne : w ≠ [] := by
        rintro rfl
        exact Regex.not_matches_nil (k.consumes db) _ _ hm
      rw [heq] at hm
      exact .inl ⟨[], w, rfl, hnone.symm ▸ matches_next (u := []) hemail hj hS hne hm⟩
    · have hmask : (render face (targets none (T ++ [Step.hit v]))).getLast? = some ']' := by
        simp [targets, Step.target, face, List.getLast?_append, mask_getLast]
      rw [hmask] at hm
      exact (match_after_hit hemail hj hS hm).imp id fun h => ⟨h.1, h.2, T, v, rfl⟩

private theorem not_matches_sources (hS : Substitutes (j.pattern db) face none (S₁ ++ kept w ++ S₂))
    (hk : k = j ∨ Free (k.pattern db) (sources (S₁ ++ kept w ++ S₂))) {u v : List Char}
    (hw : w = u ++ v) :
    ¬ (k.pattern db).Matches (render face (sources (S₁ ++ kept u))).getLast? v
      (render face (sources S₂)).head? := by
  subst hw
  rw [kept_append, ← List.append_assoc S₁] at hS hk
  rcases hk with rfl | hfree
  · have hnone := hS.not_matches (k.consumes db)
    rwa [Option.or_none] at hnone
  · exact hfree _ v _ (by simp)

private theorem free_targets (hS : Substitutes (j.pattern db) face none S)
    (hk : k = j ∨ Free (k.pattern db) (sources S)) (horder : k ≠ .email → j ≠ .email)
    (hbracketed : k = .phone → ∀ S₁ v w S₂, S = S₁ ++ .hit v :: (kept w ++ S₂) →
      ¬ Bracketed db w (render face (targets none S₂)).head?) :
    Free (k.pattern db) (targets none S) := by
  intro qs w rs hsplit hm
  obtain ⟨S₁, S₂, rfl, rfl, rfl⟩ := exists_kept hsplit
  rcases match_targets horder hS hm with ⟨u, v, hw, hsource⟩ | ⟨rfl, hopen, T, v, rfl⟩
  · exact not_matches_sources hS hk hw hsource
  · exact hbracketed rfl T v w S₂ (by simp) hopen

variable (db) in
/-- What is still matched among the pieces is a telephone number in brackets directly behind a
masked word. -/
def NearlyFree (k : Category) (ps : List Part) : Prop :=
  ∀ qs w rs, ps = qs ++ w.map .char ++ rs →
    (k.pattern db).Matches (render face qs).getLast? w (render face rs).head? →
    k = .phone ∧ Bracketed db w (render face rs).head? ∧ ∃ qs' v, qs = qs' ++ [.block none v]

private theorem sources_concat_block {kind : Option ℕ} {v : List Char} {qs : List Part}
    (hS : Substitutes (j.pattern db) face none (S₁ ++ S₂))
    (h : sources S₁ = qs ++ [.block kind v]) : ∃ T, S₁ = T ++ [.keep (.block kind v)] := by
  rcases List.eq_nil_or_concat S₁ with rfl | ⟨T, s, rfl⟩
  · exact absurd h (by simp)
  · rw [List.concat_eq_append] at h hS ⊢
    rw [sources_append] at h
    cases s with
    | keep piece =>
      obtain ⟨-, hpiece⟩ := List.append_inj' h rfl
      obtain rfl : piece = .block kind v := List.singleton_inj.mp hpiece
      exact ⟨T, rfl⟩
    | hit w =>
      exfalso
      have hne : w ≠ [] := by
        rw [List.append_assoc] at hS
        cases hS.drop with
        | hit hne _ _ => exact hne
      obtain ⟨w, x, rfl⟩ := (List.eq_nil_or_concat w).resolve_left hne
      have hlast := congrArg List.getLast? h
      simp [Step.source] at hlast

private theorem nearlyFree_targets (hS : Substitutes (j.pattern db) face none S)
    (hk : k = j ∨ NearlyFree db k (sources S)) (horder : k ≠ .email → j ≠ .email) :
    NearlyFree db k (targets none S) := by
  intro qs w rs hsplit hm
  obtain ⟨S₁, S₂, rfl, rfl, rfl⟩ := exists_kept hsplit
  rcases match_targets horder hS hm with ⟨u, v, rfl, hsource⟩ | ⟨rfl, hopen, T, v, rfl⟩
  · rcases hk with rfl | hnearly
    · exact absurd hsource (not_matches_sources hS (.inl rfl) rfl)
    · obtain ⟨rfl, hopen, qs, v', hblock⟩ := hnearly _ v _ (by simp [kept_append]) hsource
      -- the match directly follows a word that was masked before
      rcases List.eq_nil_or_concat u with rfl | ⟨u, x, rfl⟩
      · rw [show S₁ ++ kept [] = S₁ from List.append_nil S₁] at hblock
        rw [List.append_assoc] at hS
        obtain ⟨T, rfl⟩ := sources_concat_block hS hblock
        have hmask : (render face (targets none (T ++ [Step.keep (.block none v')]))).getLast? =
            some ']' := by
          simp [targets, Step.target, face, List.getLast?_append, mask_getLast]
        rw [hmask] at hm
        refine ⟨rfl, ⟨hopen.1, ?_⟩, targets none T, v', by simp [targets, Step.target]⟩
        exact hm.congr (Category.alike_outside .phone isWord_close rfl) (Regex.alike_refl _ _)
      · have hlast := congrArg List.getLast? hblock
        simp at hlast
  · exact ⟨rfl, hopen, targets none T, v, by simp [targets, Step.target]⟩

end

def before (k : Category) : List Category := categories.takeWhile (· ≠ k)

private theorem eq_before {done rest : List Category} {k : Category}
    (h : categories = done ++ k :: rest) : done = before k := by
  have hnodup : categories.Nodup := by decide
  have hnot : k ∉ done := by
    rw [h] at hnodup
    exact fun hmem => (List.nodup_append.mp hnodup).2.2 k hmem k List.mem_cons_self rfl
  rw [before, h, List.takeWhile_append_of_pos, List.takeWhile_cons_of_neg, List.append_nil]
  · simp
  · intro c hc
    have hne : c ≠ k := fun heq => hnot (heq ▸ hc)
    simpa using hne

section

variable (db)

def stage (k : Category) (text : List Char) : List Char :=
  masked db (before k) (shieldBusinessRefs db text).1

/-- What the substitution of a category shows after one of the words it replaces, up to what
it shows next, is of some kind. -/
def Follows (k : Category) (P : List Char → Option Char → Prop) (text : List Char) : Prop :=
  ∃ ts₁ v w ts₂, (k.pattern db).scan (stage db k text) = ts₁ ++ .hit v :: (w.map .char ++ ts₂) ∧
    P w (ts₂.flatMap (Token.shown mask)).head?

/-- A telephone number in brackets directly follows one that is replaced, or an address that
is. -/
def Glued (text : List Char) : Prop :=
  Follows db .phone (Bracketed db) text ∨ Follows db .ipAddress (Bracketed db) text

end

private theorem follows_of_tokens {k : Category} {P : List Char → Option Char → Prop}
    {text : List Char}
    (S₁ : List (Step (Option ℕ) Char)) (v w : List Char) (S₂ : List (Step (Option ℕ) Char))
    (h : (k.pattern db).scan (stage db k text) =
      (S₁ ++ Step.hit v :: (kept w ++ S₂)).flatMap (Step.tokens face))
    (hP : P w (render face (targets none S₂)).head?) : Follows db k P text := by
  have hface : ∀ w, face none w = mask := fun _ => rfl
  rw [render_targets hface] at hP
  refine ⟨S₁.flatMap (Step.tokens face), v, w, S₂.flatMap (Step.tokens face), ?_, hP⟩
  rw [h, List.flatMap_append, List.flatMap_cons, List.flatMap_append, tokens_kept]
  rfl

theorem free_step {done rest : List Category} {j : Category} {text : List Char}
    {S : List (Step (Option ℕ) Char)} (hglued : ¬ Glued db text)
    (hdone : categories = done ++ j :: rest) (hS : Substitutes (j.pattern db) face none S)
    (htokens : (j.pattern db).scan (masked db done (shieldBusinessRefs db text).1) =
      S.flatMap (Step.tokens face))
    (hinv : ∀ k ∈ done, Free (k.pattern db) (sources S)) :
    ∀ k ∈ done ++ [j], Free (k.pattern db) (targets none S) := by
  intro k hk
  obtain rfl := eq_before hdone
  refine free_targets hS ?_ ?_ ?_
  · rcases List.mem_append.mp hk with hk | hk
    · exact .inr (hinv k hk)
    · exact .inl (List.mem_singleton.mp hk)
  · rintro hne rfl
    exact hne (List.mem_singleton.mp hk)
  · rintro rfl S₁ v w S₂ rfl hbracketed
    have hfollows : Follows db j (Bracketed db) text := follows_of_tokens _ _ _ _ htokens hbracketed
    cases j with
    | phone => exact hglued (.inl hfollows)
    | ipAddress => exact hglued (.inr hfollows)
    | email | ssn | card => exact absurd hk (by decide)

theorem nearlyFree_step {done rest : List Category} {j : Category}
    {S : List (Step (Option ℕ) Char)} (hdone : categories = done ++ j :: rest)
    (hS : Substitutes (j.pattern db) face none S)
    (hinv : ∀ k ∈ done, NearlyFree db k (sources S)) :
    ∀ k ∈ done ++ [j], NearlyFree db k (targets none S) := by
  intro k hk
  obtain rfl := eq_before hdone
  refine nearlyFree_targets hS ?_ ?_
  · rcases List.mem_append.mp hk with hk | hk
    · exact .inr (hinv k hk)
    · exact .inl (List.mem_singleton.mp hk)
  · rintro hne rfl
    exact hne (List.mem_singleton.mp hk)

end TicketWarden.Guardrails
