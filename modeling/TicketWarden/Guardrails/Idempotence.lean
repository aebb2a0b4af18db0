/- Module: TicketWarden/Guardrails/Idempotence
   source: apps/api/src/guardrails/pii.py
   digest: Redacting a redacted text changes nothing exactly when masking leaves no telephone
   number in brackets behind a mask, or behind a reference that it uncovers there. -/

import TicketWarden.Guardrails.Rescan
import TicketWarden.Guardrails.Residue

set_option autoImplicit false
set_option relaxedAutoImplicit false

namespace TicketWarden.Guardrails

open Patterns Python

variable {db : Runtime}

/-- The pieces of a redacted text with the references found in it. -/
def relabel : ℕ → List (Step (Option ℕ) Char) → List Part
  | _, [] => []
  | n, .keep (.char x) :: S => .char x :: relabel n S
  | n, .keep (.block none w) :: S => .block none w :: relabel n S
  | n, .keep (.block (some _) w) :: S => .block (some n) w :: relabel (n + 1) S
  | n, .hit w :: S => .block (some n) w :: relabel (n + 1) S

private theorem stash_map_char_append (n : ℕ) (w : List Char) (ts : List (Token Char)) :
    stash n (w.map .char ++ ts) = w ++ stash n ts := by
  induction w with
  | nil => rfl
  | cons x w ih => exact congrArg (x :: ·) ih

private theorem render_relabel (n : ℕ) (S : List (Step (Option ℕ) Char)) :
    render face (relabel n S) = stash n (S.flatMap found) := by
  induction S generalizing n with
  | nil => rfl
  | cons s S ih =>
    rw [List.flatMap_cons]
    match s with
    | .keep (.char x) => exact congrArg (x :: ·) (ih n)
    | .keep (.block none w) =>
      rw [found, stash_map_char_append, ← ih]
      rfl
    | .keep (.block (some index) w) => exact congrArg (placeholder n ++ ·) (ih (n + 1))
    | .hit w => exact congrArg (placeholder n ++ ·) (ih (n + 1))

private theorem lt_of_mem_relabel {n index : ℕ} {w : List Char} {S : List (Step (Option ℕ) Char)}
    (h : Piece.block (some index) w ∈ relabel n S) :
    index < n + (hits (S.flatMap found)).length := by
  induction S generalizing n with
  | nil => cases h
  | cons s S ih =>
    rw [List.flatMap_cons]
    match s with
    | .keep (.char x) =>
      have hmem : Piece.block (some index) w ∈ relabel n S := by simpa [relabel] using h
      exact ih hmem
    | .keep (.block none v) =>
      have hmem : Piece.block (some index) w ∈ relabel n S := by simpa [relabel] using h
      rw [found, hits_map_char_append]
      exact ih hmem
    | .keep (.block (some _) v) | .hit v =>
      have hlen : (hits (Token.hit v :: S.flatMap found)).length =
          (hits (S.flatMap found)).length + 1 := rfl
      rw [found, List.singleton_append, hlen]
      rcases List.mem_cons.mp h with heq | hmem
      · cases heq
        omega
      · have hlt := ih hmem
        omega

private theorem exists_kept_relabel {n : ℕ} {S : List (Step (Option ℕ) Char)} {qs rs : List Part}
    {w : List Char} (h : relabel n S = qs ++ w.map .char ++ rs) :
    ∃ S₁ S₂ m, S = S₁ ++ kept w ++ S₂ ∧ qs = relabel n S₁ ∧ rs = relabel m S₂ := by
  have hsplit : ∀ (qs : List Part) (n : ℕ) (S : List (Step (Option ℕ) Char)) (rs : List Part),
      relabel n S = qs ++ rs →
      ∃ S₁ S₂ m, S = S₁ ++ S₂ ∧ qs = relabel n S₁ ∧ rs = relabel m S₂ := by
    intro qs
    induction qs with
    | nil => exact fun n S rs h => ⟨[], S, n, rfl, rfl, h.symm⟩
    | cons q qs ih =>
      intro n S rs h
      match S with
      | .keep (.char x) :: S =>
        obtain ⟨rfl, htail⟩ := List.cons.inj h
        obtain ⟨S₁, S₂, m, rfl, rfl, rfl⟩ := ih n S rs htail
        exact ⟨.keep (.char x) :: S₁, S₂, m, rfl, rfl, rfl⟩
      | .keep (.block none v) :: S =>
        obtain ⟨rfl, htail⟩ := List.cons.inj h
        obtain ⟨S₁, S₂, m, rfl, rfl, rfl⟩ := ih n S rs htail
        exact ⟨.keep (.block none v) :: S₁, S₂, m, rfl, rfl, rfl⟩
      | .keep (.block (some index) v) :: S =>
        obtain ⟨rfl, htail⟩ := List.cons.inj h
        obtain ⟨S₁, S₂, m, rfl, rfl, rfl⟩ := ih (n + 1) S rs htail
        exact ⟨.keep (.block (some index) v) :: S₁, S₂, m, rfl, rfl, rfl⟩
      | .hit v :: S =>
        obtain ⟨rfl, htail⟩ := List.cons.inj h
        obtain ⟨S₁, S₂, m, rfl, rfl, rfl⟩ := ih (n + 1) S rs htail
        exact ⟨.hit v :: S₁, S₂, m, rfl, rfl, rfl⟩
  have hkept : ∀ (w : List Char) (n : ℕ) (S : List (Step (Option ℕ) Char)),
      relabel n S = w.map .char → S = kept w := by
    intro w
    induction w with
    | nil =>
      intro n S h
      match S with
      | [] => rfl
      | .keep (.char x) :: S | .keep (.block none v) :: S | .keep (.block (some _) v) :: S
      | .hit v :: S => cases h
    | cons x w ih =>
      intro n S h
      match S with
      | .keep (.char y) :: S =>
        obtain ⟨hxy, htail⟩ := List.cons.inj h
        cases hxy
        exact congrArg (Step.keep (.char x) :: ·) (ih n S htail)
      | .keep (.block none v) :: S | .keep (.block (some _) v) :: S | .hit v :: S =>
        exact absurd (List.cons.inj h).1 (by simp)
  obtain ⟨S', S₂, m, rfl, hleft, hrs⟩ := hsplit _ _ _ _ h
  obtain ⟨S₁, Sw, m', rfl, hqs, hw⟩ := hsplit _ _ _ _ hleft.symm
  exact ⟨S₁, S₂, m, by rw [hkept w m' Sw hw.symm], hqs, hrs⟩

private theorem relabel_append (n : ℕ) (S T : List (Step (Option ℕ) Char)) :
    ∃ m, relabel n (S ++ T) = relabel n S ++ relabel m T := by
  induction S generalizing n with
  | nil => exact ⟨n, rfl⟩
  | cons s S ih =>
    match s with
    | .keep (.char x) | .keep (.block none v) =>
      obtain ⟨m, hm⟩ := ih n
      exact ⟨m, congrArg (_ :: ·) hm⟩
    | .keep (.block (some index) v) | .hit v =>
      obtain ⟨m, hm⟩ := ih (n + 1)
      exact ⟨m, congrArg (_ :: ·) hm⟩

private theorem relabel_kept_append (n : ℕ) (w : List Char) (T : List (Step (Option ℕ) Char)) :
    relabel n (kept w ++ T) = w.map .char ++ relabel n T := by
  induction w with
  | nil => rfl
  | cons x w ih => exact congrArg (_ :: ·) ih

private theorem last_relabel (n : ℕ) (S : List (Step (Option ℕ) Char)) :
    (render face (relabel n S)).getLast? = (render face (sources S)).getLast? ∨
      (render face (relabel n S)).getLast? = some nul ∧ ∃ T m, S = T ++ [.hit m] := by
  rcases List.eq_nil_or_concat S with rfl | ⟨T, s, rfl⟩
  · exact .inl rfl
  · rw [List.concat_eq_append]
    obtain ⟨m, hm⟩ := relabel_append n T [s]
    rw [hm]
    match s with
    | .keep (.char x) =>
      left
      simp [relabel, Step.source]
    | .keep (.block none v) =>
      left
      simp [relabel, Step.source, face, List.getLast?_append, mask_getLast]
    | .keep (.block (some index) v) =>
      left
      simp [relabel, Step.source, face, List.getLast?_append, placeholder_getLast]
    | .hit v =>
      right
      refine ⟨?_, T, v, rfl⟩
      simp [relabel, face, List.getLast?_append, placeholder_getLast]

private theorem head_relabel (n : ℕ) (S : List (Step (Option ℕ) Char)) :
    (render face (relabel n S)).head? = (render face (sources S)).head? ∨
      (render face (relabel n S)).head? = some nul ∧ ∃ m T, S = .hit m :: T := by
  match S with
  | [] => exact .inl rfl
  | .keep (.char x) :: S => exact .inl rfl
  | .keep (.block none v) :: S => exact .inl rfl
  | .keep (.block (some index) v) :: S => exact .inl rfl
  | .hit v :: S => exact .inr ⟨rfl, v, S, rfl⟩

/-- What is matched when the new references are set aside too was matched among the pieces, or is
a telephone number in brackets directly after a new reference. -/
private theorem match_relabel {k : Category} {p : Option Char} {n m : ℕ}
    {S₁ S₂ : List (Step (Option ℕ) Char)} {w : List Char}
    (hS : Substitutes (businessRef db) face p (S₁ ++ kept w ++ S₂))
    (hm : (k.pattern db).Matches (render face (relabel n S₁)).getLast? w
      (render face (relabel m S₂)).head?) :
    (∃ u v, w = u ++ v ∧ (k.pattern db).Matches (render face (sources (S₁ ++ kept u))).getLast? v
      (render face (sources S₂)).head?) ∨
      k = .phone ∧ Bracketed db w (render face (sources S₂)).head? ∧ ∃ T v, S₁ = T ++ [.hit v] := by
  have hnone : S₁ ++ kept [] = S₁ := List.append_nil S₁
  by_cases hemail : k = .email
  · subst hemail
    exact .inl ⟨[], w, rfl, email_congr hm⟩
  rcases List.eq_nil_or_concat w with rfl | ⟨w', z, hz⟩
  · exact absurd hm (Regex.not_matches_nil (k.consumes db) _ _)
  -- what follows is the same, since no reference starts after a digit
  have hnext : (render face (relabel m S₂)).head? = (render face (sources S₂)).head? := by
    rcases head_relabel m S₂ with heq | ⟨hnul, v, T, rfl⟩
    · exact heq
    · exfalso
      rw [hnul, hz, List.concat_eq_append] at hm
      have hdecimal : db.isDecimal z = true := isDecimal_of_end hemail hm isWord_nul
      have hdrop := hS.drop
      have hlast : (render face (sources (S₁ ++ kept w))).getLast? = some z := by
        rw [hz]
        simp
      rw [hlast, Option.some_or] at hdrop
      cases hdrop with
      | hit _ hmatch _ =>
        have hword := (refShape_of_matches hmatch).edge.1
        rw [holdsAt_some, isWord_of_isDecimal hdecimal] at hword
        cases hword
  rw [hnext] at hm
  rcases last_relabel n S₁ with heq | ⟨hnul, T, v, rfl⟩
  · rw [heq] at hm
    exact .inl ⟨[], w, rfl, hnone.symm ▸ hm⟩
  · rw [hnul] at hm
    cases w with
    | nil => exact absurd hm (Regex.not_matches_nil (k.consumes db) _ _)
    | cons x w =>
      have hword : db.isWord x = false := by
        rw [List.append_assoc, List.append_assoc] at hS
        cases hS.drop with
        | hit _ hmatch _ => exact (refShape_of_matches hmatch).edge.2
      rcases matches_outside (p := some nul) hemail isWord_nul hm with
        hx | ⟨rfl, hrest⟩ | ⟨hphone, hopen⟩
      · rw [isWord_of_isDecimal hx] at hword
        cases hword
      · refine .inl ⟨['+'], w, rfl, ?_⟩
        have hlast : (render face (sources (T ++ [Step.hit v] ++ kept ['+']))).getLast? =
            some '+' := by simp
        rwa [hlast]
      · exact .inr ⟨hphone, hopen, T, v, rfl⟩

theorem none_not_mem_pieces (n : ℕ) (ts : List (Token Char)) (v : List Char) :
    Piece.block none v ∉ pieces n ts := by
  induction ts generalizing n with
  | nil => exact List.not_mem_nil
  | cons token ts ih =>
    cases token with
    | char x => simpa [pieces] using ih n
    | hit w => simpa [pieces] using ih (n + 1)

private theorem not_matches_pieces {c : Cursor Char} {ts : List (Token Char)}
    (h : Scans (businessRef db) c ts) {n : ℕ} {qs rs : List Part} {w : List Char}
    (hsplit : pieces n ts = qs ++ w.map .char ++ rs) :
    ¬ (businessRef db).Matches ((original qs).getLast?.or c.prev) w (original rs).head? := by
  intro hm
  cases w with
  | nil => exact Regex.not_matches_nil rfl _ _ hm
  | cons y w =>
    induction h generalizing n qs with
    | nil => exact absurd hsplit (by simp [pieces])
    | @char prev x xs ts hnone hscan ih =>
      cases qs with
      | nil =>
        obtain ⟨hxy, htail⟩ := List.cons.inj hsplit
        cases hxy
        have hxs : xs = w ++ original rs := by
          have htext := hscan.flatMap_text
          rw [← original_pieces n ts, htail] at htext
          simpa using htext.symm
        exact Regex.not_matches_of_matchAt rfl hnone (by simp [hxs]) hm
      | cons q qs =>
        obtain ⟨rfl, htail⟩ := List.cons.inj hsplit
        refine ih htail ?_
        rwa [original_char, getLast_cons_or] at hm
    | @hit prev v rest ts _ _ hscan ih =>
      cases qs with
      | nil => exact absurd (List.cons.inj hsplit).1 (by simp)
      | cons q qs =>
        obtain ⟨rfl, htail⟩ := List.cons.inj hsplit
        refine ih htail ?_
        rwa [original_block, List.getLast?_append, Option.or_assoc] at hm

variable (db) in
/-- The pieces of a text while one category after the other is masked. -/
structure Unmarred (text : List Char) (done : List Category) (ps : List Part) : Prop where
  nearly : ∀ k ∈ done, NearlyFree db k ps
  unreferenced : ∀ qs w rs, ps = qs ++ w.map .char ++ rs →
    ¬ (businessRef db).Matches (original qs).getLast? w (original rs).head?
  stands : ∀ index < 10 ^ 9, placeholder index <:+: text →
    ∃ qs rs, ps = qs ++ ((placeholder index).map .char ++ rs)

private theorem pieces_append (n : ℕ) (ts ts' : List (Token Char)) :
    ∃ m, pieces n (ts ++ ts') = pieces n ts ++ pieces m ts' := by
  induction ts generalizing n with
  | nil => exact ⟨n, rfl⟩
  | cons token ts ih =>
    cases token with
    | char x =>
      obtain ⟨m, hm⟩ := ih n
      exact ⟨m, congrArg (_ :: ·) hm⟩
    | hit w =>
      obtain ⟨m, hm⟩ := ih (n + 1)
      exact ⟨m, congrArg (_ :: ·) hm⟩

private theorem pieces_map_char_append (n : ℕ) (w : List Char) (ts : List (Token Char)) :
    pieces n (w.map .char ++ ts) = w.map .char ++ pieces n ts := by
  induction w with
  | nil => rfl
  | cons x w ih => exact congrArg (_ :: ·) ih

private theorem unmarred_pieces (text : List Char) :
    Unmarred db text [] (pieces 0 ((businessRef db).scan text)) where
  nearly k hk := absurd hk List.not_mem_nil
  unreferenced qs w rs hsplit := by
    have hnone := not_matches_pieces (scans_references db text) hsplit
    rwa [Option.or_none] at hnone
  stands := by
    rintro index - ⟨a, b, heq⟩
    have hscan := scans_references db text
    rw [← heq, List.append_assoc] at hscan ⊢
    obtain ⟨ts₁, ts₂, hts⟩ := (inert_placeholder_reference index).exists_tokens (by rfl) hscan
    obtain ⟨m, hm⟩ := pieces_append 0 ts₁ ((placeholder index).map .char ++ ts₂)
    rw [hts, hm, pieces_map_char_append]
    exact ⟨_, _, rfl⟩

private theorem unmarred_step {done rest : List Category} {j : Category} {text : List Char}
    {S : List (Step (Option ℕ) Char)} (hdone : categories = done ++ j :: rest)
    (hS : Substitutes (j.pattern db) face none S) (hinv : Unmarred db text done (sources S)) :
    Unmarred db text (done ++ [j]) (targets none S) where
  nearly := nearlyFree_step hdone hS hinv.nearly
  unreferenced qs w rs hsplit := by
    obtain ⟨S₁, S₂, rfl, rfl, rfl⟩ := exists_kept hsplit
    rw [original_targets, original_targets]
    exact hinv.unreferenced _ w _ (by simp)
  stands index hindex hinner := by
    obtain ⟨qs, rs, hsplit⟩ := hinv.stands index hindex hinner
    obtain ⟨S₁, S₂, rfl, -, -⟩ := (inert_placeholder j hindex).exists_kept hS hsplit
    exact ⟨targets none S₁, targets none S₂, by simp⟩

variable (db)

/-- `redact_pii` before it puts the references back. -/
def maskedText (text : List Char) : List Char := maskPii db (shieldBusinessRefs db text).1

/-- A telephone number in brackets stands directly behind a mask, or behind a business reference
that does. -/
def Trailed (text : List Char) : Prop :=
  ∃ a m w b, text = a ++ mask ++ (m ++ (w ++ b)) ∧
    (m = [] ∨ (businessRef db).Matches none m (some '(')) ∧ Bracketed db w b.head?

/-- The steps of a scan of the masked text for references. -/
structure Rescanned (text : List Char) (S : List (Step (Option ℕ) Char)) : Prop where
  masked : maskedText db text = render face (sources S)
  spells : original (sources S) = text
  numbered : refs (sources S) = (references db text).zipIdx
  edged : Edged db none (sources S)
  unmarred : Unmarred db text categories (sources S)
  steps : Substitutes (businessRef db) face none S
  tokens : (businessRef db).scan (render face (sources S)) = S.flatMap (Step.tokens face)

variable {db}

private theorem exists_rescanned {text : List Char} (h : (references db text).length ≤ 10 ^ 9) :
    ∃ S, Rescanned db text S := by
  obtain ⟨ps, hmasked, horiginal, hrefs, hedged, hps⟩ := exists_pieces h (unmarred_pieces text)
    fun _ _ _ _ hdone hS _ => unmarred_step hdone hS
  have hblocks : ∀ kind w, Piece.block kind w ∈ ps → Inert (businessRef db) (face kind w) := by
    intro kind w _
    cases kind with
    | none => exact inert_mask_reference
    | some index => exact inert_placeholder_reference index
  obtain ⟨S, hS, rfl, htokens⟩ :=
    exists_substitutes (by rfl) (scans_references db (render face ps)) hblocks rfl
  exact ⟨S, hmasked, horiginal, hrefs, hedged, hps, hS, htokens⟩

private theorem length_hits_found (S : List (Step (Option ℕ) Char)) :
    (hits (S.flatMap found)).length =
      (refs (sources S)).length + (hits (S.flatMap (Step.tokens face))).length := by
  induction S with
  | nil => rfl
  | cons s S ih =>
    rw [List.flatMap_cons, List.flatMap_cons]
    match s with
    | .keep (.char x) => exact ih
    | .keep (.block none v) =>
      rw [found, Step.tokens, hits_map_char_append, hits_map_char_append]
      exact ih
    | .keep (.block (some index) v) =>
      rw [Step.tokens, hits_map_char_append]
      exact (congrArg (· + 1) ih).trans (Nat.add_right_comm _ _ 1)
    | .hit v =>
      have hrefs : refs (sources (.hit v :: S)) = refs (sources S) := refs_map_char_append v _
      rw [hrefs]
      exact congrArg (· + 1) ih

private theorem exists_hit {p : Option Char} {S : List (Step (Option ℕ) Char)} {m : List Char}
    {rs : List Part} (hS : Substitutes (businessRef db) face p S)
    (heq : sources S = m.map .char ++ rs)
    (hm : (businessRef db).Matches p m (render face rs).head?) :
    ∃ T, S = .hit m :: T ∧ sources T = rs := by
  have hshown : render face (sources S) = m ++ render face rs := by
    rw [heq, render_append, render_map_char]
  cases hS with
  | nil =>
    obtain ⟨hnil, -⟩ := List.append_eq_nil_iff.mp heq.symm
    rw [List.map_eq_nil_iff.mp hnil] at hm
    exact absurd hm (Regex.not_matches_nil rfl _ _)
  | char hnone _ => exact absurd hm (hnone m (render face rs) hshown)
  | block _ =>
    cases m with
    | nil => exact absurd hm (Regex.not_matches_nil rfl _ _)
    | cons x m => cases heq
  | @hit _ v T _ hv _ =>
    have hsources : v.map Piece.char ++ sources T = m.map .char ++ rs := heq
    rw [show sources (.hit v :: T) = v.map .char ++ sources T from rfl, render_append,
      render_map_char] at hshown
    obtain rfl : v = m := reference_unique hv hm hshown (refShape_of_matches hv).edge.2
      (refShape_of_matches hm).edge.2
    exact ⟨T, rfl, List.append_cancel_left hsources⟩

namespace Rescanned

variable {text : List Char} {S : List (Step (Option ℕ) Char)}

theorem referenced (h : Rescanned db text S) : Referenced db (sources S) := by
  intro index m hm
  have hmem := mem_refs_iff.mpr hm
  rw [h.numbered] at hmem
  exact exists_matches_of_mem (List.mem_of_getElem? (List.mem_zipIdx_iff_getElem?.mp hmem))

private theorem redactChars_eq (h : Rescanned db text S) (hforged : ¬ Forged db text) :
    redactChars db text = render final (sources S) := by
  rw [redactChars_eq_restored h.masked h.numbered h.edged, restored_eq_render]
  intro index hindex hinner
  rw [h.spells] at hinner
  exact hforged ⟨index, hindex, hinner⟩

private theorem scan_eq (h : Rescanned db text S) :
    (businessRef db).scan (render final (sources S)) = S.flatMap found :=
  scan_final h.steps h.edged h.referenced (.inl rfl) (scans_references db _)

private theorem shield_eq (h : Rescanned db text S) :
    (shieldBusinessRefs db (render final (sources S))).1 = render face (relabel 0 S) := by
  rw [render_relabel, ← h.scan_eq]
  rfl

private theorem length_references (h : Rescanned db text S) :
    (references db (render final (sources S))).length =
      (references db text).length + (references db (maskedText db text)).length := by
  have hrefs : (refs (sources S)).length = (references db text).length := by
    rw [h.numbered, List.length_zipIdx]
  have hnew : references db (maskedText db text) = hits (S.flatMap (Step.tokens face)) := by
    rw [h.masked, references, Regex.findAll, h.tokens]
  rw [hnew, ← hrefs, ← length_hits_found, ← h.scan_eq]
  rfl

private theorem trailed_of_hit {T S₂ : List (Step (Option ℕ) Char)} {m w : List Char}
    (h : Rescanned db text (T ++ [.hit m] ++ kept w ++ S₂))
    (hopen : Bracketed db w (render face (sources S₂)).head?) :
    Trailed db (render face (sources (T ++ [.hit m] ++ kept w ++ S₂))) := by
  have hsplit : sources (T ++ [.hit m] ++ kept w ++ S₂) =
      sources T ++ m.map .char ++ (w.map .char ++ sources S₂) := by
    simp [Step.source]
  have hhead : ∀ rest : List Char, (w ++ rest).head? = some '(' := by
    intro rest
    rw [List.head?_append, hopen.1, Option.some_or]
  have hm : (businessRef db).Matches (render face (sources T)).getLast? m (some '(') := by
    have hdrop := h.steps
    rw [List.append_assoc, List.append_assoc] at hdrop
    have hrest := hdrop.drop
    rw [Option.or_none] at hrest
    cases hrest with
    | hit _ hmatch _ =>
      have hrest : (render face (sources (kept w ++ S₂))).head? = some '(' := by
        simpa using hhead (render face (sources S₂))
      exact hrest ▸ hmatch
  have hnot := h.unmarred.unreferenced _ m _ hsplit
  rw [original_append, original_map_char, hhead] at hnot
  have hedged := h.edged
  rw [hsplit] at hedged ⊢
  rcases List.eq_nil_or_concat (sources T) with hnil | ⟨qs, piece, hconcat⟩
  · rw [hnil] at hm hnot
    exact absurd hm hnot
  · rw [List.concat_eq_append] at hconcat
    rw [hconcat] at hm hnot hedged ⊢
    cases piece with
    | char x => exact absurd (by simpa using hm) (by simpa using hnot)
    | block kind v =>
      cases kind with
      | none =>
        refine ⟨render face qs, m, w, render face (sources S₂), by simp [face], .inr ?_, hopen⟩
        refine hm.congr (businessRef_alike ?_) (Regex.alike_refl _ _)
        simpa [face, List.getLast?_append, mask_getLast] using isWord_close
      | some index =>
        exfalso
        rw [List.append_assoc, List.append_assoc] at hedged
        obtain ⟨-, hnext, -⟩ := hedged.drop
        obtain ⟨x, hx, hletter⟩ := (refShape_of_matches hm).first
        have hfirst :
            (render final (m.map .char ++ (w.map .char ++ sources S₂))).head? = some x := by
          rw [render_append, render_map_char, List.head?_append, hx, Option.some_or]
        have hword : holdsAt db.isWord (some x) = false := hfirst ▸ hnext
        rw [holdsAt_some, isWord_of_letter hletter] at hword
        cases hword

private theorem exposed_of_bracketed (h : Rescanned db text S) {S₁ S₂ : List (Step (Option ℕ) Char)}
    {w : List Char} (hS : S = S₁ ++ (kept w ++ S₂))
    (hlast : holdsAt db.isWord (render face (relabel 0 S₁)).getLast? = false)
    (hopen : Bracketed db w (render face (sources S₂)).head?) :
    Exposed db (render final (sources S)) := by
  obtain ⟨n, hn⟩ := relabel_append 0 S₁ (kept w ++ S₂)
  refine ⟨.phone, render face (relabel 0 S₁), w, render face (relabel n S₂), ?_, ?_⟩
  · rw [h.shield_eq, hS, hn, relabel_kept_append]
    simp
  · refine hopen.matches hlast ?_
    rcases head_relabel n S₂ with heq | ⟨hnul, -⟩
    · exact .inl heq
    · exact .inr (hnul ▸ isWord_nul)

private theorem trailed_of_exposed (h : Rescanned db text S)
    (hcount : (references db text).length + (references db (maskedText db text)).length ≤ 10 ^ 9)
    (hexposed : Exposed db (render final (sources S))) : Trailed db (maskedText db text) := by
  obtain ⟨k, a, w, b, heq, hm⟩ := hexposed
  rw [← h.length_references, references, Regex.findAll, h.scan_eq] at hcount
  have hblocks : ∀ kind v, Piece.block kind v ∈ relabel 0 S → Avoids w (face kind v) := by
    intro kind v hmem
    cases kind with
    | none => exact (inert_mask k).avoids hm
    | some index =>
      have hlt := lt_of_mem_relabel hmem
      rw [Nat.zero_add] at hlt
      exact (inert_placeholder k (lt_of_lt_of_le hlt hcount)).avoids hm
  have hne : w ≠ [] := by
    rintro rfl
    exact Regex.not_matches_nil (k.consumes db) _ _ hm
  rw [h.shield_eq, List.append_assoc] at heq
  obtain ⟨qs, rs, hsplit, rfl, rfl⟩ := exists_run hne hblocks heq
  obtain ⟨S₁, S₂, n, rfl, rfl, rfl⟩ := exists_kept_relabel hsplit
  rw [h.masked]
  rcases match_relabel h.steps hm with ⟨u, v, rfl, hsource⟩ | ⟨-, hopen, T, m, rfl⟩
  · obtain ⟨-, hopen, qs, x, hblock⟩ := h.unmarred.nearly k (by cases k <;> decide) _ v _
      (by simp [kept_append]) hsource
    refine ⟨render face qs, [], v, render face (sources S₂), ?_, .inl rfl, hopen⟩
    have hshown := congrArg (render face) hblock
    rw [kept_append, ← List.append_assoc S₁, sources_append, sources_append, hblock]
    simp [face]
  · exact h.trailed_of_hit hopen

private theorem exists_steps (h : Rescanned db text S) {a m w b : List Char}
    (heq : maskedText db text = a ++ mask ++ (m ++ (w ++ b)))
    (hm : m = [] ∨ (businessRef db).Matches none m (some '(')) (hopen : Bracketed db w b.head?) :
    ∃ S₁ S₂, S = S₁ ++ S₂ ∧ (render face (sources S₁)).getLast? = some ']' ∧
      ∃ rs, sources S₂ = m.map .char ++ (w.map .char ++ rs) ∧ render face rs = b := by
  have hnot : ∀ c, c = '[' ∨ c = ']' ∨ c = nul → c ∉ m ++ w := by
    intro c hc hmem
    rcases List.mem_append.mp hmem with hmem | hmem
    · rcases hm with rfl | hm
      · cases hmem
      · rcases hc with rfl | rfl | rfl
        · exact not_mem_of_businessRef hm (by decide) (by decide) hmem
        · exact not_mem_of_businessRef hm (by decide) (by decide) hmem
        · exact not_mem_of_businessRef hm (by decide) (by decide) hmem
    · rcases hc with rfl | rfl | rfl
      · exact Regex.not_mem_of_matches (chars_open .phone) hopen.2 hmem
      · exact Regex.not_mem_of_matches (chars_close .phone) hopen.2 hmem
      · exact Regex.not_mem_of_matches (chars_nul .phone) hopen.2 hmem
  have hbracket : '(' ∈ m ++ w := List.mem_append_right m (List.mem_of_mem_head? hopen.1)
  have hblocks : ∀ kind v, Piece.block kind v ∈ sources S → Avoids (m ++ w) (face kind v) := by
    intro kind v _
    cases kind with
    | none =>
      refine ⟨⟨'[', rfl, hnot _ (.inl rfl)⟩, ⟨']', mask_getLast, hnot _ (.inr (.inl rfl))⟩, ?_⟩
      exact fun hin => absurd (show '(' ∈ mask from hin.subset hbracket) (by decide)
    | some index =>
      refine ⟨⟨nul, rfl, hnot _ (.inr (.inr rfl))⟩,
        ⟨nul, placeholder_getLast index, hnot _ (.inr (.inr rfl))⟩, ?_⟩
      exact fun hin => not_mem_placeholder (by decide) (by decide) index (hin.subset hbracket)
  have hshown : render face (sources S) = a ++ mask ++ (m ++ w ++ b) := by
    rw [← h.masked, heq, List.append_assoc m]
  obtain ⟨qs, rs, hsplit, hqs, rfl⟩ := exists_run (List.ne_nil_of_mem hbracket) hblocks hshown
  have hlast : (render face qs).getLast? = some ']' := by
    rw [hqs, List.getLast?_append, mask_getLast, Option.some_or]
  rw [List.append_assoc] at hsplit
  obtain ⟨S₁, S₂, rfl, hS₁, hS₂⟩ := exists_cut hsplit (by
    -- no reference has the bracket that ends the mask
    intro u v hmem hu _ hsuffix _
    obtain ⟨p, n, hreference⟩ := h.steps.matches_of_mem hmem
    obtain ⟨u, x, rfl⟩ := (List.eq_nil_or_concat u).resolve_left hu
    obtain ⟨qs', rfl⟩ := hsuffix
    have hx : x = ']' := by simpa using hlast
    subst hx
    exact not_mem_of_businessRef hreference (c := ']') (by decide) (by decide) (by simp))
  exact ⟨S₁, S₂, rfl, hS₁ ▸ hlast, rs, by simp [hS₂], rfl⟩

private theorem exposed_of_trailed (h : Rescanned db text S)
    (htrailed : Trailed db (maskedText db text)) :
    Exposed db (render final (sources S)) := by
  obtain ⟨a, m, w, b, heq, hm, hopen⟩ := htrailed
  obtain ⟨S₁, S', rfl, hlast, rs, hS', rfl⟩ := h.exists_steps heq hm hopen
  have hsteps := h.steps.drop
  rw [hlast, Option.some_or] at hsteps
  -- no reference starts in a telephone number
  have hw : ∀ u v, w = u ++ v → v ≠ [] → ∀ p x rest tail, v ++ tail = x ++ rest →
      ¬ (businessRef db).Matches p x rest.head? := by
    rintro u v rfl hv p x rest tail hsplit hreference
    obtain ⟨c, hc, hletter⟩ := (refShape_of_matches hreference).first
    have hhead : c ∈ v := by
      cases v with
      | nil => exact absurd rfl hv
      | cons y v =>
        have hy := congrArg List.head? hsplit
        rw [List.head?_append, List.head?_append, hc] at hy
        obtain rfl : y = c := by simpa using hy
        exact List.mem_cons_self
    exact letter_not_mem (k := .phone) (by decide) hopen.2 hletter (List.mem_append_right u hhead)
  rcases hm with rfl | hm
  · obtain ⟨S₂, rfl, rfl⟩ := hsteps.exists_keeps hw hS'
    refine h.exposed_of_bracketed rfl ?_ hopen
    rcases last_relabel 0 S₁ with hsame | ⟨hnul, -⟩
    · rw [hsame, hlast]
      exact isWord_close
    · exact hnul ▸ isWord_nul
  · have hhere : (businessRef db).Matches (some ']') m (render face (w.map .char ++ rs)).head? := by
      rw [render_append, render_map_char, List.head?_append, hopen.1, Option.some_or]
      exact hm.congr (businessRef_alike isWord_close.symm) (Regex.alike_refl _ _)
    obtain ⟨T, rfl, hT⟩ := exists_hit hsteps hS' hhere
    cases hsteps with
    | hit _ _ hrest =>
      obtain ⟨S₂, rfl, rfl⟩ := hrest.exists_keeps hw hT
      have hS : S₁ ++ .hit m :: (kept w ++ S₂) = (S₁ ++ [.hit m]) ++ (kept w ++ S₂) := by simp
      refine h.exposed_of_bracketed hS ?_ hopen
      obtain ⟨n, hn⟩ := relabel_append 0 S₁ [.hit m]
      rw [hn]
      simpa [relabel, face, List.getLast?_append, placeholder_getLast] using isWord_nul

private theorem forged_iff (h : Rescanned db text S)
    (hcount : (references db text).length + (references db (maskedText db text)).length ≤ 10 ^ 9) :
    Forged db (render final (sources S)) ↔
      ∃ index < (references db text).length + (references db (maskedText db text)).length,
        placeholder index <:+: text := by
  rw [Forged, h.length_references]
  constructor
  · rintro ⟨index, hindex, hinner⟩
    refine ⟨index, hindex, ?_⟩
    have horiginal :=
      infix_original (placeholder_ne_nil index) (avoids_placeholder index) hinner
    rwa [h.spells] at horiginal
  · rintro ⟨index, hindex, hinner⟩
    obtain ⟨qs, rs, hsplit⟩ := h.unmarred.stands index (lt_of_lt_of_le hindex hcount) hinner
    refine ⟨index, hindex, render final qs, render final rs, ?_⟩
    rw [hsplit, render_append, render_append, render_map_char, List.append_assoc]

end Rescanned

private theorem redactChars_eq_self_iff {text : List Char} :
    redactChars db text = text ↔ ¬ Exposed db text ∧ ¬ Forged db text := by
  constructor
  · intro heq
    have hexposed : ¬ Exposed db text := fun h => redactChars_ne_self h heq
    rw [redactChars_of_not_exposed hexposed] at heq
    exact ⟨hexposed, (restore_references_eq_self_iff text).mp heq⟩
  · rintro ⟨hexposed, hforged⟩
    rw [redactChars_of_not_exposed hexposed]
    exact (restore_references_eq_self_iff text).mpr hforged

variable (db)

/-- Masking leaves no telephone number in brackets behind a mask or a reference that it uncovers
there, and no placeholder of a reference of the text or of the masked text stands in the text. -/
structure Settled (text : List Char) : Prop where
  untrailed : ¬ Trailed db (maskedText db text)
  unforged : ∀ index < (references db text).length + (references db (maskedText db text)).length,
    ¬ placeholder index <:+: text

/-- Redacting a second time changes nothing exactly when the text settles. -/
theorem redactPii_redactPii_iff (text : String)
    (hcount : (references db text.toList).length +
      (references db (maskedText db text.toList)).length ≤ 10 ^ 9)
    (hforged : ¬ Forged db text.toList) :
    redactPii db (redactPii db text) = redactPii db text ↔ Settled db text.toList := by
  have hreferences : (references db text.toList).length ≤ 10 ^ 9 := by
    omega
  obtain ⟨S, h⟩ := exists_rescanned hreferences
  rw [← String.toList_inj, toList_redactPii, toList_redactPii, h.redactChars_eq hforged,
    redactChars_eq_self_iff, h.forged_iff hcount]
  constructor
  · rintro ⟨hexposed, hnone⟩
    exact ⟨fun ht => hexposed (h.exposed_of_trailed ht),
      fun index hindex hinner => hnone ⟨index, hindex, hinner⟩⟩
  · rintro ⟨huntrailed, hnone⟩
    exact ⟨fun he => huntrailed (h.trailed_of_exposed hcount he),
      fun ⟨index, hindex, hinner⟩ => hnone index hindex hinner⟩

def orderMail : String := "Order 1234567890, mail a@b.com"

theorem redactPii_redactPii_orderMail :
    redactPii asciiData (redactPii asciiData orderMail) = redactPii asciiData orderMail := by
  have hnul : ∀ index, ¬ placeholder index <:+: orderMail.toList := by
    intro index hinner
    have hmem : nul ∈ orderMail.toList := hinner.subset (by simp [placeholder_eq])
    exact absurd hmem (by decide +kernel)
  refine (redactPii_redactPii_iff asciiData orderMail (by decide +kernel) ?_).mpr ⟨?_, ?_⟩
  · rintro ⟨index, -, hinner⟩
    exact hnul index hinner
  · rintro ⟨a, m, w, b, heq, -, hopen⟩
    have hbracket : '(' ∈ maskedText asciiData orderMail.toList := by
      have hw : '(' ∈ w := List.mem_of_mem_head? hopen.1
      rw [heq]
      simp [hw]
    exact absurd hbracket (by decide +kernel)
  · exact fun index _ => hnul index

def gluedNumbers : String := "5551234567(555)1234567"

theorem not_idempotent_gluedNumbers :
    ¬ ∀ text : String, redactPii asciiData (redactPii asciiData text) = redactPii asciiData text := by
  intro hclaim
  have honce : redactPii asciiData gluedNumbers = "[REDACTED](555)1234567" := by decide +kernel
  have htwice : redactPii asciiData "[REDACTED](555)1234567" = "[REDACTED][REDACTED]" := by
    decide +kernel
  have hsame := hclaim gluedNumbers
  rw [honce, htwice] at hsame
  exact absurd hsame (by decide)

end TicketWarden.Guardrails
