/- Module: TicketWarden/Guardrails/Masking
   source: apps/api/src/guardrails/pii.py
   digest: The pieces of a text while personal data is masked, and what the text is made
   of when its references are back. -/

import TicketWarden.Guardrails.Shielding

set_option autoImplicit false
set_option relaxedAutoImplicit false

namespace TicketWarden.Guardrails

open Patterns Python

abbrev Part := Piece (Option ℕ) Char

/-- What is shown for a masked word and for a reference while masking goes on. -/
def face : Option ℕ → List Char → List Char
  | none, _ => mask
  | some index, _ => placeholder index

/-- What is shown when the references are back. -/
def final : Option ℕ → List Char → List Char
  | none, _ => mask
  | some _, w => w

theorem mask_getLast : mask.getLast? = some ']' := by decide

def pieces : ℕ → List (Token Char) → List Part
  | _, [] => []
  | n, .char x :: ts => .char x :: pieces n ts
  | n, .hit w :: ts => .block (some n) w :: pieces (n + 1) ts

theorem render_pieces (n : ℕ) (ts : List (Token Char)) :
    render face (pieces n ts) = stash n ts := by
  induction ts generalizing n with
  | nil => rfl
  | cons token ts ih =>
    cases token with
    | char x => exact congrArg (x :: ·) (ih n)
    | hit w => exact congrArg (placeholder n ++ ·) (ih (n + 1))

theorem render_final_pieces (n : ℕ) (ts : List (Token Char)) :
    render final (pieces n ts) = ts.flatMap Token.text := by
  induction ts generalizing n with
  | nil => rfl
  | cons token ts ih =>
    cases token with
    | char x => exact congrArg (x :: ·) (ih n)
    | hit w => exact congrArg (w ++ ·) (ih (n + 1))

theorem original_pieces (n : ℕ) (ts : List (Token Char)) :
    original (pieces n ts) = ts.flatMap Token.text := by
  induction ts generalizing n with
  | nil => rfl
  | cons token ts ih =>
    cases token with
    | char x => exact congrArg (x :: ·) (ih n)
    | hit w => exact congrArg (w ++ ·) (ih (n + 1))

def refs : List Part → List (List Char × ℕ)
  | [] => []
  | .char _ :: ps => refs ps
  | .block none _ :: ps => refs ps
  | .block (some index) w :: ps => (w, index) :: refs ps

theorem refs_pieces (n : ℕ) (ts : List (Token Char)) :
    refs (pieces n ts) = (hits ts).zipIdx n := by
  induction ts generalizing n with
  | nil => rfl
  | cons token ts ih =>
    cases token with
    | char x => exact ih n
    | hit w => exact congrArg ((w, n) :: ·) (ih (n + 1))

@[simp] theorem refs_map_char_append (w : List Char) (ps : List Part) :
    refs (w.map .char ++ ps) = refs ps := by
  induction w with
  | nil => rfl
  | cons x w ih => exact ih

theorem mem_refs_iff {w : List Char} {index : ℕ} {ps : List Part} :
    (w, index) ∈ refs ps ↔ Piece.block (some index) w ∈ ps := by
  induction ps with
  | nil => simp [refs]
  | cons piece ps ih =>
    match piece with
    | .char x => simp [refs, ih]
    | .block none v => simp [refs, ih]
    | .block (some j) v => simp [refs, ih, and_comm]

private theorem refs_targets (S : List (Step (Option ℕ) Char)) :
    refs (targets none S) = refs (sources S) := by
  induction S with
  | nil => rfl
  | cons s S ih =>
    match s with
    | .hit w => simpa [targets, Step.target, Step.source, refs] using ih
    | .keep (.char x) => exact ih
    | .keep (.block none w) => exact ih
    | .keep (.block (some index) w) => exact congrArg ((w, index) :: ·) ih

variable {db : Runtime}

private theorem chars_eq_false {c : Char} (hemail : email.chars c = false)
    (hnumeric : numericChar db c = false) (k : Category) : (k.pattern db).chars c = false := by
  by_cases hk : k = .email
  · subst hk
    exact hemail
  · rw [Bool.eq_false_iff]
    intro h
    rw [numericChar_of_chars hk h] at hnumeric
    cases hnumeric

private theorem numericChar_ascii {c : Char} (hlow : c.toNat < 128) :
    numericChar db c = (c.isDigit || asciiSpace c || "()+-.".toList.contains c) := by
  rw [numericChar, db.isDecimal_ascii c hlow, db.isSpace_ascii c hlow]

theorem chars_nul (k : Category) : (k.pattern db).chars nul = false :=
  chars_eq_false (by decide) ((numericChar_ascii (by decide)).trans (by decide)) k

theorem chars_open (k : Category) : (k.pattern db).chars '[' = false :=
  chars_eq_false (by decide) ((numericChar_ascii (by decide)).trans (by decide)) k

theorem chars_close (k : Category) : (k.pattern db).chars ']' = false :=
  chars_eq_false (by decide) ((numericChar_ascii (by decide)).trans (by decide)) k

private theorem dot_needs (db : Runtime) : (ipAddress db).Matches.Needs (· == '.') 1 := by
  have hpart : (cat [between 1 3 (digit db), lit "."]).Matches.Needs (· == '.') 1 :=
    Regex.needs_right _ (Regex.needs_cls fun _ h => h)
  have hparts : (times 3 (cat [between 1 3 (digit db), lit "."])).Matches.Needs (· == '.')
      (3 * 1) := Regex.needs_rep hpart
  exact (Regex.needs_right _ (Regex.needs_left _ hparts)).mono (by decide)

private theorem dash_needs (db : Runtime) : (ssn db).Matches.Needs (· == '-') 1 :=
  Regex.needs_right _ (Regex.needs_right _ (Regex.needs_left _ (Regex.needs_cls fun _ h => h)))

private theorem free_of_few (k : Category) {text : List Char}
    (hplain : ∀ c ∈ text, c ≠ '@' ∧ c ≠ '.' ∧ c ≠ '-')
    (hdigits : text.countP db.isDecimal < 10) {w : List Char} (hw : w <:+: text)
    (p n : Option Char) : ¬ (k.pattern db).Matches p w n := by
  intro hm
  have hdecimal : w.countP db.isDecimal < 10 := lt_of_le_of_lt hw.sublist.countP_le hdigits
  have hnone : ∀ c, (∀ x ∈ text, x ≠ c) → w.countP (· == c) = 0 := by
    intro c hc
    apply List.countP_eq_zero.mpr
    intro x hx heq
    exact hc x (hw.subset hx) (eq_of_beq heq)
  cases k with
  | email =>
    have hat := hnone '@' fun x hx => (hplain x hx).1
    have hneeds := email_needs hm
    omega
  | ssn =>
    have hdash := hnone '-' fun x hx => (hplain x hx).2.2
    have hneeds := dash_needs db hm
    omega
  | card =>
    have hneeds := card_needs db hm
    omega
  | phone =>
    have hneeds := phone_needs db hm
    omega
  | ipAddress =>
    have hdot := hnone '.' fun x hx => (hplain x hx).2.1
    have hneeds := dot_needs db hm
    omega

theorem inert_mask (k : Category) : Inert (k.pattern db) mask where
  first := ⟨'[', rfl, chars_open k⟩
  last := ⟨']', rfl, chars_close k⟩
  free w hw p n := by
    refine free_of_few k ?_ ?_ hw p n
    · intro c hc
      have hall : (mask.all fun c => c != '@' && (c != '.' && c != '-')) = true := by decide
      simpa using List.all_eq_true.mp hall c hc
    · have hzero : mask.countP db.isDecimal = 0 := countP_plain db (by decide)
      omega

theorem inert_placeholder (k : Category) {index : ℕ} (h : index < 10 ^ 9) :
    Inert (k.pattern db) (placeholder index) where
  first := ⟨nul, rfl, chars_nul k⟩
  last := ⟨nul, by rw [placeholder_eq, ← List.cons_append, List.getLast?_concat]; rfl, chars_nul k⟩
  free w hw p n := by
    refine free_of_few k ?_ ?_ hw p n
    · intro c hc
      rw [placeholder_eq, List.mem_cons, List.mem_append, List.mem_singleton] at hc
      rcases hc with rfl | hc | rfl
      · decide
      · have halnum := label_isAlphanum hc
        have hne : ∀ x : Char, x.isAlphanum = false → c ≠ x := by
          rintro x hx rfl
          rw [hx] at halnum
          cases halnum
        exact ⟨hne '@' (by decide), hne '.' (by decide), hne '-' (by decide)⟩
      · decide
    · have hlen : (Nat.repr index).toList.length ≤ 9 :=
        (Nat.length_repr_le_iff (by decide)).mpr h
      have hle : (Nat.repr index).toList.countP db.isDecimal ≤ 9 := List.countP_le_length.trans hlen
      have hnul : [nul].countP db.isDecimal = 0 := countP_plain db (by decide)
      have hword : "REF".toList.countP db.isDecimal = 0 := countP_plain db (by decide)
      have hsplit : placeholder index =
          [nul] ++ "REF".toList ++ (Nat.repr index).toList ++ [nul] := rfl
      rw [hsplit, List.countP_append, List.countP_append, List.countP_append, hnul, hword]
      omega

def Edged (db : Runtime) : Option Char → List Part → Prop
  | _, [] => True
  | _, .char x :: ps => Edged db (some x) ps
  | _, .block none _ :: ps => Edged db (some ']') ps
  | p, .block (some _) w :: ps =>
    holdsAt db.isWord p = false ∧ holdsAt db.isWord (render final ps).head? = false ∧
      Edged db (w.getLast?.or p) ps

theorem isWord_open : db.isWord '[' = false := by
  rw [isWord_ascii (by decide)]
  decide

theorem isWord_close : db.isWord ']' = false := by
  rw [isWord_ascii (by decide)]
  decide

theorem edged_pieces {c : Cursor Char} {ts : List (Token Char)} (n : ℕ)
    (h : Scans (businessRef db) c ts) : Edged db c.prev (pieces n ts) := by
  induction h generalizing n with
  | nil => trivial
  | char _ _ ih => exact ih n
  | @hit prev w rest ts _ hmatch hscan ih =>
    have hm := Regex.matches_of_matchAt (by rfl) hmatch
    have hedge := (refShape_of_matches hm).edge
    refine ⟨hedge.1, ?_, ih (n + 1)⟩
    rw [render_final_pieces, hscan.flatMap_text]
    exact hedge.2

theorem edged_map_char_append {p : Option Char} {w : List Char} {ps : List Part} :
    Edged db p (w.map .char ++ ps) ↔ Edged db (w.getLast?.or p) ps := by
  induction w generalizing p with
  | nil => exact Iff.rfl
  | cons x w ih =>
    rw [List.map_cons, List.cons_append, Edged, ih, getLast_cons_or]

theorem Edged.drop {p : Option Char} {ps qs : List Part} (h : Edged db p (ps ++ qs)) :
    Edged db ((render final ps).getLast?.or p) qs := by
  induction ps generalizing p with
  | nil => exact h
  | cons piece ps ih =>
    match piece with
    | .char x =>
      have hdrop := @ih (some x) h
      rwa [render_char, getLast_cons_or]
    | .block none v =>
      have hdrop := @ih (some ']') h
      simpa [final, List.getLast?_append, mask_getLast, Option.or_assoc] using hdrop
    | .block (some index) m =>
      have hdrop := ih h.2.2
      rwa [render_block, List.getLast?_append, Option.or_assoc]

private theorem isWord_head_targets {S : List (Step (Option ℕ) Char)}
    (h : holdsAt db.isWord (render final (sources S)).head? = false) :
    holdsAt db.isWord (render final (targets none S)).head? = false := by
  induction S with
  | nil => rfl
  | cons s S ih =>
    match s with
    | .hit w => exact isWord_open
    | .keep (.char x) => exact h
    | .keep (.block none w) => exact isWord_open
    | .keep (.block (some index) w) =>
      cases w with
      | nil => exact ih h
      | cons x w => exact h

private theorem edged_targets {p p' : Option Char} {S : List (Step (Option ℕ) Char)}
    (h : Edged db p (sources S))
    (hp : holdsAt db.isWord p = false → holdsAt db.isWord p' = false) :
    Edged db p' (targets none S) := by
  induction S generalizing p p' with
  | nil => trivial
  | cons s S ih =>
    match s with
    | .hit w => exact ih (edged_map_char_append.mp h) fun _ => isWord_close
    | .keep (.char x) => exact @ih (some x) _ h id
    | .keep (.block none w) => exact @ih (some ']') _ h id
    | .keep (.block (some index) w) =>
      obtain ⟨hprev, hnext, hrest⟩ := h
      refine ⟨hp hprev, isWord_head_targets hnext, ih hrest ?_⟩
      cases w.getLast? with
      | none => exact hp
      | some x => exact id

private theorem passes_induction {Inv : List Category → List Part → Prop} {ps : List Part}
    (hinert : ∀ w index, (w, index) ∈ refs ps → index < 10 ^ 9) (hstart : Inv [] ps)
    (hstep : ∀ done k rest S, categories = done ++ k :: rest →
      Substitutes (k.pattern db) face none S →
      (k.pattern db).scan (masked db done (render face ps)) = S.flatMap (Step.tokens face) →
      Inv done (sources S) → Inv (done ++ [k]) (targets none S)) :
    ∃ qs, masked db categories (render face ps) = render face qs ∧
      original qs = original ps ∧ refs qs = refs ps ∧ Inv categories qs := by
  have hrun : ∀ rest done : List Category, categories = done ++ rest → ∀ qs : List Part,
      masked db done (render face ps) = render face qs → original qs = original ps →
      refs qs = refs ps → Inv done qs →
      ∃ qs, masked db categories (render face ps) = render face qs ∧
        original qs = original ps ∧ refs qs = refs ps ∧ Inv categories qs := by
    intro rest
    induction rest with
    | nil =>
      intro done hdone qs hqs horiginal hrefs hinv
      rw [List.append_nil] at hdone
      subst hdone
      exact ⟨qs, hqs, horiginal, hrefs, hinv⟩
    | cons k rest ih =>
      intro done hdone qs hqs horiginal hrefs hinv
      have hblocks : ∀ kind w, Piece.block kind w ∈ qs → Inert (k.pattern db) (face kind w) := by
        intro kind w hmem
        cases kind with
        | none => exact inert_mask k
        | some index =>
          have hindex : (w, index) ∈ refs ps := hrefs ▸ mem_refs_iff.mpr hmem
          exact inert_placeholder k (hinert w index hindex)
      have hscan := scans_scan (k.proper db) (k.consumes db) (render face qs)
      obtain ⟨S, hS, rfl, htokens⟩ := exists_substitutes (k.proper db) hscan hblocks rfl
      have hface : ∀ w, face none w = mask := fun _ => rfl
      have hnext : masked db (done ++ [k]) (render face ps) = render face (targets none S) := by
        rw [masked_append, hqs, render_targets hface, ← htokens]
        exact Regex.sub_eq (k.pattern db) mask _
      rw [← hqs] at htokens
      exact ih (done ++ [k]) (by rw [hdone, List.append_assoc]; rfl) (targets none S) hnext
        (by rw [original_targets, horiginal]) (by rw [refs_targets, hrefs])
        (hstep done k rest S hdone hS htokens hinv)
  exact hrun categories [] rfl ps rfl rfl rfl hstart

def gap : List Part → List Char
  | [] => []
  | .char x :: ps => x :: gap ps
  | .block none _ :: ps => mask ++ gap ps
  | .block (some _) _ :: _ => []

def parts : List Part → List ((List Char × ℕ) × List Char)
  | [] => []
  | .char _ :: ps => parts ps
  | .block none _ :: ps => parts ps
  | .block (some index) w :: ps => ((w, index), gap ps) :: parts ps

theorem map_fst_parts (ps : List Part) : (parts ps).map Prod.fst = refs ps := by
  induction ps with
  | nil => rfl
  | cons piece ps ih =>
    match piece with
    | .char x => exact ih
    | .block none w => exact ih
    | .block (some index) w => exact congrArg ((w, index) :: ·) ih

def shielded (ps : List Part) : List (List Char × List Char) :=
  (parts ps).map fun part => (placeholder part.1.2, part.2)

private theorem weave_append_left (a gap : List Char) (rest : List (List Char × List Char)) :
    weave (a ++ gap) rest = a ++ weave gap rest := by
  cases rest with
  | nil => rfl
  | cons part rest => exact List.append_assoc _ _ _

private theorem render_eq_weave (ps : List Part) :
    render face ps = weave (gap ps) (shielded ps) := by
  induction ps with
  | nil => rfl
  | cons piece ps ih =>
    match piece with
    | .char x =>
      rw [render_char, ih]
      exact (weave_append_left [x] (gap ps) (shielded ps)).symm
    | .block none w =>
      rw [render_block, ih]
      exact (weave_append_left mask (gap ps) (shielded ps)).symm
    | .block (some index) w =>
      rw [render_block, ih]
      rfl

private theorem Edged.getLast_gap {p : Option Char} {ps : List Part} (h : Edged db p ps)
    (hps : shielded ps ≠ []) : holdsAt db.isWord ((gap ps).getLast?.or p) = false := by
  induction ps generalizing p with
  | nil => exact absurd rfl hps
  | cons piece ps ih =>
    match piece with
    | .char x =>
      have hlast := @ih (some x) h hps
      rwa [gap, getLast_cons_or]
    | .block none w =>
      have hlast := @ih (some ']') h hps
      rw [gap, List.getLast?_append, mask_getLast, Option.or_assoc]
      exact hlast
    | .block (some index) w => exact h.1

private theorem ClosedAfter.of_getLast {p : Option Char} {text : List Char}
    (h : holdsAt db.isWord (text.getLast?.or p) = false) : ClosedAfter text := by
  intro index hsuffix
  have hne : label index ≠ [] := by simp [label]
  have hlast : text.getLast? = some ((label index).getLast hne) := by
    obtain ⟨tail, rfl⟩ := hsuffix
    rw [List.getLast?_append, List.getLast?_cons, List.getLast?_eq_some_getLast hne]
    rfl
  rw [hlast, Option.some_or, holdsAt_some,
    isWord_of_isAlphanum (label_isAlphanum (List.getLast_mem hne))] at h
  cases h

private theorem prefix_gap (ps : List Part) : gap ps <+: render final ps := by
  induction ps with
  | nil => exact List.nil_prefix
  | cons piece ps ih =>
    match piece with
    | .char x => exact List.cons_prefix_cons.mpr ⟨rfl, ih⟩
    | .block none w => exact (List.prefix_append_right_inj mask).mpr ih
    | .block (some index) w => exact List.nil_prefix

private theorem ClosedBefore.of_head {text rest : List Char}
    (h : holdsAt db.isWord (text ++ rest).head? = false) : ClosedBefore text := by
  have hR : db.isWord 'R' = true := isWord_of_isAlphanum (by decide)
  have hhead : text.head? ≠ some 'R' := by
    intro hhead
    rw [List.head?_append, hhead, Option.some_or, holdsAt_some, hR] at h
    cases h
  intro index
  constructor
  · rintro rfl
    exact hhead (label_head index)
  · rintro ⟨tail, rfl⟩
    exact hhead (by rw [List.append_assoc, List.head?_append, label_head, Option.some_or])

private theorem Woven.with_gap {gap gap' : List Char} {rest : List (List Char × List Char)}
    (h : Woven gap rest) (hgap : rest ≠ [] → ClosedAfter gap') : Woven gap' rest := by
  cases h with
  | last => exact .last gap'
  | firm hfirm hrest => exact .firm hfirm hrest
  | shielded j _ hbefore hrest => exact .shielded j (hgap (by simp)) hbefore hrest

private theorem Edged.woven {p : Option Char} {ps : List Part} (h : Edged db p ps) :
    Woven (gap ps) (shielded ps) := by
  have hafter : shielded ps ≠ [] → ClosedAfter (gap ps) := fun hne =>
    ClosedAfter.of_getLast (h.getLast_gap hne)
  induction ps generalizing p with
  | nil => exact .last []
  | cons piece ps ih =>
    have hnext : ∀ {p : Option Char}, Edged db p ps → Woven (gap ps) (shielded ps) := fun hps =>
      ih hps fun hne => ClosedAfter.of_getLast (hps.getLast_gap hne)
    match piece with
    | .char x => exact (hnext (p := some x) h).with_gap hafter
    | .block none w => exact (hnext (p := some ']') h).with_gap hafter
    | .block (some index) w =>
      obtain ⟨-, hhead, hps⟩ := h
      have hbefore : ClosedBefore (gap ps) := by
        obtain ⟨rest, heq⟩ := prefix_gap ps
        rw [← heq] at hhead
        exact ClosedBefore.of_head hhead
      exact .shielded index (hafter (by simp [shielded, parts])) hbefore (hnext hps)

def spelled : List Part → List Part
  | [] => []
  | .char x :: ps => .char x :: spelled ps
  | .block none w :: ps => .block none w :: spelled ps
  | .block (some _) w :: ps => w.map .char ++ spelled ps

theorem render_spelled (ps : List Part) : render final (spelled ps) = render final ps := by
  induction ps with
  | nil => rfl
  | cons piece ps ih =>
    match piece with
    | .char x => exact congrArg (x :: ·) ih
    | .block none w => exact congrArg (mask ++ ·) ih
    | .block (some index) w => rw [spelled, render_append, render_map_char, ih]; rfl

theorem original_spelled (ps : List Part) : original (spelled ps) = original ps := by
  induction ps with
  | nil => rfl
  | cons piece ps ih =>
    match piece with
    | .char x => exact congrArg (x :: ·) ih
    | .block none w => exact congrArg (w ++ ·) ih
    | .block (some index) w => rw [spelled, original_append, original_map_char, ih]; rfl

theorem eq_none_of_mem_spelled {ps : List Part} {kind : Option ℕ} {w : List Char}
    (h : Piece.block kind w ∈ spelled ps) : kind = none := by
  induction ps with
  | nil => cases h
  | cons piece ps ih =>
    match piece with
    | .char x => exact ih (by simpa [spelled] using h)
    | .block none v =>
      rcases List.mem_cons.mp h with heq | hmem
      · cases heq
        rfl
      · exact ih hmem
    | .block (some index) v => exact ih (by simpa [spelled] using h)

theorem infix_original {w : List Char} (hne : w ≠ []) (hw : Avoids w mask) {ps : List Part}
    (h : w <:+: render final ps) : w <:+: original ps := by
  obtain ⟨a, b, heq⟩ := h
  rw [← render_spelled, List.append_assoc] at heq
  have hblocks : ∀ kind v, Piece.block kind v ∈ spelled ps → Avoids w (final kind v) := by
    intro kind v hmem
    rw [eq_none_of_mem_spelled hmem]
    exact hw
  obtain ⟨qs, rs, hsplit, -, -⟩ := exists_run hne hblocks heq.symm
  refine ⟨original qs, original rs, ?_⟩
  rw [← original_spelled ps, hsplit, original_append, original_append, original_map_char]

private theorem infix_part {ps : List Part} {part : (List Char × ℕ) × List Char}
    (h : part ∈ parts ps) :
    part.2 <:+: render final ps := by
  induction ps with
  | nil => cases h
  | cons piece ps ih =>
    match piece with
    | .char x => exact (ih h).trans (List.suffix_cons x _).isInfix
    | .block none w => exact (ih h).trans (List.suffix_append mask _).isInfix
    | .block (some index) w =>
      rcases List.mem_cons.mp h with rfl | hmem
      · exact (prefix_gap ps).isInfix.trans (List.suffix_append w _).isInfix
      · exact (ih hmem).trans (List.suffix_append w _).isInfix

theorem render_final_eq_weave (ps : List Part) :
    render final ps = weave (gap ps) ((parts ps).map fun part => (part.1.1, part.2)) := by
  induction ps with
  | nil => rfl
  | cons piece ps ih =>
    match piece with
    | .char x =>
      rw [render_char, ih]
      exact (weave_append_left [x] _ _).symm
    | .block none w =>
      rw [render_block, ih]
      exact (weave_append_left mask _ _).symm
    | .block (some index) w =>
      rw [render_block, ih]
      rfl

theorem chars_of_businessRef {x : Char} (h : (businessRef db).chars x = true) :
    letter x = true ∨ db.isSpace x = true ∨ db.isDecimal x = true ∨ x ∈ [':', '#', '.'] := by
  simp only [businessRef, chars_cat, List.any_cons, List.any_nil, Bool.or_false,
    Bool.or_eq_true] at h
  rcases h with h | h | h | h | h | h
  · cases h
  · exact .inl (keyword_letter h)
  · cases h
  · simp only [between, Regex.chars, chars_oneOf, chars_cat, opt, List.any_cons, List.any_nil,
      Bool.or_eq_true, Bool.or_false] at h
    rcases h with ((h | h) | h) | h | (h | h) | h
    · exact .inr (.inl h)
    · exact .inr (.inr (.inr (by simp [eq_of_beq h])))
    · exact .inr (.inr (.inr (by simp [eq_of_beq h])))
    · exact .inl (letter_of_word (by decide) h)
    · exact .inl (letter_of_word (by decide) h)
    · have hdot : x = '.' := by simpa [lit, cat, Regex.chars] using h
      exact .inr (.inr (.inr (by simp [hdot])))
    · exact .inl (letter_of_word (by decide) h)
  · exact .inr (.inr (.inl h))
  · cases h

theorem not_mem_of_businessRef {p n : Option Char} {w : List Char}
    (h : (businessRef db).Matches p w n) {c : Char} (hlow : c.toNat < 128)
    (hc : (letter c || asciiSpace c || c.isDigit || [':', '#', '.'].contains c) = false) :
    c ∉ w := by
  intro hmem
  have hchars := chars_of_businessRef (Regex.chars_of_matches h c hmem)
  rw [db.isSpace_ascii c hlow, db.isDecimal_ascii c hlow] at hchars
  simp only [Bool.or_eq_false_iff, List.contains_eq_mem, decide_eq_false_iff_not] at hc
  obtain ⟨⟨⟨hletter, hspace⟩, hdigit⟩, hother⟩ := hc
  rcases hchars with h | h | h | h
  · exact absurd h (by simp [hletter])
  · exact absurd h (by simp [hspace])
  · exact absurd h (by simp [hdigit])
  · exact hother h

theorem firm_of_matches {p n : Option Char} {w : List Char}
    (h : (businessRef db).Matches p w n) : Firm w := by
  constructor
  · exact not_mem_of_businessRef h (by decide) (by decide)
  · intro index hinner
    obtain ⟨x, hx, hword⟩ := (refShape_of_matches h).inner
    rw [isWord_of_isAlphanum (label_isAlphanum (hinner.subset hx))] at hword
    cases hword

/-- The references a text is shielded by. -/
def references (db : Runtime) (text : List Char) : List (List Char) :=
  (businessRef db).findAll text

theorem scans_references (db : Runtime) (text : List Char) :
    Scans (businessRef db) ⟨none, text⟩ ((businessRef db).scan text) :=
  scans_scan rfl rfl text

theorem exists_matches_of_mem {text ref : List Char} (h : ref ∈ references db text) :
    ∃ p n, (businessRef db).Matches p ref n :=
  ((scans_references db text).mem_hits rfl h).2

theorem firm_of_mem {text ref : List Char} (h : ref ∈ references db text) : Firm ref := by
  obtain ⟨p, n, hm⟩ := exists_matches_of_mem h
  exact firm_of_matches hm

theorem open_not_mem {text ref : List Char} (h : ref ∈ references db text) : '[' ∉ ref := by
  obtain ⟨p, n, hm⟩ := exists_matches_of_mem h
  exact not_mem_of_businessRef hm (by decide) (by decide)

theorem redactChars_eq_restore (db : Runtime) (text : List Char) : redactChars db text =
    restore 0 (references db text) (maskPii db (shieldBusinessRefs db text).1) :=
  unshieldBusinessRefs_eq _ _

def restored (saved : List (List Char)) (ps : List Part) : List Char :=
  weave (restore 0 saved (gap ps)) ((parts ps).map fun part => (part.1.1, restore 0 saved part.2))

theorem restore_render {saved : List (List Char)} {ps : List Part}
    (hsaved : ∀ ref ∈ saved, Firm ref) (hedged : Edged db none ps)
    (hrefs : refs ps = saved.zipIdx) :
    restore 0 saved (render face ps) = restored saved ps := by
  rw [render_eq_weave, restore_weave hsaved hedged.woven, restored, shielded, List.map_map]
  congr 1
  apply List.map_congr_left
  intro part hpart
  have hmem : part.1 ∈ refs ps := by
    rw [← map_fst_parts]
    exact List.mem_map_of_mem hpart
  rw [hrefs] at hmem
  have hplace : restore 0 saved (placeholder (0 + part.1.2)) = part.1.1 :=
    restore_placeholder hsaved (List.mem_zipIdx_iff_getElem?.mp hmem)
  rw [Nat.zero_add] at hplace
  exact Prod.ext hplace rfl

theorem not_mem_placeholder {c : Char} (hc : c.isAlphanum = false) (hne : c ≠ nul) (index : ℕ) :
    c ∉ placeholder index := by
  intro hmem
  rw [placeholder_eq, List.mem_cons, List.mem_append, List.mem_singleton] at hmem
  rcases hmem with h | h | h
  · exact hne h
  · rw [label_isAlphanum h] at hc
    cases hc
  · exact hne h

theorem avoids_placeholder (index : ℕ) : Avoids (placeholder index) mask where
  first := ⟨'[', rfl, not_mem_placeholder (by decide) (by decide) index⟩
  last := ⟨']', by decide, not_mem_placeholder (by decide) (by decide) index⟩
  free hin := by
    have hmem : nul ∈ mask := hin.subset (by simp [placeholder_eq])
    exact absurd hmem (by decide)

theorem restored_eq_render {saved : List (List Char)} {ps : List Part}
    (h : ∀ index < saved.length, ¬ placeholder index <:+: original ps) :
    restored saved ps = render final ps := by
  have hgap : ∀ g : List Char, g <:+: render final ps → restore 0 saved g = g := by
    intro g hg
    apply restore_eq_self
    intro index hindex hin
    rw [Nat.zero_add] at hin
    exact h index hindex (infix_original (placeholder_ne_nil index) (avoids_placeholder index)
      (hin.trans hg))
  rw [render_final_eq_weave, restored, hgap _ (prefix_gap ps).isInfix]
  congr 1
  apply List.map_congr_left
  intro part hpart
  rw [hgap part.2 (infix_part hpart)]

/-- The masked text is put together from pieces of the text in which the references are
untouched. -/
theorem exists_pieces {Inv : List Category → List Part → Prop} {text : List Char}
    (h : (references db text).length ≤ 10 ^ 9)
    (hstart : Inv [] (pieces 0 ((businessRef db).scan text)))
    (hstep : ∀ done k rest S, categories = done ++ k :: rest →
      Substitutes (k.pattern db) face none S →
      (k.pattern db).scan (masked db done (shieldBusinessRefs db text).1) =
        S.flatMap (Step.tokens face) →
      Inv done (sources S) → Inv (done ++ [k]) (targets none S)) :
    ∃ ps, maskPii db (shieldBusinessRefs db text).1 = render face ps ∧ original ps = text ∧
      refs ps = (references db text).zipIdx ∧ Edged db none ps ∧ Inv categories ps := by
  have hscan := scans_references db text
  have hrefs : refs (pieces 0 ((businessRef db).scan text)) = (references db text).zipIdx :=
    refs_pieces 0 _
  have hinert : ∀ w index, (w, index) ∈ refs (pieces 0 ((businessRef db).scan text)) →
      index < 10 ^ 9 := by
    intro w index hmem
    rw [hrefs] at hmem
    exact lt_of_lt_of_le (List.mem_zipIdx' hmem).1 h
  have hshield : render face (pieces 0 ((businessRef db).scan text)) =
      (shieldBusinessRefs db text).1 := render_pieces 0 _
  obtain ⟨ps, hps, horiginal, hsame, hedged, hinv⟩ := @passes_induction db
    (fun done ps => Edged db none ps ∧ Inv done ps) _ hinert ⟨edged_pieces 0 hscan, hstart⟩
    fun done k rest S hdone hS htokens hinv => ⟨edged_targets hinv.1 id,
      hstep done k rest S hdone hS (hshield ▸ htokens) hinv.2⟩
  refine ⟨ps, ?_, ?_, hsame.trans hrefs, hedged, hinv⟩
  · rw [maskPii_eq, ← hps, hshield]
  · rw [horiginal, original_pieces]
    exact hscan.flatMap_text

theorem redactChars_eq_restored {text : List Char} {ps : List Part}
    (hmasked : maskPii db (shieldBusinessRefs db text).1 = render face ps)
    (hrefs : refs ps = (references db text).zipIdx) (hedged : Edged db none ps) :
    redactChars db text = restored (references db text) ps := by
  rw [← restore_render (fun ref => firm_of_mem) hedged hrefs, ← hmasked]
  exact redactChars_eq_restore db text

end TicketWarden.Guardrails
