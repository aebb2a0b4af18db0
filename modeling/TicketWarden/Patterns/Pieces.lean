/- Module: TicketWarden/Patterns/Pieces
   source: none (library)
   digest: Texts some of whose words are shown as something else, and what one more
   substitution does to them. -/

import TicketWarden.Patterns.Hits

/-!
Substituting one expression after another gives texts that are made of characters of the
first text and of words written in place of others. When no later match can reach into
such a word, a substitution acts on the characters between them: every step of it keeps a
piece or replaces a run of characters.
-/

set_option autoImplicit false
set_option relaxedAutoImplicit false

namespace TicketWarden.Patterns

variable {α κ : Type}

/-- A character as it stands, or a word that something else is shown for. -/
inductive Piece (κ α : Type) where
  | char (x : α)
  | block (kind : κ) (w : List α)

/-- The text the pieces spell when a word is shown as `face` says. -/
def render (face : κ → List α → List α) : List (Piece κ α) → List α
  | [] => []
  | .char x :: ps => x :: render face ps
  | .block k w :: ps => face k w ++ render face ps

def original (ps : List (Piece κ α)) : List α := render (fun _ w => w) ps

section

variable (face : κ → List α → List α)

@[simp] theorem render_nil : render face [] = [] := rfl

@[simp] theorem render_char (x : α) (ps : List (Piece κ α)) :
    render face (.char x :: ps) = x :: render face ps := rfl

@[simp] theorem render_block (k : κ) (w : List α) (ps : List (Piece κ α)) :
    render face (.block k w :: ps) = face k w ++ render face ps := rfl

@[simp] theorem render_append (ps qs : List (Piece κ α)) :
    render face (ps ++ qs) = render face ps ++ render face qs := by
  induction ps with
  | nil => rfl
  | cons piece ps ih => cases piece <;> simp [ih]

@[simp] theorem render_map_char (w : List α) : render face (w.map .char) = w := by
  induction w with
  | nil => rfl
  | cons x w ih => simp [ih]

end

@[simp] theorem original_nil : original ([] : List (Piece κ α)) = [] := rfl

@[simp] theorem original_char (x : α) (ps : List (Piece κ α)) :
    original (.char x :: ps) = x :: original ps := rfl

@[simp] theorem original_block (k : κ) (w : List α) (ps : List (Piece κ α)) :
    original (.block k w :: ps) = w ++ original ps := rfl

@[simp] theorem original_append (ps qs : List (Piece κ α)) :
    original (ps ++ qs) = original ps ++ original qs := render_append _ ps qs

@[simp] theorem original_map_char (w : List α) :
    original (w.map .char : List (Piece κ α)) = w := render_map_char _ w

/-- A substitution keeps a piece or replaces a word. -/
inductive Step (κ α : Type) where
  | keep (piece : Piece κ α)
  | hit (w : List α)

def Step.source : Step κ α → List (Piece κ α)
  | .keep piece => [piece]
  | .hit w => w.map .char

def Step.target (kind : κ) : Step κ α → Piece κ α
  | .keep piece => piece
  | .hit w => .block kind w

def Step.tokens (face : κ → List α → List α) : Step κ α → List (Token α)
  | .keep (.char x) => [.char x]
  | .keep (.block k w) => (face k w).map .char
  | .hit w => [.hit w]

def sources (steps : List (Step κ α)) : List (Piece κ α) := steps.flatMap Step.source

def targets (kind : κ) (steps : List (Step κ α)) : List (Piece κ α) :=
  steps.map (Step.target kind)

@[simp] theorem sources_nil : sources ([] : List (Step κ α)) = [] := rfl

@[simp] theorem sources_cons (s : Step κ α) (steps : List (Step κ α)) :
    sources (s :: steps) = s.source ++ sources steps := rfl

@[simp] theorem sources_append (S T : List (Step κ α)) :
    sources (S ++ T) = sources S ++ sources T := List.flatMap_append

theorem original_targets (kind : κ) (steps : List (Step κ α)) :
    original (targets kind steps) = original (sources steps) := by
  induction steps with
  | nil => rfl
  | cons s steps ih =>
    rw [sources_cons, original_append, ← ih]
    cases s with
    | keep piece => cases piece <;> simp [targets, Step.target, Step.source]
    | hit w => simp [targets, Step.target, Step.source]

theorem render_targets {face : κ → List α → List α} {kind : κ} {mask : List α}
    (hface : ∀ w, face kind w = mask) (steps : List (Step κ α)) :
    render face (targets kind steps) =
      (steps.flatMap (Step.tokens face)).flatMap (Token.shown mask) := by
  induction steps with
  | nil => rfl
  | cons s steps ih =>
    rw [List.flatMap_cons, List.flatMap_append, ← ih]
    match s with
    | .keep (.char x) => rfl
    | .keep (.block k w) =>
      have hword : ((face k w).map Token.char).flatMap (Token.shown mask) = face k w := by
        rw [List.flatMap_map]
        exact List.flatMap_singleton' _
      exact congrArg (· ++ _) hword.symm
    | .hit w => simp [targets, Step.target, Step.tokens, Token.shown, hface]

/-- The steps of a scan: nothing matches at a character that is kept, and a word that is
replaced is matched between its neighbours. -/
inductive Substitutes (r : Regex α) (face : κ → List α → List α) :
    Option α → List (Step κ α) → Prop
  | nil (p : Option α) : Substitutes r face p []
  | char {p : Option α} {x : α} {S : List (Step κ α)} :
      (∀ w rest, x :: render face (sources S) = w ++ rest → ¬ r.Matches p w rest.head?) →
      Substitutes r face (some x) S → Substitutes r face p (.keep (.char x) :: S)
  | block {p : Option α} {k : κ} {w : List α} {S : List (Step κ α)} :
      Substitutes r face ((face k w).getLast?.or p) S →
      Substitutes r face p (.keep (.block k w) :: S)
  | hit {p : Option α} {w : List α} {S : List (Step κ α)} :
      w ≠ [] → r.Matches p w (render face (sources S)).head? →
      Substitutes r face (w.getLast?.or p) S → Substitutes r face p (.hit w :: S)

theorem Substitutes.drop {r : Regex α} {face : κ → List α → List α} {p : Option α}
    {S T : List (Step κ α)} (h : Substitutes r face p (S ++ T)) :
    Substitutes r face ((render face (sources S)).getLast?.or p) T := by
  induction S generalizing p with
  | nil => exact h
  | cons s S ih =>
    cases h with
    | char _ hrest => simpa [Step.source, getLast_cons_or] using ih hrest
    | block hrest => simpa [Step.source, List.getLast?_append, Option.or_assoc] using ih hrest
    | hit _ _ hrest => simpa [Step.source, List.getLast?_append, Option.or_assoc] using ih hrest

def kept (w : List α) : List (Step κ α) := w.map fun x => .keep (.char x)

@[simp] theorem sources_kept (w : List α) :
    sources (kept w : List (Step κ α)) = w.map .char := by
  induction w with
  | nil => rfl
  | cons x w ih => exact congrArg (.char x :: ·) ih

@[simp] theorem tokens_kept (face : κ → List α → List α) (w : List α) :
    (kept w : List (Step κ α)).flatMap (Step.tokens face) = w.map .char := by
  induction w with
  | nil => rfl
  | cons x w ih => exact congrArg (.char x :: ·) ih

theorem kept_append (u v : List α) : (kept (u ++ v) : List (Step κ α)) = kept u ++ kept v :=
  List.map_append

@[simp] theorem targets_append (kind : κ) (S T : List (Step κ α)) :
    targets kind (S ++ T) = targets kind S ++ targets kind T := List.map_append

@[simp] theorem targets_kept (kind : κ) (w : List α) :
    targets kind (kept w : List (Step κ α)) = w.map .char := by
  induction w with
  | nil => rfl
  | cons x w ih => exact congrArg (.char x :: ·) ih

theorem exists_kept {kind : κ} {S : List (Step κ α)} {qs rs : List (Piece κ α)} {w : List α}
    (h : targets kind S = qs ++ w.map .char ++ rs) :
    ∃ S₁ S₂, S = S₁ ++ kept w ++ S₂ ∧ qs = targets kind S₁ ∧ rs = targets kind S₂ := by
  obtain ⟨S', S₂, rfl, hleft, hright⟩ := List.map_eq_append_iff.mp h
  obtain ⟨S₁, Sw, rfl, hqs, hw⟩ := List.map_eq_append_iff.mp hleft
  refine ⟨S₁, S₂, ?_, hqs.symm, hright.symm⟩
  have hkept : ∀ (T : List (Step κ α)) (v : List α),
      T.map (Step.target kind) = v.map .char → T = kept v := by
    intro T
    induction T with
    | nil =>
      intro v hv
      rw [List.map_eq_nil_iff.mp hv.symm]
      rfl
    | cons s T ih =>
      intro v hv
      cases v with
      | nil => cases hv
      | cons x v =>
        obtain ⟨hs, hT⟩ := List.cons.inj hv
        rw [ih v hT]
        cases s with
        | keep piece => exact congrArg (Step.keep · :: kept v) hs
        | hit u => cases hs
  rw [hkept Sw w hw]

theorem Substitutes.not_matches {r : Regex α} (hc : r.consumes = true)
    {face : κ → List α → List α} {p : Option α} {S₁ S₂ : List (Step κ α)} {w : List α}
    (h : Substitutes r face p (S₁ ++ kept w ++ S₂)) :
    ¬ r.Matches ((render face (sources S₁)).getLast?.or p) w (render face (sources S₂)).head? := by
  intro hm
  cases w with
  | nil => exact Regex.not_matches_nil hc _ _ hm
  | cons x w =>
    rw [List.append_assoc] at h
    have hdrop := h.drop
    generalize (render face (sources S₁)).getLast?.or p = q at hm hdrop
    cases hdrop with
    | char hnone _ =>
      refine hnone (x :: w) (render face (sources S₂)) ?_ hm
      rw [show (List.map (fun x => Step.keep (Piece.char x)) w).append S₂ = kept w ++ S₂ from rfl,
        sources_append, sources_kept, render_append, render_map_char]
      rfl

section

variable {face : κ → List α → List α} {kind : κ}

theorem last_targets (hface : ∀ k w, face k w ≠ []) (S : List (Step κ α)) :
    (render face (targets kind S)).getLast? = (render face (sources S)).getLast? ∨
      ∃ T v, S = T ++ [.hit v] := by
  rcases List.eq_nil_or_concat S with rfl | ⟨T, s, rfl⟩
  · exact .inl rfl
  · rw [List.concat_eq_append]
    match s with
    | .hit v => exact .inr ⟨T, v, rfl⟩
    | .keep (.char x) =>
      left
      simp [targets, Step.target, Step.source]
    | .keep (.block k w) =>
      left
      have hlast : (face k w).getLast? = some ((face k w).getLast (hface k w)) :=
        List.getLast?_eq_some_getLast (hface k w)
      simp [targets, Step.target, Step.source, List.getLast?_append, hlast]

theorem head_targets (hface : ∀ k w, face k w ≠ []) (S : List (Step κ α)) :
    (render face (targets kind S)).head? = (render face (sources S)).head? ∨
      ∃ v T, S = .hit v :: T := by
  match S with
  | [] => exact .inl rfl
  | .hit v :: T => exact .inr ⟨v, T, rfl⟩
  | .keep (.char x) :: T => exact .inl rfl
  | .keep (.block k w) :: T =>
    left
    cases hw : face k w with
    | nil => exact absurd hw (hface k w)
    | cons x v => simp [targets, Step.target, Step.source, hw]

end

/-- A word that begins and ends with characters no match can contain, and has no match
inside. -/
structure Inert (r : Regex α) (s : List α) : Prop where
  first : ∃ x ∈ s.head?, r.chars x = false
  last : ∃ x ∈ s.getLast?, r.chars x = false
  free : ∀ w, w <:+: s → ∀ p n, ¬ r.Matches p w n

theorem Inert.not_matches {r : Regex α} {s u v : List α} (hs : Inert r s) (hsplit : s = u ++ v)
    (hv : v ≠ []) {p n : Option α} {w rest tail : List α} (heq : v ++ tail = w ++ rest) :
    ¬ r.Matches p w n := by
  intro hm
  rcases List.append_eq_append_iff.mp heq with ⟨w', rfl, -⟩ | ⟨v', rfl, -⟩
  · obtain ⟨x, hx, hforeign⟩ := hs.last
    have hlast : x ∈ v.getLast? := by
      rw [hsplit, List.getLast?_append] at hx
      cases hvl : v.getLast? with
      | none => exact absurd (List.getLast?_eq_none_iff.mp hvl) hv
      | some y => simpa [hvl] using hx
    have hmem : x ∈ v ++ w' := List.mem_append_left _ (List.mem_of_mem_getLast? hlast)
    exact Regex.not_mem_of_matches hforeign hm hmem
  · exact hs.free w ⟨u, v', by rw [hsplit, List.append_assoc]⟩ p n hm

theorem Scans.skip {r : Regex α} (hp : r.proper = true) {s : List α} (hs : Inert r s)
    {u v tail : List α} (hsplit : s = u ++ v) {p : Option α} {ts : List (Token α)}
    (h : Scans r ⟨p, v ++ tail⟩ ts) :
    ∃ ts', ts = v.map .char ++ ts' ∧ Scans r ⟨v.getLast?.or p, tail⟩ ts' := by
  induction v generalizing u p ts with
  | nil => exact ⟨ts, rfl, h⟩
  | cons x v ih =>
    generalize hc : (⟨p, x :: v ++ tail⟩ : Cursor α) = c at h
    cases h with
    | nil => cases hc
    | char _ hrest =>
      cases hc
      obtain ⟨ts', rfl, hts⟩ := ih (hsplit.trans (List.append_cons u x v)) hrest
      refine ⟨ts', rfl, ?_⟩
      rwa [getLast_cons_or]
    | @hit prev w rest ts hne hmatch _ =>
      obtain ⟨rfl, heq⟩ := Cursor.mk.inj hc
      have hm := Regex.matches_of_matchAt hp hmatch
      exact absurd hm (hs.not_matches hsplit (by simp) heq)

private theorem run_of_render {face : κ → List α → List α} {ps : List (Piece κ α)} {w rest : List α}
    (hps : ∀ k v, Piece.block k v ∈ ps → ∃ x ∈ (face k v).head?, x ∉ w)
    (heq : render face ps = w ++ rest) : ∃ qs, ps = w.map .char ++ qs ∧ rest = render face qs := by
  induction w generalizing ps with
  | nil => exact ⟨ps, rfl, heq.symm⟩
  | cons x w ih =>
    match ps with
    | [] => cases heq
    | .char y :: ps =>
      obtain ⟨rfl, htail⟩ := List.cons.inj heq
      obtain ⟨qs, rfl, hrest⟩ := ih (fun k v hk => by
        obtain ⟨z, hz, hnot⟩ := hps k v (List.mem_cons_of_mem _ hk)
        exact ⟨z, hz, fun hmem => hnot (List.mem_cons_of_mem y hmem)⟩) htail
      exact ⟨qs, rfl, hrest⟩
    | .block k s :: ps =>
      obtain ⟨y, hy, hnot⟩ := hps k s List.mem_cons_self
      have hxy : y = x := by
        have hhead := congrArg List.head? heq
        rw [render_block, List.head?_append, hy] at hhead
        simpa using hhead
      exact absurd (hxy ▸ List.mem_cons_self) hnot

/-- A word that does not reach into another. -/
structure Avoids (w s : List α) : Prop where
  first : ∃ x ∈ s.head?, x ∉ w
  last : ∃ x ∈ s.getLast?, x ∉ w
  free : ¬ w <:+: s

theorem Inert.avoids {r : Regex α} {s w : List α} (hs : Inert r s) {p n : Option α}
    (hm : r.Matches p w n) : Avoids w s := by
  constructor
  · obtain ⟨x, hx, hforeign⟩ := hs.first
    exact ⟨x, hx, Regex.not_mem_of_matches hforeign hm⟩
  · obtain ⟨x, hx, hforeign⟩ := hs.last
    exact ⟨x, hx, Regex.not_mem_of_matches hforeign hm⟩
  · exact fun hin => hs.free w hin p n hm

theorem exists_run {face : κ → List α → List α} {ps : List (Piece κ α)} {a w b : List α}
    (hw : w ≠ []) (hps : ∀ k v, Piece.block k v ∈ ps → Avoids w (face k v))
    (heq : render face ps = a ++ (w ++ b)) :
    ∃ qs rs, ps = qs ++ w.map .char ++ rs ∧ render face qs = a ∧ render face rs = b := by
  induction ps generalizing a with
  | nil =>
    obtain ⟨-, hwb⟩ := List.append_eq_nil_iff.mp heq.symm
    exact absurd (List.append_eq_nil_iff.mp hwb).1 hw
  | cons piece ps ih =>
    have hrest : ∀ k v, Piece.block k v ∈ ps → Avoids w (face k v) :=
      fun k v hk => hps k v (List.mem_cons_of_mem piece hk)
    have hskip : ∀ a', render face [piece] ++ a' = a → render face ps = a' ++ (w ++ b) →
        ∃ qs rs, piece :: ps = qs ++ w.map .char ++ rs ∧ render face qs = a ∧
          render face rs = b := by
      rintro a' rfl htail
      obtain ⟨qs, rs, rfl, rfl, hb⟩ := ih hrest htail
      refine ⟨piece :: qs, rs, rfl, ?_, hb⟩
      rw [← render_append]
      rfl
    cases piece with
    | char x =>
      cases a with
      | nil =>
        obtain ⟨qs, hqs, hb⟩ := run_of_render (fun k v hk => (hps k v hk).first) heq
        exact ⟨[], qs, hqs, rfl, hb.symm⟩
      | cons y a =>
        obtain ⟨rfl, htail⟩ := List.cons.inj heq
        exact hskip a rfl htail
    | block k s =>
      have hs : Avoids w (face k s) := hps k s List.mem_cons_self
      rw [render_block] at heq
      rcases List.append_eq_append_iff.mp heq with ⟨a', rfl, htail⟩ | ⟨s', hsplit, htail⟩
      · exact hskip a' (by simp) htail
      · cases s' with
        | nil => exact hskip [] (by simpa using hsplit) (by simpa using htail.symm)
        | cons y s' =>
          exfalso
          rcases List.append_eq_append_iff.mp htail with ⟨v, hv, -⟩ | ⟨v, rfl, -⟩
          · exact hs.free ⟨a, v, by rw [hsplit, hv, List.append_assoc]⟩
          · obtain ⟨x, hx, hnot⟩ := hs.last
            rw [hsplit, List.getLast?_append_of_ne_nil _ (List.cons_ne_nil y s')] at hx
            exact hnot (List.mem_append_left v (List.mem_of_mem_getLast? hx))

/-- Scanning what the pieces spell goes through the pieces step by step. -/
theorem exists_substitutes {r : Regex α} (hp : r.proper = true) {face : κ → List α → List α}
    {c : Cursor α} {ts : List (Token α)} (h : Scans r c ts) {ps : List (Piece κ α)}
    (hps : ∀ k w, Piece.block k w ∈ ps → Inert r (face k w)) (hrest : c.rest = render face ps) :
    ∃ S, Substitutes r face c.prev S ∧ sources S = ps ∧
      ts = S.flatMap (Step.tokens face) := by
  induction hn : ps.length using Nat.strongRecOn generalizing ps c ts with
  | _ n ih =>
    subst hn
    obtain ⟨p, rest⟩ := c
    subst hrest
    match ps, hps with
    | [], _ =>
      obtain rfl := h.of_nil
      exact ⟨[], .nil p, rfl, rfl⟩
    | .block k s :: ps, hps =>
      have hs : Inert r (face k s) := hps k s List.mem_cons_self
      obtain ⟨ts, rfl, hts⟩ := h.skip hp hs (u := []) rfl
      obtain ⟨S, hS, rfl, htokens⟩ := ih _ (Nat.lt_succ_self _) hts
        (fun k w hk => hps k w (List.mem_cons_of_mem _ hk)) rfl rfl
      refine ⟨.keep (.block k s) :: S, .block hS, rfl, ?_⟩
      rw [List.flatMap_cons, ← htokens]
      rfl
    | .char x :: ps, hps =>
      generalize hc : (⟨p, render face (.char x :: ps)⟩ : Cursor α) = c at h
      cases h with
      | nil => cases hc
      | char hnone hscan =>
        cases hc
        obtain ⟨S, hS, rfl, htokens⟩ := ih _ (Nat.lt_succ_self _) hscan
          (fun k w hk => hps k w (List.mem_cons_of_mem _ hk)) rfl rfl
        refine ⟨.keep (.char x) :: S, .char ?_ hS, rfl, ?_⟩
        · exact fun w rest heq => Regex.not_matches_of_matchAt hp hnone heq
        · rw [List.flatMap_cons, ← htokens]
          rfl
      | @hit prev w rest ts hne hmatch hscan =>
        obtain ⟨rfl, heq⟩ := Cursor.mk.inj hc
        have hm := Regex.matches_of_matchAt hp hmatch
        obtain ⟨qs, hqs, rfl⟩ := run_of_render (fun k v hk => ((hps k v hk).avoids hm).first) heq
        have hlen : qs.length < (Piece.char x :: ps).length := by
          have hpos : 0 < w.length := List.length_pos_iff.mpr hne
          rw [hqs, List.length_append, List.length_map]
          omega
        obtain ⟨S, hS, rfl, htokens⟩ := ih _ hlen hscan
          (fun k w hk => hps k w (hqs ▸ List.mem_append_right _ hk)) rfl rfl
        refine ⟨.hit w :: S, .hit hne hm hS, hqs.symm, ?_⟩
        rw [List.flatMap_cons, ← htokens]
        rfl

theorem Substitutes.matches_of_mem {r : Regex α} {face : κ → List α → List α} {p : Option α}
    {S : List (Step κ α)} {w : List α} (h : Substitutes r face p S) (hmem : .hit w ∈ S) :
    ∃ q n, r.Matches q w n := by
  obtain ⟨S₁, S₂, rfl⟩ := List.append_of_mem hmem
  have hdrop := h.drop
  cases hdrop with
  | hit _ hm _ => exact ⟨_, _, hm⟩

/-- The steps are cut where the pieces are, if no word that is replaced lies across. -/
theorem exists_cut {S : List (Step κ α)} {qs rs : List (Piece κ α)} (h : sources S = qs ++ rs)
    (hcut : ∀ u v, .hit (u ++ v) ∈ S → u ≠ [] → v ≠ [] → u.map .char <:+ qs →
      ¬ v.map .char <+: rs) :
    ∃ S₁ S₂, S = S₁ ++ S₂ ∧ sources S₁ = qs ∧ sources S₂ = rs := by
  induction S generalizing qs with
  | nil =>
    obtain ⟨rfl, rfl⟩ := List.append_eq_nil_iff.mp h.symm
    exact ⟨[], [], rfl, rfl, rfl⟩
  | cons s S ih =>
    have hskip : ∀ qs', s.source ++ qs' = qs → sources S = qs' ++ rs →
        ∃ S₁ S₂, s :: S = S₁ ++ S₂ ∧ sources S₁ = qs ∧ sources S₂ = rs := by
      rintro qs' rfl hrest
      obtain ⟨S₁, S₂, rfl, rfl, rfl⟩ := ih hrest fun u v hmem hu hv hsuffix =>
        hcut u v (List.mem_cons_of_mem s hmem) hu hv (hsuffix.trans (List.suffix_append _ _))
      exact ⟨s :: S₁, S₂, rfl, rfl, rfl⟩
    rcases List.append_eq_append_iff.mp h with ⟨qs', rfl, hrest⟩ | ⟨vs, hword, hrest⟩
    · exact hskip qs' rfl hrest
    · by_cases hqs : qs = []
      · subst hqs
        exact ⟨[], s :: S, rfl, rfl, h⟩
      · by_cases hvs : vs = []
        · subst hvs
          exact hskip [] (by simpa using hword) hrest.symm
        · exfalso
          cases s with
          | keep piece =>
            have hlen := congrArg List.length hword
            have hqlen : 0 < qs.length := List.length_pos_iff.mpr hqs
            have hvlen : 0 < vs.length := List.length_pos_iff.mpr hvs
            rw [List.length_append] at hlen
            simp only [Step.source, List.length_singleton] at hlen
            omega
          | hit w =>
            obtain ⟨u, v, rfl, rfl, rfl⟩ := List.map_eq_append_iff.mp hword
            refine hcut u v List.mem_cons_self ?_ ?_ (List.suffix_refl _) ⟨sources S, hrest.symm⟩
            · rintro rfl
              exact hqs rfl
            · rintro rfl
              exact hvs rfl

theorem Substitutes.exists_keeps {r : Regex α} {face : κ → List α → List α} {w : List α}
    (hw : ∀ u v, w = u ++ v → v ≠ [] → ∀ p x rest tail, v ++ tail = x ++ rest →
      ¬ r.Matches p x rest.head?) {p : Option α} {S : List (Step κ α)}
    {rs : List (Piece κ α)} (h : Substitutes r face p S) (heq : sources S = w.map .char ++ rs) :
    ∃ T, S = kept w ++ T ∧ sources T = rs := by
  induction w generalizing p S with
  | nil => exact ⟨S, rfl, heq⟩
  | cons y w ih =>
    have hrest : ∀ u v, w = u ++ v → v ≠ [] → ∀ p x rest tail, v ++ tail = x ++ rest →
        ¬ r.Matches p x rest.head? := fun u v hsplit => hw (y :: u) v (by rw [hsplit]; rfl)
    cases h with
    | nil => cases heq
    | char _ hS =>
      obtain ⟨hxy, htail⟩ := List.cons.inj heq
      cases hxy
      obtain ⟨T, rfl, hT⟩ := ih hrest hS htail
      exact ⟨T, rfl, hT⟩
    | block hS => cases heq
    | @hit _ x S _ hm _ =>
      refine absurd hm (hw [] (y :: w) rfl (List.cons_ne_nil y w) _ x (render face (sources S))
        (render face rs) ?_)
      have hshown := congrArg (render face) heq
      simpa [Step.source] using hshown.symm

theorem Inert.exists_kept {r : Regex α} {s : List α} (hs : Inert r s) {face : κ → List α → List α}
    {p : Option α} {S : List (Step κ α)} {qs rs : List (Piece κ α)} (h : Substitutes r face p S)
    (heq : sources S = qs ++ (s.map .char ++ rs)) :
    ∃ S₁ S₂, S = S₁ ++ (kept s ++ S₂) ∧ sources S₁ = qs ∧ sources S₂ = rs := by
  obtain ⟨x, hx, hforeign⟩ := hs.first
  have hcut : ∀ u v, Step.hit (u ++ v) ∈ S → u ≠ [] → v ≠ [] → u.map Piece.char <:+ qs →
      ¬ v.map Piece.char <+: s.map Piece.char ++ rs := by
    intro u v hmem _ hv _ hprefix
    obtain ⟨q, n, hm⟩ := h.matches_of_mem hmem
    refine Regex.not_mem_of_matches hforeign hm (List.mem_append_right u ?_)
    cases s with
    | nil => cases hx
    | cons y s =>
      obtain rfl : y = x := Option.some.inj hx
      cases v with
      | nil => exact absurd rfl hv
      | cons z v =>
        have hhead := (List.cons_prefix_cons.mp hprefix).1
        cases hhead
        exact List.mem_cons_self
  obtain ⟨S₁, S', rfl, hS₁, hS'⟩ := exists_cut heq hcut
  obtain ⟨S₂, rfl, hS₂⟩ := h.drop.exists_keeps
    (fun u v hsplit hv p w rest tail hw => hs.not_matches hsplit hv hw) hS'
  exact ⟨S₁, S₂, rfl, hS₁, hS₂⟩

theorem Inert.exists_tokens {r : Regex α} (hp : r.proper = true) {s : List α} (hs : Inert r s)
    {p : Option α} {a b : List α} {ts : List (Token α)} (h : Scans r ⟨p, a ++ (s ++ b)⟩ ts) :
    ∃ ts₁ ts₂, ts = ts₁ ++ (s.map .char ++ ts₂) := by
  let face : Empty → List α → List α := fun k => k.elim
  have hrest : a ++ (s ++ b) = render face (a.map .char ++ (s.map .char ++ b.map .char)) := by
    simp
  obtain ⟨S, hS, hsources, rfl⟩ := exists_substitutes hp h (fun k => k.elim) hrest
  obtain ⟨S₁, S₂, rfl, -, -⟩ := hs.exists_kept hS hsources
  exact ⟨S₁.flatMap (Step.tokens face), S₂.flatMap (Step.tokens face), by simp⟩

end TicketWarden.Patterns
