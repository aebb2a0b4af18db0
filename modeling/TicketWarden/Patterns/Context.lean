/- Module: TicketWarden/Patterns/Context
   source: none (library)
   digest: What a match depends on outside itself, which characters it cannot contain and
   which it can start and end with. -/

import TicketWarden.Patterns.Scan

set_option autoImplicit false
set_option relaxedAutoImplicit false

namespace TicketWarden.Patterns

variable {α : Type}

namespace Regex

def chars : Regex α → α → Bool
  | .cls p, x => p x
  | .seq r s, x => r.chars x || s.chars x
  | .alt r s, x => r.chars x || s.chars x
  | .rep r _ _ _, x => r.chars x
  | .empty, _ | .boundary _, _ | .notBehind _, _ | .notAhead _, _ => false

def Alike : Regex α → Option α → Option α → Prop
  | .boundary p, x, y | .notBehind p, x, y | .notAhead p, x, y => holdsAt p x = holdsAt p y
  | .seq r s, x, y => r.Alike x y ∧ s.Alike x y
  | .alt r s, x, y => r.Alike x y ∧ s.Alike x y
  | .rep r _ _ _, x, y => r.Alike x y
  | .empty, _, _ | .cls _, _, _ => True

def testsBefore : Regex α → Bool
  | .boundary _ | .notBehind _ => true
  | .seq r s => r.testsBefore || (!r.consumes && s.testsBefore)
  | .alt r s => r.testsBefore || s.testsBefore
  | .rep r _ _ _ => r.testsBefore
  | .empty | .cls _ | .notAhead _ => false

def testsAfter : Regex α → Bool
  | .boundary _ | .notAhead _ => true
  | .seq r s => s.testsAfter || (!s.consumes && r.testsAfter)
  | .alt r s => r.testsAfter || s.testsAfter
  | .rep r _ _ _ => r.testsAfter
  | .empty | .cls _ | .notBehind _ => false

def first : Regex α → α → Bool
  | .cls p, x => p x
  | .seq r s, x => r.first x || (!r.consumes && s.first x)
  | .alt r s, x => r.first x || s.first x
  | .rep r _ _ _, x => r.first x
  | .empty, _ | .boundary _, _ | .notBehind _, _ | .notAhead _, _ => false

def last : Regex α → α → Bool
  | .cls p, x => p x
  | .seq r s, x => s.last x || (!s.consumes && r.last x)
  | .alt r s, x => r.last x || s.last x
  | .rep r _ _ _, x => r.last x
  | .empty, _ | .boundary _, _ | .notBehind _, _ | .notAhead _, _ => false

end Regex

theorem Regex.alike_refl (r : Regex α) (x : Option α) : r.Alike x x := by
  induction r with
  | seq r s ihr ihs => exact ⟨ihr, ihs⟩
  | alt r s ihr ihs => exact ⟨ihr, ihs⟩
  | rep r _ _ _ ih => exact ih
  | empty | cls => trivial
  | boundary | notBehind | notAhead => rfl

private theorem consumes_of_matches_nil {r : Regex α} {p n : Option α}
    (h : r.Matches p [] n) : r.consumes = false := by
  by_contra hc
  exact Regex.not_matches_nil (Bool.not_eq_false _ ▸ hc) _ _ h

private theorem pow_congr_tested {r : Regex α} {m : ℕ} {p p' n n' : Option α} {w : List α}
    (hround : ∀ {p p' n n' : Option α} {w : List α}, r.Matches p w n →
      (r.testsBefore = true → r.Alike p p') → (r.testsAfter = true → r.Alike n n') →
      r.Matches p' w n')
    (h : r.Matches.pow m p w n) (hp : r.testsBefore = true → r.Alike p p')
    (hn : r.testsAfter = true → r.Alike n n') : r.Matches.pow m p' w n' := by
  induction m generalizing p p' w with
  | zero => exact h
  | succ m ih =>
    obtain ⟨u, v, rfl, hu, hv⟩ := h
    refine ⟨u, v, rfl, hround hu hp ?_, ih hv ?_⟩
    · cases v with
      | nil => exact hn
      | cons x v => exact fun _ => r.alike_refl _
    · cases hlast : u.getLast? with
      | none => exact hp
      | some x => exact fun _ => r.alike_refl _

/-- Neighbours may be exchanged for any others where no assertion looks at them. -/
theorem Regex.Matches.congr_tested {r : Regex α} {p p' n n' : Option α} {w : List α}
    (h : r.Matches p w n) (hp : r.testsBefore = true → r.Alike p p')
    (hn : r.testsAfter = true → r.Alike n n') : r.Matches p' w n' := by
  induction r generalizing p p' n n' w with
  | empty => exact h
  | cls q => exact h
  | seq r s ihr ihs =>
    obtain ⟨u, v, rfl, hu, hv⟩ := h
    refine ⟨u, v, rfl, ihr hu ?_ ?_, ihs hv ?_ ?_⟩
    · intro htests
      exact (hp (by simp [Regex.testsBefore, htests])).1
    · intro htests
      cases v with
      | nil => exact (hn (by simp [Regex.testsAfter, consumes_of_matches_nil hv, htests])).1
      | cons x v => exact r.alike_refl _
    · intro htests
      cases hlast : u.getLast? with
      | none =>
        obtain rfl := List.getLast?_eq_none_iff.mp hlast
        exact (hp (by simp [Regex.testsBefore, consumes_of_matches_nil hu, htests])).2
      | some x => exact s.alike_refl _
    · intro htests
      exact (hn (by simp [Regex.testsAfter, htests])).2
  | alt r s ihr ihs =>
    rcases h with h | h
    · left
      exact ihr h (fun ht => (hp (by simp [Regex.testsBefore, ht])).1)
        fun ht => (hn (by simp [Regex.testsAfter, ht])).1
    · right
      exact ihs h (fun ht => (hp (by simp [Regex.testsBefore, ht])).2)
        fun ht => (hn (by simp [Regex.testsAfter, ht])).2
  | rep r lo extra greedy ih =>
    obtain ⟨m, hlo, hextra, hm⟩ := h
    exact ⟨m, hlo, hextra, pow_congr_tested ih hm hp hn⟩
  | boundary q =>
    have hp' : holdsAt q p = holdsAt q p' := hp rfl
    have hn' : holdsAt q n = holdsAt q n' := hn rfl
    exact ⟨h.1, hp' ▸ hn' ▸ h.2⟩
  | notBehind q =>
    have hp' : holdsAt q p = holdsAt q p' := hp rfl
    exact ⟨h.1, hp' ▸ h.2⟩
  | notAhead q =>
    have hn' : holdsAt q n = holdsAt q n' := hn rfl
    exact ⟨h.1, hn' ▸ h.2⟩

theorem Regex.Matches.congr {r : Regex α} {p p' n n' : Option α} {w : List α}
    (h : r.Matches p w n) (hp : r.Alike p p') (hn : r.Alike n n') : r.Matches p' w n' :=
  h.congr_tested (fun _ => hp) fun _ => hn

theorem Regex.search_of_surrounded {r : Regex α} (hr : r.proper = true) {x y : α}
    (hx : r.Alike none (some x)) (hy : r.Alike none (some y)) {text : List α}
    (before after : List α)
    (h : r.search text = true) : r.search (before ++ x :: text ++ y :: after) = true := by
  obtain ⟨a, w, b, rfl, hm⟩ := (Regex.search_iff hr text).mp h
  refine (Regex.search_iff hr _).mpr ⟨before ++ x :: a, w, b ++ y :: after, by simp, ?_⟩
  apply hm.congr
  · cases hlast : a.getLast? with
    | none => simpa [List.getLast?_append, List.getLast?_cons, hlast] using hx
    | some z => simpa [List.getLast?_append, List.getLast?_cons, hlast] using r.alike_refl _
  · cases b with
    | nil => exact hy
    | cons z b => exact r.alike_refl _

theorem Regex.chars_of_matches {r : Regex α} {p n : Option α} {w : List α}
    (h : r.Matches p w n) : ∀ x ∈ w, r.chars x = true := by
  induction r generalizing p n w with
  | empty =>
    obtain rfl := h
    simp
  | cls q =>
    obtain ⟨x, rfl, hx⟩ := h
    intro y hy
    obtain rfl := List.mem_singleton.mp hy
    exact hx
  | seq r s ihr ihs =>
    obtain ⟨u, v, rfl, hu, hv⟩ := h
    intro x hx
    rcases List.mem_append.mp hx with hx | hx
    · exact Bool.or_eq_true_iff.mpr (.inl (ihr hu x hx))
    · exact Bool.or_eq_true_iff.mpr (.inr (ihs hv x hx))
  | alt r s ihr ihs =>
    intro x hx
    rcases h with h | h
    · exact Bool.or_eq_true_iff.mpr (.inl (ihr h x hx))
    · exact Bool.or_eq_true_iff.mpr (.inr (ihs h x hx))
  | rep r lo extra greedy ih =>
    obtain ⟨m, -, -, hm⟩ := h
    induction m generalizing p w with
    | zero =>
      obtain rfl := hm
      simp
    | succ m ihm =>
      obtain ⟨u, v, rfl, hu, hv⟩ := hm
      intro x hx
      rcases List.mem_append.mp hx with hx | hx
      · exact ih hu x hx
      · exact ihm hv x hx
  | boundary q =>
    obtain ⟨rfl, -⟩ := h
    simp
  | notBehind q =>
    obtain ⟨rfl, -⟩ := h
    simp
  | notAhead q =>
    obtain ⟨rfl, -⟩ := h
    simp

theorem Regex.first_of_matches {r : Regex α} {p n : Option α} {x : α} {w : List α}
    (h : r.Matches p (x :: w) n) : r.first x = true := by
  induction r generalizing p n w with
  | empty => cases h
  | cls q =>
    obtain ⟨y, heq, hy⟩ := h
    obtain ⟨rfl, -⟩ := List.cons_eq_cons.mp heq
    exact hy
  | seq r s ihr ihs =>
    obtain ⟨u, v, heq, hu, hv⟩ := h
    cases u with
    | nil =>
      obtain rfl : x :: w = v := heq
      have hnull : r.consumes = false := by
        by_contra hc
        exact Regex.not_matches_nil (Bool.not_eq_false _ ▸ hc) _ _ hu
      have hs := ihs hv
      simp [Regex.first, hnull, hs]
    | cons y u =>
      obtain ⟨rfl, -⟩ := List.cons_eq_cons.mp heq
      have hr := ihr hu
      simp [Regex.first, hr]
  | alt r s ihr ihs =>
    rcases h with h | h
    · have hr := ihr h
      simp [Regex.first, hr]
    · have hs := ihs h
      simp [Regex.first, hs]
  | rep r lo extra greedy ih =>
    obtain ⟨m, -, -, hm⟩ := h
    induction m generalizing p with
    | zero => cases hm
    | succ m ihm =>
      obtain ⟨u, v, heq, hu, hv⟩ := hm
      cases u with
      | nil =>
        obtain rfl : x :: w = v := heq
        exact ihm hv
      | cons y u =>
        obtain ⟨rfl, -⟩ := List.cons_eq_cons.mp heq
        exact ih hu
  | boundary q => cases h.1
  | notBehind q => cases h.1
  | notAhead q => cases h.1

theorem Regex.last_of_matches {r : Regex α} {p n : Option α} {x : α} {w : List α}
    (h : r.Matches p (w ++ [x]) n) : r.last x = true := by
  induction r generalizing p n w with
  | empty => exact absurd h (by simp [Regex.Matches])
  | cls q =>
    obtain ⟨y, heq, hy⟩ := h
    obtain ⟨-, hxy⟩ := List.append_inj' (heq.trans (List.nil_append [y]).symm) rfl
    obtain rfl := List.singleton_inj.mp hxy
    exact hy
  | seq r s ihr ihs =>
    obtain ⟨u, v, heq, hu, hv⟩ := h
    rcases List.eq_nil_or_concat v with rfl | ⟨v, y, rfl⟩
    · rw [List.append_nil] at heq
      subst heq
      have hnull : s.consumes = false := by
        by_contra hc
        exact Regex.not_matches_nil (Bool.not_eq_false _ ▸ hc) _ _ hv
      have hr := ihr hu
      simp [Regex.last, hnull, hr]
    · rw [List.concat_eq_append] at heq hv
      rw [← List.append_assoc] at heq
      obtain ⟨-, hxy⟩ := List.append_inj' heq rfl
      obtain rfl := List.singleton_inj.mp hxy
      have hs := ihs hv
      simp [Regex.last, hs]
  | alt r s ihr ihs =>
    rcases h with h | h
    · have hr := ihr h
      simp [Regex.last, hr]
    · have hs := ihs h
      simp [Regex.last, hs]
  | rep r lo extra greedy ih =>
    obtain ⟨m, -, -, hm⟩ := h
    induction m generalizing p w with
    | zero => exact absurd hm (by simp [Lang.pow])
    | succ m ihm =>
      obtain ⟨u, v, heq, hu, hv⟩ := hm
      rcases List.eq_nil_or_concat v with rfl | ⟨v, y, rfl⟩
      · rw [List.append_nil] at heq
        subst heq
        exact ih hu
      · rw [List.concat_eq_append] at heq hv
        rw [← List.append_assoc] at heq
        obtain ⟨-, hxy⟩ := List.append_inj' heq rfl
        obtain rfl := List.singleton_inj.mp hxy
        exact ihm hv
  | boundary q => exact absurd h.1 (by simp)
  | notBehind q => exact absurd h.1 (by simp)
  | notAhead q => exact absurd h.1 (by simp)

private theorem Lang.seq_assoc (L M N : Lang α) : (L.seq M).seq N = L.seq (M.seq N) := by
  funext p w n
  apply propext
  constructor
  · rintro ⟨u, v, rfl, ⟨u₁, u₂, rfl, h₁, h₂⟩, hv⟩
    refine ⟨u₁, u₂ ++ v, List.append_assoc _ _ _, ?_, u₂, v, rfl, h₂, ?_⟩
    · simpa [List.head?_append, Option.or_assoc] using h₁
    · simpa [List.getLast?_append, Option.or_assoc] using hv
  · rintro ⟨u₁, v, rfl, h₁, u₂, v, rfl, h₂, h₃⟩
    refine ⟨u₁ ++ u₂, v, (List.append_assoc _ _ _).symm, ⟨u₁, u₂, rfl, ?_, h₂⟩, ?_⟩
    · simpa [List.head?_append, Option.or_assoc] using h₁
    · simpa [List.getLast?_append, Option.or_assoc] using h₃

theorem Regex.matches_seq_assoc (r s t : Regex α) :
    (Regex.seq (.seq r s) t).Matches = (Regex.seq r (.seq s t)).Matches :=
  Lang.seq_assoc r.Matches s.Matches t.Matches

theorem Regex.matches_optional_seq_iff {r s : Regex α} {greedy : Bool} {p n : Option α}
    {w : List α} : (Regex.seq (.rep r 0 (some 1) greedy) s).Matches p w n ↔
      s.Matches p w n ∨ (Regex.seq r s).Matches p w n := by
  constructor
  · rintro ⟨u, v, rfl, ⟨m, -, hm, hu⟩, hv⟩
    have hle : m ≤ 1 := by simpa using hm 1 rfl
    match m, hle with
    | 0, _ =>
      obtain rfl : u = [] := hu
      exact .inl hv
    | 1, _ =>
      obtain ⟨u, u', rfl, hu, rfl⟩ := hu
      rw [List.append_nil] at hv ⊢
      exact .inr ⟨u, v, rfl, hu, hv⟩
  · rintro (hs | ⟨u, v, rfl, hu, hv⟩)
    · exact ⟨[], w, rfl, ⟨0, Nat.le_refl 0, by simp, rfl⟩, hs⟩
    · exact ⟨u, v, rfl, ⟨1, by omega, by simp, u, [], (List.append_nil u).symm, hu, rfl⟩, hv⟩

/-- A language that, whatever the neighbours, has each of its words without the characters of
a kind too. -/
def Lang.Erases (L : Lang α) (q : α → Bool) : Prop :=
  ∀ ⦃p n p' n' : Option α⦄ ⦃w : List α⦄, L p w n → L p' (w.filter fun x => !q x) n'

theorem Lang.Erases.seq {L M : Lang α} {q : α → Bool} (hL : L.Erases q) (hM : M.Erases q) :
    (L.seq M).Erases q := by
  intro p n p' n' w h
  obtain ⟨u, v, rfl, hu, hv⟩ := h
  exact ⟨_, _, List.filter_append u v, hL hu, hM hv⟩

theorem Regex.filter_of_chars {r : Regex α} {q : α → Bool}
    (hq : ∀ x, q x = true → r.chars x = false) {p n : Option α} {w : List α}
    (h : r.Matches p w n) : (w.filter fun x => !q x) = w := by
  rw [List.filter_eq_self]
  intro x hx
  have hchars := Regex.chars_of_matches h x hx
  cases hqx : q x with
  | false => rfl
  | true => rw [hq x hqx] at hchars; cases hchars

theorem Regex.erases_of_chars {r : Regex α} {q : α → Bool} (halike : ∀ x y, r.Alike x y)
    (hq : ∀ x, q x = true → r.chars x = false) : r.Matches.Erases q := by
  intro p n p' n' w h
  rw [Regex.filter_of_chars hq h]
  exact h.congr (halike p p') (halike n n')

theorem Regex.matches_run_iff {q : α → Bool} {lo : ℕ} {greedy : Bool} {p n : Option α}
    {w : List α} : (Regex.rep (.cls q) lo none greedy).Matches p w n ↔
      lo ≤ w.length ∧ ∀ x ∈ w, q x = true := by
  have hpow : ∀ m p w, (Regex.cls q).Matches.pow m p w n ↔
      m = w.length ∧ ∀ x ∈ w, q x = true := by
    intro m
    induction m with
    | zero =>
      intro p w
      constructor
      · rintro rfl
        simp
      · rintro ⟨hlen, -⟩
        exact List.length_eq_zero_iff.mp hlen.symm
    | succ m ih =>
      intro p w
      constructor
      · rintro ⟨u, v, rfl, ⟨x, rfl, hx⟩, hv⟩
        obtain ⟨rfl, hall⟩ := (ih _ _).mp hv
        simpa [hx] using hall
      · rintro ⟨hlen, hall⟩
        cases w with
        | nil => cases hlen
        | cons x w =>
          refine ⟨[x], w, rfl, ⟨x, rfl, hall x List.mem_cons_self⟩, (ih _ _).mpr ⟨?_, ?_⟩⟩
          · simpa using hlen
          · exact fun y hy => hall y (List.mem_cons_of_mem x hy)
  constructor
  · rintro ⟨m, hlo, -, hm⟩
    obtain ⟨rfl, hall⟩ := (hpow m p w).mp hm
    exact ⟨hlo, hall⟩
  · rintro ⟨hlo, hall⟩
    exact ⟨w.length, hlo, by simp, (hpow _ p w).mpr ⟨rfl, hall⟩⟩

/-- The last part of a sequence. -/
def Regex.final : Regex α → Regex α
  | .seq _ s => s.final
  | r => r

theorem Regex.final_matches {r : Regex α} {p n : Option α} {w : List α}
    (h : r.Matches p w n) :
    ∃ u v, w = u ++ v ∧ r.final.Matches (u.getLast?.or p) v n := by
  induction r generalizing p w with
  | seq r s _ ihs =>
    obtain ⟨u, v, rfl, -, hv⟩ := h
    obtain ⟨u', v', rfl, hfinal⟩ := ihs hv
    refine ⟨u ++ u', v', (List.append_assoc u u' v').symm, ?_⟩
    rwa [List.getLast?_append, Option.or_assoc]
  | empty | cls | alt | rep | boundary | notBehind | notAhead => exact ⟨[], w, rfl, h⟩

theorem Regex.boundary_of_matches {q : α → Bool} {r : Regex α} {p n : Option α} {x : α}
    {w : List α} (h : (Regex.seq (.boundary q) r).Matches p (x :: w) n) :
    holdsAt q p ≠ q x ∧ r.Matches p (x :: w) n := by
  obtain ⟨u, v, heq, ⟨rfl, hne⟩, hv⟩ := h
  obtain rfl : x :: w = v := heq
  exact ⟨hne, hv⟩

theorem Regex.boundary_of_matches_final {q : α → Bool} {r : Regex α} {p n : Option α} {x : α}
    {w : List α} (hr : r.final = .boundary q) (h : r.Matches p (w ++ [x]) n) :
    q x ≠ holdsAt q n := by
  obtain ⟨u, v, heq, hfinal⟩ := Regex.final_matches h
  rw [hr] at hfinal
  obtain ⟨rfl, hne⟩ := hfinal
  rw [List.append_nil] at heq
  subst heq
  simpa using hne

end TicketWarden.Patterns
