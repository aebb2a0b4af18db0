/- Module: TicketWarden/Patterns/Alphabet
   source: none (library)
   digest: Expressions whose classes agree on part of the alphabet match the same words
   over it. -/

import TicketWarden.Patterns.Scan

set_option autoImplicit false
set_option relaxedAutoImplicit false

namespace TicketWarden.Patterns

variable {α : Type} {S : α → Prop}

def Regex.Agree (S : α → Prop) : Regex α → Regex α → Prop
  | .empty, .empty => True
  | .cls p, .cls q => ∀ x, S x → p x = q x
  | .seq r s, .seq r' s' => r.Agree S r' ∧ s.Agree S s'
  | .alt r s, .alt r' s' => r.Agree S r' ∧ s.Agree S s'
  | .rep r lo extra greedy, .rep r' lo' extra' greedy' =>
    r.Agree S r' ∧ lo = lo' ∧ extra = extra' ∧ greedy = greedy'
  | .boundary p, .boundary q => ∀ x, S x → p x = q x
  | .notBehind p, .notBehind q => ∀ x, S x → p x = q x
  | .notAhead p, .notAhead q => ∀ x, S x → p x = q x
  | _, _ => False

@[simp] theorem Regex.agree_refl (r : Regex α) : r.Agree S r := by
  induction r with
  | empty => trivial
  | cls p | boundary p | notBehind p | notAhead p => exact fun _ _ => rfl
  | seq r s ihr ihs => exact ⟨ihr, ihs⟩
  | alt r s ihr ihs => exact ⟨ihr, ihs⟩
  | rep r lo extra greedy ih => exact ⟨ih, rfl, rfl, rfl⟩

/-- Languages that have the same words over some characters. -/
def Lang.AgreeOn (S : α → Prop) (L M : Lang α) : Prop :=
  ∀ ⦃p : Option α⦄ ⦃w : List α⦄ ⦃n : Option α⦄, (∀ x ∈ p, S x) → (∀ x ∈ w, S x) →
    (∀ x ∈ n, S x) → (L p w n ↔ M p w n)

theorem Lang.AgreeOn.seq {L M L' M' : Lang α} (hL : L.AgreeOn S L') (hM : M.AgreeOn S M') :
    (L.seq M).AgreeOn S (L'.seq M') := by
  have hparts : ∀ {p n : Option α} {u v : List α}, (∀ x ∈ p, S x) → (∀ x ∈ u ++ v, S x) →
      (∀ x ∈ n, S x) → ((L p u (v.head?.or n) ∧ M (u.getLast?.or p) v n) ↔
        (L' p u (v.head?.or n) ∧ M' (u.getLast?.or p) v n)) := by
    intro p n u v hp hw hn
    have hu : ∀ x ∈ u, S x := fun x hx => hw x (List.mem_append_left v hx)
    have hv : ∀ x ∈ v, S x := fun x hx => hw x (List.mem_append_right u hx)
    have hnext : ∀ x ∈ v.head?.or n, S x := by
      intro x hx
      rcases Option.or_eq_some_iff.mp hx with hx | ⟨-, hx⟩
      · exact hv x (List.mem_of_mem_head? hx)
      · exact hn x hx
    have hprev : ∀ x ∈ u.getLast?.or p, S x := by
      intro x hx
      rcases Option.or_eq_some_iff.mp hx with hx | ⟨-, hx⟩
      · exact hu x (List.mem_of_getLast? hx)
      · exact hp x hx
    exact and_congr (hL hp hu hnext) (hM hprev hv hn)
  intro p w n hp hw hn
  constructor
  · rintro ⟨u, v, rfl, h⟩
    exact ⟨u, v, rfl, (hparts hp hw hn).mp h⟩
  · rintro ⟨u, v, rfl, h⟩
    exact ⟨u, v, rfl, (hparts hp hw hn).mpr h⟩

theorem Lang.AgreeOn.pow {L M : Lang α} (h : L.AgreeOn S M) (n : ℕ) :
    (L.pow n).AgreeOn S (M.pow n) := by
  induction n with
  | zero => exact fun _ _ _ _ _ _ => Iff.rfl
  | succ n ih => exact h.seq ih

private theorem holdsAt_congr {p q : α → Bool} (h : ∀ x, S x → p x = q x) {o : Option α}
    (ho : ∀ x ∈ o, S x) : holdsAt p o = holdsAt q o := by
  cases o with
  | none => rfl
  | some x => exact h x (ho x rfl)

theorem Regex.Agree.matches {r r' : Regex α} (h : r.Agree S r') :
    r.Matches.AgreeOn S r'.Matches := by
  induction r generalizing r' with
  | empty =>
    cases r' <;> first | exact h.elim | exact fun _ _ _ _ _ _ => Iff.rfl
  | cls p =>
    cases r' <;> first | exact h.elim | skip
    intro _ w _ _ hw _
    refine exists_congr fun x => and_congr_right fun hx => ?_
    subst hx
    rw [h x (hw x (List.mem_singleton_self x))]
  | seq r s ihr ihs =>
    cases r' <;> first | exact h.elim | exact (ihr h.1).seq (ihs h.2)
  | alt r s ihr ihs =>
    cases r' <;> first | exact h.elim | skip
    intro _ _ _ hp hw hn
    exact or_congr (ihr h.1 hp hw hn) (ihs h.2 hp hw hn)
  | rep r lo extra greedy ih =>
    cases r' <;> first | exact h.elim | skip
    obtain ⟨hr, rfl, rfl, rfl⟩ := h
    intro _ _ _ hp hw hn
    exact exists_congr fun n => and_congr_right fun _ => and_congr_right fun _ =>
      (ih hr).pow n hp hw hn
  | boundary p =>
    cases r' <;> first | exact h.elim | skip
    intro _ _ _ hp _ hn
    simp only [Regex.Matches, holdsAt_congr h hp, holdsAt_congr h hn]
  | notBehind p =>
    cases r' <;> first | exact h.elim | skip
    intro _ _ _ hp _ _
    simp only [Regex.Matches, holdsAt_congr h hp]
  | notAhead p =>
    cases r' <;> first | exact h.elim | skip
    intro _ _ _ _ _ hn
    simp only [Regex.Matches, holdsAt_congr h hn]

/-- They are found in the same texts. -/
theorem Regex.Agree.search {r r' : Regex α} (h : r.Agree S r') (hr : r.proper = true)
    (hr' : r'.proper = true) {text : List α} (htext : ∀ x ∈ text, S x) :
    r.search text = r'.search text := by
  rw [Bool.eq_iff_iff, Regex.search_iff hr, Regex.search_iff hr']
  refine exists_congr fun a => exists_congr fun w => exists_congr fun b =>
    and_congr_right fun htext' => ?_
  subst htext'
  apply h.matches
  · exact fun x hx => htext x (by simp [List.mem_of_getLast? hx])
  · exact fun x hx => htext x (by simp [hx])
  · exact fun x hx => htext x (by simp [List.mem_of_mem_head? hx])

end TicketWarden.Patterns
