/- Module: TicketWarden/Effects/Interleaving
   source: none (library)
   digest: Programs run side by side; what holds of each program's own trace adds up
   over any interleaving of them. -/

import Mathlib.Algebra.BigOperators.Group.Finset.Piecewise
import Mathlib.Algebra.Order.BigOperators.Group.Finset
import Mathlib.Data.Fintype.Basic
import TicketWarden.Effects.Rules

set_option autoImplicit false
set_option relaxedAutoImplicit false

namespace TicketWarden.Effects

variable {ι : Type} [DecidableEq ι] {S : Signature} {ε α : Type}

/-- `Interleaves pool tr pool'`: the programs of `pool`, each performing one operation
at a time in any order, have performed the operations of `tr` and become `pool'`. -/
inductive Interleaves : (ι → Program S ε α) → List (ι × Event S) → (ι → Program S ε α) → Prop
  | refl (pool : ι → Program S ε α) : Interleaves pool [] pool
  | step {pool pool' : ι → Program S ε α} {i : ι} {o : S.Op} {k : S.Reply o → Program S ε α}
      (r : S.Reply o) {tr : List (ι × Event S)} :
      pool i = .call o k → Interleaves (Function.update pool i (k r)) tr pool' →
      Interleaves pool ((i, ⟨o, r⟩) :: tr) pool'

def ownTrace (i : ι) (tr : List (ι × Event S)) : List (Event S) :=
  (tr.filter fun e => e.1 = i).map Prod.snd

@[simp] theorem ownTrace_nil (i : ι) : ownTrace i ([] : List (ι × Event S)) = [] := rfl

@[simp] theorem ownTrace_append (i : ι) (tr₁ tr₂ : List (ι × Event S)) :
    ownTrace i (tr₁ ++ tr₂) = ownTrace i tr₁ ++ ownTrace i tr₂ := by
  simp [ownTrace]

theorem ownTrace_cons_self (i : ι) (e : Event S) (tr : List (ι × Event S)) :
    ownTrace i ((i, e) :: tr) = e :: ownTrace i tr := by
  simp [ownTrace]

theorem ownTrace_cons_ne {i j : ι} (h : j ≠ i) (e : Event S) (tr : List (ι × Event S)) :
    ownTrace i ((j, e) :: tr) = ownTrace i tr := by
  simp [ownTrace, h]

theorem mem_ownTrace {i : ι} {e : Event S} {tr : List (ι × Event S)} :
    e ∈ ownTrace i tr ↔ (i, e) ∈ tr := by
  constructor
  · intro h
    obtain ⟨⟨j, e'⟩, hmem, rfl⟩ := List.mem_map.mp h
    obtain ⟨hmem, hj⟩ := List.mem_filter.mp hmem
    have hij : j = i := by simpa using hj
    exact hij ▸ hmem
  · intro h
    exact List.mem_map.mpr ⟨(i, e), List.mem_filter.mpr ⟨h, by simp⟩, rfl⟩

/-- Within any interleaving each program does what it could do alone. -/
theorem Interleaves.steps {pool pool' : ι → Program S ε α} {tr : List (ι × Event S)}
    (h : Interleaves pool tr pool') (i : ι) : Steps (pool i) (ownTrace i tr) (pool' i) := by
  induction h with
  | refl pool => exact .refl (pool i)
  | @step pool pool' j o k r tr hj _ ih =>
    by_cases hij : j = i
    · subst hij
      rw [ownTrace_cons_self, hj]
      rw [Function.update_self] at ih
      exact .call r ih
    · rw [ownTrace_cons_ne hij]
      rwa [Function.update_of_ne (Ne.symm hij)] at ih

/-- What has happened at some moment of an interleaving is itself an interleaving. -/
theorem Interleaves.split {pool pool' : ι → Program S ε α} {tr₁ tr₂ : List (ι × Event S)}
    (h : Interleaves pool (tr₁ ++ tr₂) pool') :
    ∃ mid, Interleaves pool tr₁ mid ∧ Interleaves mid tr₂ pool' := by
  induction tr₁ generalizing pool with
  | nil => exact ⟨pool, .refl pool, h⟩
  | cons e tr₁ ih =>
    cases h with
    | step r hi h =>
      obtain ⟨mid, h₁, h₂⟩ := ih h
      exact ⟨mid, .step r hi h₁, h₂⟩

theorem Interleaves.append {pool mid pool' : ι → Program S ε α} {tr₁ tr₂ : List (ι × Event S)}
    (h₁ : Interleaves pool tr₁ mid) (h₂ : Interleaves mid tr₂ pool') :
    Interleaves pool (tr₁ ++ tr₂) pool' := by
  induction h₁ with
  | refl pool => exact h₂
  | step r hi _ ih => exact .step r hi (ih h₂)

theorem Steps.interleaves {pool : ι → Program S ε α} {i : ι} {tr : List (Event S)}
    {p q : Program S ε α} (h : Steps p tr q) (hi : pool i = p) :
    Interleaves pool (tr.map (Prod.mk i)) (Function.update pool i q) := by
  induction h generalizing pool with
  | refl p =>
    rw [← hi, Function.update_eq_self]
    exact .refl pool
  | call r _ ih =>
    refine .step r hi ?_
    have hrest := ih (Function.update_self i _ pool)
    rwa [Function.update_idem] at hrest

theorem interleaves_of_exec {pool : ι → Program S ε α} {tr : List (ι × Event S)}
    {rest : ι → List (Event S)} {out : ι → Except ε α}
    (h : ∀ i, Exec (pool i) (ownTrace i tr ++ rest i) (out i)) :
    ∃ pool', Interleaves pool tr pool' ∧ ∀ i, Exec (pool' i) (rest i) (out i) := by
  induction tr generalizing pool with
  | nil => exact ⟨pool, .refl pool, h⟩
  | cons e tr ih =>
    obtain ⟨j, e⟩ := e
    have hj := h j
    rw [ownTrace_cons_self, List.cons_append] at hj
    generalize hpool : pool j = p at hj
    cases hj with
    | @call o k r _ _ hrest =>
      have hnext : ∀ i,
          Exec (Function.update pool j (k r) i) (ownTrace i tr ++ rest i) (out i) := by
        intro i
        by_cases hij : i = j
        · subst hij
          rwa [Function.update_self]
        · rw [Function.update_of_ne hij]
          have hi := h i
          rwa [ownTrace_cons_ne (Ne.symm hij)] at hi
      obtain ⟨pool', hinter, hended⟩ := ih hnext
      exact ⟨pool', .step r hpool hinter, hended⟩

theorem countP_ownTrace {f : Event S → Bool} {i : ι} {tr : List (ι × Event S)}
    (h : ∀ e ∈ tr, f e.2 = true → e.1 = i) :
    (tr.map Prod.snd).countP f = (ownTrace i tr).countP f := by
  rw [ownTrace, List.countP_map, List.countP_map, List.countP_filter]
  refine List.countP_congr fun e he => ?_
  simp only [Function.comp_apply, Bool.and_eq_true, decide_eq_true_eq]
  exact ⟨fun hf => ⟨hf, h e he hf⟩, And.left⟩

theorem filter_ownTrace {γ : Type} {f : Event S → Option γ} {p : γ → Bool} {i : ι}
    {tr : List (ι × Event S)}
    (h : ∀ e ∈ tr, ∀ c, f e.2 = some c → (p c = true ↔ e.1 = i)) :
    ((tr.map Prod.snd).filterMap f).filter p = (ownTrace i tr).filterMap f := by
  induction tr with
  | nil => rfl
  | cons e tr ih =>
    obtain ⟨j, e⟩ := e
    have hrest := ih fun e' he' => h e' (List.mem_cons_of_mem _ he')
    have hhead := h (j, e) List.mem_cons_self
    rw [List.map_cons, List.filterMap_cons]
    by_cases hij : j = i
    · subst hij
      rw [ownTrace_cons_self, List.filterMap_cons]
      cases hf : f e with
      | none => exact hrest
      | some c =>
        rw [List.filter_cons_of_pos ((hhead c hf).mpr rfl)]
        exact congrArg (c :: ·) hrest
    · rw [ownTrace_cons_ne hij]
      cases hf : f e with
      | none => exact hrest
      | some c =>
        rw [List.filter_cons_of_neg fun hp => hij ((hhead c hf).mp hp)]
        exact hrest

/-- A quantity that adds up event by event adds up program by program. -/
theorem sum_ownTrace {M : Type} [AddCommMonoid M] [Fintype ι] (f : List (Event S) → M)
    (h₀ : f [] = 0) (happ : ∀ tr₁ tr₂, f (tr₁ ++ tr₂) = f tr₁ + f tr₂)
    (tr : List (ι × Event S)) :
    ∑ i, f (ownTrace i tr) = f (tr.map Prod.snd) := by
  induction tr with
  | nil => simp [h₀]
  | cons e tr ih =>
    obtain ⟨j, e⟩ := e
    have hsplit : ∀ i, f (ownTrace i ((j, e) :: tr)) =
        (if i = j then f [e] else 0) + f (ownTrace i tr) := by
      intro i
      by_cases hij : i = j
      · subst hij
        rw [ownTrace_cons_self, if_pos rfl, ← happ]
        rfl
      · rw [ownTrace_cons_ne (Ne.symm hij), if_neg hij, zero_add]
    have hhead : f (((j, e) :: tr).map Prod.snd) = f [e] + f (tr.map Prod.snd) := by
      rw [← happ]
      rfl
    rw [Finset.sum_congr rfl fun i _ => hsplit i, Finset.sum_add_distrib, ih, hhead]
    simp

section Totals

variable [Fintype ι] {f g : List (Event S) → ℕ}
  (hf : ∀ tr₁ tr₂, f (tr₁ ++ tr₂) = f tr₁ + f tr₂)
  (hg : ∀ tr₁ tr₂, g (tr₁ ++ tr₂) = g tr₁ + g tr₂) (hf₀ : f [] = 0) (hg₀ : g [] = 0)

include hf hg hf₀ hg₀

theorem total_eq {tr : List (ι × Event S)} (h : ∀ i, f (ownTrace i tr) = g (ownTrace i tr)) :
    f (tr.map Prod.snd) = g (tr.map Prod.snd) := by
  rw [← sum_ownTrace f hf₀ hf tr, ← sum_ownTrace g hg₀ hg tr]
  exact Finset.sum_congr rfl fun i _ => h i

theorem total_le {tr : List (ι × Event S)} (h : ∀ i, f (ownTrace i tr) ≤ g (ownTrace i tr)) :
    f (tr.map Prod.snd) ≤ g (tr.map Prod.snd) := by
  rw [← sum_ownTrace f hf₀ hf tr, ← sum_ownTrace g hg₀ hg tr]
  exact Finset.sum_le_sum fun i _ => h i

end Totals

end TicketWarden.Effects
