/- Module: TicketWarden/Effects/Cost
   source: none (library)
   digest: Bounds on what the operations of a program cost, composed along it and added up over
   interleavings, which all come to an end. -/

import TicketWarden.Effects.Interleaving

set_option autoImplicit false
set_option relaxedAutoImplicit false

namespace TicketWarden.Effects

variable {S : Signature} {ε α β : Type}

def cost (price : S.Op → ℕ) (tr : List (Event S)) : ℕ :=
  tr.foldr (fun e total => price e.op + total) 0

/-- However a program is answered, its operations cost at most this. -/
def Costs (price : S.Op → ℕ) (p : Program S ε α) (n : ℕ) : Prop :=
  Satisfies p fun tr => cost price tr ≤ n

section Rules

variable {price : S.Op → ℕ} {m n : ℕ}

@[simp] theorem cost_nil : cost price [] = 0 := rfl

@[simp] theorem cost_cons (e : Event S) (tr : List (Event S)) :
    cost price (e :: tr) = price e.op + cost price tr := rfl

private theorem cost_append (tr₁ tr₂ : List (Event S)) :
    cost price (tr₁ ++ tr₂) = cost price tr₁ + cost price tr₂ := by
  induction tr₁ with
  | nil => exact (Nat.zero_add _).symm
  | cons e tr₁ ih => rw [List.cons_append, cost_cons, cost_cons, ih, Nat.add_assoc]

theorem Costs.mono {p : Program S ε α} (h : Costs price p m) (hle : m ≤ n) : Costs price p n :=
  fun _ _ hexec => (h hexec).trans hle

theorem costs_pure (a : α) : Costs price (pure a : Program S ε α) 0 := by
  intro tr out h
  obtain ⟨rfl, -⟩ := exec_pure_iff.mp h
  exact Nat.le_refl 0

theorem costs_ofExcept (x : Except ε α) : Costs price (.ofExcept x : Program S ε α) 0 := by
  intro tr out h
  obtain ⟨rfl, -⟩ := exec_ofExcept_iff.mp h
  exact Nat.le_refl 0

theorem costs_perform (o : S.Op) : Costs (ε := ε) price (.perform o) (price o) := by
  intro tr out h
  obtain ⟨r, rfl, -⟩ := exec_perform_iff.mp h
  rw [cost_cons, cost_nil, Nat.add_zero]

theorem costs_bind {p : Program S ε α} {k : α → Program S ε β} (hp : Costs price p m)
    (hk : ∀ a, Costs price (k a) n) : Costs price (p >>= k) (m + n) := by
  intro tr out h
  rcases exec_bind_iff.mp h with ⟨e, h₁, -⟩ | ⟨a, tr₁, tr₂, rfl, h₁, h₂⟩
  · exact (hp h₁).trans (Nat.le_add_right m n)
  · rw [cost_append]
    exact Nat.add_le_add (hp h₁) (hk a h₂)

theorem costs_forM {xs : List α} {f : α → Program S ε PUnit} (h : ∀ x, Costs price (f x) n) :
    Costs price (xs.forM f) (xs.length * n) := by
  induction xs with
  | nil => exact (costs_pure PUnit.unit).mono (Nat.zero_le _)
  | cons x xs ih =>
    have hall := costs_bind (h x) fun _ => ih
    rw [List.length_cons, Nat.succ_mul, Nat.add_comm]
    exact hall

end Rules

section Pools

variable {ι : Type} [DecidableEq ι] [Fintype ι] {pool pool' : ι → Program S ε α}
  {tr : List (ι × Event S)}

theorem Interleaves.cost_le [∀ o, Nonempty (S.Reply o)] {price : S.Op → ℕ} {n : ℕ}
    (h : Interleaves pool tr pool') (hpool : ∀ i, Costs price (pool i) n) :
    (∀ i, cost price (ownTrace i tr) ≤ n) ∧ cost price (tr.map Prod.snd) ≤ Fintype.card ι * n := by
  have hown : ∀ i, cost price (ownTrace i tr) ≤ n := by
    intro i
    obtain ⟨rest, out, hexec⟩ := (h.steps i).extends
    have hwhole : cost price (ownTrace i tr ++ rest) ≤ n := hpool i hexec
    rw [cost_append] at hwhole
    omega
  refine ⟨hown, ?_⟩
  rw [← sum_ownTrace (cost price) rfl cost_append tr]
  exact Finset.sum_le_card_nsmul Finset.univ _ n fun i _ => hown i

theorem exists_interleaves_ended [∀ o, Nonempty (S.Reply o)] (pool : ι → Program S ε α) :
    ∃ tr pool', Interleaves pool tr pool' ∧ ∀ i, (pool' i).outcome.isSome = true := by
  have hsome : ∀ s : Finset ι, ∃ tr pool', Interleaves pool tr pool' ∧
      ∀ i ∈ s, (pool' i).outcome.isSome = true := by
    intro s
    induction s using Finset.induction_on with
    | empty => exact ⟨[], pool, .refl pool, by simp⟩
    | insert i s _ ih =>
      obtain ⟨tr, mid, hinter, hended⟩ := ih
      obtain ⟨own, out, hexec⟩ := exists_exec (mid i)
      obtain ⟨q, hsteps, hout⟩ := hexec.steps
      refine ⟨_, _, hinter.append (hsteps.interleaves rfl), fun j hj => ?_⟩
      by_cases hji : j = i
      · rw [hji, Function.update_self, hout]
        rfl
      · rw [Function.update_of_ne hji]
        exact hended j ((Finset.mem_insert.mp hj).resolve_left hji)
  obtain ⟨tr, pool', hinter, hended⟩ := hsome Finset.univ
  exact ⟨tr, pool', hinter, fun i => hended i (Finset.mem_univ i)⟩

end Pools

end TicketWarden.Effects
