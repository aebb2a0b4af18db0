/- Module: TicketWarden/Effects/World
   source: none (library)
   digest: A state that programs share, changed event by event, and what holds of it in
   every run. -/

import TicketWarden.Effects.Interleaving

set_option autoImplicit false
set_option relaxedAutoImplicit false

namespace TicketWarden.Effects

variable {S : Signature} {σ : Type}

abbrev World (S : Signature) (σ : Type) := σ → Event S → σ → Prop

/-- The runs of a world over the events of a trace. -/
inductive World.Runs (W : World S σ) : σ → List (Event S) → σ → Prop
  | nil (s : σ) : World.Runs W s [] s
  | cons {s s' s'' : σ} {e : Event S} {tr : List (Event S)} :
      W s e s' → World.Runs W s' tr s'' → World.Runs W s (e :: tr) s''

namespace World.Runs

variable {W : World S σ} {s s' s'' : σ} {e : Event S} {tr tr₁ tr₂ : List (Event S)}

theorem split (h : W.Runs s (tr₁ ++ tr₂) s'') : ∃ s', W.Runs s tr₁ s' ∧ W.Runs s' tr₂ s'' := by
  induction tr₁ generalizing s with
  | nil => exact ⟨s, .nil s, h⟩
  | cons e tr₁ ih =>
    cases h with
    | cons hstep hrest =>
      obtain ⟨s', h₁, h₂⟩ := ih hrest
      exact ⟨s', .cons hstep h₁, h₂⟩

theorem append (h₁ : W.Runs s tr₁ s') (h₂ : W.Runs s' tr₂ s'') : W.Runs s (tr₁ ++ tr₂) s'' := by
  induction h₁ with
  | nil s => exact h₂
  | cons hstep _ ih => exact .cons hstep (ih h₂)

theorem at_event (h : W.Runs s (tr₁ ++ e :: tr₂) s'') :
    ∃ mid mid', W.Runs s tr₁ mid ∧ W mid e mid' ∧ W.Runs mid' tr₂ s'' := by
  obtain ⟨mid, hbefore, hafter⟩ := h.split
  cases hafter with
  | cons hstep hrest => exact ⟨mid, _, hbefore, hstep, hrest⟩

end World.Runs

section RunAll

variable {ι ε α : Type} {h : Handler S σ} {W : World S σ}

private theorem World.runs_run (hW : ∀ o s, W s ⟨o, (h o s).1⟩ (h o s).2) (p : Program S ε α)
    (s : σ) :
    W.Runs s (p.run h s).trace (p.run h s).state := by
  induction p generalizing s with
  | done a => exact .nil s
  | fail e => exact .nil s
  | call o k ih => exact .cons (hW o s) (ih _ _)

def runAll (h : Handler S σ) (pool : ι → Program S ε α) : List ι → σ → List (ι × Event S) × σ
  | [], s => ([], s)
  | i :: is, s =>
    let run := (pool i).run h s
    let rest := runAll h pool is run.state
    (run.trace.map (Prod.mk i) ++ rest.1, rest.2)

theorem World.runs_runAll (hW : ∀ o s, W s ⟨o, (h o s).1⟩ (h o s).2)
    (pool : ι → Program S ε α) (is : List ι) (s : σ) :
    W.Runs s ((runAll h pool is s).1.map Prod.snd) (runAll h pool is s).2 := by
  induction is generalizing s with
  | nil => exact .nil s
  | cons i is ih =>
    have hfirst := World.runs_run hW (pool i) s
    rw [runAll, List.map_append, List.map_map]
    have hsnd : (Prod.snd ∘ Prod.mk i : Event S → Event S) = id := rfl
    rw [hsnd, List.map_id]
    exact hfirst.append (ih _)

theorem runAll_forall {P : Event S → Prop} (hP : ∀ o s, P ⟨o, (h o s).1⟩)
    (pool : ι → Program S ε α) (is : List ι) (s : σ) : ∀ e ∈ (runAll h pool is s).1, P e.2 := by
  induction is generalizing s with
  | nil => exact fun e he => absurd he List.not_mem_nil
  | cons i is ih =>
    intro e he
    rw [runAll] at he
    rcases List.mem_append.mp he with he | he
    · obtain ⟨e', he', rfl⟩ := List.mem_map.mp he
      exact run_forall hP (pool i) s e' he'
    · exact ih _ e he

private theorem runAll_congr {pool pool' : ι → Program S ε α} {is : List ι}
    (hpool : ∀ i ∈ is, pool i = pool' i) (s : σ) : runAll h pool is s = runAll h pool' is s := by
  induction is generalizing s with
  | nil => rfl
  | cons i is ih =>
    rw [runAll, runAll, hpool i List.mem_cons_self]
    simp only [ih fun j hj => hpool j (List.mem_cons_of_mem i hj)]

theorem interleaves_runAll [DecidableEq ι] (h : Handler S σ) (pool : ι → Program S ε α)
    {is : List ι} (hnodup : is.Nodup) (s : σ) :
    ∃ pool', Interleaves pool (runAll h pool is s).1 pool' ∧
      (∀ before i after, is = before ++ i :: after →
        (pool' i).outcome = some ((pool i).run h (runAll h pool before s).2).out) ∧
      ∀ i ∉ is, pool' i = pool i := by
  induction is generalizing pool s with
  | nil => exact ⟨pool, .refl pool, fun before i after h => by simp at h, fun i _ => rfl⟩
  | cons i is ih =>
    obtain ⟨hi, hnodup⟩ := List.nodup_cons.mp hnodup
    obtain ⟨q, hsteps, hout⟩ := (exec_run h (pool i) s).steps
    have hothers : ∀ j ∈ is, Function.update pool i q j = pool j := by
      intro j hj
      apply Function.update_of_ne
      rintro rfl
      exact hi hj
    obtain ⟨pool', hinter, hended, hsame⟩ := ih (Function.update pool i q) hnodup
      ((pool i).run h s).state
    rw [runAll_congr hothers] at hinter
    refine ⟨pool', (hsteps.interleaves rfl).append hinter, fun before j after hsplit => ?_,
      fun j hj => ?_⟩
    · cases before with
      | nil =>
        obtain ⟨rfl, rfl⟩ := List.cons.inj hsplit
        rw [hsame i hi, Function.update_self]
        exact hout
      | cons k before =>
        obtain ⟨rfl, rfl⟩ := List.cons.inj hsplit
        have hj := hended before j after rfl
        rw [hothers j (by simp), runAll_congr fun k hk => hothers k (by simp [hk])] at hj
        exact hj
    · obtain ⟨hji, hmem⟩ := not_or.mp (mt List.mem_cons.mpr hj)
      rw [hsame j hmem, Function.update_of_ne hji]

end RunAll

end TicketWarden.Effects
