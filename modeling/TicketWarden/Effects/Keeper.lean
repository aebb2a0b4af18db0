/- Module: TicketWarden/Effects/Keeper
   source: none (library)
   digest: Programs that answer some of their operations from a state that they keep. -/

import TicketWarden.Effects.Program

set_option autoImplicit false
set_option relaxedAutoImplicit false

namespace TicketWarden.Effects

variable {S : Signature} {ε α σ : Type}

/-- What is answered from a state, and what the other events make of it. -/
structure Keeper (S : Signature) (σ : Type) where
  answer : (o : S.Op) → σ → Option (S.Reply o)
  next : Event S → σ → σ

def Program.keep (K : Keeper S σ) : σ → Program S ε α → Program S ε α
  | _, .done a => .done a
  | _, .fail e => .fail e
  | s, .call o k =>
    match K.answer o s with
    | some r => (k r).keep K s
    | none => .call o fun r => (k r).keep K (K.next ⟨o, r⟩ s)

namespace Keeper

variable {K : Keeper S σ} {s s' : σ} {tr tr' : List (Event S)}

/-- `Hides s tr tr' s'`: from `s` on, of the events of `tr` those of `tr'` are performed, the
others are answered from the state, and it becomes `s'`. -/
inductive Hides (K : Keeper S σ) : σ → List (Event S) → List (Event S) → σ → Prop
  | nil (s : σ) : Hides K s [] [] s
  | answered {s s' : σ} {o : S.Op} {r : S.Reply o} {tr tr' : List (Event S)} :
      K.answer o s = some r → Hides K s tr tr' s' → Hides K s (⟨o, r⟩ :: tr) tr' s'
  | performed {s s' : σ} {o : S.Op} {r : S.Reply o} {tr tr' : List (Event S)} :
      K.answer o s = none → Hides K (K.next ⟨o, r⟩ s) tr tr' s' →
      Hides K s (⟨o, r⟩ :: tr) (⟨o, r⟩ :: tr') s'

theorem Hides.split {tr₁ tr₂ : List (Event S)} (h : K.Hides s (tr₁ ++ tr₂) tr' s') :
    ∃ mid tr₁' tr₂', tr' = tr₁' ++ tr₂' ∧ K.Hides s tr₁ tr₁' mid ∧ K.Hides mid tr₂ tr₂' s' := by
  induction tr₁ generalizing s tr' with
  | nil => exact ⟨s, [], tr', rfl, .nil s, h⟩
  | cons e tr₁ ih =>
    cases h with
    | answered hr h =>
      obtain ⟨mid, tr₁', tr₂', rfl, h₁, h₂⟩ := ih h
      exact ⟨mid, tr₁', tr₂', rfl, .answered hr h₁, h₂⟩
    | performed hr h =>
      obtain ⟨mid, tr₁', tr₂', rfl, h₁, h₂⟩ := ih h
      exact ⟨mid, _, tr₂', rfl, .performed hr h₁, h₂⟩

theorem Hides.filterMap {γ : Type} {f : Event S → Option γ} (h : K.Hides s tr tr' s')
    (hf : ∀ o r s, K.answer o s = some r → f ⟨o, r⟩ = none) :
    tr'.filterMap f = tr.filterMap f := by
  induction h with
  | nil s => rfl
  | answered hr _ ih => rw [List.filterMap_cons_none (hf _ _ _ hr), ih]
  | performed hr _ ih => rw [List.filterMap_cons, List.filterMap_cons, ih]

end Keeper

variable {K : Keeper S σ}

theorem exec_keep_iff {p : Program S ε α} {s : σ} {tr' : List (Event S)} {out : Except ε α} :
    Exec (p.keep K s) tr' out ↔ ∃ tr s', K.Hides s tr tr' s' ∧ Exec p tr out := by
  induction p generalizing s tr' with
  | done a =>
    constructor
    · intro h
      obtain ⟨rfl, rfl⟩ := exec_done_iff.mp h
      exact ⟨[], s, .nil s, .done a⟩
    · rintro ⟨tr, s', hides, h⟩
      cases h
      cases hides
      exact .done a
  | fail e =>
    constructor
    · intro h
      obtain ⟨rfl, rfl⟩ := exec_fail_iff.mp h
      exact ⟨[], s, .nil s, .fail e⟩
    · rintro ⟨tr, s', hides, h⟩
      cases h
      cases hides
      exact .fail e
  | call o k ih =>
    rw [Program.keep]
    cases hanswer : K.answer o s with
    | some r =>
      refine (ih r).trans ⟨?_, ?_⟩
      · rintro ⟨tr, s', hides, h⟩
        exact ⟨_, s', .answered hanswer hides, .call r h⟩
      · rintro ⟨tr, s', hides, h⟩
        obtain ⟨r', tr₁, rfl, hk⟩ := exec_call_iff.mp h
        cases hides with
        | answered hr hides =>
          cases hanswer.symm.trans hr
          exact ⟨tr₁, s', hides, hk⟩
        | performed hr _ => cases hanswer.symm.trans hr
    | none =>
      constructor
      · intro h
        obtain ⟨r, tr₁, rfl, hk⟩ := exec_call_iff.mp h
        obtain ⟨tr, s', hides, h⟩ := (ih r).mp hk
        exact ⟨_, s', .performed hanswer hides, .call r h⟩
      · rintro ⟨tr, s', hides, h⟩
        obtain ⟨r, tr₁, rfl, hk⟩ := exec_call_iff.mp h
        cases hides with
        | answered hr _ => cases hanswer.symm.trans hr
        | performed hr hides => exact .call r ((ih r).mpr ⟨tr₁, s', hides, hk⟩)

end TicketWarden.Effects
