/- Module: TicketWarden/Effects/Adapter
   source: none (library)
   digest: Programs over one interface that are run over another, operation by operation. -/

import TicketWarden.Effects.World

set_option autoImplicit false
set_option relaxedAutoImplicit false

namespace TicketWarden.Effects

variable {S T U : Signature} {ε α σ : Type}

/-- How the operations of one interface are carried out over another: each by one operation,
whose reply is then read. -/
structure Adapter (S T : Signature) where
  op : S.Op → T.Op
  reply : (o : S.Op) → T.Reply (op o) → S.Reply o

namespace Adapter

/-- An event of the one interface, and the event of the other that carried it out. -/
inductive Seen (φ : Adapter S T) : Event S → Event T → Prop
  | mk (o : S.Op) (r : T.Reply (φ.op o)) : Seen φ ⟨o, φ.reply o r⟩ ⟨φ.op o, r⟩

def left (φ : Adapter S T) : Adapter (S.sum U) (T.sum U) where
  op
    | .inl o => .inl (φ.op o)
    | .inr o => .inr o
  reply
    | .inl o, r => φ.reply o r
    | .inr _, r => r

def right (φ : Adapter S T) : Adapter (U.sum S) (U.sum T) where
  op
    | .inl o => .inl o
    | .inr o => .inr (φ.op o)
  reply
    | .inl _, r => r
    | .inr o, r => φ.reply o r

end Adapter

def Program.adapt (φ : Adapter S T) : Program S ε α → Program T ε α
  | .done a => .done a
  | .fail e => .fail e
  | .call o k => .call (φ.op o) fun r => (k (φ.reply o r)).adapt φ

variable {φ : Adapter S T}

theorem exec_adapt_iff {p : Program S ε α} {tr : List (Event T)} {out : Except ε α} :
    Exec (p.adapt φ) tr out ↔ ∃ events, List.Forall₂ φ.Seen events tr ∧ Exec p events out := by
  induction p generalizing tr with
  | done a => simp [Program.adapt]
  | fail e => simp [Program.adapt]
  | call o k ih =>
    constructor
    · intro h
      obtain ⟨r, tr', rfl, hk⟩ := exec_call_iff.mp h
      obtain ⟨events, hseen, hexec⟩ := (ih _).mp hk
      exact ⟨_, .cons (.mk o r) hseen, .call _ hexec⟩
    · rintro ⟨events, hseen, hexec⟩
      obtain ⟨_, events', rfl, hk⟩ := exec_call_iff.mp hexec
      cases hseen with
      | cons hfirst hrest =>
        cases hfirst with
        | mk _ r => exact .call r ((ih _).mpr ⟨events', hrest, hk⟩)

theorem filterMap_seen {γ : Type} {f : Event S → Option γ} {g : Event T → Option γ}
    (hfg : ∀ o r, g ⟨φ.op o, r⟩ = f ⟨o, φ.reply o r⟩) {events : List (Event S)}
    {tr : List (Event T)} (h : List.Forall₂ φ.Seen events tr) :
    tr.filterMap g = events.filterMap f := by
  induction h with
  | nil => rfl
  | cons hfirst _ ih =>
    cases hfirst with
    | mk o r => rw [List.filterMap_cons, List.filterMap_cons, hfg, ih]

section Pools

variable {ι : Type}

/-- The events of the programs, carried out. -/
def Adapter.AllSeen (φ : Adapter S T) : List (ι × Event S) → List (ι × Event T) → Prop :=
  List.Forall₂ fun e e' => e.1 = e'.1 ∧ φ.Seen e.2 e'.2

theorem Adapter.AllSeen.map_snd {events : List (ι × Event S)} {tr : List (ι × Event T)}
    (h : φ.AllSeen events tr) :
    List.Forall₂ φ.Seen (events.map Prod.snd) (tr.map Prod.snd) := by
  induction h with
  | nil => exact .nil
  | cons hfirst _ ih => exact .cons hfirst.2 ih

variable [DecidableEq ι]

theorem Adapter.AllSeen.ownTrace {events : List (ι × Event S)} {tr : List (ι × Event T)}
    (h : φ.AllSeen events tr) (i : ι) :
    List.Forall₂ φ.Seen (Effects.ownTrace i events) (Effects.ownTrace i tr) := by
  induction h with
  | nil => exact .nil
  | @cons e e' events tr hfirst _ ih =>
    obtain ⟨j, e⟩ := e
    obtain ⟨j', e'⟩ := e'
    obtain ⟨rfl, hseen⟩ := hfirst
    by_cases hij : j = i
    · subst hij
      rw [ownTrace_cons_self, ownTrace_cons_self]
      exact .cons hseen ih
    · rw [ownTrace_cons_ne hij, ownTrace_cons_ne hij]
      exact ih

theorem interleaves_adapt {pool : ι → Program S ε α} {tr : List (ι × Event T)}
    {pool' : ι → Program T ε α} (h : Interleaves (fun i => (pool i).adapt φ) tr pool') :
    ∃ events pool'', φ.AllSeen events tr ∧ Interleaves pool events pool'' ∧
      ∀ i, pool' i = (pool'' i).adapt φ := by
  generalize hadapted : (fun i => (pool i).adapt φ) = adapted at h
  induction h generalizing pool with
  | refl _ =>
    subst hadapted
    exact ⟨[], pool, .nil, .refl pool, fun _ => rfl⟩
  | @step adapted pool' i o k r tr hi _ ih =>
    subst hadapted
    cases hpool : pool i with
    | done a => simp [hpool, Program.adapt] at hi
    | fail e => simp [hpool, Program.adapt] at hi
    | call o' k' =>
      simp only [hpool, Program.adapt] at hi
      cases hi
      have hnext : (fun j => (Function.update pool i (k' (φ.reply o' r)) j).adapt φ) =
          Function.update (fun j => (pool j).adapt φ) i ((k' (φ.reply o' r)).adapt φ) := by
        funext j
        by_cases hj : j = i
        · subst hj
          rw [Function.update_self, Function.update_self]
        · rw [Function.update_of_ne hj, Function.update_of_ne hj]
      obtain ⟨events, pool'', hseen, hinter, hlast⟩ := ih hnext
      exact ⟨(i, ⟨o', φ.reply o' r⟩) :: events, pool'', .cons ⟨rfl, .mk o' r⟩ hseen,
        .step _ hpool hinter, hlast⟩

end Pools

def World.adapt (W : World S σ) (φ : Adapter S T) : World T σ :=
  fun s e s' => ∀ e₀, φ.Seen e₀ e → W s e₀ s'

theorem World.Runs.of_adapt {W : World S σ} {s s' : σ} {events : List (Event S)}
    {tr : List (Event T)} (h : (W.adapt φ).Runs s tr s')
    (hseen : List.Forall₂ φ.Seen events tr) : W.Runs s events s' := by
  induction h generalizing events with
  | nil s =>
    cases hseen
    exact .nil s
  | cons hstep _ ih =>
    cases hseen with
    | cons hfirst hrest => exact .cons (hstep _ hfirst) (ih hrest)

end TicketWarden.Effects
