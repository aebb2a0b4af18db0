/- Module: TicketWarden/Effects/Agreement
   source: none (library)
   digest: Two executions of one program, or of a program and a renamed one, compared by what
   they have been told. -/

import TicketWarden.Effects.Program

set_option autoImplicit false
set_option relaxedAutoImplicit false

namespace TicketWarden.Effects

variable {S : Signature} {ε α β γ : Type}

abbrev Reading (S : Signature) (γ : Type) := (o : S.Op) → Option (S.Reply o → γ)

def Event.told (read : Reading S γ) (e : Event S) : Option γ :=
  (read e.op).map fun f => f e.reply

/-- What is read of a reply determines it, among the replies that are possible. -/
def Reading.Determines (read : Reading S γ) (P : Event S → Prop) : Prop :=
  ∀ o r r', P ⟨o, r⟩ → P ⟨o, r'⟩ → Event.told read ⟨o, r⟩ = Event.told read ⟨o, r'⟩ → r = r'

/-- As far as they are told the same, two executions of a program do the same. -/
theorem Exec.agree {read : Reading S γ} {P : Event S → Prop} (hread : read.Determines P)
    {p : Program S ε α} {tr tr' : List (Event S)} {out out' : Except ε α} (h : Exec p tr out)
    (h' : Exec p tr' out') (hP : ∀ e ∈ tr, P e) (hP' : ∀ e ∈ tr', P e)
    (htold : tr.filterMap (Event.told read) = tr'.filterMap (Event.told read)) :
    tr = tr' ∧ out = out' := by
  induction h generalizing tr' with
  | done a =>
    obtain ⟨rfl, rfl⟩ := exec_done_iff.mp h'
    exact ⟨rfl, rfl⟩
  | fail e =>
    obtain ⟨rfl, rfl⟩ := exec_fail_iff.mp h'
    exact ⟨rfl, rfl⟩
  | @call o k r tr out _ ih =>
    obtain ⟨r', tr', rfl, hexec⟩ := exec_call_iff.mp h'
    obtain ⟨hr, hrest⟩ := List.forall_mem_cons.mp hP
    obtain ⟨hr', hrests⟩ := List.forall_mem_cons.mp hP'
    -- both replies are read, or neither is
    have hheads : Event.told read ⟨o, r⟩ = Event.told read ⟨o, r'⟩ ∧
        tr.filterMap (Event.told read) = tr'.filterMap (Event.told read) := by
      cases hop : read o with
      | none => simpa [Event.told, hop] using htold
      | some f => simpa [Event.told, hop] using htold
    obtain rfl := hread o r r' hr hr' hheads.1
    obtain ⟨rfl, rfl⟩ := ih hexec hrest hrests hheads.2
    exact ⟨rfl, rfl⟩

/-- Every execution of `q` is one of `p` with its result changed by `f`. -/
def Mirrors (f : α → β) (p : Program S ε α) (q : Program S ε β) : Prop :=
  ∀ ⦃tr : List (Event S)⦄ ⦃out : Except ε β⦄, Exec q tr out →
    ∃ out', Exec p tr out' ∧ out = out'.map f

section Mirrors

variable {α' β' : Type} {f : α → α'} {g : β → β'}

theorem mirrors_pure (a : α) :
    Mirrors f (pure a : Program S ε α) (pure (f a) : Program S ε α') := by
  intro tr out h
  obtain ⟨rfl, rfl⟩ := exec_pure_iff.mp h
  exact ⟨.ok a, .done a, rfl⟩

theorem mirrors_fail (e : ε) :
    Mirrors f (.fail e : Program S ε α) (.fail e : Program S ε α') := by
  intro tr out h
  obtain ⟨rfl, rfl⟩ := exec_fail_iff.mp h
  exact ⟨.error e, .fail e, rfl⟩

theorem mirrors_bind {p : Program S ε α} {p' : Program S ε α'} {k : α → Program S ε β}
    {k' : α' → Program S ε β'} (hp : Mirrors f p p') (hk : ∀ a, Mirrors g (k a) (k' (f a))) :
    Mirrors g (p >>= k) (p' >>= k') := by
  intro tr out h
  rcases exec_bind_iff.mp h with ⟨e, h₁, rfl⟩ | ⟨a', tr₁, tr₂, rfl, h₁, h₂⟩
  · obtain ⟨out', hfirst, hout⟩ := hp h₁
    cases out' with
    | ok a => cases hout
    | error e' =>
      cases hout
      exact ⟨.error e, exec_bind_iff.mpr (.inl ⟨e, hfirst, rfl⟩), rfl⟩
  · obtain ⟨out', hfirst, hout⟩ := hp h₁
    cases out' with
    | error e => cases hout
    | ok a =>
      cases hout
      obtain ⟨out'', hrest, rfl⟩ := hk a h₂
      exact ⟨out'', exec_bind_iff.mpr (.inr ⟨a, tr₁, tr₂, rfl, hfirst, hrest⟩), rfl⟩

theorem mirrors_after {p : Program S ε α} {k : α → Program S ε β} {k' : α → Program S ε β'}
    (hk : ∀ a, Mirrors g (k a) (k' a)) : Mirrors g (p >>= k) (p >>= k') := by
  refine mirrors_bind (f := id) (fun tr out h => ⟨out, h, ?_⟩) hk
  cases out <;> rfl

end Mirrors

end TicketWarden.Effects
