/- Module: TicketWarden/Effects/Program
   source: none (library)
   digest: Programs over an environment that answers their operations, and the
   finite executions of a program as lists of answered operations. -/

import Mathlib.Data.List.Basic

/-!
A program performs operations on an environment it does not control and continues
with the reply it is given. Nothing is assumed of the environment: an execution is
any list of replies the program can be fed, so a statement about every execution is
a statement about every behaviour of the environment, stateful or not.
-/

set_option autoImplicit false
set_option relaxedAutoImplicit false

namespace TicketWarden.Effects

/-- The operations a program may perform, each with the type of its replies. -/
structure Signature where
  Op : Type
  Reply : Op → Type

@[reducible] def Signature.sum (S T : Signature) : Signature where
  Op := S.Op ⊕ T.Op
  Reply
    | .inl o => S.Reply o
    | .inr o => T.Reply o

/-- A program that returns an `α`, raises an `ε` or performs an operation. -/
inductive Program (S : Signature) (ε α : Type) where
  | done (a : α)
  | fail (e : ε)
  | call (o : S.Op) (k : S.Reply o → Program S ε α)

/-- One performed operation together with the reply it was given. -/
structure Event (S : Signature) where
  op : S.Op
  reply : S.Reply op

variable {S T : Signature} {ε α β : Type}

namespace Program

def bind : Program S ε α → (α → Program S ε β) → Program S ε β
  | .done a, f => f a
  | .fail e, _ => .fail e
  | .call o k, f => .call o fun r => (k r).bind f

instance : Monad (Program S ε) where
  pure := .done
  bind := .bind

def tryCatch : Program S ε α → (ε → Program S ε α) → Program S ε α
  | .done a, _ => .done a
  | .fail e, h => h e
  | .call o k, h => .call o fun r => (k r).tryCatch h

def perform (o : S.Op) : Program S ε (S.Reply o) := .call o .done

def ofExcept : Except ε α → Program S ε α
  | .ok a => .done a
  | .error e => .fail e

def inl : Program S ε α → Program (S.sum T) ε α
  | .done a => .done a
  | .fail e => .fail e
  | .call o k => .call (.inl o) fun r => (k r).inl

def inr : Program T ε α → Program (S.sum T) ε α
  | .done a => .done a
  | .fail e => .fail e
  | .call o k => .call (.inr o) fun r => (k r).inr

end Program

@[reducible] def Event.inl (e : Event S) : Event (S.sum T) := ⟨.inl e.op, e.reply⟩

@[reducible] def Event.inr (e : Event T) : Event (S.sum T) := ⟨.inr e.op, e.reply⟩

def Event.left? : Event (S.sum T) → Option (Event S)
  | ⟨.inl o, r⟩ => some ⟨o, r⟩
  | ⟨.inr _, _⟩ => none

def Event.right? : Event (S.sum T) → Option (Event T)
  | ⟨.inl _, _⟩ => none
  | ⟨.inr o, r⟩ => some ⟨o, r⟩

@[simp] theorem filterMap_left_inl (tr : List (Event S)) :
    (tr.map Event.inl : List (Event (S.sum T))).filterMap Event.left? = tr := by
  rw [List.filterMap_map]
  exact List.filterMap_some

@[simp] theorem filterMap_left_inr (tr : List (Event T)) :
    (tr.map Event.inr : List (Event (S.sum T))).filterMap Event.left? = [] := by
  rw [List.filterMap_map]
  exact List.filterMap_none tr

@[simp] theorem filterMap_right_inl (tr : List (Event S)) :
    (tr.map Event.inl : List (Event (S.sum T))).filterMap Event.right? = [] := by
  rw [List.filterMap_map]
  exact List.filterMap_none tr

@[simp] theorem filterMap_right_inr (tr : List (Event T)) :
    (tr.map Event.inr : List (Event (S.sum T))).filterMap Event.right? = tr := by
  rw [List.filterMap_map]
  exact List.filterMap_some

/-- `Exec p tr out`: fed the replies of `tr`, `p` performs exactly the operations of
`tr` in that order and ends with `out`. -/
inductive Exec : Program S ε α → List (Event S) → Except ε α → Prop
  | done (a : α) : Exec (.done a) [] (.ok a)
  | fail (e : ε) : Exec (.fail e) [] (.error e)
  | call {o : S.Op} {k : S.Reply o → Program S ε α} (r : S.Reply o)
      {tr : List (Event S)} {out : Except ε α} :
      Exec (k r) tr out → Exec (.call o k) (⟨o, r⟩ :: tr) out

/-- `Steps p tr q`: fed the replies of `tr`, `p` has become `q`. -/
inductive Steps : Program S ε α → List (Event S) → Program S ε α → Prop
  | refl (p : Program S ε α) : Steps p [] p
  | call {o : S.Op} {k : S.Reply o → Program S ε α} (r : S.Reply o)
      {tr : List (Event S)} {q : Program S ε α} :
      Steps (k r) tr q → Steps (.call o k) (⟨o, r⟩ :: tr) q

def Program.outcome : Program S ε α → Option (Except ε α)
  | .done a => some (.ok a)
  | .fail e => some (.error e)
  | .call _ _ => none

@[simp] theorem exec_done_iff {a : α} {tr : List (Event S)} {out : Except ε α} :
    Exec (.done a) tr out ↔ tr = [] ∧ out = .ok a := by
  constructor
  · intro h
    cases h
    exact ⟨rfl, rfl⟩
  · rintro ⟨rfl, rfl⟩
    exact .done a

@[simp] theorem exec_fail_iff {e : ε} {tr : List (Event S)} {out : Except ε α} :
    Exec (.fail e) tr out ↔ tr = [] ∧ out = .error e := by
  constructor
  · intro h
    cases h
    exact ⟨rfl, rfl⟩
  · rintro ⟨rfl, rfl⟩
    exact .fail e

@[simp] theorem exec_call_iff {o : S.Op} {k : S.Reply o → Program S ε α}
    {tr : List (Event S)} {out : Except ε α} :
    Exec (.call o k) tr out ↔ ∃ r tr', tr = ⟨o, r⟩ :: tr' ∧ Exec (k r) tr' out := by
  constructor
  · intro h
    cases h with
    | call r h => exact ⟨r, _, rfl, h⟩
  · rintro ⟨r, tr', rfl, h⟩
    exact .call r h

@[simp] theorem exec_pure_iff {a : α} {tr : List (Event S)} {out : Except ε α} :
    Exec (pure a : Program S ε α) tr out ↔ tr = [] ∧ out = .ok a :=
  exec_done_iff

@[simp] theorem exec_perform_iff {o : S.Op} {tr : List (Event S)}
    {out : Except ε (S.Reply o)} :
    Exec (.perform o) tr out ↔ ∃ r, tr = [⟨o, r⟩] ∧ out = .ok r := by
  simp only [Program.perform, exec_call_iff, exec_done_iff]
  constructor
  · rintro ⟨r, tr', rfl, rfl, rfl⟩
    exact ⟨r, rfl, rfl⟩
  · rintro ⟨r, rfl, rfl⟩
    exact ⟨r, [], rfl, rfl, rfl⟩

@[simp] theorem exec_ofExcept_iff {x : Except ε α} {tr : List (Event S)} {out : Except ε α} :
    Exec (.ofExcept x) tr out ↔ tr = [] ∧ out = x := by
  cases x with
  | ok a => simp [Program.ofExcept]
  | error e => simp [Program.ofExcept]

private theorem bind_def (p : Program S ε α) (f : α → Program S ε β) : p >>= f = p.bind f := rfl

/-- A sequence ends in its second part, or by an exception of its first. -/
theorem exec_bind_iff {p : Program S ε α} {f : α → Program S ε β} {tr : List (Event S)}
    {out : Except ε β} :
    Exec (p >>= f) tr out ↔
      (∃ e, Exec p tr (.error e) ∧ out = .error e) ∨
      ∃ a tr₁ tr₂, tr = tr₁ ++ tr₂ ∧ Exec p tr₁ (.ok a) ∧ Exec (f a) tr₂ out := by
  rw [bind_def]
  induction p generalizing tr with
  | done a =>
    constructor
    · intro h
      exact .inr ⟨a, [], tr, rfl, .done a, h⟩
    · rintro (⟨e, h, -⟩ | ⟨b, tr₁, tr₂, rfl, h, hf⟩)
      · cases h
      · cases h
        exact hf
  | fail e =>
    constructor
    · intro h
      obtain ⟨rfl, rfl⟩ := exec_fail_iff.mp h
      exact .inl ⟨e, .fail e, rfl⟩
    · rintro (⟨e', h, rfl⟩ | ⟨b, tr₁, tr₂, rfl, h, hf⟩)
      · cases h
        exact .fail e
      · cases h
  | call o k ih =>
    constructor
    · intro h
      obtain ⟨r, tr', rfl, hk⟩ := exec_call_iff.mp h
      rcases (ih r).mp hk with ⟨e, hp, rfl⟩ | ⟨a, tr₁, tr₂, rfl, hp, hf⟩
      · exact .inl ⟨e, .call r hp, rfl⟩
      · exact .inr ⟨a, ⟨o, r⟩ :: tr₁, tr₂, rfl, .call r hp, hf⟩
    · rintro (⟨e, h, rfl⟩ | ⟨a, tr₁, tr₂, rfl, h, hf⟩)
      · obtain ⟨r, tr', rfl, hp⟩ := exec_call_iff.mp h
        exact .call r ((ih r).mpr (.inl ⟨e, hp, rfl⟩))
      · obtain ⟨r, tr', rfl, hp⟩ := exec_call_iff.mp h
        exact .call r ((ih r).mpr (.inr ⟨a, tr', tr₂, rfl, hp, hf⟩))

@[simp] theorem exec_bind_ok_iff {p : Program S ε α} {f : α → Program S ε β}
    {tr : List (Event S)} {b : β} :
    Exec (p >>= f) tr (.ok b) ↔
      ∃ a tr₁ tr₂, tr = tr₁ ++ tr₂ ∧ Exec p tr₁ (.ok a) ∧ Exec (f a) tr₂ (.ok b) := by
  simp [exec_bind_iff]

theorem exec_bind_pure_iff {p : Program S ε α} {f : α → β} {tr : List (Event S)}
    {out : Except ε β} :
    Exec (p >>= fun a => pure (f a)) tr out ↔ ∃ r, Exec p tr r ∧ out = r.map f := by
  simp only [exec_bind_iff, exec_pure_iff]
  constructor
  · rintro (⟨e, h, rfl⟩ | ⟨a, tr₁, tr₂, rfl, h, rfl, rfl⟩)
    · exact ⟨.error e, h, rfl⟩
    · exact ⟨.ok a, by simpa using h, rfl⟩
  · rintro ⟨r, h, rfl⟩
    cases r with
    | error e => exact .inl ⟨e, h, rfl⟩
    | ok a => exact .inr ⟨a, tr, [], by simp, h, rfl, rfl⟩

theorem exec_perform_bind_iff {o : S.Op} {f : S.Reply o → Program S ε β}
    {tr : List (Event S)} {out : Except ε β} :
    Exec (.perform o >>= f) tr out ↔ ∃ r tr', tr = ⟨o, r⟩ :: tr' ∧ Exec (f r) tr' out :=
  exec_call_iff

theorem exec_answer_iff {o : S.Op} {f : S.Reply o → Except ε α} {tr : List (Event S)}
    {out : Except ε α} :
    Exec (.perform o >>= fun r => .ofExcept (f r)) tr out ↔ ∃ r, tr = [⟨o, r⟩] ∧ out = f r := by
  simp only [exec_perform_bind_iff, exec_ofExcept_iff]
  constructor
  · rintro ⟨r, tr', rfl, rfl, rfl⟩
    exact ⟨r, rfl, rfl⟩
  · rintro ⟨r, rfl, rfl⟩
    exact ⟨r, [], rfl, rfl, rfl⟩

/-- A guarded program ends as it would unguarded, or in the handler. -/
theorem exec_tryCatch_iff {p : Program S ε α} {h : ε → Program S ε α} {tr : List (Event S)}
    {out : Except ε α} :
    Exec (p.tryCatch h) tr out ↔
      (∃ a, Exec p tr (.ok a) ∧ out = .ok a) ∨
      ∃ e tr₁ tr₂, tr = tr₁ ++ tr₂ ∧ Exec p tr₁ (.error e) ∧ Exec (h e) tr₂ out := by
  induction p generalizing tr with
  | done a =>
    constructor
    · intro hx
      obtain ⟨rfl, rfl⟩ := exec_done_iff.mp hx
      exact .inl ⟨a, .done a, rfl⟩
    · rintro (⟨a', hx, rfl⟩ | ⟨e, tr₁, tr₂, rfl, hx, hh⟩)
      · cases hx
        exact .done a
      · cases hx
  | fail e =>
    constructor
    · intro hx
      exact .inr ⟨e, [], tr, rfl, .fail e, hx⟩
    · rintro (⟨a', hx, rfl⟩ | ⟨e', tr₁, tr₂, rfl, hx, hh⟩)
      · cases hx
      · cases hx
        exact hh
  | call o k ih =>
    constructor
    · intro hx
      obtain ⟨r, tr', rfl, hk⟩ := exec_call_iff.mp hx
      rcases (ih r).mp hk with ⟨a, hp, rfl⟩ | ⟨e, tr₁, tr₂, rfl, hp, hh⟩
      · exact .inl ⟨a, .call r hp, rfl⟩
      · exact .inr ⟨e, ⟨o, r⟩ :: tr₁, tr₂, rfl, .call r hp, hh⟩
    · rintro (⟨a, hx, rfl⟩ | ⟨e, tr₁, tr₂, rfl, hx, hh⟩)
      · obtain ⟨r, tr', rfl, hp⟩ := exec_call_iff.mp hx
        exact .call r ((ih r).mpr (.inl ⟨a, hp, rfl⟩))
      · obtain ⟨r, tr', rfl, hp⟩ := exec_call_iff.mp hx
        exact .call r ((ih r).mpr (.inr ⟨e, tr', tr₂, rfl, hp, hh⟩))

theorem exec_inl_iff {p : Program S ε α} {tr : List (Event (S.sum T))} {out : Except ε α} :
    Exec (p.inl : Program (S.sum T) ε α) tr out ↔
      ∃ tr', tr = tr'.map Event.inl ∧ Exec p tr' out := by
  induction p generalizing tr with
  | done a => simp [Program.inl]
  | fail e => simp [Program.inl]
  | call o k ih =>
    constructor
    · intro h
      obtain ⟨r, tr', rfl, hk⟩ := exec_call_iff.mp h
      obtain ⟨tr'', rfl, hp⟩ := (ih r).mp hk
      exact ⟨⟨o, r⟩ :: tr'', rfl, exec_call_iff.mpr ⟨r, tr'', rfl, hp⟩⟩
    · rintro ⟨tr', rfl, h⟩
      obtain ⟨r, tr'', rfl, hp⟩ := exec_call_iff.mp h
      exact exec_call_iff.mpr ⟨r, _, rfl, (ih r).mpr ⟨tr'', rfl, hp⟩⟩

theorem exec_inr_iff {p : Program T ε α} {tr : List (Event (S.sum T))} {out : Except ε α} :
    Exec (p.inr : Program (S.sum T) ε α) tr out ↔
      ∃ tr', tr = tr'.map Event.inr ∧ Exec p tr' out := by
  induction p generalizing tr with
  | done a => simp [Program.inr]
  | fail e => simp [Program.inr]
  | call o k ih =>
    constructor
    · intro h
      obtain ⟨r, tr', rfl, hk⟩ := exec_call_iff.mp h
      obtain ⟨tr'', rfl, hp⟩ := (ih r).mp hk
      exact ⟨⟨o, r⟩ :: tr'', rfl, exec_call_iff.mpr ⟨r, tr'', rfl, hp⟩⟩
    · rintro ⟨tr', rfl, h⟩
      obtain ⟨r, tr'', rfl, hp⟩ := exec_call_iff.mp h
      exact exec_call_iff.mpr ⟨r, _, rfl, (ih r).mpr ⟨tr'', rfl, hp⟩⟩

theorem Exec.unique {p : Program S ε α} {tr : List (Event S)} {out out' : Except ε α}
    (h : Exec p tr out) (h' : Exec p tr out') : out = out' := by
  induction h with
  | done a => exact ((exec_done_iff.mp h').2).symm
  | fail e => exact ((exec_fail_iff.mp h').2).symm
  | call r _ ih =>
    cases h' with
    | call _ h' => exact ih h'

theorem Exec.of_steps {p q : Program S ε α} {tr tr' : List (Event S)} {out : Except ε α}
    (h : Steps p tr q) (h' : Exec q tr' out) : Exec p (tr ++ tr') out := by
  induction h with
  | refl _ => exact h'
  | call r _ ih => exact .call r (ih h')

theorem Steps.exec {p q : Program S ε α} {tr : List (Event S)} {out : Except ε α}
    (h : Steps p tr q) (hq : q.outcome = some out) : Exec p tr out := by
  have hq' : Exec q [] out := by
    cases q with
    | done a => simpa [Program.outcome, eq_comm] using hq
    | fail e => simpa [Program.outcome, eq_comm] using hq
    | call o k => simp [Program.outcome] at hq
  simpa using Exec.of_steps h hq'

/-- An execution passes through a program that does the rest of it. -/
theorem Exec.split {p : Program S ε α} {tr₁ tr₂ : List (Event S)} {out : Except ε α}
    (h : Exec p (tr₁ ++ tr₂) out) : ∃ q, Steps p tr₁ q ∧ Exec q tr₂ out := by
  induction tr₁ generalizing p with
  | nil => exact ⟨p, .refl p, h⟩
  | cons e tr₁ ih =>
    cases h with
    | call r h =>
      obtain ⟨q, hsteps, hrest⟩ := ih h
      exact ⟨q, .call r hsteps, hrest⟩

theorem Exec.steps {p : Program S ε α} {tr : List (Event S)} {out : Except ε α}
    (h : Exec p tr out) : ∃ q, Steps p tr q ∧ q.outcome = some out := by
  induction h with
  | done a => exact ⟨_, .refl _, rfl⟩
  | fail e => exact ⟨_, .refl _, rfl⟩
  | call r _ ih =>
    obtain ⟨q, hsteps, hout⟩ := ih
    exact ⟨q, .call r hsteps, hout⟩

theorem exists_exec [∀ o, Nonempty (S.Reply o)] (p : Program S ε α) :
    ∃ tr out, Exec p tr out := by
  induction p with
  | done a => exact ⟨[], _, .done a⟩
  | fail e => exact ⟨[], _, .fail e⟩
  | call o k ih =>
    obtain ⟨tr, out, h⟩ := ih (Classical.arbitrary _)
    exact ⟨_, out, .call _ h⟩

theorem Steps.extends [∀ o, Nonempty (S.Reply o)] {p q : Program S ε α}
    {tr : List (Event S)} (h : Steps p tr q) : ∃ tr' out, Exec p (tr ++ tr') out := by
  obtain ⟨tr', out, hq⟩ := exists_exec q
  exact ⟨tr', out, .of_steps h hq⟩

theorem Steps.extends_by {P : Event S → Prop} (hP : ∀ o, ∃ r, P ⟨o, r⟩) {p q : Program S ε α}
    {tr : List (Event S)} (h : Steps p tr q) :
    ∃ tr' out, Exec p (tr ++ tr') out ∧ ∀ e ∈ tr', P e := by
  have hrest : ∃ tr' out, Exec q tr' out ∧ ∀ e ∈ tr', P e := by
    clear h
    induction q with
    | done a => exact ⟨[], _, .done a, by simp⟩
    | fail e => exact ⟨[], _, .fail e, by simp⟩
    | call o k ih =>
      obtain ⟨r, hr⟩ := hP o
      obtain ⟨tr', out, hexec, hall⟩ := ih r
      exact ⟨_, out, .call r hexec, List.forall_mem_cons.mpr ⟨hr, hall⟩⟩
  obtain ⟨tr', out, hexec, hall⟩ := hrest
  exact ⟨tr', out, .of_steps h hexec, hall⟩

theorem Exec.outcome {p : Program S ε α} {out : Except ε α} (h : Exec p [] out) :
    p.outcome = some out := by
  cases h <;> rfl

theorem Steps.completes [∀ o, Nonempty (S.Reply o)] {p q : Program S ε α}
    {tr : List (Event S)} (h : Steps p tr q) :
    ∃ tr' out, Exec p (tr ++ tr') out ∧ ∀ out', q.outcome = some out' → tr' = [] ∧ out = out' := by
  cases hq : q.outcome with
  | some out =>
    refine ⟨[], out, ?_, fun out' hout => ⟨rfl, Option.some.inj hout⟩⟩
    rw [List.append_nil]
    exact h.exec hq
  | none =>
    obtain ⟨tr', out, hexec⟩ := h.extends
    exact ⟨tr', out, hexec, fun out' hout => by cases hout⟩

end TicketWarden.Effects
