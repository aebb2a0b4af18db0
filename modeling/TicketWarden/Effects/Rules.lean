/- Module: TicketWarden/Effects/Rules
   source: none (library)
   digest: Trace properties composed along a program, and environments with a state. -/

import TicketWarden.Effects.Program

set_option autoImplicit false
set_option relaxedAutoImplicit false

namespace TicketWarden.Effects

variable {S T : Signature} {ε α β σ : Type}

/-- Every execution of `p`, however it ends, has a trace in `I`. -/
def Satisfies (p : Program S ε α) (I : List (Event S) → Prop) : Prop :=
  ∀ ⦃tr : List (Event S)⦄ ⦃out : Except ε α⦄, Exec p tr out → I tr

/-- A trace property that holds of a concatenation when it holds of its parts. -/
structure Additive (I : List (Event S) → Prop) : Prop where
  nil : I []
  append : ∀ {tr₁ tr₂ : List (Event S)}, I tr₁ → I tr₂ → I (tr₁ ++ tr₂)

theorem additive_forall (P : Event S → Prop) : Additive fun tr => ∀ e ∈ tr, P e where
  nil := by simp
  append h₁ h₂ := fun e he => (List.mem_append.mp he).elim (h₁ e) (h₂ e)

theorem additive_filterMap_eq {γ : Type} (f g : Event S → Option γ) :
    Additive fun tr => tr.filterMap f = tr.filterMap g where
  nil := rfl
  append h₁ h₂ := by rw [List.filterMap_append, List.filterMap_append, h₁, h₂]

/-- At every moment there have been at most as many events of one kind as of another. -/
def NeverAhead (f g : Event S → Bool) (tr : List (Event S)) : Prop :=
  ∀ p, p <+: tr → p.countP f ≤ p.countP g

theorem additive_neverAhead (f g : Event S → Bool) : Additive (NeverAhead f g) where
  nil p hp := by
    rw [List.prefix_nil.mp hp]
    exact Nat.le_refl _
  append := by
    rintro tr₁ tr₂ h₁ h₂ p ⟨s, hs⟩
    rcases List.append_eq_append_iff.mp hs with ⟨q, rfl, -⟩ | ⟨q, rfl, rfl⟩
    · exact h₁ p (List.prefix_append p q)
    · have hwhole := h₁ tr₁ (List.prefix_refl tr₁)
      have hpart := h₂ q (List.prefix_append q s)
      rw [List.countP_append, List.countP_append]
      omega

theorem neverAhead_of_none {f g : Event S → Bool} {tr : List (Event S)}
    (h : ∀ e ∈ tr, f e = false) : NeverAhead f g tr := by
  intro p hp
  have hzero : p.countP f = 0 :=
    List.countP_eq_zero.mpr fun e he => by simp [h e (hp.subset he)]
  omega

theorem neverAhead_of_lead {f g : Event S → Bool} {e : Event S} {tr : List (Event S)}
    (hf : f e = false) (hg : g e = true) (h : tr.countP f ≤ 1) : NeverAhead f g (e :: tr) := by
  intro p hp
  rcases List.prefix_cons_iff.mp hp with rfl | ⟨q, rfl, hq⟩
  · exact Nat.le_refl _
  · have hle := hq.countP_le (p := f)
    rw [List.countP_cons_of_neg (by simp [hf]), List.countP_cons_of_pos hg]
    omega

/-- Before every event of one kind there has been one of another. -/
def Led (f g : Event S → Bool) (tr : List (Event S)) : Prop :=
  ∀ p e, p ++ [e] <+: tr → f e = true → ∃ e' ∈ p, g e' = true

private theorem concat_prefix_append {γ : Type} {p xs ys : List γ} {e : γ}
    (h : p ++ [e] <+: xs ++ ys) :
    p ++ [e] <+: xs ∨ ∃ q, p = xs ++ q ∧ q ++ [e] <+: ys := by
  rcases Nat.le_total (p ++ [e]).length xs.length with hle | hle
  · exact .inl (List.prefix_of_prefix_length_le h (List.prefix_append xs ys) hle)
  · obtain ⟨q, hq⟩ := List.prefix_of_prefix_length_le (List.prefix_append xs ys) h hle
    rcases List.eq_nil_or_concat q with rfl | ⟨q, e', rfl⟩
    · rw [List.append_nil] at hq
      exact .inl (hq ▸ List.prefix_refl _)
    · rw [List.concat_eq_append, ← List.append_assoc] at hq
      obtain ⟨rfl, he⟩ := List.append_inj' hq rfl
      obtain rfl := List.singleton_inj.mp he
      rw [List.append_assoc] at h
      exact .inr ⟨q, rfl, (List.prefix_append_right_inj xs).mp h⟩

theorem additive_led (f g : Event S → Bool) : Additive (Led f g) where
  nil p e hp _ := by simp at hp
  append := by
    intro tr₁ tr₂ h₁ h₂ p e hp he
    rcases concat_prefix_append hp with hp | ⟨q, rfl, hq⟩
    · exact h₁ p e hp he
    · obtain ⟨e', he', hg⟩ := h₂ q e hq he
      exact ⟨e', List.mem_append_right _ he', hg⟩

theorem led_of_none {f g : Event S → Bool} {tr : List (Event S)} (h : ∀ e ∈ tr, f e = false) :
    Led f g tr := by
  intro p e hp he
  rw [h e (hp.subset (List.mem_append_right _ List.mem_cons_self))] at he
  cases he

theorem satisfies_led_bind {f g : Event S → Bool} {p : Program S ε α} {k : α → Program S ε β}
    (hp : Satisfies p (Led f g))
    (hlead : ∀ tr a, Exec p tr (.ok a) → ∃ e ∈ tr, g e = true) :
    Satisfies (p >>= k) (Led f g) := by
  intro tr out h
  rcases exec_bind_iff.mp h with ⟨e, h₁, -⟩ | ⟨a, tr₁, tr₂, rfl, h₁, -⟩
  · exact hp h₁
  · intro q e hq he
    rcases concat_prefix_append hq with hq | ⟨q', rfl, -⟩
    · exact hp h₁ q e hq he
    · obtain ⟨e', he', hg⟩ := hlead tr₁ a h₁
      exact ⟨e', List.mem_append_left _ he', hg⟩

section Rules

variable {I : List (Event S) → Prop}

private theorem satisfies_done (hI : Additive I) (a : α) :
    Satisfies (.done a : Program S ε α) I := by
  intro tr out h
  obtain ⟨rfl, -⟩ := exec_done_iff.mp h
  exact hI.nil

theorem satisfies_pure (hI : Additive I) (a : α) : Satisfies (pure a : Program S ε α) I :=
  satisfies_done hI a

theorem satisfies_ofExcept (hI : Additive I) (x : Except ε α) :
    Satisfies (.ofExcept x : Program S ε α) I := by
  intro tr out h
  obtain ⟨rfl, -⟩ := exec_ofExcept_iff.mp h
  exact hI.nil

theorem satisfies_perform {o : S.Op} (h : ∀ r, I [⟨o, r⟩]) :
    Satisfies (.perform o : Program S ε (S.Reply o)) I := by
  intro tr out hx
  obtain ⟨r, rfl, -⟩ := exec_perform_iff.mp hx
  exact h r

theorem satisfies_bind (hI : Additive I) {p : Program S ε α} {f : α → Program S ε β}
    (hp : Satisfies p I) (hf : ∀ a, Satisfies (f a) I) : Satisfies (p >>= f) I := by
  intro tr out h
  rcases exec_bind_iff.mp h with ⟨e, h, -⟩ | ⟨a, tr₁, tr₂, rfl, h₁, h₂⟩
  · exact hp h
  · exact hI.append (hp h₁) (hf a h₂)

theorem satisfies_forM (hI : Additive I) {xs : List α} {f : α → Program S ε PUnit}
    (hf : ∀ x ∈ xs, Satisfies (f x) I) : Satisfies (xs.forM f) I := by
  induction xs with
  | nil => exact satisfies_pure hI _
  | cons x xs ih =>
    have htail : Satisfies (xs.forM f) I := ih fun y hy => hf y (List.mem_cons_of_mem x hy)
    exact satisfies_bind hI (hf x (by simp)) fun _ => htail

end Rules

theorem exec_forM_ok {γ : Type} {f : α → Program S ε PUnit} {obs : Event S → Option γ}
    {w : α → List γ} {xs : List α}
    (hf : ∀ x ∈ xs, ∀ {tr : List (Event S)} {u : PUnit}, Exec (f x) tr (.ok u) →
      tr.filterMap obs = w x)
    {tr : List (Event S)} {u : PUnit} (h : Exec (xs.forM f) tr (.ok u)) :
    tr.filterMap obs = xs.flatMap w := by
  induction xs generalizing tr with
  | nil =>
    obtain ⟨rfl, -⟩ := exec_pure_iff.mp h
    rfl
  | cons x xs ih =>
    obtain ⟨_, tr₁, tr₂, rfl, hx, hxs⟩ := exec_bind_ok_iff.mp h
    have hhead := hf x (by simp) hx
    have htail := ih (fun y hy => hf y (List.mem_cons_of_mem x hy)) hxs
    rw [List.filterMap_append, hhead, htail, List.flatMap_cons]

def Returns (p : Program S ε α) : Prop :=
  ∀ ⦃tr : List (Event S)⦄ ⦃out : Except ε α⦄, Exec p tr out → out.isOk = true

theorem returns_pure (a : α) : Returns (pure a : Program S ε α) := by
  intro tr out h
  obtain ⟨-, rfl⟩ := exec_pure_iff.mp h
  rfl

theorem returns_perform (o : S.Op) : Returns (.perform o : Program S ε (S.Reply o)) := by
  intro tr out h
  obtain ⟨r, -, rfl⟩ := exec_perform_iff.mp h
  rfl

/-- Fed only replies with a given property, the program returns exactly under a condition. -/
def ReturnsIff (P : Event S → Prop) (p : Program S ε α) (c : Prop) : Prop :=
  ∀ ⦃tr : List (Event S)⦄ ⦃out : Except ε α⦄, Exec p tr out → (∀ e ∈ tr, P e) →
    (out.isOk = true ↔ c)

section Given

variable {P : Event S → Prop} {c d : Prop}

theorem Returns.iff {p : Program S ε α} (h : Returns p) : ReturnsIff P p True :=
  fun _ _ hx _ => iff_of_true (h hx) trivial

theorem ReturnsIff.congr {p : Program S ε α} (h : ReturnsIff P p c) (hcd : c ↔ d) :
    ReturnsIff P p d :=
  fun _ _ hx hP => (h hx hP).trans hcd

theorem returnsIff_bind {p : Program S ε α} {f : α → Program S ε β} (hp : ReturnsIff P p c)
    (hf : ∀ a, ReturnsIff P (f a) d) : ReturnsIff P (p >>= f) (c ∧ d) := by
  intro tr out h hP
  rcases exec_bind_iff.mp h with ⟨e, h₁, rfl⟩ | ⟨a, tr₁, tr₂, rfl, h₁, h₂⟩
  · refine iff_of_false Bool.false_ne_true fun hcd => ?_
    cases (hp h₁ hP).mpr hcd.1
  · have hc : c := (hp h₁ fun e he => hP e (List.mem_append_left tr₂ he)).mp rfl
    rw [hf a h₂ fun e he => hP e (List.mem_append_right tr₁ he), and_iff_right hc]

theorem returnsIff_ofExcept_bind {x : Except ε α} {f : α → Program S ε β} {d : α → Prop}
    (hf : ∀ a, x = .ok a → ReturnsIff P (f a) (d a)) :
    ReturnsIff P (.ofExcept x >>= f) (∃ a, x = .ok a ∧ d a) := by
  intro tr out h hP
  cases x with
  | error e =>
    obtain ⟨-, rfl⟩ := exec_fail_iff.mp h
    refine iff_of_false Bool.false_ne_true ?_
    rintro ⟨a, ha, -⟩
    cases ha
  | ok a =>
    rw [hf a rfl h hP]
    constructor
    · exact fun hd => ⟨a, rfl, hd⟩
    · rintro ⟨a', ha', hd⟩
      cases ha'
      exact hd

theorem returnsIff_forM {xs : List α} {f : α → Program S ε PUnit} {d : α → Prop}
    (hf : ∀ x ∈ xs, ReturnsIff P (f x) (d x)) :
    ReturnsIff P (xs.forM f) (∀ x ∈ xs, d x) := by
  induction xs with
  | nil => exact (returns_pure _).iff.congr (by simp)
  | cons x xs ih =>
    have htail : ReturnsIff P (xs.forM f) (∀ x ∈ xs, d x) :=
      ih fun y hy => hf y (List.mem_cons_of_mem x hy)
    exact (returnsIff_bind (hf x (by simp)) fun _ => htail).congr (by simp)

end Given

abbrev Handler (S : Signature) (σ : Type) := (o : S.Op) → σ → S.Reply o × σ

/-- The execution of a program against a given environment. -/
structure Run (S : Signature) (ε α σ : Type) where
  trace : List (Event S)
  out : Except ε α
  state : σ

def Program.run (h : Handler S σ) : Program S ε α → σ → Run S ε α σ
  | .done a, s => ⟨[], .ok a, s⟩
  | .fail e, s => ⟨[], .error e, s⟩
  | .call o k, s =>
    let rest := (k (h o s).1).run h (h o s).2
    ⟨⟨o, (h o s).1⟩ :: rest.trace, rest.out, rest.state⟩

theorem exec_run (h : Handler S σ) (p : Program S ε α) (s : σ) :
    Exec p (p.run h s).trace (p.run h s).out := by
  induction p generalizing s with
  | done a => exact .done a
  | fail e => exact .fail e
  | call o k ih => exact .call _ (ih (h o s).1 (h o s).2)

theorem exec_run_ok {h : Handler S σ} {p : Program S ε α} {s : σ} {P : α → Bool}
    (hout : (p.run h s).out.toOption.any P = true) :
    ∃ a, Exec p (p.run h s).trace (.ok a) ∧ P a = true := by
  have hexec := exec_run h p s
  cases hrun : (p.run h s).out with
  | error e =>
    rw [hrun] at hout
    cases hout
  | ok a =>
    rw [hrun] at hexec hout
    exact ⟨a, hexec, hout⟩

theorem run_forall {h : Handler S σ} {P : Event S → Prop} (hP : ∀ o s, P ⟨o, (h o s).1⟩)
    (p : Program S ε α) (s : σ) : ∀ e ∈ (p.run h s).trace, P e := by
  induction p generalizing s with
  | done a => simp [Program.run]
  | fail e => simp [Program.run]
  | call o k ih =>
    intro e he
    rcases List.mem_cons.mp he with rfl | he
    · exact hP o s
    · exact ih _ _ e he

theorem run_head {h : Handler S σ} {p : Program S ε α} {s : σ} {e : Event S} {tr : List (Event S)}
    (htr : (p.run h s).trace = e :: tr) : e = ⟨e.op, (h e.op s).1⟩ := by
  cases p with
  | done a => cases htr
  | fail e => cases htr
  | call o k =>
    cases htr
    rfl

end TicketWarden.Effects
