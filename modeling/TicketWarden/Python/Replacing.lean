/- Module: TicketWarden/Python/Replacing
   source: Python standard library (str.replace)
   digest: What replacing the occurrences of a word does to the parts of a text. -/

import TicketWarden.Python.Builtins

set_option autoImplicit false
set_option relaxedAutoImplicit false

namespace TicketWarden.Python

variable {old new : List Char}

private theorem replace_induction {motive : List Char → List Char → Prop} (hold : old ≠ [])
    (nil : motive [] [])
    (found : ∀ rest, motive rest (replace old new rest) →
      motive (old ++ rest) (new ++ replace old new rest))
    (passed : ∀ x xs, ¬ old <+: x :: xs → motive xs (replace old new xs) →
      motive (x :: xs) (x :: replace old new xs))
    (text : List Char) : motive text (replace old new text) := by
  induction hlen : text.length using Nat.strongRecOn generalizing text with
  | _ n ih =>
    subst hlen
    cases text with
    | nil => exact nil
    | cons x xs =>
      by_cases h : old <+: x :: xs
      · obtain ⟨rest, heq⟩ := h
        have hpos : 0 < old.length := List.length_pos_iff.mpr hold
        have hlt : rest.length < (x :: xs).length := by
          rw [← heq, List.length_append]
          omega
        rw [← heq, replace_found hold]
        exact found rest (ih _ hlt rest rfl)
      · rw [replace_passed hold new h]
        exact passed x xs h (ih _ (Nat.lt_succ_self _) xs rfl)

theorem replace_eq_self (hold : old ≠ []) {text : List Char} (h : ¬ old <:+: text) :
    replace old new text = text := by
  induction text with
  | nil => rfl
  | cons x xs ih =>
    have hxs : ¬ old <:+: xs := fun hxs => h (hxs.trans (List.suffix_cons x xs).isInfix)
    have hx : ¬ old <+: x :: xs := fun hx => h hx.isInfix
    rw [replace_passed hold new hx, ih hxs]

theorem replace_eq_self_of_not_infix (hold : old ≠ []) {text : List Char}
    (h : ¬ new <:+: replace old new text) : replace old new text = text := by
  refine replace_induction (motive := fun text out => ¬ new <:+: out → out = text) hold
    (fun _ => rfl) ?_ ?_ text h
  · intro rest _ hnot
    exact absurd (List.prefix_append new _).isInfix hnot
  · intro x xs _ ih hnot
    have htail : ¬ new <:+: replace old new xs :=
      fun hin => hnot (hin.trans (List.suffix_cons x _).isInfix)
    rw [ih htail]

/-- No occurrence of a word lies across the place where two texts meet. -/
def Apart (old a b : List Char) : Prop :=
  ∀ u v, old = u ++ v → u ≠ [] → v ≠ [] → u <:+ a → ¬ v <+: b

private theorem Apart.of_suffix {a a' b : List Char} (h : Apart old a b) (hsuffix : a' <:+ a) :
    Apart old a' b :=
  fun u v heq hu hv hua => h u v heq hu hv (hua.trans hsuffix)

theorem replace_append (hold : old ≠ []) {a b : List Char} (h : Apart old a b) :
    replace old new (a ++ b) = replace old new a ++ replace old new b := by
  refine replace_induction (motive := fun a out => Apart old a b →
    replace old new (a ++ b) = out ++ replace old new b) hold (fun _ => rfl) ?_ ?_ a h
  · intro rest ih hapart
    rw [List.append_assoc, replace_found hold, ih (hapart.of_suffix (List.suffix_append _ _)),
      List.append_assoc]
  · intro x xs hnot ih hapart
    have hnone : ¬ old <+: x :: (xs ++ b) := by
      rintro ⟨rest, heq⟩
      rcases List.append_eq_append_iff.mp
          (show old ++ rest = (x :: xs) ++ b from heq) with ⟨v, hx, -⟩ | ⟨v, hold', hb⟩
      · exact hnot ⟨v, hx.symm⟩
      · cases v with
        | nil => exact hnot ⟨[], by simp [hold']⟩
        | cons y v =>
          exact hapart (x :: xs) (y :: v) hold' (by simp) (by simp) (List.suffix_refl _)
            ⟨rest, hb.symm⟩
    rw [List.cons_append, replace_passed hold new hnone,
      ih (hapart.of_suffix (List.suffix_cons x xs)), List.cons_append]

section

variable {x : Char} {w text : List Char}

theorem prefix_of_prefix_replace (hold : old ≠ []) (hx : x ∉ new) (hw : ¬ new <:+: w)
    (h : w ++ [x] <+: replace old new text) : w ++ [x] <+: text := by
  refine replace_induction (motive := fun text out => ∀ w, ¬ new <:+: w → w ++ [x] <+: out →
    w ++ [x] <+: text) hold (fun _ _ h => h) ?_ ?_ text w hw h
  · intro rest _ w hw hpre
    obtain ⟨tail, heq⟩ := hpre
    exfalso
    rw [List.append_assoc] at heq
    rcases List.append_eq_append_iff.mp heq with ⟨v, hnew, htail⟩ | ⟨v, hword, -⟩
    · cases v with
      | nil => exact hw (by simp [hnew])
      | cons y v =>
        obtain ⟨rfl, -⟩ := List.cons.inj htail
        exact hx (by simp [hnew])
    · exact hw ⟨[], v, by simp [hword]⟩
  · intro y ys _ ih w hw hpre
    cases w with
    | nil =>
      obtain ⟨tail, heq⟩ := hpre
      obtain ⟨rfl, -⟩ := List.cons.inj heq
      exact ⟨ys, rfl⟩
    | cons z w =>
      obtain ⟨rfl, htail⟩ := List.cons_prefix_cons.mp hpre
      have hw' : ¬ new <:+: w := fun hin => hw (hin.trans (List.suffix_cons z w).isInfix)
      exact List.cons_prefix_cons.mpr ⟨rfl, ih w hw' htail⟩

theorem suffix_of_suffix_replace (hold : old ≠ []) (hx : x ∉ new) (hw : ¬ new <:+: w)
    (h : x :: w <:+ replace old new text) : x :: w <:+ text := by
  refine replace_induction (motive := fun text out => x :: w <:+ out → x :: w <:+ text) hold
    (fun h => h) ?_ ?_ text h
  · intro rest ih hsuffix
    rcases List.suffix_or_suffix_of_suffix hsuffix (List.suffix_append new _) with
      hrest | ⟨v, hv⟩
    · exact (ih hrest).trans (List.suffix_append old rest)
    · cases v with
      | nil =>
        have heq : replace old new rest = x :: w := hv
        exact (ih (heq ▸ List.suffix_refl _)).trans (List.suffix_append old rest)
      | cons y v =>
        obtain ⟨rfl, -⟩ := List.cons.inj hv
        obtain ⟨before, hbefore⟩ := hsuffix
        rw [← hv, ← List.append_assoc] at hbefore
        have hnew : before ++ y :: v = new := List.append_cancel_right hbefore
        exact absurd (hnew ▸ List.mem_append_right before List.mem_cons_self) hx
  · intro y ys _ ih hsuffix
    rcases List.suffix_cons_iff.mp hsuffix with heq | htail
    · obtain ⟨rfl, rfl⟩ := List.cons.inj heq
      have hys : replace old new ys = ys := replace_eq_self_of_not_infix hold hw
      exact ⟨[], congrArg (x :: ·) hys⟩
    · exact (ih htail).trans (List.suffix_cons y ys)

end

theorem count_replace_le (hold : old ≠ []) {x : Char} (hx : x ∉ new) (text : List Char) :
    (replace old new text).count x ≤ text.count x := by
  refine replace_induction (motive := fun text out => out.count x ≤ text.count x) hold
    (Nat.le_refl _) ?_ ?_ text
  · intro rest ih
    have hzero : new.count x = 0 := List.count_eq_zero.mpr hx
    rw [List.count_append, List.count_append]
    omega
  · intro y ys _ ih
    rw [List.count_cons, List.count_cons]
    omega

theorem count_replace_lt (hold : old ≠ []) {x : Char} (hx : x ∉ new) (hxold : x ∈ old)
    {text : List Char} (h : old <:+: text) : (replace old new text).count x < text.count x := by
  refine replace_induction (motive := fun text out => old <:+: text →
    out.count x < text.count x) hold ?_ ?_ ?_ text h
  · intro hnil
    exact absurd (List.infix_nil.mp hnil) hold
  · intro rest _ _
    have hzero : new.count x = 0 := List.count_eq_zero.mpr hx
    have hpos : 0 < old.count x := List.count_pos_iff.mpr hxold
    have hle := count_replace_le hold hx rest
    rw [List.count_append, List.count_append]
    omega
  · intro y ys hnot ih hinner
    have htail : old <:+: ys := (List.infix_cons_iff.mp hinner).resolve_left hnot
    have hlt := ih htail
    rw [List.count_cons, List.count_cons]
    omega

theorem count_replace (hold : old ≠ []) {x : Char} (hxold : x ∉ old) (hx : x ∉ new)
    (text : List Char) : (replace old new text).count x = text.count x := by
  refine replace_induction (motive := fun text out => out.count x = text.count x) hold rfl
    ?_ ?_ text
  · intro rest ih
    rw [List.count_append, List.count_append, ih, List.count_eq_zero.mpr hxold,
      List.count_eq_zero.mpr hx]
  · intro y ys _ ih
    rw [List.count_cons, List.count_cons, ih]

end TicketWarden.Python
