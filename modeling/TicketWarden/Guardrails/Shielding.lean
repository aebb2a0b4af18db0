/- Module: TicketWarden/Guardrails/Shielding
   source: apps/api/src/guardrails/pii.py
   digest: Placeholders among other words of a text, and what putting the references back
   does to each of its parts. -/

import TicketWarden.Guardrails.PiiShape
import TicketWarden.Python.Replacing

set_option autoImplicit false
set_option relaxedAutoImplicit false

namespace TicketWarden.Guardrails

open Patterns Python

def nul : Char := Char.ofNat 0

def label (index : ℕ) : List Char := "REF".toList ++ (Nat.repr index).toList

theorem placeholder_eq (index : ℕ) : placeholder index = nul :: (label index ++ [nul]) := by
  simp [placeholder, label, nul]

theorem placeholder_ne_nil (index : ℕ) : placeholder index ≠ [] := by
  simp [placeholder_eq]

theorem label_head (index : ℕ) : (label index).head? = some 'R' := rfl

theorem label_isAlphanum {index : ℕ} {c : Char} (h : c ∈ label index) :
    c.isAlphanum = true := by
  rcases List.mem_append.mp h with h | h
  · have hall : ("REF".toList.all Char.isAlphanum) = true := by decide
    exact List.all_eq_true.mp hall c h
  · rw [Nat.toList_repr] at h
    have hdigit := Nat.isDigit_of_mem_toDigits (by decide) (by decide) h
    rw [Char.isAlphanum, hdigit, Bool.or_true]

private theorem nul_not_mem_label (index : ℕ) : nul ∉ label index := by
  intro h
  exact absurd (label_isAlphanum h) (by decide)

private theorem label_injective {i j : ℕ} (h : label i = label j) : i = j := by
  have hdigits := List.append_cancel_left h
  rw [Nat.toList_repr, Nat.toList_repr] at hdigits
  rw [← Nat.ofDigitChars_ten_toDigits (n := i), hdigits, Nat.ofDigitChars_ten_toDigits]

variable {db : Runtime}

theorem isWord_nul : db.isWord nul = false := by
  rw [isWord_ascii (by decide)]
  decide

theorem isWord_of_isAlphanum {c : Char} (h : c.isAlphanum = true) : db.isWord c = true := by
  have hlow : c.toNat < 128 := by
    by_contra hge
    rw [isAlphanum_eq_false (by omega)] at h
    cases h
  rw [isWord_ascii hlow, h, Bool.true_or]

private theorem eq_of_append_nul {u v w : List Char} (hw : nul ∉ w)
    (h : w ++ [nul] = u ++ nul :: v) :
    w = u ∧ v = [] := by
  rcases List.append_eq_append_iff.mp h with ⟨w', rfl, heq⟩ | ⟨w', rfl, heq⟩
  · cases w' with
    | nil => exact ⟨(List.append_nil w).symm, (List.cons.inj heq).2.symm⟩
    | cons x w' => exact absurd (congrArg List.length heq) (by simp)
  · cases w' with
    | nil => exact ⟨List.append_nil u, (List.cons.inj heq).2⟩
    | cons x w' =>
      obtain ⟨rfl, -⟩ := List.cons.inj heq
      exact absurd (List.mem_append_right u List.mem_cons_self) hw

private theorem nul_cons_append_eq {u v w : List Char} (hu : u ≠ []) (hv : v ≠ [])
    (h : nul :: (w ++ [nul]) = u ++ v) :
    ∃ a b, w = a ++ b ∧ u = nul :: a ∧ v = b ++ [nul] := by
  cases u with
  | nil => exact absurd rfl hu
  | cons x u =>
    obtain ⟨rfl, htail⟩ := List.cons.inj h
    rcases List.eq_nil_or_concat v with rfl | ⟨v, y, rfl⟩
    · exact absurd rfl hv
    · have hconcat : w ++ [nul] = (u ++ v) ++ [y] := by simpa using htail
      obtain ⟨hw', hy⟩ := List.append_inj' hconcat rfl
      obtain rfl := List.singleton_inj.mp hy
      exact ⟨u, v, hw', rfl, by simp⟩

private theorem apart_placeholder {index : ℕ} {a b : List Char}
    (h : ∀ u v, label index = u ++ v → nul :: u <:+ a → ¬ v ++ [nul] <+: b) :
    Apart (placeholder index) a b := by
  intro u v heq hu hv hua
  rw [placeholder_eq] at heq
  obtain ⟨u', v', hlabel, rfl, rfl⟩ := nul_cons_append_eq hu hv heq
  exact h u' v' hlabel hua

/-- A word that no placeholder can lie across: it has no NUL, and it is in no label. -/
structure Firm (word : List Char) : Prop where
  nul_not_mem : nul ∉ word
  not_infix : ∀ index, ¬ word <:+: label index

/-- Nothing from which a placeholder could go on at the NUL of the next one. -/
def ClosedAfter (gap : List Char) : Prop := ∀ index, ¬ nul :: label index <:+ gap

/-- Nothing that the last NUL of a placeholder would make another one. -/
def ClosedBefore (gap : List Char) : Prop :=
  ∀ index, gap ≠ label index ∧ ¬ label index ++ [nul] <+: gap

def weave (gap : List Char) : List (List Char × List Char) → List Char
  | [] => gap
  | (word, next) :: rest => gap ++ (word ++ weave next rest)

/-- Placeholders and firm words with gaps of which none makes another placeholder with the
one before or after it. -/
inductive Woven : List Char → List (List Char × List Char) → Prop
  | last (gap : List Char) : Woven gap []
  | firm {gap word next : List Char} {rest : List (List Char × List Char)} :
      Firm word → Woven next rest → Woven gap ((word, next) :: rest)
  | shielded {gap next : List Char} {rest : List (List Char × List Char)} (index : ℕ) :
      ClosedAfter gap → ClosedBefore next → Woven next rest →
      Woven gap ((placeholder index, next) :: rest)

section

variable {index : ℕ} {gap next word : List Char} {rest : List (List Char × List Char)}

private theorem Firm.apart_before (h : Firm word) (a b : List Char) :
    Apart (placeholder index) a (word ++ b) := by
  refine apart_placeholder fun u v hlabel _ hpre => ?_
  obtain ⟨tail, heq⟩ := hpre
  rw [List.append_assoc] at heq
  rcases List.append_eq_append_iff.mp heq with ⟨w, hword, htail⟩ | ⟨w, hv, -⟩
  · cases w with
    | nil => exact h.not_infix index ⟨u, [], by simp [hword, hlabel]⟩
    | cons x w =>
      obtain ⟨rfl, -⟩ := List.cons.inj htail
      exact h.nul_not_mem (by simp [hword])
  · exact h.not_infix index ⟨u, w, by simp [hv, hlabel]⟩

private theorem Firm.apart_after (h : Firm word) (b : List Char) :
    Apart (placeholder index) word b := by
  refine apart_placeholder fun u v _ hsuffix _ => ?_
  exact h.nul_not_mem (hsuffix.subset List.mem_cons_self)

private theorem ClosedAfter.apart (h : ClosedAfter gap) (b : List Char) :
    Apart (placeholder index) gap (nul :: b) := by
  refine apart_placeholder fun u v hlabel hsuffix hpre => ?_
  cases v with
  | nil =>
    rw [List.append_nil] at hlabel
    exact h index (hlabel ▸ hsuffix)
  | cons x v =>
    obtain ⟨rfl, -⟩ := List.cons_prefix_cons.mp hpre
    exact nul_not_mem_label index (by simp [hlabel])

private theorem ClosedBefore.exists_rest (h : ClosedBefore next) {b : List Char}
    (hpre : label index ++ [nul] <+: next ++ b) :
    ∃ v, label index = next ++ v ∧ v ≠ [] ∧ v ++ [nul] <+: b := by
  obtain ⟨tail, heq⟩ := hpre
  rw [List.append_assoc] at heq
  rcases List.append_eq_append_iff.mp heq with ⟨w, hnext, htail⟩ | ⟨v, hlabel, htail⟩
  · exfalso
    cases w with
    | nil => exact (h index).1 (by simpa using hnext)
    | cons x w =>
      obtain ⟨rfl, -⟩ := List.cons.inj htail
      exact (h index).2 ⟨w, by simp [hnext]⟩
  · refine ⟨v, hlabel, ?_, tail, by simp [htail]⟩
    rintro rfl
    exact (h index).1 (by simpa using hlabel.symm)

private theorem ClosedBefore.not_prefix (h : ClosedBefore next) (hwoven : Woven next rest) :
    ¬ label index ++ [nul] <+: weave next rest := by
  intro hpre
  cases hwoven with
  | last => exact (h index).2 hpre
  | firm hfirm _ =>
    obtain ⟨v, hlabel, -, hv⟩ := h.exists_rest hpre
    have heq : placeholder index = nul :: next ++ (v ++ [nul]) := by
      simp [placeholder_eq, hlabel]
    exact hfirm.apart_before (nul :: next) _ _ _ heq (by simp) (by simp) (List.suffix_refl _) hv
  | shielded j _ _ _ =>
    rw [weave, placeholder_eq] at hpre
    obtain ⟨v, hlabel, hne, hv⟩ := h.exists_rest hpre
    cases v with
    | nil => exact hne rfl
    | cons x v =>
      obtain ⟨rfl, -⟩ := List.cons_prefix_cons.mp hv
      exact nul_not_mem_label index (by simp [hlabel])

end

section

variable {index : ℕ} {ref gap word next : List Char} {rest : List (List Char × List Char)}

private theorem Firm.replace_eq (h : Firm word) : replace (placeholder index) ref word = word := by
  refine replace_eq_self (placeholder_ne_nil index) fun hinner => ?_
  exact h.nul_not_mem (hinner.subset (by simp [placeholder_eq]))

@[simp] theorem replace_placeholder :
    replace (placeholder index) ref (placeholder index) = ref := by
  have hfound := replace_found (placeholder_ne_nil index) ref []
  simpa using hfound

private theorem replace_placeholder_of_ne {j : ℕ} (hj : j ≠ index) :
    replace (placeholder index) ref (placeholder j) = placeholder j := by
  refine replace_eq_self (placeholder_ne_nil index) fun hinner => hj ?_
  obtain ⟨a, b, heq⟩ := hinner
  rw [placeholder_eq, placeholder_eq] at heq
  cases a with
  | nil =>
    have htail : label j ++ [nul] = label index ++ nul :: b := by simpa using heq.symm
    exact label_injective (eq_of_append_nul (nul_not_mem_label j) htail).1
  | cons x a =>
    have htail : label j ++ [nul] = a ++ nul :: (label index ++ nul :: b) := by
      simpa using (List.cons.inj heq).2.symm
    exact absurd (eq_of_append_nul (nul_not_mem_label j) htail).2 (by simp)

theorem ClosedAfter.replace (h : ClosedAfter gap) (href : Firm ref) :
    ClosedAfter (replace (placeholder index) ref gap) := fun j hsuffix =>
  h j (suffix_of_suffix_replace (placeholder_ne_nil index) href.nul_not_mem (href.not_infix j)
    hsuffix)

theorem ClosedBefore.replace (h : ClosedBefore gap) (href : Firm ref) :
    ClosedBefore (replace (placeholder index) ref gap) := by
  intro j
  constructor
  · intro heq
    have hsame : Python.replace (placeholder index) ref gap = gap :=
      replace_eq_self_of_not_infix (placeholder_ne_nil index) (heq ▸ href.not_infix j)
    exact (h j).1 (hsame.symm.trans heq)
  · intro hpre
    exact (h j).2 (prefix_of_prefix_replace (placeholder_ne_nil index) href.nul_not_mem
      (href.not_infix j) hpre)

theorem Woven.replace (h : Woven gap rest) (href : Firm ref) :
    Woven (replace (placeholder index) ref gap) (rest.map (Prod.map
      (replace (placeholder index) ref) (replace (placeholder index) ref))) := by
  induction h with
  | last gap => exact .last _
  | firm hfirm _ ih =>
    rw [List.map_cons, Prod.map, hfirm.replace_eq]
    exact .firm hfirm ih
  | shielded j hafter hbefore _ ih =>
    rw [List.map_cons, Prod.map]
    by_cases hj : j = index
    · subst hj
      rw [replace_placeholder]
      exact .firm href ih
    · rw [replace_placeholder_of_ne hj]
      exact .shielded j (hafter.replace href) (hbefore.replace href) ih

private theorem replace_weave (h : Woven gap rest) :
    replace (placeholder index) ref (weave gap rest) =
      weave (replace (placeholder index) ref gap) (rest.map (Prod.map
        (replace (placeholder index) ref) (replace (placeholder index) ref))) := by
  have hne := placeholder_ne_nil index
  induction h with
  | last gap => rfl
  | firm hfirm _ ih =>
    rw [weave, replace_append hne (hfirm.apart_before _ _),
      replace_append hne (hfirm.apart_after _), ih]
    rfl
  | @shielded gap next rest j hafter hbefore hrest ih =>
    have hapart : Apart (placeholder index) (placeholder j) (weave next rest) := by
      refine apart_placeholder fun u v hlabel hsuffix hpre => ?_
      have hu : u = [] := by
        obtain ⟨tail, heq⟩ := hsuffix
        cases tail with
        | nil =>
          rw [placeholder_eq] at heq
          have hmem : nul ∈ u := (List.cons.inj heq).2 ▸ List.mem_append_right _ (by simp)
          exact absurd (hlabel ▸ List.mem_append_left v hmem) (nul_not_mem_label index)
        | cons x tail =>
          rw [placeholder_eq] at heq
          exact (eq_of_append_nul (nul_not_mem_label j) (List.cons.inj heq).2.symm).2
      subst hu
      obtain rfl : label index = v := hlabel
      exact hbefore.not_prefix hrest hpre
    have hbefore' : Apart (placeholder index) gap (placeholder j ++ weave next rest) := by
      rw [placeholder_eq j]
      exact hafter.apart _
    rw [weave, replace_append hne hbefore',
      replace_append hne hapart, ih]
    rfl

end

def restore (index : ℕ) (saved : List (List Char)) (text : List Char) : List Char :=
  (saved.zipIdx index).foldl (fun text entry => replace (placeholder entry.2) entry.1 text) text

theorem unshieldBusinessRefs_eq (text : List Char) (saved : List (List Char)) :
    unshieldBusinessRefs text saved = restore 0 saved text := rfl

section

variable {index : ℕ} {saved : List (List Char)}

@[simp] theorem restore_nil (text : List Char) : restore index [] text = text := rfl

@[simp] theorem restore_cons (ref text : List Char) :
    restore index (ref :: saved) text =
      restore (index + 1) saved (replace (placeholder index) ref text) := rfl

/-- The references are put back in each part on its own. -/
theorem restore_weave (hsaved : ∀ ref ∈ saved, Firm ref) {gap : List Char}
    {rest : List (List Char × List Char)} (h : Woven gap rest) :
    restore index saved (weave gap rest) = weave (restore index saved gap)
      (rest.map (Prod.map (restore index saved) (restore index saved))) := by
  induction saved generalizing index gap rest with
  | nil =>
    have hid : restore index [] = id := rfl
    simp [hid]
  | cons ref saved ih =>
    have href : Firm ref := hsaved ref List.mem_cons_self
    rw [restore_cons, replace_weave h,
      ih (fun r hr => hsaved r (List.mem_cons_of_mem ref hr)) (h.replace href), List.map_map]
    rfl

theorem Firm.restore_eq {word : List Char} (h : Firm word) : restore index saved word = word := by
  induction saved generalizing index with
  | nil => rfl
  | cons ref saved ih => rw [restore_cons, h.replace_eq, ih]

theorem restore_placeholder (hsaved : ∀ ref ∈ saved, Firm ref) {i : ℕ} {ref : List Char}
    (h : saved[i]? = some ref) : restore index saved (placeholder (index + i)) = ref := by
  induction saved generalizing index i with
  | nil => cases h
  | cons first saved ih =>
    have hrest : ∀ r ∈ saved, Firm r := fun r hr => hsaved r (List.mem_cons_of_mem first hr)
    cases i with
    | zero =>
      obtain rfl : first = ref := Option.some.inj h
      have hfirst : Firm first := hsaved first List.mem_cons_self
      rw [Nat.add_zero, restore_cons, replace_placeholder, hfirst.restore_eq]
    | succ i =>
      have hne : index + (i + 1) ≠ index := by omega
      have hnext : restore (index + 1) saved (placeholder (index + 1 + i)) = ref := ih hrest h
      rw [restore_cons, replace_placeholder_of_ne hne, ← hnext, Nat.add_assoc, Nat.add_comm 1 i]

theorem restore_eq_self {text : List Char}
    (h : ∀ i, i < saved.length → ¬ placeholder (index + i) <:+: text) :
    restore index saved text = text := by
  induction saved generalizing index with
  | nil => rfl
  | cons ref saved ih =>
    have hfirst : ¬ placeholder index <:+: text := h 0 (Nat.succ_pos _)
    rw [restore_cons, replace_eq_self (placeholder_ne_nil index) hfirst]
    refine ih fun i hi => ?_
    have hnext := h (i + 1) (Nat.succ_lt_succ hi)
    rwa [Nat.add_assoc, Nat.add_comm 1 i]

private theorem count_restore_le (hsaved : ∀ ref ∈ saved, Firm ref) (text : List Char) :
    (restore index saved text).count nul ≤ text.count nul := by
  induction saved generalizing index text with
  | nil => exact Nat.le_refl _
  | cons ref saved ih =>
    have href : Firm ref := hsaved ref List.mem_cons_self
    have hrest : (restore (index + 1) saved (replace (placeholder index) ref text)).count nul ≤
        (replace (placeholder index) ref text).count nul :=
      ih (fun r hr => hsaved r (List.mem_cons_of_mem ref hr)) _
    exact hrest.trans (count_replace_le (placeholder_ne_nil index) href.nul_not_mem text)

theorem restore_ne_self (hsaved : ∀ ref ∈ saved, Firm ref) {text : List Char} {i : ℕ}
    (hi : i < saved.length) (h : placeholder (index + i) <:+: text) :
    (restore index saved text).count nul < text.count nul := by
  induction saved generalizing index i with
  | nil => cases hi
  | cons ref saved ih =>
    have href : Firm ref := hsaved ref List.mem_cons_self
    have hrest : ∀ r ∈ saved, Firm r := fun r hr => hsaved r (List.mem_cons_of_mem ref hr)
    have hne := placeholder_ne_nil index
    by_cases hfirst : placeholder index <:+: text
    · have hmem : nul ∈ placeholder index := by simp [placeholder_eq]
      have hlt := count_replace_lt hne href.nul_not_mem hmem hfirst
      exact lt_of_le_of_lt (count_restore_le hrest _) hlt
    · cases i with
      | zero => exact absurd h hfirst
      | succ i =>
        rw [restore_cons, replace_eq_self hne hfirst]
        refine ih hrest (Nat.lt_of_succ_lt_succ hi) ?_
        rwa [Nat.add_assoc, Nat.add_comm 1 i]

theorem count_restore {x : Char} (hsaved : ∀ ref ∈ saved, x ∉ ref)
    (hx : ∀ i, x ∉ placeholder i) (text : List Char) :
    (restore index saved text).count x = text.count x := by
  induction saved generalizing index text with
  | nil => rfl
  | cons ref saved ih =>
    have href : x ∉ ref := hsaved ref List.mem_cons_self
    rw [restore_cons, ih (fun r hr => hsaved r (List.mem_cons_of_mem ref hr)),
      count_replace (placeholder_ne_nil index) (hx index) href]

end

end TicketWarden.Guardrails
