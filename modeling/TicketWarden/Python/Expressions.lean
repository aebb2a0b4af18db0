/- Module: TicketWarden/Python/Expressions
   source: Python standard library (unicodedata, re)
   digest: The characters of the regular expressions of the guardrails, and what
   combinations of expressions ask about them. -/

import TicketWarden.Patterns.Alphabet
import TicketWarden.Patterns.Context
import TicketWarden.Python.Unicode

set_option autoImplicit false
set_option relaxedAutoImplicit false

namespace TicketWarden.Python

open Patterns

section

variable {x y : Option Char}

@[simp] theorem alike_cat {rs : List (Regex Char)} :
    (cat rs).Alike x y ↔ ∀ r ∈ rs, r.Alike x y := by
  induction rs with
  | nil => simp [cat, Regex.Alike]
  | cons r rs ih =>
    cases rs with
    | nil => simp [cat]
    | cons s rs => simp only [cat, Regex.Alike, ih, List.forall_mem_cons]

@[simp] theorem alike_oneOf {rs : List (Regex Char)} :
    (oneOf rs).Alike x y ↔ ∀ r ∈ rs, r.Alike x y := by
  induction rs with
  | nil => simp [oneOf, Regex.Alike]
  | cons r rs ih =>
    cases rs with
    | nil => simp [oneOf]
    | cons s rs => simp only [oneOf, Regex.Alike, ih, List.forall_mem_cons]

@[simp] theorem alike_word (s : String) : (word s).Alike x y := by
  simp [word, Regex.Alike]

@[simp] theorem alike_lit (s : String) : (lit s).Alike x y := by
  simp [lit, Regex.Alike]

@[simp] theorem alike_words (ss : List String) : (words ss).Alike x y := by
  simp [words]

end

theorem chars_cat (rs : List (Regex Char)) (x : Char) :
    (cat rs).chars x = rs.any fun r => r.chars x := by
  induction rs with
  | nil => rfl
  | cons r rs ih =>
    cases rs with
    | nil => simp [cat]
    | cons s rs => simp only [cat, Regex.chars, ih, List.any_cons]

theorem chars_oneOf (rs : List (Regex Char)) (x : Char) :
    (oneOf rs).chars x = rs.any fun r => r.chars x := by
  induction rs with
  | nil => rfl
  | cons r rs ih =>
    cases rs with
    | nil => simp [oneOf]
    | cons s rs => simp only [oneOf, Regex.chars, ih, List.any_cons]

section

variable {S : Char → Prop} {r r' s s' : Regex Char} {rs rs' : List (Regex Char)}

@[simp] theorem agree_cat_singleton : (cat [r]).Agree S (cat [r']) ↔ r.Agree S r' := Iff.rfl

@[simp] theorem agree_cat_cons :
    (cat (r :: s :: rs)).Agree S (cat (r' :: s' :: rs')) ↔
      r.Agree S r' ∧ (cat (s :: rs)).Agree S (cat (s' :: rs')) := Iff.rfl

@[simp] theorem agree_oneOf_singleton : (oneOf [r]).Agree S (oneOf [r']) ↔ r.Agree S r' := Iff.rfl

@[simp] theorem agree_oneOf_cons :
    (oneOf (r :: s :: rs)).Agree S (oneOf (r' :: s' :: rs')) ↔
      r.Agree S r' ∧ (oneOf (s :: rs)).Agree S (oneOf (s' :: rs')) := Iff.rfl

@[simp] theorem agree_opt : (opt r).Agree S (opt r') ↔ r.Agree S r' := by
  simp [opt, Regex.Agree]

end

def letter (c : Char) : Bool := (caseFold c).isLower

theorem letter_of_word {s : String} (hs : s.toList.all Char.isLower = true) {x : Char}
    (h : (word s).chars x = true) : letter x = true := by
  rw [word, chars_cat, List.any_map, List.any_eq_true] at h
  obtain ⟨c, hc, hx⟩ := h
  have heq : caseFold x = c := eq_of_beq hx
  rw [letter, heq]
  exact List.all_eq_true.mp hs c hc

theorem letter_of_words {ss : List String}
    (hss : ∀ s ∈ ss, s.toList.all Char.isLower = true) {x : Char}
    (h : (words ss).chars x = true) : letter x = true := by
  rw [words, chars_oneOf, List.any_map, List.any_eq_true] at h
  obtain ⟨s, hs, hx⟩ := h
  exact letter_of_word (hss s hs) hx

private theorem matches_letters_iff (cs : List Char) {p n : Option Char} {w : List Char} :
    (cat (cs.map fun x => .cls fun c => caseFold c == x)).Matches p w n ↔
      w.map caseFold = cs := by
  have hletter : ∀ (x : Char) (p n : Option Char) (w : List Char),
      (Regex.cls fun c => caseFold c == x).Matches p w n ↔ w.map caseFold = [x] := by
    intro x p n w
    constructor
    · rintro ⟨c, rfl, hc⟩
      exact congrArg ([·]) (eq_of_beq hc)
    · intro h
      obtain ⟨c, rfl, hc⟩ := List.map_eq_singleton_iff.mp h
      exact ⟨c, rfl, beq_iff_eq.mpr hc⟩
  induction cs generalizing p w with
  | nil => exact List.map_eq_nil_iff.symm
  | cons x cs ih =>
    cases cs with
    | nil => exact hletter x p n w
    | cons y cs =>
      constructor
      · rintro ⟨u, v, rfl, hu, hv⟩
        rw [List.map_append, (hletter x _ _ u).mp hu, ih.mp hv]
        rfl
      · intro h
        obtain ⟨c, v, rfl, hc, hv⟩ := List.map_eq_cons_iff.mp h
        exact ⟨[c], v, rfl, (hletter x _ _ [c]).mpr (congrArg ([·]) hc), ih.mpr hv⟩

theorem matches_word_iff {s : String} {p n : Option Char} {w : List Char} :
    (word s).Matches p w n ↔ w.map caseFold = s.toList :=
  matches_letters_iff s.toList

theorem exists_of_matches_words {ss : List String} {p n : Option Char} {w : List Char}
    (h : (words ss).Matches p w n) : ∃ s ∈ ss, w.map caseFold = s.toList := by
  induction ss with
  | nil =>
    obtain ⟨x, -, hx⟩ := h
    cases hx
  | cons s ss ih =>
    cases ss with
    | nil => exact ⟨s, List.mem_cons_self, matches_word_iff.mp h⟩
    | cons s' ss =>
      rcases h with h | h
      · exact ⟨s, List.mem_cons_self, matches_word_iff.mp h⟩
      · obtain ⟨r, hr, hw⟩ := ih h
        exact ⟨r, List.mem_cons_of_mem s hr, hw⟩

private theorem isUpper_iff {c : Char} : c.isUpper = true ↔ c.val ≥ 'A'.val ∧ c.val ≤ 'Z'.val :=
  decide_eq_true_iff

private theorem toLower_of_not_isUpper {c : Char} (h : ¬ c.isUpper = true) : c.toLower = c :=
  dif_neg (mt isUpper_iff.mpr h)

private theorem mem_caseExtra_or_isAlpha {c : Char} (h : letter c = true) :
    c ∈ caseExtra ∨ c.isAlpha = true := by
  unfold letter caseFold at h
  split at h
  · rename_i hc
    rcases hc with rfl | rfl
    · exact .inl (by simp [caseExtra])
    · exact .inl (by simp [caseExtra])
  split at h
  · rename_i hc
    subst hc
    exact .inl (by simp [caseExtra])
  split at h
  · rename_i hc
    subst hc
    exact .inl (by simp [caseExtra])
  · right
    apply Bool.or_eq_true_iff.mpr
    by_cases hupper : c.isUpper = true
    · exact .inl hupper
    · rw [toLower_of_not_isUpper hupper] at h
      exact .inr h

private theorem toNat_of_isAlpha {c : Char} (h : c.isAlpha = true) :
    65 ≤ c.toNat ∧ c.toNat ≤ 90 ∨ 97 ≤ c.toNat ∧ c.toNat ≤ 122 := by
  rcases Bool.or_eq_true_iff.mp h with hupper | hlower
  · have hrange := isUpper_iff.mp hupper
    exact .inl (by simpa [UInt32.le_iff_toNat_le] using hrange)
  · have hrange := Bool.and_eq_true_iff.mp hlower
    exact .inr (by simpa [UInt32.le_iff_toNat_le] using hrange)

/-! A character beyond ASCII that is no variant of a letter is in no word of an expression. -/

section

variable {c : Char}

theorem caseFold_eq (h : 128 ≤ c.toNat) (hc : c ∉ caseExtra) : caseFold c = c := by
  have hupper : ¬ c.isUpper = true := by
    intro hupper
    have hle : c.toNat ≤ 90 := by simpa [UInt32.le_iff_toNat_le] using (isUpper_iff.mp hupper).2
    omega
  simp only [caseExtra, List.mem_cons, List.not_mem_nil, or_false, not_or] at hc
  simp only [caseFold, hc, or_self, if_false]
  exact toLower_of_not_isUpper hupper

theorem chars_word_eq_false (h : 128 ≤ c.toNat) (hc : c ∉ caseExtra) {s : String}
    (hs : (s.toList.all fun x => decide (x.toNat < 128)) = true) : (word s).chars c = false := by
  rw [word, chars_cat, List.any_map, List.any_eq_false]
  intro x hx heq
  have hlow := of_decide_eq_true (List.all_eq_true.mp hs x hx)
  have hfold : caseFold c = x := eq_of_beq heq
  rw [caseFold_eq h hc] at hfold
  subst hfold
  omega

theorem chars_words_eq_false (h : 128 ≤ c.toNat) (hc : c ∉ caseExtra) {ss : List String}
    (hs : (ss.all fun s => s.toList.all fun x => decide (x.toNat < 128)) = true) :
    (words ss).chars c = false := by
  rw [words, chars_oneOf, List.any_map, List.any_eq_false]
  intro s hmem
  have hword := chars_word_eq_false h hc (List.all_eq_true.mp hs s hmem)
  simp [hword]

theorem chars_lit_eq_false (h : 128 ≤ c.toNat) {s : String}
    (hs : (s.toList.all fun x => decide (x.toNat < 128)) = true) : (lit s).chars c = false := by
  rw [lit, chars_cat, List.any_map, List.any_eq_false]
  intro x hx heq
  have hlow := of_decide_eq_true (List.all_eq_true.mp hs x hx)
  obtain rfl : c = x := eq_of_beq heq
  omega

theorem chars_among_eq_false (h : 128 ≤ c.toNat) {s : String}
    (hs : (s.toList.all fun x => decide (x.toNat < 128)) = true) : (among s).chars c = false := by
  simp only [among, Regex.chars, List.contains_eq_mem, decide_eq_false_iff_not]
  intro hmem
  have hlow := of_decide_eq_true (List.all_eq_true.mp hs c hmem)
  omega

theorem isAlphanum_eq_false (h : 128 ≤ c.toNat) : c.isAlphanum = false := by
  rw [Bool.eq_false_iff]
  intro halnum
  rcases Bool.or_eq_true_iff.mp halnum with halpha | hdigit
  · have hrange := toNat_of_isAlpha halpha
    omega
  · have hnine : '9'.toNat = 57 := rfl
    have hrange := Char.isDigit_iff_toNat.mp hdigit
    omega

end

variable {db : Runtime}

theorem isWord_of_isDecimal {c : Char} (h : db.isDecimal c = true) : db.isWord c = true := by
  rw [Runtime.isWord, db.isAlnum_of_isDecimal c h, Bool.true_or]

theorem holdsAt_isDecimal_eq_false {p : Option Char} (h : holdsAt db.isWord p = false) :
    holdsAt db.isDecimal p = false := by
  cases p with
  | none => rfl
  | some c =>
    cases hc : db.isDecimal c with
    | false => simp [hc]
    | true => exact absurd (isWord_of_isDecimal hc) (by simpa using h)

theorem isSpace_blank : db.isSpace ' ' = true :=
  (db.isSpace_ascii ' ' (by decide)).trans (by decide)

theorem isWord_ascii {c : Char} (h : c.toNat < 128) :
    db.isWord c = (c.isAlphanum || c == '_') := by
  rw [Runtime.isWord, db.isAlnum_ascii c h]

theorem isWord_of_letter {c : Char} (h : letter c = true) : db.isWord c = true := by
  rcases mem_caseExtra_or_isAlpha h with hextra | halpha
  · rw [Runtime.isWord, db.isAlnum_caseExtra c hextra, Bool.true_or]
  · have hrange := toNat_of_isAlpha halpha
    rw [isWord_ascii (by omega), Char.isAlphanum, halpha]
    rfl

theorem isDecimal_of_letter {c : Char} (h : letter c = true) : db.isDecimal c = false := by
  rcases mem_caseExtra_or_isAlpha h with hextra | halpha
  · exact db.isDecimal_caseExtra c hextra
  · have hrange := toNat_of_isAlpha halpha
    have hnine : '9'.toNat = 57 := rfl
    rw [db.isDecimal_ascii c (by omega), Bool.eq_false_iff, ne_eq, Char.isDigit_iff_toNat]
    omega

theorem isWord_of_isSpace {c : Char} (h : db.isSpace c = true) : db.isWord c = false := by
  have hunder : db.isSpace '_' = false := (db.isSpace_ascii '_' (by decide)).trans (by decide)
  have hne : c ≠ '_' := by
    rintro rfl
    rw [hunder] at h
    cases h
  simp [Runtime.isWord, db.isAlnum_of_isSpace c h, hne]

theorem isWord_of_mem {c : Char} {cs : List Char}
    (hcs : (cs.all fun c => decide (c.toNat < 128) && !(c.isAlphanum || c == '_')) = true)
    (hc : c ∈ cs) : db.isWord c = false := by
  have hall := List.all_eq_true.mp hcs c hc
  simp only [Bool.and_eq_true, decide_eq_true_eq, Bool.not_eq_true'] at hall
  rw [isWord_ascii hall.1, hall.2]

end TicketWarden.Python
