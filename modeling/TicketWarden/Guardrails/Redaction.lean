/- Module: TicketWarden/Guardrails/Redaction
   source: apps/api/src/guardrails/pii.py
   digest: Redaction keeps every business reference in its order, and the count of personal
   data agrees with it unless a placeholder stood in the text. -/

import TicketWarden.Guardrails.Masking

set_option autoImplicit false
set_option relaxedAutoImplicit false

namespace TicketWarden.Guardrails

open Patterns Python

variable {db : Runtime}

private theorem masked_eq_self {ks : List Category} {text : List Char}
    (h : ∀ k ∈ ks, (k.pattern db).findAll text = []) : masked db ks text = text := by
  induction ks with
  | nil => rfl
  | cons k ks ih =>
    have hhead := h k List.mem_cons_self
    rw [masked, List.foldl_cons, Regex.sub_eq_self (k.proper db) (k.consumes db) hhead]
    exact ih fun k' hk' => h k' (List.mem_cons_of_mem k hk')

private theorem redactChars_nil : redactChars db [] = [] := by
  have hmask : maskPii db (shieldBusinessRefs db []).1 = [] := by
    rw [maskPii_eq]
    exact masked_eq_self fun _ _ => rfl
  rw [redactChars_eq_restore, hmask]
  rfl

theorem toList_redactPii (text : String) :
    (redactPii db text).toList = redactChars db text.toList := by
  by_cases hempty : text = ""
  · rw [redactPii, if_pos hempty, hempty, String.toList_empty, redactChars_nil]
  · rw [redactPii, if_neg hempty, String.toList_ofList]

variable (db)

def InOrder : List (List Char) → List Char → Prop
  | [], _ => True
  | w :: ws, text => ∃ before after, text = before ++ w ++ after ∧ InOrder ws after

private theorem inOrder_weave (gap : List Char) (rest : List (List Char × List Char)) :
    InOrder (rest.map Prod.fst) (weave gap rest) := by
  induction rest generalizing gap with
  | nil => trivial
  | cons part rest ih =>
    exact ⟨gap, weave part.2 rest, (List.append_assoc _ _ _).symm, ih part.2⟩

/-- No reference is lost, changed or moved. -/
theorem inOrder_references (text : String) (h : text.length ≤ 8000) :
    InOrder (references db text.toList) (redactPii db text).toList := by
  have hcount : (references db text.toList).length ≤ 10 ^ 9 := by
    have hle : (references db text.toList).length ≤ text.toList.length :=
      (scans_references db text.toList).length_hits_le
    rw [String.length_toList] at hle
    omega
  obtain ⟨ps, hmasked, -, hrefs, hedged, -⟩ :=
    @exists_pieces db (fun _ _ => True) text.toList hcount trivial
      fun _ _ _ _ _ _ _ _ => trivial
  have hwords : ((parts ps).map fun part =>
      (part.1.1, restore 0 (references db text.toList) part.2)).map Prod.fst =
        references db text.toList := by
    have hfst : (refs ps).map Prod.fst = references db text.toList := by
      rw [hrefs, List.zipIdx_map_fst]
    rw [← hfst, ← map_fst_parts, List.map_map, List.map_map]
    rfl
  have horder := inOrder_weave (restore 0 (references db text.toList) (gap ps))
    ((parts ps).map fun part => (part.1.1, restore 0 (references db text.toList) part.2))
  rw [hwords] at horder
  rw [toList_redactPii, redactChars_eq_restored hmasked hrefs hedged]
  exact horder

theorem inOrder_references_around_card :
    InOrder ["order 1234567890".toList, "REF#5551234567".toList]
      (redactPii asciiData "order 1234567890, card 4111 1111 1111 1111, REF#5551234567").toList := by
  have hrefs : references asciiData
      "order 1234567890, card 4111 1111 1111 1111, REF#5551234567".toList =
        ["order 1234567890".toList, "REF#5551234567".toList] := by decide +kernel
  have horder := inOrder_references asciiData
    "order 1234567890, card 4111 1111 1111 1111, REF#5551234567" (by decide +kernel)
  rw [hrefs] at horder
  exact horder

/-- Personal data is matched somewhere in the text while its references are set aside. -/
def Exposed (text : List Char) : Prop :=
  ∃ k : Category, ∃ a w b, (shieldBusinessRefs db text).1 = a ++ w ++ b ∧
    (k.pattern db).Matches a.getLast? w b.head?

/-- The placeholder of one of its references stands in the text. -/
def Forged (text : List Char) : Prop :=
  ∃ index < (references db text).length, placeholder index <:+: text

variable {db}

private theorem exposed_iff {text : List Char} :
    Exposed db text ↔
      ∃ k ∈ categories, (k.pattern db).findAll (shieldBusinessRefs db text).1 ≠ [] := by
  have hiff : ∀ k : Category, (k.pattern db).findAll (shieldBusinessRefs db text).1 ≠ [] ↔
      ∃ a w b, (shieldBusinessRefs db text).1 = a ++ w ++ b ∧
        (k.pattern db).Matches a.getLast? w b.head? := by
    intro k
    have hscan := scans_scan (k.proper db) (k.consumes db) (shieldBusinessRefs db text).1
    rw [Regex.findAll, ne_eq, hscan.hits_eq_nil_iff (k.proper db) (k.consumes db)]
    simp
  constructor
  · rintro ⟨k, hk⟩
    exact ⟨k, by cases k <;> decide, (hiff k).mpr hk⟩
  · rintro ⟨k, -, hk⟩
    exact ⟨k, (hiff k).mp hk⟩

private theorem findPii_ne_nil_iff (text : String) :
    findPii db text ≠ [] ↔ Exposed db text.toList := by
  by_cases hempty : text = ""
  · subst hempty
    rw [exposed_iff]
    constructor
    · intro h
      exact absurd rfl h
    · rintro ⟨k, -, hk⟩
      exact absurd rfl hk
  · have hpatterns : (piiPatterns db).map Prod.snd = categories.map (Category.pattern db) := rfl
    rw [findPii, if_neg hempty, exposed_iff, ne_eq, List.filterMap_eq_nil_iff]
    constructor
    · intro h
      by_contra hnone
      refine h fun entry hentry => ?_
      have hmem : entry.2 ∈ categories.map (Category.pattern db) :=
        hpatterns ▸ List.mem_map_of_mem hentry
      obtain ⟨k, hk, heq⟩ := List.mem_map.mp hmem
      rw [if_pos]
      by_contra hhits
      exact hnone ⟨k, hk, heq ▸ hhits⟩
    · rintro ⟨k, hk, hhits⟩ hall
      have hmem : Category.pattern db k ∈ (piiPatterns db).map Prod.snd :=
        hpatterns ▸ List.mem_map_of_mem hk
      obtain ⟨entry, hentry, heq⟩ := List.mem_map.mp hmem
      have hnone := hall entry hentry
      rw [heq, if_neg hhits] at hnone
      cases hnone

private theorem count_mask (k : Category) (text : List Char) :
    ((k.pattern db).sub mask text).count '[' =
      text.count '[' + ((k.pattern db).findAll text).length := by
  have hcount := Regex.count_sub (k.proper db) (k.consumes db) (chars_open k) mask text
  have hone : mask.count '[' = 1 := by decide
  rwa [hone, Nat.mul_one] at hcount

private theorem count_masked_lt {ks : List Category} {text : List Char}
    (h : ∃ k ∈ ks, (k.pattern db).findAll text ≠ []) :
    text.count '[' < (masked db ks text).count '[' := by
  have hle : ∀ (ks : List Category) (text : List Char),
      text.count '[' ≤ (masked db ks text).count '[' := by
    intro ks
    induction ks with
    | nil => exact fun _ => Nat.le_refl _
    | cons k ks ih =>
      intro text
      have hmore : text.count '[' ≤ ((k.pattern db).sub mask text).count '[' := by
        rw [count_mask]
        omega
      exact hmore.trans (ih _)
  induction ks with
  | nil =>
    obtain ⟨k, hk, -⟩ := h
    cases hk
  | cons k ks ih =>
    by_cases hhits : (k.pattern db).findAll text = []
    · rw [masked, List.foldl_cons, Regex.sub_eq_self (k.proper db) (k.consumes db) hhits]
      apply ih
      obtain ⟨k', hk', hhits'⟩ := h
      rcases List.mem_cons.mp hk' with rfl | hk'
      · exact absurd hhits hhits'
      · exact ⟨k', hk', hhits'⟩
    · have hpos : 0 < ((k.pattern db).findAll text).length := List.length_pos_iff.mpr hhits
      have hmore : text.count '[' < ((k.pattern db).sub mask text).count '[' := by
        rw [count_mask]
        omega
      exact lt_of_lt_of_le hmore (hle ks _)

private theorem count_shield (text : List Char) :
    (shieldBusinessRefs db text).1.count '[' = text.count '[' := by
  have hstash : ∀ {c : Cursor Char} {ts : List (Token Char)} (n : ℕ),
      Scans (businessRef db) c ts → (stash n ts).count '[' = c.rest.count '[' := by
    intro c ts n h
    induction h generalizing n with
    | nil => rfl
    | char _ _ ih => rw [stash, List.count_cons, List.count_cons, ih]
    | @hit prev w rest ts _ hmatch _ ih =>
      have hm := Regex.matches_of_matchAt (by rfl) hmatch
      have hword : '[' ∉ w := not_mem_of_businessRef hm (by decide) (by decide)
      rw [stash, List.count_append, List.count_append, ih, List.count_eq_zero.mpr hword,
        List.count_eq_zero.mpr (not_mem_placeholder (by decide) (by decide) n)]
  exact hstash 0 (scans_references db text)

theorem redactChars_ne_self {text : List Char} (h : Exposed db text) :
    redactChars db text ≠ text := by
  intro heq
  have hmasked := count_masked_lt (exposed_iff.mp h)
  rw [← maskPii_eq, count_shield] at hmasked
  have hrefs : ∀ ref ∈ references db text, '[' ∉ ref := fun _ => open_not_mem
  have hcount : (redactChars db text).count '[' =
      (maskPii db (shieldBusinessRefs db text).1).count '[' := by
    rw [redactChars_eq_restore]
    exact count_restore hrefs (not_mem_placeholder (by decide) (by decide)) _
  rw [heq] at hcount
  omega

private theorem woven_of_firm {gap : List Char} {rest : List (List Char × List Char)}
    (h : ∀ part ∈ rest, Firm part.1) : Woven gap rest := by
  induction rest generalizing gap with
  | nil => exact .last gap
  | cons part rest ih =>
    exact .firm (h part List.mem_cons_self) (ih fun q hq => h q (List.mem_cons_of_mem part hq))

private theorem restored_eq_restore {saved : List (List Char)} {ps : List Part}
    (hsaved : ∀ ref ∈ saved, Firm ref) (hparts : ∀ part ∈ parts ps, Firm part.1.1) :
    restored saved ps =
      restore 0 saved (weave (gap ps) ((parts ps).map fun part => (part.1.1, part.2))) := by
  have hwoven : Woven (gap ps) ((parts ps).map fun part => (part.1.1, part.2)) := by
    apply woven_of_firm
    intro part hpart
    obtain ⟨part, hmem, rfl⟩ := List.mem_map.mp hpart
    exact hparts part hmem
  rw [restore_weave hsaved hwoven, restored, List.map_map]
  congr 1
  apply List.map_congr_left
  intro part hpart
  exact Prod.ext (hparts part hpart).restore_eq.symm rfl

theorem redactChars_of_not_exposed {text : List Char} (h : ¬ Exposed db text) :
    redactChars db text = restore 0 (references db text) text := by
  have hscan := scans_references db text
  have hnone : ∀ k ∈ categories, (k.pattern db).findAll (shieldBusinessRefs db text).1 = [] := by
    intro k hk
    by_contra hhits
    exact h (exposed_iff.mpr ⟨k, hk, hhits⟩)
  have hmask : maskPii db (shieldBusinessRefs db text).1 = (shieldBusinessRefs db text).1 := by
    rw [maskPii_eq]
    exact masked_eq_self hnone
  have hfirm : ∀ ref ∈ references db text, Firm ref := fun ref => firm_of_mem
  have hrefs : refs (pieces 0 ((businessRef db).scan text)) = (references db text).zipIdx :=
    refs_pieces 0 _
  have hparts : ∀ part ∈ parts (pieces 0 ((businessRef db).scan text)), Firm part.1.1 := by
    intro part hpart
    have hmem : part.1 ∈ (references db text).zipIdx := by
      rw [← hrefs, ← map_fst_parts]
      exact List.mem_map_of_mem hpart
    exact hfirm _ (List.mem_of_getElem? (List.mem_zipIdx_iff_getElem?.mp hmem))
  have hrender : render face (pieces 0 ((businessRef db).scan text)) =
      (shieldBusinessRefs db text).1 := render_pieces 0 _
  have hleft : redactChars db text =
      restored (references db text) (pieces 0 ((businessRef db).scan text)) := by
    rw [← restore_render hfirm (edged_pieces 0 hscan) hrefs, hrender, ← hmask]
    exact redactChars_eq_restore db text
  rw [hleft, restored_eq_restore hfirm hparts, ← render_final_eq_weave, render_final_pieces,
    hscan.flatMap_text]

theorem restore_references_eq_self_iff (text : List Char) :
    restore 0 (references db text) text = text ↔ ¬ Forged db text := by
  constructor
  · rintro heq ⟨index, hindex, hinner⟩
    have hlt : (restore 0 (references db text) text).count nul < text.count nul :=
      restore_ne_self (fun ref => firm_of_mem) hindex (by simpa using hinner)
    rw [heq] at hlt
    exact lt_irrefl _ hlt
  · intro hforged
    apply restore_eq_self
    intro index hindex hinner
    exact hforged ⟨index, hindex, by simpa using hinner⟩

variable (db)

/-- Redaction and the audit count agree unless nothing is found and a placeholder of one of
the references stood in the text. -/
theorem redaction_counted_iff (text : String) :
    (redactPii db text ≠ text ↔ findPii db text ≠ []) ↔
      Exposed db text.toList ∨ ¬ Forged db text.toList := by
  have hredact : redactPii db text = text ↔ redactChars db text.toList = text.toList := by
    rw [← toList_redactPii, String.toList_inj]
  rw [findPii_ne_nil_iff, ne_eq, hredact]
  by_cases hexposed : Exposed db text.toList
  · have hne := redactChars_ne_self hexposed
    exact iff_of_true (iff_of_true hne hexposed) (.inl hexposed)
  · rw [redactChars_of_not_exposed hexposed, restore_references_eq_self_iff]
    simp only [hexposed, iff_false, not_not, false_or]

def forgedOrder : String := String.ofList (placeholder 0 ++ " order 123".toList)

theorem not_counted_forgedOrder : ¬ ∀ text : String, text.length ≤ 8000 →
    (redactPii asciiData text ≠ text ↔ findPii asciiData text ≠ []) := by
  intro hclaim
  have hfind : findPii asciiData forgedOrder = [] := by decide +kernel
  have hredact : redactPii asciiData forgedOrder = "order 123 order 123" := by decide +kernel
  have hne : "order 123 order 123" ≠ forgedOrder := by decide +kernel
  have hcounted := (hclaim forgedOrder (by decide +kernel)).mp (hredact ▸ hne)
  exact hcounted hfind

end TicketWarden.Guardrails
