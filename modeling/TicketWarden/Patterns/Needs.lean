/- Module: TicketWarden/Patterns/Needs
   source: none (library)
   digest: How many characters of a kind every match of an expression has, and texts with
   too few of them to be matched anywhere. -/

import TicketWarden.Patterns.Scan

set_option autoImplicit false
set_option relaxedAutoImplicit false

namespace TicketWarden.Patterns

variable {α : Type} {p : α → Bool} {L M : Lang α} {j k : ℕ}

/-- Every word of the language has at least so many characters of a kind. -/
def Lang.Needs (L : Lang α) (p : α → Bool) (k : ℕ) : Prop :=
  ∀ ⦃prev : Option α⦄ ⦃w : List α⦄ ⦃next : Option α⦄, L prev w next → k ≤ w.countP p

theorem Lang.Needs.mono (h : L.Needs p k) (hjk : j ≤ k) : L.Needs p j := by
  intro prev w next hw
  have hk := h hw
  omega

private theorem Lang.needs_zero (L : Lang α) (p : α → Bool) : L.Needs p 0 :=
  fun _ _ _ _ => Nat.zero_le _

theorem Lang.Needs.seq (hL : L.Needs p j) (hM : M.Needs p k) : (L.seq M).Needs p (j + k) := by
  rintro prev w next ⟨u, v, rfl, hu, hv⟩
  have hj := hL hu
  have hk := hM hv
  rw [List.countP_append]
  omega

theorem Lang.Needs.pow (hL : L.Needs p k) (n : ℕ) : (L.pow n).Needs p (n * k) := by
  induction n with
  | zero => simpa using Lang.needs_zero _ p
  | succ n ih =>
    have hseq : (L.seq (L.pow n)).Needs p (k + n * k) := hL.seq ih
    rw [Nat.succ_mul, Nat.add_comm (n * k)]
    exact hseq

theorem Regex.needs_cls {q : α → Bool} (h : ∀ x, q x = true → p x = true) :
    (Regex.cls q).Matches.Needs p 1 := by
  rintro prev w next ⟨x, rfl, hx⟩
  have hp := h x hx
  simp [hp]

theorem Regex.needs_seq {r s : Regex α} (hr : r.Matches.Needs p j) (hs : s.Matches.Needs p k) :
    (Regex.seq r s).Matches.Needs p (j + k) :=
  hr.seq hs

theorem Regex.needs_left {r : Regex α} (s : Regex α) (hr : r.Matches.Needs p k) :
    (Regex.seq r s).Matches.Needs p k :=
  hr.seq (Lang.needs_zero s.Matches p)

theorem Regex.needs_right (r : Regex α) {s : Regex α} (hs : s.Matches.Needs p k) :
    (Regex.seq r s).Matches.Needs p k := by
  have h := (Lang.needs_zero r.Matches p).seq hs
  rwa [Nat.zero_add] at h

theorem Regex.needs_alt {r s : Regex α} (hr : r.Matches.Needs p k) (hs : s.Matches.Needs p k) :
    (Regex.alt r s).Matches.Needs p k := by
  rintro prev w next (hw | hw)
  · exact hr hw
  · exact hs hw

theorem Regex.needs_rep {r : Regex α} {lo : ℕ} {extra : Option ℕ} {greedy : Bool}
    (hr : r.Matches.Needs p k) : (Regex.rep r lo extra greedy).Matches.Needs p (lo * k) := by
  rintro prev w next ⟨n, hlo, -, hw⟩
  have hn := hr.pow n hw
  have hle : lo * k ≤ n * k := Nat.mul_le_mul_right k hlo
  omega

theorem Scans.mem_hits {r : Regex α} (hp : r.proper = true) {c : Cursor α} {ts : List (Token α)}
    (h : Scans r c ts) {w : List α} (hw : w ∈ hits ts) :
    w.Sublist c.rest ∧ ∃ prev next, r.Matches prev w next := by
  induction h with
  | nil prev => cases hw
  | char _ _ ih =>
    obtain ⟨hsub, hmatch⟩ := ih hw
    exact ⟨hsub.cons _, hmatch⟩
  | @hit prev u rest ts _ hmatch _ ih =>
    rcases List.mem_cons.mp hw with rfl | hw
    · have hm := Regex.matches_of_matchAt hp hmatch
      exact ⟨List.sublist_append_left w rest, _, _, hm⟩
    · obtain ⟨hsub, hmatch⟩ := ih hw
      exact ⟨hsub.trans (List.sublist_append_right u rest), hmatch⟩

theorem hits_eq_nil_of_needs {r : Regex α} (hp : r.proper = true) (hc : r.consumes = true)
    (h : r.Matches.Needs p k) {text : List α} (ht : text.countP p < k) :
    hits (r.scan text) = [] := by
  apply List.eq_nil_iff_forall_not_mem.mpr
  intro w hw
  obtain ⟨hsub, prev, next, hm⟩ := (scans_scan hp hc text).mem_hits hp hw
  have hle : w.countP p ≤ text.countP p := hsub.countP_le
  have hk := h hm
  omega

end TicketWarden.Patterns
