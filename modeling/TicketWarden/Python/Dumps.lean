/- Module: TicketWarden/Python/Dumps
   source: Python standard library (json.dumps)
   digest: The values that `json.dumps` writes, and those on which it raises. -/

import TicketWarden.Python.Numbers

set_option autoImplicit false
set_option relaxedAutoImplicit false

namespace TicketWarden.Python

section

variable (db : Runtime)

/-- The text of a number in JSON is that of `str`. -/
def dumpsInt (n : ℤ) : Except Exc Unit := (strOfInt n).map fun _ => ()

/-- `json.dumps` with so many levels of lists and dictionaries left; of its text only is kept
whether there is one. -/
def dumpsWithin : ℕ → Json → Except Exc Unit
  | _, .null => .ok ()
  | _, .bool _ => .ok ()
  | _, .int n => dumpsInt n
  | _, .float _ => .ok ()
  | _, .str _ => .ok ()
  | levels + 1, .list xs => xs.forM fun v => dumpsWithin levels v
  | levels + 1, .dict entries => entries.forM fun entry => dumpsWithin levels entry.2
  | 0, .list _ => .error ⟨"RecursionError", db.stackMessage⟩
  | 0, .dict _ => .error ⟨"RecursionError", db.stackMessage⟩

/-- `json.dumps(value, default=str)`. -/
def dumps (value : Json) : Except Exc Unit := dumpsWithin db db.dumpsDepth value

mutual

def nesting : Json → ℕ
  | .dict entries => 1 + entryNesting entries
  | .list xs => 1 + listNesting xs
  | .null | .bool _ | .int _ | .float _ | .str _ => 0

def entryNesting : List (String × Json) → ℕ
  | [] => 0
  | (_, v) :: rest => max (nesting v) (entryNesting rest)

def listNesting : List Json → ℕ
  | [] => 0
  | v :: rest => max (nesting v) (listNesting rest)

end

mutual

def ints : Json → List ℤ
  | .int n => [n]
  | .dict entries => entryInts entries
  | .list xs => listInts xs
  | .null | .bool _ | .float _ | .str _ => []

def entryInts : List (String × Json) → List ℤ
  | [] => []
  | (_, v) :: rest => ints v ++ entryInts rest

def listInts : List Json → List ℤ
  | [] => []
  | v :: rest => ints v ++ listInts rest

end

/-- A value that is not nested too deep, each of whose integers has a text. -/
def Serializable (value : Json) : Prop :=
  nesting value ≤ db.dumpsDepth ∧ ∀ n ∈ ints value, HasText n

instance (value : Json) : Decidable (Serializable db value) :=
  inferInstanceAs (Decidable (_ ∧ _))

private theorem forM_ok_iff {α : Type} {f : α → Except Exc Unit} {xs : List α} :
    xs.forM f = .ok () ↔ ∀ x ∈ xs, f x = .ok () := by
  induction xs with
  | nil => exact iff_of_true rfl (by simp)
  | cons x xs ih =>
    change (f x >>= fun _ => xs.forM f) = .ok () ↔ _
    rw [List.forall_mem_cons, ← ih]
    rcases f x with exc | ⟨⟩
    · exact iff_of_false (by rintro ⟨⟩) (by rintro ⟨⟨⟩, -⟩)
    · exact (and_iff_right rfl).symm

private theorem entries_within_iff {entries : List (String × Json)} {levels : ℕ} :
    (entryNesting entries ≤ levels ∧ ∀ n ∈ entryInts entries, HasText n) ↔
      ∀ entry ∈ entries, nesting entry.2 ≤ levels ∧
        ∀ n ∈ ints entry.2, HasText n := by
  induction entries with
  | nil => simp [entryNesting, entryInts]
  | cons entry rest ih =>
    rw [List.forall_mem_cons, ← ih, entryNesting, max_le_iff, entryInts, List.forall_mem_append]
    exact and_and_and_comm

private theorem list_within_iff {xs : List Json} {levels : ℕ} :
    (listNesting xs ≤ levels ∧ ∀ n ∈ listInts xs, HasText n) ↔
      ∀ v ∈ xs, nesting v ≤ levels ∧ ∀ n ∈ ints v, HasText n := by
  induction xs with
  | nil => simp [listNesting, listInts]
  | cons v rest ih =>
    rw [List.forall_mem_cons, ← ih, listNesting, max_le_iff, listInts, List.forall_mem_append]
    exact and_and_and_comm

mutual

private theorem dumpsWithin_ok_iff : ∀ (v : Json) (levels : ℕ), dumpsWithin db levels v = .ok () ↔
    nesting v ≤ levels ∧ ∀ n ∈ ints v, HasText n
  | .dict entries => by
    have hentries := dumpsEntries_ok_iff entries
    rintro (_ | levels)
    · exact iff_of_false (by rintro ⟨⟩) fun h => absurd h.1 (by simp [nesting])
    · have hroom : nesting (.dict entries) ≤ levels + 1 ↔ entryNesting entries ≤ levels := by
        rw [nesting]
        omega
      rw [dumpsWithin, forM_ok_iff, hroom, ints, entries_within_iff]
      exact forall₂_congr fun entry hentry => hentries entry hentry levels
  | .list xs => by
    have hxs := dumpsList_ok_iff xs
    rintro (_ | levels)
    · exact iff_of_false (by rintro ⟨⟩) fun h => absurd h.1 (by simp [nesting])
    · have hroom : nesting (.list xs) ≤ levels + 1 ↔ listNesting xs ≤ levels := by
        rw [nesting]
        omega
      rw [dumpsWithin, forM_ok_iff, hroom, ints, list_within_iff]
      exact forall₂_congr fun v hv => hxs v hv levels
  | .int n => by
    intro levels
    rw [dumpsWithin, nesting, ints, List.forall_mem_singleton, and_iff_right (Nat.zero_le levels),
      dumpsInt, strOfInt]
    by_cases hshort : HasText n
    · rw [if_pos hshort]
      exact iff_of_true rfl hshort
    · rw [if_neg hshort]
      exact iff_of_false (by rintro ⟨⟩) hshort
  | .null => by simp [dumpsWithin, nesting, ints]
  | .bool b => by simp [dumpsWithin, nesting, ints]
  | .float x => by simp [dumpsWithin, nesting, ints]
  | .str s => by simp [dumpsWithin, nesting, ints]

private theorem dumpsEntries_ok_iff : ∀ entries : List (String × Json), ∀ entry ∈ entries,
    ∀ levels, dumpsWithin db levels entry.2 = .ok () ↔
      nesting entry.2 ≤ levels ∧ ∀ n ∈ ints entry.2, HasText n
  | [] => by simp
  | (_, v) :: rest => List.forall_mem_cons.mpr ⟨dumpsWithin_ok_iff v, dumpsEntries_ok_iff rest⟩

private theorem dumpsList_ok_iff : ∀ xs : List Json, ∀ v ∈ xs, ∀ levels,
    dumpsWithin db levels v = .ok () ↔
      nesting v ≤ levels ∧ ∀ n ∈ ints v, HasText n
  | [] => by simp
  | v :: rest => List.forall_mem_cons.mpr ⟨dumpsWithin_ok_iff v, dumpsList_ok_iff rest⟩

end

theorem dumps_ok_iff {value : Json} : dumps db value = .ok () ↔ Serializable db value :=
  dumpsWithin_ok_iff db value db.dumpsDepth

end

end TicketWarden.Python
