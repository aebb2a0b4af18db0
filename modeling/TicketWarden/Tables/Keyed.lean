/- Module: TicketWarden/Tables/Keyed
   source: none (library)
   digest: Rows with a primary key, and inserts that pass over a key already there. -/

import Mathlib.Data.List.Nodup
import Mathlib.Data.List.Sort

set_option autoImplicit false
set_option relaxedAutoImplicit false

namespace TicketWarden.Tables

/-- Where a table stores a new row: the rows there are stay in their order. -/
structure Placement (α : Type) where
  place : List α → α → List α
  keeps : ∀ (rows : List α) (row : α), rows.Sublist (place rows row)
  adds : ∀ (rows : List α) (row : α), (place rows row).Perm (row :: rows)

def atEnd (α : Type) : Placement α where
  place rows row := rows ++ [row]
  keeps rows row := List.sublist_append_left rows [row]
  adds rows row := List.perm_append_singleton row rows

section

variable {κ α : Type} [LinearOrder κ] (key : α → κ)

def byKey : Placement α where
  place rows row := rows.orderedInsert (fun r r' => key r ≤ key r') row
  keeps rows row := List.sublist_orderedInsert row rows
  adds rows row := List.perm_orderedInsert _ row rows

/-- Rows in the order of their keys. -/
def Ordered (rows : List α) : Prop := rows.Pairwise fun r r' => key r ≤ key r'

private theorem ordered_place {rows : List α} (h : Ordered key rows) (row : α) :
    Ordered key ((byKey key).place rows row) := by
  have htotal : Std.Total fun r r' : α => key r ≤ key r' := ⟨fun r r' => le_total (key r) (key r')⟩
  have htrans : IsTrans α fun r r' => key r ≤ key r' := ⟨fun _ _ _ => le_trans⟩
  exact List.Pairwise.orderedInsert row rows h

end

variable {κ α : Type} [DecidableEq κ] (key : α → κ) (slot : Placement α)

def insertOrIgnore (rows : List α) (row : α) : List α :=
  if key row ∈ rows.map key then rows else slot.place rows row

def insertAllOrIgnore (rows new : List α) : List α :=
  new.foldl (insertOrIgnore key slot) rows

private theorem insertAllOrIgnore_keeps {P : List α → Prop}
    (hstep : ∀ rows row, P rows → P (insertOrIgnore key slot rows row)) {rows : List α}
    (h : P rows) (new : List α) : P (insertAllOrIgnore key slot rows new) := by
  induction new generalizing rows with
  | nil => exact h
  | cons row new ih => exact ih (hstep rows row h)

private theorem nodup_insertOrIgnore (rows : List α) (row : α) (h : (rows.map key).Nodup) :
    ((insertOrIgnore key slot rows row).map key).Nodup := by
  unfold insertOrIgnore
  split
  · exact h
  · rename_i hfree
    rw [((slot.adds rows row).map key).nodup_iff, List.map_cons]
    exact List.nodup_cons.mpr ⟨hfree, h⟩

theorem nodup_insertAllOrIgnore {rows : List α} (h : (rows.map key).Nodup) (new : List α) :
    ((insertAllOrIgnore key slot rows new).map key).Nodup :=
  insertAllOrIgnore_keeps key slot (nodup_insertOrIgnore key slot) h new

theorem ordered_insertAllOrIgnore {κ : Type} [LinearOrder κ] {key : α → κ} {rows : List α}
    (h : Ordered key rows) (new : List α) :
    Ordered key (insertAllOrIgnore key (byKey key) rows new) := by
  refine insertAllOrIgnore_keeps key (byKey key) (fun rows row hrows => ?_) h new
  unfold insertOrIgnore
  split
  · exact hrows
  · exact ordered_place key hrows row

private theorem sublist_insertOrIgnore (rows : List α) (row : α) :
    rows.Sublist (insertOrIgnore key slot rows row) := by
  unfold insertOrIgnore
  split
  · exact List.Sublist.refl rows
  · exact slot.keeps rows row

theorem sublist_insertAllOrIgnore (rows new : List α) :
    rows.Sublist (insertAllOrIgnore key slot rows new) :=
  insertAllOrIgnore_keeps key slot (P := rows.Sublist)
    (fun rows' row h => h.trans (sublist_insertOrIgnore key slot rows' row))
    (List.Sublist.refl rows) new

private theorem key_mem_insertOrIgnore (rows : List α) (row : α) :
    key row ∈ (insertOrIgnore key slot rows row).map key := by
  unfold insertOrIgnore
  split
  · assumption
  · exact List.mem_map_of_mem ((slot.adds rows row).mem_iff.mpr List.mem_cons_self)

theorem key_mem_insertAllOrIgnore (rows : List α) {new : List α} {row : α} (h : row ∈ new) :
    key row ∈ (insertAllOrIgnore key slot rows new).map key := by
  induction new generalizing rows with
  | nil => cases h
  | cons r new ih =>
    rcases List.mem_cons.mp h with rfl | h
    · exact ((sublist_insertAllOrIgnore key slot _ new).map key).subset
        (key_mem_insertOrIgnore key slot rows row)
    · exact ih _ h

theorem mem_insertAllOrIgnore {rows new : List α} {row : α}
    (h : row ∈ insertAllOrIgnore key slot rows new) : row ∈ rows ∨ row ∈ new := by
  induction new generalizing rows with
  | nil => exact .inl h
  | cons r new ih =>
    rcases ih h with h | h
    · unfold insertOrIgnore at h
      split at h
      · exact .inl h
      · rcases List.mem_cons.mp ((slot.adds rows r).mem_iff.mp h) with rfl | h
        · exact .inr List.mem_cons_self
        · exact .inl h
    · exact .inr (List.mem_cons_of_mem r h)

private theorem insertAllOrIgnore_of_taken {rows new : List α}
    (h : ∀ row ∈ new, key row ∈ rows.map key) :
    insertAllOrIgnore key slot rows new = rows := by
  induction new with
  | nil => rfl
  | cons row new ih =>
    have hkeep : insertOrIgnore key slot rows row = rows := if_pos (h row List.mem_cons_self)
    rw [insertAllOrIgnore, List.foldl_cons, hkeep]
    exact ih fun r hr => h r (List.mem_cons_of_mem row hr)

theorem insertAllOrIgnore_again (rows new : List α) :
    insertAllOrIgnore key slot (insertAllOrIgnore key slot rows new) new =
      insertAllOrIgnore key slot rows new :=
  insertAllOrIgnore_of_taken key slot fun _ hrow =>
    key_mem_insertAllOrIgnore key slot rows hrow

def findKey (rows : List α) (k : κ) : Option α := rows.find? fun row => key row == k

theorem findKey_eq_some_iff {rows : List α} (h : (rows.map key).Nodup) {k : κ} {row : α} :
    findKey key rows k = some row ↔ row ∈ rows ∧ key row = k := by
  constructor
  · intro hfound
    exact ⟨List.mem_of_find?_eq_some hfound, by simpa using List.find?_some hfound⟩
  · rintro ⟨hrow, rfl⟩
    cases hfound : findKey key rows (key row) with
    | none => exact absurd (List.find?_eq_none.mp hfound row hrow) (by simp)
    | some row' =>
      have hrow' : row' ∈ rows := List.mem_of_find?_eq_some hfound
      have hkey : key row' = key row := by simpa using List.find?_some hfound
      rw [List.inj_on_of_nodup_map h hrow' hrow hkey]

variable {β : Type} (ref : β → κ)

def join (lefts : List β) (rows : List α) : List (β × α) :=
  lefts.flatMap fun l => (rows.filter fun row => key row == ref l).map (Prod.mk l)

theorem mem_join {lefts : List β} {rows : List α} {l : β} {row : α} :
    (l, row) ∈ join key ref lefts rows ↔ l ∈ lefts ∧ row ∈ rows ∧ key row = ref l := by
  simp only [join, List.mem_flatMap, List.mem_map, List.mem_filter, beq_iff_eq, Prod.mk.injEq]
  constructor
  · rintro ⟨l', hl', row', ⟨hrow', hkey⟩, rfl, rfl⟩
    exact ⟨hl', hrow', hkey⟩
  · rintro ⟨hl, hrow, hkey⟩
    exact ⟨l, hl, row, ⟨hrow, hkey⟩, rfl, rfl⟩

end TicketWarden.Tables
