/- Module: TicketWarden/Tables/Stamped
   source: none (library)
   digest: Tables that number and date their rows, and the listing of the newest rows. -/

import Mathlib.Data.List.Sort
import Mathlib.Data.Prod.Lex

set_option autoImplicit false
set_option relaxedAutoImplicit false

namespace TicketWarden.Tables

variable {τ α : Type}

/-- A row with its id and the time of its insert. -/
structure Stored (τ α : Type) where
  id : ℕ
  createdAt : τ
  row : α

/-- A table whose ids grow from row to row. -/
structure Table (τ α : Type) where
  rows : List (Stored τ α)
  increasing : rows.Pairwise fun r s => r.id < s.id

def lastId (rows : List (Stored τ α)) : ℕ := (rows.getLast?.map Stored.id).getD 0

private theorem id_le_lastId {rows : List (Stored τ α)} (h : rows.Pairwise fun r s => r.id < s.id)
    {r : Stored τ α} (hr : r ∈ rows) : r.id ≤ lastId rows := by
  rcases List.eq_nil_or_concat rows with rfl | ⟨rows, s, rfl⟩
  · cases hr
  rw [List.concat_eq_append] at h hr ⊢
  rw [lastId, List.getLast?_concat]
  rcases List.mem_append.mp hr with hr | hr
  · exact Nat.le_of_lt ((List.pairwise_append.mp h).2.2 r hr s (by simp))
  · rw [List.mem_singleton.mp hr]
    exact Nat.le_refl _

namespace Table

def empty : Table τ α := ⟨[], .nil⟩

def insert (table : Table τ α) (now : τ) (row : α) : Table τ α where
  rows := table.rows ++ [⟨lastId table.rows + 1, now, row⟩]
  increasing := by
    refine List.pairwise_append.mpr ⟨table.increasing, List.pairwise_singleton _ _, ?_⟩
    intro r hr s hs
    rw [List.mem_singleton.mp hs]
    exact Nat.lt_succ_of_le (id_le_lastId table.increasing hr)

def update (table : Table τ α) (f : α → α) : Table τ α where
  rows := table.rows.map fun r => { r with row := f r.row }
  increasing := List.pairwise_map.mpr table.increasing

def contents (table : Table τ α) : List α := table.rows.map Stored.row

@[simp] theorem contents_insert (table : Table τ α) (now : τ) (row : α) :
    (table.insert now row).contents = table.contents ++ [row] := by
  simp [contents, insert]

@[simp] theorem contents_update (table : Table τ α) (f : α → α) :
    (table.update f).contents = table.contents.map f := by
  simp [contents, update]

def insertAll (table : Table τ α) (rows : List (τ × α)) : Table τ α :=
  rows.foldl (fun table row => table.insert row.1 row.2) table

theorem insertAll_rows (table : Table τ α) (rows : List (τ × α)) :
    ∃ new, (table.insertAll rows).rows = table.rows ++ new ∧
      new.map (fun r => (r.createdAt, r.row)) = rows := by
  induction rows generalizing table with
  | nil => exact ⟨[], by simp [insertAll], rfl⟩
  | cons row rows ih =>
    obtain ⟨new, hrows, hnew⟩ := ih (table.insert row.1 row.2)
    refine ⟨⟨lastId table.rows + 1, row.1, row.2⟩ :: new, ?_, by rw [List.map_cons, hnew]⟩
    rw [insertAll, List.foldl_cons, ← insertAll, hrows, insert, List.append_assoc]
    rfl

theorem nodup_ids (table : Table τ α) : (table.rows.map Stored.id).Nodup :=
  List.pairwise_map.mpr (table.increasing.imp Nat.ne_of_lt)

end Table

def Stored.stamp (r : Stored τ α) : Lex (τ × ℕ) := toLex (r.createdAt, r.id)

private theorem stamp_ne_of_id_ne {r s : Stored τ α} (h : r.id ≠ s.id) : r.stamp ≠ s.stamp :=
  fun heq => h (congrArg (fun stamp => (ofLex stamp).2) heq)

section Newest

variable [LinearOrder τ]

/-- The first `n` of the rows, newest first. -/
def newest (n : ℕ) (rows : List (Stored τ α)) : List (Stored τ α) :=
  (rows.insertionSort fun r s => s.stamp ≤ r.stamp).take n

/-- A listing shows every row that fewer than `n` rows are newer than, newest first. -/
structure Newest (n : ℕ) (rows listed : List (Stored τ α)) : Prop where
  ordered : listed.Pairwise fun r s => s.stamp < r.stamp
  mem_iff : ∀ r, r ∈ listed ↔
    r ∈ rows ∧ rows.countP (fun s => decide (r.stamp < s.stamp)) < n
  length : listed.length = min n rows.length

private theorem mem_take_iff {rows : List (Stored τ α)}
    (h : rows.Pairwise fun r s => s.stamp < r.stamp) (n : ℕ) (r : Stored τ α) :
    r ∈ rows.take n ↔ r ∈ rows ∧ rows.countP (fun s => decide (r.stamp < s.stamp)) < n := by
  induction rows generalizing n with
  | nil => simp
  | cons a rows ih =>
    obtain ⟨hfirst, hrest⟩ := List.pairwise_cons.mp h
    rcases n with _ | n
    · simp
    rw [List.take_succ_cons, List.mem_cons, List.mem_cons, ih hrest, List.countP_cons]
    have hnone : r = a → rows.countP (fun s => decide (r.stamp < s.stamp)) = 0 := by
      rintro rfl
      exact List.countP_eq_zero.mpr fun s hs => by simp [(hfirst s hs).le]
    constructor
    · rintro (rfl | ⟨hr, hcount⟩)
      · rw [hnone rfl]
        simp
      · refine ⟨.inr hr, ?_⟩
        rw [if_pos (by simpa using hfirst r hr)]
        exact Nat.succ_lt_succ hcount
    · rintro ⟨rfl | hr, hcount⟩
      · exact .inl rfl
      · rw [if_pos (by simpa using hfirst r hr)] at hcount
        exact .inr ⟨hr, Nat.lt_of_succ_lt_succ hcount⟩

instance : IsTrans (Stored τ α) fun r s => s.stamp ≤ r.stamp :=
  ⟨fun _ _ _ hrs hst => hst.trans hrs⟩

instance : Std.Total fun r s : Stored τ α => s.stamp ≤ r.stamp :=
  ⟨fun r s => le_total s.stamp r.stamp⟩

private theorem pairwise_stamp_lt {rows : List (Stored τ α)} (hids : (rows.map Stored.id).Nodup) :
    (rows.insertionSort fun r s => s.stamp ≤ r.stamp).Pairwise
      fun r s => s.stamp < r.stamp := by
  have hperm := List.perm_insertionSort (fun r s : Stored τ α => s.stamp ≤ r.stamp) rows
  have hdistinct : (rows.insertionSort fun r s => s.stamp ≤ r.stamp).Pairwise
      fun r s => r.id ≠ s.id :=
    List.pairwise_map.mp ((hperm.map Stored.id).nodup_iff.mpr hids)
  refine ((List.pairwise_insertionSort _ rows).and hdistinct).imp ?_
  rintro r s ⟨hle, hne⟩
  exact lt_of_le_of_ne hle (stamp_ne_of_id_ne (Ne.symm hne))

theorem newest_spec (n : ℕ) (table : Table τ α) :
    Newest n table.rows (newest n table.rows) := by
  have hperm := List.perm_insertionSort (fun r s : Stored τ α => s.stamp ≤ r.stamp) table.rows
  have hsorted := pairwise_stamp_lt table.nodup_ids
  constructor
  case ordered => exact hsorted.sublist (List.take_sublist n _)
  case mem_iff =>
    intro r
    rw [newest, mem_take_iff hsorted, hperm.mem_iff, hperm.countP_eq]
  case length => rw [newest, List.length_take, hperm.length_eq]

theorem newest_mono {m n : ℕ} (h : m ≤ n) (rows : List (Stored τ α)) :
    newest m rows <+: newest n rows := by
  rw [newest, newest]
  exact List.take_prefix_take_left h

end Newest

end TicketWarden.Tables
