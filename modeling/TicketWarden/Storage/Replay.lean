/- Module: TicketWarden/Storage/Replay
   source: apps/api/src/storage/repo.py
   digest: Sequences of committed inserts and the database they lead to. -/

import TicketWarden.Storage.Repo

set_option autoImplicit false
set_option relaxedAutoImplicit false

namespace TicketWarden.Storage

/-- A committed insert. -/
inductive Write
  | ticket (row : TicketRow)
  | toolCall (row : ToolCallRow)
  | securityEvent (row : SecurityEventRow)

def Write.ticket? : Write → Option TicketRow
  | .ticket row => some row
  | _ => none

def Write.toolCall? : Write → Option ToolCallRow
  | .toolCall row => some row
  | _ => none

def Write.securityEvent? : Write → Option SecurityEventRow
  | .securityEvent row => some row
  | _ => none

namespace Database

def apply (db : Database) : Write → Database
  | .ticket row => db.insertTicket row
  | .toolCall row => db.insertToolCall row
  | .securityEvent row => db.insertSecurityEvent row

def replay (db : Database) (writes : List Write) : Database := writes.foldl apply db

@[simp] theorem replay_nil (db : Database) : db.replay [] = db := rfl

@[simp] theorem replay_cons (db : Database) (w : Write) (ws : List Write) :
    db.replay (w :: ws) = (db.apply w).replay ws := rfl

theorem replay_append (db : Database) (ws₁ ws₂ : List Write) :
    db.replay (ws₁ ++ ws₂) = (db.replay ws₁).replay ws₂ :=
  List.foldl_append

theorem replay_toolCalls (db : Database) (ws : List Write) :
    (db.replay ws).toolCalls = db.toolCalls ++ ws.filterMap Write.toolCall? := by
  induction ws generalizing db with
  | nil => simp
  | cons w ws ih =>
    rw [replay_cons, ih]
    cases w <;> simp [apply, Write.toolCall?, List.filterMap_cons]

theorem replay_securityEvents (db : Database) (ws : List Write) :
    (db.replay ws).securityEvents =
      db.securityEvents ++ ws.filterMap Write.securityEvent? := by
  induction ws generalizing db with
  | nil => simp
  | cons w ws ih =>
    rw [replay_cons, ih]
    cases w <;> simp [apply, Write.securityEvent?, List.filterMap_cons]

/-- The shop's own tables are never written. -/
theorem replay_shop (db : Database) (ws : List Write) :
    (db.replay ws).products = db.products ∧ (db.replay ws).orders = db.orders ∧
      (db.replay ws).orderItems = db.orderItems := by
  induction ws generalizing db with
  | nil => simp
  | cons w ws ih =>
    obtain ⟨hproducts, horders, hitems⟩ := ih (db.apply w)
    rw [replay_cons, hproducts, horders, hitems]
    cases w with
    | ticket row => simp only [apply, insertTicket_shop, and_self]
    | toolCall row => exact ⟨rfl, rfl, rfl⟩
    | securityEvent row => exact ⟨rfl, rfl, rfl⟩

private theorem foldl_insertTicket_congr (rows : List TicketRow) {db db' : Database}
    (h : db.tickets = db'.tickets) :
    (rows.foldl insertTicket db).tickets = (rows.foldl insertTicket db').tickets := by
  induction rows generalizing db db' with
  | nil => exact h
  | cons row rows ih =>
    refine ih ?_
    unfold insertTicket
    rw [h]
    split <;> rfl

theorem replay_tickets (db : Database) (ws : List Write) :
    (db.replay ws).tickets = ((ws.filterMap Write.ticket?).foldl insertTicket db).tickets := by
  induction ws generalizing db with
  | nil => rfl
  | cons w ws ih =>
    rw [replay_cons, ih]
    cases w with
    | ticket row => rfl
    | toolCall row => exact foldl_insertTicket_congr _ rfl
    | securityEvent row => exact foldl_insertTicket_congr _ rfl

theorem mem_foldl_insertTicket {db : Database} {rows : List TicketRow} {r : TicketRow}
    (h : r ∈ (rows.foldl insertTicket db).tickets) : r ∈ rows ∨ r ∈ db.tickets := by
  induction rows generalizing db with
  | nil => exact .inr h
  | cons row rows ih =>
    rcases ih h with hr | hr
    · exact .inl (List.mem_cons_of_mem row hr)
    · rcases mem_insertTicket hr with rfl | hr
      · exact .inl List.mem_cons_self
      · exact .inr hr

/-- Tickets with fresh ids, all different, are appended. -/
theorem foldl_insertTicket_fresh {db : Database} {rows : List TicketRow}
    (hnodup : (rows.map TicketRow.id).Nodup)
    (hfresh : ∀ row ∈ rows, ∀ r ∈ db.tickets, r.id ≠ row.id) :
    (rows.foldl insertTicket db).tickets = db.tickets ++ rows := by
  induction rows generalizing db with
  | nil => simp
  | cons row rows ih =>
    obtain ⟨hnew, hnodup⟩ := List.nodup_cons.mp hnodup
    rw [List.foldl_cons, insertTicket_fresh (hfresh row (by simp)), ih hnodup]
    · simp
    · intro row' hrow' r hr
      rcases List.mem_append.mp hr with hr | hr
      · exact hfresh row' (List.mem_cons_of_mem row hrow') r hr
      · rw [List.mem_singleton.mp hr]
        exact fun heq => hnew (heq ▸ List.mem_map_of_mem hrow')

end Database

end TicketWarden.Storage
