/- Module: TicketWarden/Storage/Readers
   source: apps/api/src/storage/repo.py, apps/api/src/storage/db.py
   digest: The database with the ids and the dates of its rows, its initialization, and the
   three readers. -/

import Mathlib.Data.String.Basic
import TicketWarden.Storage.Replay
import TicketWarden.Store.Shop
import TicketWarden.Tables.Stamped

/-!
`created_at` is the text of `datetime('now')` at the insert, so every insert comes with the text
that the clock gave. Texts are compared as SQLite compares them, character by character.
-/

set_option autoImplicit false
set_option relaxedAutoImplicit false

namespace TicketWarden.Storage

open Store Tables

/-- The tables as they are stored. No row is ever deleted, so the next id is one more than the
last, with `AUTOINCREMENT` or without. -/
structure DatabaseFile where
  tickets : Table String TicketRow
  toolCalls : Table String ToolCallRow
  securityEvents : Table String SecurityEventRow
  shop : Shop
  primaryKey : (tickets.contents.map TicketRow.id).Nodup

def productRow (product : Product) : ProductRow :=
  ⟨product.id, product.title, product.category, product.price, product.description⟩

namespace DatabaseFile

def empty : DatabaseFile := ⟨.empty, .empty, .empty, .empty, List.nodup_nil⟩

/-- `init_db`: tables that exist are left as they are, and the catalog is seeded. -/
def initDb (file : DatabaseFile) : DatabaseFile := { file with shop := seedCatalog file.shop }

def contents (file : DatabaseFile) : Database where
  tickets := file.tickets.contents
  toolCalls := file.toolCalls.contents
  securityEvents := file.securityEvents.contents
  products := file.shop.products.rows.map productRow
  orders := file.shop.orders
  orderItems := file.shop.orderItems

/-- `DO UPDATE SET` for the rows with the id of the new one. -/
def overwrite (row r : TicketRow) : TicketRow := if r.id = row.id then row else r

private theorem overwrite_id (row r : TicketRow) : (overwrite row r).id = r.id := by
  unfold overwrite
  split
  · rename_i hid
    exact hid.symm
  · rfl

/-- `insert_ticket`: a conflict on the id keeps the `created_at` and the place of the row. -/
def insertTicket (file : DatabaseFile) (now : String) (row : TicketRow) : DatabaseFile :=
  if h : row.id ∈ file.tickets.contents.map TicketRow.id then
    { file with
      tickets := file.tickets.update (overwrite row)
      primaryKey := by
        have hids : (TicketRow.id ∘ overwrite row) = TicketRow.id :=
          funext fun r => overwrite_id row r
        rw [Table.contents_update, List.map_map, hids]
        exact file.primaryKey }
  else
    { file with
      tickets := file.tickets.insert now row
      primaryKey := by
        rw [Table.contents_insert, List.map_append]
        refine List.nodup_append.mpr ⟨file.primaryKey, List.nodup_singleton _, ?_⟩
        rintro id hid id' hid' rfl
        rw [List.mem_singleton.mp hid'] at hid
        exact h hid }

def insertToolCall (file : DatabaseFile) (now : String) (row : ToolCallRow) : DatabaseFile :=
  { file with toolCalls := file.toolCalls.insert now row }

def insertSecurityEvent (file : DatabaseFile) (now : String) (row : SecurityEventRow) :
    DatabaseFile :=
  { file with securityEvents := file.securityEvents.insert now row }

def apply (file : DatabaseFile) (w : String × Write) : DatabaseFile :=
  match w.2 with
  | .ticket row => file.insertTicket w.1 row
  | .toolCall row => file.insertToolCall w.1 row
  | .securityEvent row => file.insertSecurityEvent w.1 row

def replay (file : DatabaseFile) (ws : List (String × Write)) : DatabaseFile :=
  ws.foldl apply file

/-- `LIMIT limit` on so many rows; a negative limit is none. -/
def rowLimit (limit : ℤ) (count : ℕ) : ℕ := if limit < 0 then count else limit.toNat

def recentTickets (file : DatabaseFile) (limit : ℤ := 10) : List (Stored String TicketRow) :=
  newest (rowLimit limit file.tickets.rows.length) file.tickets.rows

/-- `tool_calls_for_ticket`; the rows of a table are in the order of their ids. -/
def toolCallsForTicket (file : DatabaseFile) (ticketId : String) :
    List (Stored String ToolCallRow) :=
  file.toolCalls.rows.filter fun r => r.row.ticketId == ticketId

def recentSecurityEvents (file : DatabaseFile) (limit : ℤ := 10) :
    List (Stored String SecurityEventRow) :=
  newest (rowLimit limit file.securityEvents.rows.length) file.securityEvents.rows

private theorem contents_insertTicket (file : DatabaseFile) (now : String) (row : TicketRow) :
    (file.insertTicket now row).contents = file.contents.insertTicket row := by
  have hany : (file.contents.tickets.any fun r => r.id == row.id) = true ↔
      row.id ∈ file.tickets.contents.map TicketRow.id := by
    simp only [List.any_eq_true, beq_iff_eq, List.mem_map, contents]
  unfold insertTicket Database.insertTicket
  split
  · rename_i h
    rw [if_pos (hany.mpr h)]
    simp only [contents, Table.contents_update]
    rfl
  · rename_i h
    rw [if_neg (mt hany.mp h)]
    simp only [contents, Table.contents_insert]

private theorem contents_apply (file : DatabaseFile) (w : String × Write) :
    (file.apply w).contents = file.contents.apply w.2 := by
  obtain ⟨now, w⟩ := w
  cases w with
  | ticket row => exact contents_insertTicket file now row
  | toolCall row => simp [apply, insertToolCall, contents, Database.apply, Database.insertToolCall]
  | securityEvent row =>
    simp [apply, insertSecurityEvent, contents, Database.apply, Database.insertSecurityEvent]

/-- Ids and dates apart, the file does what the database of rows does. -/
theorem contents_replay (file : DatabaseFile) (ws : List (String × Write)) :
    (file.replay ws).contents = file.contents.replay (ws.map Prod.snd) := by
  induction ws generalizing file with
  | nil => rfl
  | cons w ws ih =>
    rw [replay, List.foldl_cons, ← replay, ih, contents_apply, List.map_cons,
      Database.replay_cons]

def dated {α : Type} (row? : Write → Option α) (ws : List (String × Write)) : List (String × α) :=
  ws.filterMap fun w => (row? w.2).map (Prod.mk w.1)

private theorem dated_cons {α : Type} (row? : Write → Option α) (w : String × Write)
    (ws : List (String × Write)) :
    dated row? (w :: ws) = ((row? w.2).map (Prod.mk w.1)).toList ++ dated row? ws := by
  rw [dated, List.filterMap_cons]
  cases (row? w.2).map (Prod.mk w.1) <;> rfl

private theorem insertTicket_others (file : DatabaseFile) (now : String) (row : TicketRow) :
    (file.insertTicket now row).toolCalls = file.toolCalls ∧
      (file.insertTicket now row).securityEvents = file.securityEvents ∧
      (file.insertTicket now row).shop = file.shop := by
  unfold insertTicket
  split <;> exact ⟨rfl, rfl, rfl⟩

theorem apply_shop (file : DatabaseFile) (w : String × Write) :
    (file.apply w).shop = file.shop := by
  obtain ⟨now, w⟩ := w
  cases w with
  | ticket row => exact (insertTicket_others file now row).2.2
  | toolCall row => rfl
  | securityEvent row => rfl

theorem replay_toolCalls (file : DatabaseFile) (ws : List (String × Write)) :
    (file.replay ws).toolCalls = file.toolCalls.insertAll (dated Write.toolCall? ws) := by
  induction ws generalizing file with
  | nil => rfl
  | cons w ws ih =>
    rw [replay, List.foldl_cons, ← replay, ih, dated_cons]
    obtain ⟨now, w⟩ := w
    cases w with
    | ticket row =>
      rw [apply, (insertTicket_others file now row).1]
      rfl
    | toolCall row => rfl
    | securityEvent row => rfl

theorem replay_securityEvents (file : DatabaseFile) (ws : List (String × Write)) :
    (file.replay ws).securityEvents =
      file.securityEvents.insertAll (dated Write.securityEvent? ws) := by
  induction ws generalizing file with
  | nil => rfl
  | cons w ws ih =>
    rw [replay, List.foldl_cons, ← replay, ih, dated_cons]
    obtain ⟨now, w⟩ := w
    cases w with
    | ticket row =>
      rw [apply, (insertTicket_others file now row).2.1]
      rfl
    | toolCall row => rfl
    | securityEvent row => rfl

theorem replay_tickets_fresh {file : DatabaseFile} {ws : List (String × Write)}
    (hnodup : (((ws.map Prod.snd).filterMap Write.ticket?).map TicketRow.id).Nodup)
    (hfresh : ∀ row ∈ (ws.map Prod.snd).filterMap Write.ticket?,
      ∀ r ∈ file.tickets.contents, r.id ≠ row.id) :
    (file.replay ws).tickets = file.tickets.insertAll (dated Write.ticket? ws) := by
  induction ws generalizing file with
  | nil => rfl
  | cons w ws ih =>
    obtain ⟨now, w⟩ := w
    rw [replay, List.foldl_cons, ← replay, dated_cons]
    cases w with
    | ticket row =>
      obtain ⟨hnew, hnodup⟩ := List.nodup_cons.mp hnodup
      have hnone : row.id ∉ file.tickets.contents.map TicketRow.id := by
        rintro hid
        obtain ⟨r, hr, hrow⟩ := List.mem_map.mp hid
        exact hfresh row List.mem_cons_self r hr hrow
      have hinsert : (file.insertTicket now row).tickets = file.tickets.insert now row := by
        rw [insertTicket, dif_neg hnone]
      rw [apply, ih hnodup, hinsert]
      · rfl
      · intro row' hrow' r hr
        rw [hinsert, Table.contents_insert] at hr
        rcases List.mem_append.mp hr with hr | hr
        · exact hfresh row' (List.mem_cons_of_mem row hrow') r hr
        · rw [List.mem_singleton.mp hr]
          exact fun heq => hnew (heq ▸ List.mem_map_of_mem hrow')
    | toolCall row => exact ih hnodup hfresh
    | securityEvent row => exact ih hnodup hfresh

end DatabaseFile

end TicketWarden.Storage
