/- Module: TicketWarden/Storage/Repo
   source: apps/api/src/storage/repo.py, apps/api/src/storage/db.py (_SCHEMA)
   digest: The tables and the three inserts. -/

import TicketWarden.Constants

/-!
A table is the list of its rows in insertion order, which is the order of their
`AUTOINCREMENT` ids. The columns `args_json` and `result_json` hold the values themselves
instead of their JSON text, and the `created_at` defaults are left out.
-/

set_option autoImplicit false
set_option relaxedAutoImplicit false

namespace TicketWarden.Storage

open Python

structure TicketRow where
  id : String
  body : String
  category : Option String
  decision : Option String
  reply : Option String
  escalationReason : Option String
  iterations : ℤ
  latencyMs : ℚ
  costUsd : ℚ

structure ToolCallRow where
  ticketId : String
  toolName : String
  args : Dict
  result : Json
  status : String

structure SecurityEventRow where
  ticketId : String
  eventType : String
  detail : Option String
  deriving DecidableEq

structure ProductRow where
  id : ℤ
  title : String
  category : String
  price : ℚ
  description : Option String

structure OrderRow where
  id : ℤ
  customerName : String
  status : String
  carrier : Option String
  trackingNumber : Option String
  placedAt : String

structure OrderItemRow where
  orderId : ℤ
  productId : ℤ
  quantity : ℤ

@[ext] structure Database where
  tickets : List TicketRow
  toolCalls : List ToolCallRow
  securityEvents : List SecurityEventRow
  products : List ProductRow
  orders : List OrderRow
  orderItems : List OrderItemRow

namespace Database

/-- `insert_ticket`: an upsert on the primary key. -/
def insertTicket (db : Database) (row : TicketRow) : Database :=
  if db.tickets.any fun r => r.id == row.id then
    { db with tickets := db.tickets.map fun r => if r.id = row.id then row else r }
  else { db with tickets := db.tickets ++ [row] }

def insertToolCall (db : Database) (row : ToolCallRow) : Database :=
  { db with toolCalls := db.toolCalls ++ [row] }

def insertSecurityEvent (db : Database) (row : SecurityEventRow) : Database :=
  { db with securityEvents := db.securityEvents ++ [row] }

/-- A ticket id that no stored row mentions. -/
def Fresh (db : Database) (ticketId : String) : Prop :=
  (∀ row ∈ db.tickets, row.id ≠ ticketId) ∧ (∀ row ∈ db.toolCalls, row.ticketId ≠ ticketId) ∧
    ∀ row ∈ db.securityEvents, row.ticketId ≠ ticketId

theorem insertTicket_fresh {db : Database} {row : TicketRow}
    (h : ∀ r ∈ db.tickets, r.id ≠ row.id) :
    db.insertTicket row = { db with tickets := db.tickets ++ [row] } := by
  have hany : (db.tickets.any fun r => r.id == row.id) = false := by
    simpa [List.any_eq_false] using h
  simp [insertTicket, hany]

@[simp] theorem insertTicket_toolCalls (db : Database) (row : TicketRow) :
    (db.insertTicket row).toolCalls = db.toolCalls := by
  unfold insertTicket
  split <;> rfl

@[simp] theorem insertTicket_securityEvents (db : Database) (row : TicketRow) :
    (db.insertTicket row).securityEvents = db.securityEvents := by
  unfold insertTicket
  split <;> rfl

theorem insertTicket_shop (db : Database) (row : TicketRow) :
    (db.insertTicket row).products = db.products ∧ (db.insertTicket row).orders = db.orders ∧
      (db.insertTicket row).orderItems = db.orderItems := by
  unfold insertTicket
  split <;> exact ⟨rfl, rfl, rfl⟩

@[simp] theorem insertToolCall_tickets (db : Database) (row : ToolCallRow) :
    (db.insertToolCall row).tickets = db.tickets := rfl

@[simp] theorem insertToolCall_toolCalls (db : Database) (row : ToolCallRow) :
    (db.insertToolCall row).toolCalls = db.toolCalls ++ [row] := rfl

@[simp] theorem insertToolCall_securityEvents (db : Database) (row : ToolCallRow) :
    (db.insertToolCall row).securityEvents = db.securityEvents := rfl

@[simp] theorem insertSecurityEvent_tickets (db : Database) (row : SecurityEventRow) :
    (db.insertSecurityEvent row).tickets = db.tickets := rfl

@[simp] theorem insertSecurityEvent_toolCalls (db : Database) (row : SecurityEventRow) :
    (db.insertSecurityEvent row).toolCalls = db.toolCalls := rfl

@[simp] theorem insertSecurityEvent_securityEvents (db : Database) (row : SecurityEventRow) :
    (db.insertSecurityEvent row).securityEvents = db.securityEvents ++ [row] := rfl

theorem mem_insertTicket_self (db : Database) (row : TicketRow) :
    row ∈ (db.insertTicket row).tickets := by
  unfold insertTicket
  split
  · rename_i hany
    obtain ⟨r, hr, hid⟩ := List.any_eq_true.mp hany
    exact List.mem_map.mpr ⟨r, hr, if_pos (eq_of_beq hid)⟩
  · simp

theorem mem_insertTicket {db : Database} {row r : TicketRow}
    (h : r ∈ (db.insertTicket row).tickets) : r = row ∨ r ∈ db.tickets := by
  unfold insertTicket at h
  split at h
  · obtain ⟨r', hr', rfl⟩ := List.mem_map.mp h
    by_cases hid : r'.id = row.id
    · exact .inl (by simp [hid])
    · exact .inr (by simpa [hid] using hr')
  · rcases List.mem_append.mp h with h | h
    · exact .inr h
    · exact .inl (List.mem_singleton.mp h)

end Database

end TicketWarden.Storage
