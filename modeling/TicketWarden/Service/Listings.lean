/- Module: TicketWarden/Service/Listings
   source: apps/api/src/main.py, apps/api/src/schemas.py, apps/api/src/storage/repo.py
   digest: The routes `/tickets` and `/security-events`, what they list, and how long they
   list a case and its events. -/

import TicketWarden.Service.Readback

set_option autoImplicit false
set_option relaxedAutoImplicit false

namespace TicketWarden.Service

open TicketWarden.Graph Effects Guardrails Observability Python Storage Store Tables

/-- `max(1, min(limit, 100))`. -/
def clampLimit (limit : ℤ) : ℤ := max 1 (min limit 100)

structure TicketSummary where
  id : String
  body : String
  category : Option String
  decision : Option String
  reply : Option String
  escalationReason : Option String
  iterations : ℤ
  latencyMs : ℚ
  costUsd : ℚ
  createdAt : String

structure SecurityEventSummary where
  id : ℕ
  ticketId : String
  eventType : String
  detail : Option String
  createdAt : String

/-- `TicketSummary(**row)`. -/
def ticketSummary (r : Stored String TicketRow) : TicketSummary where
  id := r.row.id
  body := r.row.body
  category := r.row.category
  decision := r.row.decision
  reply := r.row.reply
  escalationReason := r.row.escalationReason
  iterations := r.row.iterations
  latencyMs := r.row.latencyMs
  costUsd := r.row.costUsd
  createdAt := r.createdAt

def securityEventSummary (r : Stored String SecurityEventRow) : SecurityEventSummary where
  id := r.id
  ticketId := r.row.ticketId
  eventType := r.row.eventType
  detail := r.row.detail
  createdAt := r.createdAt

/-- The route `/tickets`. -/
def tickets (file : DatabaseFile) (limit : ℤ := 10) : List TicketSummary :=
  (file.recentTickets (clampLimit limit)).map ticketSummary

/-- The route `/security-events`. -/
def securityEvents (file : DatabaseFile) (limit : ℤ := 10) : List SecurityEventSummary :=
  (file.recentSecurityEvents (clampLimit limit)).map securityEventSummary

def pageSize (limit : ℤ) : ℕ := (clampLimit limit).toNat

private theorem pageSize_bounds (limit : ℤ) : 1 ≤ pageSize limit ∧ pageSize limit ≤ 100 := by
  unfold pageSize clampLimit
  omega

private theorem pageSize_mono {limit limit' : ℤ} (h : limit ≤ limit') :
    pageSize limit ≤ pageSize limit' := by
  unfold pageSize clampLimit
  omega

private theorem rowLimit_clampLimit (limit : ℤ) (count : ℕ) :
    DatabaseFile.rowLimit (clampLimit limit) count = pageSize limit := by
  have hpos : ¬ clampLimit limit < 0 := by
    unfold clampLimit
    omega
  rw [DatabaseFile.rowLimit, if_neg hpos, pageSize]

private theorem recentTickets_eq (file : DatabaseFile) (limit : ℤ) :
    file.recentTickets (clampLimit limit) = newest (pageSize limit) file.tickets.rows := by
  rw [DatabaseFile.recentTickets, rowLimit_clampLimit]

private theorem recentSecurityEvents_eq (file : DatabaseFile) (limit : ℤ) :
    file.recentSecurityEvents (clampLimit limit) =
      newest (pageSize limit) file.securityEvents.rows := by
  rw [DatabaseFile.recentSecurityEvents, rowLimit_clampLimit]

/-- The routes list the newest rows first: between one and a hundred, and a longer page starts
with the shorter one. -/
structure Pages (file : DatabaseFile) (limit : ℤ) : Prop where
  tickets : ∃ listed, Newest (pageSize limit) file.tickets.rows listed ∧
    Service.tickets file limit = listed.map ticketSummary
  securityEvents : ∃ listed, Newest (pageSize limit) file.securityEvents.rows listed ∧
    Service.securityEvents file limit = listed.map securityEventSummary
  bounded : (Service.tickets file limit).length ≤ 100 ∧
    (Service.securityEvents file limit).length ≤ 100
  longer : ∀ limit', limit ≤ limit' → Service.tickets file limit <+: Service.tickets file limit' ∧
    Service.securityEvents file limit <+: Service.securityEvents file limit'

theorem pages (file : DatabaseFile) (limit : ℤ) : Pages file limit := by
  have hsize := (pageSize_bounds limit).2
  have htickets := newest_spec (pageSize limit) file.tickets
  have hevents := newest_spec (pageSize limit) file.securityEvents
  constructor
  case tickets => exact ⟨_, htickets, by rw [tickets, recentTickets_eq]⟩
  case securityEvents => exact ⟨_, hevents, by rw [securityEvents, recentSecurityEvents_eq]⟩
  case bounded =>
    rw [tickets, securityEvents, recentTickets_eq, recentSecurityEvents_eq, List.length_map,
      List.length_map, htickets.length, hevents.length]
    exact ⟨(Nat.min_le_left _ _).trans hsize, (Nat.min_le_left _ _).trans hsize⟩
  case longer =>
    intro limit' hle
    rw [tickets, tickets, securityEvents, securityEvents, recentTickets_eq, recentTickets_eq,
      recentSecurityEvents_eq, recentSecurityEvents_eq]
    exact ⟨(newest_mono (pageSize_mono hle) _).map _, (newest_mono (pageSize_mono hle) _).map _⟩

section Split

variable {file : DatabaseFile} {limit : ℤ}

end Split

section Server

variable {G : Type} {env : Env} {invoke : G → CaseState → GraphProgram CaseState}
  {tool : Shop → String → Dict → Except Exc Json} {s s' s'' : Server G}

end Server

end TicketWarden.Service
