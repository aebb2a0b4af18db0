/- Module: TicketWarden/Service/Lifetime
   source: apps/api/src/main.py, apps/api/src/service.py, apps/api/src/storage/repo.py,
   apps/api/src/storage/db.py
   digest: What holds of the database in every state that a server comes to, whatever it is
   asked, wherever its requests are cut off and however often it is restarted. -/

import TicketWarden.Service.Ownership

set_option autoImplicit false
set_option relaxedAutoImplicit false

namespace TicketWarden.Service

open TicketWarden.Graph Effects Guardrails Observability Python Storage Store Tables

/-- Every stored tool call and every refusal in the audit trail belongs to a stored case, and
the audit trail shows no more tool decisions of a case than its tool calls do. -/
structure Grounded (db : Database) : Prop where
  toolCalls : ∀ row ∈ db.toolCalls, ∃ ticket ∈ db.tickets, ticket.id = row.ticketId
  refusals : ∀ row ∈ db.securityEvents,
    row.eventType = SecurityEventType.injectionRefused.value →
      ∃ ticket ∈ db.tickets, ticket.id = row.ticketId ∧
        ticket.decision = some Decision.refuse.value
  blocked : ∀ ticketId, eventRows db ticketId SecurityEventType.toolBlocked.value ≤
    toolRows db ticketId ToolStatus.blocked.value
  sanitized : ∀ ticketId, eventRows db ticketId SecurityEventType.toolOutputSanitized.value ≤
    toolRows db ticketId ToolStatus.sanitized.value

private theorem grounded_empty : Grounded DatabaseFile.empty.contents :=
  ⟨fun _ h => absurd h List.not_mem_nil, fun _ h => absurd h List.not_mem_nil,
    fun _ => Nat.le_refl _, fun _ => Nat.le_refl _⟩

private theorem Grounded.withShop {db : Database} (h : Grounded db) (products : List ProductRow)
    (orders : List OrderRow) (orderItems : List OrderItemRow) :
    Grounded { db with products := products, orders := orders, orderItems := orderItems } :=
  ⟨h.toolCalls, h.refusals, h.blocked, h.sanitized⟩

section Run

variable {ι : Type} [DecidableEq ι] {env : Env} {request : ι → ResolveRequest env.db}
  {tr : List (ι × CallEvent)} {db : Database}

theorem replay_tickets_run (h : Resolving request tr) (hfresh : FreshIds db tr) :
    (db.replay (writes (tr.map Prod.snd))).tickets =
      db.tickets ++ (writes (tr.map Prod.snd)).filterMap Write.ticket? := by
  obtain ⟨hnodup, hnew⟩ := h.tickets_fresh hfresh
  rw [Database.replay_tickets,
    Database.foldl_insertTicket_fresh hnodup fun row hrow r hr => (hnew row hrow).1 r hr]

private theorem mem_replay_tickets_run (h : Resolving request tr) (hfresh : FreshIds db tr) {i : ι}
    {row : TicketRow} (hrow : .ticket row ∈ writes (ownTrace i tr)) :
    row ∈ (db.replay (writes (tr.map Prod.snd))).tickets := by
  rw [replay_tickets_run h hfresh]
  exact List.mem_append_right _
    (List.mem_filterMap.mpr ⟨_, Resolving.mem_writes.mpr ⟨i, hrow⟩, rfl⟩)

private theorem events_le_rows_run (h : Resolving request tr) (hfresh : FreshIds db tr)
    (guard : Guard)
    (ticketId : String) :
    (writes (tr.map Prod.snd)).countP (ofTicket guard.event ticketId) ≤
      (writes (tr.map Prod.snd)).countP (ofTicket guard.row ticketId) := by
  by_cases hany : ∃ w ∈ writes (tr.map Prod.snd), rowTicketId w = ticketId
  · obtain ⟨w, hw, rfl⟩ := hany
    obtain ⟨i, hi⟩ := Resolving.mem_writes.mp hw
    rw [h.countP_ofTicket hfresh hi, h.countP_ofTicket hfresh hi]
    exact h.events_le_rows guard i
  · have hzero : (writes (tr.map Prod.snd)).countP (ofTicket guard.event ticketId) = 0 := by
      refine List.countP_eq_zero.mpr fun w hw hshown => hany ⟨w, hw, ?_⟩
      exact beq_iff_eq.mp (Bool.and_eq_true_iff.mp hshown).2
    rw [hzero]
    exact Nat.zero_le _

/-- Requests keep the tables in this relation at every moment. -/
theorem Grounded.replay (hdb : Grounded db) (h : Resolving request tr)
    (hfresh : FreshIds db tr) : Grounded (db.replay (writes (tr.map Prod.snd))) := by
  have htickets := replay_tickets_run h hfresh
  constructor
  case toolCalls =>
    intro row hrow
    rw [Database.replay_toolCalls] at hrow
    rcases List.mem_append.mp hrow with hold | hnew
    · obtain ⟨ticket, hticket, hid⟩ := hdb.toolCalls row hold
      exact ⟨ticket, by rw [htickets]; exact List.mem_append_left _ hticket, hid⟩
    · obtain ⟨w, hw, hcall⟩ := List.mem_filterMap.mp hnew
      cases w with
      | toolCall row' =>
        obtain rfl := Option.some.inj hcall
        obtain ⟨i, hi⟩ := Resolving.mem_writes.mp hw
        obtain ⟨ticket, hticket, hid⟩ := h.ticket_of_toolCall hi
        exact ⟨ticket, mem_replay_tickets_run h hfresh hticket, hid⟩
      | _ => cases hcall
  case refusals =>
    intro row hrow htype
    rw [Database.replay_securityEvents] at hrow
    rcases List.mem_append.mp hrow with hold | hnew
    · obtain ⟨ticket, hticket, hid⟩ := hdb.refusals row hold htype
      exact ⟨ticket, by rw [htickets]; exact List.mem_append_left _ hticket, hid⟩
    · obtain ⟨w, hw, hevent⟩ := List.mem_filterMap.mp hnew
      cases w with
      | securityEvent row' =>
        obtain rfl := Option.some.inj hevent
        obtain ⟨i, hi⟩ := Resolving.mem_writes.mp hw
        -- a refusal is logged after the row that shows it
        have hlogged : 0 < (writes (ownTrace i tr)).countP Guard.refusal.event :=
          List.countP_pos_iff.mpr ⟨_, hi, beq_iff_eq.mpr htype⟩
        obtain ⟨w', hw', hshown⟩ :=
          List.countP_pos_iff.mp (hlogged.trans_le (h.events_le_rows .refusal i))
        obtain ⟨ticketId, hown⟩ := h.owned i
        cases w' with
        | ticket ticket =>
          exact ⟨ticket, mem_replay_tickets_run h hfresh hw',
            (hown _ hw').1.trans (hown _ hi).1.symm, beq_iff_eq.mp hshown⟩
        | toolCall row' => cases hshown
        | securityEvent row' => cases hshown
      | _ => cases hevent
  case blocked =>
    intro ticketId
    have hevents := eventRows_replay .blocked db (writes (tr.map Prod.snd)) ticketId
    rw [toolRows_replay row_blocked]
    exact hevents.trans_le
      (Nat.add_le_add (hdb.blocked ticketId) (events_le_rows_run h hfresh .blocked ticketId))
  case sanitized =>
    intro ticketId
    have hevents := eventRows_replay .sanitized db (writes (tr.map Prod.snd)) ticketId
    rw [toolRows_replay row_sanitized]
    exact hevents.trans_le
      (Nat.add_le_add (hdb.sanitized ticketId) (events_le_rows_run h hfresh .sanitized ticketId))

end Run

section Server

variable {G : Type} {env : Env} {invoke : G → CaseState → GraphProgram CaseState}
  {tool : Shop → String → Dict → Except Exc Json} {s₀ s : Server G}

theorem contents_start (file : DatabaseFile) :
    (Server.start file : Server G).file.contents = { file.contents with
      products := (seedCatalog file.shop).products.rows.map productRow
      orders := (seedCatalog file.shop).orders
      orderItems := (seedCatalog file.shop).orderItems } := rfl

/-- What a server that answers some requests does to its file. -/
theorem served_file {ι : Type} {tr : List (ι × RouteEvent G)} {s' : Server G}
    (hworld : World.Runs (ServerStep tool) s (tr.map Prod.snd) s') :
    ∃ ws : List (String × Write), ws.map Prod.snd = writes ((caseTrace tr).map Prod.snd) ∧
      s'.file = s.file.replay ws := by
  rw [map_caseTrace]
  exact runs_file hworld

/-- The tables stay in this relation in every state that a server comes to. -/
theorem grounded_of_reaches (h : Reaches env invoke tool s₀ s)
    (h₀ : Grounded s₀.file.contents) : Grounded s.file.contents := by
  induction h with
  | refl => exact h₀
  | @served _ _ s s' request tr pool' _ hinter hworld hfresh ih =>
    obtain ⟨ws, hws, hfile⟩ := served_file hworld
    rw [hfile, DatabaseFile.contents_replay, hws]
    exact ih.replay (resolving_of_interleaves hinter) hfresh
  | restarted _ ih =>
    rw [contents_start]
    exact ih.withShop _ _ _

theorem Reaches.trans {s₁ s₂ : Server G} (h : Reaches env invoke tool s₀ s₁)
    (h' : Reaches env invoke tool s₁ s₂) : Reaches env invoke tool s₀ s₂ := by
  induction h' with
  | refl => exact h
  | served _ hinter hworld hfresh ih => exact .served ih hinter hworld hfresh
  | restarted _ ih => exact .restarted ih

private theorem insertAll_extends {α : Type} (table : Table String α) (rows : List (String × α)) :
    table.rows <+: (table.insertAll rows).rows := by
  obtain ⟨new, hrows, -⟩ := table.insertAll_rows rows
  exact ⟨new, hrows.symm⟩

theorem rows_of_reaches (h : Reaches env invoke tool s₀ s) :
    s₀.file.tickets.rows <+: s.file.tickets.rows ∧
      s₀.file.toolCalls.rows <+: s.file.toolCalls.rows ∧
      s₀.file.securityEvents.rows <+: s.file.securityEvents.rows := by
  induction h with
  | refl => exact ⟨List.prefix_refl _, List.prefix_refl _, List.prefix_refl _⟩
  | @served _ _ s s' request tr pool' _ hinter hworld hfresh ih =>
    obtain ⟨htickets, htoolCalls, hevents⟩ := ih
    obtain ⟨ws, hws, hfile⟩ := served_file hworld
    obtain ⟨hnodup, hnew⟩ := (resolving_of_interleaves hinter).tickets_fresh hfresh
    rw [← hws] at hnodup hnew
    rw [hfile, DatabaseFile.replay_toolCalls, DatabaseFile.replay_securityEvents,
      DatabaseFile.replay_tickets_fresh hnodup fun row hrow => (hnew row hrow).1]
    exact ⟨htickets.trans (insertAll_extends _ _), htoolCalls.trans (insertAll_extends _ _),
      hevents.trans (insertAll_extends _ _)⟩
  | restarted _ ih => exact ih

private theorem seedCatalog_again (shop : Shop) :
    seedCatalog (seedCatalog shop) = seedCatalog shop :=
  insertFixture_again _ _ _ _

theorem shop_of_reaches {file : DatabaseFile} (h : Reaches env invoke tool (.start file) s) :
    s.file.shop = seedCatalog file.shop := by
  induction h with
  | refl => rfl
  | served _ _ hworld _ ih =>
    obtain ⟨ws, -, hfile⟩ := served_file hworld
    rw [hfile, replay_shop, ih]
  | @restarted s _ ih =>
    have hstart : (Server.start s.file : Server G).file.shop = seedCatalog s.file.shop := rfl
    rw [hstart, ih, seedCatalog_again]

/-- From the moment a server has been started on a file, all that has been stored stays as it
is and in its place, the rows of the file included, and the shop is the seeded one. -/
theorem history_kept {file : DatabaseFile} {s' : Server G}
    (h : Reaches env invoke tool (.start file) s) (h' : Reaches env invoke tool s s') :
    (file.tickets.rows <+: s.file.tickets.rows ∧
        s.file.tickets.rows <+: s'.file.tickets.rows) ∧
      (file.toolCalls.rows <+: s.file.toolCalls.rows ∧
        s.file.toolCalls.rows <+: s'.file.toolCalls.rows) ∧
      (file.securityEvents.rows <+: s.file.securityEvents.rows ∧
        s.file.securityEvents.rows <+: s'.file.securityEvents.rows) ∧
      s'.file.shop = seedCatalog file.shop ∧ (file.shop.Linked → s'.file.shop.Linked) := by
  obtain ⟨htickets, htoolCalls, hevents⟩ := rows_of_reaches h
  obtain ⟨htickets', htoolCalls', hevents'⟩ := rows_of_reaches h'
  have hshop := shop_of_reaches (h.trans h')
  refine ⟨⟨htickets, htickets'⟩, ⟨htoolCalls, htoolCalls'⟩, ⟨hevents, hevents'⟩, hshop, ?_⟩
  intro hlinked
  rw [hshop]
  exact hlinked.seedCatalog

end Server

theorem grounded_of_reaches_serve :
    Grounded (Server.start (serve (.ok ()) [false, true]).2.file : Server Unit).file.contents := by
  refine grounded_of_reaches (.restarted reaches_serve) ?_
  rw [contents_start]
  exact grounded_empty.withShop _ _ _

theorem history_kept_serve :
    let served := (serve (.ok ()) [false, true]).2
    let restarted : Server Unit := .start served.file
    (DatabaseFile.empty.tickets.rows <+: served.file.tickets.rows ∧
        served.file.tickets.rows <+: restarted.file.tickets.rows) ∧
      (DatabaseFile.empty.toolCalls.rows <+: served.file.toolCalls.rows ∧
        served.file.toolCalls.rows <+: restarted.file.toolCalls.rows) ∧
      (DatabaseFile.empty.securityEvents.rows <+: served.file.securityEvents.rows ∧
        served.file.securityEvents.rows <+: restarted.file.securityEvents.rows) ∧
      restarted.file.shop = seedCatalog DatabaseFile.empty.shop ∧
      (DatabaseFile.empty.shop.Linked → restarted.file.shop.Linked) :=
  history_kept reaches_serve (.restarted .refl)

end TicketWarden.Service
