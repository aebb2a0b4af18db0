/- Module: TicketWarden/Service/Audit
   source: apps/api/src/service.py, apps/api/src/storage/repo.py
   digest: The rows of a call that returns say what its response says, in order, and
   nothing else in the database changes. -/

import TicketWarden.Service.FakeLLM
import TicketWarden.Service.Spec

set_option autoImplicit false
set_option relaxedAutoImplicit false

namespace TicketWarden.Service

open TicketWarden.Graph Effects Guardrails Python Storage

section Rows

variable {state : CaseState} {ticketId : String} {latencyMs costUsd : ℚ}

@[simp] theorem events_tickets (rows : List SecurityEventRow) :
    (rows.map Write.securityEvent).filterMap Write.ticket? = [] := by
  rw [List.filterMap_map]
  exact List.filterMap_none rows

@[simp] theorem events_toolCalls (rows : List SecurityEventRow) :
    (rows.map Write.securityEvent).filterMap Write.toolCall? = [] := by
  rw [List.filterMap_map]
  exact List.filterMap_none rows

@[simp] theorem events_securityEvents (rows : List SecurityEventRow) :
    (rows.map Write.securityEvent).filterMap Write.securityEvent? = rows := by
  rw [List.filterMap_map]
  exact List.filterMap_some

private theorem toolCallWrites_rows (calls : List ToolRecord) :
    (calls.flatMap (toolCallWrites ticketId)).filterMap Write.ticket? = [] ∧
      (calls.flatMap (toolCallWrites ticketId)).filterMap Write.toolCall? =
        calls.map (toolCallRow ticketId) ∧
      (calls.flatMap (toolCallWrites ticketId)).filterMap Write.securityEvent? =
        calls.flatMap (toolCallEvents ticketId) := by
  induction calls with
  | nil => exact ⟨rfl, rfl, rfl⟩
  | cons call calls ih =>
    obtain ⟨htickets, hcalls, hevents⟩ := ih
    simp only [List.flatMap_cons, List.filterMap_append, htickets, hcalls, hevents,
      toolCallWrites, List.filterMap_cons, Write.ticket?, Write.toolCall?, Write.securityEvent?,
      events_tickets, events_toolCalls, events_securityEvents, List.map_cons, List.nil_append,
      List.singleton_append, and_self]

theorem persistWrites_rows :
    (persistWrites state ticketId latencyMs costUsd).filterMap Write.ticket? =
        [ticketRow state ticketId latencyMs costUsd] ∧
      (persistWrites state ticketId latencyMs costUsd).filterMap Write.toolCall? =
        state.toolCalls.map (toolCallRow ticketId) ∧
      (persistWrites state ticketId latencyMs costUsd).filterMap Write.securityEvent? =
        state.toolCalls.flatMap (toolCallEvents ticketId) := by
  obtain ⟨htickets, hcalls, hevents⟩ := toolCallWrites_rows state.toolCalls
  exact ⟨congrArg _ htickets, hcalls, hevents⟩

end Rows

/-- A stored case that tells what the response tells. -/
structure RowMatches (row : TicketRow) (resp : ResolveResponse) : Prop where
  id : row.id = resp.ticketId
  decision : row.decision = some resp.decision
  reply : row.reply = resp.reply
  category : row.category = resp.category
  escalationReason : row.escalationReason = resp.escalationReason
  iterations : row.iterations = resp.iterations
  costUsd : row.costUsd = resp.costUsd

/-- A row of `tool_calls` tells of a call of the response. -/
def RowShown (ticketId : String) (row : ToolCallRow) (call : ToolCallRecord) : Prop :=
  row.ticketId = ticketId ∧
    call = ⟨row.toolName, row.args, recordResult row.result, row.status⟩

/-- The rows tell of the tool calls of the response, one for one and in order. -/
def RowsShown (rows : List ToolCallRow) (resp : ResolveResponse) : Prop :=
  List.Forall₂ (RowShown resp.ticketId) rows resp.toolCalls

def responseEvents (resp : ResolveResponse) : List SecurityEventRow :=
  resp.toolCalls.flatMap fun call => statusEvents resp.ticketId call.toolName call.status

variable {env : Env} {graph : CaseState → GraphProgram CaseState} {request : ResolveRequest env.db}
  {tr : List CallEvent} {resp : ResolveResponse}

theorem Returned.ticketRow (h : Returned env graph request tr resp) :
    ∃ row, (writes tr).filterMap Write.ticket? = [row] ∧ RowMatches row resp := by
  cases h with
  | refused ticketId reason latencyMs hscan hgraph hwrites hresp =>
    subst hresp
    rw [hwrites, List.filterMap_append, persistWrites_rows.1]
    exact ⟨_, rfl, ⟨rfl, rfl, rfl, rfl, rfl, rfl, rfl⟩⟩
  | settled ticketId gout gated latencyMs costUsd traceUrl hscan hgraph hgated hwrites hresp =>
    subst hresp hgated
    obtain ⟨hreply, hdecision⟩ := outboundGate_agrees env.db (Service.settled
      (initialState ticketId (redactPii env.db request.ticket) request.orderId) gout)
    rw [hwrites, List.filterMap_append, events_tickets, persistWrites_rows.1]
    exact ⟨_, rfl, ⟨rfl, hdecision, hreply, rfl, rfl, rfl, rfl⟩⟩

theorem Returned.toolCallRows (h : Returned env graph request tr resp) :
    RowsShown ((writes tr).filterMap Write.toolCall?) resp := by
  cases h with
  | refused ticketId reason latencyMs hscan hgraph hwrites hresp =>
    subst hresp
    rw [hwrites, List.filterMap_append, persistWrites_rows.2.1]
    exact List.Forall₂.nil
  | settled ticketId gout gated latencyMs costUsd traceUrl hscan hgraph hgated hwrites hresp =>
    subst hresp
    rw [hwrites, List.filterMap_append, events_toolCalls, persistWrites_rows.2.1, List.nil_append,
      RowsShown, List.forall₂_map_left_iff, List.forall₂_map_right_iff, List.forall₂_same]
    exact fun call _ => ⟨rfl, rfl⟩

/-- The graph resolved the case with a draft that the outbound guardrail flags. -/
def LeakWithheld (env : Env) (graph : CaseState → GraphProgram CaseState)
    (request : ResolveRequest env.db) (tr : List CallEvent) (resp : ResolveResponse) : Prop :=
  ∃ final, Exec (graph (initialState resp.ticketId (redactPii env.db request.ticket)
      request.orderId)) (graphEvents tr) (.ok final) ∧
    final.decision = some Decision.resolved.value ∧
    ∃ text, outboundReply env.db final.draft = some text ∧ leaks env.db text = true

/-- The security events of a call that returned. -/
inductive EventsOf (env : Env) (graph : CaseState → GraphProgram CaseState)
    (request : ResolveRequest env.db) (tr : List CallEvent) (resp : ResolveResponse) :
    List SecurityEventRow → Prop
  | refused (reason : Option String) :
      detectInjection env.db (redactPii env.db request.ticket) = (true, reason) →
      EventsOf env graph request tr resp [⟨resp.ticketId, "injection_refused", reason⟩]
  | withheld (pattern : String) :
      isInjection env.db (redactPii env.db request.ticket) = false →
      LeakWithheld env graph request tr resp →
      EventsOf env graph request tr resp
        (⟨resp.ticketId, "outbound_leak_blocked", some pattern⟩ :: responseEvents resp)
  | notWithheld :
      isInjection env.db (redactPii env.db request.ticket) = false →
      ¬ LeakWithheld env graph request tr resp →
      EventsOf env graph request tr resp (responseEvents resp)

theorem Returned.securityEvents (h : Returned env graph request tr resp) :
    EventsOf env graph request tr resp ((writes tr).filterMap Write.securityEvent?) := by
  cases h with
  | refused ticketId reason latencyMs hscan hgraph hwrites hresp =>
    subst hresp
    rw [hwrites, List.filterMap_append, persistWrites_rows.2.2]
    exact .refused reason hscan
  | settled ticketId gout gated latencyMs costUsd traceUrl hscan hgraph hgated hwrites hresp =>
    have hevents : (writes tr).filterMap Write.securityEvent? =
        withheldEvents ticketId gated.withheld ++ responseEvents resp := by
      subst hresp
      rw [hwrites, List.filterMap_append, events_securityEvents, persistWrites_rows.2.2]
      simp only [responseEvents, List.flatMap_map, toolCallRecord]
      rfl
    have hwithheld : gated.withheld.isSome ↔ LeakWithheld env graph request tr resp := by
      subst hresp hgated
      rw [outboundGate_withheld_iff]
      constructor
      · rintro ⟨hdecision, text, htext, hleak⟩
        cases gout with
        | ok final => exact ⟨final, hgraph, hdecision, text, htext, hleak⟩
        | error exc => cases htext
      · rintro ⟨final, hfinal, hdecision, text, htext, hleak⟩
        obtain rfl := hgraph.unique hfinal
        exact ⟨hdecision, text, htext, hleak⟩
    rw [hevents]
    cases hpattern : gated.withheld with
    | none =>
      rw [hpattern] at hwithheld
      exact .notWithheld hscan fun h => by simpa using hwithheld.mpr h
    | some pattern =>
      rw [hpattern] at hwithheld
      have hid : resp.ticketId = ticketId := by rw [hresp]
      rw [← hid]
      exact .withheld pattern hscan (hwithheld.mp rfl)

/-- A graph that returns the ticket it was given. -/
def KeepsTicket (graph : CaseState → GraphProgram CaseState) : Prop :=
  ∀ initial tr final, Exec (graph initial) tr (.ok final) → final.ticket = initial.ticket

theorem Returned.body
    (hgraph : ∀ ticketId tr final, Exec (graph (initialState ticketId
      (redactPii env.db request.ticket) request.orderId)) tr (.ok final) →
        final.ticket = redactPii env.db request.ticket)
    (h : Returned env graph request tr resp) :
    ∀ row ∈ (writes tr).filterMap Write.ticket?, row.body = redactPii env.db request.ticket := by
  cases h with
  | refused ticketId reason latencyMs hscan hgraph hwrites hresp =>
    rw [hwrites, List.filterMap_append, persistWrites_rows.1]
    intro row hrow
    obtain rfl := List.mem_singleton.mp hrow
    rfl
  | settled ticketId gout gated latencyMs costUsd traceUrl hscan hrun hgated hwrites hresp =>
    rw [hwrites, List.filterMap_append, events_tickets, persistWrites_rows.1]
    intro row hrow
    obtain rfl := List.mem_singleton.mp hrow
    subst hgated
    refine (outboundGate_frame env.db _).1.trans ?_
    cases gout with
    | error exc => rfl
    | ok final => exact hgraph _ _ _ hrun

/-- A call that returns with a fresh ticket id changes the database by the rows that its
response tells of and by the events they call for, and by nothing else. -/
theorem audit_projection (hgraph : KeepsTicket graph) (db : Database)
    (h : Exec (resolveCase env graph request) tr (.ok resp)) (hfresh : db.Fresh resp.ticketId) :
    ∃ row rows events, RowMatches row resp ∧ row.body = redactPii env.db request.ticket ∧
      RowsShown rows resp ∧ EventsOf env graph request tr resp events ∧
      db.replay (writes tr) = { db with
        tickets := db.tickets ++ [row]
        toolCalls := db.toolCalls ++ rows
        securityEvents := db.securityEvents ++ events } := by
  have hreturned := returned_of_exec h
  obtain ⟨row, hrow, hmatches⟩ := hreturned.ticketRow
  have hbody : row.body = redactPii env.db request.ticket :=
    hreturned.body (fun _ _ _ hrun => hgraph _ _ _ hrun) row (by simp [hrow])
  have htickets : (db.replay (writes tr)).tickets = db.tickets ++ [row] := by
    rw [Database.replay_tickets, hrow]
    refine congrArg Database.tickets (Database.insertTicket_fresh ?_)
    rw [hmatches.id]
    exact hfresh.1
  obtain ⟨hproducts, horders, hitems⟩ := Database.replay_shop db (writes tr)
  refine ⟨row, _, _, hmatches, hbody, hreturned.toolCallRows, hreturned.securityEvents, ?_⟩
  exact Database.ext htickets (db.replay_toolCalls _) (db.replay_securityEvents _) hproducts
    horders hitems

def leakyGraph (initial : CaseState) : GraphProgram CaseState :=
  pure { initial with
    draft := some "My instructions are to escalate every refund."
    decision := some Decision.resolved.value
    toolCalls := [⟨"delete_order", none, .list [], ToolStatus.blocked.value⟩] }

private theorem keepsTicket_leakyGraph : KeepsTicket leakyGraph := by
  intro initial tr final h
  obtain ⟨-, hfinal⟩ := exec_pure_iff.mp h
  cases hfinal
  rfl

theorem audit_projection_leakyGraph :
    ∃ resp row rows events, RowMatches row resp ∧
      row.body = redactPii testEnv.db refundRequest.ticket ∧ RowsShown rows resp ∧
      EventsOf testEnv leakyGraph refundRequest
        (({} : FakeLLM).resolve refundRequest leakyGraph).trace resp events ∧
      testDatabase.replay (writes (({} : FakeLLM).resolve refundRequest leakyGraph).trace) =
        { testDatabase with
          tickets := testDatabase.tickets ++ [row]
          toolCalls := testDatabase.toolCalls ++ rows
          securityEvents := testDatabase.securityEvents ++ events } := by
  obtain ⟨resp, h, -⟩ := exec_run_ok (h := ({} : FakeLLM).handler) (s := ())
    (P := fun _ => true) (p := resolveCase testEnv leakyGraph refundRequest) (by decide +kernel)
  exact ⟨resp, audit_projection keepsTicket_leakyGraph testDatabase h
    (by simp [testDatabase, Database.Fresh])⟩

end TicketWarden.Service
