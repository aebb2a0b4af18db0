/- Module: TicketWarden/Service/Readback
   source: apps/api/src/main.py, apps/api/src/service.py, apps/api/src/storage/repo.py
   digest: What the tables hold of the ticket of an answered request, from the answer on. -/

import TicketWarden.Service.Lifetime

set_option autoImplicit false
set_option relaxedAutoImplicit false

namespace TicketWarden.Service

open TicketWarden.Graph Effects Guardrails Observability Python Storage Store Tables

/-- What the tables hold of a ticket. -/
@[ext] structure CaseRows where
  tickets : List TicketRow
  toolCalls : List ToolCallRow
  securityEvents : List SecurityEventRow

def caseRows (db : Database) (ticketId : String) : CaseRows where
  tickets := db.tickets.filter fun row => row.id == ticketId
  toolCalls := db.toolCalls.filter fun row => row.ticketId == ticketId
  securityEvents := db.securityEvents.filter fun row => row.ticketId == ticketId

def CaseRows.add (rows : CaseRows) (ws : List Write) : CaseRows where
  tickets := rows.tickets ++ ws.filterMap Write.ticket?
  toolCalls := rows.toolCalls ++ ws.filterMap Write.toolCall?
  securityEvents := rows.securityEvents ++ ws.filterMap Write.securityEvent?

private theorem CaseRows.add_nil (rows : CaseRows) : rows.add [] = rows := by
  ext1 <;> exact List.append_nil _

private theorem caseRows_fresh {db : Database} {ticketId : String} (h : db.Fresh ticketId) :
    caseRows db ticketId = ⟨[], [], []⟩ := by
  ext1
  · exact List.filter_eq_nil_iff.mpr fun row hrow => by simpa using h.1 row hrow
  · exact List.filter_eq_nil_iff.mpr fun row hrow => by simpa using h.2.1 row hrow
  · exact List.filter_eq_nil_iff.mpr fun row hrow => by simpa using h.2.2 row hrow

private theorem caseRows_withShop (db : Database) (products : List ProductRow)
    (orders : List OrderRow)
    (orderItems : List OrderItemRow) (ticketId : String) :
    caseRows { db with products := products, orders := orders, orderItems := orderItems }
      ticketId = caseRows db ticketId := rfl

def concerning (ticketId : String) (ws : List Write) : List Write :=
  ws.filter fun w => rowTicketId w == ticketId

section Run

variable {ι : Type} [DecidableEq ι] {env : Env} {request : ι → ResolveRequest env.db}
  {tr : List (ι × CallEvent)} {db : Database} {ticketId : String}

private theorem caseRows_run (h : Resolving request tr) (hfresh : FreshIds db tr) :
    caseRows (db.replay (writes (tr.map Prod.snd))) ticketId =
      (caseRows db ticketId).add (concerning ticketId (writes (tr.map Prod.snd))) := by
  have hsplit : ∀ {α : Type} (row? : Write → Option α) (id : α → String),
      (∀ w row, row? w = some row → id row = rowTicketId w) → ∀ ws : List Write,
        (ws.filterMap row?).filter (fun row => id row == ticketId) =
          (concerning ticketId ws).filterMap row? := by
    intro α row? id hid ws
    rw [concerning, List.filter_filterMap, List.filterMap_filter]
    refine List.filterMap_congr fun w _ => ?_
    cases hw : row? w with
    | none => simp
    | some row => simp [hid w row hw, Option.filter]
  ext1
  · rw [caseRows, replay_tickets_run h hfresh, List.filter_append, hsplit _ TicketRow.id]
    · rfl
    · intro w row hrow
      cases w <;> cases hrow
      rfl
  · rw [caseRows, Database.replay_toolCalls, List.filter_append, hsplit _ ToolCallRow.ticketId]
    · rfl
    · intro w row hrow
      cases w <;> cases hrow
      rfl
  · rw [caseRows, Database.replay_securityEvents, List.filter_append,
      hsplit _ SecurityEventRow.ticketId]
    · rfl
    · intro w row hrow
      cases w <;> cases hrow
      rfl

private theorem concerning_own (h : Resolving request tr) (hfresh : FreshIds db tr) {i : ι}
    {w : Write}
    (hw : w ∈ writes (ownTrace i tr)) :
    concerning (rowTicketId w) (writes (tr.map Prod.snd)) = writes (ownTrace i tr) := by
  rw [concerning, writes_eq, writes_eq]
  refine filter_ownTrace ?_
  rintro ⟨j, e⟩ he w' hw'
  have hmem : w' ∈ writes (ownTrace j tr) := by
    rw [writes_eq]
    exact List.mem_filterMap.mpr ⟨e, mem_ownTrace.mpr he, hw'⟩
  rw [beq_iff_eq]
  constructor
  · exact h.same_owner hfresh hmem hw
  · rintro rfl
    obtain ⟨ticketId, hown⟩ := h.owned j
    exact (hown w' hmem).1.trans (hown w hw).1.symm

private theorem concerning_stored (h : Resolving request tr) (hfresh : FreshIds db tr)
    (hstored : ∃ ticket ∈ db.tickets, ticket.id = ticketId) :
    concerning ticketId (writes (tr.map Prod.snd)) = [] := by
  obtain ⟨ticket, hticket, rfl⟩ := hstored
  refine List.filter_eq_nil_iff.mpr fun w hw hsame => ?_
  obtain ⟨i, hi⟩ := Resolving.mem_writes.mp hw
  obtain ⟨ticketId, hown⟩ := h.owned i
  obtain ⟨hid, hdrawn⟩ := hown w hi
  rw [beq_iff_eq, hid] at hsame
  exact (hfresh.fresh i ticketId hdrawn).1 ticket hticket hsame.symm

end Run

section Server

variable {G : Type} {env : Env} {invoke : G → CaseState → GraphProgram CaseState}
  {tool : Shop → String → Dict → Except Exc Json} {s s' s'' : Server G}

private theorem caseRows_of_reaches {ticketId : String} (h : Reaches env invoke tool s s')
    (hstored : ∃ ticket ∈ s.file.contents.tickets, ticket.id = ticketId) :
    caseRows s'.file.contents ticketId = caseRows s.file.contents ticketId := by
  induction h with
  | refl => rfl
  | @served _ _ mid s' request tr pool' hbefore hinter hworld hfresh ih =>
    have hresolving := resolving_of_interleaves hinter
    have hthere : ∃ ticket ∈ mid.file.contents.tickets, ticket.id = ticketId := by
      obtain ⟨ticket, hticket, hid⟩ := hstored
      exact ⟨ticket, ((rows_of_reaches hbefore).1.map Stored.row).subset hticket, hid⟩
    obtain ⟨ws, hws, hfile⟩ := served_file hworld
    rw [hfile, DatabaseFile.contents_replay, hws, caseRows_run hresolving hfresh,
      concerning_stored hresolving hfresh hthere, CaseRows.add_nil, ih]
  | restarted _ ih => rw [contents_start, caseRows_withShop, ih]

private theorem map_toolCallsForTicket (file : DatabaseFile) (ticketId : String) :
    (file.toolCallsForTicket ticketId).map Stored.row =
      (caseRows file.contents ticketId).toolCalls := by
  change _ = (file.toolCalls.rows.map Stored.row).filter fun row => row.ticketId == ticketId
  rw [List.filter_map]
  rfl

/-- What the tables hold of the ticket of an answered request. -/
structure Recorded (env : Env) (graph : CaseState → GraphProgram CaseState)
    (request : ResolveRequest env.db) (tr : List CallEvent) (resp : ResolveResponse)
    (file : DatabaseFile) : Prop where
  ticket : ∃ row, (caseRows file.contents resp.ticketId).tickets = [row] ∧ RowMatches row resp
  toolCalls : RowsShown ((file.toolCallsForTicket resp.ticketId).map Stored.row) resp
  securityEvents : EventsOf env graph request tr resp
    (caseRows file.contents resp.ticketId).securityEvents

theorem exists_recorded {ι : Type} [DecidableEq ι] {request : ι → ResolveRequest env.db}
    {tr : List (ι × RouteEvent G)}
    {pool' : ι → Program (routeSig G) Exc (Except HttpError ResolveResponse)}
    (hrun : Interleaves (fun i => resolve env invoke (request i)) tr pool')
    (hworld : World.Runs (ServerStep tool) s (tr.map Prod.snd) s')
    (hfresh : FreshIds s.file.contents (caseTrace tr)) {i : ι} {resp : ResolveResponse}
    (hout : (pool' i).outcome = some (.ok (.ok resp))) (hlater : Reaches env invoke tool s' s'') :
    ∃ source row rows, Exec (resolveCase env (invokeOf invoke source) (request i))
        (callEvents (ownTrace i tr)) (.ok resp) ∧
      RowMatches row resp ∧ RowsShown rows resp ∧ caseRows s''.file.contents resp.ticketId =
        ⟨[row], rows,
          (writes (callEvents (ownTrace i tr))).filterMap Write.securityEvent?⟩ := by
  obtain ⟨source, out', -, hcase, hanswer⟩ := route_refines ((hrun.steps i).exec hout)
  obtain rfl : out' = .ok resp := by
    cases out' with
    | error exc => cases hanswer
    | ok resp' => cases hanswer; rfl
  have hresolving := resolving_of_interleaves hrun
  have hreturned := returned_of_exec hcase
  obtain ⟨row, hrow, hmatches⟩ := hreturned.ticketRow
  refine ⟨source, row, _, hcase, hmatches, hreturned.toolCallRows, ?_⟩
  rw [← ownTrace_caseTrace] at hrow ⊢
  have hmem : .ticket row ∈ writes (ownTrace i (caseTrace tr)) := by
    obtain ⟨w, hw, hticket⟩ := List.mem_filterMap.mp (hrow ▸ List.mem_cons_self)
    cases w with
    | ticket row' => exact Option.some.inj hticket ▸ hw
    | _ => cases hticket
  have hid : rowTicketId (.ticket row) = resp.ticketId := hmatches.id
  have hnew : s.file.contents.Fresh resp.ticketId := by
    obtain ⟨ticketId, hown⟩ := hresolving.owned i
    obtain ⟨hown, hdrawn⟩ := hown _ hmem
    rw [← hid, hown]
    exact hfresh.fresh i ticketId hdrawn
  obtain ⟨ws, hws, hfile⟩ := served_file hworld
  have hrows : caseRows s'.file.contents resp.ticketId =
      ⟨[row], (writes (ownTrace i (caseTrace tr))).filterMap Write.toolCall?,
        (writes (ownTrace i (caseTrace tr))).filterMap Write.securityEvent?⟩ := by
    rw [hfile, DatabaseFile.contents_replay, hws, caseRows_run hresolving hfresh,
      caseRows_fresh hnew, ← hid, concerning_own hresolving hfresh hmem, CaseRows.add, hrow]
    rfl
  have hstored : ∃ ticket ∈ s'.file.contents.tickets, ticket.id = resp.ticketId := by
    have hfound : row ∈ (caseRows s'.file.contents resp.ticketId).tickets := by
      rw [hrows]
      exact List.mem_cons_self
    exact ⟨row, List.mem_of_mem_filter hfound, hmatches.id⟩
  exact (caseRows_of_reaches hlater hstored).trans hrows

/-- From the moment a request is answered, whatever the server is asked then, wherever its
requests are cut off and however often it is restarted, the tables hold of its ticket the rows
that the response tells of, in order, and no other. -/
theorem recorded_from_answer {ι : Type} [DecidableEq ι] {request : ι → ResolveRequest env.db}
    {tr : List (ι × RouteEvent G)}
    {pool' : ι → Program (routeSig G) Exc (Except HttpError ResolveResponse)}
    (hrun : Interleaves (fun i => resolve env invoke (request i)) tr pool')
    (hworld : World.Runs (ServerStep tool) s (tr.map Prod.snd) s')
    (hfresh : FreshIds s.file.contents (caseTrace tr)) {i : ι} {resp : ResolveResponse}
    (hout : (pool' i).outcome = some (.ok (.ok resp))) (hlater : Reaches env invoke tool s' s'') :
    ∃ source, Exec (resolveCase env (invokeOf invoke source) (request i))
        (callEvents (ownTrace i tr)) (.ok resp) ∧
      Recorded env (invokeOf invoke source) (request i) (callEvents (ownTrace i tr)) resp
        s''.file := by
  obtain ⟨source, row, rows, hcase, hmatches, hshown, hrows⟩ :=
    exists_recorded hrun hworld hfresh hout hlater
  refine ⟨source, hcase, ?_⟩
  constructor
  case ticket => exact ⟨row, by rw [hrows], hmatches⟩
  case toolCalls =>
    rw [map_toolCallsForTicket, hrows]
    exact hshown
  case securityEvents =>
    rw [hrows]
    exact (returned_of_exec hcase).securityEvents

end Server

theorem recorded_from_answer_serve :
    ∃ source resp, Exec (resolveCase testEnv (invokeOf (fun _ : Unit => caseGraph testEnv) source)
        (twoRequests true)) (callEvents (ownTrace true (serve (.ok ()) [false, true]).1))
        (.ok resp) ∧
      Recorded testEnv (invokeOf (fun _ : Unit => caseGraph testEnv) source) (twoRequests true)
        (callEvents (ownTrace true (serve (.ok ()) [false, true]).1)) resp
        (Server.start (serve (.ok ()) [false, true]).2.file : Server Unit).file := by
  obtain ⟨pool', hrun, resp, hout⟩ := exists_response_serve
  obtain ⟨source, hrecorded⟩ := recorded_from_answer hrun (runs_serve (.ok ()) [false, true])
    freshIds_serve hout (.restarted .refl)
  exact ⟨source, resp, hrecorded⟩

end TicketWarden.Service
