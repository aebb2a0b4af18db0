/- Module: TicketWarden/Service/WellFormed
   source: apps/api/src/service.py, apps/api/src/storage/repo.py, apps/api/src/graph/build.py
   digest: The columns of the rows that a server stores, over its whole life. -/

import TicketWarden.Graph.Invariant
import TicketWarden.Service.Spend
import TicketWarden.Service.Terminal

set_option autoImplicit false
set_option relaxedAutoImplicit false

namespace TicketWarden.Service

open TicketWarden.Graph Effects Guardrails Observability Python Storage Store

/-- A stored case: its decision is one of three, and the other columns go with it. -/
structure CaseOk (env : Env) (row : TicketRow) : Prop where
  decision : ∃ decision : Decision, row.decision = some decision.value
  redacted : ∃ ticket, row.body = redactPii env.db ticket
  refuse_iff : row.decision = some Decision.refuse.value ↔ isInjection env.db row.body = true
  refused : row.decision = some Decision.refuse.value →
    row.category = none ∧ row.reply = none ∧ row.iterations = 0 ∧ row.costUsd = 0
  resolved : row.decision = some Decision.resolved.value →
    row.escalationReason = none ∧ row.category.isSome = true ∧ 1 ≤ row.iterations ∧
      ∀ reply, row.reply = some reply → leaks env.db reply = false
  explained : row.decision ≠ some Decision.resolved.value →
    ∃ reason, row.escalationReason = some reason ∧ reason ≠ ""
  category : ∀ category, row.category = some category → category ∈ categories
  reply : ∀ reply, row.reply = some reply → ∃ text, reply = redactPii env.db text
  iterations : 0 ≤ row.iterations ∧ row.iterations ≤ reviewCap env.settings
  cost : ∃ promptTokens completionTokens : ℤ,
    row.costUsd = estimateCost promptTokens completionTokens env.settings.llmModel
      env.settings.llmProvider

/-- A stored tool call: only tools off the allowlist are blocked, and a result that stands has no
text that the scan flags. -/
structure ToolCallOk (env : Env) (row : ToolCallRow) : Prop where
  status : ∃ status : ToolStatus, row.status = status.value
  blocked_iff : row.status = ToolStatus.blocked.value ↔ isAllowed row.toolName = false
  scanned : row.status = ToolStatus.ok.value ∨ row.status = ToolStatus.sanitized.value →
    Unflagged env.db (strings row.result)

def EventOk (row : SecurityEventRow) : Prop :=
  ∃ eventType : SecurityEventType, row.eventType = eventType.value

def WriteOk (env : Env) : Write → Prop
  | .ticket row => CaseOk env row
  | .toolCall row => ToolCallOk env row
  | .securityEvent row => EventOk row

/-- Every row of the three tables is well formed. -/
structure WellFormed (env : Env) (db : Database) : Prop where
  tickets : ∀ row ∈ db.tickets, CaseOk env row
  toolCalls : ∀ row ∈ db.toolCalls, ToolCallOk env row
  securityEvents : ∀ row ∈ db.securityEvents, EventOk row

theorem WellFormed.replay {env : Env} {db : Database} (h : WellFormed env db) {ws : List Write}
    (hws : ∀ w ∈ ws, WriteOk env w) : WellFormed env (db.replay ws) := by
  constructor
  case tickets =>
    intro row hrow
    rw [Database.replay_tickets] at hrow
    rcases Database.mem_foldl_insertTicket hrow with hnew | hold
    · obtain ⟨w, hw, hticket⟩ := List.mem_filterMap.mp hnew
      cases w <;> cases hticket
      exact hws _ hw
    · exact h.tickets row hold
  case toolCalls =>
    intro row hrow
    rw [Database.replay_toolCalls] at hrow
    rcases List.mem_append.mp hrow with hold | hnew
    · exact h.toolCalls row hold
    · obtain ⟨w, hw, hcall⟩ := List.mem_filterMap.mp hnew
      cases w <;> cases hcall
      exact hws _ hw
  case securityEvents =>
    intro row hrow
    rw [Database.replay_securityEvents] at hrow
    rcases List.mem_append.mp hrow with hold | hnew
    · exact h.securityEvents row hold
    · obtain ⟨w, hw, hevent⟩ := List.mem_filterMap.mp hnew
      cases w <;> cases hevent
      exact hws _ hw

section Calls

variable {env : Env}

private theorem toolCallOk_entry (entry : LedgerEntry env.db) (ticketId : String) :
    ToolCallOk env (toolCallRow ticketId entry.record) where
  status := by
    show ∃ status : ToolStatus, entry.record.status = status.value
    cases hanswer : entry.answer with
    | none =>
      refine ⟨.blocked, entry.blocked.mpr ?_⟩
      rw [← entry.called, hanswer]
      rfl
    | some answer =>
      by_cases hfailed : Failed answer
      · exact ⟨.error, entry.error.mpr ⟨answer, hanswer, hfailed⟩⟩
      · cases answer with
        | error exc => exact absurd trivial hfailed
        | ok result =>
          obtain ⟨flagged, hscan⟩ := entry.scanned result hanswer hfailed
          cases flagged with
          | true => exact ⟨.sanitized, entry.sanitized.mpr ⟨result, _, hanswer, hfailed, hscan⟩⟩
          | false => exact ⟨.ok, entry.ok.mpr ⟨result, _, hanswer, hfailed, hscan⟩⟩
  blocked_iff := by
    show entry.record.status = _ ↔ isAllowed entry.record.toolName = false
    rw [entry.name]
    exact entry.blocked
  scanned := fun hstands => entry.unflagged (fact?_of_stands hstands)

/-- How a case stands when the graph has ended or has raised. -/
structure Left (env : Env) (ticket : String) (final : CaseState) : Prop where
  ticket : final.ticket = ticket
  records : Booked env.db final
  category : ∀ category, final.category = some category → category ∈ categories
  decided : (final.decision = some Decision.resolved.value ∧ final.escalationReason = none ∧
      final.category.isSome = true ∧ 1 ≤ final.iterations) ∨
    (final.decision = some Decision.escalate.value ∧
      ∃ reason, final.escalationReason = some reason ∧ reason ≠ "")
  iterations : 0 ≤ final.iterations ∧ final.iterations ≤ reviewCap env.settings

private theorem exhaustedReason_ne_empty (iterations : ℤ) (feedback : String) :
    exhaustedReason iterations feedback ≠ "" := by
  unfold exhaustedReason
  rw [String.append_assoc, String.append_assoc]
  exact append_ne_empty _ (by decide)

private theorem left_errorState {initial : CaseState} {ticket : String}
    (hopen : Open env.db env.settings ticket .classifier initial)
    (hcategory : initial.category = none) (exc : Exc) :
    Left env ticket (errorState initial exc) := by
  have hroom := hopen.room
  constructor
  case ticket => exact hopen.ticket
  case records => exact hopen.records
  case category =>
    intro category hcategory'
    cases hcategory.symm.trans hcategory'
  case decided => exact .inr ⟨rfl, _, rfl, append_ne_empty _ (by decide)⟩
  case iterations =>
    refine ⟨hopen.iterations, ?_⟩
    show initial.iterations ≤ reviewCap env.settings
    omega

private theorem left_settled {initial : CaseState} {tr : List GraphEvent}
    {gout : Except Exc CaseState}
    {ticket : String} (hopen : Open env.db env.settings ticket .classifier initial)
    (hcategory : initial.category = none)
    (h : Exec (caseGraph env initial) tr gout) : Left env ticket (settled initial gout) := by
  cases gout with
  | error exc => exact left_errorState hopen hcategory exc
  | ok final =>
    have hclosed := closed_of_exec hopen h
    obtain ⟨category, hmem, hfinal⟩ := hclosed.category
    have hpassed := hclosed.iterations
    show Left env ticket final
    constructor
    case ticket => exact hclosed.ticket
    case records => exact hclosed.records
    case category =>
      intro category' hcategory'
      rw [hfinal] at hcategory'
      exact Option.some.inj hcategory' ▸ hmem
    case decided =>
      rcases hclosed.decided with ⟨hresolved, hreason⟩ | ⟨hescalated, feedback, hreason⟩
      · exact .inl ⟨hresolved, hreason, by rw [hfinal]; rfl, hpassed⟩
      · exact .inr ⟨hescalated, _, hreason, exhaustedReason_ne_empty _ _⟩
    case iterations => exact ⟨by omega, hclosed.within_cap⟩

private theorem reply_redacted {db : Runtime} {final : CaseState} {reply : String}
    (h : (outboundGate db final).final.draft = some reply) : ∃ text, reply = redactPii db text := by
  have hdraft : outboundReply db final.draft = some reply := by
    unfold outboundGate at h
    dsimp only at h
    split at h
    · cases h
    · exact h
  cases htext : final.draft with
  | none =>
    rw [htext] at hdraft
    cases hdraft
  | some text =>
    rw [htext] at hdraft
    exact ⟨text, outboundReply_eq hdraft⟩

theorem Left.gated {ticket : String} {final : CaseState} (h : Left env ticket final) :
    Left env ticket (outboundGate env.db final).final := by
  obtain ⟨hticket, hcategory, hiterations, hcalls⟩ := outboundGate_frame env.db final
  constructor
  case ticket => rw [hticket, h.ticket]
  case records =>
    rw [Booked, hcalls]
    exact h.records
  case category =>
    rw [hcategory]
    exact h.category
  case iterations =>
    rw [hiterations]
    exact h.iterations
  case decided =>
    rw [hcategory, hiterations]
    rcases h.decided with ⟨hresolved, hreason, hsome, hpass⟩ | ⟨hescalated, hreason⟩
    · rcases @outboundGate_of_resolved env.db final hresolved with ⟨pattern, hgate⟩ | ⟨-, hgate⟩
      · rw [hgate]
        exact .inr ⟨rfl, _, rfl, append_ne_empty _ (by decide)⟩
      · rw [hgate]
        exact .inl ⟨hresolved, hreason, hsome, hpass⟩
    · rw [@outboundGate_of_escalated env.db final hescalated]
      exact .inr ⟨hescalated, hreason⟩

private theorem clean_gated {ticket : String} {final : CaseState} (h : Left env ticket final)
    (hgated : (outboundGate env.db final).final.decision = some Decision.resolved.value)
    {reply : String} (hreply : (outboundGate env.db final).final.draft = some reply) :
    leaks env.db reply = false := by
  have hne : some Decision.escalate.value ≠ some Decision.resolved.value := by decide
  rcases h.decided with ⟨hresolved, -⟩ | ⟨hescalated, -⟩
  · rcases @outboundGate_of_resolved env.db final hresolved with ⟨pattern, hgate⟩ | ⟨hclean, hgate⟩
    · rw [hgate] at hgated
      exact absurd hgated hne
    · rw [hgate] at hreply
      exact hclean reply hreply
  · rw [@outboundGate_of_escalated env.db final hescalated] at hgated
    exact absurd (hescalated.symm.trans hgated) hne

private theorem caseOk_finish {request : ResolveRequest env.db} {final : CaseState}
    (hscan : isInjection env.db (redactPii env.db request.ticket) = false)
    (h : Left env (redactPii env.db request.ticket) final) (ticketId : String)
    (latencyMs : ℚ) (promptTokens completionTokens : ℤ) :
    CaseOk env (ticketRow (outboundGate env.db final).final ticketId latencyMs
      (estimateCost promptTokens completionTokens env.settings.llmModel
        env.settings.llmProvider)) := by
  have hleft := h.gated
  have hclean := fun hresolved reply => @clean_gated env _ final h hresolved reply
  have hreply : ∀ reply, (outboundGate env.db final).final.draft = some reply →
      ∃ text, reply = redactPii env.db text := fun reply h => reply_redacted h
  generalize (outboundGate env.db final).final = state at hleft hclean hreply ⊢
  have hrefuse : state.decision ≠ some Decision.refuse.value := by
    rcases hleft.decided with ⟨hdecision, -⟩ | ⟨hdecision, -⟩
    · rw [hdecision]
      decide
    · rw [hdecision]
      decide
  constructor
  case decision =>
    rcases hleft.decided with ⟨hdecision, -⟩ | ⟨hdecision, -⟩
    · exact ⟨_, hdecision⟩
    · exact ⟨_, hdecision⟩
  case redacted => exact ⟨_, hleft.ticket⟩
  case refuse_iff =>
    refine iff_of_false hrefuse ?_
    show ¬ isInjection env.db state.ticket = true
    rw [hleft.ticket, hscan]
    exact Bool.false_ne_true
  case refused => exact fun h => absurd h hrefuse
  case resolved =>
    intro hresolved
    rcases hleft.decided with ⟨-, hreason, hsome, hpass⟩ | ⟨hescalated, -⟩
    · exact ⟨hreason, hsome, hpass, fun reply => hclean hresolved reply⟩
    · exact absurd (hescalated.symm.trans hresolved) (by decide)
  case explained =>
    intro hne
    rcases hleft.decided with ⟨hresolved, -⟩ | ⟨-, hreason⟩
    · exact absurd hresolved hne
    · exact hreason
  case category => exact hleft.category
  case reply => exact hreply
  case iterations => exact hleft.iterations
  case cost => exact ⟨promptTokens, completionTokens, rfl⟩

private theorem caseOk_refuse {request : ResolveRequest env.db} {reason : Option String}
    (hscan : detectInjection env.db (redactPii env.db request.ticket) = (true, reason))
    (ticketId : String) (latencyMs : ℚ) :
    CaseOk env (ticketRow (refusedState ticketId (redactPii env.db request.ticket)
      (refusalReason reason)) ticketId latencyMs 0) where
  decision := ⟨.refuse, rfl⟩
  redacted := ⟨_, rfl⟩
  refuse_iff := iff_of_true rfl (by
    show (detectInjection env.db (redactPii env.db request.ticket)).1 = true
    rw [hscan])
  refused := fun _ => ⟨rfl, rfl, rfl, rfl⟩
  resolved := fun h =>
    absurd h (by decide : some Decision.refuse.value ≠ some Decision.resolved.value)
  explained := fun _ => ⟨_, rfl, by
    unfold refusalReason
    rw [String.append_assoc]
    exact append_ne_empty _ (by decide)⟩
  category := fun _ h => by cases h
  reply := fun _ h => by cases h
  iterations := ⟨le_refl 0, zero_le_one.trans (le_max_left _ _)⟩
  cost := ⟨0, 0, (estimateCost_zero _ _).symm⟩

end Calls

section Inserts

variable {env : Env}

/-- Whatever has been committed is well formed. -/
def Kept (env : Env) (tr : List ServiceEvent) : Prop :=
  ∀ e ∈ tr, ∀ w, written? e = some w → WriteOk env w

private theorem additive_kept (env : Env) : Additive (Kept env) := additive_forall _

private theorem kept_perform {o : ServiceOp} (h : ∀ r w, written? ⟨o, r⟩ = some w → WriteOk env w) :
    Satisfies (perform o) (Kept env) :=
  satisfies_perform fun r e he => by
    obtain rfl := List.mem_singleton.mp he
    exact h r

private theorem kept_logSecurityEvent (ticketId : String) (eventType : SecurityEventType)
    (detail : Option String) :
    Satisfies (logSecurityEvent ticketId eventType detail) (Kept env) := by
  have hevent : EventOk ⟨ticketId, eventType.value, detail⟩ := ⟨eventType, rfl⟩
  refine satisfies_logSecurityEvent (fun exc e he w hw => ?_) fun e he w hw => ?_
  · obtain rfl := List.mem_singleton.mp he
    cases hw
  · rcases List.mem_pair.mp he with rfl | rfl
    · cases hw
      exact hevent
    · cases hw

private theorem kept_persistToolCall {ticketId : String} {call : ToolRecord}
    (hcall : ToolCallOk env (toolCallRow ticketId call)) :
    Satisfies (persistToolCall env.db ticketId call) (Kept env) := by
  have hlast : ∀ {tr : List ServiceEvent}, tr = [] → Kept env tr := by
    rintro tr rfl
    exact (additive_kept env).nil
  intro tr out h
  rcases exec_persistToolCall h with rfl | ⟨exc, rfl⟩ | ⟨tr', rfl, hevent⟩
  · exact (additive_kept env).nil
  · intro e he w hw
    obtain rfl := List.mem_singleton.mp he
    cases hw
  have htail : Kept env tr' := by
    rcases hevent with ⟨-, hlog⟩ | ⟨-, hlog⟩ | hnone
    · exact kept_logSecurityEvent _ _ _ hlog
    · exact kept_logSecurityEvent _ _ _ hlog
    · exact hlast hnone
  intro e he w hw
  rcases List.mem_cons.mp he with rfl | he
  · cases hw
    exact hcall
  · rcases List.mem_cons.mp he with rfl | he
    · cases hw
    · exact htail e he w hw

private theorem kept_persist {state : CaseState} {ticketId : String} {latencyMs costUsd : ℚ}
    (hrow : CaseOk env (ticketRow state ticketId latencyMs costUsd))
    (hcalls : Booked env.db state) :
    Satisfies (persist env.db state ticketId latencyMs costUsd) (Kept env) := by
  refine satisfies_bind (additive_kept env) ?_ fun _ => ?_
  · intro tr out h e he w hw
    obtain rfl := exec_insertTicket_iff.mp h
    obtain rfl := List.mem_singleton.mp he
    cases out <;> cases hw
    exact hrow
  · refine satisfies_forM (additive_kept env) fun call hcall => ?_
    obtain ⟨entry, rfl⟩ := hcalls call hcall
    exact kept_persistToolCall (toolCallOk_entry entry ticketId)

private theorem kept_refuse {started : ℚ} {ticketId : String} {request : ResolveRequest env.db}
    {reason : Option String}
    (hscan : detectInjection env.db (redactPii env.db request.ticket) = (true, reason)) :
    Satisfies (refuse env.db started ticketId (redactPii env.db request.ticket) reason)
      (Kept env) := by
  have hadd := additive_kept env
  refine satisfies_bind hadd (kept_perform fun _ _ h => by cases h) fun _ => ?_
  refine satisfies_bind hadd (kept_persist (caseOk_refuse hscan _ _) nofun) fun _ => ?_
  refine satisfies_bind hadd (kept_logSecurityEvent _ _ _) fun _ => ?_
  refine satisfies_bind hadd (kept_perform fun _ _ h => by cases h) fun _ => ?_
  refine satisfies_bind hadd (kept_perform fun _ _ h => by cases h) fun _ => ?_
  exact satisfies_pure hadd _

private theorem kept_recordCase {decision : String} {latencyMs costUsd : ℚ}
    {promptTokens completionTokens : ℤ} {llmCalls : ℕ} :
    Satisfies (recordCase decision latencyMs promptTokens completionTokens costUsd llmCalls)
      (Kept env) := by
  intro tr out h e he w hw
  obtain ⟨tr', rfl, hquiet⟩ := exec_recordCase h
  rcases List.mem_cons.mp he with rfl | he
  · cases hw
  · obtain ⟨metric, -, rfl⟩ := hquiet e he
    cases hw

private theorem kept_finish {started : ℚ} {ticketId : String} {request : ResolveRequest env.db}
    {final : CaseState} (hscan : isInjection env.db (redactPii env.db request.ticket) = false)
    (h : Left env (redactPii env.db request.ticket) final) :
    Satisfies (finish env started ticketId (redactPii env.db request.ticket) final)
      (Kept env) := by
  have hadd := additive_kept env
  have hrow := caseOk_finish hscan h
  have hcalls := h.gated.records
  unfold finish
  generalize outboundGate env.db final = gated at hrow hcalls ⊢
  obtain ⟨final', reply, decision, withheld⟩ := gated
  refine satisfies_bind hadd (kept_perform fun _ _ h => by cases h) fun _ => ?_
  refine satisfies_bind hadd ?_ fun _ => ?_
  · cases withheld with
    | none => exact satisfies_pure hadd _
    | some pattern => exact kept_logSecurityEvent _ _ _
  refine satisfies_bind hadd (kept_perform fun _ _ h => by cases h) fun _ => ?_
  refine satisfies_bind hadd (kept_perform fun _ _ h => by cases h) fun _ => ?_
  refine satisfies_bind hadd (satisfies_ofExcept hadd _) fun usage => ?_
  obtain ⟨promptTokens, completionTokens, source⟩ := usage
  refine satisfies_bind hadd (kept_perform fun _ _ h => by cases h) fun _ => ?_
  intro tr out h
  rcases exec_bind_iff.mp h with ⟨exc, hcost, -⟩ | ⟨costUsd, trc, tr', rfl, hcost, h'⟩
  · obtain ⟨rfl, -⟩ := exec_ofExcept_iff.mp hcost
    exact hadd.nil
  obtain ⟨rfl, hok⟩ := exec_ofExcept_iff.mp hcost
  obtain ⟨-, rfl⟩ := estimateCostOfInts_eq_ok_iff.mp hok.symm
  refine (satisfies_bind hadd (kept_persist (hrow _ _ _ _) hcalls) fun _ => ?_) h'
  exact satisfies_bind hadd kept_recordCase fun _ => satisfies_pure hadd _

private theorem open_initialState (ticketId ticket : String) (orderId : Option String) :
    Open env.db env.settings ticket .classifier (initialState ticketId ticket orderId) where
  ticket := rfl
  records := nofun
  category := fun h => absurd rfl h
  undecided := rfl
  unexplained := rfl
  iterations := le_refl 0
  room := le_max_left _ _

private theorem kept_resolveCase {G : Type} {source : Except Exc G}
    {request : ResolveRequest env.db}
    {tr : List CallEvent} {out : Except Exc ResolveResponse}
    (h : Exec (resolveCase env (invokeOf (fun _ => caseGraph env) source) request) tr out) :
    Kept env (serviceEvents tr) := by
  obtain ⟨started, hex, tr', hservice, hcase⟩ := exec_resolveCase h
  have hhead : Kept env [⟨.perfCounter, started⟩, ⟨.uuidHex, hex⟩] := by
    intro e he w hw
    rcases List.mem_pair.mp he with rfl | rfl <;> cases hw
  have hrest : Kept env tr' := by
    rcases hcase with ⟨reason, hscan, -, hrefuse⟩ | ⟨hscan, gout, hgraph, hfinish⟩
    · exact kept_refuse hscan hrefuse
    · refine kept_finish hscan ?_ hfinish
      have hopen : Open env.db env.settings (redactPii env.db request.ticket) .classifier
          (initialState (ticketIdOf hex) (redactPii env.db request.ticket) request.orderId) :=
        open_initialState _ _ _
      cases source with
      | ok graph => exact left_settled hopen rfl hgraph
      | error exc =>
        obtain ⟨-, rfl⟩ := exec_fail_iff.mp hgraph
        exact left_errorState hopen rfl exc
  rw [hservice]
  exact (additive_kept env).append hhead hrest

end Inserts

section Server

variable {G : Type} {env : Env} {tool : Shop → String → Dict → Except Exc Json}
  {s₀ s : Server G}

/-- Whatever requests a server answers, however their graphs, tools and inserts fail, wherever
they are cut off and however often it is restarted, every row that it stores is well formed. -/
theorem wellFormed_of_reaches (h : Reaches env (fun _ => caseGraph env) tool s₀ s)
    (h₀ : WellFormed env s₀.file.contents) : WellFormed env s.file.contents := by
  induction h with
  | refl => exact h₀
  | @served ι _ s s' request tr pool' _ hinter hworld hfresh ih =>
    obtain ⟨ws, hws, hfile⟩ := served_file hworld
    rw [hfile, DatabaseFile.contents_replay, hws]
    refine ih.replay fun w hw => ?_
    obtain ⟨i, hi⟩ := Resolving.mem_writes.mp hw
    obtain ⟨source, rest, out, hcase, -⟩ := exists_answer hinter i
    obtain ⟨e, he, hwritten⟩ := List.mem_filterMap.mp hi
    refine kept_resolveCase hcase e ?_ w hwritten
    rw [serviceEvents_append]
    exact List.mem_append_left _ he
  | restarted _ ih =>
    rw [contents_start]
    exact ⟨ih.tickets, ih.toolCalls, ih.securityEvents⟩

end Server

theorem wellFormed_of_reaches_serve :
    WellFormed testEnv (serve (.ok ()) [false, true]).2.file.contents :=
  wellFormed_of_reaches reaches_serve ⟨nofun, nofun, nofun⟩

end TicketWarden.Service
