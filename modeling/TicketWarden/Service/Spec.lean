/- Module: TicketWarden/Service/Spec
   source: apps/api/src/service.py, apps/api/src/storage/repo.py
   digest: What each part of the service writes and records, and what a call that returns
   has done. -/

import TicketWarden.Service.Resolve
import TicketWarden.Storage.Replay

set_option autoImplicit false
set_option relaxedAutoImplicit false

namespace TicketWarden.Service

open TicketWarden.Graph Effects Guardrails Observability Python Storage

abbrev ServiceEvent := Event serviceSig

def written? : ServiceEvent → Option Write
  | ⟨.insertTicket row, .ok _⟩ => some (.ticket row)
  | ⟨.insertToolCall row, .ok _⟩ => some (.toolCall row)
  | ⟨.insertSecurityEvent row, .ok _⟩ => some (.securityEvent row)
  | _ => none

def recorded? : ServiceEvent → Option Metric
  | ⟨.record metric, _⟩ => some metric
  | _ => none

theorem exec_insertTicket_iff {row : TicketRow} {tr : List ServiceEvent} {out : Except Exc Unit} :
    Exec (insertTicket row) tr out ↔ tr = [⟨.insertTicket row, out⟩] :=
  exec_answer_iff.trans exists_eq_right'

/-- Arguments and a result that `insert_tool_call` can write as JSON. -/
def Storable (db : Runtime) (args : Dict) (result : Json) : Prop :=
  Serializable db (.dict args) ∧ Serializable db result

instance (db : Runtime) (args : Dict) (result : Json) : Decidable (Storable db args result) :=
  inferInstanceAs (Decidable (_ ∧ _))

theorem exec_insertToolCall {db : Runtime} {row : ToolCallRow} {tr : List ServiceEvent}
    {out : Except Exc Unit} (h : Exec (insertToolCall db row) tr out) :
    (¬ Storable db row.args row.result ∧ tr = [] ∧ ∃ exc, out = .error exc) ∨
      (Storable db row.args row.result ∧ tr = [⟨.insertToolCall row, out⟩]) := by
  have hfail : ∀ {value : Json} {exc : Exc}, dumps db value = .error exc →
      ¬ Serializable db value := fun hexc hok => by
    rw [(dumps_ok_iff db).mpr hok] at hexc
    cases hexc
  unfold insertToolCall at h
  cases hargs : dumps db (.dict row.args) with
  | error exc =>
    rw [hargs] at h
    obtain ⟨rfl, rfl⟩ := exec_fail_iff.mp h
    exact .inl ⟨fun hrow => hfail hargs hrow.1, rfl, exc, rfl⟩
  | ok u =>
    cases hresult : dumps db row.result with
    | error exc =>
      rw [hargs, hresult] at h
      obtain ⟨rfl, rfl⟩ := exec_fail_iff.mp h
      exact .inl ⟨fun hrow => hfail hresult hrow.2, rfl, exc, rfl⟩
    | ok u' =>
      rw [hargs, hresult] at h
      exact .inr ⟨⟨(dumps_ok_iff db).mp hargs, (dumps_ok_iff db).mp hresult⟩,
        (exec_answer_iff.trans exists_eq_right').mp h⟩

theorem exec_insertToolCall_ok {db : Runtime} {row : ToolCallRow} {tr : List ServiceEvent}
    {u : Unit} (h : Exec (insertToolCall db row) tr (.ok u)) :
    tr = [⟨.insertToolCall row, .ok u⟩] := by
  rcases exec_insertToolCall h with ⟨-, -, exc, hout⟩ | ⟨-, htr⟩
  · cases hout
  · exact htr

theorem exec_insertSecurityEvent_iff {row : SecurityEventRow} {tr : List ServiceEvent}
    {out : Except Exc Unit} :
    Exec (insertSecurityEvent row) tr out ↔ tr = [⟨.insertSecurityEvent row, out⟩] :=
  exec_answer_iff.trans exists_eq_right'

theorem exec_record_iff {metric : Metric} {tr : List ServiceEvent} {out : Except Exc Unit} :
    Exec (record metric) tr out ↔ tr = [⟨.record metric, ()⟩] ∧ out = .ok () := by
  refine exec_perform_iff.trans ?_
  constructor
  · rintro ⟨⟨⟩, rfl, rfl⟩
    exact ⟨rfl, rfl⟩
  · rintro ⟨rfl, rfl⟩
    exact ⟨(), rfl, rfl⟩

def Metric.Unaudited : Metric → Prop
  | .cases _ | .toolCalls _ _ | .securityEvents _ => False
  | _ => True

/-- Events that only record such metrics. -/
def Quiet (tr : List ServiceEvent) : Prop :=
  ∀ e ∈ tr, ∃ metric : Metric, metric.Unaudited ∧ e = ⟨.record metric, ()⟩

private theorem additive_quiet : Additive Quiet := additive_forall _

private theorem satisfies_record {metric : Metric} (h : metric.Unaudited) :
    Satisfies (record metric) Quiet := by
  intro tr out hx e he
  obtain ⟨rfl, -⟩ := exec_record_iff.mp hx
  exact ⟨metric, h, List.mem_singleton.mp he⟩

private theorem satisfies_recordAmount {α : Type} [LinearOrder α] [Zero α] (amount : α)
    {metric : Metric}
    (h : metric.Unaudited) : Satisfies (recordAmount amount metric) Quiet := by
  unfold recordAmount
  split
  · exact satisfies_pure additive_quiet ()
  · split
    · exact satisfies_ofExcept additive_quiet (.error negativeAmount)
    · exact satisfies_record h

theorem satisfies_recordLatency (seconds : ℚ) : Satisfies (recordLatency seconds) Quiet :=
  satisfies_record trivial

theorem satisfies_recordTokenSource (source : String) :
    Satisfies (recordTokenSource source) Quiet :=
  satisfies_record trivial

private theorem satisfies_recordTokens (prompt completion : ℤ) :
    Satisfies (recordTokens prompt completion) Quiet :=
  satisfies_bind additive_quiet (satisfies_recordAmount _ trivial) fun _ =>
    satisfies_recordAmount _ trivial

theorem exec_recordCase {decision : String} {latencyMs costUsd : ℚ}
    {promptTokens completionTokens : ℤ} {llmCalls : ℕ} {tr : List ServiceEvent}
    {out : Except Exc Unit}
    (h : Exec (recordCase decision latencyMs promptTokens completionTokens costUsd llmCalls)
      tr out) :
    ∃ tr', tr = ⟨.record (.cases decision), ()⟩ :: tr' ∧ Quiet tr' := by
  rcases exec_bind_iff.mp h with ⟨exc, hcases, -⟩ | ⟨_, tr₁, tr', rfl, hcases, hrest⟩
  · obtain ⟨-, hout⟩ := exec_record_iff.mp hcases
    cases hout
  obtain ⟨rfl, -⟩ := exec_record_iff.mp hcases
  have hquiet : Satisfies (do
      recordLatency (latencyMs / 1000)
      recordTokens promptTokens completionTokens
      recordCost costUsd
      recordLlmCalls llmCalls) Quiet :=
    satisfies_bind additive_quiet (satisfies_recordLatency _) fun _ =>
      satisfies_bind additive_quiet (satisfies_recordTokens _ _) fun _ =>
        satisfies_bind additive_quiet (satisfies_recordAmount _ trivial) fun _ =>
          satisfies_recordAmount _ trivial
  exact ⟨tr', rfl, hquiet hrest⟩

theorem Quiet.writes {tr : List ServiceEvent} (h : Quiet tr) : tr.filterMap written? = [] := by
  refine List.filterMap_eq_nil_iff.mpr fun e he => ?_
  obtain ⟨metric, -, rfl⟩ := h e he
  rfl

private theorem exec_logSecurityEvent_ok {ticketId : String} {eventType : SecurityEventType}
    {detail : Option String} {tr : List ServiceEvent} {u : Unit}
    (h : Exec (logSecurityEvent ticketId eventType detail) tr (.ok u)) :
    tr = [⟨.insertSecurityEvent ⟨ticketId, eventType.value, detail⟩, .ok ()⟩,
      ⟨.record (.securityEvents eventType.value), ()⟩] := by
  obtain ⟨_, tr₁, tr₂, rfl, hinsert, hrecord⟩ := exec_bind_ok_iff.mp h
  obtain rfl := exec_insertSecurityEvent_iff.mp hinsert
  obtain ⟨rfl, -⟩ := exec_record_iff.mp hrecord
  rfl

def toolCallRow (ticketId : String) (call : ToolRecord) : ToolCallRow :=
  ⟨ticketId, call.toolName, call.args.getD [], call.result, call.status⟩

def statusEvents (ticketId toolName status : String) : List SecurityEventRow :=
  if status = ToolStatus.blocked.value then
    [⟨ticketId, SecurityEventType.toolBlocked.value, some ("tool=" ++ toolName)⟩]
  else if status = ToolStatus.sanitized.value then
    [⟨ticketId, SecurityEventType.toolOutputSanitized.value, some ("tool=" ++ toolName)⟩]
  else []

def toolCallEvents (ticketId : String) (call : ToolRecord) : List SecurityEventRow :=
  statusEvents ticketId call.toolName call.status

def toolCallWrites (ticketId : String) (call : ToolRecord) : List Write :=
  .toolCall (toolCallRow ticketId call) :: (toolCallEvents ticketId call).map .securityEvent

private theorem exec_persistToolCall_ok {db : Runtime} {ticketId : String} {call : ToolRecord}
    {tr : List ServiceEvent} {u : Unit}
    (h : Exec (persistToolCall db ticketId call) tr (.ok u)) :
    tr.filterMap written? = toolCallWrites ticketId call := by
  obtain ⟨_, tr₁, tr₂, rfl, hinsert, hrest⟩ := exec_bind_ok_iff.mp h
  obtain rfl := exec_insertToolCall_ok hinsert
  obtain ⟨_, tr₁, tr₂, rfl, hrecord, hevent⟩ := exec_bind_ok_iff.mp hrest
  obtain ⟨rfl, -⟩ := exec_record_iff.mp hrecord
  by_cases hblocked : call.status = ToolStatus.blocked.value
  · rw [if_pos hblocked] at hevent
    obtain rfl := exec_logSecurityEvent_ok hevent
    rw [toolCallWrites, toolCallEvents, statusEvents, if_pos hblocked]
    rfl
  · rw [if_neg hblocked] at hevent
    by_cases hsanitized : call.status = ToolStatus.sanitized.value
    · rw [if_pos hsanitized] at hevent
      obtain rfl := exec_logSecurityEvent_ok hevent
      rw [toolCallWrites, toolCallEvents, statusEvents, if_neg hblocked, if_pos hsanitized]
      rfl
    · rw [if_neg hsanitized] at hevent
      obtain ⟨rfl, -⟩ := exec_pure_iff.mp hevent
      rw [toolCallWrites, toolCallEvents, statusEvents, if_neg hblocked, if_neg hsanitized]
      rfl

def persistWrites (state : CaseState) (ticketId : String) (latencyMs costUsd : ℚ) :
    List Write :=
  .ticket (ticketRow state ticketId latencyMs costUsd) ::
    state.toolCalls.flatMap (toolCallWrites ticketId)

private theorem exec_persist_ok {db : Runtime} {state : CaseState} {ticketId : String}
    {latencyMs costUsd : ℚ}
    {tr : List ServiceEvent} {u : Unit}
    (h : Exec (persist db state ticketId latencyMs costUsd) tr (.ok u)) :
    tr.filterMap written? = persistWrites state ticketId latencyMs costUsd := by
  obtain ⟨_, tr₁, tr₂, rfl, hinsert, hcalls⟩ := exec_bind_ok_iff.mp h
  obtain rfl := exec_insertTicket_iff.mp hinsert
  have hwrites := exec_forM_ok (fun _ _ => exec_persistToolCall_ok) hcalls
  rw [List.filterMap_append, hwrites]
  rfl

def withheldEvents (ticketId : String) : Option String → List SecurityEventRow
  | none => []
  | some pattern =>
    [⟨ticketId, SecurityEventType.outboundLeakBlocked.value, some pattern⟩]

private theorem exec_logWithheld_ok {ticketId : String} {withheld : Option String}
    {tr : List ServiceEvent} {u : Unit}
    (h : Exec (logWithheld ticketId withheld) tr (.ok u)) :
    tr.filterMap written? = (withheldEvents ticketId withheld).map .securityEvent := by
  cases withheld with
  | none =>
    obtain ⟨rfl, -⟩ := exec_pure_iff.mp h
    rfl
  | some pattern =>
    obtain rfl := exec_logSecurityEvent_ok h
    rfl

theorem exec_refuse_ok {db : Runtime} {started : ℚ} {ticketId redactedTicket : String}
    {reason : Option String} {tr : List ServiceEvent} {resp : ResolveResponse}
    (h : Exec (refuse db started ticketId redactedTicket reason) tr (.ok resp)) :
    ∃ latencyMs,
      tr.filterMap written? =
        persistWrites (refusedState ticketId redactedTicket (refusalReason reason)) ticketId
          latencyMs 0 ++
        [.securityEvent ⟨ticketId, SecurityEventType.injectionRefused.value, reason⟩] ∧
      resp = ⟨ticketId, Decision.refuse.value, none, none, some (refusalReason reason), 0, [],
        none, round latencyMs 2, 0⟩ := by
  obtain ⟨now, tr₁, rfl, h₁⟩ := exec_perform_bind_iff.mp h
  obtain ⟨_, trp, tr₂, rfl, hpersist, h₂⟩ := exec_bind_ok_iff.mp h₁
  obtain ⟨_, tre, tr₃, rfl, hevent, h₃⟩ := exec_bind_ok_iff.mp h₂
  obtain ⟨_, trd, tr₄, rfl, hdecision, h₄⟩ := exec_bind_ok_iff.mp h₃
  obtain ⟨_, trl, tr₅, rfl, hlatency, h₅⟩ := exec_bind_ok_iff.mp h₄
  obtain ⟨rfl, hresp⟩ := exec_pure_iff.mp h₅
  obtain rfl := exec_logSecurityEvent_ok hevent
  obtain ⟨rfl, -⟩ := exec_record_iff.mp hdecision
  obtain ⟨rfl, -⟩ := exec_record_iff.mp hlatency
  refine ⟨(now - started) * 1000, ?_, Except.ok.inj hresp⟩
  rw [List.filterMap_cons, List.filterMap_append, exec_persist_ok hpersist]
  rfl

theorem exec_finish_ok {env : Env} {started : ℚ} {ticketId redactedTicket : String}
    {final : CaseState} {tr : List ServiceEvent} {resp : ResolveResponse}
    (h : Exec (finish env started ticketId redactedTicket final) tr (.ok resp)) :
    ∃ latencyMs costUsd traceUrl, 
      let gated := outboundGate env.db final
      tr.filterMap written? =
        (withheldEvents ticketId gated.withheld).map .securityEvent ++
          persistWrites gated.final ticketId (round latencyMs 2) costUsd ∧
      resp = ⟨ticketId, gated.decision, gated.reply, gated.final.category,
        gated.final.escalationReason, gated.final.iterations,
        gated.final.toolCalls.map toolCallRecord, traceUrl, round latencyMs 2, costUsd⟩ := by
  obtain ⟨traceUrl, tr₁, rfl, h₁⟩ := exec_perform_bind_iff.mp h
  rcases hgated : outboundGate env.db final with ⟨final', reply, decision, withheld⟩
  rw [hgated] at h₁
  obtain ⟨_, trw, tr₂, rfl, hwithheld, h₂⟩ := exec_bind_ok_iff.mp h₁
  obtain ⟨now, tr₃, rfl, h₃⟩ := exec_perform_bind_iff.mp h₂
  obtain ⟨collector, tr₄, rfl, h₄⟩ := exec_perform_bind_iff.mp h₃
  obtain ⟨⟨promptTokens, completionTokens, source⟩, tru, tr₅, rfl, husage, h₅⟩ :=
    exec_bind_ok_iff.mp h₄
  obtain ⟨rfl, -⟩ := exec_ofExcept_iff.mp husage
  obtain ⟨_, trs, tr₆, rfl, hsource, h₆⟩ := exec_bind_ok_iff.mp h₅
  obtain ⟨rfl, -⟩ := exec_record_iff.mp hsource
  obtain ⟨costUsd, trk, tr₇, rfl, hprice, h₇⟩ := exec_bind_ok_iff.mp h₆
  obtain ⟨rfl, -⟩ := exec_ofExcept_iff.mp hprice
  obtain ⟨_, trp, tr₈, rfl, hpersist, h₈⟩ := exec_bind_ok_iff.mp h₇
  obtain ⟨_, trc, tr₉, rfl, hcase, h₉⟩ := exec_bind_ok_iff.mp h₈
  obtain ⟨rfl, hresp⟩ := exec_pure_iff.mp h₉
  obtain ⟨trq, rfl, hquiet⟩ := exec_recordCase hcase
  refine ⟨(now - started) * 1000, _, traceUrl, ?_, Except.ok.inj hresp⟩
  simp only [List.filterMap_cons, List.filterMap_append, written?, exec_logWithheld_ok hwithheld,
    exec_persist_ok hpersist, hquiet.writes, List.filterMap_nil, List.append_nil,
    List.nil_append]

def leaks (db : Runtime) (text : String) : Bool := (detectPromptLeak db (some text)).1

section Gate

variable {db : Runtime} {final : CaseState}

theorem outboundGate_agrees (db : Runtime) (final : CaseState) :
    (outboundGate db final).final.draft = (outboundGate db final).reply ∧
      (outboundGate db final).final.decision = some (outboundGate db final).decision := by
  unfold outboundGate
  dsimp only
  split <;> exact ⟨rfl, rfl⟩

theorem outboundGate_frame (db : Runtime) (final : CaseState) :
    (outboundGate db final).final.ticket = final.ticket ∧
      (outboundGate db final).final.category = final.category ∧
      (outboundGate db final).final.iterations = final.iterations ∧
      (outboundGate db final).final.toolCalls = final.toolCalls := by
  unfold outboundGate
  dsimp only
  split <;> exact ⟨rfl, rfl, rfl, rfl⟩

theorem outboundGate_of_escalated (h : final.decision = some Decision.escalate.value) :
    outboundGate db final =
      { final := { final with draft := outboundReply db final.draft }
        reply := outboundReply db final.draft
        decision := Decision.escalate.value
        withheld := none } := by
  have hdecision : strOr final.decision Decision.escalate.value = Decision.escalate.value := by
    rw [h]
    rfl
  have hne : (Decision.escalate.value == Decision.resolved.value) = false := rfl
  simp only [outboundGate, hdecision, hne, Bool.and_false, Bool.false_eq_true, if_false, ← h]

theorem outboundGate_of_resolved (h : final.decision = some Decision.resolved.value) :
    (∃ pattern, outboundGate db final =
      { final := { final with
          escalationReason := some ("Outbound guardrail matched a leak signal: " ++ pattern)
          draft := none
          decision := some Decision.escalate.value }
        reply := none
        decision := Decision.escalate.value
        withheld := some pattern }) ∨
    ((∀ text, outboundReply db final.draft = some text → leaks db text = false) ∧
      outboundGate db final =
        { final := { final with draft := outboundReply db final.draft }
          reply := outboundReply db final.draft
          decision := Decision.resolved.value
          withheld := none }) := by
  have hdecision : strOr final.decision Decision.escalate.value = Decision.resolved.value := by
    rw [h]
    rfl
  rcases hleak : detectPromptLeak db (outboundReply db final.draft) with ⟨isLeak, pattern⟩
  cases isLeak with
  | true =>
    refine .inl ⟨pattern.getD "None", ?_⟩
    simp only [outboundGate, hdecision, hleak, beq_self_eq_true, Bool.and_self, if_true]
  | false =>
    refine .inr ⟨fun text htext => ?_, ?_⟩
    · rw [leaks, ← htext, hleak]
    · simp only [outboundGate, hdecision, hleak, Bool.false_and, Bool.false_eq_true, if_false,
        ← h]

/-- The gate withholds the reply of a resolved case that leaks, and no other. -/
theorem outboundGate_withheld_iff :
    (outboundGate db final).withheld.isSome ↔ final.decision = some Decision.resolved.value ∧
      ∃ text, outboundReply db final.draft = some text ∧ leaks db text = true := by
  have hdecision : strOr final.decision Decision.escalate.value = Decision.resolved.value ↔
      final.decision = some Decision.resolved.value := by
    cases hd : final.decision with
    | none => simp [strOr, Decision.value]
    | some d =>
      by_cases hempty : d = ""
      · simp [strOr, hempty, Decision.value]
      · simp [strOr, hempty]
  have hleak : (detectPromptLeak db (outboundReply db final.draft)).1 = true ↔
      ∃ text, outboundReply db final.draft = some text ∧ leaks db text = true := by
    cases outboundReply db final.draft with
    | none => simp [detectPromptLeak]
    | some text => simp [leaks]
  rw [← hdecision, ← hleak]
  unfold outboundGate
  dsimp only
  split
  · rename_i hcond
    obtain ⟨hflag, hres⟩ := Bool.and_eq_true_iff.mp hcond
    exact iff_of_true rfl ⟨eq_of_beq hres, hflag⟩
  · rename_i hcond
    apply iff_of_false (by simp)
    rintro ⟨hres, hflag⟩
    apply hcond
    rw [hres, hflag, beq_self_eq_true, Bool.and_self]

end Gate

def graphEvents (tr : List CallEvent) : List GraphEvent := tr.filterMap Event.left?

def serviceEvents (tr : List CallEvent) : List ServiceEvent := tr.filterMap Event.right?

def writes (tr : List CallEvent) : List Write := (serviceEvents tr).filterMap written?

def ticketIdOf (hex : String) : String := "tkt_" ++ String.ofList (hex.toList.take 12)

def settled (initial : CaseState) : Except Exc CaseState → CaseState
  | .ok final => final
  | .error exc => errorState initial exc

theorem exec_newTicketId_iff {tr : List ServiceEvent} {out : Except Exc String} :
    Exec newTicketId tr out ↔ ∃ hex, tr = [⟨.uuidHex, hex⟩] ∧ out = .ok (ticketIdOf hex) := by
  constructor
  · intro h
    obtain ⟨hex, tr', rfl, h'⟩ := exec_perform_bind_iff.mp h
    obtain ⟨rfl, rfl⟩ := exec_pure_iff.mp h'
    exact ⟨hex, rfl, rfl⟩
  · rintro ⟨hex, rfl, rfl⟩
    exact exec_perform_bind_iff.mpr ⟨hex, [], rfl, exec_pure_iff.mpr ⟨rfl, rfl⟩⟩

private theorem exec_guarded_iff {graph : CaseState → GraphProgram CaseState} {initial : CaseState}
    {tr : List CallEvent} {out : Except Exc CaseState} :
    Exec ((graph initial).inl.tryCatch fun exc => pure (errorState initial exc)) tr out ↔
      ∃ gtr gout, tr = gtr.map Event.inl ∧ Exec (graph initial) gtr gout ∧
        out = .ok (settled initial gout) := by
  simp only [exec_tryCatch_iff, exec_inl_iff, exec_pure_iff]
  constructor
  · rintro (⟨final, ⟨gtr, rfl, hgraph⟩, rfl⟩ | ⟨exc, tr₁, tr₂, rfl, ⟨gtr, rfl, hgraph⟩, rfl, rfl⟩)
    · exact ⟨gtr, .ok final, rfl, hgraph, rfl⟩
    · exact ⟨gtr, .error exc, by simp, hgraph, rfl⟩
  · rintro ⟨gtr, gout, rfl, hgraph, rfl⟩
    cases gout with
    | ok final => exact .inl ⟨final, ⟨gtr, rfl, hgraph⟩, rfl⟩
    | error exc => exact .inr ⟨exc, _, [], by simp, ⟨gtr, rfl, hgraph⟩, rfl, rfl⟩

/-- A call refuses the ticket without the graph, or runs the graph and finishes the case. -/
theorem exec_resolveCase {env : Env} {graph : CaseState → GraphProgram CaseState}
    {request : ResolveRequest env.db} {tr : List CallEvent} {out : Except Exc ResolveResponse}
    (h : Exec (resolveCase env graph request) tr out) :
    ∃ started hex tr',
      serviceEvents tr = ⟨.perfCounter, started⟩ :: ⟨.uuidHex, hex⟩ :: tr' ∧
      ((∃ reason, detectInjection env.db (redactPii env.db request.ticket) = (true, reason) ∧
          graphEvents tr = [] ∧
          Exec (refuse env.db started (ticketIdOf hex) (redactPii env.db request.ticket) reason) tr'
            out) ∨
        (isInjection env.db (redactPii env.db request.ticket) = false ∧
          ∃ gout, 
            let initial := initialState (ticketIdOf hex) (redactPii env.db request.ticket)
              request.orderId
            Exec (graph initial) (graphEvents tr) gout ∧
            Exec (finish env started (ticketIdOf hex) (redactPii env.db request.ticket)
              (settled initial gout)) tr' out)) := by
  rcases exec_bind_iff.mp h with ⟨exc, hstart, -⟩ | ⟨started, trs, trr, rfl, hstart, h₁⟩
  · obtain ⟨_, rfl, hs⟩ := exec_inr_iff.mp hstart
    obtain ⟨_, -, hout⟩ := exec_perform_iff.mp hs
    cases hout
  obtain ⟨_, rfl, hs⟩ := exec_inr_iff.mp hstart
  obtain ⟨_, rfl, hout⟩ := exec_perform_iff.mp hs
  cases hout
  rcases exec_bind_iff.mp h₁ with ⟨exc, hid, -⟩ | ⟨ticketId, tri, trb, rfl, hid, h₂⟩
  · obtain ⟨_, rfl, hi⟩ := exec_inr_iff.mp hid
    obtain ⟨_, -, hout⟩ := exec_newTicketId_iff.mp hi
    cases hout
  obtain ⟨_, rfl, hi⟩ := exec_inr_iff.mp hid
  obtain ⟨hex, rfl, hout⟩ := exec_newTicketId_iff.mp hi
  cases hout
  rcases hscan : detectInjection env.db (redactPii env.db request.ticket) with ⟨isInj, reason⟩
  simp only [hscan] at h₂
  cases isInj with
  | true =>
    obtain ⟨tr', rfl, hrefuse⟩ := exec_inr_iff.mp h₂
    refine ⟨started, hex, tr', ?_, .inl ⟨reason, rfl, ?_, hrefuse⟩⟩
    · simp only [serviceEvents, List.filterMap_append, filterMap_right_inr]
      rfl
    · simp only [graphEvents, List.filterMap_append, filterMap_left_inr, List.append_nil]
  | false =>
    rcases exec_bind_iff.mp h₂ with ⟨exc, hgraph, -⟩ | ⟨final, trg, trf, rfl, hgraph, h₃⟩
    · obtain ⟨_, _, -, -, hout⟩ := exec_guarded_iff.mp hgraph
      cases hout
    obtain ⟨gtr, gout, rfl, hgraph', hout⟩ := exec_guarded_iff.mp hgraph
    cases hout
    obtain ⟨tr', rfl, hfinish⟩ := exec_inr_iff.mp h₃
    refine ⟨started, hex, tr', ?_, .inr ⟨by rw [isInjection, hscan], gout, ?_, hfinish⟩⟩
    · simp only [serviceEvents, List.filterMap_append, filterMap_right_inr,
        filterMap_right_inl, List.nil_append]
      rfl
    · simpa only [graphEvents, List.filterMap_append, filterMap_left_inr, filterMap_left_inl,
        List.nil_append, List.append_nil] using hgraph'

/-- The calls that return: what the graph did in them, what they wrote and what they
returned. -/
inductive Returned (env : Env) (graph : CaseState → GraphProgram CaseState)
    (request : ResolveRequest env.db) (tr : List CallEvent) (resp : ResolveResponse) : Prop
  | refused (ticketId : String) (reason : Option String) (latencyMs : ℚ) :
      detectInjection env.db (redactPii env.db request.ticket) = (true, reason) →
      graphEvents tr = [] →
      writes tr =
        persistWrites (refusedState ticketId (redactPii env.db request.ticket)
          (refusalReason reason)) ticketId latencyMs 0 ++
        [.securityEvent ⟨ticketId, SecurityEventType.injectionRefused.value, reason⟩] →
      resp = ⟨ticketId, Decision.refuse.value, none, none, some (refusalReason reason), 0, [],
        none, round latencyMs 2, 0⟩ →
      Returned env graph request tr resp
  | settled (ticketId : String) (gout : Except Exc CaseState) (gated : Gated)
      (latencyMs costUsd : ℚ) (traceUrl : Option String) :
      isInjection env.db (redactPii env.db request.ticket) = false →
      Exec (graph (initialState ticketId (redactPii env.db request.ticket) request.orderId))
        (graphEvents tr) gout →
      gated = outboundGate env.db (settled
        (initialState ticketId (redactPii env.db request.ticket) request.orderId) gout) →
      writes tr =
        (withheldEvents ticketId gated.withheld).map .securityEvent ++
          persistWrites gated.final ticketId latencyMs costUsd →
      resp = ⟨ticketId, gated.decision, gated.reply, gated.final.category,
        gated.final.escalationReason, gated.final.iterations,
        gated.final.toolCalls.map toolCallRecord, traceUrl, latencyMs, costUsd⟩ →
      Returned env graph request tr resp

/-- Every call that returns is one of these. -/
theorem returned_of_exec {env : Env} {graph : CaseState → GraphProgram CaseState}
    {request : ResolveRequest env.db} {tr : List CallEvent} {resp : ResolveResponse}
    (h : Exec (resolveCase env graph request) tr (.ok resp)) :
    Returned env graph request tr resp := by
  obtain ⟨started, hex, tr', hservice, hcase⟩ := exec_resolveCase h
  have hwrites : writes tr = tr'.filterMap written? := by
    rw [writes, hservice]
    rfl
  rcases hcase with ⟨reason, hscan, hgraph, hrefuse⟩ | ⟨hscan, gout, hgraph, hfinish⟩
  · obtain ⟨latencyMs, hrows, hresp⟩ := exec_refuse_ok hrefuse
    exact .refused _ reason latencyMs hscan hgraph (hwrites.trans hrows) hresp
  · obtain ⟨latencyMs, costUsd, traceUrl, hrows, hresp⟩ := exec_finish_ok hfinish
    exact .settled _ gout _ _ costUsd traceUrl hscan hgraph rfl (hwrites.trans hrows) hresp

end TicketWarden.Service
