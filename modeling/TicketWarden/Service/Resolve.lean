/- Module: TicketWarden/Service/Resolve
   source: apps/api/src/service.py
   digest: The resolution of one support case around the graph. -/

import TicketWarden.Service.Signature

set_option autoImplicit false
set_option relaxedAutoImplicit false

namespace TicketWarden.Service

open TicketWarden.Graph Effects Guardrails Observability Python Storage

/-- `_new_ticket_id`. -/
def newTicketId : ServiceProgram String := do
  let hex ← perform .uuidHex
  pure ("tkt_" ++ String.ofList (hex.toList.take 12))

/-- `_log_security_event`. -/
def logSecurityEvent (ticketId : String) (eventType : SecurityEventType)
    (detail : Option String) : ServiceProgram Unit := do
  insertSecurityEvent ⟨ticketId, eventType.value, detail⟩
  recordSecurityEvent eventType.value

/-- One round of the loop of `_persist`. -/
def persistToolCall (db : Runtime) (ticketId : String) (call : ToolRecord) :
    ServiceProgram Unit := do
  insertToolCall db ⟨ticketId, call.toolName, call.args.getD [], call.result, call.status⟩
  recordToolCall call.toolName call.status
  if call.status = ToolStatus.blocked.value then
    logSecurityEvent ticketId .toolBlocked (some ("tool=" ++ call.toolName))
  else if call.status = ToolStatus.sanitized.value then
    logSecurityEvent ticketId .toolOutputSanitized (some ("tool=" ++ call.toolName))

/-- The row `_persist` writes for a state. -/
def ticketRow (state : CaseState) (ticketId : String) (latencyMs costUsd : ℚ) : TicketRow where
  id := ticketId
  body := state.ticket
  category := state.category
  decision := state.decision
  reply := state.draft
  escalationReason := state.escalationReason
  iterations := state.iterations
  latencyMs := latencyMs
  costUsd := costUsd

/-- `_persist`. -/
def persist (db : Runtime) (state : CaseState) (ticketId : String) (latencyMs costUsd : ℚ) :
    ServiceProgram Unit := do
  insertTicket (ticketRow state ticketId latencyMs costUsd)
  state.toolCalls.forM (persistToolCall db ticketId)

def refusedState (ticketId redactedTicket escalationReason : String) : CaseState where
  ticketId := ticketId
  ticket := redactedTicket
  orderId := none
  category := none
  facts := []
  draft := none
  reviewFeedback := none
  decision := some Decision.refuse.value
  escalationReason := some escalationReason
  iterations := 0
  toolCalls := []

def refusalReason (reason : Option String) : String :=
  "Refused: prompt-injection signal detected (" ++ reason.getD "None" ++ ")"

/-- The branch of `resolve_case` for a ticket the scan refuses. -/
def refuse (db : Runtime) (started : ℚ) (ticketId redactedTicket : String)
    (reason : Option String) : ServiceProgram ResolveResponse := do
  let latencyMs := ((← perform .perfCounter) - started) * 1000
  let escalationReason := refusalReason reason
  persist db (refusedState ticketId redactedTicket escalationReason) ticketId latencyMs 0
  logSecurityEvent ticketId .injectionRefused reason
  recordDecision Decision.refuse.value
  recordLatency (latencyMs / 1000)
  pure {
    ticketId := ticketId
    decision := Decision.refuse.value
    reply := none
    category := none
    escalationReason := some escalationReason
    iterations := 0
    toolCalls := []
    langsmithTraceUrl := none
    latencyMs := round latencyMs 2
    costUsd := 0 }

def initialState (ticketId redactedTicket : String) (orderId : Option String) : CaseState where
  ticketId := ticketId
  ticket := redactedTicket
  orderId := orderId
  category := none
  facts := []
  draft := none
  reviewFeedback := none
  decision := none
  escalationReason := none
  iterations := 0
  toolCalls := []

def errorState (initial : CaseState) (exc : Exc) : CaseState :=
  { initial with
    decision := some Decision.escalate.value
    escalationReason := some ("Graph execution error: " ++ exc.message) }

/-- What `resolve_case` holds after its outbound gate: the state, its own copies of the reply
and of the decision, and the leak pattern for which the reply was withheld, if it was. -/
structure Gated where
  final : CaseState
  reply : Option String
  decision : String
  withheld : Option String

/-- `redact_pii(draft) if draft else None`. -/
def outboundReply (db : Runtime) : Option String → Option String
  | none => none
  | some text => if text = "" then none else some (redactPii db text)

def outboundGate (db : Runtime) (final : CaseState) : Gated :=
  let reply := outboundReply db final.draft
  let final := { final with draft := reply }
  let decision := strOr final.decision Decision.escalate.value
  let (isLeak, leakPattern) := detectPromptLeak db reply
  if isLeak && decision == Decision.resolved.value then
    let pattern := leakPattern.getD "None"
    let decision := Decision.escalate.value
    { final := { final with
        escalationReason := some ("Outbound guardrail matched a leak signal: " ++ pattern)
        draft := none
        decision := some decision }
      reply := none
      decision := decision
      withheld := some pattern }
  else
    { final := { final with decision := some decision }
      reply := reply
      decision := decision
      withheld := none }

/-- The `result` of a `ToolCallRecord`: of the types it may have, a boolean fits only a number. -/
def recordResult : Json → Json
  | .bool b => .int (if b then 1 else 0)
  | result => result

/-- `ToolCallRecord(...)`. -/
def toolCallRecord (call : ToolRecord) : ToolCallRecord where
  toolName := call.toolName
  args := call.args.getD []
  result := recordResult call.result
  status := call.status

def tokenUsage (env : Env) (collector : UsageCollector) (redactedTicket : String)
    (reply : Option String) : Except Exc (ℤ × ℤ × String) := do
  if collector.hasUsage then
    pure (collector.promptTokens, collector.completionTokens, "provider")
  else
    let promptTokens ← countTokens env.db env.encodingFor redactedTicket env.settings.llmModel
    let completionTokens ←
      countTokens env.db env.encodingFor (reply.getD "") env.settings.llmModel
    pure (promptTokens, completionTokens, "estimated")

def logWithheld (ticketId : String) : Option String → ServiceProgram Unit
  | none => pure ()
  | some pattern => logSecurityEvent ticketId .outboundLeakBlocked (some pattern)

def recordCase (decision : String) (latencyMs : ℚ) (promptTokens completionTokens : ℤ)
    (costUsd : ℚ) (llmCalls : ℕ) : ServiceProgram Unit := do
  recordDecision decision
  recordLatency (latencyMs / 1000)
  recordTokens promptTokens completionTokens
  recordCost costUsd
  recordLlmCalls llmCalls

/-- The rest of `resolve_case` after the graph has returned or raised. -/
def finish (env : Env) (started : ℚ) (ticketId redactedTicket : String) (final : CaseState) :
    ServiceProgram ResolveResponse := do
  let traceUrl ← perform .traceUrl
  let { final, reply, decision, withheld } := outboundGate env.db final
  logWithheld ticketId withheld
  let latencyMs := ((← perform .perfCounter) - started) * 1000
  let collector ← perform .usage
  let (promptTokens, completionTokens, source) ←
    .ofExcept (tokenUsage env collector redactedTicket reply)
  recordTokenSource source
  let costUsd ← .ofExcept (estimateCostOfInts promptTokens completionTokens
    env.settings.llmModel env.settings.llmProvider)
  persist env.db final ticketId (round latencyMs 2) costUsd
  recordCase decision latencyMs promptTokens completionTokens costUsd collector.llmCalls
  pure {
    ticketId := ticketId
    decision := decision
    reply := reply
    category := final.category
    escalationReason := final.escalationReason
    iterations := final.iterations
    toolCalls := final.toolCalls.map toolCallRecord
    langsmithTraceUrl := traceUrl
    latencyMs := round latencyMs 2
    costUsd := costUsd }

/-- `resolve_case`, for a graph object given by its `invoke`. -/
def resolveCase (env : Env) (graph : CaseState → GraphProgram CaseState)
    (request : ResolveRequest env.db) : CallProgram ResolveResponse := do
  let started ← (perform .perfCounter).inr
  let ticketId ← newTicketId.inr
  let redactedTicket := redactPii env.db request.ticket
  let (isInj, reason) := detectInjection env.db redactedTicket
  if isInj then
    (refuse env.db started ticketId redactedTicket reason).inr
  else
    let initial := initialState ticketId redactedTicket request.orderId
    -- every exception of the graph degrades to ESCALATE on the state it was invoked with
    let final ← (graph initial).inl.tryCatch fun exc => pure (errorState initial exc)
    (finish env started ticketId redactedTicket final).inr

abbrev caseGraph (env : Env) : CaseState → GraphProgram CaseState :=
  compileGraph env.db env.settings env.recursionLimit

end TicketWarden.Service
