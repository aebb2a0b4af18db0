/- Module: TicketWarden/Service/Signature
   source: apps/api/src/schemas.py, apps/api/src/observability/metrics.py,
   apps/api/src/storage/repo.py
   digest: Requests and responses, and the operations of the service: the clock, the
   database, the counters, the token usage and the trace URL. -/

import TicketWarden.Graph.Build
import TicketWarden.Observability.Costing
import TicketWarden.Python.Dumps
import TicketWarden.Storage.Repo

set_option autoImplicit false
set_option relaxedAutoImplicit false

namespace TicketWarden.Service

open TicketWarden.Graph Effects Observability Python Storage

/-- What a run of the service depends on and does not change. -/
structure Env where
  db : Runtime
  settings : Settings
  recursionLimit : ℕ
  encodingFor : EncodingFor

/-- `ResolveRequest`: the requests that pass its validation. -/
structure ResolveRequest (db : Runtime) where
  ticket : String
  orderId : Option String
  ticket_length : ticket.length ≤ 8000
  ticket_not_blank : ∃ c ∈ ticket.toList, db.isSpace c = false
  orderId_length : ∀ s ∈ orderId, s.length ≤ 64

structure ToolCallRecord where
  toolName : String
  args : Dict
  result : Json
  status : String

structure ResolveResponse where
  ticketId : String
  decision : String
  reply : Option String
  category : Option String
  escalationReason : Option String
  iterations : ℤ
  toolCalls : List ToolCallRecord
  langsmithTraceUrl : Option String
  latencyMs : ℚ
  costUsd : ℚ

/-- One increment or observation of a metric, with its labels. -/
inductive Metric
  | cases (decision : String)
  | latency (seconds : ℚ)
  | tokens (direction : String) (count : ℤ)
  | cost (usd : ℚ)
  | toolCalls (tool status : String)
  | llmCalls (count : ℕ)
  | tokenSource (source : String)
  | securityEvents (eventType : String)
  deriving DecidableEq

/-- What the service asks of its surroundings. An insert that raises is answered with its
exception; `usage` reads what the model calls of the graph have reported to the collector,
and `traceUrl` what the tracing block left in its handle. -/
inductive ServiceOp
  | perfCounter
  | uuidHex
  | insertTicket (row : TicketRow)
  | insertToolCall (row : ToolCallRow)
  | insertSecurityEvent (row : SecurityEventRow)
  | record (metric : Metric)
  | usage
  | traceUrl

@[reducible] def serviceSig : Signature where
  Op := ServiceOp
  Reply
    | .perfCounter => ℚ
    | .uuidHex => String
    | .insertTicket _ => Except Exc Unit
    | .insertToolCall _ => Except Exc Unit
    | .insertSecurityEvent _ => Except Exc Unit
    | .record _ => Unit
    | .usage => UsageCollector
    | .traceUrl => Option String

abbrev callSig : Signature := graphSig.sum serviceSig

abbrev ServiceProgram := Program serviceSig Exc

abbrev CallProgram := Program callSig Exc

abbrev CallEvent := Event callSig

abbrev perform (o : ServiceOp) : ServiceProgram (serviceSig.Reply o) :=
  Program.perform (S := serviceSig) o

def insertTicket (row : TicketRow) : ServiceProgram Unit := do
  .ofExcept (← perform (.insertTicket row))

/-- `insert_tool_call`: the arguments and the result are written as JSON first. -/
def insertToolCall (db : Runtime) (row : ToolCallRow) : ServiceProgram Unit := do
  .ofExcept (dumps db (.dict row.args))
  .ofExcept (dumps db row.result)
  .ofExcept (← perform (.insertToolCall row))

def insertSecurityEvent (row : SecurityEventRow) : ServiceProgram Unit := do
  .ofExcept (← perform (.insertSecurityEvent row))

def record (metric : Metric) : ServiceProgram Unit := perform (.record metric)

/-- What `inc` of a counter raises for a negative amount. -/
def negativeAmount : Exc :=
  ⟨"ValueError", "Counters can only be incremented by non-negative amounts."⟩

/-- A metric that is left alone by an amount of zero, and does not take a negative one. -/
def recordAmount {α : Type} [LinearOrder α] [Zero α] (amount : α) (metric : Metric) :
    ServiceProgram Unit :=
  if amount = 0 then pure ()
  else if amount < 0 then .fail negativeAmount
  else record metric

def recordDecision (decision : String) : ServiceProgram Unit := record (.cases decision)

def recordLatency (seconds : ℚ) : ServiceProgram Unit := record (.latency seconds)

def recordTokens (prompt completion : ℤ) : ServiceProgram Unit := do
  recordAmount prompt (.tokens "prompt" prompt)
  recordAmount completion (.tokens "completion" completion)

def recordCost (usd : ℚ) : ServiceProgram Unit := recordAmount usd (.cost usd)

def recordToolCall (tool status : String) : ServiceProgram Unit :=
  record (.toolCalls tool status)

def recordLlmCalls (count : ℕ) : ServiceProgram Unit := recordAmount count (.llmCalls count)

def recordTokenSource (source : String) : ServiceProgram Unit := record (.tokenSource source)

def recordSecurityEvent (eventType : String) : ServiceProgram Unit :=
  record (.securityEvents eventType)

end TicketWarden.Service
