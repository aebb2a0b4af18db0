/- Module: TicketWarden/Graph/Nodes
   source: apps/api/src/graph/nodes.py
   digest: The classifier, researcher, responder and reviewer nodes. -/

import TicketWarden.Guardrails.Injection
import TicketWarden.Guardrails.Pii
import TicketWarden.Store.Registry

set_option autoImplicit false
set_option relaxedAutoImplicit false

namespace TicketWarden.Graph

open Effects Guardrails Python Store

section

variable (db : Runtime) (settings : Settings)

def classifier (state : CaseState) : GraphProgram CaseState := do
  let category ← classify state.ticket
  let category := if categories.contains category then category else Category.other.value
  pure { state with category := some category }

def quarantine (record : ToolRecord) : Except Exc (ToolRecord × Json) := do
  let (flagged, sanitized) ← scanToolResult db record.result
  if flagged then
    pure ({ record with status := ToolStatus.sanitized.value, result := sanitized }, sanitized)
  else pure (record, sanitized)

def dispatchAll : List ToolRequest → List Fact → List ToolRecord →
    GraphProgram (List Fact × List ToolRecord)
  | [], facts, toolCalls => pure (facts, toolCalls)
  | req :: requests, facts, toolCalls => do
    let args := req.args.getD []
    let record ← dispatchTool req.name args
    if record.status = ToolStatus.ok.value then
      match quarantine db record with
      | .error exc =>
        -- the record is in the list already, and is lost with it
        let _ ← perform (.dispatched record)
        .fail exc
      | .ok (record, sanitized) =>
        let _ ← perform (.dispatched record)
        dispatchAll requests (facts ++ [⟨req.name, args, sanitized⟩]) (toolCalls ++ [record])
    else
      let _ ← perform (.dispatched record)
      dispatchAll requests facts (toolCalls ++ [record])

def researcher (state : CaseState) : GraphProgram CaseState := do
  let requests ← planResearch state.ticket (strOr state.category Category.other.value)
    state.orderId
  let (facts, toolCalls) ←
    dispatchAll db (sliceTo requests settings.maxToolRounds) state.facts state.toolCalls
  pure { state with facts := facts, toolCalls := toolCalls }

def responder (state : CaseState) : GraphProgram CaseState := do
  let text ← draft state.ticket (strOr state.category Category.other.value) state.facts
    state.reviewFeedback
  pure { state with draft := some (redactPii db text) }

def defaultFeedback : String := "Reviewer did not approve this draft."

def exhaustedReason (iterations : ℤ) (feedback : String) : String :=
  "Not approved after " ++ toString iterations ++ " review pass(es): " ++ feedback

def applyVerdict (state : CaseState) (verdict : Verdict) : CaseState :=
  let iterations := state.iterations + 1
  if verdict.approved then
    { state with
      iterations := iterations
      decision := some Decision.resolved.value
      reviewFeedback := none }
  else
    let feedback := strOr verdict.feedback defaultFeedback
    if settings.maxReviewIterations ≤ iterations then
      { state with
        iterations := iterations
        reviewFeedback := some feedback
        decision := some Decision.escalate.value
        escalationReason := some (exhaustedReason iterations feedback) }
    else { state with iterations := iterations, reviewFeedback := some feedback }

def reviewer (state : CaseState) : GraphProgram CaseState := do
  let verdict ← review state.ticket (state.draft.getD "") state.facts
  pure (applyVerdict settings state verdict)

end

end TicketWarden.Graph
