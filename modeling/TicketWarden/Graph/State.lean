/- Module: TicketWarden/Graph/State
   source: apps/api/src/graph/state.py, apps/api/src/graph/llm.py (LLMClient)
   digest: The case state, the records it carries and the operations the graph performs
   on the model and on the tools. -/

import TicketWarden.Constants
import TicketWarden.Effects.Rules

set_option autoImplicit false
set_option relaxedAutoImplicit false

namespace TicketWarden.Graph

open Effects Python

/-- A tool request of the model; a missing name reads as the empty one. -/
structure ToolRequest where
  name : String
  args : Option Dict

/-- A grounding fact. -/
structure Fact where
  tool : String
  args : Dict
  data : Json

/-- The audit record of one dispatched request. -/
structure ToolRecord where
  toolName : String
  args : Option Dict
  result : Json
  status : String

/-- A reviewer's answer; a missing approval reads as a rejection. -/
structure Verdict where
  approved : Bool
  feedback : Option String
  deriving DecidableEq

/-- `CaseState`. Every reader of `iterations`, `facts` and `tool_calls` takes a missing key
for zero or an empty list, so those keys are never missing here. -/
structure CaseState where
  ticketId : String
  ticket : String
  orderId : Option String
  category : Option String
  facts : List Fact
  draft : Option String
  reviewFeedback : Option String
  decision : Option String
  escalationReason : Option String
  iterations : ℤ
  toolCalls : List ToolRecord

/-- The nodes `compile_graph` adds. -/
inductive Node
  | classifier | researcher | responder | reviewer
  deriving DecidableEq

/-- What a node asks of its surroundings: the four methods of `LLMClient` and the call of an
allowlisted tool. `enter` and `dispatched` only make visible that a node was entered and that
a request was dispatched, with the record it left. -/
inductive GraphOp
  | classify (ticket : String)
  | planResearch (ticket category : String) (orderId : Option String)
  | draft (ticket category : String) (facts : List Fact) (feedback : Option String)
  | review (ticket draft : String) (facts : List Fact)
  | callTool (name : String) (args : Dict)
  | enter (node : Node)
  | dispatched (record : ToolRecord)

@[reducible] def graphSig : Signature where
  Op := GraphOp
  Reply
    | .classify _ => Except Exc String
    | .planResearch _ _ _ => Except Exc (List ToolRequest)
    | .draft _ _ _ _ => Except Exc String
    | .review _ _ _ => Except Exc Verdict
    | .callTool _ _ => Except Exc Json
    | .enter _ => Unit
    | .dispatched _ => Unit

abbrev GraphProgram := Program graphSig Exc

abbrev GraphEvent := Event graphSig

abbrev perform (o : GraphOp) : GraphProgram (graphSig.Reply o) :=
  Program.perform (S := graphSig) o

def classify (ticket : String) : GraphProgram String := do
  .ofExcept (← perform (.classify ticket))

def planResearch (ticket category : String) (orderId : Option String) :
    GraphProgram (List ToolRequest) := do
  .ofExcept (← perform (.planResearch ticket category orderId))

def draft (ticket category : String) (facts : List Fact) (feedback : Option String) :
    GraphProgram String := do
  .ofExcept (← perform (.draft ticket category facts feedback))

def review (ticket draft : String) (facts : List Fact) : GraphProgram Verdict := do
  .ofExcept (← perform (.review ticket draft facts))

end TicketWarden.Graph
