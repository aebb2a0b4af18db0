/- Module: TicketWarden/Graph/Build
   source: apps/api/src/graph/edges.py, apps/api/src/graph/build.py
   digest: The routing after a review and the compiled graph. -/

import TicketWarden.Graph.Nodes

set_option autoImplicit false
set_option relaxedAutoImplicit false

namespace TicketWarden.Graph

open Effects Guardrails Python

section

variable (db : Runtime) (settings : Settings)

/-- `route_after_review`; no node stands for `END`. -/
def routeAfterReview (state : CaseState) : Option Node :=
  if state.decision = some Decision.resolved.value then none
  else if settings.maxReviewIterations ≤ state.iterations then none
  else some .responder

def nextNode (node : Node) (state : CaseState) : Option Node :=
  match node with
  | .classifier => some .researcher
  | .researcher => some .responder
  | .responder => some .reviewer
  | .reviewer => routeAfterReview settings state

def runNode : Node → CaseState → GraphProgram CaseState
  | .classifier => classifier
  | .researcher => researcher db settings
  | .responder => responder db
  | .reviewer => reviewer settings

/-- LangGraph's exception for a run that needs more steps than the recursion limit allows. -/
def recursionError (limit : ℕ) : Exc := ⟨"GraphRecursionError", db.limitMessage limit⟩

/-- Follow the edges, one node a step. That no node is left is seen in a step of its own, so a
run of as many nodes as the limit allows steps fails as well. -/
def runGraph (limit : ℕ) : ℕ → Option Node → CaseState → GraphProgram CaseState
  | 0, _, _ => .fail (recursionError db limit)
  | _ + 1, none, state => pure state
  | steps + 1, some node, state => do
    let _ ← perform (.enter node)
    let state ← runNode db settings node state
    runGraph limit steps (nextNode settings node state) state

/-- `invoke` of the graph that `compile_graph` wires, under a recursion limit. -/
def compileGraph (limit : ℕ) (initial : CaseState) : GraphProgram CaseState :=
  runGraph db settings limit limit (some .classifier) initial

end

end TicketWarden.Graph
