/- Module: TicketWarden/Service/Api
   source: apps/api/src/main.py, apps/api/src/schemas.py (ResolveRequest)
   digest: The route `/resolve` around the resolution of a case: the graph it finds in the
   application state, compiles when a case first needs it, and the error it answers with. -/

import TicketWarden.Python.Numbers
import TicketWarden.Service.Spec

set_option autoImplicit false
set_option relaxedAutoImplicit false

namespace TicketWarden.Service

open TicketWarden.Graph Effects Guardrails Observability Python Storage

/-- What a route asks of the application, for graph objects of a type `G`: `app.state.graph`,
`compile_graph()`, and the assignment to `app.state.graph`. -/
inductive AppOp (G : Type)
  | readGraph
  | compileGraph
  | storeGraph (graph : G)

@[reducible] def appSig (G : Type) : Signature where
  Op := AppOp G
  Reply
    | .readGraph => Option G
    | .compileGraph => Except Exc G
    | .storeGraph _ => Unit

abbrev AppEvent (G : Type) := Event (appSig G)

abbrev lazySig (G : Type) : Signature := (appSig G).sum graphSig

abbrev routeSig (G : Type) : Signature := (lazySig G).sum serviceSig

abbrev RouteEvent (G : Type) := Event (routeSig G)

section Routes

variable {G : Type}

abbrev performApp (o : AppOp G) : Program (appSig G) Exc ((appSig G).Reply o) :=
  Program.perform (S := appSig G) o

/-- `get_graph`. -/
def getGraph : Program (appSig G) Exc G := do
  match ← performApp (.readGraph (G := G)) with
  | some graph => pure graph
  | none => do
    let graph ← Program.ofExcept (← performApp (.compileGraph (G := G)))
    let _ ← performApp (.storeGraph graph)
    pure graph

/-- `_LazyGraph.invoke`, for graph objects with a given `invoke`. -/
def lazyInvoke (invoke : G → CaseState → GraphProgram CaseState) (state : CaseState) :
    Program (lazySig G) Exc CaseState := do
  let graph ← getGraph.inl
  (invoke graph state).inr

/-- `resolve_case`, for a graph object with any `invoke`. -/
def resolveWith {S : Signature} (env : Env) (graph : CaseState → Program S Exc CaseState)
    (request : ResolveRequest env.db) : Program (S.sum serviceSig) Exc ResolveResponse := do
  let started ← (perform .perfCounter).inr
  let ticketId ← newTicketId.inr
  let redactedTicket := redactPii env.db request.ticket
  let (isInj, reason) := detectInjection env.db redactedTicket
  if isInj then
    (refuse env.db started ticketId redactedTicket reason).inr
  else
    let initial := initialState ticketId redactedTicket request.orderId
    let final ← (graph initial).inl.tryCatch fun exc => pure (errorState initial exc)
    (finish env started ticketId redactedTicket final).inr

theorem resolveWith_eq (env : Env) (graph : CaseState → GraphProgram CaseState)
    (request : ResolveRequest env.db) : resolveWith env graph request =
      resolveCase env graph request := rfl

/-- An `HTTPException`. -/
structure HttpError where
  status : ℕ
  detail : String
  deriving DecidableEq

def answer : Except Exc ResolveResponse → Except HttpError ResolveResponse
  | .ok resp => .ok resp
  | .error exc => .error ⟨500, exc.message⟩

/-- The route `/resolve`: `app.state.graph` is used as it is, if there is one. -/
def resolve (env : Env) (invoke : G → CaseState → GraphProgram CaseState)
    (request : ResolveRequest env.db) :
    Program (routeSig G) Exc (Except HttpError ResolveResponse) := do
  let graph := match ← (performApp (.readGraph (G := G))).inl.inl with
    | some graph => fun state => (invoke graph state).inr
    | none => lazyInvoke invoke
  let response : Program (routeSig G) Exc (Except HttpError ResolveResponse) := do
    pure (.ok (← resolveWith env graph request))
  response.tryCatch fun exc => pure (.error ⟨500, exc.message⟩)

end Routes

end TicketWarden.Service
