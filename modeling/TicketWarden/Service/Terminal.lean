/- Module: TicketWarden/Service/Terminal
   source: apps/api/src/service.py, apps/api/src/graph/nodes.py, apps/api/src/graph/edges.py
   digest: The decision a call returns with, and what it says about the run behind it. -/

import TicketWarden.Service.Ending
import TicketWarden.Service.FakeLLM

set_option autoImplicit false
set_option relaxedAutoImplicit false

namespace TicketWarden.Service

open TicketWarden.Graph Effects Guardrails Python Storage

/-- A refused call: no method of the model and no tool was called, and nothing is reported. -/
structure Refused (tr : List CallEvent) (resp : ResolveResponse) : Prop where
  quiet : graphEvents tr = []
  reply : resp.reply = none
  toolCalls : resp.toolCalls = []
  iterations : resp.iterations = 0
  cost : resp.costUsd = 0

/-- A resolved case: the graph returned, no call of the model and no scan raised, and the last
review approved. -/
structure Resolved (env : Env) (request : ResolveRequest env.db) (tr : List CallEvent)
    (resp : ResolveResponse) : Prop where
  returned : ∃ final, Exec (caseGraph env (initialState resp.ticketId
    (redactPii env.db request.ticket) request.orderId)) (graphEvents tr) (.ok final)
  answered : (graphEvents tr).filterMap (graphError? env.db) = []
  approved : ∃ v, (verdicts tr).getLast? = some v ∧ v.approved = true
  noReason : resp.escalationReason = none

/-- What the decision of a response says about its call. -/
structure Decided (env : Env) (request : ResolveRequest env.db) (tr : List CallEvent)
    (resp : ResolveResponse) : Prop where
  decision : resp.decision = "RESOLVED" ∨ resp.decision = "ESCALATE" ∨ resp.decision = "REFUSE"
  refuse_iff : resp.decision = "REFUSE" ↔
    isInjection env.db (redactPii env.db request.ticket) = true
  refused : resp.decision = "REFUSE" → Refused tr resp
  resolved : resp.decision = "RESOLVED" → Resolved env request tr resp
  escalated : resp.decision = "ESCALATE" → ∃ reason, resp.escalationReason = some reason ∧
    reason ≠ ""
  raised : (graphEvents tr).filterMap (graphError? env.db) ≠ [] → resp.decision = "ESCALATE"

theorem append_ne_empty {s : String} (t : String) (h : s ≠ "") : s ++ t ≠ "" := by
  intro hempty
  have hlength := congrArg String.length hempty
  rw [String.length_append] at hlength
  have hpos : s.length ≠ 0 := fun h0 => h (String.length_eq_zero_iff.mp h0)
  simp only [String.length_empty] at hlength
  omega

variable {env : Env} {request : ResolveRequest env.db} {tr : List CallEvent}
  {resp : ResolveResponse}

private theorem decided_of_refuse (hdecision : resp.decision = "REFUSE")
    (hscan : isInjection env.db (redactPii env.db request.ticket) = true)
    (hrefused : Refused tr resp) : Decided env request tr resp where
  decision := .inr (.inr hdecision)
  refuse_iff := iff_of_true hdecision hscan
  refused _ := hrefused
  resolved h := by rw [hdecision] at h; exact absurd h (by decide)
  escalated h := by rw [hdecision] at h; exact absurd h (by decide)
  raised h := by rw [hrefused.quiet] at h; exact absurd rfl h

private theorem decided_of_escalate {reason : String} (hdecision : resp.decision = "ESCALATE")
    (hscan : isInjection env.db (redactPii env.db request.ticket) = false)
    (hreason : resp.escalationReason = some reason) (hne : reason ≠ "") :
    Decided env request tr resp where
  decision := .inr (.inl hdecision)
  refuse_iff := by rw [hdecision, hscan]; decide
  refused h := by rw [hdecision] at h; exact absurd h (by decide)
  resolved h := by rw [hdecision] at h; exact absurd h (by decide)
  escalated _ := ⟨reason, hreason, hne⟩
  raised _ := hdecision

private theorem decided_of_resolve (hdecision : resp.decision = "RESOLVED")
    (hscan : isInjection env.db (redactPii env.db request.ticket) = false)
    (hresolved : Resolved env request tr resp) : Decided env request tr resp where
  decision := .inl hdecision
  refuse_iff := by rw [hdecision, hscan]; decide
  refused h := by rw [hdecision] at h; exact absurd h (by decide)
  resolved _ := hresolved
  escalated h := by rw [hdecision] at h; exact absurd h (by decide)
  raised h := absurd hresolved.answered h

/-- Every call that returns, returns with one of the three decisions and keeps what it
promises. -/
theorem decided_of_exec (h : Exec (resolveCase env (caseGraph env) request) tr (.ok resp)) :
    Decided env request tr resp := by
  cases returned_of_exec h with
  | refused ticketId reason latencyMs hscan hgraph hwrites hresp =>
    subst hresp
    exact decided_of_refuse rfl (by rw [isInjection, hscan]) ⟨hgraph, rfl, rfl, rfl, rfl⟩
  | settled ticketId gout gated latencyMs costUsd traceUrl hscan hgraph hgated hwrites hresp =>
    subst hresp hgated
    cases ending_of_exec rfl rfl hgraph with
    | raised exc hunfinished hfailed =>
      have hgate := @outboundGate_of_escalated env.db (errorState (initialState ticketId
        (redactPii env.db request.ticket) request.orderId) exc) rfl
      exact decided_of_escalate (congrArg Gated.decision hgate) hscan
        (congrArg (fun gated => gated.final.escalationReason) hgate)
        (append_ne_empty _ (by decide))
    | @returned final text rejected last hreviewed hsteps htext hdraft hticket hcalls hanswered =>
      cases happroved : last.approved with
      | false =>
        obtain ⟨hdecision, hreason⟩ := hreviewed.escalated happroved
        have hgate := @outboundGate_of_escalated env.db final hdecision
        refine decided_of_escalate (congrArg Gated.decision hgate) hscan
          ((congrArg (fun gated => gated.final.escalationReason) hgate).trans hreason) ?_
        rw [String.append_assoc, String.append_assoc]
        exact append_ne_empty _ (by decide)
      | true =>
        obtain ⟨hdecision, hreason⟩ := hreviewed.resolved happroved
        rcases @outboundGate_of_resolved env.db final hdecision with
          ⟨pattern, hgate⟩ | ⟨-, hgate⟩
        · exact decided_of_escalate (congrArg Gated.decision hgate) hscan
            (congrArg (fun gated => gated.final.escalationReason) hgate)
            (append_ne_empty _ (by decide))
        · refine decided_of_resolve (congrArg Gated.decision hgate) hscan
            ⟨⟨final, hgraph⟩, hanswered, ⟨last, ?_, happroved⟩, ?_⟩
          · simp [verdicts, hreviewed.verdicts]
          · exact (congrArg (fun gated => gated.final.escalationReason) hgate).trans hreason

theorem decided_of_exec_order :
    ∃ resp, Exec (resolveCase testEnv (caseGraph testEnv) whereIsOrder1042)
        (({} : FakeLLM).resolve whereIsOrder1042).trace (.ok resp) ∧
      Decided testEnv whereIsOrder1042
        (({} : FakeLLM).resolve whereIsOrder1042).trace resp := by
  obtain ⟨resp, h, -⟩ := exec_run_ok (h := ({} : FakeLLM).handler) (s := ())
    (P := fun _ => true) (p := resolveCase testEnv (caseGraph testEnv)
      whereIsOrder1042) (by decide +kernel)
  exact ⟨resp, h, decided_of_exec h⟩

end TicketWarden.Service
