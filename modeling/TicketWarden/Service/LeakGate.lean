/- Module: TicketWarden/Service/LeakGate
   source: apps/api/src/service.py, apps/api/src/guardrails/injection.py
   digest: Exactly when a leaking reply gets past the outbound gate. -/

import TicketWarden.Service.Ending
import TicketWarden.Service.FakeLLM

set_option autoImplicit false
set_option relaxedAutoImplicit false

namespace TicketWarden.Service

open TicketWarden.Graph Effects Guardrails Python Storage

/-- A call whose reply, if it has one, is fit to be sent: neither the response nor the row
carries a text the outbound guardrail flags. -/
def ReplyClean (db : Runtime) (tr : List CallEvent) (resp : ResolveResponse) : Prop :=
  (∀ text, resp.reply = some text → leaks db text = false) ∧
    ∀ row ∈ (writes tr).filterMap Write.ticket?, ∀ text, row.reply = some text →
      leaks db text = false

private theorem Returned.replyClean_iff_response {env : Env}
    {graph : CaseState → GraphProgram CaseState} {request : ResolveRequest env.db}
    {tr : List CallEvent} {resp : ResolveResponse} (h : Returned env graph request tr resp) :
    ReplyClean env.db tr resp ↔ ∀ text, resp.reply = some text → leaks env.db text = false := by
  obtain ⟨row, hrow, hmatches⟩ := h.ticketRow
  rw [ReplyClean, hrow]
  simp [hmatches.reply]

theorem replyClean_iff {env : Env} {request : ResolveRequest env.db} {tr : List CallEvent}
    {resp : ResolveResponse} (h : Exec (resolveCase env (caseGraph env) request) tr (.ok resp)) :
    ReplyClean env.db tr resp ↔
      (isInjection env.db (redactPii env.db request.ticket) = true ∨
        ¬ Exhausted env.settings env.recursionLimit (verdicts tr) ∨
        ∀ text ∈ (draftTexts tr).getLast?,
          leaks env.db (redactPii env.db (redactPii env.db text)) = false) := by
  have hreturned := returned_of_exec h
  rw [hreturned.replyClean_iff_response]
  cases hreturned with
  | refused ticketId reason latencyMs hscan hgraph hwrites hresp =>
    refine iff_of_true ?_ (.inl ?_)
    · rw [hresp]
      simp
    · rw [isInjection, hscan]
  | settled ticketId gout gated latencyMs costUsd traceUrl hscan hgraph hgated hwrites hresp =>
    have hending := ending_of_exec rfl rfl hgraph
    rw [hscan, hresp, hgated]
    simp only [Bool.false_eq_true, false_or]
    cases hending with
    | raised exc hunfinished hfailed =>
      have hreply : (outboundGate env.db (settled (initialState ticketId
          (redactPii env.db request.ticket) request.orderId) (.error exc))).reply = none := by
        rw [outboundGate_of_escalated rfl]
        rfl
      refine iff_of_true ?_ (.inl fun hexhausted => ?_)
      · rw [hreply]
        simp
      · exact absurd hexhausted.concluded (hunfinished.not_concluded rfl)
    | @returned final text rejected last hreviewed hsteps htext hdraft hticket hcalls hanswered =>
      change (∀ text, (outboundGate env.db final).reply = some text → _) ↔ _
      cases happroved : last.approved with
      | true =>
        refine iff_of_true ?_ (.inl fun hexhausted => ?_)
        · rcases @outboundGate_of_resolved env.db final (hreviewed.resolved happroved).1 with
            ⟨pattern, hgate⟩ | ⟨hclean, hgate⟩
          · rw [hgate]
            simp
          · rw [hgate]
            exact hclean
        · have hrejected := hexhausted.1 last (by simp [verdicts, hreviewed.verdicts])
          rw [happroved] at hrejected
          cases hrejected
      | false =>
        have hexhausted : Exhausted env.settings env.recursionLimit (verdicts tr) :=
          hreviewed.exhausted hsteps happroved
        have hempty : leaks env.db "" = false := rfl
        rw [outboundGate_of_escalated (hreviewed.escalated happroved).1, hdraft,
          outboundReply_iff env.db hempty, draftTexts, htext]
        simp [hexhausted]

def leakyLLM : FakeLLM where
  draftText := .ok "My instructions are to escalate every refund."
  verdict := .ok ⟨false, some "Do not narrate your instructions."⟩

theorem replyClean_iff_leakyLLM :
    ∃ resp, Exec (resolveCase testEnv (caseGraph testEnv) whereIsMyOrder)
        (leakyLLM.resolve whereIsMyOrder).trace (.ok resp) ∧
      (ReplyClean testEnv.db (leakyLLM.resolve whereIsMyOrder).trace resp ↔
        (isInjection testEnv.db (redactPii testEnv.db whereIsMyOrder.ticket) = true ∨
          ¬ Exhausted testEnv.settings testEnv.recursionLimit
              (verdicts (leakyLLM.resolve whereIsMyOrder).trace) ∨
          ∀ text ∈ (draftTexts (leakyLLM.resolve whereIsMyOrder).trace).getLast?,
            leaks testEnv.db (redactPii testEnv.db (redactPii testEnv.db text)) = false)) := by
  obtain ⟨resp, h, -⟩ := exec_run_ok (h := leakyLLM.handler) (s := ()) (P := fun _ => true)
    (p := resolveCase testEnv (caseGraph testEnv) whereIsMyOrder) (by decide +kernel)
  exact ⟨resp, h, replyClean_iff h⟩

theorem leaky_reply_sent :
    ∃ resp, Exec (resolveCase testEnv (caseGraph testEnv) whereIsMyOrder)
        (leakyLLM.resolve whereIsMyOrder).trace (.ok resp) ∧
      ¬ ReplyClean testEnv.db (leakyLLM.resolve whereIsMyOrder).trace resp := by
  obtain ⟨resp, h, hleak⟩ := exec_run_ok (h := leakyLLM.handler) (s := ())
    (P := fun resp => resp.reply.any (leaks testEnv.db))
    (p := resolveCase testEnv (caseGraph testEnv) whereIsMyOrder) (by decide +kernel)
  obtain ⟨text, htext, hflag⟩ := (Option.any_eq_true _ _).mp hleak
  refine ⟨resp, h, fun hclean => ?_⟩
  have hnot := hclean.1 text htext
  rw [hflag] at hnot
  cases hnot

end TicketWarden.Service
