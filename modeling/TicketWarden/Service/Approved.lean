/- Module: TicketWarden/Service/Approved
   source: apps/api/src/service.py, apps/api/src/graph/nodes.py
   digest: Exactly when the reply that is sent is the draft that was approved. -/

import TicketWarden.Service.Ending
import TicketWarden.Service.FakeLLM

set_option autoImplicit false
set_option relaxedAutoImplicit false

namespace TicketWarden.Service

open TicketWarden.Graph Effects Guardrails Python Storage

def reviewedDrafts (tr : List CallEvent) : List String :=
  (graphEvents tr).filterMap reviewedDraft?

/-- A resolved case is answered with a reply, and with the draft that was reviewed last. -/
def SentAsApproved (tr : List CallEvent) (resp : ResolveResponse) : Prop :=
  resp.decision = Decision.resolved.value →
    ∃ reply, resp.reply = some reply ∧ reply ≠ "" ∧ (reviewedDrafts tr).getLast? = some reply

/-- A draft that comes through to the customer as its author's redaction left it: the outbound
gate withholds it, or it is not empty and a second redaction does not change it. -/
def ComesThrough (db : Runtime) (text : String) : Prop :=
  leaks db (redactPii db (redactPii db text)) = true ∨
    (redactPii db text ≠ "" ∧ redactPii db (redactPii db text) = redactPii db text)

private theorem sent_iff_comesThrough {db : Runtime} {text : String}
    (hclean : ∀ reply, outboundReply db (some (redactPii db text)) = some reply →
      leaks db reply = false) :
    (∃ reply, outboundReply db (some (redactPii db text)) = some reply ∧ reply ≠ "" ∧
      redactPii db text = reply) ↔ ComesThrough db text := by
  by_cases hempty : redactPii db text = ""
  · have hquiet : leaks db "" = false := rfl
    have hredacted : redactPii db "" = "" := rfl
    simp [ComesThrough, outboundReply, hempty, hredacted, hquiet]
  · have hreply : outboundReply db (some (redactPii db text)) =
        some (redactPii db (redactPii db text)) := if_neg hempty
    rw [ComesThrough, hclean _ hreply, hreply]
    constructor
    · rintro ⟨reply, hsame, -, rfl⟩
      exact .inr ⟨hempty, Option.some.inj hsame⟩
    · rintro (hleak | ⟨hne, hsame⟩)
      · cases hleak
      · exact ⟨redactPii db text, by rw [hsame], hne, rfl⟩

private theorem escalate_ne_resolved :
    Decision.escalate.value ≠ Decision.resolved.value := by decide

/-- The reply of a resolved case is the approved draft exactly when the last draft of the model
comes through. -/
theorem sentAsApproved_iff {env : Env} {request : ResolveRequest env.db} {tr : List CallEvent}
    {resp : ResolveResponse} (h : Exec (resolveCase env (caseGraph env) request) tr (.ok resp)) :
    SentAsApproved tr resp ↔
      (Approved env.recursionLimit (verdicts tr) →
        ∀ text ∈ (draftTexts tr).getLast?, ComesThrough env.db text) := by
  cases returned_of_exec h with
  | refused ticketId reason latencyMs hscan hgraph hwrites hresp =>
    subst hresp
    have hrefused : Decision.refuse.value ≠ Decision.resolved.value := by decide
    refine iff_of_true (fun hresolved => absurd hresolved hrefused) ?_
    rintro ⟨⟨v, hv, -⟩, -⟩
    simp [verdicts, hgraph] at hv
  | settled ticketId gout gated latencyMs costUsd traceUrl hscan hgraph hgated hwrites hresp =>
    subst hresp hgated
    cases ending_of_exec rfl rfl hgraph with
    | raised exc hunfinished hfailed =>
      have hgate := @outboundGate_of_escalated env.db (errorState (initialState ticketId
        (redactPii env.db request.ticket) request.orderId) exc) rfl
      have hescalated := congrArg Gated.decision hgate
      refine iff_of_true (fun hresolved => ?_) ?_
      · exact absurd (hescalated.symm.trans hresolved) escalate_ne_resolved
      · exact fun happroved => absurd happroved.concluded (hunfinished.not_concluded rfl)
    | @returned final text rejected last hreviewed hsteps htext hdraft hticket hcalls hanswered =>
      have hshown : (reviewedDrafts tr).getLast? = some (redactPii env.db text) :=
        (graphRun_of_exec rfl hgraph).lastReviewed.trans hdraft
      change ((outboundGate env.db final).decision = _ →
        ∃ reply, (outboundGate env.db final).reply = some reply ∧ _) ↔ _
      cases happroved : last.approved with
      | false =>
        have hgate := @outboundGate_of_escalated env.db final (hreviewed.escalated happroved).1
        have hescalated := congrArg Gated.decision hgate
        refine iff_of_true (fun hresolved => ?_) ?_
        · exact absurd (hescalated.symm.trans hresolved) escalate_ne_resolved
        · exact fun happroves =>
            absurd happroves (hreviewed.exhausted hsteps happroved).not_approved
      | true =>
        have hverdict : Approved env.recursionLimit (verdicts tr) :=
          hreviewed.isApproved hsteps happroved
        rw [hshown, draftTexts, htext]
        simp only [hverdict, forall_const, Option.mem_def, Option.some.injEq, forall_eq']
        rcases @outboundGate_of_resolved env.db final (hreviewed.resolved happroved).1 with
          ⟨pattern, hgate⟩ | ⟨hclean, hgate⟩
        · -- a leaking draft is withheld, and the case is not resolved
          have hwithheld : (outboundGate env.db final).withheld.isSome := by rw [hgate]; rfl
          obtain ⟨-, reply, hreply, hleak⟩ := outboundGate_withheld_iff.mp hwithheld
          have hescalated := congrArg Gated.decision hgate
          refine iff_of_true (fun hresolved => ?_) (.inl ?_)
          · exact absurd (hescalated.symm.trans hresolved) escalate_ne_resolved
          · rw [hdraft] at hreply
            rwa [outboundReply_eq hreply] at hleak
        · rw [hgate]
          rw [hdraft] at hclean ⊢
          exact (forall_prop_of_true rfl).trans (sent_iff_comesThrough hclean)

theorem sentAsApproved_iff_order :
    ∃ resp, Exec (resolveCase testEnv (caseGraph testEnv) whereIsOrder1042)
        (({} : FakeLLM).resolve whereIsOrder1042).trace (.ok resp) ∧
      (SentAsApproved (({} : FakeLLM).resolve whereIsOrder1042).trace resp ↔
        (Approved testEnv.recursionLimit
            (verdicts (({} : FakeLLM).resolve whereIsOrder1042).trace) →
          ∀ text ∈ (draftTexts (({} : FakeLLM).resolve whereIsOrder1042).trace).getLast?,
            ComesThrough testEnv.db text)) := by
  obtain ⟨resp, h, -⟩ := exec_run_ok (h := ({} : FakeLLM).handler) (s := ())
    (P := fun _ => true) (p := resolveCase testEnv (caseGraph testEnv)
      whereIsOrder1042) (by decide +kernel)
  exact ⟨resp, h, sentAsApproved_iff h⟩

def speechlessLLM : FakeLLM where
  draftText := .ok ""

theorem resolved_without_reply :
    ∃ resp, Exec (resolveCase testEnv (caseGraph testEnv) whereIsMyOrder)
        (speechlessLLM.resolve whereIsMyOrder).trace (.ok resp) ∧
      ¬ SentAsApproved (speechlessLLM.resolve whereIsMyOrder).trace resp := by
  obtain ⟨resp, h, hout⟩ := exec_run_ok (h := speechlessLLM.handler) (s := ())
    (P := fun resp => resp.decision == Decision.resolved.value && resp.reply.isNone)
    (p := resolveCase testEnv (caseGraph testEnv) whereIsMyOrder) (by decide +kernel)
  obtain ⟨hresolved, hnone⟩ := Bool.and_eq_true_iff.mp hout
  refine ⟨resp, h, fun hsent => ?_⟩
  obtain ⟨reply, hreply, -⟩ := hsent (eq_of_beq hresolved)
  rw [hreply] at hnone
  cases hnone

end TicketWarden.Service
