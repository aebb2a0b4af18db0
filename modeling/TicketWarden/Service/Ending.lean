/- Module: TicketWarden/Service/Ending
   source: apps/api/src/service.py, apps/api/src/graph/build.py
   digest: How a run of the compiled graph leaves a case to the rest of a call. -/

import TicketWarden.Graph.Halting
import TicketWarden.Service.Audit

set_option autoImplicit false
set_option relaxedAutoImplicit false

namespace TicketWarden.Service

open TicketWarden.Graph Effects Guardrails Python Storage

/-- The verdicts the reviewer gave in a call. -/
def verdicts (tr : List CallEvent) : List Verdict := (graphEvents tr).filterMap verdict?

def draftTexts (tr : List CallEvent) : List String := (graphEvents tr).filterMap draftText?

/-- The records of the requests that were dispatched in a call, in order. -/
def dispatches (tr : List CallEvent) : List ToolRecord := (graphEvents tr).filterMap dispatched?

/-- How the graph leaves a case: it raised, or it ended on its last draft, which the last
verdict approved or the cap on review passes left without an approval. -/
inductive Ending (env : Env) (initial : CaseState) (tr : List GraphEvent) :
    Except Exc CaseState → Prop
  | raised (exc : Exc) :
      Unfinished env.settings env.recursionLimit initial (tr.filterMap verdict?) →
      FailedWith env.db env.recursionLimit tr exc → Ending env initial tr (.error exc)
  | returned {final : CaseState} (text : String) (rejected : List Verdict) (last : Verdict) :
      Reviewed env.settings initial tr final rejected last →
      2 * (tr.filterMap verdict?).length + 2 < env.recursionLimit →
      (tr.filterMap draftText?).getLast? = some text →
      final.draft = some (redactPii env.db text) → final.ticket = initial.ticket →
      final.toolCalls = initial.toolCalls ++ tr.filterMap dispatched? →
      tr.filterMap (graphError? env.db) = [] → Ending env initial tr (.ok final)

theorem ending_of_exec {env : Env} {initial : CaseState} {tr : List GraphEvent}
    {gout : Except Exc CaseState} (hiter : initial.iterations = 0)
    (hd : initial.decision = none) (h : Exec (caseGraph env initial) tr gout) :
    Ending env initial tr gout := by
  have hrun := graphRun_of_exec hd h
  cases gout with
  | error exc =>
    obtain ⟨hunfinished, hfailed⟩ := hrun.raised rfl
    exact .raised exc hunfinished hfailed
  | ok final =>
    obtain ⟨rejected, last, hreviewed, hsteps⟩ := hrun.reviewed hiter
    obtain ⟨text, htext, hdraft, hticket, hanswered⟩ := hrun.lastDraft
    exact .returned text rejected last hreviewed hsteps htext hdraft hticket hrun.toolCalls
      hanswered

theorem outboundReply_eq {db : Runtime} {draft reply : String}
    (h : outboundReply db (some draft) = some reply) : reply = redactPii db draft := by
  by_cases hempty : draft = ""
  · simp [outboundReply, hempty] at h
  · simpa [outboundReply, hempty, eq_comm] using h

theorem outboundReply_iff (db : Runtime) {Q : String → Prop} (hempty : Q "") (text : String) :
    (∀ reply, outboundReply db (some (redactPii db text)) = some reply → Q reply) ↔
      Q (redactPii db (redactPii db text)) := by
  by_cases hnone : redactPii db text = ""
  · rw [hnone]
    exact iff_of_true (by simp [outboundReply]) hempty
  · simp [outboundReply, hnone]

end TicketWarden.Service
