/- Module: TicketWarden/Graph/Replay
   source: apps/api/src/graph/nodes.py, apps/api/src/graph/edges.py,
   apps/api/src/graph/build.py
   digest: A case under another id goes the same way when the model and the tools tell it the
   same. -/

import TicketWarden.Effects.Agreement
import TicketWarden.Graph.Trace

set_option autoImplicit false
set_option relaxedAutoImplicit false

namespace TicketWarden.Graph

open Effects Guardrails Python

def CaseState.withId (ticketId : String) (state : CaseState) : CaseState :=
  { state with ticketId := ticketId }

variable {db : Runtime} {settings : Settings}

private theorem applyVerdict_withId (ticketId : String) (state : CaseState) (verdict : Verdict) :
    applyVerdict settings (state.withId ticketId) verdict =
      (applyVerdict settings state verdict).withId ticketId := by
  unfold applyVerdict
  dsimp only
  by_cases happroved : verdict.approved = true
  · rw [if_pos happroved, if_pos happroved]
    rfl
  · rw [if_neg happroved, if_neg happroved]
    by_cases hcap : settings.maxReviewIterations ≤ state.iterations + 1
    · have hcap' : settings.maxReviewIterations ≤ (state.withId ticketId).iterations + 1 := hcap
      rw [if_pos hcap, if_pos hcap']
      rfl
    · have hcap' : ¬ settings.maxReviewIterations ≤ (state.withId ticketId).iterations + 1 := hcap
      rw [if_neg hcap, if_neg hcap']
      rfl

private theorem nextNode_withId (ticketId : String) (node : Node) (state : CaseState) :
    nextNode settings node (state.withId ticketId) = nextNode settings node state := by
  cases node <;> rfl

private theorem mirrors_runNode (ticketId : String) (node : Node) (state : CaseState) :
    Mirrors (CaseState.withId ticketId) (runNode db settings node state)
      (runNode db settings node (state.withId ticketId)) := by
  cases node with
  | classifier =>
    refine mirrors_after fun category => ?_
    exact mirrors_pure (classified state category)
  | researcher =>
    refine mirrors_after fun requests => mirrors_after fun found => ?_
    exact mirrors_pure { state with facts := found.1, toolCalls := found.2 }
  | responder =>
    refine mirrors_after fun text => ?_
    exact mirrors_pure { state with draft := some (redactPii db text) }
  | reviewer =>
    refine mirrors_after fun verdict => ?_
    rw [applyVerdict_withId]
    exact mirrors_pure (applyVerdict settings state verdict)

private theorem mirrors_runGraph (ticketId : String) (limit steps : ℕ) (node : Option Node)
    (state : CaseState) :
    Mirrors (CaseState.withId ticketId) (runGraph db settings limit steps node state)
      (runGraph db settings limit steps node (state.withId ticketId)) := by
  induction steps generalizing node state with
  | zero => exact mirrors_fail _
  | succ steps ih =>
    cases node with
    | none => exact mirrors_pure state
    | some node =>
      refine mirrors_after fun _ =>
        mirrors_bind (mirrors_runNode ticketId node state) fun next => ?_
      rw [nextNode_withId]
      exact ih (nextNode settings node next) next

/-- What the model answers a case, and of each tool call whether it failed. -/
inductive Told
  | category (reply : Except Exc String)
  | plan (reply : Except Exc (List ToolRequest))
  | text (reply : Except Exc String)
  | verdict (reply : Except Exc Verdict)
  | called (failure : Option Exc)

def failure? : Except Exc Json → Option Exc
  | .ok _ => none
  | .error exc => some exc

def told : Reading graphSig Told
  | .classify _ => some Told.category
  | .planResearch _ _ _ => some Told.plan
  | .draft _ _ _ _ => some Told.text
  | .review _ _ _ => some Told.verdict
  | .callTool _ _ => some fun reply => .called (failure? reply)
  | .enter _ => none
  | .dispatched _ => none

def Honest (tool : String → Dict → Except Exc Json) : GraphEvent → Prop
  | ⟨.callTool name args, .ok result⟩ => tool name args = .ok result
  | _ => True

private theorem told_determines (tool : String → Dict → Except Exc Json) :
    told.Determines (Honest tool) := by
  intro o r r' hr hr' htold
  cases o with
  | callTool name args =>
    have hfailure : failure? r = failure? r' := by
      simpa [Event.told, told] using htold
    rcases r with exc | result <;> rcases r' with exc' | result'
    · exact congrArg Except.error (Option.some.inj hfailure)
    · cases hfailure
    · cases hfailure
    · exact Eq.trans (Eq.symm hr) hr'
  | enter node => rfl
  | dispatched record => rfl
  | classify ticket => simpa [Event.told, told] using htold
  | planResearch ticket category orderId => simpa [Event.told, told] using htold
  | draft ticket category facts feedback => simpa [Event.told, told] using htold
  | review ticket text facts => simpa [Event.told, told] using htold

theorem compileGraph_agree {tool : String → Dict → Except Exc Json} {limit : ℕ}
    {ticketId : String} {state : CaseState} {tr tr' : List GraphEvent}
    {out out' : Except Exc CaseState} (h : Exec (compileGraph db settings limit state) tr out)
    (h' : Exec (compileGraph db settings limit (state.withId ticketId)) tr' out')
    (hhonest : ∀ e ∈ tr, Honest tool e) (hhonest' : ∀ e ∈ tr', Honest tool e)
    (htold : tr.filterMap (Event.told told) = tr'.filterMap (Event.told told)) :
    tr = tr' ∧ out' = out.map (CaseState.withId ticketId) := by
  obtain ⟨out'', hrun, rfl⟩ := mirrors_runGraph ticketId limit limit (some .classifier) state h'
  obtain ⟨rfl, rfl⟩ := h.agree (told_determines tool) hrun hhonest hhonest' htold
  exact ⟨rfl, rfl⟩

end TicketWarden.Graph
