/- Module: TicketWarden/Service/Isolation
   source: apps/api/src/main.py, apps/api/src/service.py
   digest: What a request is answered with, and what is stored of it, depends on its redacted
   ticket, its order id and what its own model calls and tools say, and on nothing else. -/

import TicketWarden.Graph.Replay
import TicketWarden.Service.LazyGraph
import TicketWarden.Service.Provenance

set_option autoImplicit false
set_option relaxedAutoImplicit false

namespace TicketWarden.Service

open TicketWarden.Graph Effects Guardrails Python Storage Store

/-- Responses that say the same of a case; their ids, their trace links, their latencies and their
costs may differ. -/
structure Alike (resp resp' : ResolveResponse) : Prop where
  decision : resp.decision = resp'.decision
  reply : resp.reply = resp'.reply
  category : resp.category = resp'.category
  escalationReason : resp.escalationReason = resp'.escalationReason
  iterations : resp.iterations = resp'.iterations
  toolCalls : resp.toolCalls = resp'.toolCalls

def anonymous : Write → Write
  | .ticket row => .ticket { row with id := "", latencyMs := 0, costUsd := 0 }
  | .toolCall row => .toolCall { row with ticketId := "" }
  | .securityEvent row => .securityEvent { row with ticketId := "" }

private theorem anonymous_toolCallWrites (ticketId : String) (call : ToolRecord) :
    (toolCallWrites ticketId call).map anonymous = toolCallWrites "" call := by
  simp only [toolCallWrites, toolCallEvents, statusEvents]
  split
  · rfl
  · split <;> rfl

private theorem anonymous_persistWrites (state : CaseState) (ticketId : String)
    (latencyMs costUsd : ℚ) :
    (persistWrites state ticketId latencyMs costUsd).map anonymous =
      persistWrites state "" 0 0 := by
  rw [persistWrites, List.map_cons, List.map_flatMap]
  simp only [anonymous_toolCallWrites]
  rfl

private theorem anonymous_withheldEvents (ticketId : String) (withheld : Option String) :
    ((withheldEvents ticketId withheld).map Write.securityEvent).map anonymous =
      (withheldEvents "" withheld).map Write.securityEvent := by
  cases withheld <;> rfl

private theorem outboundGate_withId (db : Runtime) (ticketId : String) (final : CaseState) :
    outboundGate db (final.withId ticketId) =
      { outboundGate db final with final := (outboundGate db final).final.withId ticketId } := by
  unfold outboundGate
  dsimp only [CaseState.withId]
  rcases detectPromptLeak db (outboundReply db final.draft) with ⟨isLeak, pattern⟩
  dsimp only
  split <;> rfl

private theorem settled_withId (ticketId : String) (state : CaseState)
    (out : Except Exc CaseState) :
    settled (state.withId ticketId) (out.map (CaseState.withId ticketId)) =
      (settled state out).withId ticketId := by
  cases out <;> rfl

section Calls

variable {env : Env} {graph : CaseState → GraphProgram CaseState}
  {request request' : ResolveRequest env.db} {tr tr' : List CallEvent}
  {resp resp' : ResolveResponse}

private theorem Returned.of_refused {graph' : CaseState → GraphProgram CaseState}
    (h : Returned env graph request tr resp) (hrefused : Refuses request) :
    Returned env graph' request tr resp := by
  cases h with
  | refused ticketId reason latencyMs hscan hgraph hwrites hresp =>
    exact .refused ticketId reason latencyMs hscan hgraph hwrites hresp
  | settled ticketId gout gated latencyMs costUsd traceUrl hscan _ _ _ _ =>
    rw [Refuses, hscan] at hrefused
    cases hrefused

/-- Calls for one case that are told the same return and write the same. -/
theorem Returned.alike {tool : String → Dict → Except Exc Json}
    (hticket : redactPii env.db request.ticket = redactPii env.db request'.ticket)
    (horder : request.orderId = request'.orderId)
    (h : Returned env (caseGraph env) request tr resp)
    (h' : Returned env (caseGraph env) request' tr' resp')
    (hhonest : ∀ e ∈ graphEvents tr, Honest tool e)
    (hhonest' : ∀ e ∈ graphEvents tr', Honest tool e)
    (htold : (graphEvents tr).filterMap (Event.told told) =
      (graphEvents tr').filterMap (Event.told told)) :
    Alike resp resp' ∧
      (writes tr).map anonymous = (writes tr').map anonymous := by
  cases h with
  | refused ticketId reason latencyMs hscan hgraph hwrites hresp =>
    cases h' with
    | refused ticketId' reason' latencyMs' hscan' hgraph' hwrites' hresp' =>
      obtain rfl : reason = reason' := by
        rw [hticket, hscan'] at hscan
        exact (Prod.mk.inj hscan).2.symm
      rw [hresp, hresp', hwrites, hwrites', List.map_append, List.map_append,
        anonymous_persistWrites, anonymous_persistWrites, hticket]
      exact ⟨⟨rfl, rfl, rfl, rfl, rfl, rfl⟩, rfl⟩
    | settled ticketId' gout' gated' latencyMs' costUsd' traceUrl' hscan' _ _ _ _ =>
      rw [isInjection, ← hticket, hscan] at hscan'
      cases hscan'
  | settled ticketId gout gated latencyMs costUsd traceUrl hscan hgraph hgated hwrites hresp =>
    cases h' with
    | refused ticketId' reason' latencyMs' hscan' hgraph' hwrites' hresp' =>
      rw [isInjection, hticket, hscan'] at hscan
      cases hscan
    | settled ticketId' gout' gated' latencyMs' costUsd' traceUrl' _ hgraph' hgated' hwrites'
        hresp' =>
      have hinitial : initialState ticketId' (redactPii env.db request'.ticket) request'.orderId =
          (initialState ticketId (redactPii env.db request.ticket) request.orderId).withId
            ticketId' := by
        rw [hticket, horder]
        rfl
      rw [hinitial] at hgraph' hgated'
      obtain ⟨-, rfl⟩ := compileGraph_agree hgraph hgraph' hhonest hhonest' htold
      rw [settled_withId, outboundGate_withId, ← hgated] at hgated'
      subst hgated'
      rw [hresp, hresp', hwrites, hwrites', List.map_append, List.map_append,
        anonymous_persistWrites, anonymous_persistWrites, anonymous_withheldEvents,
        anonymous_withheldEvents]
      exact ⟨⟨rfl, rfl, rfl, rfl, rfl, rfl⟩, rfl⟩

end Calls

section Requests

variable {G ι : Type} [DecidableEq ι] {env : Env} {request : ι → ResolveRequest env.db}
  {tool : Shop → String → Dict → Except Exc Json} {s s' : Server G}
  {tr : List (ι × RouteEvent G)}
  {pool' : ι → Program (routeSig G) Exc (Except HttpError ResolveResponse)}

def toldTo (i : ι) (tr : List (ι × RouteEvent G)) : List Told :=
  (graphEvents (callEvents (ownTrace i tr))).filterMap (Event.told told)

def graphEvent? (e : RouteEvent G) : Option GraphEvent := (callEvent? e).bind Event.left?

private theorem ServerStep.honest {e : RouteEvent G} {e' : GraphEvent} (h : ServerStep tool s e s')
    (hevent : graphEvent? e = some e') : Honest (tool s.file.shop) e' := by
  cases h with
  | toolAnswered name args =>
    cases hevent
    cases hreply : tool s.file.shop name args with
    | error exc => trivial
    | ok result => exact hreply
  | toolFailed name args exc =>
    cases hevent
    trivial
  | graphEvent e hno =>
    cases hevent
    obtain ⟨o, r⟩ := e
    cases o with
    | callTool name args => exact absurd rfl (hno name args)
    | _ => trivial
  | _ => cases hevent

private theorem honest_of_runs (h : World.Runs (ServerStep tool) s (tr.map Prod.snd) s') (i : ι) :
    ∀ e ∈ graphEvents (callEvents (ownTrace i tr)), Honest (tool s.file.shop) e := by
  intro e he
  obtain ⟨callEvent, hcall, hleft⟩ := List.mem_filterMap.mp he
  obtain ⟨routeEvent, hroute, hevent⟩ := List.mem_filterMap.mp hcall
  obtain ⟨before, after, hsplit⟩ :=
    List.append_of_mem (List.mem_map_of_mem (f := Prod.snd) (mem_ownTrace.mp hroute))
  rw [hsplit] at h
  obtain ⟨mid, mid', hbefore, hstep, -⟩ := h.at_event
  rw [← shop_of_runs hbefore]
  exact hstep.honest (by rw [graphEvent?, hevent]; exact hleft)

private theorem returned_of_outcome
    (hinter : Interleaves (fun i => resolve env (fun _ => caseGraph env) (request i)) tr pool')
    (hworld : World.Runs (ServerStep tool) s (tr.map Prod.snd) s') {i : ι} {resp : ResolveResponse}
    (hbuilt : ∀ exc, .error exc ∉ compilations (ownTrace i tr))
    (hout : (pool' i).outcome = some (.ok (.ok resp))) :
    Returned env (caseGraph env) (request i) (callEvents (ownTrace i tr)) resp := by
  by_cases hrefused : Refuses (request i)
  · obtain ⟨source, out', -, hcase, hanswer⟩ := route_refines ((hinter.steps i).exec hout)
    cases out' with
    | error exc => cases hanswer
    | ok resp' =>
      cases hanswer
      exact (returned_of_exec hcase).of_refused hrefused
  · obtain ⟨source, out', hcase, hanswer, -, hfailed⟩ :=
      graph_of_answered hinter hworld hout hrefused
    cases out' with
    | error exc => cases hanswer
    | ok resp' =>
      cases hanswer
      cases source with
      | error exc => exact absurd (hfailed exc rfl) (hbuilt exc)
      | ok graph => exact returned_of_exec hcase

/-- Two requests for one case, on two servers with one shop, that are told the same by the model
and by failing tools, and that do not fail to compile a graph, are answered alike and write the
same of the case: whatever else the servers are asked, have stored and have cached, and whatever
their clocks, ids, traces and token counts are. -/
theorem answered_alike {H κ : Type} [DecidableEq κ] {request' : κ → ResolveRequest env.db}
    {t t' : Server H} {tr' : List (κ × RouteEvent H)}
    {pool'' : κ → Program (routeSig H) Exc (Except HttpError ResolveResponse)}
    (hinter : Interleaves (fun i => resolve env (fun _ => caseGraph env) (request i)) tr pool')
    (hworld : World.Runs (ServerStep tool) s (tr.map Prod.snd) s')
    (hinter' : Interleaves (fun j => resolve env (fun _ => caseGraph env) (request' j)) tr' pool'')
    (hworld' : World.Runs (ServerStep tool) t (tr'.map Prod.snd) t')
    (hshop : s.file.shop = t.file.shop) {i : ι} {j : κ}
    (hticket : redactPii env.db (request i).ticket = redactPii env.db (request' j).ticket)
    (horder : (request i).orderId = (request' j).orderId)
    (hbuilt : ∀ exc, .error exc ∉ compilations (ownTrace i tr))
    (hbuilt' : ∀ exc, .error exc ∉ compilations (ownTrace j tr'))
    (htold : toldTo i tr = toldTo j tr') {resp resp' : ResolveResponse}
    (hout : (pool' i).outcome = some (.ok (.ok resp)))
    (hout' : (pool'' j).outcome = some (.ok (.ok resp'))) :
    Alike resp resp' ∧ (writes (callEvents (ownTrace i tr))).map anonymous =
      (writes (callEvents (ownTrace j tr'))).map anonymous := by
  have hreturned := returned_of_outcome hinter hworld hbuilt hout
  have hreturned' := returned_of_outcome hinter' hworld' hbuilt' hout'
  have hhonest' := honest_of_runs hworld' j
  rw [← hshop] at hhonest'
  exact hreturned.alike hticket horder hreturned' (honest_of_runs hworld i) hhonest' htold

end Requests

section Twice

variable (llm : FakeLLM) (request : ResolveRequest testEnv.db)

def serveTwice (requests : List Bool) : List (Bool × RouteEvent Unit) × Server Unit :=
  runAll (Server.handler llm (.ok ()) findNothing)
    (fun _ => resolve testEnv (fun _ => caseGraph testEnv) request) requests (.start .empty)

def answerAfter (before : List Bool) : Except Exc (Except HttpError ResolveResponse) :=
  ((resolve testEnv (fun _ : Unit => caseGraph testEnv) request).run
    (Server.handler llm (.ok ()) findNothing) (serveTwice llm request before).2).out

private theorem interleaves_serveTwice : ∃ pool', Interleaves
      (fun _ : Bool => resolve testEnv (fun _ : Unit => caseGraph testEnv) request)
      (serveTwice llm request [false, true]).1 pool' ∧
    (pool' false).outcome = some (answerAfter llm request []) ∧
      (pool' true).outcome = some (answerAfter llm request [false]) := by
  obtain ⟨pool', hinter, hended, -⟩ := interleaves_runAll
    (Server.handler llm (.ok ()) findNothing)
    (fun _ : Bool => resolve testEnv (fun _ : Unit => caseGraph testEnv) request)
    (by decide : [false, true].Nodup) (.start .empty)
  exact ⟨pool', hinter, hended [] false [true] rfl, hended [false] true [] rfl⟩

private theorem runs_serveTwice (requests : List Bool) : World.Runs (ServerStep findNothing)
    (.start .empty) ((serveTwice llm request requests).1.map Prod.snd)
      (serveTwice llm request requests).2 :=
  World.runs_runAll (step_handler llm (.ok ())) _ _ _

private theorem built_serveTwice (requests : List Bool) (i : Bool) (exc : Exc) :
    .error exc ∉ compilations (ownTrace i (serveTwice llm request requests).1) := by
  intro hfailed
  have hok := compilations_handler llm (.ok ()) findNothing _ requests (.start .empty) _
    (mem_filterMap_own.mpr ⟨i, hfailed⟩)
  cases hok

def toldKind : Told → ℕ
  | .category _ => 0
  | .plan _ => 1
  | .text _ => 2
  | .verdict _ => 3
  | .called _ => 4

def FakeLLM.says : ℕ → Told
  | 0 => .category (.ok llm.category)
  | 1 => .plan (.ok llm.toolRequests)
  | 2 => .text llm.draftText
  | 3 => .verdict llm.verdict
  | _ => .called none

private theorem toldTo_serveTwice (requests : List Bool) (i : Bool) :
    toldTo i (serveTwice llm request requests).1 =
      ((toldTo i (serveTwice llm request requests).1).map toldKind).map llm.says := by
  have hall := runAll_forall (h := Server.handler llm (.ok ()) findNothing)
    (P := fun e => ∀ e' ∈ graphEvent? e, ∀ word ∈ Event.told told e',
      llm.says (toldKind word) = word)
    (fun o s e' he' word hword => by
      rcases o with (o | o) | o
      · cases he'
      · cases he'
        cases o <;> cases hword <;> rfl
      · cases he')
    (fun _ : Bool => resolve testEnv (fun _ => caseGraph testEnv) request) requests
    (.start .empty)
  rw [List.map_map]
  refine (List.map_id _).symm.trans (List.map_congr_left fun word hword => ?_)
  obtain ⟨e', he', hread⟩ := List.mem_filterMap.mp hword
  obtain ⟨callEvent, hcall, hleft⟩ := List.mem_filterMap.mp he'
  obtain ⟨e, he, hevent⟩ := List.mem_filterMap.mp hcall
  refine (hall (i, e) (mem_ownTrace.mp he) e' ?_ word hread).symm
  rw [graphEvent?, hevent]
  exact hleft

end Twice

def greetingLLM : FakeLLM where
  draftText := .ok "Hi!"

theorem answered_alike_greetings :
    let tr := (serveTwice greetingLLM greeting [false, true]).1
    ∃ resp resp', Alike resp resp' ∧
      (writes (callEvents (ownTrace false tr))).map anonymous =
        (writes (callEvents (ownTrace true tr))).map anonymous := by
  intro tr
  obtain ⟨pool', hinter, hfirst, hsecond⟩ := interleaves_serveTwice greetingLLM greeting
  have hworld := runs_serveTwice greetingLLM greeting [false, true]
  have hbuilt := built_serveTwice greetingLLM greeting [false, true]
  have htold : toldTo false tr = toldTo true tr := by
    have hkinds : (toldTo false tr).map toldKind = (toldTo true tr).map toldKind := by
      decide +kernel
    rw [toldTo_serveTwice, toldTo_serveTwice _ _ _ true, hkinds]
  obtain ⟨resp, hresp⟩ := exists_of_responds
    (by decide +kernel : responds (answerAfter greetingLLM greeting []) = true)
  obtain ⟨resp', hresp'⟩ := exists_of_responds
    (by decide +kernel : responds (answerAfter greetingLLM greeting [false]) = true)
  exact ⟨resp, resp', answered_alike hinter hworld hinter hworld rfl rfl rfl (hbuilt false)
    (hbuilt true) htold (hfirst.trans (congrArg some hresp))
    (hsecond.trans (congrArg some hresp'))⟩

end TicketWarden.Service
