/- Module: TicketWarden/Service/Billing
   source: apps/api/src/service.py, apps/api/src/observability/usage.py
   digest: A server with the production client meters every request for the calls of the chat
   model that it made. -/

import TicketWarden.Effects.Keeper
import TicketWarden.Service.Production
import TicketWarden.Service.Spend

set_option autoImplicit false
set_option relaxedAutoImplicit false

namespace TicketWarden.Service

open TicketWarden.Graph Effects Guardrails Observability Python Storage Store

section

variable {G : Type}

def completionResult? : (o : ModelOp) → modelSig.Reply o → Option LLMResult
  | .classification _ _, completion => completion.result
  | .toolCalls _, completion => completion.result
  | .content _, completion => completion.result
  | .verdict _ _, completion => completion.result

/-- The result that an event gives to `on_llm_end`. -/
def llmResult? : Event (liveSig G) → Option LLMResult
  | ⟨.inl (.inr (.inl o)), r⟩ => completionResult? o r
  | _ => none

def liveService? : Event (liveSig G) → Option ServiceEvent
  | ⟨.inr o, r⟩ => some ⟨o, r⟩
  | _ => none

variable (db : Runtime) (decimal : Char → ℕ)

/-- The `UsageCollector` of a call: the callback of its calls of the chat model, which is read
where the tokens are counted. -/
def collecting : Keeper (liveSig G) UsageCollector where
  answer
    | .inr .usage, collector => some collector
    | _, _ => none
  next e collector := (llmResult? e).elim collector (collector.onLlmEnd db decimal)

/-- The route `/resolve` of a server with the production client, where each call has a new
collector. -/
def resolveCollecting (env : Env) (client : ChatClient) (request : ResolveRequest env.db) :
    Program (liveSig G) Exc (Except HttpError ResolveResponse) :=
  (resolveLive env client request).keep (collecting env.db decimal) ⟨0, 0, 0⟩

variable {db decimal} {collector collector' : UsageCollector} {tr tr' : List (Event (liveSig G))}

private theorem collecting_answered {o : (liveSig G).Op} {r : (liveSig G).Reply o}
    (h : (collecting db decimal).answer o collector = some r) :
    llmResult? (⟨o, r⟩ : Event (liveSig G)) = none ∧
      ∃ read, liveService? (⟨o, r⟩ : Event (liveSig G)) = some ⟨.usage, read⟩ ∧
        read = collector := by
  rcases o with o | o
  · cases h
  · cases o <;> cases h
    exact ⟨rfl, _, rfl, rfl⟩

private theorem collected_of_hides (h : (collecting db decimal).Hides collector tr tr' collector') :
    collector' = (tr'.filterMap llmResult?).foldl (UsageCollector.onLlmEnd db decimal)
      collector := by
  induction h with
  | nil collector => rfl
  | answered hr _ ih => exact ih
  | @performed collector collector' o r tr tr' hr _ ih =>
    rw [ih]
    cases hresult : llmResult? (⟨o, r⟩ : Event (liveSig G)) with
    | none =>
      rw [List.filterMap_cons_none hresult]
      show List.foldl _ ((llmResult? ⟨o, r⟩).elim collector _) _ = _
      rw [hresult]
      rfl
    | some result =>
      rw [List.filterMap_cons_some hresult]
      show List.foldl _ ((llmResult? ⟨o, r⟩).elim collector _) _ = _
      rw [hresult]
      rfl

end

def callMark? : CallEvent → Option (Option UsageCollector)
  | ⟨.inl _, _⟩ => some none
  | ⟨.inr .usage, collector⟩ => some (some collector)
  | _ => none

private theorem filterMap_callMark_service (tr : List ServiceEvent) :
    (tr.map Event.inr : List CallEvent).filterMap callMark? = (tr.filterMap usage?).map some := by
  rw [List.filterMap_map, List.map_filterMap]
  refine List.filterMap_congr fun e _ => ?_
  obtain ⟨o, r⟩ := e
  cases o <;> rfl

private theorem filterMap_callMark_graph (tr : List GraphEvent) :
    (tr.map Event.inl : List CallEvent).filterMap callMark? = tr.map fun _ => none := by
  rw [List.filterMap_map]
  exact congrFun List.filterMap_eq_map tr

private theorem filterMap_callMark {env : Env} {graph : CaseState → GraphProgram CaseState}
    {request : ResolveRequest env.db} {tr : List CallEvent} {out : Except Exc ResolveResponse}
    (h : Exec (resolveCase env graph request) tr out) :
    tr.filterMap callMark? =
      ((graphEvents tr).map fun _ => none) ++ ((serviceEvents tr).filterMap usage?).map some := by
  rw [← resolveWith_eq] at h
  cases exec_resolveWith_iff.mp h with
  | refused started hex reason hscan hrefuse =>
    simp only [graphEvents, serviceEvents, List.filterMap_append, filterMap_left_inr,
      filterMap_right_inr, filterMap_callMark_service]
    rfl
  | settled started hex hscan hgraph hfinish =>
    simp only [graphEvents, serviceEvents, List.filterMap_append, filterMap_left_inl,
      filterMap_left_inr, filterMap_right_inl, filterMap_right_inr, filterMap_callMark_service,
      filterMap_callMark_graph, List.append_nil, List.nil_append]
    rfl

section

variable (db : Runtime) (decimal : Char → ℕ)

def promptTotal (results : List LLMResult) : ℤ :=
  (results.map fun r => (r.counts db decimal).1).sum

def completionTotal (results : List LLMResult) : ℤ :=
  (results.map fun r => (r.counts db decimal).2).sum

variable (env : Env) (request : ResolveRequest env.db) (results : List LLMResult)

/-- What an ended request is metered for: the tokens that its calls of the chat model reported
and what each of them costs, or an estimate from its texts if they reported none; and nothing if
it raised, but for a prompt that was counted before a negative completion. -/
inductive Bill : Except HttpError ResolveResponse → Multiset Metric → Prop
  | refused (resp : ResolveResponse) :
      isInjection env.db (redactPii env.db request.ticket) = true → results = [] →
      resp.costUsd = 0 → Bill (.ok resp) 0
  | reported (resp : ResolveResponse) :
      isInjection env.db (redactPii env.db request.ticket) = false →
      promptTotal env.db decimal results ≠ 0 ∨ completionTotal env.db decimal results ≠ 0 →
      Accepted (promptTotal env.db decimal results) →
      Accepted (completionTotal env.db decimal results) →
      resp.costUsd = (results.map fun result =>
        (result.usage env.db decimal env.settings.llmModel
          env.settings.llmProvider).costUsd).sum →
      Bill (.ok resp) (billOf (promptTotal env.db decimal results)
        (completionTotal env.db decimal results) resp.costUsd results.length)
  | estimated (resp : ResolveResponse) (promptTokens completionTokens : ℕ) :
      isInjection env.db (redactPii env.db request.ticket) = false →
      promptTotal env.db decimal results = 0 → completionTotal env.db decimal results = 0 →
      countTokens env.db env.encodingFor (redactPii env.db request.ticket)
        env.settings.llmModel = .ok promptTokens →
      countTokens env.db env.encodingFor (resp.reply.getD "") env.settings.llmModel =
        .ok completionTokens →
      resp.costUsd = estimateCost promptTokens completionTokens env.settings.llmModel
        env.settings.llmProvider →
      Bill (.ok resp) (billOf promptTokens completionTokens resp.costUsd results.length)
  | raised (error : HttpError) : Bill (.error error) 0
  | cutShort (error : HttpError) (meters : Multiset Metric) :
      CutShort (promptTotal env.db decimal results) (completionTotal env.db decimal results)
        meters → Bill (.error error) meters

variable {env request results decimal}

private theorem bill_of_charged {out : Except Exc ResolveResponse} {meters : Multiset Metric}
    (hscan : isInjection env.db (redactPii env.db request.ticket) = false)
    (h : Charged env (collect env.db decimal results) (redactPii env.db request.ticket) out
      meters) : Bill decimal env request results (answer out) meters := by
  have hcollect : collect env.db decimal results = ⟨promptTotal env.db decimal results,
      completionTotal env.db decimal results, results.length⟩ := collect_eq env.db decimal results
  rw [hcollect] at h
  cases h with
  | dropped exc => exact .raised _
  | cutShort exc meters hcut => exact .cutShort _ meters hcut
  | billed resp promptTokens completionTokens source htokens hprompt hcompletion hcost =>
    rw [tokenUsage] at htokens
    by_cases husage : promptTotal env.db decimal results = 0 ∧
        completionTotal env.db decimal results = 0
    · obtain ⟨hp0, hc0⟩ := husage
      rw [if_neg (by simp [UsageCollector.hasUsage, hp0, hc0])] at htokens
      cases hp : countTokens env.db env.encodingFor (redactPii env.db request.ticket)
          env.settings.llmModel with
      | error exc =>
        rw [hp] at htokens
        cases htokens
      | ok p =>
        cases hc : countTokens env.db env.encodingFor (resp.reply.getD "")
            env.settings.llmModel with
        | error exc =>
          rw [hp, hc] at htokens
          cases htokens
        | ok c =>
          rw [hp, hc] at htokens
          cases htokens
          exact .estimated resp p c hscan hp0 hc0 hp hc hcost
    · have hreported : promptTotal env.db decimal results ≠ 0 ∨
          completionTotal env.db decimal results ≠ 0 := by
        omega
      rw [if_pos (by simpa [UsageCollector.hasUsage] using hreported)] at htokens
      cases htokens
      exact .reported resp hscan hreported hprompt hcompletion
        (hcost.trans (estimateCost_sum env.db decimal results _ _))

end

section Live

variable {G ι : Type} [DecidableEq ι] {env : Env} {client : ChatClient} {decimal : Char → ℕ}
  {request : ι → ResolveRequest env.db} {tr : List (ι × Event (liveSig G))}
  {pool' : ι → Program (liveSig G) Exc (Except HttpError ResolveResponse)}

def llmResults (i : ι) (tr : List (ι × Event (liveSig G))) : List LLMResult :=
  (ownTrace i tr).filterMap llmResult?

def liveEvents (i : ι) (tr : List (ι × Event (liveSig G))) : List ServiceEvent :=
  (ownTrace i tr).filterMap liveService?

def liveMark? : Event (liveSig G) → Option (Option UsageCollector)
  | ⟨.inl (.inr _), _⟩ => some none
  | ⟨.inr .usage, collector⟩ => some (some collector)
  | _ => none

private theorem liveMark_of_llmResult {e : Event (liveSig G)} {result : LLMResult}
    (h : llmResult? e = some result) : liveMark? e = some none := by
  obtain ⟨o, r⟩ := e
  rcases o with (o | o | o) | o
  · cases h
  · rfl
  · cases h
  · cases h

private theorem eq_usage_of_liveMark {e : Event (liveSig G)} {collector : UsageCollector}
    (h : liveMark? e = some (some collector)) : e = ⟨.inr .usage, collector⟩ := by
  obtain ⟨o, r⟩ := e
  rcases o with (o | o) | o
  · cases h
  · cases h
  · cases o <;> cases h
    rfl

private theorem llmResults_of_marks {events : List (Event (liveSig G))}
    (h : events.filterMap liveMark? = []) : events.filterMap llmResult? = [] := by
  refine List.filterMap_eq_nil_iff.mpr fun e he => ?_
  cases hresult : llmResult? e with
  | none => rfl
  | some result =>
    have hmark := liveMark_of_llmResult hresult
    rw [List.filterMap_eq_nil_iff.mp h e he] at hmark
    cases hmark

private theorem llmResults_of_hides {collector collector' : UsageCollector}
    {events own : List (Event (liveSig G))}
    (h : (collecting env.db decimal).Hides collector events own collector') :
    own.filterMap llmResult? = events.filterMap llmResult? :=
  h.filterMap fun _ _ _ hr => (collecting_answered hr).1

private theorem collected_of_marks {events own : List (Event (liveSig G))}
    {marks : List (Option UsageCollector)} {collector last : UsageCollector}
    (h : (collecting env.db decimal).Hides ⟨0, 0, 0⟩ events own last)
    (hmarks : events.filterMap liveMark? = marks ++ [some collector]) :
    collector = collect env.db decimal (own.filterMap llmResult?) := by
  obtain ⟨before, rest, rfl, -, hrest⟩ := List.filterMap_eq_append_iff.mp hmarks
  obtain ⟨idle, e, after, rfl, -, he, hafter⟩ := List.filterMap_eq_cons_iff.mp hrest
  obtain rfl := eq_usage_of_liveMark he
  rw [← List.append_assoc] at h
  obtain ⟨mid, own₁, own₂, rfl, hbefore, hread⟩ := h.split
  cases hread with
  | performed hr _ => cases hr
  | answered hr hlast =>
    obtain rfl := Option.some.inj hr
    rw [List.filterMap_append, llmResults_of_hides hlast, llmResults_of_marks hafter,
      List.append_nil]
    exact collected_of_hides hbefore

private theorem exec_of_live
    (hrun : Interleaves (fun i => resolveCollecting decimal env client (request i)) tr pool')
    {i : ι} {out : Except HttpError ResolveResponse} (hout : (pool' i).outcome = some (.ok out)) :
    ∃ (graph : CaseState → GraphProgram CaseState) (calls : List CallEvent)
      (out' : Except Exc ResolveResponse) (events : List (Event (liveSig G)))
      (last : UsageCollector),
      Exec (resolveCase env graph (request i)) calls out' ∧ out = answer out' ∧
      (collecting env.db decimal).Hides ⟨0, 0, 0⟩ events (ownTrace i tr) last ∧
      metered (serviceEvents calls) = metered (liveEvents i tr) ∧
      calls.filterMap callMark? = events.filterMap liveMark? := by
  obtain ⟨events, last, hides, hlive⟩ := exec_keep_iff.mp ((hrun.steps i).exec hout)
  obtain ⟨routed, hseen, hexec⟩ := exec_adapt_iff.mp hlive
  obtain ⟨source, out', -, hcase, hanswer⟩ := route_refines hexec
  refine ⟨_, _, out', events, last, hcase, Except.ok.inj hanswer, hides, ?_, ?_⟩
  · have hown : (ownTrace i tr).filterMap (fun e => (liveService? e).bind meter?) =
        events.filterMap fun e => (liveService? e).bind meter? := by
      refine hides.filterMap fun o r s hr => ?_
      obtain ⟨read, hread, -⟩ := (collecting_answered hr).2
      rw [hread]
      rfl
    have hrouted : events.filterMap (fun e => (liveService? e).bind meter?) =
        routed.filterMap fun e => (callEvent? e).bind fun e => e.right?.bind meter? := by
      refine filterMap_seen (fun o r => ?_) hseen
      rcases o with (o | o) | o <;> rfl
    rw [metered, metered, liveEvents, serviceEvents, callEvents, List.filterMap_filterMap,
      List.filterMap_filterMap, List.filterMap_filterMap, hown, hrouted]
  · rw [callEvents, List.filterMap_filterMap]
    refine (filterMap_seen (fun o r => ?_) hseen).symm
    rcases o with (o | o) | o
    · rfl
    · cases o <;> rfl
    · cases o <;> rfl

/-- Once some requests have all been answered, with a response or with an error, the counters of
the server have been incremented by their bills: by what the calls of the chat model of each
reported and cost, whatever order the calls of different requests came in. -/
theorem bills_of_live [Fintype ι]
    (hrun : Interleaves (fun i => resolveCollecting decimal env client (request i)) tr pool')
    {out : ι → Except HttpError ResolveResponse}
    (hended : ∀ i, (pool' i).outcome = some (.ok (out i))) :
    ∃ meters : ι → Multiset Metric,
      metered ((tr.map Prod.snd).filterMap liveService?) = ∑ i, meters i ∧
      ∀ i, Bill decimal env (request i) (llmResults i tr) (out i) (meters i) := by
  refine ⟨fun i => metered (liveEvents i tr), ?_, fun i => ?_⟩
  · rw [← sum_ownTrace (fun tr => metered (tr.filterMap liveService?)) rfl]
    · rfl
    · intro tr₁ tr₂
      rw [List.filterMap_append, metered_append]
  obtain ⟨graph, calls, out', events, last, hcase, hanswer, hides, hmetered, hmarks⟩ :=
    exec_of_live hrun (hended i)
  rw [filterMap_callMark hcase] at hmarks
  show Bill decimal env (request i) (llmResults i tr) (out i) (metered (liveEvents i tr))
  rw [← hmetered, hanswer]
  cases metered_of_exec hcase with
  | refused out' hscan hgraph hnone hzero hcost =>
    rw [hzero]
    cases out' with
    | error exc => exact .raised _
    | ok resp =>
      refine .refused resp hscan ?_ (hcost resp rfl)
      rw [← usages, hgraph, hnone] at hmarks
      rw [llmResults, llmResults_of_hides hides]
      exact llmResults_of_marks hmarks.symm
  | unread exc _ hzero =>
    rw [hzero]
    exact .raised _
  | read out' collector hscan hone hcharged =>
    rw [← usages, hone] at hmarks
    obtain rfl := collected_of_marks hides hmarks.symm
    exact bill_of_charged hscan hcharged

end Live

def asciiDecimal (c : Char) : ℕ := c.toNat - 48

def collectingRoutes (second : Bool) :
    Program (liveSig Unit) Exc (Except HttpError ResolveResponse) :=
  resolveCollecting asciiDecimal testEnv testClient (twoRequests second)

def serveBilled : List (Bool × Event (liveSig Unit)) :=
  (runAll (Server.liveHandler {} (.ok ()) findNothing (some bothShapes)) collectingRoutes
    [false, true] (.start .empty)).1

private theorem interleaves_serveBilled :
    ∃ pool', Interleaves collectingRoutes serveBilled pool' ∧
      ∃ out : Bool → Except HttpError ResolveResponse,
        ∀ i, (pool' i).outcome = some (.ok (out i)) := by
  obtain ⟨pool', hinter, hended, -⟩ := interleaves_runAll
    (Server.liveHandler {} (.ok ()) findNothing (some bothShapes)) collectingRoutes
    (by decide : [false, true].Nodup) (.start .empty)
  have hall : ∀ i, ∃ out, (pool' i).outcome = some (.ok out) := by
    intro i
    have hout : ∃ before after, [false, true] = before ++ i :: after := by
      cases i
      · exact ⟨[], [true], rfl⟩
      · exact ⟨[false], [], rfl⟩
    obtain ⟨before, after, hsplit⟩ := hout
    obtain ⟨events, last, -, hlive⟩ := exec_keep_iff.mp (exec_run
      (Server.liveHandler {} (.ok ()) findNothing (some bothShapes)) (collectingRoutes i) _)
    obtain ⟨routed, -, hexec⟩ := exec_adapt_iff.mp hlive
    obtain ⟨source, out', -, -, hanswer⟩ := route_refines hexec
    exact ⟨answer out', (hended before i after hsplit).trans (congrArg some hanswer)⟩
  choose out hout using hall
  exact ⟨pool', hinter, out, hout⟩

theorem bills_of_live_serve :
    ∃ (out : Bool → Except HttpError ResolveResponse) (meters : Bool → Multiset Metric),
      metered ((serveBilled.map Prod.snd).filterMap liveService?) = ∑ i, meters i ∧
      ∀ i, Bill asciiDecimal testEnv (twoRequests i) (llmResults i serveBilled) (out i)
        (meters i) := by
  obtain ⟨pool', hinter, out, hended⟩ := interleaves_serveBilled
  obtain ⟨meters, hmeters, hbills⟩ := bills_of_live hinter hended
  exact ⟨out, meters, hmeters, hbills⟩

-- the second request is metered for four calls
example : Metric.tokens "prompt" 480 ∈
    metered ((serveBilled.map Prod.snd).filterMap liveService?) := by decide +kernel

end TicketWarden.Service
