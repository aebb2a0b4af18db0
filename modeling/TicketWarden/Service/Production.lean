/- Module: TicketWarden/Service/Production
   source: apps/api/src/graph/llm.py, apps/api/src/main.py
   digest: A server with the production client is a server, and what it sends to the chat
   model. -/

import TicketWarden.Graph.ChatClient
import TicketWarden.Service.Lifetime

set_option autoImplicit false
set_option relaxedAutoImplicit false

namespace TicketWarden.Service

open TicketWarden.Graph Effects Guardrails Observability Python Storage Store

section Asked

variable {G ι : Type} [DecidableEq ι] {env : Env} {request : ι → ResolveRequest env.db}
  {pool' : ι → Program (routeSig G) Exc (Except HttpError ResolveResponse)}
  {tr : List (ι × RouteEvent G)}

def graphTrace (i : ι) (tr : List (ι × RouteEvent G)) : List GraphEvent :=
  graphEvents (callEvents (ownTrace i tr))

private theorem exists_graphRun
    (h : Interleaves (fun i => resolve env (fun _ => caseGraph env) (request i)) tr pool')
    (i : ι) : graphTrace i tr = [] ∨
      isInjection env.db (redactPii env.db (request i).ticket) = false ∧
      ∃ ticketId rest out, Exec (caseGraph env (initialState ticketId
        (redactPii env.db (request i).ticket) (request i).orderId))
        (graphTrace i tr ++ rest) out := by
  obtain ⟨source, rest, out, hcase, -⟩ := exists_answer h i
  rw [ownTrace_caseTrace] at hcase
  have happend : graphEvents (callEvents (ownTrace i tr) ++ rest) =
      graphTrace i tr ++ graphEvents rest := List.filterMap_append
  obtain ⟨_, hex, _, _, ⟨_, _, hnone, _⟩ | ⟨hscan, gout, hgraph, _⟩⟩ := exec_resolveCase hcase
  · rw [happend] at hnone
    exact .inl (List.append_eq_nil_iff.mp hnone).1
  · rw [happend] at hgraph
    cases source with
    | ok graph => exact .inr ⟨hscan, _, _, gout, hgraph⟩
    | error exc => exact .inl (List.append_eq_nil_iff.mp (exec_fail_iff.mp hgraph).1).1

/-- What a request asks of the model, at any moment: only about its redacted ticket and for
known categories, and no more often than the review cap and the recursion limit allow. -/
structure Asked (env : Env) (ticket : String) (events : List GraphEvent) : Prop where
  forwarded : events ≠ [] → isInjection env.db ticket = false
  tickets : ∀ ticket' ∈ events.filterMap modelTicket?, ticket' = ticket
  categories : ∀ category ∈ events.filterMap askedCategory?, category ∈ TicketWarden.categories
  passes : events.countP isModelCall ≤ 2 + 2 * passes env.settings 0
  steps : events.countP isModelCall ≤ env.recursionLimit

private theorem asked_of_interleaves
    (h : Interleaves (fun i => resolve env (fun _ => caseGraph env) (request i)) tr pool')
    (i : ι) : Asked env (redactPii env.db (request i).ticket) (graphTrace i tr) := by
  rcases exists_graphRun h i with hnone | ⟨hscan, ticketId, rest, out, hgraph⟩
  · rw [hnone]
    exact ⟨fun hne => absurd rfl hne, by simp, by simp, Nat.zero_le _, Nat.zero_le _⟩
  · have hrun := graphRun_of_exec rfl hgraph
    have hcount : (graphTrace i tr).countP isModelCall ≤
        (graphTrace i tr ++ rest).countP isModelCall :=
      (List.sublist_append_left _ rest).countP_le
    have hsub : ∀ {γ : Type} (f : GraphEvent → Option γ) (b : γ),
        b ∈ (graphTrace i tr).filterMap f → b ∈ (graphTrace i tr ++ rest).filterMap f := by
      intro γ f b hb
      rw [List.filterMap_append]
      exact List.mem_append_left _ hb
    exact {
      forwarded := fun _ => hscan
      tickets := fun ticket hticket => hrun.tickets ticket (hsub _ _ hticket)
      categories := fun category hcategory => hrun.categories category (hsub _ _ hcategory)
      passes := hcount.trans hrun.modelCalls
      steps := hcount.trans (exec_runGraph_modelCalls hgraph) }

end Asked

abbrev liveSig (G : Type) : Signature := ((appSig G).sum chatSig).sum serviceSig

section Live

variable {G ι : Type} {env : Env}

def routeAdapter (client : ChatClient) : Adapter (routeSig G) (liveSig G) :=
  client.adapter.right.left

/-- The route `/resolve` of a server with the production client. -/
def resolveLive (env : Env) (client : ChatClient) (request : ResolveRequest env.db) :
    Program (liveSig G) Exc (Except HttpError ResolveResponse) :=
  (resolve env (fun _ => caseGraph env) request).adapt (routeAdapter client)

abbrev LiveStep (client : ChatClient) (tool : Shop → String → Dict → Except Exc Json) :
    World (liveSig G) (Server G) :=
  World.adapt (ServerStep tool) (routeAdapter client)

def liveId? : Event (liveSig G) → Option String
  | ⟨.inr .uuidHex, hex⟩ => some (ticketIdOf hex)
  | _ => none

/-- The ids that requests draw are new to the database and all different. -/
structure FreshLive [DecidableEq ι] (db : Database) (tr : List (ι × Event (liveSig G))) : Prop where
  fresh : ∀ i, ∀ ticketId ∈ (ownTrace i tr).filterMap liveId?, db.Fresh ticketId
  distinct : ∀ i j, i ≠ j → ∀ ticketId ∈ (ownTrace i tr).filterMap liveId?,
    ticketId ∉ (ownTrace j tr).filterMap liveId?

/-- The states that a server with the production client comes to from some state. -/
inductive ReachesLive (env : Env) (client : ChatClient)
    (tool : Shop → String → Dict → Except Exc Json) (s₀ : Server G) : Server G → Prop
  | refl : ReachesLive env client tool s₀ s₀
  | served {ι : Type} [DecidableEq ι] {s s' : Server G} {request : ι → ResolveRequest env.db}
      {tr : List (ι × Event (liveSig G))}
      {pool' : ι → Program (liveSig G) Exc (Except HttpError ResolveResponse)} :
      ReachesLive env client tool s₀ s →
      Interleaves (fun i => resolveLive env client (request i)) tr pool' →
      World.Runs (LiveStep client tool) s (tr.map Prod.snd) s' →
      FreshLive s.file.contents tr → ReachesLive env client tool s₀ s'
  | restarted {s : Server G} : ReachesLive env client tool s₀ s →
      ReachesLive env client tool s₀ (.start s.file)

variable {client : ChatClient} {tool : Shop → String → Dict → Except Exc Json} {s₀ s : Server G}

private theorem FreshLive.freshIds [DecidableEq ι] {db : Database}
    {events : List (ι × RouteEvent G)}
    {tr : List (ι × Event (liveSig G))} (h : FreshLive db tr)
    (hseen : (routeAdapter client).AllSeen events tr) : FreshIds db (caseTrace events) := by
  have hids : ∀ i, drawnIds (ownTrace i (caseTrace events)) =
      (ownTrace i tr).filterMap liveId? := by
    intro i
    have hread : (ownTrace i tr).filterMap liveId? = (ownTrace i events).filterMap fun e =>
        (callEvent? e).bind fun e => e.right?.bind drawnId? := by
      refine filterMap_seen (fun o r => ?_) (hseen.ownTrace i)
      rcases o with (o | o) | o
      · rfl
      · rfl
      · cases o <;> rfl
    rw [hread, ownTrace_caseTrace, drawnIds, serviceEvents, callEvents, List.filterMap_filterMap,
      List.filterMap_filterMap]
  constructor
  · intro i
    rw [hids]
    exact h.fresh i
  · intro i j
    rw [hids, hids]
    exact h.distinct i j

/-- Whatever holds of all servers holds of those with the production client. -/
theorem reaches_of_live (h : ReachesLive env client tool s₀ s) :
    Reaches env (fun _ => caseGraph env) tool s₀ s := by
  induction h with
  | refl => exact .refl
  | served _ hinter hworld hfresh ih =>
    obtain ⟨events, pool'', hseen, hinter', -⟩ := interleaves_adapt hinter
    exact .served ih hinter' (hworld.of_adapt hseen.map_snd) (hfresh.freshIds hseen)
  | restarted _ ih => exact .restarted ih

def livePrompt? : Event (liveSig G) → Option Prompt
  | ⟨.inl (.inr o), r⟩ => prompt? ⟨o, r⟩
  | _ => none

/-- The prompts that a request has sent to the chat model so far. -/
def prompts [DecidableEq ι] (i : ι) (tr : List (ι × Event (liveSig G))) : List Prompt :=
  (ownTrace i tr).filterMap livePrompt?

private theorem prompts_eq [DecidableEq ι] {events : List (ι × RouteEvent G)}
    {tr : List (ι × Event (liveSig G))} (h : (routeAdapter client).AllSeen events tr) (i : ι) :
    prompts i tr = (graphTrace i events).filterMap client.promptFor? := by
  have hread : prompts i tr = (ownTrace i events).filterMap fun e =>
      (callEvent? e).bind fun e => e.left?.bind client.promptFor? := by
    refine filterMap_seen (fun o r => ?_) (h.ownTrace i)
    rcases o with (o | o) | o
    · rfl
    · cases o <;> rfl
    · rfl
  rw [hread, graphTrace, graphEvents, callEvents, List.filterMap_filterMap,
    List.filterMap_filterMap]

/-- Whatever requests are answered at once, all that one of them sends to the chat model begins
with the rule of the fence and has its redacted ticket in the fence, where it is read back as it
is unless it has a closing marker; nothing is sent for a refused ticket; and there are at most two
calls and two for each pass of the review loop. -/
theorem prompts_of_live [DecidableEq ι] {request : ι → ResolveRequest env.db}
    {tr : List (ι × Event (liveSig G))}
    {pool' : ι → Program (liveSig G) Exc (Except HttpError ResolveResponse)}
    (h : Interleaves (fun i => resolveLive env client (request i)) tr pool') (i : ι) :
    let ticket := redactPii env.db (request i).ticket
    (∀ prompt ∈ prompts i tr, isInjection env.db ticket = false ∧ Spotlighted ticket prompt ∧
        (readFence prompt.human = some ("\n" ++ ticket ++ "\n") ↔
          ¬ caseClose.toList <:+: ticket.toList)) ∧
      (prompts i tr).length ≤ 2 + 2 * (max 1 env.settings.maxReviewIterations).toNat ∧
      (prompts i tr).length ≤ env.recursionLimit := by
  intro ticket
  obtain ⟨events, pool'', hseen, hinter, -⟩ := interleaves_adapt h
  have hasked := asked_of_interleaves hinter i
  rw [prompts_eq hseen, ChatClient.length_prompts]
  refine ⟨fun prompt hprompt => ?_, ?_, hasked.steps⟩
  · obtain ⟨e, he, hfor⟩ := List.mem_filterMap.mp hprompt
    have hspotlighted : Spotlighted ticket prompt := ChatClient.spotlighted_promptFor hfor
      (fun category hcategory => hasked.categories category
        (List.mem_filterMap.mpr ⟨e, he, hcategory⟩))
      (fun ticket' hticket => hasked.tickets ticket' (List.mem_filterMap.mpr ⟨e, he, hticket⟩))
    refine ⟨hasked.forwarded (List.ne_nil_of_mem he), hspotlighted, ?_⟩
    rw [hspotlighted.fenced]
    exact readFence_fence_iff ticket
  · have hpasses := hasked.passes
    rwa [passes, Int.sub_zero] at hpasses

def Server.liveHandler (llm : FakeLLM) (built : Except Exc G)
    (tool : Shop → String → Dict → Except Exc Json) (result : Option LLMResult) :
    Handler (liveSig G) (Server G)
  | .inl (.inl o), s => Server.handler llm built tool (.inl (.inl o)) s
  | .inl (.inr (.inl (.classification _ _))), s => (⟨result, .ok llm.category⟩, s)
  | .inl (.inr (.inl (.toolCalls _))), s => (⟨result, .ok (some llm.toolRequests)⟩, s)
  | .inl (.inr (.inl (.content _))), s =>
    (⟨result, llm.draftText.map fun text => some (.str text)⟩, s)
  | .inl (.inr (.inl (.verdict _ _))), s =>
    (⟨result, llm.verdict.map fun v => (v.approved, v.feedback.getD "")⟩, s)
  | .inl (.inr (.inr o)), s => Server.handler llm built tool (.inl (.inr o)) s
  | .inr o, s => Server.handler llm built tool (.inr o) s

private theorem step_liveHandler (client : ChatClient) (llm : FakeLLM) (built : Except Exc G)
    (result : Option LLMResult) (o : (liveSig G).Op) (s : Server G) :
    LiveStep client tool s ⟨o, (Server.liveHandler llm built tool result o s).1⟩
      (Server.liveHandler llm built tool result o s).2 := by
  rintro e₀ hseen
  generalize hevent : (⟨o, (Server.liveHandler llm built tool result o s).1⟩ :
    Event (liveSig G)) = e at hseen
  cases hseen with
  | mk o₀ r =>
    rcases o₀ with (o₀ | o₀) | o₀
    · cases hevent
      exact step_handler llm built _ s
    · cases o₀ with
      | callTool name args =>
        cases hevent
        exact step_handler llm built _ s
      | _ =>
        cases hevent
        exact .graphEvent s ⟨_, _⟩ fun _ _ => nofun
    · cases hevent
      exact step_handler llm built _ s

end Live

def testClient : ChatClient := ⟨asciiData, "function_calling", fun _ => "[]", fun _ => ""⟩

def liveRoutes (second : Bool) :
    Program (liveSig Unit) Exc (Except HttpError ResolveResponse) :=
  resolveLive testEnv testClient (twoRequests second)

def serveLive (llm : FakeLLM) (requests : List Bool) (s : Server Unit := .start .empty) :
    List (Bool × Event (liveSig Unit)) × Server Unit :=
  runAll (Server.liveHandler llm (.ok ()) findNothing none) liveRoutes requests s

private theorem interleaves_serveLive (llm : FakeLLM) {requests : List Bool}
    (hnodup : requests.Nodup)
    (s : Server Unit) : ∃ pool', Interleaves liveRoutes (serveLive llm requests s).1 pool' := by
  obtain ⟨pool', hinter, -⟩ := interleaves_runAll _ liveRoutes hnodup s
  exact ⟨pool', hinter⟩

private theorem runs_serveLive (llm : FakeLLM) (requests : List Bool) (s : Server Unit) :
    World.Runs (LiveStep testClient findNothing) s ((serveLive llm requests s).1.map Prod.snd)
      (serveLive llm requests s).2 :=
  World.runs_runAll (step_liveHandler testClient llm (.ok ()) none) _ _ _

private theorem freshLive_serveLive : FreshLive (Server.start .empty : Server Unit).file.contents
    (serveLive {} [false, true]).1 where
  fresh _ _ _ := ⟨fun _ h => absurd h List.not_mem_nil, fun _ h => absurd h List.not_mem_nil,
    fun _ h => absurd h List.not_mem_nil⟩
  distinct := by decide +kernel

theorem reaches_of_live_serve : Reaches testEnv (fun _ => caseGraph testEnv) findNothing
    (.start .empty) (serveLive {} [false, true]).2 := by
  obtain ⟨pool', hinter⟩ := interleaves_serveLive {} (by decide : [false, true].Nodup)
    (.start .empty)
  exact reaches_of_live (.served .refl hinter (runs_serveLive _ _ _) freshLive_serveLive)

theorem prompts_of_live_serve :
    let tr := (serveLive {} [false, true]).1
    let ticket := redactPii asciiData (twoRequests true).ticket
    (∀ prompt ∈ prompts true tr, isInjection asciiData ticket = false ∧
        Spotlighted ticket prompt ∧
          (readFence prompt.human = some ("\n" ++ ticket ++ "\n") ↔
            ¬ caseClose.toList <:+: ticket.toList)) ∧
      (prompts true tr).length ≤ 2 + 2 * (max 1 (2 : ℤ)).toNat ∧
      (prompts true tr).length ≤ 25 ∧ (prompts true tr).length = 4 := by
  intro tr ticket
  obtain ⟨pool', hinter⟩ := interleaves_serveLive {} (by decide : [false, true].Nodup)
    (.start .empty)
  obtain ⟨hprompts, hpasses, hsteps⟩ := prompts_of_live hinter true
  exact ⟨hprompts, hpasses, hsteps, by decide +kernel⟩

end TicketWarden.Service
