/- Module: TicketWarden/Service/Unconfigured
   source: apps/api/src/main.py, apps/api/src/service.py, apps/api/src/graph/llm.py
   digest: What a server answers whose graph cannot be compiled, and which servers these are. -/

import TicketWarden.Graph.Provider
import TicketWarden.Service.Answered
import TicketWarden.Service.LazyGraph

set_option autoImplicit false
set_option relaxedAutoImplicit false

namespace TicketWarden.Service

open TicketWarden.Graph Effects Guardrails Observability Python Storage Store

section

variable {G : Type} {env : Env} {invoke : G → CaseState → GraphProgram CaseState}
  {request : ResolveRequest env.db} {exc : Exc}

/-- Events of a request that finds no graph and can compile none. -/
def Uncompiled (exc : Exc) (tr : List (RouteEvent G)) : Prop :=
  (∀ cached ∈ reads tr, cached = none) ∧ ∀ built ∈ compilations tr, built = .error exc

def unconfigured (exc : Exc) : Handler (routeSig G) Unit
  | .inl (.inl .readGraph), _ => (none, ())
  | .inl (.inl .compileGraph), _ => (.error exc, ())
  | .inl (.inl (.storeGraph _)), _ => ((), ())
  | .inl (.inr o), _ => ((FakeLLM.handler {} "" (.inl o) ()).1, ())
  | .inr o, _ => ((FakeLLM.handler {} "" (.inr o) ()).1, ())

private theorem uncompiled_run {α : Type} (p : Program (routeSig G) Exc α) :
    Uncompiled exc (p.run (unconfigured exc) ()).trace := by
  have hall : ∀ e ∈ (p.run (unconfigured exc) ()).trace,
      (∀ cached ∈ (appEvent? e).bind AppEvent.read?, cached = none) ∧
        ∀ built ∈ (appEvent? e).bind AppEvent.compiled?, built = .error exc := by
    refine run_forall (fun o s => ?_) p ()
    rcases o with (o | o) | o
    · cases o with
      | readGraph => exact ⟨fun _ h => (Option.some.inj h).symm, fun _ h => (nomatch h)⟩
      | compileGraph => exact ⟨fun _ h => (nomatch h), fun _ h => (Option.some.inj h).symm⟩
      | storeGraph graph => exact ⟨fun _ h => (nomatch h), fun _ h => (nomatch h)⟩
    · exact ⟨fun _ h => (nomatch h), fun _ h => (nomatch h)⟩
    · exact ⟨fun _ h => (nomatch h), fun _ h => (nomatch h)⟩
  constructor
  · intro cached hcached
    obtain ⟨e', he', hread⟩ := List.mem_filterMap.mp hcached
    obtain ⟨e, he, happ⟩ := List.mem_filterMap.mp he'
    exact (hall e he).1 cached (by rw [happ]; exact hread)
  · intro built hbuilt
    obtain ⟨e', he', hcompiled⟩ := List.mem_filterMap.mp hbuilt
    obtain ⟨e, he, happ⟩ := List.mem_filterMap.mp he'
    exact (hall e he).2 built (by rw [happ]; exact hcompiled)

theorem Uncompiled.append {tr₁ tr₂ : List (RouteEvent G)} (h₁ : Uncompiled exc tr₁)
    (h₂ : Uncompiled exc tr₂) : Uncompiled exc (tr₁ ++ tr₂) := by
  unfold Uncompiled reads compilations at *
  rw [appEvents_append, List.filterMap_append, List.filterMap_append]
  exact ⟨fun cached hcached => (List.mem_append.mp hcached).elim (h₁.1 cached) (h₂.1 cached),
    fun built hbuilt => (List.mem_append.mp hbuilt).elim (h₁.2 built) (h₂.2 built)⟩

private theorem exec_of_refused {graph graph' : CaseState → GraphProgram CaseState}
    {tr : List CallEvent}
    {out : Except Exc ResolveResponse} (hrefused : Refuses request)
    (h : Exec (resolveCase env graph request) tr out) :
    Exec (resolveCase env graph' request) tr out := by
  rw [← resolveWith_eq] at h ⊢
  cases exec_resolveWith_iff.mp h with
  | refused started hex reason hscan hrefuse =>
    exact exec_resolveWith_iff.mpr (.refused started hex reason hscan hrefuse)
  | settled started hex hscan _ _ =>
    rw [Refuses, hscan] at hrefused
    cases hrefused

private theorem exec_uncompiled {tr : List (RouteEvent G)}
    {out : Except Exc (Except HttpError ResolveResponse)}
    (h : Exec (resolve env invoke request) tr out) (huncompiled : Uncompiled exc tr) :
    ∃ out', Exec (resolveCase env (fun _ => .fail exc) request) (callEvents tr) out' ∧
      out = .ok (answer out') := by
  obtain ⟨source, out', hsource, hcase, rfl⟩ := route_refines h
  refine ⟨out', ?_, rfl⟩
  by_cases hrefused : Refuses request
  · exact exec_of_refused hrefused hcase
  · cases source with
    | ok graph =>
      rcases hsource.origin hrefused with hread | hcompiled
      · cases huncompiled.1 _ hread
      · cases huncompiled.2 _ hcompiled
    | error exc' =>
      cases huncompiled.2 _ (hsource.failure hrefused)
      exact hcase

/-- What the degraded response of a case is. -/
structure Degraded (exc : Exc) (resp : ResolveResponse) : Prop where
  decision : resp.decision = Decision.escalate.value
  reply : resp.reply = none
  reason : resp.escalationReason = some ("Graph execution error: " ++ exc.message)
  category : resp.category = none
  iterations : resp.iterations = 0
  toolCalls : resp.toolCalls = []

private theorem exec_failed {tr : List CallEvent} {out : Except Exc ResolveResponse}
    (h : Exec (resolveCase env (fun _ => .fail exc) request) tr out) :
    graphEvents tr = [] ∧
      ∀ resp, out = .ok resp → ¬ Refuses request → Degraded exc resp := by
  obtain ⟨started, hex, tr', hservice, hcase⟩ := exec_resolveCase h
  rcases hcase with ⟨reason, hscan, hnone, -⟩ | ⟨-, gout, hgraph, hfinish⟩
  · refine ⟨hnone, fun resp _ hneeded => absurd ?_ hneeded⟩
    rw [Refuses, isInjection, hscan]
  · obtain ⟨hnone, rfl⟩ := exec_fail_iff.mp hgraph
    refine ⟨hnone, fun resp hresp _ => ?_⟩
    subst hresp
    obtain ⟨latencyMs, costUsd, traceUrl, -, rfl⟩ := exec_finish_ok hfinish
    rw [outboundGate_of_escalated rfl]
    exact ⟨rfl, rfl, rfl, rfl, rfl, rfl⟩

private theorem exec_failed_isOk {specials : String → List String}
    (hspecials : Tiktoken env.encodingFor specials) {tr : List CallEvent}
    {out : Except Exc ResolveResponse}
    (h : Exec (resolveCase env (fun _ => .fail exc) request) tr out)
    (hcommits : ∀ e ∈ serviceEvents tr, Commits e)
    (husage : ∀ collector ∈ usages tr, AcceptedUsage collector)
    (hcountable : Countable env specials (redactPii env.db request.ticket)) :
    out.isOk = true := by
  obtain ⟨started, hex, tr', hservice, hcase⟩ := exec_resolveCase h
  have hcommits' : ∀ e ∈ tr', Commits e := by
    intro e he
    apply hcommits
    rw [hservice]
    simp [he]
  rcases hcase with ⟨reason, -, -, hrefuse⟩ | ⟨-, gout, hgraph, hfinish⟩
  · exact ((proceeds_refuse _ _ _ _ _).returns_iff hrefuse hcommits').mpr trivial
  · obtain ⟨-, rfl⟩ := exec_fail_iff.mp hgraph
    obtain ⟨collector, hcollector, hout⟩ := exec_finish hfinish hcommits'
    have hreported : AcceptedUsage collector := by
      apply husage
      rw [usages, hservice]
      change collector ∈ tr'.filterMap usage?
      rw [hcollector]
      exact List.mem_singleton_self _
    rw [hout, tokenUsage_accepted_iff hspecials, outboundGate_of_escalated rfl]
    refine ⟨?_, fun call hcall => by cases hcall⟩
    split
    · exact hreported
    · exact ⟨hcountable, fun text htext => by cases htext⟩

end

section Server

variable {G ι : Type} [DecidableEq ι] {env : Env} {request : ι → ResolveRequest env.db}
  {invoke : G → CaseState → GraphProgram CaseState}
  {tool : Shop → String → Dict → Except Exc Json} {s s' : Server G}
  {pool' : ι → Program (routeSig G) Exc (Except HttpError ResolveResponse)}
  {tr : List (ι × RouteEvent G)} {exc : Exc}

private theorem uncompiled_own
    (hrun : Interleaves (fun i => resolve env invoke (request i)) tr pool')
    (hworld : World.Runs (ServerStep tool) s (tr.map Prod.snd) s') (hnone : s.graph = none)
    (hfails : ∀ built ∈ compilations (tr.map Prod.snd), built = .error exc) (i : ι) :
    Uncompiled exc (ownTrace i tr) := by
  refine ⟨fun cached hcached => ?_, fun built hbuilt => ?_⟩
  · cases cached with
    | none => rfl
    | some graph =>
      have hread := mem_filterMap_own.mpr ⟨i, hcached⟩
      rcases (reads_of_runs hworld).2 graph hread with hthere | hstored
      · rw [hnone] at hthere
        cases hthere
      · cases hfails _ (compiled_of_stored hrun hstored)
  · exact hfails built (mem_filterMap_own.mpr ⟨i, hbuilt⟩)

private theorem unconfigured_answers {specials : String → List String}
    (hspecials : Tiktoken env.encodingFor specials)
    (hrun : Interleaves (fun i => resolve env invoke (request i)) tr pool')
    (hworld : World.Runs (ServerStep tool) s (tr.map Prod.snd) s') (hnone : s.graph = none)
    (hfails : ∀ built ∈ compilations (tr.map Prod.snd), built = .error exc) (i : ι) :
    graphEvents (callEvents (ownTrace i tr)) = [] ∧
      ∀ out, (pool' i).outcome = some out →
        (∀ resp, out = .ok (.ok resp) → ¬ Refuses (request i) → Degraded exc resp) ∧
        ((∀ e ∈ serviceEvents (callEvents (ownTrace i tr)), Commits e) →
          (∀ collector ∈ usages (callEvents (ownTrace i tr)), AcceptedUsage collector) →
          Countable env specials (redactPii env.db (request i).ticket) →
            ∃ resp, out = .ok (.ok resp)) := by
  have huncompiled := uncompiled_own hrun hworld hnone hfails i
  constructor
  · have hrest := exec_run (unconfigured exc) (pool' i) ()
    obtain ⟨out', hcase, -⟩ := exec_uncompiled (.of_steps (hrun.steps i) hrest)
      (huncompiled.append (uncompiled_run _))
    have hnone := (exec_failed hcase).1
    rw [callEvents, List.filterMap_append, graphEvents, List.filterMap_append] at hnone
    exact (List.append_eq_nil_iff.mp hnone).1
  · intro out hout
    obtain ⟨out', hcase, rfl⟩ := exec_uncompiled ((hrun.steps i).exec hout) huncompiled
    refine ⟨fun resp hresp hneeded => ?_, fun hcommits husage hcountable => ?_⟩
    · cases out' with
      | error exc => cases hresp
      | ok resp' =>
        cases hresp
        exact (exec_failed hcase).2 _ rfl hneeded
    · have hok := exec_failed_isOk hspecials hcase hcommits husage hcountable
      cases out' with
      | error exc => cases hok
      | ok resp => exact ⟨resp, rfl⟩

end Server

section Key

variable {ι : Type} [DecidableEq ι] {env : Env} {request : ι → ResolveRequest env.db}
  {invoke : ChatModel → CaseState → GraphProgram CaseState}
  {tool : Shop → String → Dict → Except Exc Json} {s s' : Server ChatModel}
  {pool' : ι → Program (routeSig ChatModel) Exc (Except HttpError ResolveResponse)}
  {tr : List (ι × RouteEvent ChatModel)} {settings : ProviderSettings}

/-- A server without a key of its provider asks nothing of a model or of a tool and tells which
variable is missing; it still refuses what it has to refuse, and no request fails unless an insert
fails or its tokens cannot be billed. -/
theorem keyless_answers {specials : String → List String}
    (hspecials : Tiktoken env.encodingFor specials) (hkey : ¬ settings.RealKey)
    (hrun : Interleaves (fun i => resolve env invoke (request i)) tr pool')
    (hworld : World.Runs (ServerStep tool) s (tr.map Prod.snd) s') (hnone : s.graph = none)
    (hbuild : ∀ built ∈ compilations (tr.map Prod.snd), built = buildLlmClient settings) (i : ι) :
    graphEvents (callEvents (ownTrace i tr)) = [] ∧
      ∀ out, (pool' i).outcome = some out →
        (∀ resp, out = .ok (.ok resp) → ¬ Refuses (request i) →
          Degraded (credentialsError settings) resp) ∧
        ((∀ e ∈ serviceEvents (callEvents (ownTrace i tr)), Commits e) →
          (∀ collector ∈ usages (callEvents (ownTrace i tr)), AcceptedUsage collector) →
          Countable env specials (redactPii env.db (request i).ticket) →
            ∃ resp, out = .ok (.ok resp)) := by
  refine unconfigured_answers hspecials hrun hworld hnone (fun built hbuilt => ?_) i
  rw [hbuild built hbuilt]
  rcases buildLlmClient_cases settings with ⟨hreal, -⟩ | ⟨-, hraises⟩
  · exact absurd hreal hkey
  · exact hraises

/-- A server with a key never has a graph but one whose chat model is configured as the settings
say, and every case that is not refused is resolved with such a graph. -/
theorem keyed_answers (hkey : settings.RealKey)
    (hrun : Interleaves (fun i => resolve env invoke (request i)) tr pool')
    (hworld : World.Runs (ServerStep tool) s (tr.map Prod.snd) s')
    (hstart : ∀ model, s.graph = some model → Configured settings model)
    (hbuild : ∀ built ∈ compilations (tr.map Prod.snd), built = buildLlmClient settings) :
    (∀ model, s'.graph = some model → Configured settings model) ∧
      ∀ i out, (pool' i).outcome = some out → ¬ Refuses (request i) →
        ∃ model out', Configured settings model ∧
          Exec (resolveCase env (invoke model) (request i)) (callEvents (ownTrace i tr)) out' ∧
          out = .ok (answer out') := by
  have hbuilds : ∃ model, buildLlmClient settings = .ok model ∧ Configured settings model := by
    rcases buildLlmClient_cases settings with ⟨-, hbuilt⟩ | ⟨hnokey, -⟩
    · exact hbuilt
    · exact absurd hkey hnokey
  obtain ⟨configured, hok, hconfigured⟩ := hbuilds
  have hcompiled : ∀ model, .ok model ∈ compilations (tr.map Prod.snd) →
      Configured settings model := by
    intro model hmodel
    cases (hbuild _ hmodel).trans hok
    exact hconfigured
  constructor
  · intro model hgraph
    rcases (graph_of_runs hworld).2 model hgraph with hthere | hstored
    · exact hstart model hthere
    · exact hcompiled model (compiled_of_stored hrun hstored)
  · intro i out hout hneeded
    obtain ⟨source, out', hcase, rfl, hgraph, hraised⟩ :=
      graph_of_answered hrun hworld hout hneeded
    cases source with
    | ok model =>
      refine ⟨model, out', ?_, hcase, rfl⟩
      rcases hgraph model rfl with hthere | hbuilt
      · exact hstart model hthere
      · exact hcompiled model hbuilt
    | error exc =>
      have hbuilt := hbuild _ (mem_filterMap_own.mpr ⟨i, hraised exc rfl⟩)
      cases hbuilt.trans hok

end Key

def shippedSettings (openaiApiKey : String) : ProviderSettings where
  llmProvider := "openai"
  llmModel := "gpt-4o-mini"
  llmBaseUrl := none
  temperature := 0.2
  openaiApiKey := openaiApiKey
  groqApiKey := ""
  googleApiKey := ""
  nvidiaApiKey := ""
  anthropicApiKey := ""
  ollamaBaseUrl := "http://localhost:11434/v1"

def serveKeyed (openaiApiKey : String) : List (Bool × RouteEvent ChatModel) × Server ChatModel :=
  serve (buildLlmClient (shippedSettings openaiApiKey)) [false, true]

theorem keyless_answers_serve :
    ∃ pool' : Bool → Program (routeSig ChatModel) Exc (Except HttpError ResolveResponse),
      (∀ i, (pool' i).outcome.isSome) ∧
      ∀ i, graphEvents (callEvents (ownTrace i (serveKeyed "sk-...").1)) = [] ∧
        ∀ out, (pool' i).outcome = some out →
          (∀ resp, out = .ok (.ok resp) → ¬ Refuses (twoRequests i) →
            Degraded (credentialsError (shippedSettings "sk-...")) resp) ∧
          ((∀ e ∈ serviceEvents (callEvents (ownTrace i (serveKeyed "sk-...").1)), Commits e) →
            (∀ collector ∈ usages (callEvents (ownTrace i (serveKeyed "sk-...").1)),
              AcceptedUsage collector) →
            Countable testEnv (fun _ => []) (redactPii testEnv.db (twoRequests i).ticket) →
              ∃ resp, out = .ok (.ok resp)) := by
  have hspecials : Tiktoken testEnv.encodingFor fun _ => [] :=
    ⟨fun _ _ htoken => absurd htoken List.not_mem_nil, fun _ _ hnone => by cases hnone⟩
  have hkey : ¬ (shippedSettings "sk-...").RealKey := by decide +kernel
  obtain ⟨pool', hrun, hended⟩ := interleaves_serve
    (buildLlmClient (shippedSettings "sk-...")) [false, true]
  have hall : ∀ i, (pool' i).outcome.isSome := by
    intro i
    cases i with
    | false => rw [hended [] false [true] rfl]; rfl
    | true => rw [hended [false] true [] rfl]; rfl
  exact ⟨pool', hall, keyless_answers hspecials hkey hrun (runs_serve _ _) rfl
    (compilations_handler _ _ _ _ _ _)⟩

theorem keyed_answers_serve :
    (∀ model, (serveKeyed "sk-live").2.graph = some model →
        Configured (shippedSettings "sk-live") model) ∧
      ∃ model out', Configured (shippedSettings "sk-live") model ∧
        Exec (resolveCase testEnv (caseGraph testEnv) (twoRequests true))
          (callEvents (ownTrace true (serveKeyed "sk-live").1)) out' := by
  have hkey : (shippedSettings "sk-live").RealKey := by decide +kernel
  have hneeded : ¬ Refuses (twoRequests true) := by decide +kernel
  obtain ⟨pool', hrun, hended⟩ := interleaves_serve
    (buildLlmClient (shippedSettings "sk-live")) [false, true]
  obtain ⟨hgraph, hanswers⟩ := keyed_answers hkey hrun (runs_serve _ _)
    (fun _ hnone => by cases hnone) (compilations_handler _ _ _ _ _ _)
  obtain ⟨model, out', hconfigured, hcase, -⟩ :=
    hanswers true _ (hended [false] true [] rfl) hneeded
  exact ⟨hgraph, model, out', hconfigured, hcase⟩

end TicketWarden.Service
