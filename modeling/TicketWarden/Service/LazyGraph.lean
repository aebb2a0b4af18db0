/- Module: TicketWarden/Service/LazyGraph
   source: apps/api/src/main.py (get_graph, _LazyGraph, resolve)
   digest: The graph that requests answered at once share: who compiles it, how often, and
   where the graph of each request comes from. -/

import TicketWarden.Service.Simulation

set_option autoImplicit false
set_option relaxedAutoImplicit false

namespace TicketWarden.Service

open TicketWarden.Graph Effects Guardrails Observability Python Storage Store

section

variable {G : Type}

def AppEvent.read? : AppEvent G → Option (Option G)
  | ⟨.readGraph, cached⟩ => some cached
  | _ => none

def AppEvent.compiled? : AppEvent G → Option (Except Exc G)
  | ⟨.compileGraph, built⟩ => some built
  | _ => none

def AppEvent.stored? : AppEvent G → Option G
  | ⟨.storeGraph graph, _⟩ => some graph
  | _ => none

/-- The compilations of some events of routes, in order. -/
def compilations (tr : List (RouteEvent G)) : List (Except Exc G) :=
  (appEvents tr).filterMap AppEvent.compiled?

def stores (tr : List (RouteEvent G)) : List G := (appEvents tr).filterMap AppEvent.stored?

def reads (tr : List (RouteEvent G)) : List (Option G) :=
  (appEvents tr).filterMap AppEvent.read?

section Request

variable {refused : Prop} {app : List (AppEvent G)} {source : Except Exc G}

theorem Sourced.compilations (h : Sourced refused app source) :
    app.filterMap AppEvent.compiled? = [] ∨
      (¬ refused ∧ app.filterMap AppEvent.compiled? = [source]) := by
  cases h with
  | present graph => exact .inl rfl
  | unneeded _ _ => exact .inl rfl
  | needed hneeded hacquired =>
    cases hacquired with
    | found graph => exact .inl rfl
    | failed exc => exact .inr ⟨hneeded, rfl⟩
    | compiled graph => exact .inr ⟨hneeded, rfl⟩

private theorem Sourced.of_found {p rest : List (AppEvent G)}
    (h : Sourced refused (p ++ rest) source)
    (hfound : none ∉ p.filterMap AppEvent.read?) : p.filterMap AppEvent.compiled? = [] := by
  cases p with
  | nil => rfl
  | cons e p =>
    rw [List.cons_append] at h
    generalize htail : p ++ rest = tail at h
    cases h with
    | present graph => rw [(List.append_eq_nil_iff.mp htail).1]; rfl
    | unneeded _ _ => exact absurd List.mem_cons_self hfound
    | needed _ _ => exact absurd List.mem_cons_self hfound

theorem Sourced.origin {graph : G} (h : Sourced refused app (.ok graph)) (hneeded : ¬ refused) :
    some graph ∈ app.filterMap AppEvent.read? ∨
      .ok graph ∈ app.filterMap AppEvent.compiled? := by
  cases h with
  | present graph => exact .inl List.mem_cons_self
  | unneeded _ hrefused => exact absurd hrefused hneeded
  | needed _ hacquired =>
    cases hacquired with
    | found graph => exact .inl (List.mem_cons_of_mem _ List.mem_cons_self)
    | compiled graph => exact .inr List.mem_cons_self

theorem Sourced.failure {exc : Exc} (h : Sourced refused app (.error exc)) (hneeded : ¬ refused) :
    .error exc ∈ app.filterMap AppEvent.compiled? := by
  cases h with
  | unneeded _ hrefused => exact absurd hrefused hneeded
  | needed _ hacquired =>
    cases hacquired with
    | failed exc => exact List.mem_cons_self

theorem Sourced.stored (h : Sourced refused app source) {p : List (AppEvent G)}
    (hp : p <+: app) : ∀ graph ∈ p.filterMap AppEvent.stored?,
      .ok graph ∈ p.filterMap AppEvent.compiled? := by
  have hnone : ∀ {tr : List (AppEvent G)}, tr.filterMap AppEvent.stored? = [] → p <+: tr →
      ∀ graph ∈ p.filterMap AppEvent.stored?, .ok graph ∈ p.filterMap AppEvent.compiled? := by
    rintro tr htr hpre graph hgraph
    have hmem := (hpre.filterMap AppEvent.stored?).subset hgraph
    rw [htr] at hmem
    cases hmem
  cases h with
  | present graph => exact hnone rfl hp
  | unneeded _ _ => exact hnone rfl hp
  | needed _ hacquired =>
    cases hacquired with
    | found graph => exact hnone rfl hp
    | failed exc => exact hnone rfl hp
    | compiled graph =>
      rcases List.prefix_concat_iff.mp
        (show p <+: [⟨.readGraph, none⟩, ⟨.readGraph, none⟩, ⟨.compileGraph, .ok graph⟩] ++
          [⟨.storeGraph graph, ()⟩] from hp) with rfl | hp
      · rintro graph' hgraph'
        obtain rfl := List.mem_singleton.mp hgraph'
        exact List.mem_cons_self
      · exact hnone rfl hp

end Request

section Run

variable {tool : Shop → String → Dict → Except Exc Json} {s s' : Server G} {e : RouteEvent G}
  {tr : List (RouteEvent G)}

theorem ServerStep.graph (h : ServerStep tool s e s') :
    s'.graph = ((appEvent? e).bind AppEvent.stored?).or s.graph ∧
      ∀ cached ∈ (appEvent? e).bind AppEvent.read?, cached = s.graph := by
  cases h with
  | readGraph => exact ⟨rfl, fun cached hcached => (Option.mem_some.mp hcached).symm⟩
  | graphEvent e _ => exact ⟨rfl, fun cached hcached => by cases hcached⟩
  | inserted e _ _ _ => exact ⟨rfl, fun cached hcached => by cases hcached⟩
  | serviceEvent e _ => exact ⟨rfl, fun cached hcached => by cases hcached⟩
  | _ => exact ⟨rfl, fun cached hcached => by cases hcached⟩

private theorem stores_cons (e : RouteEvent G) (tr : List (RouteEvent G)) :
    stores (e :: tr) = ((appEvent? e).bind AppEvent.stored?).toList ++ stores tr := by
  rw [stores, appEvents, List.filterMap_cons]
  cases appEvent? e with
  | none => rfl
  | some e' =>
    rw [List.filterMap_cons]
    cases he : AppEvent.stored? e' with
    | none => simp [he, stores, appEvents]
    | some graph => simp [he, stores, appEvents]

private theorem reads_cons (e : RouteEvent G) (tr : List (RouteEvent G)) :
    reads (e :: tr) = ((appEvent? e).bind AppEvent.read?).toList ++ reads tr := by
  rw [reads, appEvents, List.filterMap_cons]
  cases appEvent? e with
  | none => rfl
  | some e' =>
    rw [List.filterMap_cons]
    cases he : AppEvent.read? e' with
    | none => simp [he, reads, appEvents]
    | some graph => simp [he, reads, appEvents]

theorem graph_of_runs (h : World.Runs (ServerStep tool) s tr s') :
    (s'.graph = none ↔ s.graph = none ∧ stores tr = []) ∧
      ∀ graph, s'.graph = some graph → s.graph = some graph ∨ graph ∈ stores tr := by
  induction h with
  | nil s => exact ⟨⟨fun hnone => ⟨hnone, rfl⟩, And.left⟩, fun graph hgraph => .inl hgraph⟩
  | @cons s mid s' e tr hstep _ ih =>
    rw [stores_cons]
    rw [hstep.graph.1] at ih
    cases hstored : (appEvent? e).bind AppEvent.stored? with
    | none =>
      rw [hstored] at ih
      exact ih
    | some stored =>
      rw [hstored] at ih
      constructor
      · simpa using ih.1
      · intro graph hgraph
        rcases ih.2 graph hgraph with heq | hmem
        · cases heq
          exact .inr List.mem_cons_self
        · exact .inr (List.mem_cons_of_mem _ hmem)

theorem reads_of_runs (h : World.Runs (ServerStep tool) s tr s') :
    (s.graph.isSome → none ∉ reads tr) ∧
      ∀ graph, some graph ∈ reads tr → s.graph = some graph ∨ graph ∈ stores tr := by
  induction h with
  | nil s => exact ⟨fun _ => List.not_mem_nil, fun graph hgraph => absurd hgraph List.not_mem_nil⟩
  | @cons s mid s' e tr hstep _ ih =>
    obtain ⟨hgraph, hread⟩ := hstep.graph
    rw [reads_cons, stores_cons]
    constructor
    · intro hcached hmem
      rcases List.mem_append.mp hmem with hnone | hnone
      · have hnow := hread none (Option.mem_toList.mp hnone)
        rw [← hnow] at hcached
        cases hcached
      · refine ih.1 ?_ hnone
        rw [hgraph]
        cases (appEvent? e).bind AppEvent.stored? with
        | none => exact hcached
        | some _ => rfl
    · intro graph hmem
      rcases List.mem_append.mp hmem with hsome | hsome
      · exact .inl (hread _ (Option.mem_toList.mp hsome)).symm
      · rcases ih.2 graph hsome with hmid | hlater
        · rw [hgraph] at hmid
          rcases Option.or_eq_some_iff.mp hmid with hstored | ⟨-, hkept⟩
          · exact .inr (List.mem_append_left _ (Option.mem_toList.mpr hstored))
          · exact .inl hkept
        · exact .inr (List.mem_append_right _ hlater)

end Run

section Requests

variable {ι : Type} [DecidableEq ι] {env : Env} {request : ι → ResolveRequest env.db}
  {invoke : G → CaseState → GraphProgram CaseState}
  {tool : Shop → String → Dict → Except Exc Json} {s s' : Server G}
  {pool' : ι → Program (routeSig G) Exc (Except HttpError ResolveResponse)}
  {tr : List (ι × RouteEvent G)}

abbrev Refuses (request : ResolveRequest env.db) : Prop :=
  isInjection env.db (redactPii env.db request.ticket) = true

theorem appEvents_append (tr₁ tr₂ : List (RouteEvent G)) :
    appEvents (tr₁ ++ tr₂) = appEvents tr₁ ++ appEvents tr₂ :=
  List.filterMap_append

private theorem exists_sourced
    (hrun : Interleaves (fun i => resolve env invoke (request i)) tr pool')
    (i : ι) : ∃ rest source,
      Sourced (Refuses (request i)) (appEvents (ownTrace i tr) ++ rest) source := by
  obtain ⟨rest, out, hexec⟩ := (hrun.steps i).extends
  obtain ⟨source, out', hsource, -, -⟩ := route_refines hexec
  rw [appEvents_append] at hsource
  exact ⟨_, source, hsource⟩

theorem mem_filterMap_own {β : Type} {f : AppEvent G → Option β} {b : β} :
    b ∈ (appEvents (tr.map Prod.snd)).filterMap f ↔
      ∃ i, b ∈ (appEvents (ownTrace i tr)).filterMap f := by
  simp only [appEvents, List.mem_filterMap, List.mem_map, mem_ownTrace]
  constructor
  · rintro ⟨e', ⟨e, ⟨⟨i, e⟩, he, rfl⟩, happ⟩, hb⟩
    exact ⟨i, e', ⟨e, he, happ⟩, hb⟩
  · rintro ⟨i, e', ⟨e, he, happ⟩, hb⟩
    exact ⟨e', ⟨e, ⟨⟨i, e⟩, he, rfl⟩, happ⟩, hb⟩

theorem compiled_of_stored (hrun : Interleaves (fun i => resolve env invoke (request i)) tr pool')
    {graph : G} (h : graph ∈ stores (tr.map Prod.snd)) :
    .ok graph ∈ compilations (tr.map Prod.snd) := by
  obtain ⟨i, hi⟩ := mem_filterMap_own.mp h
  obtain ⟨rest, source, hsource⟩ := exists_sourced hrun i
  exact mem_filterMap_own.mpr ⟨i, hsource.stored (List.prefix_append _ _) graph hi⟩

/-- A request compiles the graph at most once, and not at all if its ticket is refused or if
there is a graph when it comes in; and once there is a graph, there always is. -/
theorem compiles_at_most_once {p q : List (ι × RouteEvent G)} {mid : Server G}
    (hrun : Interleaves (fun i => resolve env invoke (request i)) (p ++ q) pool')
    (hafter : World.Runs (ServerStep tool) mid (q.map Prod.snd) s') :
    (∀ i, (compilations (ownTrace i (p ++ q))).length ≤ 1) ∧
      (∀ i, Refuses (request i) → compilations (ownTrace i (p ++ q)) = []) ∧
      (mid.graph.isSome → s'.graph.isSome ∧
        ∀ i, ownTrace i p = [] → compilations (ownTrace i (p ++ q)) = []) := by
  refine ⟨fun i => ?_, fun i hrefused => ?_, fun hcached => ⟨?_, fun i hlater => ?_⟩⟩
  · obtain ⟨rest, source, hsource⟩ := exists_sourced hrun i
    have hsub := (List.sublist_append_left (appEvents (ownTrace i (p ++ q))) rest).filterMap
      AppEvent.compiled?
    rcases hsource.compilations with hnone | ⟨-, hone⟩
    · rw [hnone] at hsub
      exact hsub.length_le.trans (Nat.zero_le 1)
    · rw [hone] at hsub
      exact hsub.length_le
  · obtain ⟨rest, source, hsource⟩ := exists_sourced hrun i
    rcases hsource.compilations with hnone | ⟨hneeded, -⟩
    · rw [List.filterMap_append] at hnone
      exact (List.append_eq_nil_iff.mp hnone).1
    · exact absurd hrefused hneeded
  · rw [Option.isSome_iff_ne_none] at hcached ⊢
    exact fun hnone => hcached ((graph_of_runs hafter).1.mp hnone).1
  · rw [ownTrace_append, hlater, List.nil_append]
    have hfound : none ∉ reads (ownTrace i q) := fun hmem =>
      (reads_of_runs hafter).1 hcached (mem_filterMap_own.mpr ⟨i, hmem⟩)
    obtain ⟨rest, source, hsource⟩ := exists_sourced hrun i
    rw [ownTrace_append, hlater, List.nil_append] at hsource
    exact hsource.of_found hfound

theorem graph_of_answered
    (hrun : Interleaves (fun i => resolve env invoke (request i)) tr pool')
    (hworld : World.Runs (ServerStep tool) s (tr.map Prod.snd) s') {i : ι}
    {out : Except Exc (Except HttpError ResolveResponse)}
    (hout : (pool' i).outcome = some out) (hneeded : ¬ Refuses (request i)) :
    ∃ source out',
      Exec (resolveCase env (invokeOf invoke source) (request i)) (callEvents (ownTrace i tr))
        out' ∧
      out = .ok (answer out') ∧
      (∀ graph, source = .ok graph →
        s.graph = some graph ∨ .ok graph ∈ compilations (tr.map Prod.snd)) ∧
      ∀ exc, source = .error exc → .error exc ∈ compilations (ownTrace i tr) := by
  obtain ⟨source, out', hsource, hcase, rfl⟩ := route_refines ((hrun.steps i).exec hout)
  refine ⟨source, out', hcase, rfl, fun graph hgraph => ?_, fun exc hexc => ?_⟩
  · subst hgraph
    rcases hsource.origin hneeded with hread | hcompiled
    · refine ((reads_of_runs hworld).2 graph (mem_filterMap_own.mpr ⟨i, hread⟩)).imp_right ?_
      exact compiled_of_stored hrun
    · exact .inr (mem_filterMap_own.mpr ⟨i, hcompiled⟩)
  · subst hexc
    exact hsource.failure hneeded

end Requests

end

/-- Every compilation of a server that can be run comes to the same. -/
theorem compilations_handler {G ι : Type} (llm : FakeLLM) (built : Except Exc G)
    (tool : Shop → String → Dict → Except Exc Json)
    (pool : ι → Program (routeSig G) Exc (Except HttpError ResolveResponse)) (requests : List ι)
    (s : Server G) :
    ∀ built' ∈ compilations
        ((runAll (Server.handler llm built tool) pool requests s).1.map Prod.snd),
      built' = built := by
  have hall := runAll_forall (h := Server.handler llm built tool)
    (P := fun e => ∀ built' ∈ (appEvent? e).bind AppEvent.compiled?, built' = built)
    (fun o s => by
      rcases o with (o | o) | o
      · cases o with
        | compileGraph => exact fun _ hbuilt => (Option.some.inj hbuilt).symm
        | readGraph => exact fun _ hbuilt => (nomatch hbuilt)
        | storeGraph graph => exact fun _ hbuilt => (nomatch hbuilt)
      · exact fun _ hbuilt => (nomatch hbuilt)
      · exact fun _ hbuilt => (nomatch hbuilt)) pool requests s
  intro built' hbuilt
  obtain ⟨e', he', hcompiled⟩ := List.mem_filterMap.mp hbuilt
  obtain ⟨_, hevent, happ⟩ := List.mem_filterMap.mp he'
  obtain ⟨e, he, rfl⟩ := List.mem_map.mp hevent
  exact hall e he built' (by rw [happ]; exact hcompiled)

theorem compiles_at_most_once_serve :
    let first := serve (.ok ()) [true]
    let second := serve (.ok ()) [false] first.2
    (∀ i, (compilations (ownTrace i (first.1 ++ second.1))).length ≤ 1) ∧
      (∀ i, isInjection asciiData (redactPii asciiData (twoRequests i).ticket) = true →
        compilations (ownTrace i (first.1 ++ second.1)) = []) ∧
      (first.2.graph.isSome → second.2.graph.isSome ∧
        ∀ i, ownTrace i first.1 = [] → compilations (ownTrace i (first.1 ++ second.1)) = []) := by
  intro first second
  have hboth : (serve (.ok ()) [true, false]).1 = first.1 ++ second.1 := by
    simp only [first, second, serve, runAll, List.append_nil]
  obtain ⟨pool', hrun, -⟩ := interleaves_serve (.ok ()) [true, false]
  rw [hboth] at hrun
  exact compiles_at_most_once hrun (runs_serve (.ok ()) [false] first.2)

end TicketWarden.Service
