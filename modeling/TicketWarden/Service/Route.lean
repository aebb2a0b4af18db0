/- Module: TicketWarden/Service/Route
   source: apps/api/src/main.py
   digest: The route `/resolve` does what the resolution of a case does, with a graph that was
   found, compiled, or could not be compiled. -/

import TicketWarden.Service.Api

set_option autoImplicit false
set_option relaxedAutoImplicit false

namespace TicketWarden.Service

open TicketWarden.Graph Effects Guardrails Observability Python Storage

section With

variable {S : Signature} {env : Env} {graph : CaseState → Program S Exc CaseState}
  {request : ResolveRequest env.db} {tr : List (Event (S.sum serviceSig))}
  {out : Except Exc ResolveResponse}

private theorem exec_guardedWith_iff {initial : CaseState} {out : Except Exc CaseState} :
    Exec ((graph initial).inl.tryCatch fun exc => pure (errorState initial exc)) tr out ↔
      ∃ gtr gout, tr = gtr.map Event.inl ∧ Exec (graph initial) gtr gout ∧
        out = .ok (settled initial gout) := by
  simp only [exec_tryCatch_iff, exec_inl_iff, exec_pure_iff]
  constructor
  · rintro (⟨final, ⟨gtr, rfl, hgraph⟩, rfl⟩ | ⟨exc, tr₁, tr₂, rfl, ⟨gtr, rfl, hgraph⟩, rfl, rfl⟩)
    · exact ⟨gtr, .ok final, rfl, hgraph, rfl⟩
    · exact ⟨gtr, .error exc, by simp, hgraph, rfl⟩
  · rintro ⟨gtr, gout, rfl, hgraph, rfl⟩
    cases gout with
    | ok final => exact .inl ⟨final, ⟨gtr, rfl, hgraph⟩, rfl⟩
    | error exc => exact .inr ⟨exc, _, [], by simp, ⟨gtr, rfl, hgraph⟩, rfl, rfl⟩

def opening (started : ℚ) (hex : String) : List (Event (S.sum serviceSig)) :=
  [Event.inr ⟨.perfCounter, started⟩, Event.inr ⟨.uuidHex, hex⟩]

/-- The two ways a resolution goes. -/
inductive Resolution (env : Env) (graph : CaseState → Program S Exc CaseState)
    (request : ResolveRequest env.db) :
    List (Event (S.sum serviceSig)) → Except Exc ResolveResponse → Prop
  | refused (started : ℚ) (hex : String) (reason : Option String) {tr : List ServiceEvent}
      {out : Except Exc ResolveResponse} :
      detectInjection env.db (redactPii env.db request.ticket) = (true, reason) →
      Exec (refuse env.db started (ticketIdOf hex) (redactPii env.db request.ticket) reason) tr
        out →
      Resolution env graph request (opening started hex ++ tr.map Event.inr) out
  | settled (started : ℚ) (hex : String) {gtr : List (Event S)} {gout : Except Exc CaseState}
      {tr : List ServiceEvent} {out : Except Exc ResolveResponse} :
      isInjection env.db (redactPii env.db request.ticket) = false →
      Exec (graph (initialState (ticketIdOf hex) (redactPii env.db request.ticket)
        request.orderId)) gtr gout →
      Exec (finish env started (ticketIdOf hex) (redactPii env.db request.ticket)
        (Service.settled (initialState (ticketIdOf hex) (redactPii env.db request.ticket)
          request.orderId) gout)) tr out →
      Resolution env graph request
        (opening started hex ++ (gtr.map Event.inl ++ tr.map Event.inr)) out

private theorem exec_opening_iff {α : Type} {f : ℚ → String → Program (S.sum serviceSig) Exc α}
    {out : Except Exc α} :
    Exec (do
        let started ← (perform .perfCounter).inr
        let ticketId ← newTicketId.inr
        f started ticketId) tr out ↔
      ∃ started hex tr', tr = opening started hex ++ tr' ∧
        Exec (f started (ticketIdOf hex)) tr' out := by
  constructor
  · intro h
    rcases exec_bind_iff.mp h with ⟨exc, hstart, -⟩ | ⟨started, trs, trr, rfl, hstart, h₁⟩
    · obtain ⟨_, rfl, hs⟩ := exec_inr_iff.mp hstart
      obtain ⟨_, -, hout⟩ := exec_perform_iff.mp hs
      cases hout
    obtain ⟨_, rfl, hs⟩ := exec_inr_iff.mp hstart
    obtain ⟨_, rfl, hout⟩ := exec_perform_iff.mp hs
    cases hout
    rcases exec_bind_iff.mp h₁ with ⟨exc, hid, -⟩ | ⟨ticketId, tri, trb, rfl, hid, h₂⟩
    · obtain ⟨_, rfl, hi⟩ := exec_inr_iff.mp hid
      obtain ⟨_, -, hout⟩ := exec_newTicketId_iff.mp hi
      cases hout
    obtain ⟨_, rfl, hi⟩ := exec_inr_iff.mp hid
    obtain ⟨hex, rfl, hout⟩ := exec_newTicketId_iff.mp hi
    cases hout
    exact ⟨started, hex, trb, rfl, h₂⟩
  · rintro ⟨started, hex, tr', rfl, h⟩
    have hid : Exec (newTicketId.inr : Program (S.sum serviceSig) Exc String)
        [Event.inr ⟨.uuidHex, hex⟩] (.ok (ticketIdOf hex)) :=
      exec_inr_iff.mpr ⟨_, rfl, exec_newTicketId_iff.mpr ⟨hex, rfl, rfl⟩⟩
    have hstart : Exec ((perform .perfCounter).inr : Program (S.sum serviceSig) Exc ℚ)
        [Event.inr ⟨.perfCounter, started⟩] (.ok started) :=
      exec_inr_iff.mpr ⟨_, rfl, exec_perform_iff.mpr ⟨started, rfl, rfl⟩⟩
    have hrest := exec_bind_iff.mpr (.inr ⟨ticketIdOf hex, _, tr', rfl, hid, h⟩)
    exact exec_bind_iff.mpr (.inr ⟨started, [_], _, rfl, hstart, hrest⟩)

theorem exec_resolveWith_iff :
    Exec (resolveWith env graph request) tr out ↔ Resolution env graph request tr out := by
  rw [resolveWith, exec_opening_iff]
  rcases hscan : detectInjection env.db (redactPii env.db request.ticket) with ⟨isInj, reason⟩
  cases isInj with
  | true =>
    simp only [hscan, if_true]
    constructor
    · rintro ⟨started, hex, tr', rfl, h⟩
      obtain ⟨tr'', rfl, hrefuse⟩ := exec_inr_iff.mp h
      exact .refused started hex reason hscan hrefuse
    · intro h
      cases h with
      | refused started hex reason' hscan' hrefuse =>
        rw [hscan] at hscan'
        cases hscan'
        exact ⟨started, hex, _, rfl, exec_inr_iff.mpr ⟨_, rfl, hrefuse⟩⟩
      | settled started hex hscan' _ _ =>
        rw [isInjection, hscan] at hscan'
        cases hscan'
  | false =>
    simp only [hscan, Bool.false_eq_true, if_false]
    constructor
    · rintro ⟨started, hex, tr', rfl, h⟩
      rcases exec_bind_iff.mp h with ⟨exc, hgraph, -⟩ | ⟨final, trg, trf, rfl, hgraph, hfinish⟩
      · obtain ⟨_, _, -, -, hout⟩ := exec_guardedWith_iff.mp hgraph
        cases hout
      obtain ⟨gtr, gout, rfl, hrun, hout⟩ := exec_guardedWith_iff.mp hgraph
      cases hout
      obtain ⟨tr'', rfl, hend⟩ := exec_inr_iff.mp hfinish
      exact .settled started hex (by rw [isInjection, hscan]) hrun hend
    · intro h
      cases h with
      | refused started hex reason' hscan' hrefuse =>
        rw [hscan] at hscan'
        cases hscan'
      | settled started hex hscan' hgraph hfinish =>
        exact ⟨started, hex, _, rfl, exec_bind_iff.mpr (.inr ⟨_, _, _, rfl,
          exec_guardedWith_iff.mpr ⟨_, _, rfl, hgraph, rfl⟩,
          exec_inr_iff.mpr ⟨_, rfl, hfinish⟩⟩)⟩

end With

section Lazy

variable {G : Type} {env : Env} {invoke : G → CaseState → GraphProgram CaseState}
  {request : ResolveRequest env.db}

/-- The executions of `get_graph`: the graph is there, or it cannot be compiled, or it is
compiled and stored. -/
inductive Acquired : List (AppEvent G) → Except Exc G → Prop
  | found (graph : G) : Acquired [⟨.readGraph, some graph⟩] (.ok graph)
  | failed (exc : Exc) : Acquired [⟨.readGraph, none⟩, ⟨.compileGraph, .error exc⟩] (.error exc)
  | compiled (graph : G) :
      Acquired [⟨.readGraph, none⟩, ⟨.compileGraph, .ok graph⟩, ⟨.storeGraph graph, ()⟩] (.ok graph)

private theorem acquired_of_exec {tr : List (AppEvent G)} {out : Except Exc G}
    (h : Exec getGraph tr out) : Acquired tr out := by
  obtain ⟨cached, tr₁, rfl, h₁⟩ := exec_perform_bind_iff.mp h
  cases cached with
  | some graph =>
    obtain ⟨rfl, rfl⟩ := exec_pure_iff.mp h₁
    exact .found graph
  | none =>
    obtain ⟨built, tr₂, rfl, h₂⟩ := exec_perform_bind_iff.mp h₁
    rcases exec_bind_iff.mp h₂ with ⟨exc, hbuilt, rfl⟩ | ⟨graph, tr₃, tr₄, rfl, hbuilt, h₃⟩
    · obtain ⟨rfl, rfl⟩ := exec_ofExcept_iff.mp hbuilt
      exact .failed exc
    · obtain ⟨rfl, rfl⟩ := exec_ofExcept_iff.mp hbuilt
      obtain ⟨_, tr₅, rfl, h₄⟩ := exec_perform_bind_iff.mp h₃
      obtain ⟨rfl, rfl⟩ := exec_pure_iff.mp h₄
      exact .compiled graph

/-- The graph object that the outcome of `get_graph` stands for. -/
def invokeOf (invoke : G → CaseState → GraphProgram CaseState) :
    Except Exc G → CaseState → GraphProgram CaseState
  | .ok graph => invoke graph
  | .error exc => fun _ => .fail exc

private theorem exec_lazyInvoke {state : CaseState} {tr : List (Event (lazySig G))}
    {out : Except Exc CaseState} (h : Exec (lazyInvoke invoke state) tr out) :
    ∃ app source gtr, tr = app.map Event.inl ++ gtr.map Event.inr ∧ Acquired app source ∧
      Exec (invokeOf invoke source state) gtr out := by
  rcases exec_bind_iff.mp h with ⟨exc, hget, rfl⟩ | ⟨graph, tr₁, tr₂, rfl, hget, hrun⟩
  · obtain ⟨app, rfl, hacquire⟩ := exec_inl_iff.mp hget
    exact ⟨app, .error exc, [], by simp, acquired_of_exec hacquire, .fail exc⟩
  · obtain ⟨app, rfl, hacquire⟩ := exec_inl_iff.mp hget
    obtain ⟨gtr, rfl, hgraph⟩ := exec_inr_iff.mp hrun
    exact ⟨app, .ok graph, gtr, rfl, acquired_of_exec hacquire, hgraph⟩

def callEvent? : RouteEvent G → Option CallEvent
  | ⟨.inl (.inl _), _⟩ => none
  | ⟨.inl (.inr o), r⟩ => some ⟨.inl o, r⟩
  | ⟨.inr o, r⟩ => some ⟨.inr o, r⟩

def appEvent? : RouteEvent G → Option (AppEvent G)
  | ⟨.inl (.inl o), r⟩ => some ⟨o, r⟩
  | _ => none

@[simp] theorem callEvents_service (tr : List ServiceEvent) :
    (tr.map Event.inr : List (RouteEvent G)).filterMap callEvent? = tr.map Event.inr := by
  rw [List.filterMap_map]
  exact congrFun List.filterMap_eq_map tr

@[simp] theorem callEvents_graph (tr : List GraphEvent) :
    ((tr.map Event.inr : List (Event (lazySig G))).map Event.inl :
      List (RouteEvent G)).filterMap callEvent? = tr.map Event.inl := by
  rw [List.map_map, List.filterMap_map]
  exact congrFun List.filterMap_eq_map tr

@[simp] theorem callEvents_app (tr : List (AppEvent G)) :
    ((tr.map Event.inl : List (Event (lazySig G))).map Event.inl :
      List (RouteEvent G)).filterMap callEvent? = [] := by
  rw [List.map_map, List.filterMap_map]
  exact List.filterMap_none tr

@[simp] theorem appEvents_service (tr : List ServiceEvent) :
    (tr.map Event.inr : List (RouteEvent G)).filterMap appEvent? = [] := by
  rw [List.filterMap_map]
  exact List.filterMap_none tr

@[simp] theorem appEvents_graph (tr : List GraphEvent) :
    ((tr.map Event.inr : List (Event (lazySig G))).map Event.inl :
      List (RouteEvent G)).filterMap appEvent? = [] := by
  rw [List.map_map, List.filterMap_map]
  exact List.filterMap_none tr

@[simp] theorem appEvents_app (tr : List (AppEvent G)) :
    ((tr.map Event.inl : List (Event (lazySig G))).map Event.inl :
      List (RouteEvent G)).filterMap appEvent? = tr := by
  rw [List.map_map, List.filterMap_map]
  exact List.filterMap_some

/-- Where the graph of a request comes from: it is in the application state when the request
comes in, or it is asked for when the case needs it, which a refused case never does. -/
inductive Sourced (refused : Prop) : List (AppEvent G) → Except Exc G → Prop
  | present (graph : G) : Sourced refused [⟨.readGraph, some graph⟩] (.ok graph)
  | unneeded (source : Except Exc G) : refused → Sourced refused [⟨.readGraph, none⟩] source
  | needed {app : List (AppEvent G)} {source : Except Exc G} : ¬ refused → Acquired app source →
      Sourced refused (⟨.readGraph, none⟩ :: app) source

def appEvents (tr : List (RouteEvent G)) : List (AppEvent G) := tr.filterMap appEvent?

def callEvents (tr : List (RouteEvent G)) : List CallEvent := tr.filterMap callEvent?

private theorem exec_answer {S : Signature} {p : Program S Exc ResolveResponse}
    {tr : List (Event S)}
    {out : Except Exc (Except HttpError ResolveResponse)}
    (h : Exec (((do pure (.ok (← p))) : Program S Exc (Except HttpError ResolveResponse)).tryCatch
      fun exc => pure (.error ⟨500, exc.message⟩)) tr out) :
    ∃ out', Exec p tr out' ∧ out = .ok (answer out') := by
  rcases exec_tryCatch_iff.mp h with ⟨resp, hp, rfl⟩ | ⟨exc, tr₁, tr₂, rfl, hp, hhandled⟩
  · obtain ⟨out', hresolve, hout⟩ := exec_bind_pure_iff.mp hp
    cases out' with
    | error exc => cases hout
    | ok resp =>
      cases hout
      exact ⟨.ok resp, hresolve, rfl⟩
  · obtain ⟨rfl, rfl⟩ := exec_pure_iff.mp hhandled
    obtain ⟨out', hresolve, hout⟩ := exec_bind_pure_iff.mp hp
    cases out' with
    | ok resp => cases hout
    | error exc =>
      cases hout
      exact ⟨.error exc, by rwa [List.append_nil], rfl⟩

private theorem Resolution.erase {graph : CaseState → Program (lazySig G) Exc CaseState}
    {tr : List (RouteEvent G)} {out : Except Exc ResolveResponse}
    {P : List (AppEvent G) → Except Exc G → Prop}
    (hgraph : ∀ state gtr gout, Exec (graph state) gtr gout →
      ∃ app source gtr', gtr = app.map Event.inl ++ gtr'.map Event.inr ∧ P app source ∧
        Exec (invokeOf invoke source state) gtr' gout)
    (h : Resolution env graph request tr out) :
    (isInjection env.db (redactPii env.db request.ticket) = true ∧ appEvents tr = [] ∧
        ∀ graph', Exec (resolveCase env graph' request) (callEvents tr) out) ∨
      (isInjection env.db (redactPii env.db request.ticket) = false ∧
        ∃ source, P (appEvents tr) source ∧
          Exec (resolveCase env (invokeOf invoke source) request) (callEvents tr) out) := by
  cases h with
  | refused started hex reason hscan hrefuse =>
    left
    refine ⟨by rw [isInjection, hscan], ?_, fun graph' => ?_⟩
    · rw [appEvents, List.filterMap_append, appEvents_service]
      rfl
    · rw [callEvents, List.filterMap_append, callEvents_service, ← resolveWith_eq]
      exact exec_resolveWith_iff.mpr (.refused started hex reason hscan hrefuse)
  | settled started hex hscan hrun hfinish =>
    right
    obtain ⟨app, source, gtr', rfl, hsource, hrun'⟩ := hgraph _ _ _ hrun
    refine ⟨hscan, source, ?_, ?_⟩
    · rw [appEvents, List.filterMap_append, List.filterMap_append, appEvents_service,
        List.map_append, List.filterMap_append, appEvents_app, appEvents_graph, List.append_nil,
        List.append_nil]
      exact hsource
    · rw [callEvents, List.filterMap_append, List.filterMap_append, callEvents_service,
        List.map_append, List.filterMap_append, callEvents_app, callEvents_graph, List.nil_append,
        ← resolveWith_eq]
      exact exec_resolveWith_iff.mpr (.settled started hex hscan hrun' hfinish)

private theorem exec_readGraph_bind {α : Type} {f : Option G → Program (routeSig G) Exc α}
    {tr : List (RouteEvent G)} {out : Except Exc α}
    (h : Exec ((performApp (.readGraph : AppOp G)).inl.inl >>= f) tr out) :
    ∃ cached tr', tr = Event.inl (Event.inl (⟨.readGraph, cached⟩ : AppEvent G)) :: tr' ∧
      Exec (f cached) tr' out := by
  rcases exec_bind_iff.mp h with ⟨exc, hread, -⟩ | ⟨cached, tr₁, tr₂, rfl, hread, hrest⟩
  · obtain ⟨_, -, hlazy⟩ := exec_inl_iff.mp hread
    obtain ⟨_, -, happ⟩ := exec_inl_iff.mp hlazy
    obtain ⟨_, -, hout⟩ := exec_perform_iff.mp happ
    cases hout
  · obtain ⟨_, rfl, hlazy⟩ := exec_inl_iff.mp hread
    obtain ⟨_, rfl, happ⟩ := exec_inl_iff.mp hlazy
    obtain ⟨_, rfl, hout⟩ := exec_perform_iff.mp happ
    cases hout
    exact ⟨cached, tr₂, rfl, hrest⟩

/-- Every request is answered, and what it does for its case is a resolution with the graph that
was found or compiled, or with one that raises what the compilation raised. -/
theorem route_refines {tr : List (RouteEvent G)}
    {out : Except Exc (Except HttpError ResolveResponse)}
    (h : Exec (resolve env invoke request) tr out) :
    ∃ source out', 
      Sourced (isInjection env.db (redactPii env.db request.ticket) = true) (appEvents tr) source ∧
      Exec (resolveCase env (invokeOf invoke source) request) (callEvents tr) out' ∧
      out = .ok (answer out') := by
  obtain ⟨cached, tr₂, rfl, hrest⟩ := exec_readGraph_bind h
  obtain ⟨out', hrun, rfl⟩ := exec_answer hrest
  have happ : appEvents (Event.inl (Event.inl (⟨.readGraph, cached⟩ : AppEvent G)) :: tr₂) =
      ⟨.readGraph, cached⟩ :: appEvents tr₂ := rfl
  have hcall : callEvents (Event.inl (Event.inl (⟨.readGraph, cached⟩ : AppEvent G)) :: tr₂) =
      callEvents tr₂ := rfl
  rw [happ, hcall]
  cases cached with
  | some graph =>
    have herased := (exec_resolveWith_iff.mp hrun).erase
      (P := fun app source => app = [] ∧ source = .ok graph) fun state gtr gout hgtr => by
        obtain ⟨gtr', rfl, hgtr'⟩ := exec_inr_iff.mp hgtr
        exact ⟨[], .ok graph, gtr', rfl, ⟨rfl, rfl⟩, hgtr'⟩
    rcases herased with ⟨-, hnone, hcase⟩ | ⟨-, source, ⟨hnone, rfl⟩, hcase⟩
    · rw [hnone]
      exact ⟨.ok graph, out', .present graph, hcase _, rfl⟩
    · rw [hnone]
      exact ⟨.ok graph, out', .present graph, hcase, rfl⟩
  | none =>
    have herased := (exec_resolveWith_iff.mp hrun).erase (P := Acquired)
      fun state gtr gout hgtr => exec_lazyInvoke hgtr
    rcases herased with ⟨hscan, hnone, hcase⟩ | ⟨hscan, source, hsource, hcase⟩
    · rw [hnone]
      exact ⟨.error ⟨"", ""⟩, out', .unneeded _ hscan, hcase _, rfl⟩
    · exact ⟨source, out', .needed (by simp [hscan]) hsource, hcase, rfl⟩

end Lazy

end TicketWarden.Service
