/- Module: TicketWarden/Service/Simulation
   source: apps/api/src/main.py
   digest: Requests answered at once do, the application state apart, what resolutions of
   their cases do at once. -/

import TicketWarden.Service.Server

set_option autoImplicit false
set_option relaxedAutoImplicit false

namespace TicketWarden.Service

open TicketWarden.Graph Effects Guardrails Observability Python Storage

section

variable {G : Type}

section Requests

variable {ι : Type} [DecidableEq ι] {env : Env} {request : ι → ResolveRequest env.db}
  {invoke : G → CaseState → GraphProgram CaseState}

/-- Each of some requests has done the beginning of a resolution of its case. -/
def Resolving (request : ι → ResolveRequest env.db) (tr : List (ι × CallEvent)) : Prop :=
  ∀ i, ∃ graph rest out, Exec (resolveCase env graph (request i)) (ownTrace i tr ++ rest) out

instance nonempty_routeReply (o : (routeSig G).Op) : Nonempty ((routeSig G).Reply o) := by
  rcases o with (o | o) | o
  · cases o <;>
      first
      | exact ⟨(none : Option G)⟩
      | exact ⟨(.error ⟨"", ""⟩ : Except Exc G)⟩
      | exact ⟨()⟩
  · exact nonempty_reply (.inl o)
  · exact nonempty_reply (.inr o)

theorem exists_answer {pool' : ι → Program (routeSig G) Exc (Except HttpError ResolveResponse)}
    {tr : List (ι × RouteEvent G)}
    (h : Interleaves (fun i => resolve env invoke (request i)) tr pool') (i : ι) :
    ∃ source rest out', Exec (resolveCase env (invokeOf invoke source) (request i))
        (ownTrace i (caseTrace tr) ++ rest) out' ∧
      ∀ out, (pool' i).outcome = some out → rest = [] ∧ out = .ok (answer out') ∧
        Sourced (isInjection env.db (redactPii env.db (request i).ticket) = true)
          (appEvents (ownTrace i tr)) source := by
  obtain ⟨rest, out, hexec, hended⟩ := (h.steps i).completes
  obtain ⟨source, out', hsource, hcase, rfl⟩ := route_refines hexec
  refine ⟨source, callEvents rest, out', ?_, fun out hout => ?_⟩
  · rw [ownTrace_caseTrace]
    rwa [callEvents, List.filterMap_append] at hcase
  · obtain ⟨rfl, rfl⟩ := hended out hout
    rw [List.append_nil] at hsource
    exact ⟨rfl, rfl, hsource⟩

/-- At any moment, every request is somewhere in the resolution of its case. -/
theorem resolving_of_interleaves
    {pool' : ι → Program (routeSig G) Exc (Except HttpError ResolveResponse)}
    {tr : List (ι × RouteEvent G)}
    (h : Interleaves (fun i => resolve env invoke (request i)) tr pool') :
    Resolving request (caseTrace tr) := by
  intro i
  obtain ⟨source, rest, out, hexec, -⟩ := exists_answer h i
  exact ⟨_, rest, out, hexec⟩

/-- Requests answered at once do what resolutions of their cases do at once, each with the graph
that its request found or compiled, or with one that raises what the compilation raised; and an
answer is the response of the resolution, or the error 500 for its exception. -/
theorem interleaved_routes_refine
    {pool' : ι → Program (routeSig G) Exc (Except HttpError ResolveResponse)}
    {tr : List (ι × RouteEvent G)}
    (h : Interleaves (fun i => resolve env invoke (request i)) tr pool') :
    ∃ (source : ι → Except Exc G) (calls : ι → CallProgram ResolveResponse),
      Interleaves (fun i => resolveCase env (invokeOf invoke (source i)) (request i))
        (caseTrace tr) calls ∧
      ∀ i out, (pool' i).outcome = some out →
        Sourced (isInjection env.db (redactPii env.db (request i).ticket) = true)
          (appEvents (ownTrace i tr)) (source i) ∧
        ∃ out', (calls i).outcome = some out' ∧ out = .ok (answer out') := by
  choose source rest out' hexec hended using exists_answer h
  obtain ⟨calls, hinter, hrest⟩ := interleaves_of_exec hexec
  refine ⟨source, calls, hinter, fun i out hout => ?_⟩
  obtain ⟨hnil, hanswer, hsource⟩ := hended i out hout
  refine ⟨hsource, out' i, ?_, hanswer⟩
  have hdone := hrest i
  rw [hnil] at hdone
  exact hdone.outcome

end Requests

end

theorem interleaved_routes_refine_serve :
    ∃ pool' : Bool → Program (routeSig Unit) Exc (Except HttpError ResolveResponse),
      ∃ (source : Bool → Except Exc Unit) (calls : Bool → CallProgram ResolveResponse),
        Interleaves (fun i => resolveCase testEnv
            (invokeOf (fun _ => caseGraph testEnv) (source i)) (twoRequests i))
          (caseTrace (serve (.ok ()) [false, true]).1) calls ∧
        ∀ i out, (pool' i).outcome = some out →
          Sourced (isInjection asciiData (redactPii asciiData (twoRequests i).ticket) = true)
            (appEvents (ownTrace i (serve (.ok ()) [false, true]).1)) (source i) ∧
          ∃ out', (calls i).outcome = some out' ∧ out = .ok (answer out') := by
  obtain ⟨pool', hrun, -⟩ := interleaves_serve (.ok ()) [false, true]
  exact ⟨pool', interleaved_routes_refine hrun⟩

end TicketWarden.Service
