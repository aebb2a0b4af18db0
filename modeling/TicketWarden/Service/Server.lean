/- Module: TicketWarden/Service/Server
   source: apps/api/src/main.py, apps/api/src/storage/repo.py, apps/api/src/storage/db.py
   digest: A server that answers any number of requests at once, and its lifetime from start
   to restart. -/

import TicketWarden.Effects.World
import TicketWarden.Service.FakeLLM
import TicketWarden.Service.Route
import TicketWarden.Service.Visibility
import TicketWarden.Storage.Readers

set_option autoImplicit false
set_option relaxedAutoImplicit false

namespace TicketWarden.Service

open TicketWarden.Graph Effects Guardrails Observability Python Storage Store

/-- The database file and `app.state.graph`. -/
structure Server (G : Type) where
  file : DatabaseFile
  graph : Option G

section

variable {G : Type}

/-- The start of the application: `lifespan` and `create_app`. -/
def Server.start (file : DatabaseFile) : Server G := ⟨file.initDb, none⟩

/-- What an event does to the server, when `tool` tells what the tools read off the shop. The
clock of the database is read at every insert, and a tool may fail besides. -/
inductive ServerStep (tool : Shop → String → Dict → Except Exc Json) :
    Server G → RouteEvent G → Server G → Prop
  | readGraph (s : Server G) : ServerStep tool s ⟨.inl (.inl .readGraph), s.graph⟩ s
  | compileGraph (s : Server G) (built : Except Exc G) :
      ServerStep tool s ⟨.inl (.inl .compileGraph), built⟩ s
  | storeGraph (s : Server G) (graph : G) :
      ServerStep tool s ⟨.inl (.inl (.storeGraph graph)), ()⟩ { s with graph := some graph }
  | toolAnswered (s : Server G) (name : String) (args : Dict) :
      ServerStep tool s ⟨.inl (.inr (.callTool name args)), tool s.file.shop name args⟩ s
  | toolFailed (s : Server G) (name : String) (args : Dict) (exc : Exc) :
      ServerStep tool s ⟨.inl (.inr (.callTool name args)), .error exc⟩ s
  | graphEvent (s : Server G) (e : GraphEvent) : (∀ name args, e.op ≠ .callTool name args) →
      ServerStep tool s ⟨.inl (.inr e.op), e.reply⟩ s
  | inserted (s : Server G) (e : ServiceEvent) (now : String) (w : Write) : written? e = some w →
      ServerStep tool s ⟨.inr e.op, e.reply⟩ { s with file := s.file.apply (now, w) }
  | serviceEvent (s : Server G) (e : ServiceEvent) : written? e = none →
      ServerStep tool s ⟨.inr e.op, e.reply⟩ s

def caseTrace {ι : Type} (tr : List (ι × RouteEvent G)) : List (ι × CallEvent) :=
  tr.filterMap fun e => (callEvent? e.2).map (Prod.mk e.1)

theorem map_caseTrace {ι : Type} (tr : List (ι × RouteEvent G)) :
    (caseTrace tr).map Prod.snd = callEvents (tr.map Prod.snd) := by
  rw [caseTrace, callEvents, List.map_filterMap, List.filterMap_map]
  refine List.filterMap_congr fun e _ => ?_
  rw [Option.map_map]
  exact Option.map_id'

theorem ownTrace_caseTrace {ι : Type} [DecidableEq ι] (i : ι) (tr : List (ι × RouteEvent G)) :
    ownTrace i (caseTrace tr) = callEvents (ownTrace i tr) := by
  induction tr with
  | nil => rfl
  | cons e tr ih =>
    obtain ⟨j, e⟩ := e
    have hcons : caseTrace ((j, e) :: tr) =
        ((callEvent? e).map (Prod.mk j)).toList ++ caseTrace tr := by
      rw [caseTrace, List.filterMap_cons]
      cases callEvent? e <;> rfl
    rw [hcons, ownTrace_append, ih]
    by_cases hij : j = i
    · subst hij
      rw [ownTrace_cons_self, callEvents, callEvents, List.filterMap_cons]
      cases callEvent? e with
      | none => rfl
      | some e' => simp [ownTrace]
    · rw [ownTrace_cons_ne hij]
      cases callEvent? e with
      | none => rfl
      | some e' => simp [ownTrace, hij]

/-- The states a server comes to from some state: it answers requests that come in at any time
and are cut off at any time, draws ids that are new, and is started again. -/
inductive Reaches (env : Env) (invoke : G → CaseState → GraphProgram CaseState)
    (tool : Shop → String → Dict → Except Exc Json) (s₀ : Server G) : Server G → Prop
  | refl : Reaches env invoke tool s₀ s₀
  | served {ι : Type} [DecidableEq ι] {s s' : Server G} {request : ι → ResolveRequest env.db}
      {tr : List (ι × RouteEvent G)}
      {pool' : ι → Program (routeSig G) Exc (Except HttpError ResolveResponse)} :
      Reaches env invoke tool s₀ s →
      Interleaves (fun i => resolve env invoke (request i)) tr pool' →
      World.Runs (ServerStep tool) s (tr.map Prod.snd) s' →
      FreshIds s.file.contents (caseTrace tr) → Reaches env invoke tool s₀ s'
  | restarted {s : Server G} : Reaches env invoke tool s₀ s →
      Reaches env invoke tool s₀ (.start s.file)

variable {tool : Shop → String → Dict → Except Exc Json} {s s' : Server G}

def routeWrite? (e : RouteEvent G) : Option Write := (callEvent? e).bind callWrite?

theorem ServerStep.file {e : RouteEvent G} (h : ServerStep tool s e s') :
    ∃ now, s'.file = s.file.replay ((routeWrite? e).map (Prod.mk now)).toList := by
  cases h with
  | inserted e now w hwritten =>
    refine ⟨now, ?_⟩
    have hroute : routeWrite? (⟨.inr e.op, e.reply⟩ : RouteEvent G) = some w := hwritten
    rw [hroute]
    rfl
  | serviceEvent e hnone =>
    have hroute : routeWrite? (⟨.inr e.op, e.reply⟩ : RouteEvent G) = none := hnone
    rw [hroute]
    exact ⟨"", rfl⟩
  | _ => exact ⟨"", rfl⟩

theorem filterMap_routeWrite (tr : List (RouteEvent G)) :
    tr.filterMap routeWrite? = writes (callEvents tr) := by
  rw [writes_eq, callEvents, List.filterMap_filterMap]
  rfl

/-- A run leaves the file with the inserts its requests committed, each with its time. -/
theorem runs_file {tr : List (RouteEvent G)} (h : World.Runs (ServerStep tool) s tr s') :
    ∃ ws : List (String × Write), ws.map Prod.snd = writes (callEvents tr) ∧
      s'.file = s.file.replay ws := by
  rw [← filterMap_routeWrite]
  induction h with
  | nil s => exact ⟨[], rfl, rfl⟩
  | @cons s mid s' e tr hstep _ ih =>
    obtain ⟨ws, hws, hfile⟩ := ih
    obtain ⟨now, hmid⟩ := hstep.file
    refine ⟨((routeWrite? e).map (Prod.mk now)).toList ++ ws, ?_, ?_⟩
    · rw [List.map_append, hws, List.filterMap_cons]
      cases routeWrite? e <;> rfl
    · rw [hfile, hmid, DatabaseFile.replay, DatabaseFile.replay, DatabaseFile.replay,
        List.foldl_append]

theorem replay_shop (file : DatabaseFile) (ws : List (String × Write)) :
    (file.replay ws).shop = file.shop := by
  induction ws generalizing file with
  | nil => rfl
  | cons w ws ih =>
    rw [DatabaseFile.replay, List.foldl_cons, ← DatabaseFile.replay, ih,
      DatabaseFile.apply_shop]

def countedHex (file : DatabaseFile) : String :=
  String.ofList (List.replicate 32 (Nat.digitChar file.tickets.rows.length))

/-- A server with the scripted client of the tests, whose compilation comes to `built`. -/
def Server.handler (llm : FakeLLM) (built : Except Exc G)
    (tool : Shop → String → Dict → Except Exc Json) : Handler (routeSig G) (Server G)
  | .inl (.inl .readGraph), s => (s.graph, s)
  | .inl (.inl .compileGraph), s => (built, s)
  | .inl (.inl (.storeGraph graph)), s => ((), { s with graph := some graph })
  | .inl (.inr (.callTool name args)), s => (tool s.file.shop name args, s)
  | .inl (.inr o), s => ((llm.handler "" (.inl o) ()).1, s)
  | .inr .uuidHex, s => (countedHex s.file, s)
  | .inr (.insertTicket row), s =>
    (.ok (), { s with file := s.file.apply ("2026-08-01 00:00:00", .ticket row) })
  | .inr (.insertToolCall row), s =>
    (.ok (), { s with file := s.file.apply ("2026-08-01 00:00:00", .toolCall row) })
  | .inr (.insertSecurityEvent row), s =>
    (.ok (), { s with file := s.file.apply ("2026-08-01 00:00:00", .securityEvent row) })
  | .inr o, s => ((llm.handler "" (.inr o) ()).1, s)

theorem step_handler (llm : FakeLLM) (built : Except Exc G) (o : (routeSig G).Op)
    (s : Server G) : ServerStep tool s ⟨o, (Server.handler llm built tool o s).1⟩
      (Server.handler llm built tool o s).2 := by
  rcases o with (o | o) | o
  · cases o with
    | readGraph => exact .readGraph s
    | compileGraph => exact .compileGraph s built
    | storeGraph graph => exact .storeGraph s graph
  · cases o with
    | callTool name args => exact .toolAnswered s name args
    | _ => exact .graphEvent s ⟨_, _⟩ fun _ _ => nofun
  · cases o with
    | insertTicket row => exact .inserted s ⟨.insertTicket row, .ok ()⟩ _ _ rfl
    | insertToolCall row => exact .inserted s ⟨.insertToolCall row, .ok ()⟩ _ _ rfl
    | insertSecurityEvent row => exact .inserted s ⟨.insertSecurityEvent row, .ok ()⟩ _ _ rfl
    | _ => exact .serviceEvent s ⟨_, _⟩ rfl

end

def findNothing : Shop → String → Dict → Except Exc Json := fun _ _ _ => .ok (.list [])

section

variable {G : Type}

def twoRoutes (second : Bool) : Program (routeSig G) Exc (Except HttpError ResolveResponse) :=
  resolve testEnv (fun _ => caseGraph testEnv) (twoRequests second)

/-- A server on which every compilation comes to `built`, and which finds nothing in its shop. -/
abbrev scripted (built : Except Exc G) : Handler (routeSig G) (Server G) :=
  Server.handler {} built findNothing

def serve (built : Except Exc G) (requests : List Bool) (s : Server G := .start .empty) :
    List (Bool × RouteEvent G) × Server G :=
  runAll (scripted built) twoRoutes requests s

theorem interleaves_serve (built : Except Exc G) (requests : List Bool)
    (hnodup : requests.Nodup := by decide) (s : Server G := .start .empty) :
    ∃ pool', Interleaves twoRoutes (serve built requests s).1 pool' ∧
      ∀ before second after, requests = before ++ second :: after →
        (pool' second).outcome =
          some ((twoRoutes second).run (scripted built) (serve built before s).2).out := by
  obtain ⟨pool', hinter, hended, -⟩ := interleaves_runAll (scripted built) twoRoutes hnodup s
  exact ⟨pool', hinter, hended⟩

theorem runs_serve (built : Except Exc G) (requests : List Bool)
    (s : Server G := .start .empty) :
    World.Runs (ServerStep findNothing) s ((serve built requests s).1.map Prod.snd)
      (serve built requests s).2 :=
  World.runs_runAll (step_handler {} built) _ _ _

end

theorem freshIds_serve :
    FreshIds (Server.start .empty : Server Unit).file.contents
      (caseTrace (serve (.ok ()) [false, true]).1) where
  fresh _ _ _ := ⟨fun _ h => absurd h List.not_mem_nil, fun _ h => absurd h List.not_mem_nil,
    fun _ h => absurd h List.not_mem_nil⟩
  distinct := by decide +kernel

theorem reaches_serve : Reaches testEnv (fun _ => caseGraph testEnv) findNothing
    (.start .empty) (serve (.ok ()) [false, true]).2 := by
  obtain ⟨pool', hinter, -⟩ := interleaves_serve (.ok ()) [false, true]
  exact .served .refl hinter (runs_serve (.ok ()) [false, true]) freshIds_serve

def responds (out : Except Exc (Except HttpError ResolveResponse)) : Bool :=
  out.toOption.any fun answer => answer.toOption.isSome

theorem exists_of_responds {out : Except Exc (Except HttpError ResolveResponse)}
    (h : responds out = true) : ∃ resp, out = .ok (.ok resp) := by
  rcases out with exc | _ | resp
  · cases h
  · cases h
  · exact ⟨resp, rfl⟩

theorem exists_response_serve :
    ∃ pool', Interleaves twoRoutes (serve (.ok ()) [false, true]).1 pool' ∧
      ∃ resp, (pool' true).outcome = some (.ok (.ok resp)) := by
  obtain ⟨pool', hinter, hended⟩ := interleaves_serve (.ok ()) [false, true]
  refine ⟨pool', hinter, ?_⟩
  rw [hended [false] true [] rfl]
  have hanswered : responds ((twoRoutes true).run (scripted (.ok ()))
      (serve (.ok ()) [false]).2).out = true := by decide +kernel
  obtain ⟨resp, hresp⟩ := exists_of_responds hanswered
  exact ⟨resp, congrArg some hresp⟩

end TicketWarden.Service
