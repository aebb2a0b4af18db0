/- Module: TicketWarden/Service/Work
   source: apps/api/src/main.py, apps/api/src/service.py, apps/api/src/graph/build.py
   digest: How much a request may do: in every schedule of any requests each of them is answered
   after a bounded number of steps, and inserts a bounded number of rows. -/

import TicketWarden.Effects.Cost
import TicketWarden.Graph.Budget
import TicketWarden.Service.LazyGraph

set_option autoImplicit false
set_option relaxedAutoImplicit false

namespace TicketWarden.Service

open TicketWarden.Graph Effects Guardrails Observability Python Storage Store

section Service

variable (step insert : ℕ)

def servicePrice : serviceSig.Op → ℕ
  | .insertTicket _ => insert
  | .insertToolCall _ => insert
  | .insertSecurityEvent _ => insert
  | _ => step

variable {step insert : ℕ}

private theorem costs_service (o : ServiceOp) :
    Costs (servicePrice step insert) (perform o) (servicePrice step insert o) :=
  costs_perform (S := serviceSig) o

private theorem costs_insertTicket (row : TicketRow) :
    Costs (servicePrice step insert) (insertTicket row) insert :=
  Costs.mono (costs_bind (costs_service (.insertTicket row)) fun r => costs_ofExcept r)
    (Nat.le_refl insert)

private theorem costs_insertToolCall (db : Runtime) (row : ToolCallRow) :
    Costs (servicePrice step insert) (insertToolCall db row) insert := by
  refine Costs.mono (costs_bind (costs_ofExcept _) fun _ => costs_bind (costs_ofExcept _) fun _ =>
    costs_bind (costs_service (.insertToolCall row)) fun r => costs_ofExcept r) ?_
  show 0 + (0 + (insert + 0)) ≤ insert
  omega

private theorem costs_insertSecurityEvent (row : SecurityEventRow) :
    Costs (servicePrice step insert) (insertSecurityEvent row) insert :=
  Costs.mono (costs_bind (costs_service (.insertSecurityEvent row)) fun r => costs_ofExcept r)
    (Nat.le_refl insert)

private theorem costs_record (metric : Metric) :
    Costs (servicePrice step insert) (record metric) step :=
  costs_service (.record metric)

private theorem costs_recordAmount {α : Type} [LinearOrder α] [Zero α] (amount : α)
    (metric : Metric) :
    Costs (servicePrice step insert) (recordAmount amount metric) step := by
  unfold recordAmount
  split
  · exact (costs_pure ()).mono (Nat.zero_le step)
  · split
    · exact (costs_ofExcept (.error negativeAmount)).mono (Nat.zero_le step)
    · exact costs_record metric

private theorem costs_logSecurityEvent (ticketId : String) (eventType : SecurityEventType)
    (detail : Option String) :
    Costs (servicePrice step insert) (logSecurityEvent ticketId eventType detail)
      (insert + step) :=
  costs_bind (costs_insertSecurityEvent _) fun _ => costs_record _

private theorem costs_persistToolCall (db : Runtime) (ticketId : String) (call : ToolRecord) :
    Costs (servicePrice step insert) (persistToolCall db ticketId call)
      (2 * insert + 2 * step) := by
  have hrest : Costs (servicePrice step insert)
      (if call.status = ToolStatus.blocked.value then
        logSecurityEvent ticketId .toolBlocked (some ("tool=" ++ call.toolName))
      else if call.status = ToolStatus.sanitized.value then
        logSecurityEvent ticketId .toolOutputSanitized (some ("tool=" ++ call.toolName))
      else pure ()) (insert + step) := by
    split
    · exact costs_logSecurityEvent _ _ _
    · split
      · exact costs_logSecurityEvent _ _ _
      · exact (costs_pure ()).mono (Nat.zero_le _)
  refine Costs.mono (costs_bind (costs_insertToolCall _ _) fun _ =>
    costs_bind (costs_record _) fun _ => hrest) ?_
  omega

private theorem costs_persist (db : Runtime) (state : CaseState) (ticketId : String)
    (latencyMs costUsd : ℚ) :
    Costs (servicePrice step insert) (persist db state ticketId latencyMs costUsd)
      (insert + state.toolCalls.length * (2 * insert + 2 * step)) :=
  costs_bind (costs_insertTicket _) fun _ =>
    costs_forM fun call => costs_persistToolCall db ticketId call

private theorem costs_logWithheld (ticketId : String) (withheld : Option String) :
    Costs (servicePrice step insert) (logWithheld ticketId withheld) (insert + step) := by
  cases withheld with
  | none => exact (costs_pure ()).mono (Nat.zero_le _)
  | some pattern => exact costs_logSecurityEvent _ _ _

private theorem costs_recordCase (decision : String) (latencyMs costUsd : ℚ)
    (promptTokens completionTokens : ℤ) (llmCalls : ℕ) :
    Costs (servicePrice step insert)
      (recordCase decision latencyMs promptTokens completionTokens costUsd llmCalls)
      (6 * step) := by
  refine Costs.mono (costs_bind (costs_record _) fun _ => costs_bind (costs_record _) fun _ =>
    costs_bind (costs_bind (costs_recordAmount _ _) fun _ => costs_recordAmount _ _) fun _ =>
      costs_bind (costs_recordAmount _ _) fun _ => costs_recordAmount _ _) ?_
  omega

private theorem costs_refuse (db : Runtime) (started : ℚ) (ticketId redactedTicket : String)
    (reason : Option String) :
    Costs (servicePrice step insert) (refuse db started ticketId redactedTicket reason)
      (4 * step + 2 * insert) := by
  refine Costs.mono (costs_bind (costs_service .perfCounter) fun _ =>
    costs_bind (costs_persist _ _ _ _ _) fun _ => costs_bind (costs_logSecurityEvent _ _ _) fun _ =>
      costs_bind (costs_record _) fun _ => costs_bind (costs_record _) fun _ => costs_pure _) ?_
  show step + (insert + 0 * (2 * insert + 2 * step) + (insert + step + (step + (step + 0)))) ≤ _
  omega

private theorem costs_finish (env : Env) (started : ℚ) (ticketId redactedTicket : String)
    (final : CaseState) :
    Costs (servicePrice step insert) (finish env started ticketId redactedTicket final)
      (11 * step + 2 * insert + final.toolCalls.length * (2 * insert + 2 * step)) := by
  have hcalls := (outboundGate_frame env.db final).2.2.2
  unfold finish
  rcases hgated : outboundGate env.db final with ⟨final', reply, decision, withheld⟩
  rw [hgated] at hcalls
  refine Costs.mono (costs_bind (costs_service .traceUrl) fun _ =>
    costs_bind (costs_logWithheld _ _) fun _ => costs_bind (costs_service .perfCounter) fun _ =>
      costs_bind (costs_service .usage) fun _ => costs_bind (costs_ofExcept _) fun _ =>
        costs_bind (costs_record _) fun _ => costs_bind (costs_ofExcept _) fun _ =>
          costs_bind (costs_persist _ _ _ _ _) fun _ =>
          costs_bind (costs_recordCase _ _ _ _ _ _) fun _ => costs_pure _) ?_
  rw [hcalls]
  show step + (insert + step + (step + (step + (0 + (step + (0 +
    (insert + final.toolCalls.length * (2 * insert + 2 * step) + (6 * step + 0)))))))) ≤ _
  omega

end Service

section Request

variable {G : Type} {env : Env} {step insert : ℕ}

def routePrice (step insert : ℕ) : (routeSig G).Op → ℕ
  | .inl _ => step
  | .inr o => servicePrice step insert o

/-- What a request may cost: two steps for each call of the model and each dispatched request, and
what is done around them. -/
def work (settings : Settings) (step insert : ℕ) : ℕ :=
  (21 + 4 * passes settings 0 + 4 * settings.maxToolRounds.toNat) * step +
    (2 + 2 * settings.maxToolRounds.toNat) * insert

private theorem cost_route (tr : List (RouteEvent G)) :
    cost (routePrice step insert) tr =
      (appEvents tr).length * step + (graphEvents (callEvents tr)).length * step +
        cost (servicePrice step insert) (serviceEvents (callEvents tr)) := by
  induction tr with
  | nil => simp [appEvents, graphEvents, callEvents, serviceEvents]
  | cons e tr ih =>
    rw [cost_cons, ih]
    obtain ⟨(o | o) | o, r⟩ := e
    · show step + _ = ((appEvents tr).length + 1) * step +
        (graphEvents (callEvents tr)).length * step + cost _ (serviceEvents (callEvents tr))
      rw [Nat.succ_mul]
      omega
    · show step + _ = (appEvents tr).length * step +
        ((graphEvents (callEvents tr)).length + 1) * step + cost _ (serviceEvents (callEvents tr))
      rw [Nat.succ_mul]
      omega
    · show servicePrice step insert o + _ = (appEvents tr).length * step +
        (graphEvents (callEvents tr)).length * step +
          (servicePrice step insert o + cost _ (serviceEvents (callEvents tr)))
      omega

theorem Sourced.length_le {refused : Prop} {app : List (AppEvent G)} {source : Except Exc G}
    (h : Sourced refused app source) : app.length ≤ 4 := by
  cases h with
  | present graph => simp
  | unneeded _ _ => simp
  | needed _ hacquired => cases hacquired <;> simp

private theorem exec_invoke_work (hrounds : 0 ≤ env.settings.maxToolRounds) {source : Except Exc G}
    {ticketId ticket : String} {orderId : Option String} {tr : List GraphEvent}
    {out : Except Exc CaseState}
    (h : Exec (invokeOf (fun _ => caseGraph env) source (initialState ticketId ticket orderId))
      tr out) :
    tr.length ≤ 4 + 4 * passes env.settings 0 + 2 * env.settings.maxToolRounds.toNat ∧
      (settled (initialState ticketId ticket orderId) out).toolCalls.length ≤
        env.settings.maxToolRounds.toNat := by
  cases source with
  | error exc =>
    obtain ⟨rfl, rfl⟩ := exec_fail_iff.mp h
    exact ⟨Nat.zero_le _, Nat.zero_le _⟩
  | ok graph =>
    have hrun := graphRun_of_exec rfl h
    have hlength := exec_runGraph_length h
    have hcalls : tr.countP isModelCall ≤ 2 + 2 * passes env.settings 0 := hrun.modelCalls
    have hdispatched := hrun.dispatched_le hrounds
    refine ⟨by omega, ?_⟩
    cases out with
    | error exc => exact Nat.zero_le _
    | ok final =>
      show final.toolCalls.length ≤ _
      rw [hrun.toolCalls]
      exact hdispatched

private theorem costs_resolve (hrounds : 0 ≤ env.settings.maxToolRounds)
    (request : ResolveRequest env.db) :
    Costs (routePrice step insert)
      (resolve env (fun _ : G => caseGraph env) request) (work env.settings step insert) := by
  intro tr out h
  obtain ⟨source, out', hsource, hcase, -⟩ := route_refines h
  obtain ⟨started, hex, tr', hservice, hrest⟩ := exec_resolveCase hcase
  have happ := Nat.mul_le_mul_right step hsource.length_le
  show cost (routePrice step insert) tr ≤ work env.settings step insert
  rw [cost_route, hservice, cost_cons, cost_cons]
  show _ + _ + (step + (step + cost (servicePrice step insert) tr')) ≤ _
  rcases hrest with ⟨reason, -, hgraph, hrefuse⟩ | ⟨-, gout, hgraph, hfinish⟩
  · have hcost : cost (servicePrice step insert) tr' ≤ 4 * step + 2 * insert :=
      costs_refuse _ _ _ _ _ hrefuse
    rw [hgraph, List.length_nil, work]
    nlinarith
  · obtain ⟨hlength, hcalls⟩ := exec_invoke_work hrounds hgraph
    have hcost : cost (servicePrice step insert) tr' ≤ _ := costs_finish _ _ _ _ _ hfinish
    have hgraphs := Nat.mul_le_mul_right step hlength
    have hrows := Nat.mul_le_mul_right (2 * insert + 2 * step) hcalls
    rw [work]
    nlinarith

private theorem cost_one (tr : List (RouteEvent G)) : cost (routePrice 1 1) tr = tr.length := by
  induction tr with
  | nil => rfl
  | cons e tr ih =>
    have hone : routePrice 1 1 e.op = 1 := by
      obtain ⟨(o | o) | o, r⟩ := e
      · rfl
      · rfl
      · cases o <;> rfl
    rw [cost_cons, ih, hone, List.length_cons, Nat.add_comm]

private theorem writes_le_cost (tr : List (RouteEvent G)) :
    (writes (callEvents tr)).length ≤ cost (routePrice 0 1) tr := by
  rw [← filterMap_routeWrite]
  induction tr with
  | nil => exact Nat.le_refl 0
  | cons e tr ih =>
    have hone : (routeWrite? e).toList.length ≤ routePrice 0 1 e.op := by
      obtain ⟨(o | o) | o, r⟩ := e
      · exact Nat.le_refl 0
      · exact Nat.le_refl 0
      · cases o with
        | insertTicket row => cases r <;> first | exact Nat.le_refl 1 | exact Nat.zero_le 1
        | insertToolCall row => cases r <;> first | exact Nat.le_refl 1 | exact Nat.zero_le 1
        | insertSecurityEvent row => cases r <;> first | exact Nat.le_refl 1 | exact Nat.zero_le 1
        | _ => exact Nat.le_refl 0
    rw [cost_cons, List.filterMap_cons]
    cases hwrite : routeWrite? e with
    | none => exact ih.trans (Nat.le_add_left _ _)
    | some w =>
      rw [hwrite] at hone
      have hle : 1 ≤ routePrice 0 1 e.op := hone
      rw [List.length_cons]
      omega

end Request

section Pool

variable {G ι : Type} [DecidableEq ι] [Fintype ι] {env : Env} {request : ι → ResolveRequest env.db}
  {tr : List (ι × RouteEvent G)}
  {pool' : ι → Program (routeSig G) Exc (Except HttpError ResolveResponse)}

/-- In whatever order some requests are answered at once, and whatever they are answered by the
models, the tools and the database, each of them takes a bounded number of steps and commits a
bounded number of inserts; so the schedule is bounded too, and from wherever it is it can go on
until every request has its answer. -/
theorem requests_end (hrounds : 0 ≤ env.settings.maxToolRounds)
    (h : Interleaves (fun i => resolve env (fun _ => caseGraph env) (request i)) tr pool') :
    (∀ i, (ownTrace i tr).length ≤ work env.settings 1 1 ∧
        (writes (callEvents (ownTrace i tr))).length ≤ 2 + 2 * env.settings.maxToolRounds.toNat) ∧
      tr.length ≤ Fintype.card ι * work env.settings 1 1 ∧
      ∃ rest pool'', Interleaves pool' rest pool'' ∧
        ∀ i, ∃ answer, (pool'' i).outcome = some (.ok answer) := by
  have hcosts : ∀ step insert i, Costs (routePrice step insert)
      (resolve env (fun _ : G => caseGraph env) (request i)) (work env.settings step insert) :=
    fun _ _ i => costs_resolve hrounds (request i)
  have hsteps := h.cost_le (hcosts 1 1)
  have hinserts := h.cost_le (hcosts 0 1)
  simp only [cost_one] at hsteps
  refine ⟨fun i => ⟨hsteps.1 i, ?_⟩, ?_, ?_⟩
  · have hle := (writes_le_cost _).trans (hinserts.1 i)
    rw [work] at hle
    omega
  · have hle := hsteps.2
    rwa [List.length_map] at hle
  · obtain ⟨rest, pool'', hrest, hended⟩ := exists_interleaves_ended pool'
    refine ⟨rest, pool'', hrest, fun i => ?_⟩
    obtain ⟨out, hout⟩ := Option.isSome_iff_exists.mp (hended i)
    obtain ⟨source, out', -, -, rfl⟩ := route_refines (((h.append hrest).steps i).exec hout)
    exact ⟨answer out', hout⟩

end Pool

theorem requests_end_serve :
    (∀ i, (ownTrace i (serve (.ok ()) [false, true]).1).length ≤ 49 ∧
        (writes (callEvents (ownTrace i (serve (.ok ()) [false, true]).1))).length ≤ 8) ∧
      (serve (.ok ()) [false, true]).1.length ≤ 98 := by
  obtain ⟨pool', hinter, -⟩ := interleaves_serve (.ok ()) [false, true]
  have hrounds : 0 ≤ testEnv.settings.maxToolRounds := by decide
  obtain ⟨hown, hall, -⟩ := requests_end hrounds hinter
  exact ⟨hown, hall⟩

end TicketWarden.Service
