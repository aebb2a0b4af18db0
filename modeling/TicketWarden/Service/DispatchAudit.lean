/- Module: TicketWarden/Service/DispatchAudit
   source: apps/api/src/service.py, apps/api/src/graph/nodes.py
   digest: Exactly when every dispatched tool request is in the audit tables. -/

import TicketWarden.Service.Ending
import TicketWarden.Service.FakeLLM

set_option autoImplicit false
set_option relaxedAutoImplicit false

namespace TicketWarden.Service

open TicketWarden.Graph Effects Guardrails Python Storage

def plans (tr : List CallEvent) : List (List ToolRequest) := (graphEvents tr).filterMap plan?

/-- Every dispatched request has a row of its own with its status, in dispatch order, and the
security event its status calls for. -/
structure DispatchesRecorded (tr : List CallEvent) (resp : ResolveResponse) : Prop where
  rows : ((dispatches tr).map fun record =>
      (resp.ticketId, record.toolName, record.status)).Sublist
    (((writes tr).filterMap Write.toolCall?).map fun row =>
      (row.ticketId, row.toolName, row.status))
  events : ((dispatches tr).flatMap (toolCallEvents resp.ticketId)).Sublist
    ((writes tr).filterMap Write.securityEvent?)

private theorem dispatches_eq_nil_iff {env : Env} {initial : CaseState} {tr : List CallEvent}
    {gout : Except Exc CaseState} (hd : initial.decision = none)
    (h : Exec (caseGraph env initial) (graphEvents tr) gout) :
    dispatches tr = [] ↔ ∀ plan ∈ plans tr, sliceTo plan env.settings.maxToolRounds = [] := by
  obtain ⟨done, hnames, hprefix, hnil⟩ := (graphRun_of_exec hd h).requests
  have hdone : dispatches tr = [] ↔ done = [] := by
    rw [← List.map_eq_nil_iff (f := ToolRequest.name), ← hnames, List.map_eq_nil_iff]
    rfl
  rw [hdone, ← List.flatMap_eq_nil_iff]
  constructor
  · exact hnil
  · intro hplans
    change (plans tr).flatMap _ = [] at hplans
    exact List.prefix_nil.mp (hplans ▸ hprefix)

theorem dispatchesRecorded_iff {env : Env} {request : ResolveRequest env.db}
    {tr : List CallEvent} {resp : ResolveResponse}
    (h : Exec (resolveCase env (caseGraph env) request) tr (.ok resp)) :
    DispatchesRecorded tr resp ↔
      (∀ plan ∈ plans tr, sliceTo plan env.settings.maxToolRounds = []) ∨
        Concluded env.settings env.recursionLimit (verdicts tr) := by
  cases returned_of_exec h with
  | refused ticketId reason latencyMs hscan hgraph hwrites hresp =>
    refine iff_of_true ⟨?_, ?_⟩ (.inl ?_)
    · simp [dispatches, hgraph]
    · simp [dispatches, hgraph]
    · simp [plans, hgraph]
  | settled ticketId gout gated latencyMs costUsd traceUrl hscan hgraph hgated hwrites hresp =>
    have hid : resp.ticketId = ticketId := by rw [hresp]
    have hcalls := (outboundGate_frame env.db (Service.settled (initialState ticketId
      (redactPii env.db request.ticket) request.orderId) gout)).2.2.2
    rw [← hgated] at hcalls
    obtain ⟨-, hrows, hevents⟩ := @persistWrites_rows gated.final ticketId latencyMs costUsd
    cases ending_of_exec rfl rfl hgraph with
    | raised exc hunfinished hfailed =>
      have hopen : ¬ Concluded env.settings env.recursionLimit (verdicts tr) :=
        hunfinished.not_concluded rfl
      have hnone : (writes tr).filterMap Write.toolCall? = [] := by
        rw [hwrites, List.filterMap_append, events_toolCalls, hrows, hcalls]
        rfl
      rw [← dispatches_eq_nil_iff rfl hgraph]
      constructor
      · intro hrecorded
        have hsub := hrecorded.rows
        rw [hnone] at hsub
        exact .inl (List.map_eq_nil_iff.mp (List.sublist_nil.mp hsub))
      · rintro (hempty | hconcluded)
        · exact ⟨by simp [hempty], by simp [hempty]⟩
        · exact absurd hconcluded hopen
    | @returned final text rejected last hreviewed hsteps htext hdraft hticket hrecords hanswered =>
      have hfinal : gated.final.toolCalls = dispatches tr := hcalls.trans hrecords
      refine iff_of_true ⟨?_, ?_⟩ (.inr (hreviewed.isConcluded hsteps))
      · rw [hwrites, List.filterMap_append, events_toolCalls, hrows, hfinal, hid,
          List.nil_append, List.map_map]
        exact List.Sublist.refl _
      · rw [hwrites, List.filterMap_append, events_securityEvents, hevents, hfinal, hid]
        exact List.sublist_append_right _ _

def interruptedLLM : FakeLLM where
  toolRequests := [⟨"delete_order", none⟩]
  draftText := .error ⟨"TimeoutError", "model timed out"⟩

theorem dispatchesRecorded_iff_interruptedLLM :
    ∃ resp, Exec (resolveCase testEnv (caseGraph testEnv) cancelMyOrder)
        (interruptedLLM.resolve cancelMyOrder).trace (.ok resp) ∧
      (DispatchesRecorded (interruptedLLM.resolve cancelMyOrder).trace resp ↔
        (∀ plan ∈ plans (interruptedLLM.resolve cancelMyOrder).trace,
            sliceTo plan testEnv.settings.maxToolRounds = []) ∨
          Concluded testEnv.settings testEnv.recursionLimit
            (verdicts (interruptedLLM.resolve cancelMyOrder).trace)) := by
  obtain ⟨resp, h, -⟩ := exec_run_ok (h := interruptedLLM.handler) (s := ()) (P := fun _ => true)
    (p := resolveCase testEnv (caseGraph testEnv) cancelMyOrder) (by decide +kernel)
  exact ⟨resp, h, dispatchesRecorded_iff h⟩

theorem blocked_request_unrecorded :
    ∃ resp, Exec (resolveCase testEnv (caseGraph testEnv) cancelMyOrder)
        (interruptedLLM.resolve cancelMyOrder).trace (.ok resp) ∧
      isInjection testEnv.db (redactPii testEnv.db cancelMyOrder.ticket) = false ∧
      ¬ DispatchesRecorded (interruptedLLM.resolve cancelMyOrder).trace resp := by
  obtain ⟨resp, h, -⟩ := exec_run_ok (h := interruptedLLM.handler) (s := ()) (P := fun _ => true)
    (p := resolveCase testEnv (caseGraph testEnv) cancelMyOrder) (by decide +kernel)
  refine ⟨resp, h, by decide +kernel, fun hrecorded => ?_⟩
  have hrows := hrecorded.rows.length_le
  have hmissing : ¬ (dispatches (interruptedLLM.resolve cancelMyOrder).trace).length ≤
      ((writes (interruptedLLM.resolve cancelMyOrder).trace).filterMap
        Write.toolCall?).length := by decide +kernel
  rw [List.length_map, List.length_map] at hrows
  exact hmissing hrows

end TicketWarden.Service
