/- Module: TicketWarden/Graph/Invariant
   source: apps/api/src/graph/nodes.py, apps/api/src/graph/edges.py, apps/api/src/graph/build.py
   digest: What holds of the state whenever a node is entered, and of the state that the graph
   ends with. -/

import TicketWarden.Graph.Budget
import TicketWarden.Graph.Ledger

set_option autoImplicit false
set_option relaxedAutoImplicit false

namespace TicketWarden.Graph

open Effects Guardrails Python Store

variable {db : Runtime} {settings : Settings} {limit steps : ℕ} {state final : CaseState}
  {ticket : String} {tr : List GraphEvent}

private theorem runGraph_invariant {P : Node → CaseState → Prop} {Q : CaseState → Prop}
    (hstep : ∀ node state tr state', P node state →
      Exec (runNode db settings node state) tr (.ok state') →
        (nextNode settings node state').elim Q (fun next => P next) state')
    {node : Option Node} (hP : node.elim Q (fun node => P node) state)
    (h : Exec (runGraph db settings limit steps node state) tr (.ok final)) : Q final := by
  induction steps generalizing node state tr with
  | zero =>
    obtain ⟨-, hout⟩ := exec_fail_iff.mp h
    cases hout
  | succ steps ih =>
    cases node with
    | none =>
      obtain ⟨-, hout⟩ := exec_pure_iff.mp h
      cases hout
      exact hP
    | some node =>
      obtain ⟨tr', rfl, ⟨exc, -, hout⟩ | ⟨state', tr₁, tr₂, rfl, hnode, hrest⟩⟩ :=
        exec_runGraph_succ h
      · cases hout
      exact ih (hstep node state tr₁ state' hP hnode) hrest

/-- The records of a case are those of dispatched requests. -/
def Booked (db : Runtime) (state : CaseState) : Prop :=
  ∀ record ∈ state.toolCalls, ∃ entry : LedgerEntry db, entry.record = record

/-- A case that is not decided yet, with room for one more pass. -/
structure Open (db : Runtime) (settings : Settings) (ticket : String) (node : Node)
    (state : CaseState) : Prop where
  ticket : state.ticket = ticket
  records : Booked db state
  category : node ≠ .classifier → Categorized state
  undecided : state.decision = none
  unexplained : state.escalationReason = none
  iterations : 0 ≤ state.iterations
  room : state.iterations + 1 ≤ reviewCap settings

/-- A case that the graph has decided. -/
structure Closed (db : Runtime) (settings : Settings) (ticket : String)
    (state : CaseState) : Prop where
  ticket : state.ticket = ticket
  records : Booked db state
  category : Categorized state
  decided : (state.decision = some Decision.resolved.value ∧ state.escalationReason = none) ∨
    (state.decision = some Decision.escalate.value ∧
      ∃ feedback, state.escalationReason = some (exhaustedReason state.iterations feedback))
  iterations : 1 ≤ state.iterations
  within_cap : state.iterations ≤ reviewCap settings

private theorem booked_researcher {out : CaseState} (hstate : Booked db state)
    (h : Exec (researcher db settings state) tr (.ok out)) :
    ∃ facts toolCalls, out = { state with facts := facts, toolCalls := toolCalls } ∧
      Booked db out := by
  obtain ⟨requests, tr₁, tr₂, rfl, -, hrest⟩ := exec_bind_ok_iff.mp h
  obtain ⟨result, hall, hout⟩ := exec_bind_pure_iff.mp hrest
  rcases result with exc | result
  · cases hout
  obtain ⟨entries, -, -, rfl⟩ := exec_dispatchAll_ledger hall
  cases hout
  refine ⟨_, _, rfl, fun record hrecord => ?_⟩
  rcases List.mem_append.mp hrecord with hold | hnew
  · exact hstate record hold
  · obtain ⟨entry, -, rfl⟩ := List.mem_map.mp hnew
    exact ⟨entry, rfl⟩

private theorem Open.judged (h : Open db settings ticket .reviewer state) (verdict : Verdict) :
    (routeAfterReview settings (applyVerdict settings state verdict)).elim
      (Closed db settings ticket) (fun next => Open db settings ticket next)
      (applyVerdict settings state verdict) := by
  have hnonneg := h.iterations
  cases happroved : verdict.approved with
  | true =>
    rw [applyVerdict, if_pos happroved, routeAfterReview, if_pos rfl]
    exact {
      ticket := h.ticket
      records := h.records
      category := h.category (by decide)
      decided := .inl ⟨rfl, h.unexplained⟩
      iterations := by
        show 1 ≤ state.iterations + 1
        omega
      within_cap := h.room }
  | false =>
    have hrejected : ¬ verdict.approved = true := by simp [happroved]
    by_cases hcap : settings.maxReviewIterations ≤ state.iterations + 1
    · have hescalated : some Decision.escalate.value ≠ some Decision.resolved.value := by decide
      rw [applyVerdict, if_neg hrejected]
      dsimp only
      rw [if_pos hcap, routeAfterReview, if_neg hescalated, if_pos hcap]
      exact {
        ticket := h.ticket
        records := h.records
        category := h.category (by decide)
        decided := .inr ⟨rfl, _, rfl⟩
        iterations := by
          show 1 ≤ state.iterations + 1
          omega
        within_cap := h.room }
    · rw [applyVerdict, if_neg hrejected]
      dsimp only
      rw [if_neg hcap, routeAfterReview, if_neg (by simp [h.undecided]), if_neg hcap]
      exact {
        ticket := h.ticket
        records := h.records
        category := fun _ => h.category (by decide)
        undecided := h.undecided
        unexplained := h.unexplained
        iterations := by
          show 0 ≤ state.iterations + 1
          omega
        room := by
          show state.iterations + 1 + 1 ≤ max 1 settings.maxReviewIterations
          omega }

theorem Open.step {node : Node} {state' : CaseState} (h : Open db settings ticket node state)
    (hnode : Exec (runNode db settings node state) tr (.ok state')) :
    (nextNode settings node state').elim (Closed db settings ticket)
      (fun next => Open db settings ticket next) state' := by
  cases node with
  | classifier =>
    obtain ⟨answer, -, hout⟩ := exec_classifier_iff.mp hnode
    cases answer with
    | error exc => cases hout
    | ok category =>
      cases hout
      exact { h with category := fun _ => categorized_classified state category }
  | researcher =>
    obtain ⟨facts, toolCalls, rfl, hbooked⟩ := booked_researcher h.records hnode
    exact { h with records := hbooked, category := fun _ => h.category (by decide) }
  | responder =>
    obtain ⟨answer, -, hout⟩ := exec_responder_iff.mp hnode
    cases answer with
    | error exc => cases hout
    | ok text =>
      cases hout
      exact { h with category := fun _ => h.category (by decide) }
  | reviewer =>
    obtain ⟨answer, -, hout⟩ := exec_reviewer_iff.mp hnode
    cases answer with
    | error exc => cases hout
    | ok verdict =>
      cases hout
      exact h.judged verdict

theorem closed_of_exec (h : Open db settings ticket .classifier state)
    (hrun : Exec (compileGraph db settings limit state) tr (.ok final)) :
    Closed db settings ticket final := by
  have hstart : (some Node.classifier).elim (Closed db settings ticket)
      (fun node => Open db settings ticket node) state := h
  exact runGraph_invariant (fun _ _ _ _ h hnode => Open.step h hnode) hstart hrun

end TicketWarden.Graph
