/- Module: TicketWarden/Graph/Halting
   source: apps/api/src/graph/build.py, apps/api/src/graph/nodes.py,
   apps/api/src/graph/edges.py
   digest: Whatever a model answers, the graph halts within the cap on review passes, with
   the decision and the reason that its last verdict calls for. -/

import TicketWarden.Graph.Run

set_option autoImplicit false
set_option relaxedAutoImplicit false

namespace TicketWarden.Graph

open Effects Guardrails Python

/-- The cap on review passes; the first pass is made whatever the setting says. -/
def reviewCap (settings : Settings) : ℤ := max 1 settings.maxReviewIterations

/-- A run that visited every node in the order of the edges and ended with the first
approving verdict, or with the last one the cap allows. -/
structure Reviewed (settings : Settings) (state : CaseState) (tr : List GraphEvent)
    (final : CaseState) (rejected : List Verdict) (last : Verdict) : Prop where
  verdicts : tr.filterMap verdict? = rejected ++ [last]
  rejections : ∀ v ∈ rejected, v.approved = false
  within_cap : (rejected.length + 1 : ℤ) ≤ reviewCap settings
  concluded : last.approved = true ∨ (rejected.length + 1 : ℤ) = reviewCap settings
  visits : tr.filterMap visit? = [.classifier, .researcher] ++
    (List.replicate (rejected.length + 1) [Node.responder, .reviewer]).flatten
  iterations : final.iterations = rejected.length + 1
  resolved : last.approved = true →
    final.decision = some "RESOLVED" ∧ final.escalationReason = state.escalationReason
  escalated : last.approved = false →
    final.decision = some "ESCALATE" ∧
      final.escalationReason = some ("Not approved after " ++ toString (final.iterations) ++
        " review pass(es): " ++ feedbackOf last)
  feedback : tr.filterMap draftFeedback? =
    state.reviewFeedback :: rejected.map fun v => some (feedbackOf v)

/-- The reviewer gave as many verdicts as the cap allows and approved none, with a step left. -/
def Exhausted (settings : Settings) (limit : ℕ) (vs : List Verdict) : Prop :=
  (∀ v ∈ vs, v.approved = false) ∧ reviewCap settings ≤ vs.length ∧ 2 * vs.length + 2 < limit

/-- Some verdict approved, with a step left. -/
def Approved (limit : ℕ) (vs : List Verdict) : Prop :=
  (∃ v ∈ vs, v.approved = true) ∧ 2 * vs.length + 2 < limit

/-- Some verdict approved, or the reviewer gave as many as the cap allows, with a step left. -/
def Concluded (settings : Settings) (limit : ℕ) (vs : List Verdict) : Prop :=
  ((∃ v ∈ vs, v.approved = true) ∨ reviewCap settings ≤ vs.length) ∧ 2 * vs.length + 2 < limit

variable {db : Runtime} {settings : Settings} {limit : ℕ} {state : CaseState}
  {tr : List GraphEvent}

theorem Approved.concluded {vs : List Verdict} (h : Approved limit vs) :
    Concluded settings limit vs :=
  ⟨.inl h.1, h.2⟩

theorem Exhausted.concluded {vs : List Verdict} (h : Exhausted settings limit vs) :
    Concluded settings limit vs :=
  ⟨.inr h.2.1, h.2.2⟩

theorem Exhausted.not_approved {vs : List Verdict} (h : Exhausted settings limit vs) :
    ¬ Approved limit vs := by
  rintro ⟨⟨v, hv, happroved⟩, -⟩
  rw [h.1 v hv] at happroved
  cases happroved

/-- A run that returns has been reviewed. -/
theorem GraphRun.reviewed {final : CaseState} (hiter : state.iterations = 0)
    (h : GraphRun db settings limit state tr (.ok final)) :
    ∃ rejected last, Reviewed settings state tr final rejected last ∧
      2 * (tr.filterMap verdict?).length + 2 < limit := by
  obtain ⟨before, loop, state', rejected, last, text, rfl, hresearch, -, hby, rfl, hlimit⟩ :=
    h.returned rfl
  obtain ⟨hverdicts, -, hfeedback, -⟩ := hresearch.verdicts_append loop
  obtain ⟨requests, hshown⟩ := hresearch.shown
  obtain ⟨-, hfeedback', hdecision, hreason, hiterations⟩ := hresearch.frame
  rw [hiter] at hiterations
  have hcount : (afterRejections state' rejected).iterations + 1 = rejected.length + 1 := by
    simp only [afterRejections, hiterations, zero_add]
  have hwithin : (rejected.length + 1 : ℤ) ≤ reviewCap settings := by
    cases rejected with
    | nil => exact le_max_left _ _
    | cons v rejected =>
      have hbelow := hby.below (by simp)
      rw [hiterations] at hbelow
      simp only [reviewCap]
      omega
  refine ⟨rejected, last, ?_, ?_⟩
  case refine_2 =>
    rw [hverdicts, hby.verdicts, List.length_append, List.length_singleton]
    omega
  constructor
  case verdicts => rw [hverdicts, hby.verdicts]
  case rejections => exact hby.rejections
  case within_cap => exact hwithin
  case concluded =>
    cases happroved : last.approved with
    | true => exact .inl rfl
    | false =>
      have hcap : settings.maxReviewIterations ≤ rejected.length + 1 := by
        by_contra hlt
        refine hby.last ⟨happroved, ?_⟩
        simp only [afterRejections, hiterations]
        omega
      refine .inr (le_antisymm hwithin ?_)
      simp only [reviewCap]
      omega
  case visits => rw [List.filterMap_append, hshown.visits, hby.visits]
  case iterations => rw [passState_iterations, hcount]
  case resolved =>
    intro happroved
    rw [passState_of_approved happroved]
    exact ⟨rfl, hreason⟩
  case escalated =>
    intro hrejected
    rw [passState_of_exhausted hrejected hby.last]
    exact ⟨rfl, rfl⟩
  case feedback => rw [hfeedback, hby.feedback, hfeedback']

theorem Reviewed.exhausted {final : CaseState} {rejected : List Verdict} {last : Verdict}
    (h : Reviewed settings state tr final rejected last)
    (hlimit : 2 * (tr.filterMap verdict?).length + 2 < limit) (hlast : last.approved = false) :
    Exhausted settings limit (tr.filterMap verdict?) := by
  refine ⟨?_, ?_, hlimit⟩
  · rw [h.verdicts]
    intro v hv
    rcases List.mem_append.mp hv with hv | hv
    · exact h.rejections v hv
    · rw [List.mem_singleton.mp hv, hlast]
  · rw [h.verdicts]
    rcases h.concluded with happroved | hcap
    · rw [hlast] at happroved
      cases happroved
    · rw [List.length_append, List.length_singleton, ← hcap]
      push_cast
      exact le_refl _

theorem Reviewed.isApproved {final : CaseState} {rejected : List Verdict} {last : Verdict}
    (h : Reviewed settings state tr final rejected last)
    (hlimit : 2 * (tr.filterMap verdict?).length + 2 < limit) (hlast : last.approved = true) :
    Approved limit (tr.filterMap verdict?) :=
  ⟨⟨last, by simp [h.verdicts], hlast⟩, hlimit⟩

theorem Reviewed.isConcluded {final : CaseState} {rejected : List Verdict} {last : Verdict}
    (h : Reviewed settings state tr final rejected last)
    (hlimit : 2 * (tr.filterMap verdict?).length + 2 < limit) :
    Concluded settings limit (tr.filterMap verdict?) := by
  cases hlast : last.approved with
  | true => exact (h.isApproved hlimit hlast).concluded
  | false => exact (h.exhausted hlimit hlast).concluded

theorem Unfinished.not_concluded {vs : List Verdict} (hiter : state.iterations = 0)
    (h : Unfinished settings limit state vs) : ¬ Concluded settings limit vs := by
  rintro ⟨hdone, hlimit⟩
  cases h with
  | onTheWay hrejections hbelow =>
    rcases hdone with ⟨v, hv, happroved⟩ | hcap
    · rw [hrejections v hv] at happroved
      cases happroved
    · by_cases hnil : vs = []
      · rw [hnil, reviewCap] at hcap
        simp at hcap
      · have hlt := hbelow hnil
        rw [hiter, zero_add] at hlt
        rw [reviewCap] at hcap
        omega
  | atLimit rejected last hvs hbelow hsteps => omega

/-- A run that raised has seen no more verdicts than the cap allows. -/
theorem Unfinished.length_le {vs : List Verdict} (hiter : state.iterations = 0)
    (h : Unfinished settings limit state vs) : (vs.length : ℤ) ≤ reviewCap settings := by
  rw [reviewCap]
  cases h with
  | onTheWay hrejections hbelow =>
    by_cases hnil : vs = []
    · simp [hnil]
    · have hlt := hbelow hnil
      omega
  | atLimit rejected last hvs hbelow hsteps =>
    rw [hvs, List.length_append, List.length_singleton]
    by_cases hnil : rejected = []
    · simp [hnil]
    · have hlt := hbelow hnil
      push_cast
      omega

/-- A model each of whose calls returns, whatever state it keeps. -/
def Answers {σ : Type} (llm : Handler graphSig σ) : Prop := ∀ o s, raised? ⟨o, (llm o s).1⟩ = none

/-- Whatever a model answers, the graph returns within the cap, given the steps for it, exactly
when the stack has room for the scan of what the tools answer. -/
theorem review_loop_halts_iff {σ : Type} (db : Runtime) (settings : Settings) (limit : ℕ)
    (hlimit : 2 + 2 * reviewCap settings < limit) (llm : Handler graphSig σ)
    (hllm : Answers llm) (s : σ) (state : CaseState) (hiter : state.iterations = 0)
    (hd : state.decision = none) :
    (∃ final rejected last,
      ((compileGraph db settings limit state).run llm s).out = .ok final ∧
        Reviewed settings state ((compileGraph db settings limit state).run llm s).trace final
          rejected last) ↔
      AnswersScannable db ((compileGraph db settings limit state).run llm s).trace := by
  have hexec := exec_run llm (compileGraph db settings limit state) s
  have hanswers : ∀ e ∈ ((compileGraph db settings limit state).run llm s).trace,
      raised? e = none :=
    run_forall (P := fun e => raised? e = none) hllm _ s
  rw [answersScannable_iff]
  generalize ((compileGraph db settings limit state).run llm s).trace = tr at hexec hanswers ⊢
  generalize ((compileGraph db settings limit state).run llm s).out = out at hexec ⊢
  have hscans : tr.filterMap (scanError? db) = tr.filterMap (graphError? db) :=
    List.filterMap_congr fun e he => by rw [graphError?, hanswers e he, Option.none_or]
  rw [hscans]
  cases out with
  | error exc =>
    obtain ⟨hunfinished, hone | ⟨hnone, -, hsteps⟩⟩ := (graphRun_of_exec hd hexec).raised rfl
    · refine iff_of_false (by simp) ?_
      rw [hone]
      exact List.cons_ne_nil _ _
    -- no more passes than the cap allows were made, so the limit was not the reason to stop
    · exfalso
      have hlength := hunfinished.length_le hiter
      cases hunfinished with
      | onTheWay hrejections hbelow =>
        rw [reviewCap] at hlimit
        by_cases hnil : tr.filterMap verdict? = []
        · rw [hnil, List.length_nil] at hsteps
          omega
        · have hlt := hbelow hnil
          omega
      | atLimit rejected last hvs hbelow hlast => omega
  | ok final =>
    obtain ⟨rejected, last, hreviewed, -⟩ := (graphRun_of_exec hd hexec).reviewed hiter
    obtain ⟨-, -, -, -, hanswered⟩ := (graphRun_of_exec hd hexec).lastDraft
    exact iff_of_true ⟨final, rejected, last, rfl, hreviewed⟩ hanswered

def secondTry : Handler graphSig ℕ
  | .classify _, n => (.ok "order", n)
  | .planResearch _ _ _, n => (.ok [], n)
  | .draft _ _ _ _, n => (.ok "Your order is on its way.", n)
  | .review _ _ _, n => (.ok ⟨n == 1, some "Be specific."⟩, n + 1)
  | .callTool _ _, n => (.ok .null, n)
  | .enter _, n => ((), n)
  | .dispatched _, n => ((), n)

def sampleSettings : Settings := ⟨"openai", "gpt-4o-mini", 2, 4⟩

def sampleState : CaseState where
  ticketId := "tkt_000000000000"
  ticket := "Where is order 1042?"
  orderId := none
  category := none
  facts := []
  draft := none
  reviewFeedback := none
  decision := none
  escalationReason := none
  iterations := 0
  toolCalls := []

private theorem answers_secondTry : Answers secondTry := by
  intro o n
  cases o <;> rfl

theorem review_loop_halts_iff_secondTry :
    (∃ final rejected last,
      ((compileGraph asciiData sampleSettings 25 sampleState).run secondTry 0).out = .ok final ∧
        Reviewed sampleSettings sampleState
          ((compileGraph asciiData sampleSettings 25 sampleState).run secondTry 0).trace final
          rejected last) ↔
      AnswersScannable asciiData
        ((compileGraph asciiData sampleSettings 25 sampleState).run secondTry 0).trace :=
  review_loop_halts_iff asciiData sampleSettings 25 (by decide) secondTry answers_secondTry 0
    sampleState rfl rfl

def deepQuery : Handler graphSig ℕ
  | .planResearch _ _ _, n => (.ok [⟨"search_catalog", some [("query", nested 500)]⟩], n)
  | .callTool _ args, n =>
    (.ok (.dict [("query", (args.lookup "query").getD .null), ("category", .null),
      ("count", .int 0), ("results", .list [])]), n)
  | o, n => secondTry o n

theorem deepQuery_stops_graph : Answers deepQuery ∧
    ¬ ∃ final rejected last,
      ((compileGraph asciiData sampleSettings 25 sampleState).run deepQuery 0).out = .ok final ∧
        Reviewed sampleSettings sampleState
          ((compileGraph asciiData sampleSettings 25 sampleState).run deepQuery 0).trace final
          rejected last := by
  constructor
  · intro o n
    cases o <;> rfl
  · rintro ⟨final, rejected, last, hout, -⟩
    have hraised : ((compileGraph asciiData sampleSettings 25 sampleState).run deepQuery
        0).out.toOption.isNone = true := by decide +kernel
    rw [hout] at hraised
    cases hraised

end TicketWarden.Graph
