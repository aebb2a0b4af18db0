/- Module: TicketWarden/Graph/Budget
   source: apps/api/src/graph/nodes.py, apps/api/src/graph/edges.py
   digest: How often a run asks the model, and for which categories. -/

import TicketWarden.Graph.Run

set_option autoImplicit false
set_option relaxedAutoImplicit false

namespace TicketWarden.Graph

open Effects Guardrails Python

def isModelCall (e : GraphEvent) : Bool := (modelTicket? e).isSome

def askedCategory? : GraphEvent → Option String
  | ⟨.planResearch _ category _, _⟩ => some category
  | ⟨.draft _ category _ _, _⟩ => some category
  | _ => none

def passes (settings : Settings) (iterations : ℤ) : ℕ :=
  (max 1 (settings.maxReviewIterations - iterations)).toNat

variable {db : Runtime} {settings : Settings} {limit steps : ℕ} {state state' : CaseState}
  {tr : List GraphEvent}

private theorem IsToolEvent.no_modelCall {e : GraphEvent} (h : IsToolEvent e) :
    isModelCall e = false := by
  rw [isModelCall, h.shows_nothing.2.2.2.2.2.1]
  rfl

private theorem IsToolEvent.no_category {e : GraphEvent} (h : IsToolEvent e) :
    askedCategory? e = none := by
  obtain ⟨o, r⟩ := e
  cases o <;> first | exact h.elim | rfl

private theorem countP_tools (h : ∀ e ∈ tr, IsToolEvent e) : tr.countP isModelCall = 0 :=
  List.countP_eq_zero.mpr fun e he => by simp [(h e he).no_modelCall]

private theorem countP_passTrace (text : String) (verdict : Verdict) :
    (passTrace db state text verdict).countP isModelCall = 2 := rfl

theorem ReviewLoop.modelCalls {out : Except Exc CaseState}
    (h : ReviewLoop db settings limit steps state tr out) :
    tr.countP isModelCall ≤ 2 * passes settings state.iterations := by
  induction h with
  | @cutShort steps state tr exc hcut =>
    have hcalls : tr.countP isModelCall ≤ 2 := by
      cases hcut with
      | atResponder => exact Nat.zero_le 2
      | inResponder => exact Nat.le_succ 1
      | atReviewer => exact Nat.le_succ 1
      | inReviewer => exact Nat.le_refl 2
    unfold passes
    omega
  | @ends steps state text verdict _ =>
    rw [countP_passTrace]
    unfold passes
    omega
  | @atEnd state text verdict _ =>
    rw [countP_passTrace]
    unfold passes
    omega
  | @again steps state text verdict tr out hgoes _ ih =>
    obtain ⟨-, hbelow⟩ := hgoes
    rw [passState_iterations] at ih
    rw [List.countP_append, countP_passTrace]
    unfold passes at ih ⊢
    omega

private theorem countP_researchTrace {category : String} {requests : List ToolRequest}
    {tools : List GraphEvent} (h : ∀ e ∈ tools, IsToolEvent e) :
    (researchTrace state category requests tools).countP isModelCall = 2 := by
  simp only [researchTrace, List.countP_cons, countP_tools h]
  rfl

theorem Research.modelCalls (h : Research db settings state tr state') :
    tr.countP isModelCall = 2 := by
  cases h with
  | returned category requests facts hall hscan => exact countP_researchTrace hall.events

theorem GraphRun.modelCalls {out : Except Exc CaseState}
    (h : GraphRun db settings limit state tr out) :
    tr.countP isModelCall ≤ 2 + 2 * passes settings state.iterations := by
  cases h with
  | stopped hearly =>
    have hcalls : tr.countP isModelCall ≤ 2 := by
      cases hearly with
      | atClassifier => exact Nat.zero_le 2
      | inClassifier => exact Nat.le_succ 1
      | atResearcher => exact Nat.le_succ 1
      | inResearcher => exact Nat.le_refl 2
      | inScan category requests done exc hlimit hdone hne hall hscan =>
        exact (countP_researchTrace hall.events).le
    omega
  | looped hlimit hresearch hloop =>
    have hpasses := hloop.modelCalls
    obtain ⟨-, -, -, -, hiterations⟩ := hresearch.frame
    rw [hiterations] at hpasses
    rw [List.countP_append, hresearch.modelCalls]
    omega

private theorem exec_runNode_modelCalls {node : Node} {out : Except Exc CaseState}
    (h : Exec (runNode db settings node state) tr out) : tr.countP isModelCall = 1 := by
  cases node with
  | classifier =>
    obtain ⟨answer, rfl, -⟩ := exec_classifier_iff.mp h
    rfl
  | researcher =>
    rcases exec_researcher h with ⟨exc, rfl, -⟩ | ⟨requests, done, tools, rfl, hall, -⟩
    · rfl
    · have htools : tools.countP isModelCall = 0 := countP_tools hall.events
      simp only [List.countP_cons, htools]
      rfl
  | responder =>
    obtain ⟨answer, rfl, -⟩ := exec_responder_iff.mp h
    rfl
  | reviewer =>
    obtain ⟨answer, rfl, -⟩ := exec_reviewer_iff.mp h
    rfl

theorem exec_runGraph_modelCalls {node : Node} {out : Except Exc CaseState}
    (h : Exec (runGraph db settings limit steps (some node) state) tr out) :
    tr.countP isModelCall ≤ steps := by
  induction steps generalizing node state tr with
  | zero =>
    obtain ⟨rfl, -⟩ := exec_fail_iff.mp h
    exact Nat.le_refl 0
  | succ steps ih =>
    obtain ⟨tr', rfl, ⟨exc, hnode, -⟩ | ⟨state', tr₁, tr₂, rfl, hnode, hrest⟩⟩ :=
      exec_runGraph_succ h
    · have hone := exec_runNode_modelCalls hnode
      rw [List.countP_cons_of_neg Bool.false_ne_true, hone]
      omega
    · have hone := exec_runNode_modelCalls hnode
      rw [List.countP_cons_of_neg Bool.false_ne_true, List.countP_append, hone]
      cases hnext : nextNode settings node state' with
      | none =>
        rw [hnext] at hrest
        obtain ⟨rfl, -⟩ := exec_runGraph_none hrest
        simp
      | some node' =>
        rw [hnext] at hrest
        have hlater := ih hrest
        omega

private theorem exec_dispatchAll_length {requests : List ToolRequest} {facts : List Fact}
    {toolCalls : List ToolRecord} {out : Except Exc (List Fact × List ToolRecord)}
    (h : Exec (dispatchAll db requests facts toolCalls) tr out) :
    tr.length ≤ 2 * (tr.filterMap dispatched?).length := by
  induction requests generalizing facts toolCalls tr with
  | nil =>
    obtain ⟨rfl, -⟩ := exec_pure_iff.mp h
    exact Nat.le_refl 0
  | cons request requests ih =>
    obtain ⟨calls, record, hcall, hround⟩ := exec_dispatchAll_round h
    have hcalls : calls.length ≤ 1 ∧ calls.filterMap dispatched? = [] := by
      rcases exec_dispatchTool_cases hcall with
        ⟨-, rfl, -⟩ | ⟨-, exc, rfl, -⟩ | ⟨-, result, rfl, -⟩
      · exact ⟨Nat.zero_le 1, rfl⟩
      · exact ⟨Nat.le_refl 1, rfl⟩
      · exact ⟨Nat.le_refl 1, rfl⟩
    have hlength : ∀ (record' : ToolRecord) {tr' : List GraphEvent},
        tr'.length ≤ 2 * (tr'.filterMap dispatched?).length →
        (calls ++ ⟨.dispatched record', ()⟩ :: tr').length ≤
          2 * ((calls ++ ⟨.dispatched record', ()⟩ :: tr').filterMap dispatched?).length := by
      intro record' tr' hlater
      rw [List.filterMap_append, hcalls.2, List.nil_append, List.length_append, List.length_cons,
        List.filterMap_cons_some (show dispatched? _ = some _ from rfl), List.length_cons]
      omega
    rcases hround with ⟨exc, -, rfl, -⟩ | ⟨entry, tr', -, rfl, hrest⟩
    · exact hlength record (Nat.le_refl 0)
    · exact hlength entry.1 (ih hrest)

private theorem exec_runNode_length {node : Node} {out : Except Exc CaseState}
    (h : Exec (runNode db settings node state) tr out) :
    tr.length ≤ 1 + 2 * (tr.filterMap dispatched?).length := by
  cases node with
  | classifier =>
    obtain ⟨answer, rfl, -⟩ := exec_classifier_iff.mp h
    exact Nat.le_refl 1
  | researcher =>
    rcases exec_bind_iff.mp h with ⟨exc, hplan, -⟩ | ⟨requests, tr₁, tr₂, rfl, hplan, hrest⟩
    · obtain rfl := exec_planResearch_iff.mp hplan
      exact Nat.le_refl 1
    · obtain rfl := exec_planResearch_iff.mp hplan
      obtain ⟨result, hall, -⟩ := exec_bind_pure_iff.mp hrest
      have hdispatch := exec_dispatchAll_length hall
      show tr₂.length + 1 ≤ 1 + 2 * (tr₂.filterMap dispatched?).length
      omega
  | responder =>
    obtain ⟨answer, rfl, -⟩ := exec_responder_iff.mp h
    exact Nat.le_refl 1
  | reviewer =>
    obtain ⟨answer, rfl, -⟩ := exec_reviewer_iff.mp h
    exact Nat.le_refl 1

theorem exec_runGraph_length {node : Node} {out : Except Exc CaseState}
    (h : Exec (runGraph db settings limit steps (some node) state) tr out) :
    tr.length ≤ 2 * tr.countP isModelCall + 2 * (tr.filterMap dispatched?).length := by
  have henter : ∀ (node : Node) (events : List GraphEvent),
      (⟨.enter node, ()⟩ :: events).countP isModelCall = events.countP isModelCall ∧
        (⟨.enter node, ()⟩ :: events).filterMap dispatched? = events.filterMap dispatched? :=
    fun _ _ => ⟨List.countP_cons_of_neg Bool.false_ne_true, rfl⟩
  induction steps generalizing node state tr with
  | zero =>
    obtain ⟨rfl, -⟩ := exec_fail_iff.mp h
    exact Nat.le_refl 0
  | succ steps ih =>
    obtain ⟨tr', rfl, ⟨exc, hnode, -⟩ | ⟨state', tr₁, tr₂, rfl, hnode, hrest⟩⟩ :=
      exec_runGraph_succ h
    · have hcalls := exec_runNode_modelCalls hnode
      have hlength := exec_runNode_length hnode
      rw [(henter node tr').1, (henter node tr').2, List.length_cons]
      omega
    · have hcalls := exec_runNode_modelCalls hnode
      have hlength := exec_runNode_length hnode
      have hlater : tr₂.length ≤
          2 * tr₂.countP isModelCall + 2 * (tr₂.filterMap dispatched?).length := by
        cases hnext : nextNode settings node state' with
        | none =>
          rw [hnext] at hrest
          obtain ⟨rfl, -⟩ := exec_runGraph_none hrest
          exact Nat.le_refl 0
        | some node' =>
          rw [hnext] at hrest
          exact ih hrest
      rw [(henter node _).1, (henter node _).2, List.length_cons, List.length_append,
        List.countP_append, List.filterMap_append, List.length_append]
      omega

private theorem length_sliceTo {α : Type} (xs : List α) {n : ℤ} (h : 0 ≤ n) :
    (sliceTo xs n).length ≤ n.toNat := by
  rw [sliceTo, if_pos h]
  exact List.length_take_le _ _

theorem GraphRun.dispatched_le {out : Except Exc CaseState}
    (h : GraphRun db settings limit state tr out) (hrounds : 0 ≤ settings.maxToolRounds) :
    (tr.filterMap dispatched?).length ≤ settings.maxToolRounds.toNat := by
  have hdispatched : ∀ {category : String} {requests done : List ToolRequest}
      {tools : List GraphEvent}, done <+: sliceTo requests settings.maxToolRounds →
      Dispatched done tools →
      ((researchTrace state category requests tools).filterMap dispatched?).length ≤
        settings.maxToolRounds.toNat := by
    intro category requests done tools hdone hall
    have hnames := congrArg List.length hall.names
    rw [List.length_map, List.length_map] at hnames
    have hslice := length_sliceTo requests hrounds
    have hprefix := hdone.length_le
    show (tools.filterMap dispatched?).length ≤ settings.maxToolRounds.toNat
    omega
  cases h with
  | stopped hearly =>
    cases hearly with
    | inScan category requests done exc hlimit hdone hne hall hscan => exact hdispatched hdone hall
    | _ => exact Nat.zero_le _
  | looped hlimit hresearch hloop =>
    have hnone := List.filterMap_eq_nil_iff.mpr fun e he => (hloop.events e he).shows.2.1
    rw [List.filterMap_append, hnone, List.append_nil]
    cases hresearch with
    | returned category requests facts hall hscan =>
      exact hdispatched (List.prefix_refl _) hall

/-- The state is of a category that there is. -/
def Categorized (state : CaseState) : Prop :=
  ∃ category ∈ categories, state.category = some category

private theorem Categorized.asked (h : Categorized state) :
    strOr state.category Category.other.value ∈ categories := by
  obtain ⟨category, hmem, hcategory⟩ := h
  have hne : category ≠ "" := by
    rintro rfl
    revert hmem
    decide
  rw [hcategory, strOr, if_neg hne]
  exact hmem

theorem categorized_classified (state : CaseState) (category : String) :
    Categorized (classified state category) := by
  refine ⟨_, ?_, rfl⟩
  split
  · rename_i hcontains
    exact List.contains_iff_mem.mp hcontains
  · decide

@[simp] theorem passState_category (text : String) (verdict : Verdict) :
    (passState db settings state text verdict).category = state.category := by
  unfold passState applyVerdict
  dsimp only
  split
  · rfl
  · split <;> rfl

theorem ReviewLoop.categories {out : Except Exc CaseState}
    (h : ReviewLoop db settings limit steps state tr out) (hstate : Categorized state) :
    ∀ category ∈ tr.filterMap askedCategory?, category ∈ TicketWarden.categories := by
  have hpass : ∀ {state : CaseState} (text : String) (verdict : Verdict), Categorized state →
      ∀ category ∈ (passTrace db state text verdict).filterMap askedCategory?,
        category ∈ TicketWarden.categories := by
    intro state text verdict hstate category hmem
    obtain rfl := List.mem_singleton.mp hmem
    exact hstate.asked
  induction h with
  | cutShort hcut =>
    intro category hmem
    cases hcut with
    | atResponder => cases hmem
    | _ =>
      obtain rfl := List.mem_singleton.mp hmem
      exact hstate.asked
  | ends text _ => exact hpass text _ hstate
  | atEnd text _ => exact hpass text _ hstate
  | again text hgoes _ ih =>
    intro category hmem
    rw [List.filterMap_append] at hmem
    rcases List.mem_append.mp hmem with hmem | hmem
    · exact hpass text _ hstate category hmem
    · refine ih ?_ category hmem
      rw [Categorized, passState_category]
      exact hstate

theorem GraphRun.categories {out : Except Exc CaseState}
    (h : GraphRun db settings limit state tr out) :
    ∀ category ∈ tr.filterMap askedCategory?, category ∈ TicketWarden.categories := by
  have hresearched : ∀ {category' : String} {requests done : List ToolRequest}
      {tools : List GraphEvent}, Dispatched done tools →
      ∀ category ∈ (researchTrace state category' requests tools).filterMap askedCategory?,
        category ∈ TicketWarden.categories := by
    intro category' requests done tools hall category hmem
    rw [filterMap_researchTrace fun e he => (hall.events e he).no_category] at hmem
    obtain rfl := List.mem_singleton.mp hmem
    exact (categorized_classified state category').asked
  cases h with
  | stopped hearly =>
    cases hearly with
    | inScan category requests done exc hlimit hdone hne hall hscan => exact hresearched hall
    | inResearcher category' exc hlimit =>
      intro category hmem
      obtain rfl := List.mem_singleton.mp hmem
      exact (categorized_classified state category').asked
    | _ =>
      intro category hmem
      cases hmem
  | looped hlimit hresearch hloop =>
    intro category hmem
    rw [List.filterMap_append] at hmem
    cases hresearch with
    | returned category' requests facts hall hscan =>
      rcases List.mem_append.mp hmem with hmem | hmem
      · exact hresearched hall category hmem
      · exact hloop.categories (categorized_classified state category') category hmem

end TicketWarden.Graph
