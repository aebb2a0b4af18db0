/- Module: TicketWarden/Graph/Run
   source: apps/api/src/graph/build.py
   digest: The executions of the whole graph: what comes before the review loop, and how
   a run returns or raises. -/

import TicketWarden.Graph.ReviewLoop

set_option autoImplicit false
set_option relaxedAutoImplicit false

namespace TicketWarden.Graph

open Effects Guardrails Python

def researched (state : CaseState) (category : String) (facts : List Fact)
    (records : List ToolRecord) : CaseState :=
  { classified state category with facts := facts, toolCalls := state.toolCalls ++ records }

def researchTrace (state : CaseState) (category : String) (requests : List ToolRequest)
    (tools : List GraphEvent) : List GraphEvent :=
  ⟨.enter .classifier, ()⟩ :: ⟨.classify state.ticket, .ok category⟩ ::
    ⟨.enter .researcher, ()⟩ :: planEvent (classified state category) (.ok requests) :: tools

/-- The executions of classifier and researcher that return. -/
inductive Research (db : Runtime) (settings : Settings) (state : CaseState) :
    List GraphEvent → CaseState → Prop
  | returned (category : String) (requests : List ToolRequest) (facts : List Fact)
      {tr : List GraphEvent} :
      Dispatched (sliceTo requests settings.maxToolRounds) tr →
      tr.filterMap (scanError? db) = [] →
      Research db settings state (researchTrace state category requests tr)
        (researched state category facts (tr.filterMap dispatched?))

/-- The executions that end before the review loop. -/
inductive StoppedEarly (db : Runtime) (settings : Settings) (limit : ℕ) (state : CaseState) :
    List GraphEvent → Exc → Prop
  | atClassifier : limit = 0 → StoppedEarly db settings limit state [] (recursionError db limit)
  | inClassifier (exc : Exc) :
      StoppedEarly db settings limit state
        [⟨.enter .classifier, ()⟩, ⟨.classify state.ticket, .error exc⟩] exc
  | atResearcher (category : String) :
      limit = 1 → StoppedEarly db settings limit state
        [⟨.enter .classifier, ()⟩, ⟨.classify state.ticket, .ok category⟩]
        (recursionError db limit)
  | inResearcher (category : String) (exc : Exc) :
      2 ≤ limit → StoppedEarly db settings limit state
        [⟨.enter .classifier, ()⟩, ⟨.classify state.ticket, .ok category⟩,
          ⟨.enter .researcher, ()⟩, planEvent (classified state category) (.error exc)] exc
  | inScan (category : String) (requests done : List ToolRequest) (exc : Exc)
      {tr : List GraphEvent} :
      2 ≤ limit → done <+: sliceTo requests settings.maxToolRounds → done ≠ [] →
      Dispatched done tr → tr.filterMap (scanError? db) = [exc] →
      StoppedEarly db settings limit state (researchTrace state category requests tr) exc

/-- The executions of the graph. -/
inductive GraphRun (db : Runtime) (settings : Settings) (limit : ℕ) (state : CaseState) :
    List GraphEvent → Except Exc CaseState → Prop
  | stopped {tr : List GraphEvent} {exc : Exc} :
      StoppedEarly db settings limit state tr exc →
      GraphRun db settings limit state tr (.error exc)
  | looped {before loop : List GraphEvent} {state' : CaseState} {steps : ℕ}
      {out : Except Exc CaseState} :
      limit = steps + 2 → Research db settings state before state' →
      ReviewLoop db settings limit steps state' loop out →
      GraphRun db settings limit state (before ++ loop) out

variable {db : Runtime} {settings : Settings} {limit : ℕ} {state state' : CaseState}
  {tr : List GraphEvent}

/-- Every execution of the compiled graph is one of these. -/
theorem graphRun_of_exec {out : Except Exc CaseState} (hd : state.decision = none)
    (h : Exec (compileGraph db settings limit state) tr out) :
    GraphRun db settings limit state tr out := by
  unfold compileGraph at h
  -- the recursion limit is also a number in the message, so the step count is split off first
  obtain ⟨steps, hsteps⟩ : ∃ steps, limit = steps := ⟨limit, rfl⟩
  rw [show runGraph db settings limit limit = runGraph db settings limit steps by rw [← hsteps]]
    at h
  rcases steps with _ | steps
  · obtain ⟨rfl, rfl⟩ := exec_fail_iff.mp h
    exact .stopped (.atClassifier hsteps)
  obtain ⟨tr', rfl, ⟨exc, hnode, rfl⟩ | ⟨state₁, tr₁, tr₂, rfl, hnode, hrest⟩⟩ :=
    exec_runGraph_succ h
  · obtain ⟨answer, rfl, hout⟩ := exec_classifier_iff.mp hnode
    cases answer with
    | ok category => cases hout
    | error exc =>
      cases hout
      exact .stopped (.inClassifier exc)
  obtain ⟨answer, rfl, hout⟩ := exec_classifier_iff.mp hnode
  cases answer with
  | error exc => cases hout
  | ok category =>
  cases hout
  rcases steps with _ | steps
  · obtain ⟨rfl, rfl⟩ := exec_fail_iff.mp hrest
    exact .stopped (.atResearcher category hsteps)
  obtain ⟨tr', rfl, ⟨exc, hplan, rfl⟩ | ⟨state₂, tr₁, tr₂, rfl, hplan, hloop⟩⟩ :=
    exec_runGraph_succ hrest
  · rcases exec_researcher hplan with ⟨exc', rfl, hout⟩ | ⟨requests, done, tr'', rfl, hall,
      ⟨-, -, facts, hout⟩ | ⟨hdone, hne, exc', hscan, hout⟩⟩
    · cases hout
      exact .stopped (.inResearcher category exc (by omega))
    · cases hout
    · cases hout
      exact .stopped (.inScan category requests done exc (by omega) hdone hne hall hscan)
  rcases exec_researcher hplan with ⟨exc', rfl, hout⟩ | ⟨requests, done, tr'', rfl, hall,
    ⟨rfl, hscan, facts, hout⟩ | ⟨-, -, exc', -, hout⟩⟩
  · cases hout
  · cases hout
    exact .looped hsteps (.returned category requests facts hall hscan)
      (reviewLoop_of_exec hd hloop)
  · cases hout

theorem filterMap_researchTrace {γ : Type} {f : GraphEvent → Option γ}
    {category : String} {requests : List ToolRequest} {tools : List GraphEvent}
    (h : ∀ e ∈ tools, f e = none) :
    (researchTrace state category requests tools).filterMap f =
      (researchTrace state category requests []).filterMap f := by
  have happend : researchTrace state category requests tools =
      researchTrace state category requests [] ++ tools := rfl
  rw [happend, List.filterMap_append, List.filterMap_eq_nil_iff.mpr h, List.append_nil]

/-- What a trace of classifier and researcher shows, whatever the dispatch does. -/
structure ResearchShown (state : CaseState) (requests : List ToolRequest)
    (tr : List GraphEvent) : Prop where
  quiet : tr.filterMap verdict? = [] ∧ tr.filterMap draftText? = [] ∧
    tr.filterMap draftFeedback? = [] ∧ tr.filterMap raised? = []
  visits : tr.filterMap visit? = [.classifier, .researcher]
  plannedOrderIds : tr.filterMap plannedOrderId? = [state.orderId]
  plans : tr.filterMap plan? = [requests]
  classifyErrors : tr.filterMap classifyError? = []
  tickets : tr.filterMap modelTicket? = [state.ticket, state.ticket]

private theorem researchTrace_shown {category : String} {requests done : List ToolRequest}
    {tools : List GraphEvent} (h : Dispatched done tools) :
    ResearchShown state requests (researchTrace state category requests tools) := by
  have hshown := fun e he => (h.events e he).shows_nothing
  constructor
  case quiet =>
    exact ⟨filterMap_researchTrace fun e he => (hshown e he).2.1,
      filterMap_researchTrace fun e he => (hshown e he).2.2.1,
      filterMap_researchTrace fun e he => (hshown e he).2.2.2.1,
      filterMap_researchTrace fun e he => (hshown e he).2.2.2.2.2.2.1⟩
  case visits => exact filterMap_researchTrace fun e he => (hshown e he).1
  case plannedOrderIds => exact filterMap_researchTrace fun e he => (hshown e he).2.2.2.2.1
  case plans => exact filterMap_researchTrace fun e he => (hshown e he).2.2.2.2.2.2.2
  case classifyErrors =>
    exact filterMap_researchTrace fun e he => (h.events e he).no_classifyError
  case tickets => exact filterMap_researchTrace fun e he => (hshown e he).2.2.2.2.2.1

private theorem graphErrors_researchTrace {category : String} {requests done : List ToolRequest}
    {tools : List GraphEvent} (h : Dispatched done tools) :
    (researchTrace state category requests tools).filterMap (graphError? db) =
      tools.filterMap (scanError? db) := by
  have hhead : (researchTrace state category requests tools).filterMap (graphError? db) =
      tools.filterMap (graphError? db) := rfl
  rw [hhead]
  refine List.filterMap_congr fun e he => ?_
  rw [graphError?, (h.events e he).shows_nothing.2.2.2.2.2.2.1, Option.none_or]

theorem Research.shown (h : Research db settings state tr state') :
    ∃ requests, ResearchShown state requests tr := by
  cases h with
  | returned category requests facts hall hscan => exact ⟨requests, researchTrace_shown hall⟩

private theorem Research.graphErrors (h : Research db settings state tr state') :
    tr.filterMap (graphError? db) = [] := by
  cases h with
  | returned category requests facts hall hscan =>
    exact (graphErrors_researchTrace hall).trans hscan

theorem Research.dispatched (h : Research db settings state tr state') :
    state'.toolCalls = state.toolCalls ++ tr.filterMap dispatched? := by
  cases h with
  | returned category requests facts hall hscan => rfl

/-- The requests a run has dispatched are those that its plans were cut down to, all of them
or, if the scan of an answer has ended it, some of the first. -/
def DispatchedFrom (settings : Settings) (tr : List GraphEvent) : Prop :=
  ∃ done, (tr.filterMap dispatched?).map ToolRecord.toolName = done.map ToolRequest.name ∧
    done <+: (tr.filterMap plan?).flatMap (fun plan => sliceTo plan settings.maxToolRounds) ∧
    (done = [] → (tr.filterMap plan?).flatMap
      (fun plan => sliceTo plan settings.maxToolRounds) = [])

private theorem dispatchedFrom_of_plan {requests done : List ToolRequest}
    (hplan : tr.filterMap plan? = [requests])
    (hnames : (tr.filterMap dispatched?).map ToolRecord.toolName = done.map ToolRequest.name)
    (hdone : done <+: sliceTo requests settings.maxToolRounds)
    (hnil : done = [] → sliceTo requests settings.maxToolRounds = []) :
    DispatchedFrom settings tr := by
  refine ⟨done, hnames, ?_⟩
  rw [hplan, List.flatMap_singleton]
  exact ⟨hdone, hnil⟩

theorem Research.requests (h : Research db settings state tr state') :
    DispatchedFrom settings tr := by
  cases h with
  | returned category requests facts hall hscan =>
    exact dispatchedFrom_of_plan (researchTrace_shown hall).plans hall.names
      (List.prefix_refl _) id

theorem Research.verdicts_append (h : Research db settings state tr state')
    (loop : List GraphEvent) :
    (tr ++ loop).filterMap verdict? = loop.filterMap verdict? ∧
      (tr ++ loop).filterMap draftText? = loop.filterMap draftText? ∧
      (tr ++ loop).filterMap draftFeedback? = loop.filterMap draftFeedback? ∧
      (tr ++ loop).filterMap (graphError? db) = loop.filterMap (graphError? db) := by
  obtain ⟨requests, hshown⟩ := h.shown
  obtain ⟨hverdicts, htexts, hfeedback, -⟩ := hshown.quiet
  simp only [List.filterMap_append, hverdicts, htexts, hfeedback, h.graphErrors, List.nil_append,
    and_self]

theorem Research.frame (h : Research db settings state tr state') :
    state'.ticket = state.ticket ∧ state'.reviewFeedback = state.reviewFeedback ∧
      state'.decision = state.decision ∧ state'.escalationReason = state.escalationReason ∧
      state'.iterations = state.iterations := by
  cases h with
  | returned category requests facts hall hscan => exact ⟨rfl, rfl, rfl, rfl, rfl⟩

private theorem graphErrors_of_loop {ticket : String} (h : ∀ e ∈ tr, IsLoopEvent ticket e) :
    tr.filterMap (graphError? db) = tr.filterMap raised? :=
  List.filterMap_congr fun e he => (h e he).graphError

/-- A run that returns ends with the pass that the last verdict concludes. -/
theorem GraphRun.returned {out : Except Exc CaseState} {final : CaseState}
    (h : GraphRun db settings limit state tr out) (hout : out = .ok final) :
    ∃ before loop state' rejected verdict text, tr = before ++ loop ∧
      Research db settings state before state' ∧ (∀ e ∈ loop, IsLoopEvent state'.ticket e) ∧
      ConcludedBy settings state' loop rejected verdict text ∧
      final = passState db settings (afterRejections state' rejected) text verdict ∧
      2 * rejected.length + 4 < limit := by
  cases h with
  | stopped => cases hout
  | looped hlimit hresearch hloop =>
    obtain ⟨rejected, verdict, text, hby, hfinal, hsteps⟩ := hloop.concludedBy hout
    exact ⟨_, _, _, rejected, verdict, text, rfl, hresearch, hloop.events, hby, hfinal, by omega⟩

/-- The verdicts of a run that raised: rejections that leave room for another pass, or as many
as the cap allows and the recursion limit does not. -/
inductive Unfinished (settings : Settings) (limit : ℕ) (state : CaseState)
    (vs : List Verdict) : Prop
  | onTheWay : (∀ v ∈ vs, v.approved = false) →
      (vs ≠ [] → state.iterations + vs.length < settings.maxReviewIterations) →
      Unfinished settings limit state vs
  | atLimit (rejected : List Verdict) (last : Verdict) : vs = rejected ++ [last] →
      (rejected ≠ [] → state.iterations + rejected.length < settings.maxReviewIterations) →
      limit = 2 * vs.length + 2 → Unfinished settings limit state vs

/-- The exception that ended a run: one that an event shows, or that of the recursion limit. -/
def FailedWith (db : Runtime) (limit : ℕ) (tr : List GraphEvent) (exc : Exc) : Prop :=
  tr.filterMap (graphError? db) = [exc] ∨
    (tr.filterMap (graphError? db) = [] ∧ exc = recursionError db limit ∧
      limit ≤ 2 * (tr.filterMap verdict?).length + 3)

private theorem StoppedEarly.stoppedBy {exc : Exc}
    (h : StoppedEarly db settings limit state tr exc) :
    tr.filterMap verdict? = [] ∧ FailedWith db limit tr exc := by
  cases h with
  | atClassifier hlimit => exact ⟨rfl, .inr ⟨rfl, rfl, by omega⟩⟩
  | inClassifier exc => exact ⟨rfl, .inl rfl⟩
  | atResearcher category hlimit => exact ⟨rfl, .inr ⟨rfl, rfl, by omega⟩⟩
  | inResearcher category exc hlimit => exact ⟨rfl, .inl rfl⟩
  | inScan category requests done exc hlimit hdone hne hall hscan =>
    exact ⟨(researchTrace_shown hall).quiet.1, .inl ((graphErrors_researchTrace hall).trans hscan)⟩

/-- A run that raises was stopped before its last verdict, or by the recursion limit right after
it. -/
theorem GraphRun.raised {out : Except Exc CaseState} {exc : Exc}
    (h : GraphRun db settings limit state tr out) (hout : out = .error exc) :
    Unfinished settings limit state (tr.filterMap verdict?) ∧ FailedWith db limit tr exc := by
  cases h with
  | stopped hearly =>
    cases hout
    obtain ⟨hverdicts, hfailed⟩ := hearly.stoppedBy
    refine ⟨?_, hfailed⟩
    rw [hverdicts]
    exact .onTheWay (by simp) (by simp)
  | @looped before loop state' steps out hlimit hresearch hloop =>
    obtain ⟨hverdicts, -, -, hfails⟩ := hresearch.verdicts_append loop
    obtain ⟨-, -, -, -, hiterations⟩ := hresearch.frame
    rw [FailedWith, hverdicts, hfails, graphErrors_of_loop hloop.events]
    rcases hloop.stoppedBy hout with hby | ⟨rejected, last, text, hby, rfl, hsteps⟩
    · refine ⟨.onTheWay hby.rejections ?_, ?_⟩
      · rw [← hiterations]
        exact hby.below
      · rcases hby.raised with hone | ⟨hnone, hexc, hsteps⟩
        · exact .inl hone
        · exact .inr ⟨hnone, hexc, by omega⟩
    · have hlength : (loop.filterMap verdict?).length = rejected.length + 1 := by
        rw [hby.verdicts, List.length_append, List.length_singleton]
      refine ⟨.atLimit rejected last hby.verdicts ?_ (by omega), .inr ⟨hby.raised, rfl, by omega⟩⟩
      rw [← hiterations]
      exact hby.below

theorem GraphRun.tickets {out : Except Exc CaseState}
    (h : GraphRun db settings limit state tr out) :
    ∀ ticket ∈ tr.filterMap modelTicket?, ticket = state.ticket := by
  cases h with
  | stopped hearly =>
    cases hearly with
    | inScan category requests done exc hlimit hdone hne hall hscan =>
      rw [(researchTrace_shown hall).tickets]
      simp
    | _ => simp [modelTicket?, planEvent, classified]
  | looped hlimit hresearch hloop =>
    obtain ⟨requests, hshown⟩ := hresearch.shown
    intro ticket hmem
    rw [List.filterMap_append, hshown.tickets] at hmem
    rcases List.mem_append.mp hmem with hmem | hmem
    · simpa using hmem
    · obtain ⟨e, he, hticket⟩ := List.mem_filterMap.mp hmem
      exact ((hloop.events e he).shows.2.2.2 ticket hticket).trans hresearch.frame.1

theorem GraphRun.plannedOrderIds {out : Except Exc CaseState}
    (h : GraphRun db settings limit state tr out) :
    (tr.filterMap plannedOrderId? = [state.orderId] ∧ 2 ≤ limit ∧
        tr.filterMap classifyError? = []) ∨
      (tr.filterMap plannedOrderId? = [] ∧
        (limit < 2 ∨ tr.filterMap classifyError? ≠ [])) := by
  cases h with
  | stopped hearly =>
    cases hearly with
    | atClassifier hlimit => exact .inr ⟨rfl, .inl (by omega)⟩
    | inClassifier exc => exact .inr ⟨rfl, .inr (List.cons_ne_nil _ [])⟩
    | atResearcher category hlimit => exact .inr ⟨rfl, .inl (by omega)⟩
    | inResearcher category exc hlimit => exact .inl ⟨rfl, hlimit, rfl⟩
    | inScan category requests done exc hlimit hdone hne hall hscan =>
      have hshown : ResearchShown state requests (researchTrace state category requests _) :=
        researchTrace_shown hall
      exact .inl ⟨hshown.plannedOrderIds, hlimit, hshown.classifyErrors⟩
  | looped hlimit hresearch hloop =>
    obtain ⟨requests, hshown⟩ := hresearch.shown
    have hplans := List.filterMap_eq_nil_iff.mpr fun e he => (hloop.events e he).shows.1
    have herrors := List.filterMap_eq_nil_iff.mpr fun e he =>
      (hloop.events e he).no_classifyError
    refine .inl ⟨?_, by omega, ?_⟩
    · rw [List.filterMap_append, hplans, List.append_nil, hshown.plannedOrderIds]
    · rw [List.filterMap_append, herrors, List.append_nil, hshown.classifyErrors]

theorem GraphRun.toolCalls {final : CaseState}
    (h : GraphRun db settings limit state tr (.ok final)) :
    final.toolCalls = state.toolCalls ++ tr.filterMap dispatched? := by
  obtain ⟨before, loop, state', rejected, verdict, text, rfl, hresearch, hloop, -, rfl, -⟩ :=
    h.returned rfl
  have hnone := List.filterMap_eq_nil_iff.mpr fun e he => (hloop e he).shows.2.1
  rw [List.filterMap_append, hnone, List.append_nil, passState_toolCalls]
  exact hresearch.dispatched

theorem GraphRun.requests {out : Except Exc CaseState}
    (h : GraphRun db settings limit state tr out) : DispatchedFrom settings tr := by
  cases h with
  | stopped hearly =>
    cases hearly with
    | inScan category requests done exc hlimit hdone hne hall hscan =>
      exact dispatchedFrom_of_plan (researchTrace_shown hall).plans hall.names hdone
        fun hnil => absurd hnil hne
    | _ => exact ⟨[], rfl, List.prefix_refl _, fun _ => rfl⟩
  | looped hlimit hresearch hloop =>
    have hrecords := List.filterMap_eq_nil_iff.mpr fun e he => (hloop.events e he).shows.2.1
    have hplans := List.filterMap_eq_nil_iff.mpr fun e he => (hloop.events e he).shows.2.2.1
    unfold DispatchedFrom
    rw [List.filterMap_append, List.filterMap_append, hrecords, hplans, List.append_nil,
      List.append_nil]
    exact hresearch.requests

theorem GraphRun.lastDraft {final : CaseState}
    (h : GraphRun db settings limit state tr (.ok final)) :
    ∃ text, (tr.filterMap draftText?).getLast? = some text ∧
      final.draft = some (redactPii db text) ∧ final.ticket = state.ticket ∧
      tr.filterMap (graphError? db) = [] := by
  obtain ⟨before, loop, state', rejected, verdict, text, rfl, hresearch, hloop, hby, rfl, -⟩ :=
    h.returned rfl
  obtain ⟨-, htexts, -, hfails⟩ := hresearch.verdicts_append loop
  obtain ⟨texts, hlast⟩ := hby.text
  refine ⟨text, ?_, passState_draft text verdict, ?_, ?_⟩
  · rw [htexts, hlast, List.getLast?_append]
    rfl
  · rw [passState_ticket]
    exact hresearch.frame.1
  · rw [hfails, graphErrors_of_loop hloop, hby.raised]

theorem GraphRun.lastReviewed {final : CaseState}
    (h : GraphRun db settings limit state tr (.ok final)) :
    (tr.filterMap reviewedDraft?).getLast? = final.draft := by
  obtain ⟨text, -, hdraft, -, -⟩ := h.lastDraft
  cases h with
  | looped hlimit hresearch hloop =>
    rw [List.filterMap_append, List.getLast?_append, hloop.lastReviewed rfl, hdraft]
    rfl

end TicketWarden.Graph
