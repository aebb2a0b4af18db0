/- Module: TicketWarden/Graph/Grounding
   source: apps/api/src/graph/nodes.py, apps/api/src/store/registry.py
   digest: The facts of a run are the answers of its tools, and the responder and the
   reviewer are handed them all. -/

import TicketWarden.Graph.Ledger

set_option autoImplicit false
set_option relaxedAutoImplicit false

namespace TicketWarden.Graph

open Effects Guardrails Python Store

/-- A tool call that was answered, and not with an error. -/
structure Answer where
  name : String
  args : Dict
  result : Json

def answer? : GraphEvent → Option Answer
  | ⟨.callTool name args, .ok result⟩ =>
    if (result.get? "error").any Json.truthy then none else some ⟨name, args, result⟩
  | _ => none

def Answer.fact (db : Runtime) (answer : Answer) : Fact :=
  ⟨answer.name, answer.args, (clean db answer.result).2⟩

def handedFacts? : GraphEvent → Option (List Fact)
  | ⟨.draft _ _ facts _, _⟩ => some facts
  | ⟨.review _ _ facts, _⟩ => some facts
  | _ => none

variable {db : Runtime} {settings : Settings} {limit steps : ℕ} {state : CaseState}
  {tr : List GraphEvent}

private theorem scanErrors_eq_nil_iff : tr.filterMap (scanError? db) = [] ↔
    ∀ answer ∈ tr.filterMap answer?, Scannable db answer.result := by
  rw [← answersScannable_iff]
  constructor
  · intro h answer hanswer
    obtain ⟨⟨o, r⟩, he, hshown⟩ := List.mem_filterMap.mp hanswer
    unfold answer? at hshown
    split at hshown
    · rename_i name args result hevent
      split at hshown
      · cases hshown
      · rename_i hfailed
        cases hshown
        rw [hevent] at he
        exact h name args result he hfailed
    · cases hshown
  · intro h name args result he hfailed
    exact h ⟨name, args, result⟩ (List.mem_filterMap.mpr ⟨_, he, if_neg hfailed⟩)

private theorem LedgerEntry.answer_fact (entry : LedgerEntry db) :
    (entry.calls.filterMap answer?).map (Answer.fact db) = entry.record.fact?.toList := by
  have hstands : (entry.record.status = ToolStatus.ok.value ∨
      entry.record.status = ToolStatus.sanitized.value) ↔
      ∃ result, entry.answer = some (.ok result) ∧ ¬ Failed (.ok result) := by
    constructor
    · rintro (hok | hsanitized)
      · obtain ⟨result, -, hanswer, hfailed, -⟩ := entry.ok.mp hok
        exact ⟨result, hanswer, hfailed⟩
      · obtain ⟨result, -, hanswer, hfailed, -⟩ := entry.sanitized.mp hsanitized
        exact ⟨result, hanswer, hfailed⟩
    · rintro ⟨result, hanswer, hfailed⟩
      obtain ⟨flagged, hscan⟩ := entry.scanned result hanswer hfailed
      cases flagged with
      | true => exact .inr (entry.sanitized.mpr ⟨result, _, hanswer, hfailed, hscan⟩)
      | false => exact .inl (entry.ok.mpr ⟨result, _, hanswer, hfailed, hscan⟩)
  by_cases h : ∃ result, entry.answer = some (.ok result) ∧ ¬ Failed (.ok result)
  · rw [fact?_of_stands (hstands.mpr h)]
    obtain ⟨result, hanswer, hfailed⟩ := h
    have hno : ¬ (result.get? "error").any Json.truthy = true := hfailed
    obtain ⟨flagged, hscan⟩ := entry.scanned result hanswer hfailed
    have hclean : (clean db result).2 = entry.record.result := by rw [clean_of_scan hscan]
    rw [LedgerEntry.calls, hanswer, entry.name, entry.args, ← hclean]
    simp [answer?, hno, Answer.fact]
  · obtain ⟨hok, hsanitized⟩ := not_or.mp (mt hstands.mp h)
    rw [fact?_of_failed hok hsanitized, LedgerEntry.calls]
    rcases hanswer : entry.answer with _ | (exc | result)
    · rfl
    · rfl
    · have herror : (result.get? "error").any Json.truthy = true := by
        by_contra hno
        exact h ⟨result, hanswer, hno⟩
      simp [answer?, herror]

private theorem filterMap_answer (tr : List GraphEvent) :
    (tr.filterMap calledTool?).filterMap answer? = tr.filterMap answer? := by
  rw [List.filterMap_filterMap]
  refine List.filterMap_congr fun e _ => ?_
  obtain ⟨o, r⟩ := e
  cases o <;> rfl

private theorem exec_dispatchTool_answers {name : String} {args : Dict}
    {out : Except Exc ToolRecord}
    (h : Exec (dispatchTool name args) tr out) :
    ∀ answer ∈ tr.filterMap answer?, isAllowed answer.name = true := by
  intro answer hanswer
  rcases exec_dispatchTool_cases h with ⟨-, rfl, -⟩ | ⟨-, exc, rfl, -⟩ | ⟨hallowed, result, rfl, -⟩
  · cases hanswer
  · cases hanswer
  · obtain ⟨e, he, hshown⟩ := List.mem_filterMap.mp hanswer
    obtain rfl := List.mem_singleton.mp he
    unfold answer? at hshown
    dsimp only at hshown
    split at hshown
    · cases hshown
    · cases hshown
      exact hallowed

private theorem exec_dispatchAll_answers {requests : List ToolRequest} {facts : List Fact}
    {toolCalls : List ToolRecord} {out : Except Exc (List Fact × List ToolRecord)}
    (h : Exec (dispatchAll db requests facts toolCalls) tr out) :
    ∀ answer ∈ tr.filterMap answer?, isAllowed answer.name = true := by
  induction requests generalizing facts toolCalls tr with
  | nil =>
    obtain ⟨rfl, -⟩ := exec_pure_iff.mp h
    simp
  | cons request requests ih =>
    obtain ⟨calls, record, hcall, hround⟩ := exec_dispatchAll_round h
    have hcalls := exec_dispatchTool_answers hcall
    intro answer hanswer
    rcases hround with ⟨exc, -, rfl, -⟩ | ⟨entry, tr', -, rfl, hrest⟩
    · rw [List.filterMap_append] at hanswer
      rcases List.mem_append.mp hanswer with hanswer | hanswer
      · exact hcalls answer hanswer
      · cases hanswer
    · rw [List.filterMap_append] at hanswer
      rcases List.mem_append.mp hanswer with hanswer | hanswer
      · exact hcalls answer hanswer
      · exact ih hrest answer hanswer

private theorem exec_dispatchAll_facts {requests : List ToolRequest} {facts : List Fact}
    {toolCalls : List ToolRecord} {result : List Fact × List ToolRecord}
    (h : Exec (dispatchAll db requests facts toolCalls) tr (.ok result)) :
    result.1 = facts ++ (tr.filterMap answer?).map (Answer.fact db) := by
  obtain ⟨entries, -, hcalls, rfl⟩ := exec_dispatchAll_ledger h
  have hanswers : tr.filterMap answer? =
      entries.flatMap fun entry => entry.calls.filterMap answer? := by
    rw [← filterMap_answer, hcalls, List.filterMap_flatMap]
  rw [hanswers, List.map_flatMap, List.filterMap_map, List.filterMap_eq_flatMap_toList]
  exact congrArg (facts ++ ·) (List.flatMap_congr fun entry _ => entry.answer_fact.symm)

private theorem IsToolEvent.no_handedFacts {e : GraphEvent} (h : IsToolEvent e) :
    handedFacts? e = none := by
  obtain ⟨o, r⟩ := e
  cases o <;> first | exact h.elim | rfl

private theorem exec_researcher_facts {out : Except Exc CaseState}
    (h : Exec (researcher db settings state) tr out) :
    (∀ answer ∈ tr.filterMap answer?, isAllowed answer.name = true) ∧
      tr.filterMap handedFacts? = [] ∧
      ((∃ exc, out = .error exc ∧
          (tr.filterMap answer? = [] ∨ tr.filterMap (scanError? db) ≠ [])) ∨
        ∃ state', out = .ok state' ∧ state'.decision = state.decision ∧
          tr.filterMap (scanError? db) = [] ∧
          state'.facts = state.facts ++ (tr.filterMap answer?).map (Answer.fact db)) := by
  rcases exec_bind_iff.mp h with ⟨exc, hplan, rfl⟩ | ⟨requests, tr₁, tr', rfl, hplan, hrest⟩
  · obtain rfl := exec_planResearch_iff.mp hplan
    exact ⟨by simp [answer?], rfl, .inl ⟨exc, rfl, .inl rfl⟩⟩
  obtain rfl := exec_planResearch_iff.mp hplan
  obtain ⟨result, hall, rfl⟩ := exec_bind_pure_iff.mp hrest
  obtain ⟨done, hdispatched, hend⟩ := exec_dispatchAll hall
  have hnone : tr'.filterMap handedFacts? = [] :=
    List.filterMap_eq_nil_iff.mpr fun e he => (hdispatched.events e he).no_handedFacts
  have hnames : ∀ answer ∈ tr'.filterMap answer?, isAllowed answer.name = true :=
    exec_dispatchAll_answers hall
  refine ⟨hnames, hnone, ?_⟩
  rcases hend with ⟨-, hclear, facts, rfl⟩ | ⟨-, -, exc, hraised, rfl⟩
  · exact .inr ⟨_, rfl, rfl, hclear, exec_dispatchAll_facts hall⟩
  · refine .inl ⟨exc, rfl, .inr ?_⟩
    show tr'.filterMap (scanError? db) ≠ []
    rw [hraised]
    exact List.cons_ne_nil _ _

private theorem passState_facts (text : String) (verdict : Verdict) :
    (passState db settings state text verdict).facts = state.facts := by
  unfold passState applyVerdict
  dsimp only
  split
  · rfl
  · split <;> rfl

private theorem passTrace_handedFacts (text : String) (verdict : Verdict) :
    (passTrace db state text verdict).filterMap handedFacts? = [state.facts, state.facts] := rfl

theorem ReviewLoop.handedFacts {out : Except Exc CaseState}
    (h : ReviewLoop db settings limit steps state tr out) :
    tr.filterMap answer? = [] ∧ (∀ facts ∈ tr.filterMap handedFacts?, facts = state.facts) ∧
      (tr.filterMap handedFacts? = [] ↔ steps = 0) := by
  induction h with
  | cutShort hcut =>
    cases hcut <;>
      simp [answer?, handedFacts?, draftEvent, reviewEvent, drafted]
  | ends text _ => exact ⟨rfl, by simp [passTrace_handedFacts], by simp [passTrace_handedFacts]⟩
  | atEnd text _ => exact ⟨rfl, by simp [passTrace_handedFacts], by simp [passTrace_handedFacts]⟩
  | again text _ _ ih =>
    obtain ⟨hanswers, hfacts, -⟩ := ih
    rw [passState_facts] at hfacts
    rw [List.filterMap_append, List.filterMap_append, hanswers, passTrace_handedFacts]
    refine ⟨rfl, ?_, by simp⟩
    intro facts hmem
    rcases List.mem_append.mp hmem with hmem | hmem
    · simpa using hmem
    · exact hfacts facts hmem

private theorem handedFacts_of_researcher {out : Except Exc CaseState} (hd : state.decision = none)
    (h : Exec (runGraph db settings limit steps (some .researcher) state) tr out) :
    (∀ answer ∈ tr.filterMap answer?, isAllowed answer.name = true) ∧
      (∀ facts ∈ tr.filterMap handedFacts?,
        facts = state.facts ++ (tr.filterMap answer?).map (Answer.fact db)) ∧
      (tr.filterMap answer? ≠ [] → (tr.filterMap handedFacts? = [] ↔
        steps < 2 ∨ tr.filterMap (scanError? db) ≠ [])) := by
  rcases steps with _ | steps
  · obtain ⟨rfl, -⟩ := exec_fail_iff.mp h
    simp
  obtain ⟨tr', rfl, ⟨exc, hnode, rfl⟩ | ⟨state', tr₁, tr₂, rfl, hnode, hloop⟩⟩ :=
    exec_runGraph_succ h
  · obtain ⟨hnames, hnone, ⟨_, -, hend⟩ | ⟨_, hout, -⟩⟩ := exec_researcher_facts hnode
    · have hhanded : (⟨.enter .researcher, ()⟩ :: tr').filterMap handedFacts? = [] := hnone
      refine ⟨hnames, by simp [hhanded], fun hsome => iff_of_true hhanded (.inr ?_)⟩
      exact hend.resolve_left hsome
    · cases hout
  · obtain ⟨hnames, hnone, ⟨_, hout, -⟩ | ⟨_, hout, hdecision, hclear, hfacts⟩⟩ :=
      exec_researcher_facts hnode
    · cases hout
    cases hout
    have hall := reviewLoop_of_exec (hdecision.trans hd) hloop
    obtain ⟨hnone', hhanded, hempty⟩ := hall.handedFacts
    have hanswers : (⟨.enter .researcher, ()⟩ :: (tr₁ ++ tr₂)).filterMap answer? =
        tr₁.filterMap answer? := by
      rw [List.filterMap_cons, List.filterMap_append, hnone', List.append_nil]
      rfl
    have hfactLists : (⟨.enter .researcher, ()⟩ :: (tr₁ ++ tr₂)).filterMap handedFacts? =
        tr₂.filterMap handedFacts? := by
      rw [List.filterMap_cons, List.filterMap_append, hnone]
      rfl
    have hscans : (⟨.enter .researcher, ()⟩ :: (tr₁ ++ tr₂)).filterMap (scanError? db) = [] := by
      rw [scanErrors_eq_nil_iff, hanswers, ← scanErrors_eq_nil_iff]
      exact hclear
    rw [hanswers, hfactLists, hscans, ← hfacts]
    refine ⟨hnames, hhanded, fun _ => hempty.trans ?_⟩
    simp only [ne_eq, not_true_eq_false, or_false]
    omega

/-- A run of the graph hands on the facts it started with and those its tools answered, unless
the scan of an answer ends it. -/
theorem handedFacts_of_exec {out : Except Exc CaseState} (hd : state.decision = none)
    (h : Exec (compileGraph db settings limit state) tr out) :
    (∀ answer ∈ tr.filterMap answer?, isAllowed answer.name = true) ∧
      (∀ facts ∈ tr.filterMap handedFacts?,
        facts = state.facts ++ (tr.filterMap answer?).map (Answer.fact db)) ∧
      (tr.filterMap answer? ≠ [] → (tr.filterMap handedFacts? = [] ↔
        limit < 3 ∨ ¬ ∀ answer ∈ tr.filterMap answer?, Scannable db answer.result)) := by
  unfold compileGraph at h
  rw [← scanErrors_eq_nil_iff, ← ne_eq]
  -- the recursion limit is also a number in the message, so the step count is split off first
  obtain ⟨steps, hsteps⟩ : ∃ steps, limit = steps := ⟨limit, rfl⟩
  rw [show runGraph db settings limit limit = runGraph db settings limit steps by rw [← hsteps]]
    at h
  rcases steps with _ | steps
  · obtain ⟨rfl, -⟩ := exec_fail_iff.mp h
    simp
  obtain ⟨tr', rfl, ⟨exc, hnode, rfl⟩ | ⟨state₁, tr₁, tr₂, rfl, hnode, hrest⟩⟩ :=
    exec_runGraph_succ h
  · obtain ⟨answer, rfl, -⟩ := exec_classifier_iff.mp hnode
    simp [answer?, handedFacts?]
  · obtain ⟨answer, rfl, hout⟩ := exec_classifier_iff.mp hnode
    cases answer with
    | error exc => cases hout
    | ok category =>
    cases hout
    have hd' : (classified state category).decision = none := hd
    obtain ⟨hnames, hhanded, hempty⟩ := handedFacts_of_researcher hd' hrest
    refine ⟨hnames, hhanded, fun hsome => (hempty hsome).trans ?_⟩
    have hscans : (⟨.enter .classifier, ()⟩ :: ([⟨.classify state.ticket, .ok category⟩] ++
        tr₂)).filterMap (scanError? db) = tr₂.filterMap (scanError? db) := rfl
    rw [hscans]
    exact or_congr_left (by omega)

end TicketWarden.Graph
