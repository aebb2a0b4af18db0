/- Module: TicketWarden/Graph/Trace
   source: apps/api/src/graph/nodes.py, apps/api/src/graph/llm.py (LLMClient)
   digest: What can be read off the events of a graph run, and what each node does to them. -/

import TicketWarden.Graph.Build
import TicketWarden.Guardrails.Quarantine

set_option autoImplicit false
set_option relaxedAutoImplicit false

namespace TicketWarden.Graph

open Effects Guardrails Python Store

def visit? : GraphEvent → Option Node
  | ⟨.enter node, _⟩ => some node
  | _ => none

def verdict? : GraphEvent → Option Verdict
  | ⟨.review _ _ _, .ok verdict⟩ => some verdict
  | _ => none

def draftText? : GraphEvent → Option String
  | ⟨.draft _ _ _ _, .ok text⟩ => some text
  | _ => none

def reviewedDraft? : GraphEvent → Option String
  | ⟨.review _ draft _, _⟩ => some draft
  | _ => none

def draftFeedback? : GraphEvent → Option (Option String)
  | ⟨.draft _ _ _ feedback, _⟩ => some feedback
  | _ => none

def plannedOrderId? : GraphEvent → Option (Option String)
  | ⟨.planResearch _ _ orderId, _⟩ => some orderId
  | _ => none

def plan? : GraphEvent → Option (List ToolRequest)
  | ⟨.planResearch _ _ _, .ok requests⟩ => some requests
  | _ => none

def dispatched? : GraphEvent → Option ToolRecord
  | ⟨.dispatched record, _⟩ => some record
  | _ => none

def modelTicket? : GraphEvent → Option String
  | ⟨.classify ticket, _⟩ => some ticket
  | ⟨.planResearch ticket _ _, _⟩ => some ticket
  | ⟨.draft ticket _ _ _, _⟩ => some ticket
  | ⟨.review ticket _ _, _⟩ => some ticket
  | _ => none

def classifyError? : GraphEvent → Option Exc
  | ⟨.classify _, .error exc⟩ => some exc
  | _ => none

def raised? : GraphEvent → Option Exc
  | ⟨.classify _, .error exc⟩ => some exc
  | ⟨.planResearch _ _ _, .error exc⟩ => some exc
  | ⟨.draft _ _ _ _, .error exc⟩ => some exc
  | ⟨.review _ _ _, .error exc⟩ => some exc
  | _ => none

def scanError? (db : Runtime) : GraphEvent → Option Exc
  | ⟨.callTool name args, .ok result⟩ =>
    if (resultRecord name args result).status = ToolStatus.ok.value then
      match scanToolResult db result with
      | .error exc => some exc
      | .ok _ => none
    else none
  | _ => none

def graphError? (db : Runtime) (e : GraphEvent) : Option Exc := (raised? e).or (scanError? db e)

def Failed : Except Exc Json → Prop
  | .error _ => True
  | .ok result => (result.get? "error").any Json.truthy = true

theorem status_of_failed {name : String} {args : Dict} {result : Json}
    (h : Failed (.ok result)) :
    (resultRecord name args result).status = ToolStatus.error.value :=
  if_pos h

theorem status_of_not_failed {name : String} {args : Dict} {result : Json}
    (h : ¬ Failed (.ok result)) :
    (resultRecord name args result).status = ToolStatus.ok.value :=
  if_neg h

/-- The stack has room for the scan of every answer of a tool that is scanned. -/
def AnswersScannable (db : Runtime) (tr : List GraphEvent) : Prop :=
  ∀ name args result, ⟨.callTool name args, .ok result⟩ ∈ tr → ¬ Failed (.ok result) →
    Scannable db result

private theorem scanError_eq_none_iff {db : Runtime} {name : String} {args : Dict}
    {result : Json} : scanError? db ⟨.callTool name args, .ok result⟩ = none ↔
      (¬ Failed (.ok result) → Scannable db result) := by
  unfold scanError?
  dsimp only
  by_cases hfailed : Failed (.ok result)
  · rw [status_of_failed hfailed, if_neg (by decide)]
    exact iff_of_true rfl fun h => absurd hfailed h
  · rw [if_pos (status_of_not_failed hfailed), scanToolResult_eq]
    by_cases hroom : Scannable db result
    · rw [if_pos hroom]
      exact iff_of_true rfl fun _ => hroom
    · rw [if_neg hroom]
      exact iff_of_false (Option.some_ne_none _) fun h => hroom (h hfailed)

theorem answersScannable_iff {db : Runtime} {tr : List GraphEvent} :
    AnswersScannable db tr ↔ tr.filterMap (scanError? db) = [] := by
  rw [List.filterMap_eq_nil_iff]
  constructor
  · rintro h ⟨o, r⟩ he
    cases o with
    | callTool name args =>
      cases r with
      | error exc => rfl
      | ok result => exact scanError_eq_none_iff.mpr (h name args result he)
    | _ => rfl
  · intro h name args result he
    exact scanError_eq_none_iff.mp (h _ he)

def IsToolEvent : GraphEvent → Prop
  | ⟨.callTool _ _, _⟩ => True
  | ⟨.dispatched _, _⟩ => True
  | _ => False

theorem IsToolEvent.shows_nothing {e : GraphEvent} (h : IsToolEvent e) :
    visit? e = none ∧ verdict? e = none ∧ draftText? e = none ∧ draftFeedback? e = none ∧
      plannedOrderId? e = none ∧ modelTicket? e = none ∧ raised? e = none ∧ plan? e = none := by
  obtain ⟨o, r⟩ := e
  cases o <;> first | exact h.elim | exact ⟨rfl, rfl, rfl, rfl, rfl, rfl, rfl, rfl⟩

theorem IsToolEvent.no_classifyError {e : GraphEvent} (h : IsToolEvent e) :
    classifyError? e = none := by
  obtain ⟨o, r⟩ := e
  cases o <;> first | exact h.elim | rfl

def planEvent (state : CaseState) (answer : Except Exc (List ToolRequest)) : GraphEvent :=
  ⟨.planResearch state.ticket (strOr state.category Category.other.value) state.orderId, answer⟩

def draftEvent (state : CaseState) (answer : Except Exc String) : GraphEvent :=
  ⟨.draft state.ticket (strOr state.category Category.other.value) state.facts
    state.reviewFeedback, answer⟩

def reviewEvent (state : CaseState) (answer : Except Exc Verdict) : GraphEvent :=
  ⟨.review state.ticket (state.draft.getD "") state.facts, answer⟩

def classified (state : CaseState) (category : String) : CaseState :=
  { state with
    category := some (if categories.contains category then category else Category.other.value) }

def drafted (db : Runtime) (state : CaseState) (text : String) : CaseState :=
  { state with draft := some (redactPii db text) }

private theorem exec_classify_iff {ticket : String} {tr : List GraphEvent}
    {out : Except Exc String} :
    Exec (classify ticket) tr out ↔ tr = [⟨.classify ticket, out⟩] :=
  exec_answer_iff.trans exists_eq_right'

theorem exec_planResearch_iff {ticket category : String} {orderId : Option String}
    {tr : List GraphEvent} {out : Except Exc (List ToolRequest)} :
    Exec (planResearch ticket category orderId) tr out ↔
      tr = [⟨.planResearch ticket category orderId, out⟩] :=
  exec_answer_iff.trans exists_eq_right'

private theorem exec_draft_iff {ticket category : String} {facts : List Fact}
    {feedback : Option String} {tr : List GraphEvent} {out : Except Exc String} :
    Exec (draft ticket category facts feedback) tr out ↔
      tr = [⟨.draft ticket category facts feedback, out⟩] :=
  exec_answer_iff.trans exists_eq_right'

private theorem exec_review_iff {ticket draft : String} {facts : List Fact}
    {tr : List GraphEvent} {out : Except Exc Verdict} :
    Exec (review ticket draft facts) tr out ↔ tr = [⟨.review ticket draft facts, out⟩] :=
  exec_answer_iff.trans exists_eq_right'

section

variable {db : Runtime} {settings : Settings} {state : CaseState} {tr : List GraphEvent}
  {out : Except Exc CaseState}

theorem exec_classifier_iff :
    Exec (classifier state) tr out ↔ ∃ answer : Except Exc String,
      tr = [⟨.classify state.ticket, answer⟩] ∧ out = answer.map (classified state) := by
  rw [classifier, exec_bind_pure_iff]
  simp only [exec_classify_iff]
  rfl

theorem exec_responder_iff :
    Exec (responder db state) tr out ↔ ∃ answer : Except Exc String,
      tr = [draftEvent state answer] ∧ out = answer.map (drafted db state) := by
  rw [responder, exec_bind_pure_iff]
  simp only [exec_draft_iff]
  rfl

theorem exec_reviewer_iff :
    Exec (reviewer settings state) tr out ↔ ∃ answer : Except Exc Verdict,
      tr = [reviewEvent state answer] ∧ out = answer.map (applyVerdict settings state) := by
  rw [reviewer, exec_bind_pure_iff]
  simp only [exec_review_iff]
  rfl

end

section

variable {db : Runtime} {settings : Settings}

theorem exec_dispatchTool_cases {name : String} {args : Dict} {tr : List GraphEvent}
    {out : Except Exc ToolRecord} (h : Exec (dispatchTool name args) tr out) :
    (isAllowed name = false ∧ tr = [] ∧ out = .ok ⟨name, args,
        .dict [("error", .str "tool_not_allowlisted")], ToolStatus.blocked.value⟩) ∨
      (isAllowed name = true ∧ ∃ exc, tr = [⟨.callTool name args, .error exc⟩] ∧
        out = .ok (errorRecord name args exc)) ∨
      (isAllowed name = true ∧ ∃ result, tr = [⟨.callTool name args, .ok result⟩] ∧
        out = .ok (resultRecord name args result)) := by
  unfold dispatchTool at h
  split at h
  · rename_i hblocked
    obtain ⟨rfl, rfl⟩ := exec_pure_iff.mp h
    exact .inl ⟨by simpa using hblocked, rfl, rfl⟩
  · rename_i hallowed
    obtain ⟨answer, tr', rfl, h'⟩ := exec_perform_bind_iff.mp h
    cases answer with
    | error exc =>
      obtain ⟨rfl, rfl⟩ := exec_pure_iff.mp h'
      exact .inr (.inl ⟨by simpa using hallowed, exc, rfl, rfl⟩)
    | ok result =>
      obtain ⟨rfl, rfl⟩ := exec_pure_iff.mp h'
      exact .inr (.inr ⟨by simpa using hallowed, result, rfl, rfl⟩)

private theorem exec_dispatchTool {name : String} {args : Dict} {tr : List GraphEvent}
    {out : Except Exc ToolRecord} (h : Exec (dispatchTool name args) tr out) :
    (∀ e ∈ tr, ∃ answer, e = ⟨.callTool name args, answer⟩) ∧
      ∃ record, out = .ok record ∧ record.toolName = name ∧ record.args = some args := by
  rcases exec_dispatchTool_cases h with
    ⟨-, rfl, rfl⟩ | ⟨-, exc, rfl, rfl⟩ | ⟨-, result, rfl, rfl⟩
  · exact ⟨by simp, _, rfl, rfl, rfl⟩
  · exact ⟨by simp, _, rfl, rfl, rfl⟩
  · exact ⟨by simp, _, rfl, rfl, rfl⟩

def booked (db : Runtime) (request : ToolRequest) (record : ToolRecord) :
    Except Exc (ToolRecord × List Fact) :=
  if record.status = ToolStatus.ok.value then
    (quarantine db record).map fun entry =>
      (entry.1, [⟨request.name, request.args.getD [], entry.2⟩])
  else .ok (record, [])

theorem booked_of_ok {request : ToolRequest} {record : ToolRecord}
    (h : record.status = ToolStatus.ok.value) :
    booked db request record = (scanToolResult db record.result).map fun scan =>
      (if scan.1 then { record with status := ToolStatus.sanitized.value, result := scan.2 }
        else record, [⟨request.name, request.args.getD [], scan.2⟩]) := by
  rw [booked, if_pos h, quarantine]
  rcases scanToolResult db record.result with exc | ⟨flagged, sanitized⟩
  · rfl
  · cases flagged <;> rfl

private theorem booked_request {request : ToolRequest} {record : ToolRecord}
    {entry : ToolRecord × List Fact} (h : booked db request record = .ok entry) :
    entry.1.toolName = record.toolName ∧ entry.1.args = record.args := by
  by_cases hok : record.status = ToolStatus.ok.value
  · rw [booked_of_ok hok] at h
    rcases hscan : scanToolResult db record.result with exc | ⟨flagged, sanitized⟩
    · rw [hscan] at h
      cases h
    · rw [hscan] at h
      cases h
      cases flagged <;> exact ⟨rfl, rfl⟩
  · rw [booked, if_neg hok] at h
    cases h
    exact ⟨rfl, rfl⟩

private theorem scanErrors_of_dispatchTool {request : ToolRequest} {tr : List GraphEvent}
    {record : ToolRecord}
    (h : Exec (dispatchTool request.name (request.args.getD [])) tr (.ok record)) :
    tr.filterMap (scanError? db) =
      match booked db request record with
      | .error exc => [exc]
      | .ok _ => [] := by
  rcases exec_dispatchTool_cases h with
    ⟨-, rfl, hout⟩ | ⟨-, exc, rfl, hout⟩ | ⟨-, result, rfl, hout⟩
  · cases hout
    rfl
  · cases hout
    by_cases hok : (errorRecord request.name (request.args.getD []) exc).status =
        ToolStatus.ok.value
    · exact absurd hok (by simp [errorRecord, ToolStatus.value])
    · rw [booked, if_neg hok]
      rfl
  · cases hout
    by_cases hok : (resultRecord request.name (request.args.getD []) result).status =
        ToolStatus.ok.value
    · have hshown : scanError? db ⟨.callTool request.name (request.args.getD []), .ok result⟩ =
          match scanToolResult db result with
          | .error exc => some exc
          | .ok _ => none := if_pos hok
      have hscanned : (resultRecord request.name (request.args.getD []) result).result = result :=
        rfl
      rw [booked_of_ok hok, hscanned, List.filterMap_cons, hshown]
      cases scanToolResult db result <;> rfl
    · have hshown : scanError? db ⟨.callTool request.name (request.args.getD []), .ok result⟩ =
          none := if_neg hok
      rw [booked, if_neg hok, List.filterMap_cons_none hshown]
      rfl

theorem exec_dispatchAll_round {request : ToolRequest} {requests : List ToolRequest}
    {facts : List Fact} {toolCalls : List ToolRecord} {tr : List GraphEvent}
    {out : Except Exc (List Fact × List ToolRecord)}
    (h : Exec (dispatchAll db (request :: requests) facts toolCalls) tr out) :
    ∃ calls record, Exec (dispatchTool request.name (request.args.getD [])) calls (.ok record) ∧
      ((∃ exc, booked db request record = .error exc ∧
          tr = calls ++ [⟨.dispatched record, ()⟩] ∧ out = .error exc) ∨
        ∃ entry tr', booked db request record = .ok entry ∧
          tr = calls ++ ⟨.dispatched entry.1, ()⟩ :: tr' ∧
          Exec (dispatchAll db requests (facts ++ entry.2) (toolCalls ++ [entry.1])) tr' out) := by
  rcases exec_bind_iff.mp h with ⟨exc, hcall, -⟩ | ⟨record, calls, rest, rfl, hcall, hrest⟩
  · obtain ⟨-, record, hout, -⟩ := exec_dispatchTool hcall
    cases hout
  refine ⟨calls, record, hcall, ?_⟩
  by_cases hok : record.status = ToolStatus.ok.value
  · rw [if_pos hok] at hrest
    rw [booked, if_pos hok]
    rcases hscan : quarantine db record with exc | ⟨record', sanitized⟩
    · rw [hscan] at hrest
      obtain ⟨_, tr', rfl, hrest'⟩ := exec_perform_bind_iff.mp hrest
      obtain ⟨rfl, rfl⟩ := exec_fail_iff.mp hrest'
      exact .inl ⟨exc, rfl, rfl, rfl⟩
    · rw [hscan] at hrest
      obtain ⟨_, tr', rfl, hrest'⟩ := exec_perform_bind_iff.mp hrest
      exact .inr ⟨_, tr', rfl, rfl, hrest'⟩
  · rw [if_neg hok] at hrest
    obtain ⟨_, tr', rfl, hrest'⟩ := exec_perform_bind_iff.mp hrest
    rw [booked, if_neg hok]
    refine .inr ⟨_, tr', rfl, rfl, ?_⟩
    rw [List.append_nil]
    exact hrest'

/-- What the dispatch of some requests leaves: a record a request, in order. -/
structure Dispatched (requests : List ToolRequest) (tr : List GraphEvent) : Prop where
  events : ∀ e ∈ tr, IsToolEvent e
  names : (tr.filterMap dispatched?).map ToolRecord.toolName = requests.map ToolRequest.name
  args : (tr.filterMap dispatched?).map ToolRecord.args =
    requests.map fun request => some (request.args.getD [])

private theorem dispatched_nil : Dispatched [] [] := ⟨by simp, rfl, rfl⟩

theorem Dispatched.cons {request : ToolRequest} {requests : List ToolRequest}
    {calls tr : List GraphEvent} {record : ToolRecord}
    (hcalls : ∀ e ∈ calls, ∃ answer,
      e = ⟨.callTool request.name (request.args.getD []), answer⟩)
    (hname : record.toolName = request.name) (hargs : record.args = some (request.args.getD []))
    (h : Dispatched requests tr) :
    Dispatched (request :: requests) (calls ++ ⟨.dispatched record, ()⟩ :: tr) ∧
      (calls ++ ⟨.dispatched record, ()⟩ :: tr).filterMap dispatched? =
        record :: tr.filterMap dispatched? := by
  have hnone : calls.filterMap dispatched? = [] := by
    rw [List.filterMap_eq_nil_iff]
    intro e he
    obtain ⟨answer, rfl⟩ := hcalls e he
    rfl
  have hdispatched : (calls ++ ⟨.dispatched record, ()⟩ :: tr).filterMap dispatched? =
      record :: tr.filterMap dispatched? := by
    simp [hnone, dispatched?]
  refine ⟨⟨?_, ?_, ?_⟩, hdispatched⟩
  · intro e he
    rcases List.mem_append.mp he with he | he
    · obtain ⟨answer, rfl⟩ := hcalls e he
      trivial
    · rcases List.mem_cons.mp he with rfl | he
      · trivial
      · exact h.events e he
  · rw [hdispatched, List.map_cons, h.names, List.map_cons, hname]
  · rw [hdispatched, List.map_cons, h.args, List.map_cons, hargs]

theorem exec_dispatchAll {requests : List ToolRequest} {facts : List Fact}
    {toolCalls : List ToolRecord} {tr : List GraphEvent}
    {out : Except Exc (List Fact × List ToolRecord)}
    (h : Exec (dispatchAll db requests facts toolCalls) tr out) :
    ∃ done, Dispatched done tr ∧
      ((done = requests ∧ tr.filterMap (scanError? db) = [] ∧
          ∃ facts', out = .ok (facts', toolCalls ++ tr.filterMap dispatched?)) ∨
        (done <+: requests ∧ done ≠ [] ∧
          ∃ exc, tr.filterMap (scanError? db) = [exc] ∧ out = .error exc)) := by
  induction requests generalizing facts toolCalls tr with
  | nil =>
    obtain ⟨rfl, rfl⟩ := exec_pure_iff.mp h
    exact ⟨[], dispatched_nil, .inl ⟨rfl, rfl, facts, by simp⟩⟩
  | cons request requests ih =>
    obtain ⟨calls, record, hcall, hround⟩ := exec_dispatchAll_round h
    have hscan : calls.filterMap (scanError? db) = match booked db request record with
        | .error exc => [exc]
        | .ok _ => [] := scanErrors_of_dispatchTool hcall
    obtain ⟨hcalls, _, hout, hname, hargs⟩ := exec_dispatchTool hcall
    cases hout
    rcases hround with ⟨exc, hbooked, rfl, rfl⟩ | ⟨entry, tr', hbooked, rfl, hrest⟩
    · rw [hbooked] at hscan
      refine ⟨[request], (dispatched_nil.cons hcalls hname hargs).1,
        .inr ⟨⟨requests, rfl⟩, List.cons_ne_nil _ _, exc, ?_, rfl⟩⟩
      rw [List.filterMap_append, hscan]
      rfl
    · rw [hbooked] at hscan
      obtain ⟨hname', hargs'⟩ := booked_request hbooked
      have hscans : (calls ++ ⟨.dispatched entry.1, ()⟩ :: tr').filterMap (scanError? db) =
          tr'.filterMap (scanError? db) := by
        rw [List.filterMap_append, hscan]
        rfl
      obtain ⟨done, hdone, hend⟩ := ih hrest
      obtain ⟨hall, hrecords⟩ := hdone.cons hcalls (hname'.trans hname) (hargs'.trans hargs)
      refine ⟨request :: done, hall, ?_⟩
      rcases hend with ⟨rfl, hclear, facts', rfl⟩ | ⟨hinitial, -, exc, hraised, rfl⟩
      · refine .inl ⟨rfl, hscans.trans hclear, facts', ?_⟩
        rw [hrecords, List.append_assoc, List.singleton_append]
      · exact .inr ⟨(List.prefix_cons_inj request).mpr hinitial, List.cons_ne_nil _ _, exc,
          hscans.trans hraised, rfl⟩

theorem exec_researcher {state : CaseState} {tr : List GraphEvent} {out : Except Exc CaseState}
    (h : Exec (researcher db settings state) tr out) :
    (∃ exc, tr = [planEvent state (.error exc)] ∧ out = .error exc) ∨
    ∃ requests done tr', tr = planEvent state (.ok requests) :: tr' ∧ Dispatched done tr' ∧
      ((done = sliceTo requests settings.maxToolRounds ∧ tr'.filterMap (scanError? db) = [] ∧
          ∃ facts, out = .ok { state with
            facts := facts, toolCalls := state.toolCalls ++ tr'.filterMap dispatched? }) ∨
        (done <+: sliceTo requests settings.maxToolRounds ∧ done ≠ [] ∧
          ∃ exc, tr'.filterMap (scanError? db) = [exc] ∧ out = .error exc)) := by
  rcases exec_bind_iff.mp h with ⟨exc, hplan, rfl⟩ | ⟨requests, tr₁, tr', rfl, hplan, hrest⟩
  · exact .inl ⟨exc, exec_planResearch_iff.mp hplan, rfl⟩
  obtain rfl := exec_planResearch_iff.mp hplan
  obtain ⟨result, hall, rfl⟩ := exec_bind_pure_iff.mp hrest
  obtain ⟨done, hdispatched, hend⟩ := exec_dispatchAll hall
  refine .inr ⟨requests, done, tr', rfl, hdispatched, ?_⟩
  rcases hend with ⟨hdone, hclear, facts, rfl⟩ | ⟨hdone, hne, exc, hraised, rfl⟩
  · exact .inl ⟨hdone, hclear, facts, rfl⟩
  · exact .inr ⟨hdone, hne, exc, hraised, rfl⟩

end

end TicketWarden.Graph
