/- Module: TicketWarden/Graph/ReviewLoop
   source: apps/api/src/graph/nodes.py, apps/api/src/graph/edges.py
   digest: The executions of the loop of responder and reviewer, pass by pass, and what
   they share: the counter, the decision and the feedback follow the verdicts. -/

import TicketWarden.Graph.Trace

set_option autoImplicit false
set_option relaxedAutoImplicit false

namespace TicketWarden.Graph

open Effects Guardrails Python

section

variable (db : Runtime) (settings : Settings)

def passTrace (state : CaseState) (text : String) (verdict : Verdict) : List GraphEvent :=
  [⟨.enter .responder, ()⟩, draftEvent state (.ok text), ⟨.enter .reviewer, ()⟩,
    reviewEvent (drafted db state text) (.ok verdict)]

def passState (state : CaseState) (text : String) (verdict : Verdict) : CaseState :=
  applyVerdict settings (drafted db state text) verdict

/-- Whether a verdict sends the case back to the responder. -/
def GoesOn (state : CaseState) (verdict : Verdict) : Prop :=
  verdict.approved = false ∧ state.iterations + 1 < settings.maxReviewIterations

/-- A pass that an exception or the recursion limit cuts short. -/
inductive CutShort (limit : ℕ) : ℕ → CaseState → List GraphEvent → Exc → Prop
  | atResponder (state : CaseState) : CutShort limit 0 state [] (recursionError db limit)
  | inResponder (steps : ℕ) (state : CaseState) (exc : Exc) :
      CutShort limit (steps + 1) state
        [⟨.enter .responder, ()⟩, draftEvent state (.error exc)] exc
  | atReviewer (state : CaseState) (text : String) :
      CutShort limit 1 state [⟨.enter .responder, ()⟩, draftEvent state (.ok text)]
        (recursionError db limit)
  | inReviewer (steps : ℕ) (state : CaseState) (text : String) (exc : Exc) :
      CutShort limit (steps + 2) state
        [⟨.enter .responder, ()⟩, draftEvent state (.ok text), ⟨.enter .reviewer, ()⟩,
          reviewEvent (drafted db state text) (.error exc)] exc

/-- The executions of the review loop that starts at the responder. -/
inductive ReviewLoop (limit : ℕ) :
    ℕ → CaseState → List GraphEvent → Except Exc CaseState → Prop
  | cutShort {steps : ℕ} {state : CaseState} {tr : List GraphEvent} {exc : Exc} :
      CutShort db limit steps state tr exc → ReviewLoop limit steps state tr (.error exc)
  | ends {steps : ℕ} {state : CaseState} (text : String) {verdict : Verdict} :
      ¬ GoesOn settings state verdict →
      ReviewLoop limit (steps + 3) state (passTrace db state text verdict)
        (.ok (passState db settings state text verdict))
  | atEnd {state : CaseState} (text : String) {verdict : Verdict} :
      ¬ GoesOn settings state verdict →
      ReviewLoop limit 2 state (passTrace db state text verdict) (.error (recursionError db limit))
  | again {steps : ℕ} {state : CaseState} (text : String) {verdict : Verdict}
      {tr : List GraphEvent} {out : Except Exc CaseState} :
      GoesOn settings state verdict →
      ReviewLoop limit steps (passState db settings state text verdict) tr out →
      ReviewLoop limit (steps + 2) state (passTrace db state text verdict ++ tr) out

end

variable {db : Runtime} {settings : Settings} {limit steps : ℕ} {state : CaseState}
  {tr : List GraphEvent}

theorem exec_runGraph_succ {node : Node} {out : Except Exc CaseState}
    (h : Exec (runGraph db settings limit (steps + 1) (some node) state) tr out) :
    ∃ tr', tr = ⟨.enter node, ()⟩ :: tr' ∧
      ((∃ exc, Exec (runNode db settings node state) tr' (.error exc) ∧ out = .error exc) ∨
        ∃ state' tr₁ tr₂, tr' = tr₁ ++ tr₂ ∧
          Exec (runNode db settings node state) tr₁ (.ok state') ∧
          Exec (runGraph db settings limit steps (nextNode settings node state') state')
            tr₂ out) := by
  obtain ⟨_, tr', rfl, h'⟩ := exec_perform_bind_iff.mp h
  exact ⟨tr', rfl, exec_bind_iff.mp h'⟩

theorem exec_runGraph_none {out : Except Exc CaseState}
    (h : Exec (runGraph db settings limit steps none state) tr out) :
    tr = [] ∧ ((steps = 0 ∧ out = .error (recursionError db limit)) ∨
      (0 < steps ∧ out = .ok state)) := by
  cases steps with
  | zero =>
    obtain ⟨rfl, rfl⟩ := exec_fail_iff.mp h
    exact ⟨rfl, .inl ⟨rfl, rfl⟩⟩
  | succ steps =>
    obtain ⟨rfl, rfl⟩ := exec_pure_iff.mp h
    exact ⟨rfl, .inr ⟨Nat.succ_pos steps, rfl⟩⟩

/-! What a pass leaves behind, by the verdict that ends it. -/

private theorem passState_of_goesOn {text : String} {verdict : Verdict}
    (h : GoesOn settings state verdict) :
    passState db settings state text verdict =
      { state with
        draft := some (redactPii db text)
        iterations := state.iterations + 1
        reviewFeedback := some (strOr verdict.feedback defaultFeedback) } := by
  obtain ⟨hrejected, hbelow⟩ := h
  have hcap : ¬ settings.maxReviewIterations ≤ state.iterations + 1 := by omega
  simp [passState, applyVerdict, drafted, hrejected, hcap]

theorem passState_of_approved {text : String} {verdict : Verdict}
    (h : verdict.approved = true) :
    passState db settings state text verdict =
      { state with
        draft := some (redactPii db text)
        iterations := state.iterations + 1
        decision := some Decision.resolved.value
        reviewFeedback := none } := by
  simp [passState, applyVerdict, drafted, h]

theorem passState_of_exhausted {text : String} {verdict : Verdict}
    (h : verdict.approved = false) (hends : ¬ GoesOn settings state verdict) :
    passState db settings state text verdict =
      { state with
        draft := some (redactPii db text)
        iterations := state.iterations + 1
        reviewFeedback := some (strOr verdict.feedback defaultFeedback)
        decision := some Decision.escalate.value
        escalationReason := some (exhaustedReason (state.iterations + 1)
          (strOr verdict.feedback defaultFeedback)) } := by
  have hcap : settings.maxReviewIterations ≤ state.iterations + 1 := by
    by_contra hlt
    exact hends ⟨h, by omega⟩
  simp [passState, applyVerdict, drafted, h, hcap]

private theorem passState_frame (text : String) (verdict : Verdict) :
    (passState db settings state text verdict).ticket = state.ticket ∧
      (passState db settings state text verdict).toolCalls = state.toolCalls ∧
      (passState db settings state text verdict).draft = some (redactPii db text) ∧
      (passState db settings state text verdict).iterations = state.iterations + 1 := by
  unfold passState applyVerdict
  dsimp only
  split
  · exact ⟨rfl, rfl, rfl, rfl⟩
  · split <;> exact ⟨rfl, rfl, rfl, rfl⟩

@[simp] theorem passState_ticket (text : String) (verdict : Verdict) :
    (passState db settings state text verdict).ticket = state.ticket :=
  (passState_frame text verdict).1

@[simp] theorem passState_toolCalls (text : String) (verdict : Verdict) :
    (passState db settings state text verdict).toolCalls = state.toolCalls :=
  (passState_frame text verdict).2.1

@[simp] theorem passState_draft (text : String) (verdict : Verdict) :
    (passState db settings state text verdict).draft = some (redactPii db text) :=
  (passState_frame text verdict).2.2.1

@[simp] theorem passState_iterations (text : String) (verdict : Verdict) :
    (passState db settings state text verdict).iterations = state.iterations + 1 :=
  (passState_frame text verdict).2.2.2

private theorem routeAfterReview_passState (hd : state.decision = none) (text : String)
    (verdict : Verdict) :
    (GoesOn settings state verdict ∧
        routeAfterReview settings (passState db settings state text verdict) =
          some .responder) ∨
      (¬ GoesOn settings state verdict ∧
        routeAfterReview settings (passState db settings state text verdict) = none) := by
  by_cases h : GoesOn settings state verdict
  · refine .inl ⟨h, ?_⟩
    have hcap : ¬ settings.maxReviewIterations ≤ state.iterations + 1 := by
      have := h.2
      omega
    rw [passState_of_goesOn h]
    simp [routeAfterReview, hd, hcap]
  · refine .inr ⟨h, ?_⟩
    cases happroved : verdict.approved with
    | true =>
      rw [passState_of_approved happroved]
      simp [routeAfterReview]
    | false =>
      have hcap : settings.maxReviewIterations ≤ state.iterations + 1 := by
        by_contra hlt
        exact h ⟨happroved, by omega⟩
      rw [passState_of_exhausted happroved h]
      simp [routeAfterReview, hcap]

private theorem exec_runGraph_responder {out : Except Exc CaseState}
    (h : Exec (runGraph db settings limit (steps + 1) (some .responder) state) tr out) :
    (∃ exc, tr = [⟨.enter .responder, ()⟩, draftEvent state (.error exc)] ∧ out = .error exc) ∨
      ∃ text tr', tr = ⟨.enter .responder, ()⟩ :: draftEvent state (.ok text) :: tr' ∧
        Exec (runGraph db settings limit steps (some .reviewer) (drafted db state text)) tr'
          out := by
  obtain ⟨tr', rfl, ⟨exc, hnode, rfl⟩ | ⟨state', tr₁, tr₂, rfl, hnode, hrest⟩⟩ :=
    exec_runGraph_succ h
  · obtain ⟨answer, rfl, hout⟩ := exec_responder_iff.mp hnode
    cases answer with
    | ok text => cases hout
    | error exc =>
      cases hout
      exact .inl ⟨exc, rfl, rfl⟩
  · obtain ⟨answer, rfl, hout⟩ := exec_responder_iff.mp hnode
    cases answer with
    | error exc => cases hout
    | ok text =>
      cases hout
      exact .inr ⟨text, tr₂, rfl, hrest⟩

private theorem exec_runGraph_reviewer {out : Except Exc CaseState}
    (h : Exec (runGraph db settings limit (steps + 1) (some .reviewer) state) tr out) :
    (∃ exc, tr = [⟨.enter .reviewer, ()⟩, reviewEvent state (.error exc)] ∧ out = .error exc) ∨
      ∃ verdict tr', tr = ⟨.enter .reviewer, ()⟩ :: reviewEvent state (.ok verdict) :: tr' ∧
        Exec (runGraph db settings limit steps
          (routeAfterReview settings (applyVerdict settings state verdict))
          (applyVerdict settings state verdict)) tr' out := by
  obtain ⟨tr', rfl, ⟨exc, hnode, rfl⟩ | ⟨state', tr₁, tr₂, rfl, hnode, hrest⟩⟩ :=
    exec_runGraph_succ h
  · obtain ⟨answer, rfl, hout⟩ := exec_reviewer_iff.mp hnode
    cases answer with
    | ok verdict => cases hout
    | error exc =>
      cases hout
      exact .inl ⟨exc, rfl, rfl⟩
  · obtain ⟨answer, rfl, hout⟩ := exec_reviewer_iff.mp hnode
    cases answer with
    | error exc => cases hout
    | ok verdict =>
      cases hout
      exact .inr ⟨verdict, tr₂, rfl, hrest⟩

/-- Every run of the graph from the responder is an execution of the review loop. -/
theorem reviewLoop_of_exec {out : Except Exc CaseState} (hd : state.decision = none)
    (h : Exec (runGraph db settings limit steps (some .responder) state) tr out) :
    ReviewLoop db settings limit steps state tr out := by
  induction steps using Nat.twoStepInduction generalizing state tr with
  | zero =>
    obtain ⟨rfl, rfl⟩ := exec_fail_iff.mp h
    exact .cutShort (.atResponder state)
  | one =>
    rcases exec_runGraph_responder h with ⟨exc, rfl, rfl⟩ | ⟨text, tr', rfl, hrest⟩
    · exact .cutShort (.inResponder 0 state exc)
    · obtain ⟨rfl, rfl⟩ := exec_fail_iff.mp hrest
      exact .cutShort (.atReviewer state text)
  | more steps ih _ =>
    rcases exec_runGraph_responder h with ⟨exc, rfl, rfl⟩ | ⟨text, tr', rfl, hrest⟩
    · exact .cutShort (.inResponder (steps + 1) state exc)
    rcases exec_runGraph_reviewer hrest with ⟨exc, rfl, rfl⟩ | ⟨verdict, tr', rfl, hnext⟩
    · exact .cutShort (.inReviewer steps state text exc)
    change Exec (runGraph db settings limit steps
      (routeAfterReview settings (passState db settings state text verdict))
      (passState db settings state text verdict)) tr' out at hnext
    rcases routeAfterReview_passState hd text verdict with ⟨hgoes, hroute⟩ | ⟨hends, hroute⟩
    · rw [hroute] at hnext
      have hd' : (passState db settings state text verdict).decision = none := by
        rw [passState_of_goesOn hgoes]
        exact hd
      exact .again text hgoes (ih hd' hnext)
    · rw [hroute] at hnext
      obtain ⟨rfl, ⟨rfl, rfl⟩ | ⟨hsteps, rfl⟩⟩ := exec_runGraph_none hnext
      · exact .atEnd text hends
      · obtain ⟨steps, rfl⟩ := Nat.exists_eq_add_of_lt hsteps
        rw [Nat.zero_add]
        exact .ends text hends

def feedbackOf (verdict : Verdict) : String := strOr verdict.feedback defaultFeedback

def afterRejections (state : CaseState) (rejected : List Verdict) : CaseState :=
  { state with iterations := state.iterations + rejected.length }

/-- A loop that went on after the verdicts `rejected` and ended with `verdict` on `text`. -/
structure ConcludedBy (settings : Settings) (state : CaseState) (tr : List GraphEvent)
    (rejected : List Verdict) (verdict : Verdict) (text : String) : Prop where
  verdicts : tr.filterMap verdict? = rejected ++ [verdict]
  rejections : ∀ v ∈ rejected, v.approved = false
  below : rejected ≠ [] → state.iterations + rejected.length < settings.maxReviewIterations
  last : ¬ GoesOn settings (afterRejections state rejected) verdict
  text : ∃ texts, tr.filterMap draftText? = texts ++ [text]
  visits : tr.filterMap visit? =
    (List.replicate (rejected.length + 1) [Node.responder, .reviewer]).flatten
  feedback : tr.filterMap draftFeedback? =
    state.reviewFeedback :: rejected.map fun v => some (feedbackOf v)
  raised : tr.filterMap raised? = []

/-- A loop that an exception or the recursion limit stopped before its last verdict. -/
structure StoppedBy (db : Runtime) (settings : Settings) (limit steps : ℕ) (state : CaseState)
    (tr : List GraphEvent) (exc : Exc) : Prop where
  rejections : ∀ v ∈ tr.filterMap verdict?, v.approved = false
  below : tr.filterMap verdict? ≠ [] →
    state.iterations + (tr.filterMap verdict?).length < settings.maxReviewIterations
  raised : tr.filterMap raised? = [exc] ∨
    (tr.filterMap raised? = [] ∧ exc = recursionError db limit ∧
      steps ≤ 2 * (tr.filterMap verdict?).length + 1)

private theorem passState_afterRejections (text text' : String) {verdict : Verdict}
    (verdict' : Verdict) (rejected : List Verdict) (h : GoesOn settings state verdict) :
    passState db settings
        (afterRejections (passState db settings state text verdict) rejected) text' verdict' =
      passState db settings (afterRejections state (verdict :: rejected)) text' verdict' := by
  have hcount : state.iterations + 1 + (rejected.length : ℤ) =
      state.iterations + ((verdict :: rejected).length : ℤ) := by
    rw [List.length_cons]
    push_cast
    ring
  have hoverwritten : ∀ draft feedback, passState db settings
      { state with
        draft := draft
        reviewFeedback := feedback
        iterations := state.iterations + 1 + (rejected.length : ℤ) } text' verdict' =
      passState db settings
        { state with iterations := state.iterations + 1 + (rejected.length : ℤ) }
        text' verdict' := fun _ _ => rfl
  rw [passState_of_goesOn h]
  refine (hoverwritten _ _).trans ?_
  rw [hcount]
  rfl

private theorem ConcludedBy.again {text text' : String} {verdict last : Verdict}
    {rejected : List Verdict} (hgoes : GoesOn settings state verdict)
    (h : ConcludedBy settings (passState db settings state text verdict) tr rejected last text') :
    ConcludedBy settings state (passTrace db state text verdict ++ tr) (verdict :: rejected)
      last text' := by
  have hcount : (passState db settings state text verdict).iterations + rejected.length =
      state.iterations + ((verdict :: rejected).length : ℤ) := by
    rw [passState_of_goesOn hgoes, List.length_cons]
    push_cast
    ring
  constructor
  case verdicts => rw [List.filterMap_append, h.verdicts]; rfl
  case rejections =>
    rintro v (_ | ⟨_, hv⟩)
    · exact hgoes.1
    · exact h.rejections v hv
  case below =>
    intro _
    cases rejected with
    | nil => simpa using hgoes.2
    | cons v rejected => rw [← hcount]; exact h.below (by simp)
  case last =>
    rintro ⟨hrejected, hlt⟩
    refine h.last ⟨hrejected, ?_⟩
    simpa only [afterRejections, hcount] using hlt
  case text =>
    obtain ⟨texts, htexts⟩ := h.text
    exact ⟨text :: texts, by rw [List.filterMap_append, htexts]; rfl⟩
  case visits => rw [List.filterMap_append, h.visits]; rfl
  case feedback => rw [List.filterMap_append, h.feedback, passState_of_goesOn hgoes]; rfl
  case raised => rw [List.filterMap_append, h.raised]; rfl

private theorem concludedBy_ends (text : String) {verdict : Verdict}
    (hends : ¬ GoesOn settings state verdict) :
    ConcludedBy settings state (passTrace db state text verdict) [] verdict text := by
  refine ⟨rfl, by simp, by simp, ?_, ⟨[], rfl⟩, rfl, rfl, rfl⟩
  simpa [afterRejections] using hends

theorem ReviewLoop.concludedBy {out : Except Exc CaseState} {final : CaseState}
    (h : ReviewLoop db settings limit steps state tr out) (hout : out = .ok final) :
    ∃ rejected verdict text, ConcludedBy settings state tr rejected verdict text ∧
      final = passState db settings (afterRejections state rejected) text verdict ∧
      2 * rejected.length + 2 < steps := by
  induction h with
  | cutShort => cases hout
  | atEnd => cases hout
  | @ends steps state text verdict hends =>
    cases hout
    exact ⟨[], verdict, text, concludedBy_ends text hends, by simp [afterRejections], by simp⟩
  | @again steps state text verdict tr out hgoes hloop ih =>
    obtain ⟨rejected, last, text', hby, rfl, hsteps⟩ := ih hout
    refine ⟨verdict :: rejected, last, text', hby.again hgoes,
      passState_afterRejections text text' last rejected hgoes, ?_⟩
    rw [List.length_cons]
    omega

theorem ReviewLoop.lastReviewed {out : Except Exc CaseState} {final : CaseState}
    (h : ReviewLoop db settings limit steps state tr out) (hout : out = .ok final) :
    (tr.filterMap reviewedDraft?).getLast? = final.draft := by
  induction h with
  | cutShort => cases hout
  | atEnd => cases hout
  | @ends steps state text verdict hends =>
    cases hout
    rw [passState_draft]
    rfl
  | @again steps state text verdict tr out hgoes hloop ih =>
    have hdraft : final.draft ≠ none := by
      obtain ⟨rejected, last, text', -, rfl, -⟩ := hloop.concludedBy hout
      rw [passState_draft]
      exact Option.some_ne_none _
    obtain ⟨draft, hsome⟩ := Option.ne_none_iff_exists'.mp hdraft
    rw [List.filterMap_append, List.getLast?_append, ih hout, hsome]
    rfl

private theorem CutShort.verdicts {exc : Exc} (h : CutShort db limit steps state tr exc) :
    tr.filterMap verdict? = [] := by
  cases h <;> rfl

theorem CutShort.stoppedBy {exc : Exc} (h : CutShort db limit steps state tr exc) :
    StoppedBy db settings limit steps state tr exc := by
  refine ⟨by simp [h.verdicts], by simp [h.verdicts], ?_⟩
  rw [h.verdicts]
  cases h with
  | atResponder => exact .inr ⟨rfl, rfl, by simp⟩
  | inResponder => exact .inl rfl
  | atReviewer => exact .inr ⟨rfl, rfl, by simp⟩
  | inReviewer => exact .inl rfl

private theorem StoppedBy.again {text : String} {verdict : Verdict} {exc : Exc}
    (hgoes : GoesOn settings state verdict)
    (h : StoppedBy db settings limit steps (passState db settings state text verdict) tr exc) :
    StoppedBy db settings limit (steps + 2) state (passTrace db state text verdict ++ tr) exc := by
  have hverdicts : (passTrace db state text verdict ++ tr).filterMap verdict? =
      verdict :: tr.filterMap verdict? := by
    rw [List.filterMap_append]; rfl
  have hraised : (passTrace db state text verdict ++ tr).filterMap raised? =
      tr.filterMap raised? := by
    rw [List.filterMap_append]; rfl
  constructor
  case rejections =>
    rw [hverdicts]
    rintro v (_ | ⟨_, hv⟩)
    · exact hgoes.1
    · exact h.rejections v hv
  case below =>
    intro _
    rw [hverdicts, List.length_cons]
    by_cases hnil : tr.filterMap verdict? = []
    · simpa [hnil] using hgoes.2
    · have hbelow := h.below hnil
      rw [passState_of_goesOn hgoes] at hbelow
      push_cast
      simp only at hbelow
      omega
  case raised =>
    rw [hraised, hverdicts, List.length_cons]
    rcases h.raised with hone | ⟨hnone, hexc, hsteps⟩
    · exact .inl hone
    · exact .inr ⟨hnone, hexc, by omega⟩

theorem ReviewLoop.stoppedBy {out : Except Exc CaseState} {exc : Exc}
    (h : ReviewLoop db settings limit steps state tr out) (hout : out = .error exc) :
    StoppedBy db settings limit steps state tr exc ∨
      ∃ rejected verdict text, ConcludedBy settings state tr rejected verdict text ∧
        exc = recursionError db limit ∧ steps = 2 * rejected.length + 2 := by
  induction h with
  | cutShort hcut =>
    cases hout
    exact .inl hcut.stoppedBy
  | ends => cases hout
  | @atEnd state text verdict hends =>
    cases hout
    exact .inr ⟨[], verdict, text, concludedBy_ends text hends, rfl, rfl⟩
  | @again steps state text verdict tr out hgoes hloop ih =>
    rcases ih hout with hby | ⟨rejected, last, text', hby, hexc, hsteps⟩
    · exact .inl (hby.again hgoes)
    · refine .inr ⟨verdict :: rejected, last, text', hby.again hgoes, hexc, ?_⟩
      rw [List.length_cons]
      omega

def IsLoopEvent (ticket : String) : GraphEvent → Prop
  | ⟨.enter _, _⟩ => True
  | ⟨.draft ticket' _ _ _, _⟩ => ticket' = ticket
  | ⟨.review ticket' _ _, _⟩ => ticket' = ticket
  | _ => False

theorem IsLoopEvent.shows {ticket : String} {e : GraphEvent} (h : IsLoopEvent ticket e) :
    plannedOrderId? e = none ∧ dispatched? e = none ∧ plan? e = none ∧
      ∀ t, modelTicket? e = some t → t = ticket := by
  obtain ⟨o, r⟩ := e
  cases o <;> first | exact h.elim | skip
  · exact ⟨rfl, rfl, rfl, fun t ht => (Option.some.inj ht).symm.trans h⟩
  · exact ⟨rfl, rfl, rfl, fun t ht => (Option.some.inj ht).symm.trans h⟩
  · exact ⟨rfl, rfl, rfl, fun t ht => by cases ht⟩

theorem IsLoopEvent.no_classifyError {ticket : String} {e : GraphEvent}
    (h : IsLoopEvent ticket e) : classifyError? e = none := by
  obtain ⟨o, r⟩ := e
  cases o <;> first | exact h.elim | rfl

theorem IsLoopEvent.graphError {ticket : String} {e : GraphEvent} (h : IsLoopEvent ticket e) :
    graphError? db e = raised? e := by
  obtain ⟨o, r⟩ := e
  cases o <;> first | exact h.elim | exact Option.or_none

private theorem passTrace_events (text : String) (verdict : Verdict) :
    ∀ e ∈ passTrace db state text verdict, IsLoopEvent state.ticket e := by
  simp [passTrace, IsLoopEvent, draftEvent, reviewEvent, drafted]

theorem ReviewLoop.events {out : Except Exc CaseState}
    (h : ReviewLoop db settings limit steps state tr out) :
    ∀ e ∈ tr, IsLoopEvent state.ticket e := by
  induction h with
  | cutShort hcut => cases hcut <;> simp [IsLoopEvent, draftEvent, reviewEvent, drafted]
  | ends text _ => exact passTrace_events text _
  | atEnd text _ => exact passTrace_events text _
  | again text hgoes hloop ih =>
    rw [passState_ticket] at ih
    intro e he
    rcases List.mem_append.mp he with he | he
    · exact passTrace_events text _ e he
    · exact ih e he

end TicketWarden.Graph
