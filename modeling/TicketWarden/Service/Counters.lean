/- Module: TicketWarden/Service/Counters
   source: apps/api/src/service.py, apps/api/src/observability/metrics.py
   digest: Once any set of concurrent calls has ended, the counters agree with the rows
   that were committed. -/

import TicketWarden.Service.Audit
import TicketWarden.Service.Conserved
import TicketWarden.Service.FakeLLM
import TicketWarden.Effects.Interleaving

set_option autoImplicit false
set_option relaxedAutoImplicit false

namespace TicketWarden.Service

open TicketWarden.Graph Effects Guardrails Observability Python Storage

def rowMetric? (e : ServiceEvent) : Option Metric :=
  match written? e with
  | some (.toolCall row) => some (.toolCalls row.toolName row.status)
  | some (.securityEvent row) => some (.securityEvents row.eventType)
  | _ => none

def auditMetric? : ServiceEvent → Option Metric
  | ⟨.record (.toolCalls tool status), _⟩ => some (.toolCalls tool status)
  | ⟨.record (.securityEvents eventType), _⟩ => some (.securityEvents eventType)
  | _ => none

/-- The counters say, in order, which audit rows have been committed. -/
def Tallied (tr : List ServiceEvent) : Prop :=
  tr.filterMap rowMetric? = tr.filterMap auditMetric?

private theorem additive_tallied : Additive Tallied := additive_filterMap_eq _ _

private theorem Quiet.tallied {tr : List ServiceEvent} (h : Quiet tr) : Tallied tr := by
  have hrows : tr.filterMap rowMetric? = [] := by
    refine List.filterMap_eq_nil_iff.mpr fun e he => ?_
    obtain ⟨metric, -, rfl⟩ := h e he
    rfl
  have hcounters : tr.filterMap auditMetric? = [] := by
    refine List.filterMap_eq_nil_iff.mpr fun e he => ?_
    obtain ⟨metric, hmetric, rfl⟩ := h e he
    cases metric <;> first | rfl | exact hmetric.elim
  exact hrows.trans hcounters.symm

private theorem tallied_logSecurityEvent (ticketId : String) (eventType : SecurityEventType)
    (detail : Option String) : Satisfies (logSecurityEvent ticketId eventType detail) Tallied :=
  satisfies_logSecurityEvent (fun _ => rfl) rfl

private theorem tallied_persistToolCall (db : Runtime) (ticketId : String) (call : ToolRecord) :
    Satisfies (persistToolCall db ticketId call) Tallied := by
  intro tr out h
  rcases exec_persistToolCall h with rfl | ⟨exc, rfl⟩ | ⟨tr', rfl, hevent⟩
  · rfl
  · rfl
  have htail : Tallied tr' := by
    rcases hevent with ⟨-, hlog⟩ | ⟨-, hlog⟩ | rfl
    · exact tallied_logSecurityEvent _ _ _ hlog
    · exact tallied_logSecurityEvent _ _ _ hlog
    · exact additive_tallied.nil
  have hhead : Tallied [⟨.insertToolCall (toolCallRow ticketId call), .ok ()⟩,
      ⟨.record (.toolCalls call.toolName call.status), ()⟩] := rfl
  exact additive_tallied.append hhead htail

private theorem conserved_tallied (ticketId : String) : Conserved Tallied ticketId where
  additive := additive_tallied
  perfCounter _ := rfl
  usage _ := rfl
  traceUrl _ := rfl
  decision _ := rfl
  quiet _ h := h.tallied
  ticket _ out _ := by cases out <;> rfl
  withheld _ := tallied_logSecurityEvent _ _ _
  toolCall _ := tallied_persistToolCall _ _

private theorem tallied_resolveCase {env : Env} {graph : CaseState → GraphProgram CaseState}
    {request : ResolveRequest env.db} {tr : List CallEvent} {out : Except Exc ResolveResponse}
    (h : Exec (resolveCase env graph request) tr out) : Tallied (serviceEvents tr) := by
  obtain ⟨started, hex, tr', hservice, hcase⟩ := exec_resolveCase h
  have hrest : Tallied tr' := by
    rcases hcase with ⟨reason, -, -, hrefuse⟩ | ⟨-, gout, -, hfinish⟩
    · exact (conserved_tallied _).refuse (fun _ => tallied_logSecurityEvent _ _ _) _ _ _ _ hrefuse
    · exact (conserved_tallied _).finish _ _ _ _ hfinish
  rw [hservice]
  exact hrest

def ticketRow? (e : ServiceEvent) : Option TicketRow := (written? e).bind Write.ticket?

def countedCase? : ServiceEvent → Option String
  | ⟨.record (.cases decision), _⟩ => some decision
  | _ => none

/-- Events that neither store nor count a case. -/
def Neutral (tr : List ServiceEvent) : Prop :=
  ∀ e ∈ tr, ticketRow? e = none ∧ countedCase? e = none

private theorem additive_neutral : Additive Neutral := additive_forall _

theorem Neutral.rows {tr : List ServiceEvent} (h : Neutral tr) : tr.filterMap ticketRow? = [] :=
  List.filterMap_eq_nil_iff.mpr fun e he => (h e he).1

theorem Neutral.counts {tr : List ServiceEvent} (h : Neutral tr) :
    tr.filterMap countedCase? = [] :=
  List.filterMap_eq_nil_iff.mpr fun e he => (h e he).2

/-- How far a call has come with its case: not stored, stored, or stored and counted, which
alone is the way to return. -/
inductive Filed (ticketId decision : String) (tr : List ServiceEvent) : Bool → Prop
  | unstored : Neutral tr → Filed ticketId decision tr false
  | stored (row : TicketRow) :
      tr.filterMap ticketRow? = [row] → row.id = ticketId → row.decision = some decision →
      tr.filterMap countedCase? = [] → Filed ticketId decision tr false
  | counted (row : TicketRow) (ok : Bool) :
      tr.filterMap ticketRow? = [row] → row.id = ticketId → row.decision = some decision →
      tr.filterMap countedCase? = [decision] → Filed ticketId decision tr ok

theorem Filed.decision {ticketId decision : String} {tr : List ServiceEvent} {ok : Bool}
    (h : Filed ticketId decision tr ok) :
    ∀ row ∈ tr.filterMap ticketRow?, row.decision = some decision := by
  cases h with
  | unstored hneutral => simp [hneutral.rows]
  | stored row hrow _ hdecision _ => simp [hrow, hdecision]
  | counted row ok hrow _ hdecision _ => simp [hrow, hdecision]

theorem Filed.length_le {ticketId decision : String} {tr : List ServiceEvent} {ok : Bool}
    (h : Filed ticketId decision tr ok) : (tr.filterMap ticketRow?).length ≤ 1 := by
  cases h with
  | unstored hneutral => simp [hneutral.rows]
  | stored row hrow _ _ _ => simp [hrow]
  | counted row ok hrow _ _ _ => simp [hrow]

/-- Every execution of a program files the case. -/
def Files {α : Type} (p : ServiceProgram α) (ticketId decision : String) : Prop :=
  ∀ ⦃tr : List ServiceEvent⦄ ⦃out : Except Exc α⦄, Exec p tr out →
    Filed ticketId decision tr out.isOk

variable {α β : Type} {ticketId decision : String}

private theorem Filed.prepend {tr₁ tr₂ : List ServiceEvent} {ok : Bool} (h₁ : Neutral tr₁)
    (h₂ : Filed ticketId decision tr₂ ok) : Filed ticketId decision (tr₁ ++ tr₂) ok := by
  have hrows : (tr₁ ++ tr₂).filterMap ticketRow? = tr₂.filterMap ticketRow? := by
    rw [List.filterMap_append, h₁.rows, List.nil_append]
  have hcounts : (tr₁ ++ tr₂).filterMap countedCase? = tr₂.filterMap countedCase? := by
    rw [List.filterMap_append, h₁.counts, List.nil_append]
  cases h₂ with
  | unstored h₂ => exact .unstored (additive_neutral.append h₁ h₂)
  | stored row hrow hid hdecision hcount =>
    exact .stored row (hrows.trans hrow) hid hdecision (hcounts.trans hcount)
  | counted row ok hrow hid hdecision hcount =>
    exact .counted row ok (hrows.trans hrow) hid hdecision (hcounts.trans hcount)

private theorem files_bind {p : ServiceProgram α} {f : α → ServiceProgram β}
    (hp : Satisfies p Neutral)
    (hf : ∀ a, Files (f a) ticketId decision) : Files (p >>= f) ticketId decision := by
  intro tr out h
  rcases exec_bind_iff.mp h with ⟨exc, h₁, rfl⟩ | ⟨a, tr₁, tr₂, rfl, h₁, h₂⟩
  · exact .unstored (hp h₁)
  · exact (hf a h₂).prepend (hp h₁)

/-- Every execution of a program counts a decision once, or raises before that. -/
def Counts (p : ServiceProgram α) (decision : String) : Prop :=
  ∀ ⦃tr : List ServiceEvent⦄ ⦃out : Except Exc α⦄, Exec p tr out →
    tr.filterMap ticketRow? = [] ∧ (tr.filterMap countedCase? = [decision] ∨
      (tr.filterMap countedCase? = [] ∧ out.isOk = false))

private theorem counts_bind {p : ServiceProgram α} {f : α → ServiceProgram β}
    (hp : Satisfies p Neutral)
    (hf : ∀ a, Counts (f a) decision) : Counts (p >>= f) decision := by
  intro tr out h
  rcases exec_bind_iff.mp h with ⟨exc, h₁, rfl⟩ | ⟨a, tr₁, tr₂, rfl, h₁, h₂⟩
  · exact ⟨(hp h₁).rows, .inr ⟨(hp h₁).counts, rfl⟩⟩
  · rw [List.filterMap_append, List.filterMap_append, (hp h₁).rows, (hp h₁).counts]
    exact hf a h₂

private theorem counts_then {p : ServiceProgram α} {f : α → ServiceProgram β}
    (hp : Counts p decision)
    (hf : ∀ a, Satisfies (f a) Neutral) : Counts (p >>= f) decision := by
  intro tr out h
  rcases exec_bind_iff.mp h with ⟨exc, h₁, rfl⟩ | ⟨a, tr₁, tr₂, rfl, h₁, h₂⟩
  · exact hp h₁
  · obtain ⟨hrows, hcounts⟩ := hp h₁
    rw [List.filterMap_append, List.filterMap_append, hrows, (hf a h₂).rows, (hf a h₂).counts,
      List.append_nil]
    refine ⟨rfl, .inl ?_⟩
    rcases hcounts with hcount | ⟨-, hraised⟩
    · rw [hcount]
      rfl
    · cases hraised

private theorem neutral_logSecurityEvent (ticketId : String) (eventType : SecurityEventType)
    (detail : Option String) : Satisfies (logSecurityEvent ticketId eventType detail) Neutral := by
  refine satisfies_logSecurityEvent (fun exc e he => ?_) fun e he => ?_
  · obtain rfl := List.mem_singleton.mp he
    exact ⟨rfl, rfl⟩
  · rcases List.mem_pair.mp he with rfl | rfl <;> exact ⟨rfl, rfl⟩

private theorem neutral_persistToolCall (db : Runtime) (ticketId : String) (call : ToolRecord) :
    Satisfies (persistToolCall db ticketId call) Neutral := by
  intro tr out h
  rcases exec_persistToolCall h with rfl | ⟨exc, rfl⟩ | ⟨tr', rfl, hevent⟩
  · exact additive_neutral.nil
  · intro e he
    obtain rfl := List.mem_singleton.mp he
    exact ⟨rfl, rfl⟩
  have htail : Neutral tr' := by
    rcases hevent with ⟨-, hlog⟩ | ⟨-, hlog⟩ | rfl
    · exact neutral_logSecurityEvent _ _ _ hlog
    · exact neutral_logSecurityEvent _ _ _ hlog
    · exact additive_neutral.nil
  have hhead : Neutral [⟨.insertToolCall (toolCallRow ticketId call), .ok ()⟩,
      ⟨.record (.toolCalls call.toolName call.status), ()⟩] := by
    intro e he
    rcases List.mem_pair.mp he with rfl | rfl <;> exact ⟨rfl, rfl⟩
  exact additive_neutral.append hhead htail

private theorem Quiet.neutral {tr : List ServiceEvent} (h : Quiet tr) : Neutral tr := by
  intro e he
  obtain ⟨metric, hmetric, rfl⟩ := h e he
  cases metric <;> first | exact ⟨rfl, rfl⟩ | exact hmetric.elim

private theorem counts_recordDecision (decision : String) :
    Counts (recordDecision decision) decision := by
  intro tr out h
  obtain ⟨rfl, -⟩ := exec_record_iff.mp h
  exact ⟨rfl, .inl rfl⟩

private theorem counts_recordCase (decision : String) (latencyMs costUsd : ℚ)
    (promptTokens completionTokens : ℤ) (llmCalls : ℕ) :
    Counts (recordCase decision latencyMs promptTokens completionTokens costUsd llmCalls)
      decision := by
  intro tr out h
  obtain ⟨tr', rfl, hquiet⟩ := exec_recordCase h
  have hcounts : (⟨.record (.cases decision), ()⟩ :: tr').filterMap countedCase? = [decision] :=
    congrArg ([decision] ++ ·) hquiet.neutral.counts
  exact ⟨hquiet.neutral.rows, .inl hcounts⟩

private theorem files_persist {db : Runtime} {state : CaseState} {latencyMs costUsd : ℚ}
    {q : Unit → ServiceProgram α} (hdecision : state.decision = some decision)
    (hq : ∀ u, Counts (q u) decision) :
    Files (persist db state ticketId latencyMs costUsd >>= q) ticketId decision := by
  have hcalls : Satisfies (state.toolCalls.forM (persistToolCall db ticketId)) Neutral :=
    satisfies_forM additive_neutral fun call _ => neutral_persistToolCall db ticketId call
  intro tr out h
  rcases exec_bind_iff.mp h with ⟨exc, h₁, rfl⟩ | ⟨u, tr₁, tr₂, rfl, h₁, h₂⟩
  · rcases exec_bind_iff.mp h₁ with ⟨exc', hinsert, -⟩ | ⟨_, tr₁, tr₂, rfl, hinsert, hrest⟩
    · obtain rfl := exec_insertTicket_iff.mp hinsert
      refine .unstored fun e he => ?_
      obtain rfl := List.mem_singleton.mp he
      exact ⟨rfl, rfl⟩
    · obtain rfl := exec_insertTicket_iff.mp hinsert
      refine .stored (ticketRow state ticketId latencyMs costUsd) ?_ rfl hdecision ?_
      · exact congrArg (ticketRow state ticketId latencyMs costUsd :: ·) (hcalls hrest).rows
      · exact (hcalls hrest).counts
  · obtain ⟨_, tr₁, tr₃, rfl, hinsert, hrest⟩ := exec_bind_ok_iff.mp h₁
    obtain rfl := exec_insertTicket_iff.mp hinsert
    obtain ⟨hrows, hcounts⟩ := hq u h₂
    have hrow : List.filterMap ticketRow? ([⟨.insertTicket (ticketRow state ticketId latencyMs
        costUsd), .ok ()⟩] ++ tr₃ ++ tr₂) = [ticketRow state ticketId latencyMs costUsd] := by
      rw [List.filterMap_append, List.filterMap_append, (hcalls hrest).rows, hrows]
      rfl
    have hcount : List.filterMap countedCase? ([⟨.insertTicket (ticketRow state ticketId latencyMs
        costUsd), .ok ()⟩] ++ tr₃ ++ tr₂) = tr₂.filterMap countedCase? := by
      rw [List.filterMap_append, List.filterMap_append, (hcalls hrest).counts]
      rfl
    rcases hcounts with hcounted | ⟨huncounted, hraised⟩
    · exact .counted _ _ hrow rfl hdecision (hcount.trans hcounted)
    · rw [hraised]
      exact .stored _ hrow rfl hdecision (hcount.trans huncounted)

private theorem satisfies_perform_neutral {o : ServiceOp}
    (h : ∀ r, ticketRow? ⟨o, r⟩ = none ∧ countedCase? ⟨o, r⟩ = none) :
    Satisfies (perform o) Neutral :=
  satisfies_perform fun r e he => by
    obtain rfl := List.mem_singleton.mp he
    exact h r

theorem files_refuse (db : Runtime) (started : ℚ) (ticketId redactedTicket : String)
    (reason : Option String) :
    Files (refuse db started ticketId redactedTicket reason) ticketId Decision.refuse.value := by
  refine files_bind (satisfies_perform_neutral fun _ => ⟨rfl, rfl⟩) fun _ => ?_
  refine files_persist rfl fun _ => ?_
  refine counts_bind (neutral_logSecurityEvent _ _ _) fun _ => ?_
  refine counts_then (counts_recordDecision _) fun _ => ?_
  exact satisfies_bind additive_neutral (satisfies_perform_neutral fun _ => ⟨rfl, rfl⟩)
    fun _ => satisfies_pure additive_neutral _

theorem files_finish (env : Env) (started : ℚ) (ticketId redactedTicket : String)
    (final : CaseState) :
    Files (finish env started ticketId redactedTicket final) ticketId
      (outboundGate env.db final).decision := by
  have hdecision := (outboundGate_agrees env.db final).2
  unfold finish
  generalize outboundGate env.db final = gated at hdecision ⊢
  obtain ⟨final', reply, decision, withheld⟩ := gated
  refine files_bind (satisfies_perform_neutral fun _ => ⟨rfl, rfl⟩) fun _ => ?_
  refine files_bind ?_ fun _ => ?_
  · cases withheld with
    | none => exact satisfies_pure additive_neutral _
    | some pattern => exact neutral_logSecurityEvent _ _ _
  refine files_bind (satisfies_perform_neutral fun _ => ⟨rfl, rfl⟩) fun _ => ?_
  refine files_bind (satisfies_perform_neutral fun _ => ⟨rfl, rfl⟩) fun _ => ?_
  refine files_bind (satisfies_ofExcept additive_neutral _) fun _ => ?_
  refine files_bind (satisfies_perform_neutral fun _ => ⟨rfl, rfl⟩) fun _ => ?_
  refine files_bind (satisfies_ofExcept additive_neutral _) fun _ => ?_
  refine files_persist hdecision fun _ => ?_
  exact counts_then (counts_recordCase _ _ _ _ _ _) fun _ => satisfies_pure additive_neutral _

def drawnId? : ServiceEvent → Option String
  | ⟨.uuidHex, hex⟩ => some (ticketIdOf hex)
  | _ => none

def drawnIds (tr : List CallEvent) : List String := (serviceEvents tr).filterMap drawnId?

/-- However a call ends, it has filed at most one case, under the id it drew. -/
theorem filed_resolveCase {env : Env} {graph : CaseState → GraphProgram CaseState}
    {request : ResolveRequest env.db} {tr : List CallEvent} {out : Except Exc ResolveResponse}
    (h : Exec (resolveCase env graph request) tr out) :
    ∃ ticketId ∈ drawnIds tr, ∃ decision,
      Filed ticketId decision (serviceEvents tr) out.isOk := by
  obtain ⟨started, hex, tr', hservice, hcase⟩ := exec_resolveCase h
  have hneutral : Neutral [⟨.perfCounter, started⟩, ⟨.uuidHex, hex⟩] := by
    intro e he
    rcases List.mem_pair.mp he with rfl | rfl <;> exact ⟨rfl, rfl⟩
  have hid : ticketIdOf hex ∈ drawnIds tr := by
    rw [drawnIds, hservice]
    exact List.mem_cons_self
  refine ⟨ticketIdOf hex, hid, ?_⟩
  rw [hservice]
  rcases hcase with ⟨reason, -, -, hrefuse⟩ | ⟨-, gout, -, hfinish⟩
  · exact ⟨_, (files_refuse _ _ _ _ _ hrefuse).prepend hneutral⟩
  · exact ⟨_, (files_finish _ _ _ _ _ hfinish).prepend hneutral⟩

def increments (metric : Metric) (tr : List CallEvent) : ℕ :=
  ((serviceEvents tr).filterMap recorded?).count metric

def committed {α : Type} (row? : Write → Option α) (p : α → Bool) (tr : List CallEvent) : ℕ :=
  ((writes tr).filterMap row?).countP p

private theorem increments_append (metric : Metric) (tr₁ tr₂ : List CallEvent) :
    increments metric (tr₁ ++ tr₂) = increments metric tr₁ + increments metric tr₂ := by
  simp [increments, serviceEvents]

private theorem committed_append {α : Type} (row? : Write → Option α) (p : α → Bool)
    (tr₁ tr₂ : List CallEvent) :
    committed row? p (tr₁ ++ tr₂) = committed row? p tr₁ + committed row? p tr₂ := by
  simp [committed, writes, serviceEvents]

def isToolCallRow (tool status : String) (row : ToolCallRow) : Bool :=
  row.toolName == tool && row.status == status

private theorem countP_filterMap_congr {α β γ : Type} {f : α → Option β} {g : α → Option γ}
    {p : β → Bool} {q : γ → Bool} (l : List α)
    (h : ∀ a, ((f a).map p).getD false = ((g a).map q).getD false) :
    (l.filterMap f).countP p = (l.filterMap g).countP q := by
  rw [List.countP_filterMap, List.countP_filterMap]
  exact List.countP_congr fun a _ => by rw [h a]

private theorem increments_eq {metric : Metric}
    (h : ∀ m, auditMetric? ⟨.record m, ()⟩ = none → (m == metric) = false)
    (tr : List CallEvent) :
    increments metric tr = ((serviceEvents tr).filterMap auditMetric?).count metric := by
  refine countP_filterMap_congr _ ?_
  rintro ⟨o, r⟩
  cases o with
  | record m =>
    have hm := h m
    cases m <;> first | rfl | exact hm rfl
  | _ => rfl

private theorem toolCalls_agree {tr : List CallEvent} (h : Tallied (serviceEvents tr))
    (tool status : String) :
    increments (.toolCalls tool status) tr =
      committed Write.toolCall? (isToolCallRow tool status) tr := by
  rw [increments_eq (fun m hm => by cases m <;> first | rfl | cases hm), ← h, committed, writes,
    List.filterMap_filterMap]
  refine countP_filterMap_congr _ ?_
  rintro ⟨o, r⟩
  cases o with
  | insertTicket row => cases r <;> rfl
  | insertToolCall row => 
    cases r with
    | ok _ => simp [rowMetric?, written?, Write.toolCall?, isToolCallRow, Bool.beq_eq_decide_eq]
    | error _ => rfl
  | insertSecurityEvent row => cases r <;> rfl
  | _ => rfl

private theorem securityEvents_agree {tr : List CallEvent} (h : Tallied (serviceEvents tr))
    (eventType : String) :
    increments (.securityEvents eventType) tr =
      committed Write.securityEvent? (fun row => row.eventType == eventType) tr := by
  rw [increments_eq (fun m hm => by cases m <;> first | rfl | cases hm), ← h, committed, writes,
    List.filterMap_filterMap]
  refine countP_filterMap_congr _ ?_
  rintro ⟨o, r⟩
  cases o with
  | insertTicket row => cases r <;> rfl
  | insertToolCall row => cases r <;> rfl
  | insertSecurityEvent row =>
    cases r with
    | ok _ =>
      simp [rowMetric?, written?, Write.securityEvent?, Bool.beq_eq_decide_eq]
    | error _ => rfl
  | _ => rfl

theorem ticketRows_eq (tr : List CallEvent) :
    (writes tr).filterMap Write.ticket? = (serviceEvents tr).filterMap ticketRow? :=
  List.filterMap_filterMap

private theorem increments_cases (decision : String) (tr : List CallEvent) :
    increments (.cases decision) tr =
      ((serviceEvents tr).filterMap countedCase?).count decision := by
  refine countP_filterMap_congr _ ?_
  rintro ⟨o, r⟩
  cases o with
  | record m =>
    cases m with
    | cases d => simp [recorded?, countedCase?, Bool.beq_eq_decide_eq]
    | _ => rfl
  | _ => rfl

private theorem Filed.cases_agree {tr : List CallEvent} {ticketId decision : String} {ok : Bool}
    (h : Filed ticketId decision (serviceEvents tr) ok) (d : String) :
    increments (.cases d) tr ≤
        committed Write.ticket? (fun row => row.decision == some d) tr ∧
      (ok = true → increments (.cases d) tr =
        committed Write.ticket? (fun row => row.decision == some d) tr) := by
  rw [increments_cases, committed, ticketRows_eq]
  cases h with
  | unstored hneutral =>
    rw [hneutral.rows, hneutral.counts]
    simp
  | stored row hrow hid hdecision hcount =>
    rw [hcount]
    simp
  | counted row ok hrow hid hdecision hcount =>
    have hsame : [decision].count d = [row].countP fun row => row.decision == some d := by
      simp [hdecision, List.count_singleton]
    rw [hrow, hcount, hsame]
    exact ⟨le_refl _, fun _ => rfl⟩

section Concurrent

variable {ι : Type} [DecidableEq ι] {env : Env}
  {graph : ι → CaseState → GraphProgram CaseState} {request : ι → ResolveRequest env.db}
  {tr : List (ι × CallEvent)} {out : ι → Except Exc ResolveResponse}

/-- The ids that concurrent calls draw are new to the database and all different. -/
structure FreshIds (db : Database) (tr : List (ι × CallEvent)) : Prop where
  fresh : ∀ i, ∀ ticketId ∈ drawnIds (ownTrace i tr), db.Fresh ticketId
  distinct : ∀ i j, i ≠ j → ∀ ticketId ∈ drawnIds (ownTrace i tr),
    ticketId ∉ drawnIds (ownTrace j tr)

private theorem Filed.ids {ticketId decision : String} {tr : List CallEvent} {ok : Bool}
    (h : Filed ticketId decision (serviceEvents tr) ok) (id : String) :
    committed Write.ticket? (fun row => row.id == id) tr ≤ if id = ticketId then 1 else 0 := by
  rw [committed, ticketRows_eq]
  cases h with
  | unstored hneutral => simp [hneutral.rows]
  | stored row hrow hid _ _ =>
    rw [hrow]
    by_cases h : id = ticketId
    · simp [h, hid]
    · simp [h, hid, Ne.symm h]
  | counted row ok hrow hid _ _ =>
    rw [hrow]
    by_cases h : id = ticketId
    · simp [h, hid]
    · simp [h, hid, Ne.symm h]

variable [Fintype ι]

private theorem ownId {db : Database} (hfresh : FreshIds db tr)
    (hcalls : ∀ i, Exec (resolveCase env (graph i) (request i)) (ownTrace i tr) (out i))
    (id : String) :
    committed Write.ticket? (fun row => row.id == id) (tr.map Prod.snd) ≤ 1 ∧
      (committed Write.ticket? (fun row => row.id == id) (tr.map Prod.snd) ≠ 0 →
        db.Fresh id) := by
  rw [← sum_ownTrace (committed Write.ticket? fun row => row.id == id) rfl
    (committed_append _ _) tr]
  have hown : ∀ i, committed Write.ticket? (fun row => row.id == id) (ownTrace i tr) ≠ 0 →
      id ∈ drawnIds (ownTrace i tr) ∧
        committed Write.ticket? (fun row => row.id == id) (ownTrace i tr) ≤ 1 := by
    intro i hi
    obtain ⟨ticketId, hdrawn, decision, hfiled⟩ := filed_resolveCase (hcalls i)
    have hle := hfiled.ids id
    by_cases h : id = ticketId
    · rw [if_pos h] at hle
      exact ⟨h ▸ hdrawn, hle⟩
    · rw [if_neg h] at hle
      omega
  by_cases hall : ∀ i, committed Write.ticket? (fun row => row.id == id) (ownTrace i tr) = 0
  · simp [hall]
  · push Not at hall
    obtain ⟨i, hi⟩ := hall
    obtain ⟨hdrawn, hle⟩ := hown i hi
    rw [Finset.sum_eq_single i]
    · exact ⟨hle, fun _ => hfresh.fresh i id hdrawn⟩
    · intro j _ hj
      by_contra hne
      exact hfresh.distinct i j (Ne.symm hj) id hdrawn (hown j hne).1
    · intro hnot
      exact absurd (Finset.mem_univ i) hnot

/-- Once all of a set of concurrent calls have ended, however they ended, the database has
grown by rows that the counters tell of. -/
theorem counters_agree {pool' : ι → CallProgram ResolveResponse} {db : Database}
    (hrun : Interleaves (fun i => resolveCase env (graph i) (request i)) tr pool')
    (hended : ∀ i, (pool' i).outcome = some (out i)) (hfresh : FreshIds db tr) :
    ∃ tickets toolCalls events,
      db.replay (writes (tr.map Prod.snd)) = { db with
        tickets := db.tickets ++ tickets
        toolCalls := db.toolCalls ++ toolCalls
        securityEvents := db.securityEvents ++ events } ∧
      (∀ eventType, increments (.securityEvents eventType) (tr.map Prod.snd) =
        events.countP fun row => row.eventType == eventType) ∧
      (∀ tool status, increments (.toolCalls tool status) (tr.map Prod.snd) =
        toolCalls.countP fun row => row.toolName == tool && row.status == status) ∧
      (∀ decision, increments (.cases decision) (tr.map Prod.snd) ≤
        tickets.countP fun row => row.decision == some decision) ∧
      ((∀ i, (out i).isOk = true) → ∀ decision,
        increments (.cases decision) (tr.map Prod.snd) =
          tickets.countP fun row => row.decision == some decision) := by
  have hcalls : ∀ i, Exec (resolveCase env (graph i) (request i)) (ownTrace i tr) (out i) :=
    fun i => (hrun.steps i).exec (hended i)
  refine ⟨(writes (tr.map Prod.snd)).filterMap Write.ticket?,
    (writes (tr.map Prod.snd)).filterMap Write.toolCall?,
    (writes (tr.map Prod.snd)).filterMap Write.securityEvent?, ?_, ?_, ?_, ?_, ?_⟩
  · obtain ⟨hproducts, horders, hitems⟩ := db.replay_shop (writes (tr.map Prod.snd))
    refine Database.ext ?_ (db.replay_toolCalls _) (db.replay_securityEvents _) hproducts horders
      hitems
    rw [Database.replay_tickets, Database.foldl_insertTicket_fresh]
    · rw [List.nodup_iff_count_le_one]
      intro id
      rw [List.count, List.countP_map]
      exact (ownId hfresh hcalls id).1
    · intro row hrow r hr
      have hstored :
          committed Write.ticket? (fun row' => row'.id == row.id) (tr.map Prod.snd) ≠ 0 :=
        (List.countP_pos_iff.mpr ⟨row, hrow, beq_self_eq_true row.id⟩).ne'
      exact ((ownId hfresh hcalls row.id).2 hstored).1 r hr
  · intro eventType
    exact total_eq (increments_append _) (committed_append _ _) rfl rfl fun i =>
      securityEvents_agree (tallied_resolveCase (hcalls i)) eventType
  · intro tool status
    exact total_eq (increments_append _) (committed_append _ _) rfl rfl fun i =>
      toolCalls_agree (tallied_resolveCase (hcalls i)) tool status
  · intro decision
    refine total_le (increments_append _) (committed_append _ _) rfl rfl fun i => ?_
    obtain ⟨ticketId, -, d, hfiled⟩ := filed_resolveCase (hcalls i)
    exact (hfiled.cases_agree decision).1
  · intro hok decision
    refine total_eq (increments_append _) (committed_append _ _) rfl rfl fun i => ?_
    obtain ⟨ticketId, -, d, hfiled⟩ := filed_resolveCase (hcalls i)
    exact (hfiled.cases_agree decision).2 (hok i)

end Concurrent

def twoRequests (second : Bool) : ResolveRequest testEnv.db :=
  if second then whereIsMyOrder else ignoreInstructions

def twoHandlers (second : Bool) : Handler callSig Unit :=
  ({} : FakeLLM).handler (if second then "feedfacecafebeef" else "0123456789abcdef")

def twoPrograms (second : Bool) : CallProgram ResolveResponse :=
  resolveCase testEnv (caseGraph testEnv) (twoRequests second)

def twoRuns (second : Bool) : Run callSig Exc ResolveResponse Unit :=
  (twoPrograms second).run (twoHandlers second) ()

def twoCalls : List (Bool × CallEvent) :=
  (twoRuns false).trace.map (Prod.mk false) ++ (twoRuns true).trace.map (Prod.mk true)

private theorem freshIds_twoCalls : FreshIds testDatabase twoCalls where
  fresh := by simp [testDatabase, Database.Fresh]
  distinct := by decide +kernel

private theorem interleaves_twoCalls : ∃ pool', Interleaves twoPrograms twoCalls pool' ∧
    ∀ second, (pool' second).outcome = some (twoRuns second).out := by
  have hsteps : ∀ second, ∃ q, Steps (twoPrograms second) (twoRuns second).trace q ∧
      q.outcome = some (twoRuns second).out :=
    fun second => (exec_run (twoHandlers second) (twoPrograms second) ()).steps
  obtain ⟨q, hfirst, hout⟩ := hsteps false
  obtain ⟨q', hsecond, hout'⟩ := hsteps true
  have hwaiting : Function.update twoPrograms false q true = twoPrograms true := rfl
  refine ⟨_, (hfirst.interleaves rfl).append (hsecond.interleaves hwaiting), fun second => ?_⟩
  cases second with
  | false => exact hout
  | true => exact hout'

theorem counters_agree_twoCalls :
    ∃ tickets toolCalls events,
      testDatabase.replay (writes (twoCalls.map Prod.snd)) = { testDatabase with
        tickets := testDatabase.tickets ++ tickets
        toolCalls := testDatabase.toolCalls ++ toolCalls
        securityEvents := testDatabase.securityEvents ++ events } ∧
      (∀ eventType, increments (.securityEvents eventType) (twoCalls.map Prod.snd) =
        events.countP fun row => row.eventType == eventType) ∧
      (∀ tool status, increments (.toolCalls tool status) (twoCalls.map Prod.snd) =
        toolCalls.countP fun row => row.toolName == tool && row.status == status) ∧
      (∀ decision, increments (.cases decision) (twoCalls.map Prod.snd) ≤
        tickets.countP fun row => row.decision == some decision) ∧
      ((∀ second, (twoRuns second).out.isOk = true) → ∀ decision,
        increments (.cases decision) (twoCalls.map Prod.snd) =
          tickets.countP fun row => row.decision == some decision) := by
  obtain ⟨pool', hrun, hended⟩ := interleaves_twoCalls
  exact counters_agree hrun hended freshIds_twoCalls

end TicketWarden.Service
