/- Module: TicketWarden/Service/Visibility
   source: apps/api/src/service.py, apps/api/src/storage/repo.py,
   apps/api/src/storage/db.py (_SCHEMA)
   digest: Which runs of concurrent calls let another connection see a guardrail decision
   without the security event it calls for. -/

import TicketWarden.Service.Counters
import TicketWarden.Service.Ending
import TicketWarden.Service.FakeLLM

set_option autoImplicit false
set_option relaxedAutoImplicit false

namespace TicketWarden.Service

open TicketWarden.Graph Effects Guardrails Observability Python Storage

/-- The decisions for which the audit promises a security event. -/
inductive Guard
  | refusal | blocked | sanitized
  deriving DecidableEq

def Guard.row : Guard → Write → Bool
  | .refusal, .ticket row => row.decision == some Decision.refuse.value
  | .blocked, .toolCall row => row.status == ToolStatus.blocked.value
  | .sanitized, .toolCall row => row.status == ToolStatus.sanitized.value
  | _, _ => false

def Guard.eventType : Guard → SecurityEventType
  | .refusal => .injectionRefused
  | .blocked => .toolBlocked
  | .sanitized => .toolOutputSanitized

def Guard.event (guard : Guard) : Write → Bool
  | .securityEvent row => row.eventType == guard.eventType.value
  | _ => false

def rowTicketId : Write → String
  | .ticket row => row.id
  | .toolCall row => row.ticketId
  | .securityEvent row => row.ticketId

def Guard.showsRow (guard : Guard) (e : ServiceEvent) : Bool := (written? e).any guard.row

def Guard.showsEvent (guard : Guard) (e : ServiceEvent) : Bool := (written? e).any guard.event

abbrev RowFirst (guard : Guard) : List ServiceEvent → Prop :=
  NeverAhead guard.showsEvent guard.showsRow

/-- Events that show none of the security events of a guard. -/
def Silent (guard : Guard) (tr : List ServiceEvent) : Prop :=
  ∀ e ∈ tr, guard.showsEvent e = false

private theorem Silent.rowFirst {guard : Guard} {tr : List ServiceEvent} (h : Silent guard tr) :
    RowFirst guard tr :=
  neverAhead_of_none h

theorem Silent.countP {guard : Guard} {tr : List ServiceEvent} (h : Silent guard tr) :
    tr.countP guard.showsEvent = 0 :=
  List.countP_eq_zero.mpr fun e he => by simp [h e he]

private theorem silent_singleton {guard : Guard} {e : ServiceEvent}
    (h : guard.showsEvent e = false) :
    Silent guard [e] := by
  intro e' he'
  rwa [List.mem_singleton.mp he']

private theorem Quiet.silent {tr : List ServiceEvent} (h : Quiet tr) (guard : Guard) :
    Silent guard tr := by
  intro e he
  obtain ⟨metric, -, rfl⟩ := h e he
  rfl

private theorem eventType_value_injective : Function.Injective SecurityEventType.value := by
  intro a b h
  cases a <;> cases b <;> first | rfl | exact absurd h (by decide)

private theorem countP_logSecurityEvent (guard : Guard) {ticketId : String}
    {eventType : SecurityEventType} {detail : Option String} :
    Satisfies (logSecurityEvent ticketId eventType detail) fun tr =>
      tr.countP guard.showsEvent ≤ 1 := by
  refine satisfies_logSecurityEvent (fun exc => ?_) ?_
  · exact List.countP_le_length
  · have hrecord : guard.showsEvent ⟨.record (.securityEvents eventType.value), ()⟩ = false := rfl
    rw [List.countP_cons, List.countP_cons_of_neg (by simp [hrecord]), List.countP_nil]
    split <;> simp

private theorem silent_logSecurityEvent {guard : Guard} {ticketId : String}
    {eventType : SecurityEventType} {detail : Option String} (h : eventType ≠ guard.eventType) :
    Satisfies (logSecurityEvent ticketId eventType detail) (Silent guard) := by
  have hother : guard.showsEvent
      ⟨.insertSecurityEvent ⟨ticketId, eventType.value, detail⟩, .ok ()⟩ = false :=
    beq_false_of_ne (eventType_value_injective.ne h)
  refine satisfies_logSecurityEvent (fun exc => silent_singleton rfl) fun e he => ?_
  rcases List.mem_pair.mp he with rfl | rfl
  · exact hother
  · rfl

private theorem rowFirst_persistToolCall (guard : Guard) (db : Runtime) (ticketId : String)
    (call : ToolRecord) : Satisfies (persistToolCall db ticketId call) (RowFirst guard) := by
  intro tr out h
  rcases exec_persistToolCall h with rfl | ⟨exc, rfl⟩ | ⟨tr', rfl, hevent⟩
  · exact (additive_neverAhead _ _).nil
  · exact (silent_singleton rfl).rowFirst
  -- the event of the status either is not the guard's or makes use of the row before it
  have hlog : ∀ eventType : SecurityEventType,
      (eventType = guard.eventType → guard.row (.toolCall (toolCallRow ticketId call)) = true) →
      Exec (logSecurityEvent ticketId eventType (some ("tool=" ++ call.toolName))) tr' out →
      RowFirst guard (⟨.insertToolCall (toolCallRow ticketId call), .ok ()⟩ ::
        ⟨.record (.toolCalls call.toolName call.status), ()⟩ :: tr') := by
    intro eventType hrow hexec
    by_cases htype : eventType = guard.eventType
    · refine neverAhead_of_lead rfl (hrow htype) ?_
      rw [List.countP_cons_of_neg (by simp [Guard.showsEvent, written?])]
      exact countP_logSecurityEvent guard hexec
    · have hsilent := silent_logSecurityEvent htype hexec
      refine Silent.rowFirst fun e he => ?_
      rcases List.mem_cons.mp he with rfl | he
      · rfl
      rcases List.mem_cons.mp he with rfl | he
      · rfl
      · exact hsilent e he
  rcases hevent with ⟨hstatus, hexec⟩ | ⟨hstatus, hexec⟩ | rfl
  · refine hlog _ (fun htype => ?_) hexec
    cases guard with
    | blocked => exact beq_iff_eq.mpr hstatus
    | refusal => cases htype
    | sanitized => cases htype
  · refine hlog _ (fun htype => ?_) hexec
    cases guard with
    | sanitized => exact beq_iff_eq.mpr hstatus
    | refusal => cases htype
    | blocked => cases htype
  · refine Silent.rowFirst fun e he => ?_
    rcases List.mem_pair.mp he with rfl | rfl <;> rfl

private theorem conserved_rowFirst (guard : Guard) (ticketId : String) :
    Conserved (RowFirst guard) ticketId where
  additive := additive_neverAhead _ _
  perfCounter _ := (silent_singleton rfl).rowFirst
  usage _ := (silent_singleton rfl).rowFirst
  traceUrl _ := (silent_singleton rfl).rowFirst
  decision _ := (silent_singleton rfl).rowFirst
  quiet _ h := (h.silent guard).rowFirst
  ticket _ out _ := (silent_singleton (by cases out <;> rfl)).rowFirst
  withheld _ _ _ h :=
    (silent_logSecurityEvent (by cases guard <;> decide) h).rowFirst
  toolCall db := rowFirst_persistToolCall guard db ticketId

private theorem rowFirst_refuse (guard : Guard) (db : Runtime) (started : ℚ)
    (ticketId redactedTicket : String) (reason : Option String) :
    Satisfies (refuse db started ticketId redactedTicket reason) (RowFirst guard) := by
  by_cases hguard : guard = .refusal
  · subst hguard
    refine satisfies_bind (additive_neverAhead _ _)
      (satisfies_perform fun _ => (silent_singleton rfl).rowFirst) fun now => ?_
    intro tr out h
    rcases exec_bind_iff.mp h with ⟨exc, hpersist, -⟩ | ⟨_, tr₁, tr₂, rfl, hpersist, hrest⟩
    · exact (conserved_rowFirst .refusal ticketId).persist _ _ _ _ hpersist
    obtain ⟨_, tr₁, tr₃, rfl, hinsert, hcalls⟩ := exec_bind_ok_iff.mp hpersist
    obtain rfl := exec_insertTicket_iff.mp hinsert
    obtain ⟨rfl, -⟩ := exec_pure_iff.mp hcalls
    refine neverAhead_of_lead rfl rfl ?_
    rcases exec_bind_iff.mp hrest with ⟨exc, hlog, -⟩ | ⟨_, tr₁, tr₄, rfl, hlog, hmetrics⟩
    · exact countP_logSecurityEvent _ hlog
    have hsilent : Silent .refusal tr₄ := by
      obtain ⟨_, tr₅, rfl, hlatency⟩ := exec_perform_bind_iff.mp hmetrics
      obtain ⟨_, tr₆, rfl, hdone⟩ := exec_perform_bind_iff.mp hlatency
      obtain ⟨rfl, -⟩ := exec_pure_iff.mp hdone
      intro e he
      rcases List.mem_pair.mp he with rfl | rfl <;> rfl
    change (tr₁ ++ tr₄).countP _ ≤ 1
    rw [List.countP_append, hsilent.countP]
    exact countP_logSecurityEvent _ hlog
  · refine (conserved_rowFirst guard ticketId).refuse (fun _ _ _ h => ?_) _ _ _ _
    refine (silent_logSecurityEvent (fun htype => ?_) h).rowFirst
    cases guard <;> first | exact hguard rfl | cases htype

section Call

variable {env : Env} {graph : CaseState → GraphProgram CaseState}
  {request : ResolveRequest env.db} {tr : List CallEvent} {out : Except Exc ResolveResponse}

theorem rowFirst_resolveCase (guard : Guard) (h : Exec (resolveCase env graph request) tr out) :
    RowFirst guard (serviceEvents tr) := by
  obtain ⟨started, hex, tr', hservice, hcase⟩ := exec_resolveCase h
  have hhead : Silent guard [⟨.perfCounter, started⟩, ⟨.uuidHex, hex⟩] := by
    intro e he
    rcases List.mem_pair.mp he with rfl | rfl <;> rfl
  have hrest : RowFirst guard tr' := by
    rcases hcase with ⟨reason, -, -, hrefuse⟩ | ⟨-, gout, -, hfinish⟩
    · exact rowFirst_refuse guard _ _ _ _ _ hrefuse
    · exact (conserved_rowFirst guard _).finish _ _ _ _ hfinish
  rw [hservice]
  exact (additive_neverAhead _ _).append hhead.rowFirst hrest

def Owned (ticketId : String) (tr : List ServiceEvent) : Prop :=
  ∀ e ∈ tr, ∀ w ∈ written? e, rowTicketId w = ticketId

private theorem additive_owned (ticketId : String) : Additive (Owned ticketId) := additive_forall _

private theorem owned_singleton {ticketId : String} {e : ServiceEvent}
    (h : ∀ w ∈ written? e, rowTicketId w = ticketId) : Owned ticketId [e] := by
  intro e' he'
  rwa [List.mem_singleton.mp he']

private theorem owned_logSecurityEvent (ticketId : String) (eventType : SecurityEventType)
    (detail : Option String) :
    Satisfies (logSecurityEvent ticketId eventType detail) (Owned ticketId) :=
  satisfies_logSecurityEvent (fun _ => owned_singleton (by simp [written?])) (by
    simp [Owned, written?, rowTicketId])

private theorem conserved_owned (ticketId : String) : Conserved (Owned ticketId) ticketId where
  additive := additive_owned ticketId
  perfCounter _ := owned_singleton (by simp [written?])
  usage _ := owned_singleton (by simp [written?])
  traceUrl _ := owned_singleton (by simp [written?])
  decision _ := owned_singleton (by simp [written?])
  quiet tr h e he := by
    obtain ⟨metric, -, rfl⟩ := h e he
    simp [written?]
  ticket row out hid := owned_singleton (by cases out <;> simp [written?, rowTicketId, hid])
  withheld _ := owned_logSecurityEvent _ _ _
  toolCall db call tr out h := by
    rcases exec_persistToolCall h with rfl | ⟨exc, rfl⟩ | ⟨tr', rfl, hevent⟩
    · exact (additive_owned ticketId).nil
    · exact owned_singleton (by simp [written?])
    have htail : Owned ticketId tr' := by
      rcases hevent with ⟨-, hlog⟩ | ⟨-, hlog⟩ | rfl
      · exact owned_logSecurityEvent _ _ _ hlog
      · exact owned_logSecurityEvent _ _ _ hlog
      · exact (additive_owned ticketId).nil
    have hhead : Owned ticketId [⟨.insertToolCall (toolCallRow ticketId call), .ok ()⟩,
        ⟨.record (.toolCalls call.toolName call.status), ()⟩] := by
      simp [Owned, written?, rowTicketId, toolCallRow]
    exact (additive_owned ticketId).append hhead htail

private theorem owned_resolveCase (h : Exec (resolveCase env graph request) tr out) :
    ∃ started hex tr', serviceEvents tr = ⟨.perfCounter, started⟩ :: ⟨.uuidHex, hex⟩ :: tr' ∧
      Owned (ticketIdOf hex) tr' := by
  obtain ⟨started, hex, tr', hservice, hcase⟩ := exec_resolveCase h
  refine ⟨started, hex, tr', hservice, ?_⟩
  rcases hcase with ⟨reason, -, -, hrefuse⟩ | ⟨-, gout, -, hfinish⟩
  · exact (conserved_owned _).refuse (fun _ => owned_logSecurityEvent _ _ _) _ _ _ _ hrefuse
  · exact (conserved_owned _).finish _ _ _ _ hfinish

theorem ownedBy_of_prefix {p : List ServiceEvent}
    (h : Exec (resolveCase env graph request) tr out) (hp : p <+: serviceEvents tr) :
    ∃ ticketId, ∀ w ∈ p.filterMap written?,
      rowTicketId w = ticketId ∧ ticketId ∈ p.filterMap drawnId? := by
  obtain ⟨started, hex, tr', hservice, howned⟩ := owned_resolveCase h
  rw [hservice] at hp
  refine ⟨ticketIdOf hex, fun w hw => ?_⟩
  rcases List.prefix_cons_iff.mp hp with rfl | ⟨p₁, rfl, hp₁⟩
  · simp at hw
  rcases List.prefix_cons_iff.mp hp₁ with rfl | ⟨p₂, rfl, hp₂⟩
  · simp [written?] at hw
  have hw' : w ∈ p₂.filterMap written? := hw
  obtain ⟨e, he, hwe⟩ := List.mem_filterMap.mp hw'
  exact ⟨howned e (hp₂.subset he) w hwe, List.mem_cons_self⟩

private theorem refuse_iff_isInjection {tr : List CallEvent} {row : TicketRow}
    (h : Exec (resolveCase env (caseGraph env) request) tr out)
    (hrow : row ∈ (serviceEvents tr).filterMap ticketRow?) :
    row.decision = some Decision.refuse.value ↔
      isInjection env.db (redactPii env.db request.ticket) = true := by
  obtain ⟨started, hex, tr', hservice, hcase⟩ := exec_resolveCase h
  have hrow' : row ∈ tr'.filterMap ticketRow? := by
    rw [hservice] at hrow
    exact hrow
  rcases hcase with ⟨reason, hscan, -, hrefuse⟩ | ⟨hscan, gout, hgraph, hfinish⟩
  · refine iff_of_true ?_ (by rw [isInjection, hscan])
    exact (files_refuse _ _ _ _ _ hrefuse).decision row hrow'
  · rw [hscan]
    refine iff_of_false (fun hrefused => ?_) (by simp)
    have hgated := (files_finish _ _ _ _ _ hfinish).decision row hrow'
    rw [hrefused, Option.some_inj] at hgated
    have hescalate : Decision.escalate.value ≠ Decision.refuse.value := by decide
    have hresolved : Decision.resolved.value ≠ Decision.refuse.value := by decide
    have hne : (outboundGate env.db (settled (initialState (ticketIdOf hex)
        (redactPii env.db request.ticket) request.orderId) gout)).decision ≠
        Decision.refuse.value := by
      cases ending_of_exec rfl rfl hgraph with
      | raised exc _ _ =>
        rw [outboundGate_of_escalated rfl]
        exact hescalate
      | @returned final text rejected last hreviewed _ _ _ _ _ _ =>
        change (outboundGate env.db final).decision ≠ _
        cases happroved : last.approved with
        | true =>
          rcases @outboundGate_of_resolved env.db final (hreviewed.resolved happroved).1 with
            ⟨pattern, hgate⟩ | ⟨-, hgate⟩
          · rw [hgate]
            exact hescalate
          · rw [hgate]
            exact hresolved
        | false =>
          rw [outboundGate_of_escalated (hreviewed.escalated happroved).1]
          exact hescalate
    exact hne hgated.symm

end Call

def toolRows (db : Database) (ticketId status : String) : ℕ :=
  db.toolCalls.countP fun row => row.status == status && row.ticketId == ticketId

def eventRows (db : Database) (ticketId eventType : String) : ℕ :=
  db.securityEvents.countP fun row => row.eventType == eventType && row.ticketId == ticketId

/-- No guardrail decision can be read without its security event. -/
structure Guarded (db : Database) : Prop where
  refusals : ∀ row ∈ db.tickets, row.decision = some Decision.refuse.value →
    1 ≤ eventRows db row.id SecurityEventType.injectionRefused.value
  blocked : ∀ ticketId, toolRows db ticketId ToolStatus.blocked.value ≤
    eventRows db ticketId SecurityEventType.toolBlocked.value
  sanitized : ∀ ticketId, toolRows db ticketId ToolStatus.sanitized.value ≤
    eventRows db ticketId SecurityEventType.toolOutputSanitized.value

def ofTicket (f : Write → Bool) (ticketId : String) (w : Write) : Bool :=
  f w && rowTicketId w == ticketId

theorem eventRows_replay (guard : Guard) (db : Database) (ws : List Write) (ticketId : String) :
    eventRows (db.replay ws) ticketId guard.eventType.value =
      eventRows db ticketId guard.eventType.value + ws.countP (ofTicket guard.event ticketId) := by
  rw [eventRows, Database.replay_securityEvents, List.countP_append, List.countP_filterMap]
  refine congrArg _ (List.countP_congr fun w _ => ?_)
  cases w <;> simp [Write.securityEvent?, ofTicket, Guard.event, rowTicketId]

theorem toolRows_replay {guard : Guard} {status : String}
    (hrow : ∀ w, guard.row w = (w.toolCall?.any fun row => row.status == status))
    (db : Database) (ws : List Write) (ticketId : String) :
    toolRows (db.replay ws) ticketId status =
      toolRows db ticketId status + ws.countP (ofTicket guard.row ticketId) := by
  rw [toolRows, Database.replay_toolCalls, List.countP_append, List.countP_filterMap]
  refine congrArg _ (List.countP_congr fun w _ => ?_)
  cases w <;> simp [Write.toolCall?, ofTicket, hrow, rowTicketId]

theorem row_blocked (w : Write) : Guard.blocked.row w =
    w.toolCall?.any fun row => row.status == ToolStatus.blocked.value := by
  cases w <;> rfl

theorem row_sanitized (w : Write) : Guard.sanitized.row w =
    w.toolCall?.any fun row => row.status == ToolStatus.sanitized.value := by
  cases w <;> rfl

/-- Inserts that show no guardrail decision keep every decision with its event. -/
theorem Guarded.replay {db : Database} {ws : List Write} (h : Guarded db)
    (hws : ∀ w ∈ ws, ∀ guard : Guard, guard.row w = false) : Guarded (db.replay ws) := by
  have hnone : ∀ (guard : Guard) (ticketId : String),
      ws.countP (ofTicket guard.row ticketId) = 0 := fun guard ticketId =>
    List.countP_eq_zero.mpr fun w hw => by simp [ofTicket, hws w hw guard]
  refine ⟨fun row hrow hdecision => ?_, fun ticketId => ?_, fun ticketId => ?_⟩
  · have hold : row ∈ db.tickets := by
      rw [Database.replay_tickets] at hrow
      refine (Database.mem_foldl_insertTicket hrow).resolve_left fun hnew => ?_
      obtain ⟨w, hw, hticket⟩ := List.mem_filterMap.mp hnew
      cases w with
      | ticket row' =>
        obtain rfl := Option.some.inj hticket
        have hshown := hws _ hw .refusal
        rw [Guard.row, hdecision, beq_self_eq_true] at hshown
        cases hshown
      | _ => cases hticket
    have hgrown := eventRows_replay .refusal db ws row.id
    have hbefore := h.refusals row hold hdecision
    exact hbefore.trans (hgrown ▸ Nat.le_add_right _ _)
  · rw [toolRows_replay row_blocked, hnone, add_zero]
    exact (h.blocked ticketId).trans (eventRows_replay .blocked db ws ticketId ▸
      Nat.le_add_right _ _)
  · rw [toolRows_replay row_sanitized, hnone, add_zero]
    exact (h.sanitized ticketId).trans (eventRows_replay .sanitized db ws ticketId ▸
      Nat.le_add_right _ _)

def callWrite? (e : CallEvent) : Option Write := e.right?.bind written?

abbrev insertedTicket (row : TicketRow) : CallEvent := ⟨.inr (.insertTicket row), .ok ()⟩

abbrev insertedToolCall (row : ToolCallRow) : CallEvent := ⟨.inr (.insertToolCall row), .ok ()⟩

theorem writes_eq (tr : List CallEvent) : writes tr = tr.filterMap callWrite? :=
  List.filterMap_filterMap

theorem countP_written (f : Write → Bool) (tr : List ServiceEvent) :
    (tr.filterMap written?).countP f = tr.countP fun e => (written? e).any f := by
  rw [List.countP_filterMap]
  refine List.countP_congr fun e _ => ?_
  cases written? e <;> simp

instance nonempty_reply (o : callSig.Op) : Nonempty (callSig.Reply o) := by
  rcases o with o | o <;> cases o <;>
    first
    | exact ⟨(.error ⟨"", ""⟩ : Except Exc _)⟩
    | exact ⟨()⟩
    | exact ⟨(0 : ℚ)⟩
    | exact ⟨""⟩
    | exact ⟨(none : Option String)⟩
    | exact ⟨(⟨0, 0, 0⟩ : UsageCollector)⟩

section Concurrent

variable {ι : Type} [DecidableEq ι] {env : Env} {request : ι → ResolveRequest env.db}
  {pool' : ι → CallProgram ResolveResponse} {tr : List (ι × CallEvent)} {db : Database}

private theorem exists_completion
    (hrun : Interleaves (fun i => resolveCase env (caseGraph env) (request i)) tr pool') (i : ι) :
    ∃ rest out, Exec (resolveCase env (caseGraph env) (request i)) (ownTrace i tr ++ rest) out :=
  (hrun.steps i).extends

theorem serviceEvents_append (tr₁ tr₂ : List CallEvent) :
    serviceEvents (tr₁ ++ tr₂) = serviceEvents tr₁ ++ serviceEvents tr₂ :=
  List.filterMap_append

private theorem writes_append (tr₁ tr₂ : List CallEvent) :
    writes (tr₁ ++ tr₂) = writes tr₁ ++ writes tr₂ := by
  rw [writes, serviceEvents_append, List.filterMap_append, writes, writes]

private theorem ownedBy
    (hrun : Interleaves (fun i => resolveCase env (caseGraph env) (request i)) tr
    pool') (i : ι) :
    ∃ ticketId, ∀ w ∈ writes (ownTrace i tr),
      rowTicketId w = ticketId ∧ ticketId ∈ drawnIds (ownTrace i tr) := by
  obtain ⟨rest, out, hexec⟩ := exists_completion hrun i
  refine ownedBy_of_prefix hexec ?_
  rw [serviceEvents_append]
  exact List.prefix_append _ _

theorem FreshIds.mono {tr' : List (ι × CallEvent)} (h : FreshIds db tr) (hp : tr' <+: tr) :
    FreshIds db tr' := by
  obtain ⟨s, rfl⟩ := hp
  have hsub : ∀ i, ∀ ticketId ∈ drawnIds (ownTrace i tr'),
      ticketId ∈ drawnIds (ownTrace i (tr' ++ s)) := by
    intro i ticketId hid
    rw [ownTrace_append, drawnIds, serviceEvents_append, List.filterMap_append]
    exact List.mem_append_left _ hid
  exact ⟨fun i ticketId hid => h.fresh i ticketId (hsub i ticketId hid),
    fun i j hij ticketId hid hid' => h.distinct i j hij ticketId (hsub i ticketId hid)
      (hsub j ticketId hid')⟩

private theorem countP_own
    (hrun : Interleaves (fun i => resolveCase env (caseGraph env) (request i)) tr
    pool') (hfresh : FreshIds db tr) {i : ι} {w : Write} (hw : w ∈ writes (ownTrace i tr))
    (f : Write → Bool) :
    (writes (tr.map Prod.snd)).countP (ofTicket f (rowTicketId w)) =
      (writes (ownTrace i tr)).countP f := by
  obtain ⟨ticketId, hown⟩ := ownedBy hrun i
  obtain ⟨hid, hdrawn⟩ := hown w hw
  have hall : (writes (ownTrace i tr)).countP f =
      (writes (ownTrace i tr)).countP (ofTicket f (rowTicketId w)) :=
    List.countP_congr fun w' hw' => by simp [ofTicket, (hown w' hw').1, hid]
  rw [hall, writes_eq, writes_eq, List.countP_filterMap, List.countP_filterMap]
  refine countP_ownTrace ?_
  rintro ⟨j, e⟩ he hshown
  by_contra hij
  cases hwritten : callWrite? e with
  | none =>
    rw [hwritten] at hshown
    cases hshown
  | some w' =>
    rw [hwritten] at hshown
    obtain ⟨-, hsame⟩ := Bool.and_eq_true_iff.mp hshown
    obtain ⟨ticketId', hown'⟩ := ownedBy hrun j
    have hw' : w' ∈ writes (ownTrace j tr) := by
      rw [writes_eq]
      exact List.mem_filterMap.mpr ⟨e, mem_ownTrace.mpr he, hwritten⟩
    obtain ⟨hid', hdrawn'⟩ := hown' w' hw'
    rw [beq_iff_eq, hid', hid] at hsame
    exact hfresh.distinct j i hij ticketId' hdrawn' (hsame ▸ hdrawn)

private theorem row_ahead {p : List (ι × CallEvent)} {i : ι} {e : CallEvent} {w : Write}
    {guard : Guard}
    (hrun : Interleaves (fun i => resolveCase env (caseGraph env) (request i)) (p ++ [(i, e)])
      pool') (hfresh : FreshIds db (p ++ [(i, e)])) (he : callWrite? e = some w)
    (hw : guard.row w = true) :
    (writes ((p ++ [(i, e)]).map Prod.snd)).countP (ofTicket guard.event (rowTicketId w)) <
      (writes ((p ++ [(i, e)]).map Prod.snd)).countP (ofTicket guard.row (rowTicketId w)) := by
  have hlast : writes [e] = [w] := by rw [writes_eq, List.filterMap_cons, he, List.filterMap_nil]
  have hown : writes (ownTrace i (p ++ [(i, e)])) = writes (ownTrace i p) ++ [w] := by
    rw [ownTrace_append, ownTrace_cons_self, ownTrace_nil, writes_append, hlast]
  have hmem : w ∈ writes (ownTrace i (p ++ [(i, e)])) := by
    rw [hown]
    exact List.mem_append_right _ List.mem_cons_self
  have hevent : guard.event w = false := by
    cases guard <;> cases w <;> first | rfl | cases hw
  obtain ⟨mid, hbefore, -⟩ := hrun.split
  obtain ⟨rest, out, hexec⟩ := exists_completion hbefore i
  have hfirst := rowFirst_resolveCase guard hexec (serviceEvents (ownTrace i p))
    (by rw [serviceEvents_append]; exact List.prefix_append _ _)
  unfold Guard.showsEvent Guard.showsRow at hfirst
  rw [← countP_written, ← countP_written] at hfirst
  rw [countP_own hrun hfresh hmem, countP_own hrun hfresh hmem, hown, List.countP_append,
    List.countP_append, List.countP_singleton, List.countP_singleton, if_pos hw,
    if_neg (by simp [hevent])]
  exact Nat.lt_succ_of_le hfirst

private theorem fresh_eventRows {ticketId : String} (h : db.Fresh ticketId) (eventType : String) :
    eventRows db ticketId eventType = 0 :=
  List.countP_eq_zero.mpr fun row hrow => by simp [h.2.2 row hrow]

private theorem mem_writes_own {i : ι} {e : CallEvent} {w : Write} (he : (i, e) ∈ tr)
    (hw : callWrite? e = some w) : w ∈ writes (ownTrace i tr) := by
  rw [writes_eq]
  exact List.mem_filterMap.mpr ⟨e, mem_ownTrace.mpr he, hw⟩

private theorem fresh_of_written (hrun : Interleaves (fun i => resolveCase env (caseGraph env)
    (request i)) tr pool') (hfresh : FreshIds db tr) {i : ι} {e : CallEvent} {w : Write}
    (he : (i, e) ∈ tr) (hw : callWrite? e = some w) : db.Fresh (rowTicketId w) := by
  obtain ⟨ticketId, hown⟩ := ownedBy hrun i
  obtain ⟨hid, hdrawn⟩ := hown w (mem_writes_own he hw)
  exact hid ▸ hfresh.fresh i ticketId hdrawn

private theorem refusal_row_iff (hrun : Interleaves (fun i => resolveCase env (caseGraph env)
    (request i)) tr pool') {i : ι} {e : CallEvent} {row : TicketRow} (he : (i, e) ∈ tr)
    (hw : callWrite? e = some (.ticket row)) :
    row.decision = some Decision.refuse.value ↔
      isInjection env.db (redactPii env.db (request i).ticket) = true := by
  obtain ⟨rest, out, hexec⟩ := exists_completion hrun i
  refine refuse_iff_isInjection hexec ?_
  rw [serviceEvents_append, List.filterMap_append, ← ticketRows_eq]
  exact List.mem_append_left _ (List.mem_filterMap.mpr ⟨_, mem_writes_own he hw, rfl⟩)

private theorem refusal_rows_le (hrun : Interleaves (fun i => resolveCase env (caseGraph env)
    (request i)) tr pool') (i : ι) :
    (writes (ownTrace i tr)).countP Guard.refusal.row ≤ 1 := by
  obtain ⟨rest, out, hexec⟩ := exists_completion hrun i
  obtain ⟨ticketId, -, decision, hfiled⟩ := filed_resolveCase hexec
  have hrows := hfiled.length_le
  rw [← ticketRows_eq, writes_append, List.filterMap_append, List.length_append] at hrows
  have hshown : (writes (ownTrace i tr)).countP Guard.refusal.row ≤
      ((writes (ownTrace i tr)).filterMap Write.ticket?).length := by
    rw [List.length_filterMap_eq_countP]
    refine List.countP_mono_left fun w _ hw => ?_
    cases w <;> first | rfl | cases hw
  omega

private theorem not_guarded_of_refusal {p : List (ι × CallEvent)} {i : ι} {row : TicketRow}
    (hrun : Interleaves (fun i => resolveCase env (caseGraph env) (request i))
      (p ++ [(i, insertedTicket row)]) pool')
    (hfresh : FreshIds db (p ++ [(i, insertedTicket row)]))
    (hinj : isInjection env.db (redactPii env.db (request i).ticket) = true) :
    ¬ Guarded (db.replay (writes ((p ++ [(i, insertedTicket row)]).map Prod.snd))) := by
  intro hstate
  have hmem : (i, insertedTicket row) ∈ p ++ [(i, insertedTicket row)] := by simp
  have hwrite : callWrite? (insertedTicket row) = some (.ticket row) := rfl
  have hdecision := (refusal_row_iff hrun hmem hwrite).mpr hinj
  have hshown : Guard.refusal.row (.ticket row) = true := beq_iff_eq.mpr hdecision
  have hahead := row_ahead hrun hfresh hwrite hshown
  rw [countP_own hrun hfresh (mem_writes_own hmem hwrite) Guard.refusal.row] at hahead
  have hle := refusal_rows_le hrun i
  have hstored : row ∈ (db.replay (writes ((p ++ [(i, insertedTicket row)]).map
      Prod.snd))).tickets := by
    rw [List.map_append, writes_append, Database.replay_append]
    exact Database.mem_insertTicket_self _ row
  have hevent : 1 ≤ eventRows (db.replay (writes ((p ++ [(i, insertedTicket row)]).map
      Prod.snd))) row.id Guard.refusal.eventType.value := hstate.refusals row hstored hdecision
  have hnew : eventRows db row.id Guard.refusal.eventType.value = 0 :=
    fresh_eventRows (fresh_of_written hrun hfresh hmem hwrite) _
  rw [eventRows_replay, hnew, Nat.zero_add] at hevent
  have hnone := Nat.lt_of_lt_of_le hahead hle
  exact absurd hevent (Nat.not_le.mpr hnone)

private theorem eventRows_lt_toolRows {p : List (ι × CallEvent)} {i : ι} {row : ToolCallRow}
    {guard : Guard} {status : String}
    (hguard : ∀ w, guard.row w = (w.toolCall?.any fun row => row.status == status))
    (hrun : Interleaves (fun i => resolveCase env (caseGraph env) (request i))
      (p ++ [(i, insertedToolCall row)]) pool')
    (hfresh : FreshIds db (p ++ [(i, insertedToolCall row)])) (hstatus : row.status = status) :
    eventRows (db.replay (writes ((p ++ [(i, insertedToolCall row)]).map Prod.snd)))
        row.ticketId guard.eventType.value <
      toolRows (db.replay (writes ((p ++ [(i, insertedToolCall row)]).map Prod.snd)))
        row.ticketId status := by
  have hmem : (i, insertedToolCall row) ∈ p ++ [(i, insertedToolCall row)] := by simp
  have hwrite : callWrite? (insertedToolCall row) = some (.toolCall row) := rfl
  have hshown : guard.row (.toolCall row) = true := by simp [hguard, Write.toolCall?, hstatus]
  have hnew : eventRows db row.ticketId guard.eventType.value = 0 :=
    fresh_eventRows (fresh_of_written hrun hfresh hmem hwrite) _
  rw [eventRows_replay, toolRows_replay hguard, hnew, Nat.zero_add]
  exact Nat.lt_add_left _ (row_ahead hrun hfresh hwrite hshown)

private theorem not_guarded_of_toolCall {p : List (ι × CallEvent)} {i : ι} {row : ToolCallRow}
    (hrun : Interleaves (fun i => resolveCase env (caseGraph env) (request i))
      (p ++ [(i, insertedToolCall row)]) pool')
    (hfresh : FreshIds db (p ++ [(i, insertedToolCall row)]))
    (hstatus : row.status = ToolStatus.blocked.value ∨ row.status = ToolStatus.sanitized.value) :
    ¬ Guarded (db.replay (writes ((p ++ [(i, insertedToolCall row)]).map Prod.snd))) := by
  intro hstate
  rcases hstatus with hblocked | hsanitized
  · exact absurd (hstate.blocked row.ticketId)
      (not_le.mpr (eventRows_lt_toolRows row_blocked hrun hfresh hblocked))
  · exact absurd (hstate.sanitized row.ticketId)
      (not_le.mpr (eventRows_lt_toolRows row_sanitized hrun hfresh hsanitized))

/-- The steps that show a guardrail decision: a call commits the case row of a refused ticket,
or the row of a blocked or sanitized tool call. -/
inductive Exposes (request : ι → ResolveRequest env.db) : ι × CallEvent → Prop
  | refusal (i : ι) (row : TicketRow) :
      isInjection env.db (redactPii env.db (request i).ticket) = true →
      Exposes request (i, insertedTicket row)
  | toolCall (i : ι) (row : ToolCallRow) :
      (row.status = ToolStatus.blocked.value ∨ row.status = ToolStatus.sanitized.value) →
      Exposes request (i, insertedToolCall row)

private theorem row_false_of_not_exposes
    (hrun : Interleaves (fun i => resolveCase env (caseGraph env)
    (request i)) tr pool') {i : ι} {e : CallEvent} {w : Write} (he : (i, e) ∈ tr)
    (hw : callWrite? e = some w) (h : ¬ Exposes request (i, e)) (guard : Guard) :
    guard.row w = false := by
  rcases e with ⟨o | o, r⟩
  · cases hw
  by_contra hshown
  rw [Bool.not_eq_false] at hshown
  cases o with
  | insertTicket row =>
    rcases r with exc | ⟨⟩
    · cases hw
    obtain rfl := Option.some.inj hw
    cases guard with
    | refusal =>
      exact h (.refusal i row ((refusal_row_iff hrun he rfl).mp (beq_iff_eq.mp hshown)))
    | blocked => cases hshown
    | sanitized => cases hshown
  | insertToolCall row =>
    rcases r with exc | ⟨⟩
    · cases hw
    obtain rfl := Option.some.inj hw
    cases guard with
    | refusal => cases hshown
    | blocked => exact h (.toolCall i row (.inl (beq_iff_eq.mp hshown)))
    | sanitized => exact h (.toolCall i row (.inr (beq_iff_eq.mp hshown)))
  | insertSecurityEvent row =>
    rcases r with exc | ⟨⟩
    · cases hw
    obtain rfl := Option.some.inj hw
    cases guard <;> cases hshown
  | perfCounter => cases hw
  | uuidHex => cases hw
  | record metric => cases hw
  | usage => cases hw
  | traceUrl => cases hw

/-- Every state that can be read between the steps of any concurrent calls is guarded, exactly
when none of the steps exposes a decision. -/
theorem guarded_iff (hdb : Guarded db) (hfresh : FreshIds db tr)
    (hrun : Interleaves (fun i => resolveCase env (caseGraph env) (request i)) tr pool') :
    (∀ p, p <+: tr → Guarded (db.replay (writes (p.map Prod.snd)))) ↔
      ∀ e ∈ tr, ¬ Exposes request e := by
  constructor
  · intro hguarded e he hexposes
    obtain ⟨p, s, rfl⟩ := List.append_of_mem he
    have hassoc : p ++ e :: s = (p ++ [e]) ++ s := by simp
    have hpart : p ++ [e] <+: p ++ e :: s := hassoc ▸ List.prefix_append _ _
    rw [hassoc] at hrun
    obtain ⟨mid, hbefore, -⟩ := hrun.split
    cases hexposes with
    | refusal i row hinj =>
      exact not_guarded_of_refusal hbefore (hfresh.mono hpart) hinj (hguarded _ hpart)
    | toolCall i row hstatus =>
      exact not_guarded_of_toolCall hbefore (hfresh.mono hpart) hstatus (hguarded _ hpart)
  · intro hharmless p hp
    refine hdb.replay fun w hw guard => ?_
    rw [writes_eq] at hw
    obtain ⟨e, he, hwritten⟩ := List.mem_filterMap.mp hw
    obtain ⟨⟨i, e⟩, hmem, rfl⟩ := List.mem_map.mp he
    exact row_false_of_not_exposes hrun (hp.subset hmem) hwritten
      (hharmless _ (hp.subset hmem)) guard

end Concurrent

def FakeLLM.firstEvents (llm : FakeLLM) (request : ResolveRequest testEnv.db) (n : ℕ) :
    List (Unit × CallEvent) :=
  ((llm.resolve request).trace.take n).map (Prod.mk ())

private theorem FakeLLM.interleaves_firstEvents (llm : FakeLLM)
    (request : ResolveRequest testEnv.db)
    (n : ℕ) : ∃ pool', Interleaves (fun _ => resolveCase testEnv (caseGraph testEnv) request)
      (llm.firstEvents request n) pool' := by
  have hexec := exec_run llm.handler (resolveCase testEnv (caseGraph testEnv) request) ()
  rw [← List.take_append_drop n (Program.run _ _ _).trace] at hexec
  obtain ⟨q, hsteps, -⟩ := hexec.split
  exact ⟨_, hsteps.interleaves rfl⟩

private theorem guarded_testDatabase : Guarded testDatabase := by
  constructor <;> simp [testDatabase, toolRows]

private theorem freshIds_testDatabase (tr : List (Unit × CallEvent)) :
    FreshIds testDatabase tr where
  fresh := by simp [testDatabase, Database.Fresh]
  distinct i j hij := absurd (Subsingleton.elim i j) hij

theorem guarded_iff_ignoreInstructions :
    (∀ p, p <+: ({} : FakeLLM).firstEvents ignoreInstructions 4 →
        Guarded (testDatabase.replay (writes (p.map Prod.snd)))) ↔
      ∀ e ∈ ({} : FakeLLM).firstEvents ignoreInstructions 4,
        ¬ Exposes (fun _ : Unit => ignoreInstructions) e := by
  obtain ⟨pool', hrun⟩ := ({} : FakeLLM).interleaves_firstEvents ignoreInstructions 4
  exact guarded_iff guarded_testDatabase (freshIds_testDatabase _) hrun

theorem refusal_read_without_event :
    ∃ (tr : List (Unit × CallEvent)) (pool' : Unit → CallProgram ResolveResponse),
      Interleaves (fun _ => resolveCase testEnv (caseGraph testEnv) ignoreInstructions) tr
        pool' ∧
      Guarded testDatabase ∧ FreshIds testDatabase tr ∧
      ¬ Guarded (testDatabase.replay (writes (tr.map Prod.snd))) := by
  obtain ⟨pool', hrun⟩ := ({} : FakeLLM).interleaves_firstEvents ignoreInstructions 4
  refine ⟨_, pool', hrun, guarded_testDatabase, freshIds_testDatabase _, fun hstate => ?_⟩
  have hrow : ¬ ∀ row ∈ (testDatabase.replay (writes ((({} : FakeLLM).firstEvents
      ignoreInstructions 4).map Prod.snd))).tickets,
      row.decision = some Decision.refuse.value →
        1 ≤ eventRows (testDatabase.replay (writes ((({} : FakeLLM).firstEvents
          ignoreInstructions 4).map Prod.snd))) row.id
          SecurityEventType.injectionRefused.value := by decide +kernel
  exact hrow hstate.refusals

end TicketWarden.Service
