/- Module: TicketWarden/Service/Answered
   source: apps/api/src/service.py, apps/api/src/observability/costing.py
   digest: Exactly when a call raises although its inserts succeed. -/

import TicketWarden.Observability.Usage
import TicketWarden.Service.Counters
import TicketWarden.Service.Ending
import TicketWarden.Service.FakeLLM

set_option autoImplicit false
set_option relaxedAutoImplicit false

namespace TicketWarden.Service

open TicketWarden.Graph Effects Guardrails Observability Python Storage

/-- A text that contains one of the given tokens. -/
def HasSpecial (specials : List String) (text : String) : Prop :=
  ∃ token ∈ specials, token.toList <:+: text.toList

/-- What is known of the encodings of `tiktoken`: each has its special tokens, and encodes the
texts without any. -/
structure Tiktoken (encodingFor : EncodingFor) (specials : String → List String) : Prop where
  nonempty : ∀ model, ∀ token ∈ specials model, token ≠ ""
  encodes : ∀ model encode, encodingFor model = some encode →
    ∀ text, (encode text).isOk = true ↔ ¬ HasSpecial (specials model) text

/-- A number of tokens that neither the price nor a counter refuses. -/
def Accepted (count : ℤ) : Prop := 0 ≤ count ∧ FloatRange count

/-- Both counts of a collector are. -/
def AcceptedUsage (collector : UsageCollector) : Prop :=
  Accepted collector.promptTokens ∧ Accepted collector.completionTokens

/-- A text whose tokens can be counted for the configured model. -/
def Countable (env : Env) (specials : String → List String) (text : String) : Prop :=
  (env.encodingFor env.settings.llmModel = none ∨
    ¬ HasSpecial (specials env.settings.llmModel) text) ∧
    ∀ n, countTokens env.db env.encodingFor text env.settings.llmModel = .ok n → FloatRange n

section

variable {env : Env} {specials : String → List String}

private theorem countable_empty (h : Tiktoken env.encodingFor specials) :
    Countable env specials "" := by
  constructor
  · right
    rintro ⟨token, htoken, hinner⟩
    apply h.nonempty _ token htoken
    simpa using hinner
  · intro n hn
    cases hn
    decide +kernel

private theorem countable_iff (h : Tiktoken env.encodingFor specials) (text : String) :
    (∃ n, countTokens env.db env.encodingFor text env.settings.llmModel = .ok n ∧ Accepted n) ↔
      Countable env specials text := by
  have hcounted : (∃ n, countTokens env.db env.encodingFor text env.settings.llmModel = .ok n) ↔
      (env.encodingFor env.settings.llmModel = none ∨
        ¬ HasSpecial (specials env.settings.llmModel) text) := by
    by_cases hempty : text = ""
    · rw [hempty]
      exact iff_of_true ⟨0, rfl⟩ (countable_empty h).1
    · unfold countTokens
      rw [if_neg hempty]
      cases hencoding : env.encodingFor env.settings.llmModel with
      | none => exact iff_of_true ⟨_, rfl⟩ (.inl rfl)
      | some encode =>
        simp only [reduceCtorEq, false_or, ← h.encodes _ encode hencoding text]
        cases encode text <;> simp [Except.isOk, Except.toBool]
  unfold Countable
  rw [← hcounted]
  constructor
  · rintro ⟨n, hn, haccepted⟩
    refine ⟨⟨n, hn⟩, fun m hm => ?_⟩
    cases hn.symm.trans hm
    exact haccepted.2
  · rintro ⟨⟨n, hn⟩, hrange⟩
    exact ⟨n, hn, Int.natCast_nonneg n, hrange n hn⟩

theorem tokenUsage_accepted_iff (h : Tiktoken env.encodingFor specials)
    (collector : UsageCollector) (redactedTicket : String) (reply : Option String) :
    (∃ counts, tokenUsage env collector redactedTicket reply = .ok counts ∧
        Accepted counts.1 ∧ Accepted counts.2.1) ↔
      if collector.hasUsage then AcceptedUsage collector
      else Countable env specials redactedTicket ∧
        ∀ text, reply = some text → Countable env specials text := by
  have hreply : (∀ text, reply = some text → Countable env specials text) ↔
      Countable env specials (reply.getD "") := by
    cases reply with
    | none => exact iff_of_true (by simp) (countable_empty h)
    | some text => simp
  rw [hreply, ← countable_iff h, ← countable_iff h]
  unfold tokenUsage
  cases collector.hasUsage with
  | true => simp [pure, Except.pure, AcceptedUsage]
  | false =>
    cases countTokens env.db env.encodingFor redactedTicket env.settings.llmModel with
    | error exc => simp [bind, Except.bind]
    | ok n =>
      cases countTokens env.db env.encodingFor (reply.getD "") env.settings.llmModel with
      | error exc => simp [bind, Except.bind]
      | ok m => simp [bind, Except.bind, pure, Except.pure]

end

def insertError? : ServiceEvent → Option Exc
  | ⟨.insertTicket _, .error exc⟩ => some exc
  | ⟨.insertToolCall _, .error exc⟩ => some exc
  | ⟨.insertSecurityEvent _, .error exc⟩ => some exc
  | _ => none

def usage? : ServiceEvent → Option UsageCollector
  | ⟨.usage, collector⟩ => some collector
  | _ => none

abbrev Commits (e : ServiceEvent) : Prop := insertError? e = none

/-- Events that ask for no usage. -/
def Unbilled (tr : List ServiceEvent) : Prop := ∀ e ∈ tr, usage? e = none

private theorem additive_unbilled : Additive Unbilled := additive_forall _

/-- A part of a call that asks for no usage, and that returns exactly under a condition when its
inserts succeed. -/
structure Proceeds {α : Type} (p : ServiceProgram α) (c : Prop) : Prop where
  unbilled : Satisfies p Unbilled
  returns_iff : ReturnsIff Commits p c

section

variable {α β : Type} {c d : Prop}

private theorem Proceeds.ended {p : ServiceProgram α} {tr : List ServiceEvent} {out : Except Exc α}
    (hp : Proceeds p c) (h : Exec p tr out) (hcommits : ∀ e ∈ tr, Commits e) :
    tr.filterMap usage? = [] ∧ (out.isOk = true ↔ c) :=
  ⟨List.filterMap_eq_nil_iff.mpr (hp.unbilled h), hp.returns_iff h hcommits⟩

theorem Proceeds.congr {p : ServiceProgram α} (hp : Proceeds p c) (h : c ↔ d) : Proceeds p d :=
  ⟨hp.unbilled, hp.returns_iff.congr h⟩

private theorem proceeds_pure (a : α) : Proceeds (pure a) True :=
  ⟨satisfies_pure additive_unbilled a, (returns_pure a).iff⟩

private theorem proceeds_bind {p : ServiceProgram α} {f : α → ServiceProgram β} (hp : Proceeds p c)
    (hf : ∀ a, Proceeds (f a) d) : Proceeds (p >>= f) (c ∧ d) :=
  ⟨satisfies_bind additive_unbilled hp.unbilled fun a => (hf a).unbilled,
    returnsIff_bind hp.returns_iff fun a => (hf a).returns_iff⟩

private theorem proceeds_then {p : ServiceProgram α} {f : α → ServiceProgram β}
    (hp : Proceeds p True)
    (hf : ∀ a, Proceeds (f a) d) : Proceeds (p >>= f) d :=
  (proceeds_bind hp hf).congr (iff_of_eq (true_and d))

private theorem proceeds_ofExcept_bind {x : Except Exc α} {f : α → ServiceProgram β} {d : α → Prop}
    (hf : ∀ a, x = .ok a → Proceeds (f a) (d a)) :
    Proceeds (.ofExcept x >>= f) (∃ a, x = .ok a ∧ d a) := by
  refine ⟨?_, returnsIff_ofExcept_bind fun a ha => (hf a ha).returns_iff⟩
  cases x with
  | error exc => exact satisfies_ofExcept additive_unbilled (.error exc)
  | ok a => exact (hf a rfl).unbilled

private theorem proceeds_forM {xs : List α} {f : α → ServiceProgram PUnit} {d : α → Prop}
    (hf : ∀ x, Proceeds (f x) (d x)) : Proceeds (xs.forM f) (∀ x ∈ xs, d x) :=
  ⟨satisfies_forM additive_unbilled fun x _ => (hf x).unbilled,
    returnsIff_forM fun x _ => (hf x).returns_iff⟩

private theorem proceeds_perform {o : ServiceOp} (h : ∀ r, usage? ⟨o, r⟩ = none) :
    Proceeds (perform o) True := by
  refine ⟨satisfies_perform fun r e he => ?_, (returns_perform _).iff⟩
  obtain rfl := List.mem_singleton.mp he
  exact h r

private theorem proceeds_record (metric : Metric) : Proceeds (record metric) True :=
  proceeds_perform fun _ => rfl

private theorem proceeds_recordAmount [LinearOrder α] [Zero α] (amount : α) (metric : Metric) :
    Proceeds (recordAmount amount metric) (0 ≤ amount) := by
  unfold recordAmount
  by_cases hzero : amount = 0
  · rw [if_pos hzero]
    exact (proceeds_pure ()).congr (iff_of_true trivial hzero.ge)
  · rw [if_neg hzero]
    by_cases hneg : amount < 0
    · rw [if_pos hneg]
      refine ⟨satisfies_ofExcept additive_unbilled (.error negativeAmount), fun tr out h _ => ?_⟩
      obtain ⟨-, rfl⟩ := exec_fail_iff.mp h
      exact iff_of_false Bool.false_ne_true (not_le.mpr hneg)
    · rw [if_neg hneg]
      exact (proceeds_record metric).congr (iff_of_true trivial (not_lt.mp hneg))

private theorem proceeds_insert {p : ServiceProgram Unit} {event : Except Exc Unit → ServiceEvent}
    (hexec : ∀ {tr out}, Exec p tr out ↔ tr = [event out])
    (husage : ∀ out, usage? (event out) = none)
    (herror : ∀ exc, insertError? (event (.error exc)) = some exc) : Proceeds p True := by
  constructor
  · intro tr out h e he
    obtain rfl := hexec.mp h
    obtain rfl := List.mem_singleton.mp he
    exact husage out
  · intro tr out h hcommits
    obtain rfl := hexec.mp h
    cases out with
    | ok u => exact iff_of_true rfl trivial
    | error exc =>
      have hnone := hcommits _ (List.mem_singleton_self _)
      rw [Commits, herror exc] at hnone
      cases hnone

end

private theorem proceeds_logSecurityEvent (ticketId : String) (eventType : SecurityEventType)
    (detail : Option String) : Proceeds (logSecurityEvent ticketId eventType detail) True :=
  proceeds_then (proceeds_insert exec_insertSecurityEvent_iff (fun _ => rfl) fun _ => rfl)
    fun _ => proceeds_record _

private theorem proceeds_insertToolCall (db : Runtime) (row : ToolCallRow) :
    Proceeds (insertToolCall db row) (Storable db row.args row.result) := by
  constructor
  · intro tr out h
    rcases exec_insertToolCall h with ⟨-, rfl, -⟩ | ⟨-, rfl⟩
    · exact additive_unbilled.nil
    · intro e he
      obtain rfl := List.mem_singleton.mp he
      rfl
  · intro tr out h hcommits
    rcases exec_insertToolCall h with ⟨hnot, -, exc, rfl⟩ | ⟨hstorable, rfl⟩
    · exact iff_of_false Bool.false_ne_true hnot
    · cases out with
      | ok u => exact iff_of_true rfl hstorable
      | error exc => cases hcommits _ (List.mem_singleton_self _)

/-- A record that can be written as JSON. -/
def StorableRecord (db : Runtime) (call : ToolRecord) : Prop :=
  Storable db (call.args.getD []) call.result

private theorem proceeds_persistToolCall (db : Runtime) (ticketId : String) (call : ToolRecord) :
    Proceeds (persistToolCall db ticketId call) (StorableRecord db call) := by
  refine (proceeds_bind (d := True) (proceeds_insertToolCall db _) fun _ =>
    proceeds_then (proceeds_record _) fun _ => ?_).congr (iff_of_eq (and_true _))
  split
  · exact proceeds_logSecurityEvent _ _ _
  · split
    · exact proceeds_logSecurityEvent _ _ _
    · exact proceeds_pure ()

private theorem proceeds_persist (db : Runtime) (state : CaseState) (ticketId : String)
    (latencyMs costUsd : ℚ) : Proceeds (persist db state ticketId latencyMs costUsd)
      (∀ call ∈ state.toolCalls, StorableRecord db call) :=
  proceeds_then (proceeds_insert exec_insertTicket_iff (fun _ => rfl) fun _ => rfl) fun _ =>
    proceeds_forM fun call => proceeds_persistToolCall db ticketId call

private theorem proceeds_logWithheld (ticketId : String) (withheld : Option String) :
    Proceeds (logWithheld ticketId withheld) True := by
  cases withheld with
  | none => exact proceeds_pure ()
  | some pattern => exact proceeds_logSecurityEvent _ _ _

private theorem proceeds_recordCase (decision : String) (latencyMs : ℚ)
    (promptTokens completionTokens : ℤ)
    (costUsd : ℚ) (llmCalls : ℕ) :
    Proceeds (recordCase decision latencyMs promptTokens completionTokens costUsd llmCalls)
      ((0 ≤ promptTokens ∧ 0 ≤ completionTokens) ∧ 0 ≤ costUsd) :=
  proceeds_then (proceeds_record _) fun _ => proceeds_then (proceeds_record _) fun _ =>
    proceeds_bind (proceeds_bind (proceeds_recordAmount _ _) fun _ => proceeds_recordAmount _ _)
      fun _ => (proceeds_bind (proceeds_recordAmount _ _) fun _ =>
        proceeds_recordAmount _ _).congr (and_iff_left (Nat.zero_le llmCalls))

theorem proceeds_refuse (db : Runtime) (started : ℚ) (ticketId redactedTicket : String)
    (reason : Option String) : Proceeds (refuse db started ticketId redactedTicket reason) True :=
  proceeds_then (proceeds_perform fun _ => rfl) fun _ =>
    proceeds_then
      ((proceeds_persist _ _ _ _ _).congr (iff_of_true (by simp [refusedState]) trivial))
      fun _ => proceeds_then (proceeds_logSecurityEvent _ _ _) fun _ =>
        proceeds_then (proceeds_record _) fun _ =>
          proceeds_then (proceeds_record _) fun _ => proceeds_pure _

private theorem price_accepted_iff (promptTokens completionTokens : ℤ) (model provider : String) :
    (∃ costUsd, estimateCostOfInts promptTokens completionTokens model provider = .ok costUsd ∧
        (0 ≤ promptTokens ∧ 0 ≤ completionTokens) ∧ 0 ≤ costUsd) ↔
      Accepted promptTokens ∧ Accepted completionTokens := by
  unfold estimateCostOfInts
  by_cases hrange : FloatRange promptTokens ∧ FloatRange completionTokens
  · rw [if_pos hrange]
    constructor
    · rintro ⟨-, -, ⟨hprompt, hcompletion⟩, -⟩
      exact ⟨⟨hprompt, hrange.1⟩, hcompletion, hrange.2⟩
    · rintro ⟨hprompt, hcompletion⟩
      exact ⟨_, rfl, ⟨hprompt.1, hcompletion.1⟩,
        estimateCost_nonneg hprompt.1 hcompletion.1 model provider⟩
  · rw [if_neg hrange]
    refine iff_of_false ?_ fun h => hrange ⟨h.1.2, h.2.2⟩
    rintro ⟨costUsd, hcost, -⟩
    cases hcost

theorem exec_finish {env : Env} {started : ℚ} {ticketId redactedTicket : String}
    {final : CaseState} {tr : List ServiceEvent} {out : Except Exc ResolveResponse}
    (h : Exec (finish env started ticketId redactedTicket final) tr out)
    (hcommits : ∀ e ∈ tr, Commits e) :
    ∃ collector, tr.filterMap usage? = [collector] ∧
      (out.isOk = true ↔ (∃ counts, tokenUsage env collector redactedTicket
          (outboundGate env.db final).reply = .ok counts ∧
            Accepted counts.1 ∧ Accepted counts.2.1) ∧
        ∀ call ∈ (outboundGate env.db final).final.toolCalls, StorableRecord env.db call) := by
  obtain ⟨traceUrl, tr₁, rfl, h₁⟩ := exec_perform_bind_iff.mp h
  rcases hgated : outboundGate env.db final with ⟨final', reply, decision, withheld⟩
  rw [hgated] at h₁
  have hcommits₁ : ∀ e ∈ tr₁, Commits e := fun e he => hcommits e (List.mem_cons_of_mem _ he)
  rcases exec_bind_iff.mp h₁ with ⟨exc, hwithheld, rfl⟩ | ⟨_, trw, tr₂, rfl, hwithheld, h₂⟩
  · have hraised := ((proceeds_logWithheld ticketId withheld).ended hwithheld hcommits₁).2
    cases hraised.mpr trivial
  have hquiet := ((proceeds_logWithheld ticketId withheld).ended hwithheld
    fun e he => hcommits₁ e (List.mem_append_left _ he)).1
  obtain ⟨now, tr₃, rfl, h₃⟩ := exec_perform_bind_iff.mp h₂
  obtain ⟨collector, tr₄, rfl, h₄⟩ := exec_perform_bind_iff.mp h₃
  have hcommits₄ : ∀ e ∈ tr₄, Commits e := fun e he => hcommits₁ e (by simp [he])
  have hrest := fun {c : Prop} (hp : Proceeds _ c) => hp.ended h₄ hcommits₄
  obtain ⟨hunbilled, hout⟩ := hrest <|
    proceeds_ofExcept_bind fun counts _ => proceeds_then (proceeds_record _) fun _ =>
      proceeds_ofExcept_bind fun costUsd _ => proceeds_bind (proceeds_persist _ _ _ _ _) fun _ =>
        (proceeds_bind (proceeds_recordCase _ _ _ _ _ _) fun _ => proceeds_pure _).congr
          (iff_of_eq (and_true _))
  refine ⟨collector, ?_, ?_⟩
  · rw [List.filterMap_cons, List.filterMap_append, hquiet]
    exact congrArg (collector :: ·) hunbilled
  · rw [hout]
    have hprice := fun promptTokens completionTokens => price_accepted_iff promptTokens
      completionTokens env.settings.llmModel env.settings.llmProvider
    simp only [← hprice]
    constructor
    · rintro ⟨counts, hcounts, costUsd, hcost, hstorable, hrecorded⟩
      exact ⟨⟨counts, hcounts, costUsd, hcost, hrecorded⟩, hstorable⟩
    · rintro ⟨⟨counts, hcounts, costUsd, hcost, hrecorded⟩, hstorable⟩
      exact ⟨counts, hcounts, costUsd, hcost, hstorable, hrecorded⟩

def usages (tr : List CallEvent) : List UsageCollector := (serviceEvents tr).filterMap usage?

/-- The reply a case ends with can be counted: there is none, it is withheld, or it has no
special token. -/
def ReplyCountable (env : Env) (specials : String → List String) (tr : List CallEvent) : Prop :=
  Concluded env.settings env.recursionLimit (verdicts tr) → ∀ text ∈ (draftTexts tr).getLast?,
    (Approved env.recursionLimit (verdicts tr) ∧
        leaks env.db (redactPii env.db (redactPii env.db text)) = true) ∨
      Countable env specials (redactPii env.db (redactPii env.db text))

private theorem replyCountable_iff {env : Env} {specials : String → List String}
    (hspecials : Tiktoken env.encodingFor specials) {ticketId redactedTicket : String}
    {orderId : Option String} {tr : List CallEvent} {gout : Except Exc CaseState}
    (h : Ending env (initialState ticketId redactedTicket orderId) (graphEvents tr) gout) :
    (∀ text, (outboundGate env.db (settled (initialState ticketId redactedTicket orderId)
        gout)).reply = some text → Countable env specials text) ↔
      ReplyCountable env specials tr := by
  have hempty := countable_empty hspecials
  cases h with
  | raised exc hunfinished hfailed =>
    have hnone : (outboundGate env.db (settled (initialState ticketId redactedTicket orderId)
        (.error exc))).reply = none := by
      rw [outboundGate_of_escalated rfl]
      rfl
    refine iff_of_true (by simp [hnone]) fun hconcluded => ?_
    exact absurd hconcluded (hunfinished.not_concluded rfl)
  | @returned final text rejected last hreviewed hsteps htext hdraft hticket hcalls hanswered =>
    have hright : ReplyCountable env specials tr ↔
        ((Approved env.recursionLimit (verdicts tr) ∧
            leaks env.db (redactPii env.db (redactPii env.db text)) = true) ∨
          Countable env specials (redactPii env.db (redactPii env.db text))) := by
      have hconcluded : Concluded env.settings env.recursionLimit (verdicts tr) :=
        hreviewed.isConcluded hsteps
      rw [ReplyCountable, forall_prop_of_true hconcluded, draftTexts, htext]
      simp
    rw [hright]
    change (∀ text, (outboundGate env.db final).reply = some text → _) ↔ _
    cases happroved : last.approved with
    | false =>
      have hnone : ¬ Approved env.recursionLimit (verdicts tr) :=
        (hreviewed.exhausted hsteps happroved).not_approved
      rw [outboundGate_of_escalated (hreviewed.escalated happroved).1, hdraft,
        outboundReply_iff env.db hempty]
      simp [hnone]
    | true =>
      have hverdict : Approved env.recursionLimit (verdicts tr) :=
        hreviewed.isApproved hsteps happroved
      have hwithheld := @outboundGate_withheld_iff env.db final
      rcases @outboundGate_of_resolved env.db final (hreviewed.resolved happroved).1 with
        ⟨pattern, hgate⟩ | ⟨hclean, hgate⟩
      · -- the reply is withheld for a leak
        rw [hgate] at hwithheld
        obtain ⟨-, reply, hreply, hleak⟩ := hwithheld.mp rfl
        rw [hdraft] at hreply
        rw [outboundReply_eq hreply] at hleak
        rw [hgate]
        exact iff_of_true (by simp) (.inl ⟨hverdict, hleak⟩)
      · have hquiet : leaks env.db (redactPii env.db (redactPii env.db text)) = false := by
          rw [hdraft] at hclean
          have hempty : leaks env.db "" = false := rfl
          exact (outboundReply_iff env.db hempty text).mp hclean
        rw [hgate, hdraft, outboundReply_iff env.db hempty, hquiet]
        simp

/-- The records a case ends with can be written as JSON, if it keeps them: those of a graph that
raised are gone. -/
def RecordsStorable (env : Env) (tr : List CallEvent) : Prop :=
  Concluded env.settings env.recursionLimit (verdicts tr) →
    ∀ call ∈ dispatches tr, StorableRecord env.db call

private theorem recordsStorable_iff {env : Env} {ticketId redactedTicket : String}
    {orderId : Option String} {tr : List CallEvent} {gout : Except Exc CaseState}
    (h : Ending env (initialState ticketId redactedTicket orderId) (graphEvents tr) gout) :
    (∀ call ∈ (outboundGate env.db (settled (initialState ticketId redactedTicket orderId)
        gout)).final.toolCalls, StorableRecord env.db call) ↔ RecordsStorable env tr := by
  rw [(outboundGate_frame env.db _).2.2.2]
  cases h with
  | raised exc hunfinished hfailed =>
    refine iff_of_true (by simp [settled, errorState, initialState]) fun hconcluded => ?_
    exact absurd hconcluded (hunfinished.not_concluded rfl)
  | returned text rejected last hreviewed hsteps htext hdraft hticket hcalls hanswered =>
    have hconcluded : Concluded env.settings env.recursionLimit (verdicts tr) :=
      hreviewed.isConcluded hsteps
    rw [RecordsStorable, forall_prop_of_true hconcluded, settled, hcalls]
    exact Iff.rfl

/-- What a case is billed for is accepted: the tokens the provider has reported or, if it has
reported none, those of the ticket and of the reply. -/
def Billable (env : Env) (specials : String → List String) (redactedTicket : String)
    (tr : List CallEvent) (collector : UsageCollector) : Prop :=
  if collector.hasUsage then AcceptedUsage collector
  else Countable env specials redactedTicket ∧ ReplyCountable env specials tr

/-- With inserts that succeed, a call returns exactly when it is refused, or its records can be
written as JSON and its tokens billed. -/
theorem answered_iff {env : Env} {specials : String → List String}
    {request : ResolveRequest env.db} {tr : List CallEvent} {out : Except Exc ResolveResponse}
    (hspecials : Tiktoken env.encodingFor specials)
    (hcommits : ∀ e ∈ serviceEvents tr, insertError? e = none)
    (h : Exec (resolveCase env (caseGraph env) request) tr out) :
    (∃ resp, out = .ok resp) ↔
      (isInjection env.db (redactPii env.db request.ticket) = true ∨
        (RecordsStorable env tr ∧ ∀ collector ∈ usages tr,
          Billable env specials (redactPii env.db request.ticket) tr collector)) := by
  have hok : (∃ resp, out = .ok resp) ↔ out.isOk = true := by
    cases out <;> simp [Except.isOk, Except.toBool]
  rw [hok]
  obtain ⟨started, hex, tr', hservice, hcase⟩ := exec_resolveCase h
  have hcommits' : ∀ e ∈ tr', Commits e := by
    intro e he
    apply hcommits
    rw [hservice]
    simp [he]
  have husages : usages tr = tr'.filterMap usage? := by
    rw [usages, hservice]
    rfl
  rcases hcase with ⟨reason, hscan, -, hrefuse⟩ | ⟨hscan, gout, hgraph, hfinish⟩
  · have hreturns := (proceeds_refuse _ _ _ _ _).returns_iff hrefuse hcommits'
    refine iff_of_true (hreturns.mpr trivial) (.inl ?_)
    rw [isInjection, hscan]
  · have hending := ending_of_exec rfl rfl hgraph
    obtain ⟨collector, hcollector, hout⟩ := exec_finish hfinish hcommits'
    rw [hout, tokenUsage_accepted_iff hspecials, replyCountable_iff hspecials hending,
      recordsStorable_iff hending, hscan, husages, hcollector, List.forall_mem_singleton]
    simp only [Bool.false_eq_true, false_or]
    exact and_comm

/-- An encoding of words, with the one special token of `cl100k_base` that ends a text. -/
def encodeWords (text : String) : Except Exc ℕ :=
  if "<|endoftext|>".toList <:+: text.toList then
    .error ⟨"ValueError", "Encountered text corresponding to disallowed special token"⟩
  else .ok (wordCount asciiData text.toList)

@[reducible] def tiktokenEnv : Env := ⟨asciiData, testSettings, 25, fun _ => some encodeWords⟩

private theorem encodeWords_isOk_iff (text : String) :
    (encodeWords text).isOk = true ↔ ¬ "<|endoftext|>".toList <:+: text.toList := by
  unfold encodeWords
  split
  · rename_i hspecial
    exact iff_of_false Bool.false_ne_true (not_not_intro hspecial)
  · rename_i hnone
    exact iff_of_true rfl hnone

private theorem tiktoken_encodeWords :
    Tiktoken tiktokenEnv.encodingFor fun _ => ["<|endoftext|>"] where
  nonempty model token htoken := by
    obtain rfl := List.mem_singleton.mp htoken
    decide
  encodes model encode hencode text := by
    obtain rfl := Option.some.inj hencode
    refine (encodeWords_isOk_iff text).trans (not_congr ?_)
    simp only [HasSpecial, List.mem_singleton, exists_eq_left]

def FakeLLM.estimated (llm : FakeLLM) : Run callSig Exc ResolveResponse Unit :=
  (resolveCase tiktokenEnv (caseGraph tiktokenEnv) whereIsMyOrder).run llm.handler ()

private theorem FakeLLM.exec_estimated (llm : FakeLLM) :
    Exec (resolveCase tiktokenEnv (caseGraph tiktokenEnv) whereIsMyOrder) llm.estimated.trace
      llm.estimated.out := exec_run llm.handler _ ()

private theorem FakeLLM.commits (llm : FakeLLM) :
    ∀ e ∈ serviceEvents llm.estimated.trace, insertError? e = none := by
  intro e he
  obtain ⟨e', he', hright⟩ := List.mem_filterMap.mp he
  have hcommits : ∀ e' ∈ llm.estimated.trace, ∀ e, Event.right? e' = some e →
      insertError? e = none := by
    refine run_forall ?_ _ _
    intro o s e hright
    cases o with
    | inl o => cases hright
    | inr o => cases o <;> · obtain rfl := Option.some.inj hright; rfl
  exact hcommits e' he' e hright

theorem answered_iff_order :
    (∃ resp, ({} : FakeLLM).estimated.out = .ok resp) ↔
      (isInjection asciiData (redactPii asciiData whereIsMyOrder.ticket) = true ∨
        (RecordsStorable tiktokenEnv ({} : FakeLLM).estimated.trace ∧
          ∀ collector ∈ usages ({} : FakeLLM).estimated.trace,
            Billable tiktokenEnv (fun _ => ["<|endoftext|>"])
              (redactPii asciiData whereIsMyOrder.ticket) ({} : FakeLLM).estimated.trace
              collector)) :=
  answered_iff tiktoken_encodeWords (FakeLLM.commits _) (FakeLLM.exec_estimated _)

def endingLLM : FakeLLM where
  draftText := .ok "Your order is on its way. <|endoftext|>"
  verdict := .ok ⟨false, some "Remove the token at the end."⟩

theorem estimate_raises :
    ∃ out, Exec (resolveCase tiktokenEnv (caseGraph tiktokenEnv) whereIsMyOrder)
        endingLLM.estimated.trace out ∧
      Tiktoken tiktokenEnv.encodingFor (fun _ => ["<|endoftext|>"]) ∧
      (∀ e ∈ serviceEvents endingLLM.estimated.trace, insertError? e = none) ∧
      ¬ ∃ resp, out = .ok resp := by
  refine ⟨_, endingLLM.exec_estimated, tiktoken_encodeWords, endingLLM.commits, ?_⟩
  rintro ⟨resp, hout⟩
  have hraised : endingLLM.estimated.out.isOk = false := by decide +kernel
  rw [hout] at hraised
  cases hraised

end TicketWarden.Service
