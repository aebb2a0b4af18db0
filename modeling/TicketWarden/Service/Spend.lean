/- Module: TicketWarden/Service/Spend
   source: apps/api/src/service.py, apps/api/src/observability/metrics.py
   digest: What the token, cost and call counters count of a request, and when. -/

import Mathlib.Data.Multiset.Filter
import TicketWarden.Service.Answered
import TicketWarden.Service.Lifetime

set_option autoImplicit false
set_option relaxedAutoImplicit false

namespace TicketWarden.Service

open TicketWarden.Graph Effects Guardrails Observability Python Storage Store

/-- Whether it is `TOKENS_TOTAL`, `COST_USD_TOTAL` or `LLM_CALLS_TOTAL`. -/
def Metric.isMeter : Metric → Bool
  | .tokens _ _ | .cost _ | .llmCalls _ => true
  | _ => false

/-- The cost by which `COST_USD_TOTAL` is incremented. -/
def Metric.cost? : Metric → Option ℚ
  | .cost usd => some usd
  | _ => none

def meter? (e : ServiceEvent) : Option Metric := (recorded? e).filter Metric.isMeter

/-- The increments of the three counters, in whatever order. -/
def metered (tr : List ServiceEvent) : Multiset Metric := tr.filterMap meter?

def costsOf (meters : Multiset Metric) : Multiset ℚ := meters.filterMap Metric.cost?

/-- The costs of some cases, without those that are zero. -/
def nonzeroCosts (rows : List TicketRow) : Multiset ℚ :=
  (rows.map TicketRow.costUsd).filter (· ≠ 0)

/-- The costs of the cases that some operations have committed. -/
def stored (tr : List ServiceEvent) : Multiset ℚ := nonzeroCosts (tr.filterMap ticketRow?)

@[simp] theorem metered_nil : metered [] = 0 := rfl

theorem metered_append (tr₁ tr₂ : List ServiceEvent) :
    metered (tr₁ ++ tr₂) = metered tr₁ + metered tr₂ := by
  rw [metered, List.filterMap_append, ← Multiset.coe_add, metered, metered]

private theorem metered_cons (e : ServiceEvent) (tr : List ServiceEvent) :
    metered (e :: tr) = metered [e] + metered tr := metered_append [e] tr

private theorem costsOf_add (meters meters' : Multiset Metric) :
    costsOf (meters + meters') = costsOf meters + costsOf meters' :=
  Multiset.filterMap_add _ _ _

private theorem nonzeroCosts_append (rows rows' : List TicketRow) :
    nonzeroCosts (rows ++ rows') = nonzeroCosts rows + nonzeroCosts rows' := by
  rw [nonzeroCosts, List.map_append, List.filter_append, ← Multiset.coe_add, nonzeroCosts,
    nonzeroCosts]

private theorem stored_append (tr₁ tr₂ : List ServiceEvent) :
    stored (tr₁ ++ tr₂) = stored tr₁ + stored tr₂ := by
  rw [stored, List.filterMap_append, nonzeroCosts_append, stored, stored]

def increment {α : Type} [DecidableEq α] [Zero α] (amount : α) (metric : Metric) :
    Multiset Metric :=
  if amount = 0 then 0 else {metric}

/-- What `resolve_case` increments the three counters by. -/
def billOf (promptTokens completionTokens : ℤ) (costUsd : ℚ) (llmCalls : ℕ) : Multiset Metric :=
  increment promptTokens (.tokens "prompt" promptTokens) +
    increment completionTokens (.tokens "completion" completionTokens) +
    increment costUsd (.cost costUsd) + increment llmCalls (.llmCalls llmCalls)

private theorem costsOf_increment {α : Type} [DecidableEq α] [Zero α] {amount : α} {metric : Metric}
    (h : metric.cost? = none) : costsOf (increment amount metric) = 0 := by
  unfold increment costsOf
  split
  · rfl
  · exact Multiset.filterMap_cons_none metric 0 h

private theorem costsOf_incrementCost (costUsd : ℚ) :
    costsOf (increment costUsd (.cost costUsd)) = if costUsd = 0 then 0 else {costUsd} := by
  unfold increment
  split
  · rfl
  · rfl

private theorem costsOf_billOf (promptTokens completionTokens : ℤ) (costUsd : ℚ) (llmCalls : ℕ) :
    costsOf (billOf promptTokens completionTokens costUsd llmCalls) =
      if costUsd = 0 then 0 else {costUsd} := by
  rw [billOf, costsOf_add, costsOf_add, costsOf_add, costsOf_incrementCost]
  rw [costsOf_increment rfl, costsOf_increment rfl, costsOf_increment rfl, zero_add, zero_add,
    add_zero]

private theorem nonzeroCosts_singleton (row : TicketRow) :
    nonzeroCosts [row] = if row.costUsd = 0 then 0 else {row.costUsd} := by
  unfold nonzeroCosts
  by_cases hzero : row.costUsd = 0
  · simp [hzero]
  · simp [hzero]

/-- Events that increment none of the counters and do not read the collector. -/
def Idle (tr : List ServiceEvent) : Prop := ∀ e ∈ tr, meter? e = none ∧ usage? e = none

private theorem additive_idle : Additive Idle := additive_forall _

theorem Idle.metered {tr : List ServiceEvent} (h : Idle tr) : metered tr = 0 := by
  rw [Service.metered, List.filterMap_eq_nil_iff.mpr fun e he => (h e he).1]
  rfl

theorem Idle.usage {tr : List ServiceEvent} (h : Idle tr) : tr.filterMap usage? = [] :=
  List.filterMap_eq_nil_iff.mpr fun e he => (h e he).2

private theorem idle_singleton {e : ServiceEvent} (hmeter : meter? e = none)
    (husage : usage? e = none) :
    Idle [e] := by
  intro e' he'
  obtain rfl := List.mem_singleton.mp he'
  exact ⟨hmeter, husage⟩

private theorem idle_perform {o : ServiceOp} (hmeter : ∀ r, meter? ⟨o, r⟩ = none)
    (husage : ∀ r, usage? ⟨o, r⟩ = none) : Satisfies (perform o) Idle :=
  satisfies_perform fun r => idle_singleton (hmeter r) (husage r)

private theorem idle_logSecurityEvent (ticketId : String) (eventType : SecurityEventType)
    (detail : Option String) : Satisfies (logSecurityEvent ticketId eventType detail) Idle := by
  refine satisfies_logSecurityEvent (fun _ => idle_singleton rfl rfl) ?_
  exact additive_idle.append (idle_singleton rfl rfl) (idle_singleton rfl rfl)

private theorem idle_persistToolCall (db : Runtime) (ticketId : String) (call : ToolRecord) :
    Satisfies (persistToolCall db ticketId call) Idle := by
  intro tr out h
  rcases exec_persistToolCall h with rfl | ⟨exc, rfl⟩ | ⟨tr', rfl, hevent⟩
  · exact additive_idle.nil
  · exact idle_singleton rfl rfl
  · have htail : Idle tr' := by
      rcases hevent with ⟨-, hlog⟩ | ⟨-, hlog⟩ | rfl
      · exact idle_logSecurityEvent _ _ _ hlog
      · exact idle_logSecurityEvent _ _ _ hlog
      · exact additive_idle.nil
    exact additive_idle.append (idle_singleton rfl rfl)
      (additive_idle.append (idle_singleton rfl rfl) htail)

private theorem exec_persist_idle {db : Runtime} {state : CaseState} {ticketId : String}
    {latencyMs costUsd : ℚ} {tr : List ServiceEvent} {out : Except Exc Unit}
    (h : Exec (persist db state ticketId latencyMs costUsd) tr out) :
    Idle tr ∧ (out = .ok () → (if costUsd = 0 then 0 else {costUsd}) ≤ stored tr) := by
  have hcalls : Satisfies (state.toolCalls.forM (persistToolCall db ticketId)) Idle :=
    satisfies_forM additive_idle fun call _ => idle_persistToolCall db ticketId call
  rcases exec_bind_iff.mp h with ⟨exc, hinsert, rfl⟩ | ⟨_, tr₁, tr₂, rfl, hinsert, hrest⟩
  · obtain rfl := exec_insertTicket_iff.mp hinsert
    exact ⟨idle_singleton rfl rfl, nofun⟩
  · obtain rfl := exec_insertTicket_iff.mp hinsert
    refine ⟨additive_idle.append (idle_singleton rfl rfl) (hcalls hrest), fun _ => ?_⟩
    rw [stored_append]
    refine le_trans (le_of_eq ?_) (Multiset.le_add_right _ _)
    exact (nonzeroCosts_singleton (ticketRow state ticketId latencyMs costUsd)).symm

private theorem idle_persist {db : Runtime} {state : CaseState} {ticketId : String}
    {latencyMs costUsd : ℚ} : Satisfies (persist db state ticketId latencyMs costUsd) Idle :=
  fun _ _ h => (exec_persist_idle h).1

private theorem idle_logWithheld (ticketId : String) (withheld : Option String) :
    Satisfies (logWithheld ticketId withheld) Idle := by
  cases withheld with
  | none => exact satisfies_pure additive_idle _
  | some pattern => exact idle_logSecurityEvent _ _ _

private theorem idle_refuse (db : Runtime) (started : ℚ) (ticketId redactedTicket : String)
    (reason : Option String) :
    Satisfies (refuse db started ticketId redactedTicket reason) Idle := by
  have hadd := additive_idle
  refine satisfies_bind hadd (idle_perform (fun _ => rfl) fun _ => rfl) fun _ => ?_
  refine satisfies_bind hadd idle_persist fun _ => ?_
  refine satisfies_bind hadd (idle_logSecurityEvent _ _ _) fun _ => ?_
  refine satisfies_bind hadd (idle_perform (fun _ => rfl) fun _ => rfl) fun _ => ?_
  refine satisfies_bind hadd (idle_perform (fun _ => rfl) fun _ => rfl) fun _ => ?_
  exact satisfies_pure hadd _

private theorem metered_record {metric : Metric} {tr : List ServiceEvent} {out : Except Exc Unit}
    (h : Exec (record metric) tr out) (hmetric : metric.isMeter = true) :
    metered tr = {metric} := by
  obtain ⟨rfl, -⟩ := exec_record_iff.mp h
  rw [metered, List.filterMap_cons_some (b := metric) (by simp [meter?, recorded?, hmetric])]
  rfl

private theorem exec_recordAmount {α : Type} [LinearOrder α] [Zero α] {amount : α} {metric : Metric}
    {tr : List ServiceEvent} {out : Except Exc Unit} (h : Exec (recordAmount amount metric) tr out)
    (hmetric : metric.isMeter = true) :
    (amount < 0 ∧ metered tr = 0 ∧ ∃ exc, out = .error exc) ∨
      (0 ≤ amount ∧ metered tr = increment amount metric ∧ out = .ok ()) := by
  unfold recordAmount at h
  split at h
  · rename_i hzero
    obtain ⟨rfl, rfl⟩ := exec_pure_iff.mp h
    exact .inr ⟨hzero.ge, by rw [increment, if_pos hzero, metered_nil], rfl⟩
  · rename_i hnonzero
    split at h
    · rename_i hnegative
      obtain ⟨rfl, rfl⟩ := exec_fail_iff.mp h
      exact .inl ⟨hnegative, metered_nil, _, rfl⟩
    · rename_i hpositive
      refine .inr ⟨not_lt.mp hpositive, ?_, (exec_record_iff.mp h).2⟩
      rw [increment, if_neg hnonzero, metered_record h hmetric]

/-- The increments that negative counts cut short. -/
def CutShort (promptTokens completionTokens : ℤ) (meters : Multiset Metric) : Prop :=
  (promptTokens < 0 ∧ meters = 0) ∨
    (0 ≤ promptTokens ∧ completionTokens < 0 ∧
      meters = increment promptTokens (.tokens "prompt" promptTokens))

private theorem CutShort.costsOf {promptTokens completionTokens : ℤ} {meters : Multiset Metric}
    (h : CutShort promptTokens completionTokens meters) : costsOf meters = 0 := by
  rcases h with ⟨-, rfl⟩ | ⟨-, -, rfl⟩
  · rfl
  · exact costsOf_increment rfl

private theorem exec_recordTokens {promptTokens completionTokens : ℤ} {tr : List ServiceEvent}
    {out : Except Exc Unit} (h : Exec (recordTokens promptTokens completionTokens) tr out) :
    (out = .ok () ∧ 0 ≤ promptTokens ∧ 0 ≤ completionTokens ∧
        metered tr = increment promptTokens (.tokens "prompt" promptTokens) +
          increment completionTokens (.tokens "completion" completionTokens)) ∨
      ((∃ exc, out = .error exc) ∧ CutShort promptTokens completionTokens (metered tr)) := by
  rcases exec_bind_iff.mp h with ⟨exc, hprompt, rfl⟩ | ⟨_, trp, trc, rfl, hprompt, hcompletion⟩
  · rcases exec_recordAmount hprompt rfl with ⟨hnegative, hnone, -⟩ | ⟨-, -, hout⟩
    · exact .inr ⟨⟨exc, rfl⟩, .inl ⟨hnegative, hnone⟩⟩
    · cases hout
  · rcases exec_recordAmount hprompt rfl with ⟨-, -, exc, hout⟩ | ⟨hpos, hsome, -⟩
    · cases hout
    rw [metered_append, hsome]
    rcases exec_recordAmount hcompletion rfl with ⟨hnegative, hnone, hout⟩ | ⟨hpos', hsome', hout⟩
    · exact .inr ⟨hout, .inr ⟨hpos, hnegative, by rw [hnone, add_zero]⟩⟩
    · exact .inl ⟨hout, hpos, hpos', by rw [hsome']⟩

private theorem exec_recordCase_metered {decision : String} {latencyMs costUsd : ℚ}
    {promptTokens completionTokens : ℤ} {llmCalls : ℕ} {tr : List ServiceEvent}
    {out : Except Exc Unit}
    (hcost : 0 ≤ promptTokens → 0 ≤ completionTokens → 0 ≤ costUsd)
    (h : Exec (recordCase decision latencyMs promptTokens completionTokens costUsd llmCalls)
      tr out) :
    (out = .ok () ∧ 0 ≤ promptTokens ∧ 0 ≤ completionTokens ∧
        metered tr = billOf promptTokens completionTokens costUsd llmCalls) ∨
      ((∃ exc, out = .error exc) ∧ CutShort promptTokens completionTokens (metered tr)) := by
  obtain ⟨-, tr₁, rfl, h₁⟩ := exec_perform_bind_iff.mp h
  obtain ⟨-, tr₂, rfl, h₂⟩ := exec_perform_bind_iff.mp h₁
  have hhead : metered (⟨.record (.cases decision), ()⟩ ::
      ⟨.record (.latency (latencyMs / 1000)), ()⟩ :: tr₂) = metered tr₂ := rfl
  rw [hhead]
  rcases exec_bind_iff.mp h₂ with ⟨exc, htokens, rfl⟩ | ⟨_, trt, tr₃, rfl, htokens, h₃⟩
  · rcases exec_recordTokens htokens with ⟨hout, -⟩ | ⟨-, hcut⟩
    · cases hout
    · exact .inr ⟨⟨exc, rfl⟩, hcut⟩
  · rcases exec_recordTokens htokens with ⟨-, hprompt, hcompletion, hsome⟩ | ⟨⟨exc, hout⟩, -⟩
    swap
    · cases hout
    have hpositive := hcost hprompt hcompletion
    rcases exec_bind_iff.mp h₃ with ⟨exc, husd, -⟩ | ⟨_, tru, tra, rfl, husd, hcalls⟩
    · rcases exec_recordAmount husd rfl with ⟨hnegative, -⟩ | ⟨-, -, hout⟩
      · exact absurd hpositive (not_le.mpr hnegative)
      · cases hout
    · rcases exec_recordAmount husd rfl with ⟨hnegative, -⟩ | ⟨-, husdSome, -⟩
      · exact absurd hpositive (not_le.mpr hnegative)
      rcases exec_recordAmount hcalls rfl with ⟨hnegative, -⟩ | ⟨-, hcallsSome, hout⟩
      · exact absurd hnegative (Nat.not_lt_zero _)
      refine .inl ⟨hout, hprompt, hcompletion, ?_⟩
      rw [metered_append, metered_append, hsome, husdSome, hcallsSome, billOf, ← add_assoc]

/-- What a case that was not refused is metered for, given what its collector has said. -/
inductive Charged (env : Env) (collector : UsageCollector) (redactedTicket : String) :
    Except Exc ResolveResponse → Multiset Metric → Prop
  | dropped (exc : Exc) : Charged env collector redactedTicket (.error exc) 0
  | cutShort (exc : Exc) (meters : Multiset Metric) :
      CutShort collector.promptTokens collector.completionTokens meters →
      Charged env collector redactedTicket (.error exc) meters
  | billed (resp : ResolveResponse) (promptTokens completionTokens : ℤ) (source : String) :
      tokenUsage env collector redactedTicket resp.reply =
        .ok (promptTokens, completionTokens, source) →
      Accepted promptTokens → Accepted completionTokens →
      resp.costUsd = estimateCost promptTokens completionTokens env.settings.llmModel
        env.settings.llmProvider →
      Charged env collector redactedTicket (.ok resp)
        (billOf promptTokens completionTokens resp.costUsd collector.llmCalls)

private theorem reported_of_negative {env : Env} {collector : UsageCollector}
    {redactedTicket : String}
    {reply : Option String} {promptTokens completionTokens : ℤ} {source : String}
    (h : tokenUsage env collector redactedTicket reply =
      .ok (promptTokens, completionTokens, source))
    (hnegative : promptTokens < 0 ∨ completionTokens < 0) :
    promptTokens = collector.promptTokens ∧ completionTokens = collector.completionTokens := by
  unfold tokenUsage at h
  split at h
  · cases h
    exact ⟨rfl, rfl⟩
  · cases hp : countTokens env.db env.encodingFor redactedTicket env.settings.llmModel with
    | error exc =>
      rw [hp] at h
      cases h
    | ok p =>
      cases hc : countTokens env.db env.encodingFor (reply.getD "") env.settings.llmModel with
      | error exc =>
        rw [hp, hc] at h
        cases h
      | ok c =>
        rw [hp, hc] at h
        cases h
        omega

theorem CutShort.negative {promptTokens completionTokens : ℤ} {meters : Multiset Metric}
    (h : CutShort promptTokens completionTokens meters) :
    promptTokens < 0 ∨ completionTokens < 0 := by
  rcases h with ⟨hprompt, -⟩ | ⟨-, hcompletion, -⟩
  · exact .inl hprompt
  · exact .inr hcompletion

private theorem exec_stored_metered {env : Env} {collector : UsageCollector}
    {redactedTicket : String}
    {state : CaseState} {ticketId decision source : String} {latencyMs latencyMs' costUsd : ℚ}
    {promptTokens completionTokens : ℤ} {resp : ResolveResponse} {tr : List ServiceEvent}
    {out : Except Exc ResolveResponse}
    (htokens : tokenUsage env collector redactedTicket resp.reply =
      .ok (promptTokens, completionTokens, source))
    (hcost : estimateCostOfInts promptTokens completionTokens env.settings.llmModel
      env.settings.llmProvider = .ok costUsd)
    (h : Exec (do
      persist env.db state ticketId latencyMs costUsd
      recordCase decision latencyMs' promptTokens completionTokens costUsd collector.llmCalls
      pure resp) tr out) (hresp : resp.costUsd = costUsd) :
    tr.filterMap usage? = [] ∧ Charged env collector redactedTicket out (metered tr) := by
  subst hresp
  obtain ⟨⟨hprange, hcrange⟩, hprice⟩ := estimateCostOfInts_eq_ok_iff.mp hcost
  have hpositive : 0 ≤ promptTokens → 0 ≤ completionTokens → 0 ≤ resp.costUsd := by
    intro hprompt hcompletion
    rw [hprice]
    exact estimateCost_nonneg hprompt hcompletion _ _
  have hcut : ∀ {meters : Multiset Metric}, CutShort promptTokens completionTokens meters →
      CutShort collector.promptTokens collector.completionTokens meters := by
    intro meters hcut
    obtain ⟨hprompt, hcompletion⟩ := reported_of_negative htokens hcut.negative
    rwa [hprompt, hcompletion] at hcut
  have hrecorded : Satisfies (recordCase decision latencyMs' promptTokens completionTokens
      resp.costUsd collector.llmCalls) fun tr => tr.filterMap usage? = [] := by
    intro tr out h
    obtain ⟨tr', rfl, hquiet⟩ := exec_recordCase h
    refine List.filterMap_eq_nil_iff.mpr (List.forall_mem_cons.mpr ⟨rfl, fun e he => ?_⟩)
    obtain ⟨metric, -, rfl⟩ := hquiet e he
    rfl
  rcases exec_bind_iff.mp h with ⟨exc, hpersist, rfl⟩ | ⟨_, trp, tr', rfl, hpersist, hrest⟩
  · have hidle := idle_persist hpersist
    rw [hidle.metered]
    exact ⟨hidle.usage, .dropped exc⟩
  have hidle := idle_persist hpersist
  rw [List.filterMap_append, hidle.usage, metered_append, hidle.metered, zero_add]
  rcases exec_bind_iff.mp hrest with ⟨exc, hcase, rfl⟩ | ⟨_, trc, tr₂, rfl, hcase, hpure⟩
  · refine ⟨hrecorded hcase, ?_⟩
    rcases exec_recordCase_metered hpositive hcase with ⟨hout, -⟩ | ⟨-, hshort⟩
    · cases hout
    · exact .cutShort exc _ (hcut hshort)
  · obtain ⟨rfl, rfl⟩ := exec_pure_iff.mp hpure
    rw [List.append_nil]
    refine ⟨hrecorded hcase, ?_⟩
    rcases exec_recordCase_metered hpositive hcase with ⟨-, hp, hc, hbill⟩ | ⟨⟨exc, hout⟩, -⟩
    · rw [hbill]
      exact .billed resp promptTokens completionTokens source htokens ⟨hp, hprange⟩ ⟨hc, hcrange⟩
        hprice
    · cases hout

private theorem exec_finish_metered {env : Env} {started : ℚ} {ticketId redactedTicket : String}
    {final : CaseState} {tr : List ServiceEvent} {out : Except Exc ResolveResponse}
    (h : Exec (finish env started ticketId redactedTicket final) tr out) :
    (tr.filterMap usage? = [] ∧ metered tr = 0 ∧ ∃ exc, out = .error exc) ∨
      ∃ collector, tr.filterMap usage? = [collector] ∧
        Charged env collector redactedTicket out (metered tr) := by
  obtain ⟨traceUrl, tr₁, rfl, h₁⟩ := exec_perform_bind_iff.mp h
  rcases hgated : outboundGate env.db final with ⟨final', reply, decision, withheld⟩
  rw [hgated] at h₁
  rcases exec_bind_iff.mp h₁ with ⟨exc, hwithheld, rfl⟩ | ⟨_, trw, tr₂, rfl, hwithheld, h₂⟩
  · have hidle := idle_logWithheld _ _ hwithheld
    exact .inl ⟨hidle.usage, hidle.metered, exc, rfl⟩
  have hidle := idle_logWithheld _ _ hwithheld
  obtain ⟨now, tr₃, rfl, h₃⟩ := exec_perform_bind_iff.mp h₂
  obtain ⟨collector, tr₄, rfl, h₄⟩ := exec_perform_bind_iff.mp h₃
  suffices hrest : tr₄.filterMap usage? = [] ∧
      Charged env collector redactedTicket out (metered tr₄) by
    refine .inr ⟨collector, ?_, ?_⟩
    · simp only [List.filterMap_cons, List.filterMap_append, usage?, hidle.usage, hrest.1,
        List.nil_append]
    · have hmetered : metered (⟨.traceUrl, traceUrl⟩ ::
          (trw ++ ⟨.perfCounter, now⟩ :: ⟨.usage, collector⟩ :: tr₄)) = metered tr₄ := by
        rw [metered_cons, metered_append, hidle.metered, zero_add]
        exact zero_add _
      rw [hmetered]
      exact hrest.2
  rcases exec_bind_iff.mp h₄ with
    ⟨exc, htokens, rfl⟩ | ⟨⟨promptTokens, completionTokens, source⟩, tru, tr₅, rfl, htokens, h₅⟩
  · obtain ⟨rfl, -⟩ := exec_ofExcept_iff.mp htokens
    exact ⟨rfl, .dropped exc⟩
  obtain ⟨rfl, hcounts⟩ := exec_ofExcept_iff.mp htokens
  obtain ⟨-, tr₆, rfl, h₆⟩ := exec_perform_bind_iff.mp h₅
  rcases exec_bind_iff.mp h₆ with ⟨exc, hcost, rfl⟩ | ⟨costUsd, trc, tr₇, rfl, hcost, h₇⟩
  · obtain ⟨rfl, -⟩ := exec_ofExcept_iff.mp hcost
    exact ⟨rfl, .dropped exc⟩
  obtain ⟨rfl, hprice⟩ := exec_ofExcept_iff.mp hcost
  obtain ⟨hread, hcharged⟩ := exec_stored_metered hcounts.symm hprice.symm h₇ rfl
  exact ⟨hread, hcharged⟩

/-- At every moment only stored costs have been metered. -/
def Covered (tr : List ServiceEvent) : Prop :=
  ∀ p, p <+: tr → costsOf (metered p) ≤ stored p

private theorem additive_covered : Additive Covered where
  nil p hp := by
    rw [List.prefix_nil.mp hp]
    exact le_refl _
  append := by
    rintro tr₁ tr₂ h₁ h₂ p ⟨s, hs⟩
    rcases List.append_eq_append_iff.mp hs with ⟨q, rfl, -⟩ | ⟨q, rfl, rfl⟩
    · exact h₁ p (List.prefix_append p q)
    · rw [metered_append, stored_append, costsOf_add]
      exact add_le_add (h₁ tr₁ (List.prefix_refl tr₁)) (h₂ q (List.prefix_append q s))

private theorem covered_of_unmetered {tr : List ServiceEvent} (h : ∀ e ∈ tr, meter? e = none) :
    Covered tr := by
  intro p hp
  have hnone : metered p = 0 := by
    rw [metered, List.filterMap_eq_nil_iff.mpr fun e he => h e (hp.subset he)]
    rfl
  rw [hnone]
  exact Multiset.zero_le _

private theorem Idle.covered {tr : List ServiceEvent} (h : Idle tr) : Covered tr :=
  covered_of_unmetered fun e he => (h e he).1

private theorem covered_stored {tr₁ tr₂ : List ServiceEvent} {costs : Multiset ℚ} (h₁ : Idle tr₁)
    (hstored : costs ≤ stored tr₁) (hmetered : costsOf (metered tr₂) ≤ costs) :
    Covered (tr₁ ++ tr₂) := by
  rintro p ⟨s, hs⟩
  rcases List.append_eq_append_iff.mp hs with ⟨q, rfl, -⟩ | ⟨q, rfl, rfl⟩
  · exact h₁.covered p (List.prefix_append p q)
  · rw [metered_append, stored_append, h₁.metered, zero_add]
    calc costsOf (metered q) ≤ costsOf (metered (q ++ s)) := by
          rw [metered_append, costsOf_add]
          exact Multiset.le_add_right _ _
      _ ≤ costs := hmetered
      _ ≤ stored tr₁ := hstored
      _ ≤ stored tr₁ + stored q := Multiset.le_add_right _ _

private theorem costsOf_recordCase {decision : String} {latencyMs costUsd : ℚ}
    {promptTokens completionTokens : ℤ} {llmCalls : ℕ} {tr : List ServiceEvent}
    {out : Except Exc Unit}
    (hcost : 0 ≤ promptTokens → 0 ≤ completionTokens → 0 ≤ costUsd)
    (h : Exec (recordCase decision latencyMs promptTokens completionTokens costUsd llmCalls)
      tr out) :
    costsOf (metered tr) ≤ if costUsd = 0 then 0 else {costUsd} := by
  rcases exec_recordCase_metered hcost h with ⟨-, -, -, hbill⟩ | ⟨-, hcut⟩
  · rw [hbill, costsOf_billOf]
  · rw [hcut.costsOf]
    exact Multiset.zero_le _

private theorem covered_finish (env : Env) (started : ℚ) (ticketId redactedTicket : String)
    (final : CaseState) :
    Satisfies (finish env started ticketId redactedTicket final) Covered := by
  have hidle : ∀ {α : Type} {p : ServiceProgram α}, Satisfies p Idle → Satisfies p Covered :=
    fun hp _ _ h => (hp h).covered
  have hquiet : ∀ {o : ServiceOp}, (∀ r, meter? ⟨o, r⟩ = none) →
      Satisfies (perform o) Covered := by
    intro o ho
    refine satisfies_perform fun r => covered_of_unmetered fun e he => ?_
    obtain rfl := List.mem_singleton.mp he
    exact ho r
  have hadd := additive_covered
  unfold finish
  obtain ⟨final', reply, decision, withheld⟩ := outboundGate env.db final
  refine satisfies_bind hadd (hquiet fun _ => rfl) fun _ => ?_
  refine satisfies_bind hadd (hidle (idle_logWithheld _ _)) fun _ => ?_
  refine satisfies_bind hadd (hquiet fun _ => rfl) fun _ => ?_
  refine satisfies_bind hadd (hquiet fun _ => rfl) fun collector => ?_
  refine satisfies_bind hadd (satisfies_ofExcept hadd _) fun usage => ?_
  obtain ⟨promptTokens, completionTokens, source⟩ := usage
  refine satisfies_bind hadd (hquiet fun _ => rfl) fun _ => ?_
  intro tr out h
  rcases exec_bind_iff.mp h with ⟨exc, hcost, -⟩ | ⟨costUsd, trc, tr', rfl, hcost, h'⟩
  · obtain ⟨rfl, -⟩ := exec_ofExcept_iff.mp hcost
    exact hadd.nil
  obtain ⟨rfl, hok⟩ := exec_ofExcept_iff.mp hcost
  obtain ⟨-, rfl⟩ := estimateCostOfInts_eq_ok_iff.mp hok.symm
  rcases exec_bind_iff.mp h' with ⟨exc, hpersist, -⟩ | ⟨_, tr₁, tr₂, rfl, hpersist, hrest⟩
  · exact (idle_persist hpersist).covered
  · obtain ⟨hstored, hle⟩ := exec_persist_idle hpersist
    rw [List.nil_append]
    refine covered_stored hstored (hle rfl) ?_
    have hpositive : 0 ≤ promptTokens → 0 ≤ completionTokens →
        0 ≤ estimateCost promptTokens completionTokens env.settings.llmModel
          env.settings.llmProvider := fun hp hc => estimateCost_nonneg hp hc _ _
    rcases exec_bind_iff.mp hrest with ⟨exc, hcase, -⟩ | ⟨_, tr₃, tr₄, rfl, hcase, hpure⟩
    · exact costsOf_recordCase hpositive hcase
    · obtain ⟨rfl, -⟩ := exec_pure_iff.mp hpure
      rw [List.append_nil]
      exact costsOf_recordCase hpositive hcase

section Calls

variable {env : Env} {graph : CaseState → GraphProgram CaseState} {request : ResolveRequest env.db}
  {tr : List CallEvent} {out : Except Exc ResolveResponse}

private theorem covered_resolveCase (h : Exec (resolveCase env graph request) tr out) :
    Covered (serviceEvents tr) := by
  obtain ⟨started, hex, tr', hservice, hcase⟩ := exec_resolveCase h
  have hhead : Covered [⟨.perfCounter, started⟩, ⟨.uuidHex, hex⟩] := by
    refine covered_of_unmetered fun e he => ?_
    rcases List.mem_pair.mp he with rfl | rfl
    · rfl
    · rfl
  have hrest : Covered tr' := by
    rcases hcase with ⟨reason, -, -, hrefuse⟩ | ⟨-, gout, -, hfinish⟩
    · exact (idle_refuse _ _ _ _ _ hrefuse).covered
    · exact covered_finish _ _ _ _ _ hfinish
  rw [hservice]
  exact additive_covered.append hhead hrest

/-- How a call is metered: a refused one is not, nor is one that raises before it has read its
collector. -/
inductive Metered (env : Env) (request : ResolveRequest env.db) (tr : List CallEvent) :
    Except Exc ResolveResponse → Prop
  | refused (out : Except Exc ResolveResponse) :
      isInjection env.db (redactPii env.db request.ticket) = true → graphEvents tr = [] →
      usages tr = [] → metered (serviceEvents tr) = 0 →
      (∀ resp, out = .ok resp → resp.costUsd = 0) →
      Metered env request tr out
  | unread (exc : Exc) : usages tr = [] → metered (serviceEvents tr) = 0 →
      Metered env request tr (.error exc)
  | read (out : Except Exc ResolveResponse) (collector : UsageCollector) :
      isInjection env.db (redactPii env.db request.ticket) = false → usages tr = [collector] →
      Charged env collector (redactPii env.db request.ticket) out (metered (serviceEvents tr)) →
      Metered env request tr out

theorem metered_of_exec (h : Exec (resolveCase env graph request) tr out) :
    Metered env request tr out := by
  obtain ⟨started, hex, tr', hservice, hcase⟩ := exec_resolveCase h
  have hmetered : metered (serviceEvents tr) = metered tr' := by
    rw [hservice]
    rfl
  have hread : usages tr = tr'.filterMap usage? := by
    rw [usages, hservice]
    rfl
  rcases hcase with ⟨reason, hscan, hgraph, hrefuse⟩ | ⟨hscan, gout, -, hfinish⟩
  · have hidle := idle_refuse _ _ _ _ _ hrefuse
    refine .refused out (by rw [isInjection, hscan]) hgraph (hread.trans hidle.usage)
      (hmetered.trans hidle.metered) fun resp hout => ?_
    subst hout
    obtain ⟨latencyMs, -, rfl⟩ := exec_refuse_ok hrefuse
    rfl
  · rcases exec_finish_metered hfinish with ⟨hnone, hzero, exc, rfl⟩ | ⟨collector, hone, hcharged⟩
    · exact .unread exc (hread.trans hnone) (hmetered.trans hzero)
    · refine .read out collector hscan (hread.trans hone) ?_
      rw [hmetered]
      exact hcharged

private theorem Metered.costs {resp : ResolveResponse} (h : Metered env request tr (.ok resp)) :
    costsOf (metered (serviceEvents tr)) =
      if resp.costUsd = 0 then 0 else {resp.costUsd} := by
  cases h with
  | refused _ _ _ _ hzero hcost =>
    rw [hzero, if_pos (hcost resp rfl)]
    rfl
  | read _ collector _ _ hcharged =>
    generalize metered (serviceEvents tr) = meters at hcharged ⊢
    cases hcharged with
    | billed resp promptTokens completionTokens source _ _ _ _ => exact costsOf_billOf _ _ _ _

end Calls

section Server

variable {G ι : Type} [DecidableEq ι] [Fintype ι] {env : Env}
  {invoke : G → CaseState → GraphProgram CaseState} {request : ι → ResolveRequest env.db}
  {tool : Shop → String → Dict → Except Exc Json} {s s' : Server G}
  {tr : List (ι × RouteEvent G)}
  {pool' : ι → Program (routeSig G) Exc (Except HttpError ResolveResponse)}

/-- The increments of the cost counter of a server that answers some requests. -/
def spent (tr : List (ι × RouteEvent G)) : Multiset ℚ :=
  costsOf (metered (serviceEvents ((caseTrace tr).map Prod.snd)))

private theorem spent_eq (tr : List (ι × RouteEvent G)) :
    spent tr = ∑ i, costsOf (metered (serviceEvents (callEvents (ownTrace i tr)))) := by
  rw [spent, ← sum_ownTrace (fun tr => costsOf (metered (serviceEvents tr))) rfl]
  · simp only [ownTrace_caseTrace]
  · intro tr₁ tr₂
    rw [serviceEvents_append, metered_append, costsOf_add]

/-- Whatever requests are answered at once, wherever they are and however they end, the increments
of the cost counter are among the costs of the cases that the database has grown by; and once
every request has been answered with a response they are all of those that are not zero. -/
theorem spent_le_stored (hrun : Interleaves (fun i => resolve env invoke (request i)) tr pool')
    (hworld : World.Runs (ServerStep tool) s (tr.map Prod.snd) s')
    (hfresh : FreshIds s.file.contents (caseTrace tr)) :
    ∃ rows : List TicketRow,
      s'.file.contents.tickets = s.file.contents.tickets ++ rows ∧
      spent tr ≤ nonzeroCosts rows ∧
      ((∀ i, ∃ resp, (pool' i).outcome = some (.ok (.ok resp))) →
        spent tr = nonzeroCosts rows) := by
  obtain ⟨ws, hws, hfile⟩ := served_file hworld
  have hstored : nonzeroCosts ((writes ((caseTrace tr).map Prod.snd)).filterMap Write.ticket?) =
      ∑ i, stored (serviceEvents (callEvents (ownTrace i tr))) := by
    rw [ticketRows_eq]
    show stored _ = _
    rw [← sum_ownTrace (fun tr => stored (serviceEvents tr)) rfl]
    · simp only [ownTrace_caseTrace]
    · intro tr₁ tr₂
      rw [serviceEvents_append, stored_append]
  refine ⟨(writes ((caseTrace tr).map Prod.snd)).filterMap Write.ticket?, ?_, ?_, fun hall => ?_⟩
  · rw [hfile, DatabaseFile.contents_replay, hws,
      replay_tickets_run (resolving_of_interleaves hrun) hfresh]
  · rw [hstored, spent_eq]
    refine Finset.sum_le_sum fun i _ => ?_
    obtain ⟨source, rest, out, hcase, -⟩ := exists_answer hrun i
    refine covered_resolveCase hcase _ ?_
    rw [ownTrace_caseTrace, serviceEvents_append]
    exact List.prefix_append _ _
  · rw [hstored, spent_eq]
    refine Finset.sum_congr rfl fun i _ => ?_
    obtain ⟨resp, hout⟩ := hall i
    obtain ⟨source, out', -, hcase, hanswer⟩ := route_refines ((hrun.steps i).exec hout)
    obtain rfl : out' = .ok resp := by
      cases out' with
      | error exc => cases hanswer
      | ok resp' => cases hanswer; rfl
    obtain ⟨row, hrow, hmatches⟩ := (returned_of_exec hcase).ticketRow
    rw [(metered_of_exec hcase).costs, stored, ← ticketRows_eq, hrow, nonzeroCosts_singleton,
      hmatches.costUsd]

end Server

theorem spent_le_stored_serve :
    let tr := (serve (.ok ()) [false, true]).1
    ∃ rows : List TicketRow,
      (serve (.ok ()) [false, true]).2.file.contents.tickets = rows ∧
        spent tr ≤ nonzeroCosts rows := by
  intro tr
  obtain ⟨pool', hrun, -⟩ := interleaves_serve (.ok ()) [false, true]
  obtain ⟨rows, hrows, hle, -⟩ := spent_le_stored hrun (runs_serve _ _) freshIds_serve
  exact ⟨rows, hrows, hle⟩

end TicketWarden.Service
