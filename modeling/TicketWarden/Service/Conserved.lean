/- Module: TicketWarden/Service/Conserved
   source: apps/api/src/service.py
   digest: Properties of the events of a call that hold however the call ends, proved of
   its parts and composed once. -/

import TicketWarden.Service.Spec

set_option autoImplicit false
set_option relaxedAutoImplicit false

namespace TicketWarden.Service

open TicketWarden.Graph Effects Guardrails Observability Python Storage

/-- A property of the events of a call that every part of the call has. The insert of an
audit row and the increment of its counter are one part. -/
structure Conserved (I : List ServiceEvent → Prop) (ticketId : String) : Prop where
  additive : Additive I
  perfCounter : ∀ now, I [⟨.perfCounter, now⟩]
  usage : ∀ collector, I [⟨.usage, collector⟩]
  traceUrl : ∀ url, I [⟨.traceUrl, url⟩]
  decision : ∀ decision, I [⟨.record (.cases decision), ()⟩]
  quiet : ∀ tr, Quiet tr → I tr
  ticket : ∀ row out, row.id = ticketId → I [⟨.insertTicket row, out⟩]
  withheld : ∀ detail, Satisfies (logSecurityEvent ticketId .outboundLeakBlocked detail) I
  toolCall : ∀ db call, Satisfies (persistToolCall db ticketId call) I

variable {I : List ServiceEvent → Prop} {ticketId : String}

theorem Conserved.persist (hI : Conserved I ticketId) (db : Runtime) (state : CaseState)
    (latencyMs costUsd : ℚ) : Satisfies (persist db state ticketId latencyMs costUsd) I := by
  refine satisfies_bind hI.additive ?_ fun _ =>
    satisfies_forM hI.additive fun call _ => hI.toolCall db call
  intro tr out h
  obtain rfl := exec_insertTicket_iff.mp h
  exact hI.ticket _ _ rfl

theorem Conserved.recordDecision (hI : Conserved I ticketId) (decision : String) :
    Satisfies (recordDecision decision) I := by
  intro tr out h
  obtain ⟨rfl, -⟩ := exec_record_iff.mp h
  exact hI.decision decision

theorem Conserved.recordCase (hI : Conserved I ticketId) (decision : String)
    (latencyMs costUsd : ℚ) (promptTokens completionTokens : ℤ) (llmCalls : ℕ) :
    Satisfies (recordCase decision latencyMs promptTokens completionTokens costUsd llmCalls)
      I := by
  intro tr out h
  obtain ⟨tr', rfl, hquiet⟩ := exec_recordCase h
  exact hI.additive.append (hI.decision decision) (hI.quiet tr' hquiet)

/-- What the parts of a finished call conserve, the whole does. -/
theorem Conserved.finish (hI : Conserved I ticketId) (env : Env) (started : ℚ)
    (redactedTicket : String) (final : CaseState) :
    Satisfies (finish env started ticketId redactedTicket final) I := by
  unfold Service.finish
  obtain ⟨final', reply, decision, withheld⟩ := outboundGate env.db final
  refine satisfies_bind hI.additive (satisfies_perform hI.traceUrl) fun _ => ?_
  refine satisfies_bind hI.additive ?_ fun _ => ?_
  · cases withheld with
    | none => exact satisfies_pure hI.additive _
    | some pattern => exact hI.withheld _
  refine satisfies_bind hI.additive (satisfies_perform hI.perfCounter) fun _ => ?_
  refine satisfies_bind hI.additive (satisfies_perform hI.usage) fun _ => ?_
  refine satisfies_bind hI.additive (satisfies_ofExcept hI.additive _) fun _ => ?_
  refine satisfies_bind hI.additive
    (fun _ _ h => hI.quiet _ (satisfies_recordTokenSource _ h)) fun _ => ?_
  refine satisfies_bind hI.additive (satisfies_ofExcept hI.additive _) fun _ => ?_
  refine satisfies_bind hI.additive (hI.persist _ _ _ _) fun _ => ?_
  exact satisfies_bind hI.additive (hI.recordCase _ _ _ _ _ _) fun _ =>
    satisfies_pure hI.additive _

theorem Conserved.refuse (hI : Conserved I ticketId)
    (hrefused : ∀ detail, Satisfies (logSecurityEvent ticketId .injectionRefused detail) I)
    (db : Runtime) (started : ℚ) (redactedTicket : String) (reason : Option String) :
    Satisfies (refuse db started ticketId redactedTicket reason) I := by
  refine satisfies_bind hI.additive (satisfies_perform hI.perfCounter) fun _ => ?_
  refine satisfies_bind hI.additive (hI.persist _ _ _ _) fun _ => ?_
  refine satisfies_bind hI.additive (hrefused _) fun _ => ?_
  refine satisfies_bind hI.additive (hI.recordDecision _) fun _ => ?_
  refine satisfies_bind hI.additive (fun _ _ h => hI.quiet _ (satisfies_recordLatency _ h))
    fun _ => ?_
  exact satisfies_pure hI.additive _

theorem satisfies_logSecurityEvent {eventType : SecurityEventType} {detail : Option String}
    (hfailed : ∀ exc, I [⟨.insertSecurityEvent ⟨ticketId, eventType.value, detail⟩, .error exc⟩])
    (hlogged : I [⟨.insertSecurityEvent ⟨ticketId, eventType.value, detail⟩, .ok ()⟩,
      ⟨.record (.securityEvents eventType.value), ()⟩]) :
    Satisfies (logSecurityEvent ticketId eventType detail) I := by
  intro tr out h
  rcases exec_bind_iff.mp h with ⟨exc, hinsert, -⟩ | ⟨_, tr₁, tr₂, rfl, hinsert, hrecord⟩
  · obtain rfl := exec_insertSecurityEvent_iff.mp hinsert
    exact hfailed exc
  · obtain rfl := exec_insertSecurityEvent_iff.mp hinsert
    obtain ⟨rfl, -⟩ := exec_record_iff.mp hrecord
    exact hlogged

theorem exec_persistToolCall {db : Runtime} {call : ToolRecord} {tr : List ServiceEvent}
    {out : Except Exc Unit} (h : Exec (persistToolCall db ticketId call) tr out) :
    tr = [] ∨ (∃ exc, tr = [⟨.insertToolCall (toolCallRow ticketId call), .error exc⟩]) ∨
      ∃ tr', tr = ⟨.insertToolCall (toolCallRow ticketId call), .ok ()⟩ ::
          ⟨.record (.toolCalls call.toolName call.status), ()⟩ :: tr' ∧
        ((call.status = ToolStatus.blocked.value ∧ Exec (logSecurityEvent ticketId .toolBlocked
            (some ("tool=" ++ call.toolName))) tr' out) ∨
          (call.status = ToolStatus.sanitized.value ∧ Exec (logSecurityEvent ticketId
            .toolOutputSanitized (some ("tool=" ++ call.toolName))) tr' out) ∨
          tr' = []) := by
  rcases exec_bind_iff.mp h with ⟨exc, hinsert, -⟩ | ⟨_, tr₁, tr₂, rfl, hinsert, hrest⟩
  · rcases exec_insertToolCall hinsert with ⟨-, rfl, -⟩ | ⟨-, rfl⟩
    · exact .inl rfl
    · exact .inr (.inl ⟨exc, rfl⟩)
  obtain rfl := exec_insertToolCall_ok hinsert
  rcases exec_bind_iff.mp hrest with ⟨exc, hrecord, -⟩ | ⟨_, tr₁, tr', rfl, hrecord, hevent⟩
  · obtain ⟨-, hout⟩ := exec_record_iff.mp hrecord
    cases hout
  obtain ⟨rfl, -⟩ := exec_record_iff.mp hrecord
  refine .inr (.inr ⟨tr', rfl, ?_⟩)
  by_cases hblocked : call.status = ToolStatus.blocked.value
  · rw [if_pos hblocked] at hevent
    exact .inl ⟨hblocked, hevent⟩
  rw [if_neg hblocked] at hevent
  by_cases hsanitized : call.status = ToolStatus.sanitized.value
  · rw [if_pos hsanitized] at hevent
    exact .inr (.inl ⟨hsanitized, hevent⟩)
  · rw [if_neg hsanitized] at hevent
    exact .inr (.inr (exec_pure_iff.mp hevent).1)

end TicketWarden.Service
