/- Module: TicketWarden/Service/Ownership
   source: apps/api/src/service.py, apps/api/src/storage/repo.py
   digest: Whose rows the rows of a run are, at any moment of it, and what the rows of one
   request tell of each other. -/

import TicketWarden.Service.Simulation

set_option autoImplicit false
set_option relaxedAutoImplicit false

namespace TicketWarden.Service

open TicketWarden.Graph Effects Guardrails Observability Python Storage

def showsTicket (e : ServiceEvent) : Bool := ((written? e).bind Write.ticket?).isSome

def showsToolCall (e : ServiceEvent) : Bool := ((written? e).bind Write.toolCall?).isSome

abbrev TicketFirst : List ServiceEvent → Prop := Led showsToolCall showsTicket

private theorem ticketFirst_singleton {e : ServiceEvent} (h : showsToolCall e = false) :
    TicketFirst [e] :=
  led_of_none fun e' he' => by rwa [List.mem_singleton.mp he']

private theorem ticketFirst_logSecurityEvent (ticketId : String) (eventType : SecurityEventType)
    (detail : Option String) :
    Satisfies (logSecurityEvent ticketId eventType detail) TicketFirst := by
  refine satisfies_logSecurityEvent (fun exc => ticketFirst_singleton rfl) ?_
  refine led_of_none fun e he => ?_
  rcases List.mem_pair.mp he with rfl | rfl <;> rfl

section Persist

variable {db : Runtime} {state : CaseState} {ticketId : String} {latencyMs costUsd : ℚ}

private theorem ticketFirst_persist :
    Satisfies (persist db state ticketId latencyMs costUsd) TicketFirst := by
  refine satisfies_led_bind (fun tr out h => ?_) fun tr u h => ?_
  · obtain rfl := exec_insertTicket_iff.mp h
    exact ticketFirst_singleton (by cases out <;> rfl)
  · obtain rfl := exec_insertTicket_iff.mp h
    exact ⟨_, List.mem_singleton_self _, rfl⟩

private theorem ticketFirst_persist_bind {α : Type} {k : Unit → ServiceProgram α} :
    Satisfies (persist db state ticketId latencyMs costUsd >>= k) TicketFirst := by
  refine satisfies_led_bind ticketFirst_persist fun tr u h => ?_
  obtain ⟨_, tr₁, tr₂, rfl, hinsert, -⟩ := exec_bind_ok_iff.mp h
  obtain rfl := exec_insertTicket_iff.mp hinsert
  exact ⟨_, List.mem_append_left _ (List.mem_singleton_self _), rfl⟩

end Persist

private theorem ticketFirst_refuse (db : Runtime) (started : ℚ) (ticketId redactedTicket : String)
    (reason : Option String) :
    Satisfies (refuse db started ticketId redactedTicket reason) TicketFirst :=
  satisfies_bind (additive_led _ _) (satisfies_perform fun _ => ticketFirst_singleton rfl)
    fun _ => ticketFirst_persist_bind

private theorem ticketFirst_finish (env : Env) (started : ℚ) (ticketId redactedTicket : String)
    (final : CaseState) :
    Satisfies (finish env started ticketId redactedTicket final) TicketFirst := by
  have hadd := additive_led showsToolCall showsTicket
  unfold finish
  obtain ⟨final', reply, decision, withheld⟩ := outboundGate env.db final
  refine satisfies_bind hadd (satisfies_perform fun _ => ticketFirst_singleton rfl) fun _ => ?_
  refine satisfies_bind hadd ?_ fun _ => ?_
  · cases withheld with
    | none => exact satisfies_pure hadd _
    | some pattern => exact ticketFirst_logSecurityEvent _ _ _
  refine satisfies_bind hadd (satisfies_perform fun _ => ticketFirst_singleton rfl) fun _ => ?_
  refine satisfies_bind hadd (satisfies_perform fun _ => ticketFirst_singleton rfl) fun _ => ?_
  refine satisfies_bind hadd (satisfies_ofExcept hadd _) fun _ => ?_
  refine satisfies_bind hadd (satisfies_perform fun _ => ticketFirst_singleton rfl) fun _ => ?_
  refine satisfies_bind hadd (satisfies_ofExcept hadd _) fun _ => ?_
  exact ticketFirst_persist_bind

private theorem ticketFirst_resolveCase {env : Env} {graph : CaseState → GraphProgram CaseState}
    {request : ResolveRequest env.db} {tr : List CallEvent} {out : Except Exc ResolveResponse}
    (h : Exec (resolveCase env graph request) tr out) : TicketFirst (serviceEvents tr) := by
  obtain ⟨started, hex, tr', hservice, hcase⟩ := exec_resolveCase h
  have hhead : TicketFirst [⟨.perfCounter, started⟩, ⟨.uuidHex, hex⟩] := by
    refine led_of_none fun e he => ?_
    rcases List.mem_pair.mp he with rfl | rfl <;> rfl
  have hrest : TicketFirst tr' := by
    rcases hcase with ⟨reason, -, -, hrefuse⟩ | ⟨-, gout, -, hfinish⟩
    · exact ticketFirst_refuse _ _ _ _ _ hrefuse
    · exact ticketFirst_finish _ _ _ _ _ hfinish
  rw [hservice]
  exact (additive_led _ _).append hhead hrest

namespace Resolving

variable {ι : Type} [DecidableEq ι] {env : Env} {request : ι → ResolveRequest env.db}
  {tr : List (ι × CallEvent)} {db : Database}

/-- At any moment all rows of a request carry one id that it has drawn. -/
theorem owned (h : Resolving request tr) (i : ι) :
    ∃ ticketId, ∀ w ∈ writes (ownTrace i tr),
      rowTicketId w = ticketId ∧ ticketId ∈ drawnIds (ownTrace i tr) := by
  obtain ⟨graph, rest, out, hexec⟩ := h i
  refine ownedBy_of_prefix hexec ?_
  rw [serviceEvents_append]
  exact List.prefix_append _ _

theorem mem_writes {w : Write} :
    w ∈ writes (tr.map Prod.snd) ↔ ∃ i, w ∈ writes (ownTrace i tr) := by
  simp only [writes_eq, List.mem_filterMap, List.mem_map, mem_ownTrace]
  constructor
  · rintro ⟨e, ⟨⟨i, e⟩, he, rfl⟩, hw⟩
    exact ⟨i, e, he, hw⟩
  · rintro ⟨i, e, he, hw⟩
    exact ⟨e, ⟨⟨i, e⟩, he, rfl⟩, hw⟩

theorem same_owner (h : Resolving request tr) (hfresh : FreshIds db tr) {i j : ι} {w w' : Write}
    (hw : w ∈ writes (ownTrace i tr)) (hw' : w' ∈ writes (ownTrace j tr))
    (hsame : rowTicketId w = rowTicketId w') : i = j := by
  by_contra hij
  obtain ⟨ticketId, hown⟩ := h.owned i
  obtain ⟨ticketId', hown'⟩ := h.owned j
  refine hfresh.distinct i j hij ticketId (hown w hw).2 ?_
  rw [← (hown w hw).1, hsame, (hown' w' hw').1]
  exact (hown' w' hw').2

theorem countP_ofTicket (h : Resolving request tr) (hfresh : FreshIds db tr) {i : ι} {w : Write}
    (hw : w ∈ writes (ownTrace i tr)) (f : Write → Bool) :
    (writes (tr.map Prod.snd)).countP (ofTicket f (rowTicketId w)) =
      (writes (ownTrace i tr)).countP f := by
  obtain ⟨ticketId, hown⟩ := h.owned i
  have hall : (writes (ownTrace i tr)).countP f =
      (writes (ownTrace i tr)).countP (ofTicket f (rowTicketId w)) :=
    List.countP_congr fun w' hw' => by simp [ofTicket, (hown w' hw').1, (hown w hw).1]
  rw [hall, writes_eq, writes_eq, List.countP_filterMap, List.countP_filterMap]
  refine countP_ownTrace ?_
  rintro ⟨j, e⟩ he hshown
  cases hwritten : callWrite? e with
  | none =>
    rw [hwritten] at hshown
    cases hshown
  | some w' =>
    rw [hwritten] at hshown
    obtain ⟨-, hsame⟩ := Bool.and_eq_true_iff.mp hshown
    have hw' : w' ∈ writes (ownTrace j tr) := by
      rw [writes_eq]
      exact List.mem_filterMap.mpr ⟨e, mem_ownTrace.mpr he, hwritten⟩
    exact h.same_owner hfresh hw' hw (beq_iff_eq.mp hsame)

theorem ticket_of_toolCall (h : Resolving request tr) {i : ι} {row : ToolCallRow}
    (hrow : .toolCall row ∈ writes (ownTrace i tr)) :
    ∃ ticket, .ticket ticket ∈ writes (ownTrace i tr) ∧ ticket.id = row.ticketId := by
  obtain ⟨graph, rest, out, hexec⟩ := h i
  have hfirst := ticketFirst_resolveCase hexec
  obtain ⟨e, he, hwritten⟩ := List.mem_filterMap.mp hrow
  obtain ⟨before, after, hsplit⟩ := List.append_of_mem he
  rw [serviceEvents_append, hsplit] at hfirst
  obtain ⟨e', he', hticket⟩ := hfirst before e ⟨after ++ serviceEvents rest, by simp⟩
    (by rw [showsToolCall, hwritten]; rfl)
  obtain ⟨ticket, hw⟩ := Option.isSome_iff_exists.mp hticket
  obtain ⟨w, hw', hticket'⟩ := Option.bind_eq_some_iff.mp hw
  have hmem : w ∈ writes (ownTrace i tr) := by
    refine List.mem_filterMap.mpr ⟨e', ?_, hw'⟩
    rw [hsplit]
    exact List.mem_append_left _ he'
  obtain ⟨ticketId, hown⟩ := h.owned i
  cases w with
  | ticket row' => exact ⟨row', hmem, (hown _ hmem).1.trans (hown _ hrow).1.symm⟩
  | toolCall row' => cases hticket'
  | securityEvent row' => cases hticket'

theorem events_le_rows (h : Resolving request tr) (guard : Guard) (i : ι) :
    (writes (ownTrace i tr)).countP guard.event ≤ (writes (ownTrace i tr)).countP guard.row := by
  obtain ⟨graph, rest, out, hexec⟩ := h i
  have hfirst := rowFirst_resolveCase guard hexec (serviceEvents (ownTrace i tr))
    (by rw [serviceEvents_append]; exact List.prefix_append _ _)
  unfold Guard.showsEvent Guard.showsRow at hfirst
  rwa [← countP_written, ← countP_written] at hfirst

private theorem tickets_le_one (h : Resolving request tr) (i : ι) :
    ((writes (ownTrace i tr)).filterMap Write.ticket?).length ≤ 1 := by
  obtain ⟨graph, rest, out, hexec⟩ := h i
  obtain ⟨ticketId, -, decision, hfiled⟩ := filed_resolveCase hexec
  rw [ticketRows_eq]
  have hle := hfiled.length_le
  rw [serviceEvents_append, List.filterMap_append, List.length_append] at hle
  exact (Nat.le_add_right _ _).trans hle

theorem tickets_fresh (h : Resolving request tr) (hfresh : FreshIds db tr) :
    (((writes (tr.map Prod.snd)).filterMap Write.ticket?).map TicketRow.id).Nodup ∧
      ∀ row ∈ (writes (tr.map Prod.snd)).filterMap Write.ticket?, db.Fresh row.id := by
  have hmem : ∀ row ∈ (writes (tr.map Prod.snd)).filterMap Write.ticket?,
      ∃ i, .ticket row ∈ writes (ownTrace i tr) := by
    intro row hrow
    obtain ⟨w, hw, hticket⟩ := List.mem_filterMap.mp hrow
    obtain ⟨i, hi⟩ := mem_writes.mp hw
    cases w with
    | ticket row' =>
      obtain rfl := Option.some.inj hticket
      exact ⟨i, hi⟩
    | toolCall row' => cases hticket
    | securityEvent row' => cases hticket
  constructor
  · rw [List.nodup_iff_count_le_one]
    intro id
    by_cases hid : id ∈ ((writes (tr.map Prod.snd)).filterMap Write.ticket?).map TicketRow.id
    · obtain ⟨row, hrow, rfl⟩ := List.mem_map.mp hid
      obtain ⟨i, hi⟩ := hmem row hrow
      have hcount : (((writes (tr.map Prod.snd)).filterMap Write.ticket?).map
          TicketRow.id).count row.id =
            (writes (tr.map Prod.snd)).countP (ofTicket (fun w => w.ticket?.isSome) row.id) := by
        rw [List.count, List.countP_map, List.countP_filterMap]
        refine List.countP_congr fun w _ => ?_
        cases w <;> simp [Write.ticket?, ofTicket, rowTicketId]
      have hown := h.countP_ofTicket hfresh hi fun w => w.ticket?.isSome
      have hone := h.tickets_le_one i
      rw [List.length_filterMap_eq_countP] at hone
      exact (hcount.trans hown).trans_le hone
    · rw [List.count_eq_zero_of_not_mem hid]
      exact Nat.zero_le 1
  · intro row hrow
    obtain ⟨i, hi⟩ := hmem row hrow
    obtain ⟨ticketId, hown⟩ := h.owned i
    obtain ⟨hid, hdrawn⟩ := hown _ hi
    have hrowId : row.id = ticketId := hid
    rw [hrowId]
    exact hfresh.fresh i ticketId hdrawn

end Resolving

end TicketWarden.Service
