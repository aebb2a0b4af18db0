/- Module: TicketWarden/Service/Shown
   source: apps/api/src/service.py, apps/api/src/graph/nodes.py
   digest: Exactly when no personal data can be found in what a case shows or stores. -/

import TicketWarden.Guardrails.PiiFree
import TicketWarden.Service.Ending
import TicketWarden.Service.FakeLLM

set_option autoImplicit false
set_option relaxedAutoImplicit false

namespace TicketWarden.Service

open TicketWarden.Graph Effects Guardrails Python Storage

/-- A text field in which no personal data is found, if it is there. -/
def Clean (db : Runtime) (field : Option String) : Prop :=
  ∀ text, field = some text → findPii db text = []

/-- A case without personal data in its response and in its row. -/
structure CaseClean (db : Runtime) (tr : List CallEvent) (resp : ResolveResponse) : Prop where
  reply : Clean db resp.reply
  reason : Clean db resp.escalationReason
  rows : ∀ row ∈ (writes tr).filterMap Write.ticket?,
    findPii db row.body = [] ∧ Clean db row.reply ∧ Clean db row.escalationReason

def failure (env : Env) (tr : List CallEvent) : Exc :=
  ((graphEvents tr).filterMap (graphError? env.db)).head?.getD
    (recursionError env.db env.recursionLimit)

/-- No personal data is left in the ticket once it is redacted, none in the last draft if it
is sent, and none in the feedback or the exception message if it becomes the reason. -/
structure InputsClean (env : Env) (request : ResolveRequest env.db) (tr : List CallEvent) :
    Prop where
  ticket : findPii env.db (redactPii env.db request.ticket) = []
  raised : isInjection env.db (redactPii env.db request.ticket) = false →
    ¬ Concluded env.settings env.recursionLimit (verdicts tr) →
      findPii env.db ("Graph execution error: " ++ (failure env tr).message) = []
  approved : Approved env.recursionLimit (verdicts tr) → ∀ text ∈ (draftTexts tr).getLast?,
    leaks env.db (redactPii env.db (redactPii env.db text)) = true ∨
      findPii env.db (redactPii env.db (redactPii env.db text)) = []
  exhausted : Exhausted env.settings env.recursionLimit (verdicts tr) →
    (∀ text ∈ (draftTexts tr).getLast?,
      findPii env.db (redactPii env.db (redactPii env.db text)) = []) ∧
    ∀ v ∈ (verdicts tr).getLast?,
      findPii env.db (exhaustedReason (reviewCap env.settings) (feedbackOf v)) = []

private theorem toList_around (a b number c list d : String) :
    (a ++ (b ++ number ++ c ++ list) ++ d).toList =
      (a.toList ++ b.toList) ++ number.toList ++ (c.toList ++ (list.toList ++ d.toList)) := by
  simp only [String.toList_append, List.append_assoc]

private theorem clean_refusalReason {db : Runtime} {text : String} {reason : Option String}
    (h : detectInjection db text = (true, reason)) : findPii db (refusalReason reason) = [] := by
  obtain ⟨score, labels, hscore, hlabels, rfl⟩ := detectInjection_reason h
  apply Sparse.findPii_eq_nil
  have hnumber : ∀ n < 100, (Nat.repr n).toList.length < 3 ∧ '@' ∉ (Nat.repr n).toList := by
    decide +kernel
  have hlist : (",".intercalate labels).toList.all plain = true := by
    rw [String.toList_intercalate]
    apply plain_intercalate (by decide)
    intro text htext
    obtain ⟨label, hlabel, rfl⟩ := List.mem_map.mp htext
    exact hlabels label hlabel
  have hreason : refusalReason (some ("risk_score=" ++ Nat.repr score ++ " signals=" ++
      ",".intercalate labels)) =
      "Refused: prompt-injection signal detected (" ++ ("risk_score=" ++ Nat.repr score ++
        " signals=" ++ ",".intercalate labels) ++ ")" := rfl
  obtain ⟨hlength, hat⟩ := hnumber score hscore
  have hbefore : ("Refused: prompt-injection signal detected (".toList ++
      "risk_score=".toList).all plain = true := by decide +kernel
  have hafter : (" signals=".toList ++ ((",".intercalate labels).toList ++ ")".toList)).all plain =
      true := by
    rw [List.all_append, List.all_append, hlist]
    decide +kernel
  rw [hreason, toList_around]
  exact sparse_around db hbefore hlength hat hafter

private theorem clean_withheldReason {db : Runtime} {final : CaseState} {pattern : String}
    (h : (outboundGate db final).withheld = some pattern) :
    findPii db ("Outbound guardrail matched a leak signal: " ++ pattern) = [] := by
  have hplain : pattern.toList.all plain = true := by
    rcases hleak : detectPromptLeak db (outboundReply db final.draft) with ⟨isLeak, leakPattern⟩
    simp only [outboundGate, hleak] at h
    split at h
    · rename_i hcond
      obtain ⟨rfl, -⟩ := Bool.and_eq_true_iff.mp hcond
      obtain ⟨label, rfl, hall⟩ := detectPromptLeak_pattern hleak
      obtain rfl := Option.some.inj h
      exact hall
    · cases h
  apply Sparse.findPii_eq_nil
  apply sparse_plain
  rw [String.toList_append, List.all_append, hplain]
  decide +kernel

variable {env : Env} {request : ResolveRequest env.db} {tr : List CallEvent}
  {resp : ResolveResponse}

private theorem Returned.clean_iff_shown (h : Returned env (caseGraph env) request tr resp) :
    CaseClean env.db tr resp ↔ findPii env.db (redactPii env.db request.ticket) = [] ∧
      Clean env.db resp.reply ∧ Clean env.db resp.escalationReason := by
  obtain ⟨row, hrow, hmatches⟩ := h.ticketRow
  have hbody : row.body = redactPii env.db request.ticket := by
    apply h.body _ row (by simp [hrow])
    intro ticketId tr final hrun
    cases ending_of_exec rfl rfl hrun with
    | returned text rejected last _ _ _ _ hticket _ _ => exact hticket
  constructor
  · intro hclean
    have hshown := hclean.rows row (by simp [hrow])
    rw [hbody] at hshown
    exact ⟨hshown.1, hclean.reply, hclean.reason⟩
  · rintro ⟨hticket, hreply, hreason⟩
    refine ⟨hreply, hreason, fun row' hrow' => ?_⟩
    rw [hrow] at hrow'
    obtain rfl := List.mem_singleton.mp hrow'
    rw [hbody, hmatches.reply, hmatches.escalationReason]
    exact ⟨hticket, hreply, hreason⟩

private theorem clean_none (db : Runtime) : Clean db none := by
  intro text h
  cases h

private theorem clean_some_iff {db : Runtime} {text : String} :
    Clean db (some text) ↔ findPii db text = [] := by
  simp [Clean]

private theorem caseClean_of_refuse {reason : Option String}
    (hscan : detectInjection env.db (redactPii env.db request.ticket) = (true, reason))
    (hgraph : graphEvents tr = []) (hreply : resp.reply = none)
    (hreason : resp.escalationReason = some (refusalReason reason)) :
    (findPii env.db (redactPii env.db request.ticket) = [] ∧ Clean env.db resp.reply ∧
      Clean env.db resp.escalationReason) ↔ InputsClean env request tr := by
  have hverdicts : verdicts tr = [] := by simp [verdicts, hgraph]
  have hclean : Clean env.db resp.escalationReason := by
    rw [hreason, clean_some_iff]
    exact clean_refusalReason hscan
  have hnone : Clean env.db resp.reply := hreply ▸ clean_none env.db
  constructor
  · intro h
    refine ⟨h.1, fun hpassed => ?_, fun ⟨⟨v, hv, _⟩, _⟩ => ?_, fun hexhausted => ?_⟩
    · rw [isInjection, hscan] at hpassed
      cases hpassed
    · rw [hverdicts] at hv
      cases hv
    · have hcap := hexhausted.2.1
      rw [hverdicts] at hcap
      have hpos : 1 ≤ reviewCap env.settings := le_max_left _ _
      simp only [List.length_nil] at hcap
      omega
  · intro h
    exact ⟨h.ticket, hnone, hclean⟩

private theorem caseClean_of_raised {exc : Exc}
    (hscan : isInjection env.db (redactPii env.db request.ticket) = false)
    (hopen : ¬ Concluded env.settings env.recursionLimit (verdicts tr))
    (hraised : failure env tr = exc) (hreply : resp.reply = none)
    (hreason : resp.escalationReason = some ("Graph execution error: " ++ exc.message)) :
    (findPii env.db (redactPii env.db request.ticket) = [] ∧ Clean env.db resp.reply ∧
      Clean env.db resp.escalationReason) ↔ InputsClean env request tr := by
  rw [hreply, hreason, clean_some_iff, ← hraised]
  constructor
  · rintro ⟨hticket, -, hmessage⟩
    refine ⟨hticket, fun _ _ => hmessage, fun happroved => ?_, fun hexhausted => ?_⟩
    · exact absurd happroved.concluded hopen
    · exact absurd hexhausted.concluded hopen
  · intro h
    exact ⟨h.ticket, clean_none env.db, h.raised hscan hopen⟩

private theorem caseClean_of_approved {text : String}
    (happroved : Approved env.recursionLimit (verdicts tr))
    (htext : (draftTexts tr).getLast? = some text)
    (hreply : Clean env.db resp.reply ↔
      leaks env.db (redactPii env.db (redactPii env.db text)) = true ∨
        findPii env.db (redactPii env.db (redactPii env.db text)) = [])
    (hreason : Clean env.db resp.escalationReason) :
    (findPii env.db (redactPii env.db request.ticket) = [] ∧ Clean env.db resp.reply ∧
      Clean env.db resp.escalationReason) ↔ InputsClean env request tr := by
  have hdone : Concluded env.settings env.recursionLimit (verdicts tr) := happroved.concluded
  constructor
  · rintro ⟨hticket, hclean, -⟩
    refine ⟨hticket, fun _ hopen => absurd hdone hopen, fun _ text' htext' => ?_,
      fun hexhausted => ?_⟩
    · rw [htext, Option.mem_some_iff] at htext'
      exact htext' ▸ hreply.mp hclean
    · exact absurd happroved hexhausted.not_approved
  · intro h
    exact ⟨h.ticket, hreply.mpr (h.approved happroved text htext), hreason⟩

private theorem caseClean_of_exhausted {text : String} {last : Verdict}
    (hexhausted : Exhausted env.settings env.recursionLimit (verdicts tr))
    (htext : (draftTexts tr).getLast? = some text)
    (hlast : (verdicts tr).getLast? = some last)
    (hreply : Clean env.db resp.reply ↔
      findPii env.db (redactPii env.db (redactPii env.db text)) = [])
    (hreason : resp.escalationReason =
      some (exhaustedReason (reviewCap env.settings) (feedbackOf last))) :
    (findPii env.db (redactPii env.db request.ticket) = [] ∧ Clean env.db resp.reply ∧
      Clean env.db resp.escalationReason) ↔ InputsClean env request tr := by
  rw [hreply, hreason, clean_some_iff]
  constructor
  · rintro ⟨hticket, hclean, hfeedback⟩
    refine ⟨hticket, fun _ hopen => absurd hexhausted.concluded hopen, ?_, fun _ => ⟨?_, ?_⟩⟩
    · exact fun happroved => absurd happroved hexhausted.not_approved
    · intro text' htext'
      rw [htext, Option.mem_some_iff] at htext'
      exact htext' ▸ hclean
    · intro v hv
      rw [hlast, Option.mem_some_iff] at hv
      exact hv ▸ hfeedback
  · intro h
    obtain ⟨hdraft, hfeedback⟩ := h.exhausted hexhausted
    exact ⟨h.ticket, hdraft text htext, hfeedback last hlast⟩

private theorem clean_outboundGate {db : Runtime} {final : CaseState} {text : String}
    (hdecision : final.decision = some Decision.resolved.value)
    (hnoReason : final.escalationReason = none) (hdraft : final.draft = some (redactPii db text)) :
    (Clean db (outboundGate db final).reply ↔
        leaks db (redactPii db (redactPii db text)) = true ∨
          findPii db (redactPii db (redactPii db text)) = []) ∧
      Clean db (outboundGate db final).final.escalationReason := by
  have hsent := outboundReply_iff db (Q := fun reply => findPii db reply = []) rfl text
  have hleaks := outboundReply_iff db (Q := fun reply => leaks db reply = false) rfl text
  rcases @outboundGate_of_resolved db final hdecision with ⟨pattern, hgate⟩ | ⟨hkept, hgate⟩
  · have hwithheld : (outboundGate db final).withheld = some pattern := by rw [hgate]
    have hgone : (outboundGate db final).reply = none := by rw [hgate]
    have hshown : (outboundGate db final).final.escalationReason =
        some ("Outbound guardrail matched a leak signal: " ++ pattern) := by rw [hgate]
    obtain ⟨-, reply, hreply, hleak⟩ := outboundGate_withheld_iff.mp (by rw [hwithheld]; rfl)
    constructor
    · rw [hgone]
      refine iff_of_true (clean_none db) (.inl ?_)
      by_contra hno
      rw [hdraft] at hreply
      have hnot := (hleaks.mpr (Bool.not_eq_true _ ▸ hno)) reply hreply
      rw [hleak] at hnot
      cases hnot
    · rw [hshown, clean_some_iff]
      exact clean_withheldReason hwithheld
  · have hkeeps : (outboundGate db final).reply = outboundReply db final.draft := by rw [hgate]
    have hshown : (outboundGate db final).final.escalationReason = none := by
      rw [hgate]
      exact hnoReason
    rw [hdraft] at hkept hkeeps
    have hno := hleaks.mp hkept
    constructor
    · rw [hkeeps, hno, ← hsent]
      simp [Clean]
    · rw [hshown]
      exact clean_none db

/-- What a case shows and stores is free of personal data exactly when the texts it is made of
are, along the path the case has taken. -/
theorem caseClean_iff (h : Exec (resolveCase env (caseGraph env) request) tr (.ok resp)) :
    CaseClean env.db tr resp ↔ InputsClean env request tr := by
  have hreturned := returned_of_exec h
  rw [hreturned.clean_iff_shown]
  cases hreturned with
  | refused ticketId reason latencyMs hscan hgraph hwrites hresp =>
    subst hresp
    exact caseClean_of_refuse hscan hgraph rfl rfl
  | settled ticketId gout gated latencyMs costUsd traceUrl hscan hgraph hgated hwrites hresp =>
    subst hresp hgated
    cases ending_of_exec rfl rfl hgraph with
    | raised exc hunfinished hfailed =>
      have hgate := @outboundGate_of_escalated env.db (errorState (initialState ticketId
        (redactPii env.db request.ticket) request.orderId) exc) rfl
      refine caseClean_of_raised hscan (hunfinished.not_concluded rfl) ?_
        (congrArg Gated.reply hgate) (congrArg (fun gated => gated.final.escalationReason) hgate)
      rcases hfailed with hone | ⟨hnone, rfl, -⟩
      · rw [failure, hone]
        rfl
      · rw [failure, hnone]
        rfl
    | @returned final text rejected last hreviewed hsteps htext hdraft hticket hcalls hanswered =>
      have hlast : (verdicts tr).getLast? = some last := by simp [verdicts, hreviewed.verdicts]
      cases happroved : last.approved with
      | true =>
        obtain ⟨hdecision, hnoReason⟩ := hreviewed.resolved happroved
        obtain ⟨hreply, hreason⟩ := clean_outboundGate hdecision hnoReason hdraft
        exact caseClean_of_approved (hreviewed.isApproved hsteps happroved) htext hreply hreason
      | false =>
        obtain ⟨hdecision, hreason⟩ := hreviewed.escalated happroved
        have hexhausted := hreviewed.exhausted hsteps happroved
        have hcap : final.iterations = reviewCap env.settings := by
          rw [hreviewed.iterations]
          exact hreviewed.concluded.resolve_left (by simp [happroved])
        have hgate := @outboundGate_of_escalated env.db final hdecision
        have hkeeps : (outboundGate env.db final).reply = outboundReply env.db final.draft := by
          rw [hgate]
        have hshown : (outboundGate env.db final).final.escalationReason =
            some (exhaustedReason (reviewCap env.settings) (feedbackOf last)) := by
          rw [hgate, ← hcap]
          exact hreason
        refine caseClean_of_exhausted hexhausted htext hlast ?_ hshown
        change Clean env.db (outboundGate env.db final).reply ↔ _
        rw [hkeeps, hdraft]
        exact outboundReply_iff env.db (Q := fun reply => findPii env.db reply = []) rfl text

def quotingLLM : FakeLLM where
  verdict := .ok ⟨false, some "Do not promise jane@example.com a refund."⟩

theorem caseClean_iff_quotingLLM :
    ∃ resp, Exec (resolveCase testEnv (caseGraph testEnv) whereIsMyOrder)
        (quotingLLM.resolve whereIsMyOrder).trace (.ok resp) ∧
      (CaseClean testEnv.db (quotingLLM.resolve whereIsMyOrder).trace resp ↔
        InputsClean testEnv whereIsMyOrder (quotingLLM.resolve whereIsMyOrder).trace) := by
  obtain ⟨resp, h, -⟩ := exec_run_ok (h := quotingLLM.handler) (s := ()) (P := fun _ => true)
    (p := resolveCase testEnv (caseGraph testEnv) whereIsMyOrder) (by decide +kernel)
  exact ⟨resp, h, caseClean_iff h⟩

theorem address_in_reason :
    ∃ resp, Exec (resolveCase testEnv (caseGraph testEnv) whereIsMyOrder)
        (quotingLLM.resolve whereIsMyOrder).trace (.ok resp) ∧
      ¬ CaseClean testEnv.db (quotingLLM.resolve whereIsMyOrder).trace resp := by
  obtain ⟨resp, h, hfound⟩ := exec_run_ok (h := quotingLLM.handler) (s := ())
    (P := fun resp => resp.escalationReason.any fun reason =>
      !(findPii testEnv.db reason).isEmpty)
    (p := resolveCase testEnv (caseGraph testEnv) whereIsMyOrder) (by decide +kernel)
  obtain ⟨reason, hreason, hpii⟩ := (Option.any_eq_true _ _).mp hfound
  refine ⟨resp, h, fun hclean => ?_⟩
  have hnone := hclean.reason reason hreason
  rw [hnone] at hpii
  cases hpii

end TicketWarden.Service
