/- Module: TicketWarden/Observability/Usage
   source: apps/api/src/observability/usage.py, apps/api/src/observability/costing.py
   digest: The token counts a provider reports, and why rounding loses none of the spend. -/

import TicketWarden.Observability.Costing
import TicketWarden.Python.Numbers

set_option autoImplicit false
set_option relaxedAutoImplicit false

namespace TicketWarden.Observability

open Python

/-- A message; a missing `usage_metadata` reads as `None`. -/
structure Message where
  usageMetadata : Json

structure Generation where
  message : Option Message

/-- What `on_llm_end` is given. The lists are those after `or []`; a value that is neither
falsy nor iterable is `none`, and iterating over it raises. -/
structure LLMResult where
  generations : Option (List (Option (List Generation)))
  llmOutput : Json

/-- `getattr(getattr(gen, "message", None), "usage_metadata", None)`. -/
def Generation.usage (gen : Generation) : Json := (gen.message.map Message.usageMetadata).getD .null

section

variable (db : Runtime) (decimal : Char → ℕ)

/-- `int(usage.get(key) or 0)`. -/
def tokenCount (usage : Json) (key : String) : Option ℤ :=
  int db decimal (jsonOr (usage.get? key) (.int 0))

def tokenCounts (promptKey completionKey : String) (usage : Json) : Option (ℤ × ℤ) :=
  match usage with
  | .dict _ => do
    let prompt ← tokenCount db decimal usage promptKey
    let completion ← tokenCount db decimal usage completionKey
    pure (prompt, completion)
  | _ => pure 0

/-- The usage dictionary of `llm_output`, an empty one if there is none. -/
def legacyUsage (response : LLMResult) : Json :=
  match jsonOr (some response.llmOutput) (.dict []) with
  | .dict entries =>
    jsonOr (entries.lookup "token_usage") (jsonOr (entries.lookup "usage") (.dict []))
  | _ => .null

/-- `_extract`: the prompt and the completion tokens, or `none` where it raises. -/
def extract (response : LLMResult) : Option (ℤ × ℤ) := do
  let generations ← response.generations
  let total ← generations.foldlM (fun total gens => do
    (← gens).foldlM (fun total gen => do
      let counts ← tokenCounts db decimal "input_tokens" "output_tokens" gen.usage
      pure (total + counts)) total) 0
  if total.1 ≠ 0 ∨ total.2 ≠ 0 then pure total
  else
    let counts ← tokenCounts db decimal "prompt_tokens" "completion_tokens" (legacyUsage response)
    pure (total + counts)

/-- `UsageCollector.on_llm_end`. -/
def UsageCollector.onLlmEnd (collector : UsageCollector) (response : LLMResult) :
    UsageCollector :=
  let collector := { collector with llmCalls := collector.llmCalls + 1 }
  match extract db decimal response with
  | none => collector
  | some (prompt, completion) =>
    { collector with
      promptTokens := collector.promptTokens + prompt
      completionTokens := collector.completionTokens + completion }

def collect (responses : List LLMResult) : UsageCollector :=
  responses.foldl (UsageCollector.onLlmEnd db decimal) ⟨0, 0, 0⟩

def LLMResult.usages (response : LLMResult) : Option (List Json) := do
  let generations ← response.generations
  let lists ← generations.mapM id
  pure (lists.flatten.map Generation.usage)

def LLMResult.modern (response : LLMResult) : Option (ℤ × ℤ) := do
  let usages ← response.usages
  let counts ← usages.mapM (tokenCounts db decimal "input_tokens" "output_tokens")
  pure counts.sum

def LLMResult.legacy (response : LLMResult) : Option (ℤ × ℤ) :=
  tokenCounts db decimal "prompt_tokens" "completion_tokens" (legacyUsage response)

variable {db decimal}

private theorem foldlM_add {α : Type} {f : α → Option (ℤ × ℤ)} (xs : List α) (total : ℤ × ℤ) :
    (xs.foldlM (fun total x => do
      let counts ← f x
      pure (total + counts)) total) = (xs.mapM f).map fun counts => total + counts.sum := by
  induction xs generalizing total with
  | nil => simp
  | cons x xs ih =>
    rw [List.foldlM_cons, List.mapM_cons]
    cases f x with
    | none => rfl
    | some counts =>
      refine (ih (total + counts)).trans ?_
      cases xs.mapM f with
      | none => rfl
      | some rest => simp [add_assoc]

private theorem foldlM_lists {α β : Type} {f : β → α → Option β} (lists : List (Option (List α)))
    (b : β) :
    lists.foldlM (fun b list => list.bind fun xs => xs.foldlM f b) b =
      (lists.mapM id).bind fun lists => lists.flatten.foldlM f b := by
  induction lists generalizing b with
  | nil => rfl
  | cons list lists ih =>
    rw [List.foldlM_cons, List.mapM_cons]
    cases list with
    | none => rfl
    | some list =>
      simp only [Option.bind_eq_bind, Option.bind_some, ih, id_eq]
      cases lists.mapM id with
      | none => cases list.foldlM f b <;> rfl
      | some rest => simp [List.foldlM_append]

private theorem extract_eq (response : LLMResult) :
    extract db decimal response = (response.modern db decimal).bind fun total =>
      if total = 0 then response.legacy db decimal else some total := by
  have hloop : (response.generations.bind fun generations =>
      generations.foldlM (fun total gens => do
        (← gens).foldlM (fun total gen => do
          let counts ← tokenCounts db decimal "input_tokens" "output_tokens" gen.usage
          pure (total + counts)) total) 0) = response.modern db decimal := by
    unfold LLMResult.modern LLMResult.usages
    cases response.generations with
    | none => rfl
    | some generations =>
      refine (foldlM_lists generations 0).trans ?_
      simp only [Option.bind_eq_bind, Option.bind_some]
      cases generations.mapM id with
      | none => rfl
      | some lists =>
        refine (foldlM_add lists.flatten 0).trans ?_
        simp only [Option.bind_some, Option.pure_def, List.mapM_map, zero_add]
        exact Option.map_eq_bind
  have hchoice : ∀ total : ℤ × ℤ, (if total.1 ≠ 0 ∨ total.2 ≠ 0 then pure total else do
      let counts ← tokenCounts db decimal "prompt_tokens" "completion_tokens"
        (legacyUsage response)
      pure (total + counts)) =
      if total = 0 then response.legacy db decimal else some total := by
    intro total
    by_cases hzero : total = 0
    · subst hzero
      rw [if_pos rfl, if_neg (by simp)]
      unfold LLMResult.legacy
      cases tokenCounts db decimal "prompt_tokens" "completion_tokens" (legacyUsage response) with
      | none => rfl
      | some counts => exact congrArg some (zero_add counts)
    · have hsome : total.1 ≠ 0 ∨ total.2 ≠ 0 := by
        by_contra hboth
        rw [not_or, not_not, not_not] at hboth
        exact hzero (Prod.ext hboth.1 hboth.2)
      rw [if_neg hzero, if_pos hsome]
      rfl
  unfold extract
  rw [← hloop, Option.bind_assoc]
  simp only [hchoice]
  rfl

variable (db decimal)

def LLMResult.counts (response : LLMResult) : ℤ × ℤ := (extract db decimal response).getD 0

def LLMResult.usage (response : LLMResult) (model provider : String) : Usage where
  promptTokens := (response.counts db decimal).1
  completionTokens := (response.counts db decimal).2
  costUsd := estimateCost (response.counts db decimal).1 (response.counts db decimal).2 model
    provider

private theorem onLlmEnd_eq (collector : UsageCollector) (response : LLMResult) :
    collector.onLlmEnd db decimal response =
      ⟨collector.promptTokens + (response.counts db decimal).1,
        collector.completionTokens + (response.counts db decimal).2, collector.llmCalls + 1⟩ := by
  unfold UsageCollector.onLlmEnd LLMResult.counts
  dsimp only
  cases extract db decimal response with
  | none => simp
  | some pair => rfl

private theorem foldl_onLlmEnd (responses : List LLMResult) (collector : UsageCollector) :
    responses.foldl (UsageCollector.onLlmEnd db decimal) collector =
      ⟨collector.promptTokens + (responses.map fun r => (r.counts db decimal).1).sum,
        collector.completionTokens + (responses.map fun r => (r.counts db decimal).2).sum,
        collector.llmCalls + responses.length⟩ := by
  induction responses generalizing collector with
  | nil => simp
  | cons response responses ih =>
    rw [List.foldl_cons, onLlmEnd_eq, ih]
    simp only [List.map_cons, List.sum_cons, List.length_cons, add_assoc, Nat.add_comm 1]

theorem collect_eq (responses : List LLMResult) :
    collect db decimal responses =
      ⟨(responses.map fun r => (r.counts db decimal).1).sum,
        (responses.map fun r => (r.counts db decimal).2).sum, responses.length⟩ := by
  rw [collect, foldl_onLlmEnd]
  simp only [zero_add]

end

private theorem priceFor_mem (model provider : String) :
    ∃ key, (key, priceFor model provider) ∈ priceTable := by
  have hlookup : ∀ {key : String × String} {rates : ℚ × ℚ},
      priceTable.lookup key = some rates → (key, rates) ∈ priceTable := by
    intro key rates h
    obtain ⟨before, after, htable, -⟩ := List.lookup_eq_some_iff.mp h
    simp [htable]
  unfold priceFor
  dsimp only
  generalize (strOr (some provider) "openai").toLower = provider
  cases hexact : priceTable.lookup (provider, model) with
  | some rates => exact ⟨_, hlookup hexact⟩
  | none =>
    cases hany : priceTable.lookup (provider, "*") with
    | some rates => exact ⟨_, hlookup hany⟩
    | none => exact ⟨("openai", "gpt-4o-mini"), by decide +kernel⟩

private theorem priceTable_mem_grid :
    ∀ entry ∈ priceTable, entry.2.1 ∈ grid 5 ∧ entry.2.2 ∈ grid 5 := by decide +kernel

private theorem priceFor_mem_grid (model provider : String) :
    (priceFor model provider).1 ∈ grid 5 ∧ (priceFor model provider).2 ∈ grid 5 := by
  obtain ⟨key, hmem⟩ := priceFor_mem model provider
  exact priceTable_mem_grid _ hmem

private theorem cost_mem_grid (tokens : ℤ) {rate : ℚ} (h : rate ∈ grid 5) :
    tokens / 1000 * rate ∈ grid 8 := by
  obtain ⟨n, rfl⟩ := mem_grid_iff.mp h
  refine mem_grid_iff.mpr ⟨tokens * n, ?_⟩
  push_cast
  ring

private theorem estimateCost_eq (promptTokens completionTokens : ℤ) (model provider : String) :
    estimateCost promptTokens completionTokens model provider =
      promptTokens / 1000 * (priceFor model provider).1 +
        completionTokens / 1000 * (priceFor model provider).2 := by
  obtain ⟨hprompt, hcompletion⟩ := priceFor_mem_grid model provider
  exact round_of_mem_grid
    ((grid 8).add_mem (cost_mem_grid promptTokens hprompt) (cost_mem_grid _ hcompletion))

private theorem estimateCost_mem_grid (promptTokens completionTokens : ℤ)
    (model provider : String) :
    estimateCost promptTokens completionTokens model provider ∈ grid 8 := by
  obtain ⟨hprompt, hcompletion⟩ := priceFor_mem_grid model provider
  rw [estimateCost_eq]
  exact (grid 8).add_mem (cost_mem_grid _ hprompt) (cost_mem_grid _ hcompletion)

theorem estimateCost_nonneg {promptTokens completionTokens : ℤ} (hprompt : 0 ≤ promptTokens)
    (hcompletion : 0 ≤ completionTokens) (model provider : String) :
    0 ≤ estimateCost promptTokens completionTokens model provider := by
  have htable : ∀ entry ∈ priceTable, 0 ≤ entry.2.1 ∧ 0 ≤ entry.2.2 := by decide +kernel
  obtain ⟨key, hmem⟩ := priceFor_mem model provider
  obtain ⟨hpromptRate, hcompletionRate⟩ := htable _ hmem
  rw [estimateCost_eq]
  positivity

theorem estimateCostOfInts_eq_ok_iff {promptTokens completionTokens : ℤ} {model provider : String}
    {costUsd : ℚ} :
    estimateCostOfInts promptTokens completionTokens model provider = .ok costUsd ↔
      (FloatRange promptTokens ∧ FloatRange completionTokens) ∧
        costUsd = estimateCost promptTokens completionTokens model provider := by
  unfold estimateCostOfInts
  split
  · rename_i hrange
    simp [hrange, eq_comm]
  · rename_i hrange
    simp [hrange]

theorem estimateCost_zero (model provider : String) : estimateCost 0 0 model provider = 0 := by
  rw [estimateCost_eq]
  simp

private theorem estimateCost_add (p p' c c' : ℤ) (model provider : String) :
    estimateCost (p + p') (c + c') model provider =
      estimateCost p c model provider + estimateCost p' c' model provider := by
  rw [estimateCost_eq, estimateCost_eq, estimateCost_eq]
  push_cast
  ring

private theorem foldl_add (usages : List Usage) (usage : Usage) (husage : usage.costUsd ∈ grid 8)
    (h : ∀ u ∈ usages, u.costUsd ∈ grid 8) :
    usages.foldl Usage.add usage =
      ⟨usage.promptTokens + (usages.map Usage.promptTokens).sum,
        usage.completionTokens + (usages.map Usage.completionTokens).sum,
        usage.costUsd + (usages.map Usage.costUsd).sum⟩ := by
  induction usages generalizing usage with
  | nil => simp
  | cons other usages ih =>
    obtain ⟨hother, hrest⟩ := List.forall_mem_cons.mp h
    have hsum : usage.costUsd + other.costUsd ∈ grid 8 := (grid 8).add_mem husage hother
    have hadd : usage.add other = ⟨usage.promptTokens + other.promptTokens,
        usage.completionTokens + other.completionTokens, usage.costUsd + other.costUsd⟩ := by
      rw [Usage.add, round_of_mem_grid hsum]
    rw [List.foldl_cons, hadd, ih _ hsum hrest]
    simp [add_assoc]

def bothShapes : LLMResult where
  generations :=
    some [some [⟨some ⟨.dict [("input_tokens", .int 120), ("output_tokens", .int 30)]⟩⟩]]
  llmOutput := .dict [("token_usage", .dict [("prompt_tokens", .int 120)])]

-- it is counted once
example : bothShapes.counts asciiData (fun c => c.toNat - 48) = (120, 30) := by decide +kernel

section

variable (db : Runtime) (decimal : Char → ℕ)

theorem estimateCost_sum (responses : List LLMResult) (model provider : String) :
    estimateCost (responses.map fun r => (r.counts db decimal).1).sum
        (responses.map fun r => (r.counts db decimal).2).sum model provider =
      (responses.map fun r => (r.usage db decimal model provider).costUsd).sum := by
  induction responses with
  | nil => exact estimateCost_zero model provider
  | cons response responses ih =>
    rw [List.map_cons, List.map_cons, List.map_cons, List.sum_cons, List.sum_cons, List.sum_cons,
      estimateCost_add, ih]
    rfl

private theorem foldl_usage (responses : List LLMResult) (model provider : String) :
    (responses.map fun r => r.usage db decimal model provider).foldl Usage.add .zero =
      ⟨(responses.map fun r => (r.counts db decimal).1).sum,
        (responses.map fun r => (r.counts db decimal).2).sum,
        (responses.map fun r => (r.usage db decimal model provider).costUsd).sum⟩ := by
  rw [foldl_add _ _ (grid 8).zero_mem]
  · simp [Usage.zero, Function.comp_def, LLMResult.usage]
  · intro usage husage
    obtain ⟨response, -, rfl⟩ := List.mem_map.mp husage
    exact estimateCost_mem_grid _ _ model provider

/-- Spend is additive over the calls of the model: what the collector holds is the sum of what
the calls reported, its estimated cost is the sum of theirs, and their order is irrelevant. -/
theorem spend_additive (model provider : String) (responses : List LLMResult) :
    ∃ collector, collect db decimal responses = collector ∧
      collector.llmCalls = responses.length ∧
      collector.promptTokens = (responses.map fun r => (r.counts db decimal).1).sum ∧
      collector.completionTokens = (responses.map fun r => (r.counts db decimal).2).sum ∧
      (∀ r : LLMResult, extract db decimal r = (r.modern db decimal).bind fun total =>
        if total = 0 then r.legacy db decimal else some total) ∧
      estimateCost collector.promptTokens collector.completionTokens model provider =
        (responses.map fun r => estimateCost (r.counts db decimal).1 (r.counts db decimal).2
          model provider).sum ∧
      (responses.map fun r => r.usage db decimal model provider).foldl Usage.add .zero =
        ⟨collector.promptTokens, collector.completionTokens,
          estimateCost collector.promptTokens collector.completionTokens model provider⟩ ∧
      ∀ responses' : List LLMResult, responses'.Perm responses →
        collect db decimal responses' = collector := by
  refine ⟨_, collect_eq db decimal responses, rfl, rfl, rfl, fun r => extract_eq r, ?_, ?_, ?_⟩
  · exact estimateCost_sum db decimal responses model provider
  · rw [foldl_usage, estimateCost_sum]
  · intro responses' hperm
    rw [collect_eq, (hperm.map fun r => (r.counts db decimal).1).sum_eq,
      (hperm.map fun r => (r.counts db decimal).2).sum_eq, hperm.length_eq]

end

end TicketWarden.Observability
