/- Module: TicketWarden/Observability/Costing
   source: apps/api/src/observability/costing.py, apps/api/src/observability/usage.py
   digest: Token counts and the cost estimated from them. -/

import TicketWarden.Constants

set_option autoImplicit false
set_option relaxedAutoImplicit false

namespace TicketWarden.Observability

open Python

/-- `_PRICE_TABLE`: USD per 1000 prompt and completion tokens. -/
def priceTable : List ((String × String) × (ℚ × ℚ)) :=
  [(("openai", "gpt-4o-mini"), (0.00015, 0.00060)),
    (("openai", "gpt-4o"), (0.0025, 0.0100)),
    (("openai", "gpt-4-turbo"), (0.0100, 0.0300)),
    (("openai", "gpt-3.5-turbo"), (0.0005, 0.0015)),
    (("openai", "*"), (0.00015, 0.00060)),
    (("groq", "llama-3.3-70b-versatile"), (0.00059, 0.00079)),
    (("groq", "llama-3.1-8b-instant"), (0.00005, 0.00008)),
    (("groq", "*"), (0.00059, 0.00079)),
    (("gemini", "gemini-2.0-flash"), (0.00010, 0.00040)),
    (("gemini", "gemini-1.5-pro"), (0.00125, 0.00500)),
    (("gemini", "*"), (0.00010, 0.00040)),
    (("anthropic", "claude-sonnet-4-6"), (0.00300, 0.01500)),
    (("anthropic", "claude-haiku-4-5-20251001"), (0.00080, 0.00400)),
    (("anthropic", "*"), (0.00300, 0.01500)),
    (("nvidia", "*"), (0.0, 0.0)),
    (("ollama", "*"), (0.0, 0.0))]

def defaultPrice : ℚ × ℚ := (0.00015, 0.00060)

/-- `_price_for`. Only ASCII keys are looked up, so `lower` need only fold ASCII letters. -/
def priceFor (model provider : String) : ℚ × ℚ :=
  let provider := (strOr (some provider) "openai").toLower
  ((priceTable.lookup (provider, model)).or (priceTable.lookup (provider, "*"))).getD defaultPrice

/-- `estimate_cost`, in exact decimal arithmetic. -/
def estimateCost (promptTokens completionTokens : ℤ) (model provider : String) : ℚ :=
  let (promptRate, completionRate) := priceFor model provider
  round (promptTokens / 1000 * promptRate + completionTokens / 1000 * completionRate) 8

def floatBound : ℤ := 2 ^ 1024 - 2 ^ 970

/-- The integer is near a float. -/
def FloatRange (n : ℤ) : Prop := -floatBound < n ∧ n < floatBound

instance (n : ℤ) : Decidable (FloatRange n) := inferInstanceAs (Decidable (_ ∧ _))

/-- `estimate_cost` of counts that `/ 1000.0` has to turn into floats first. -/
def estimateCostOfInts (promptTokens completionTokens : ℤ) (model provider : String) :
    Except Exc ℚ :=
  if FloatRange promptTokens ∧ FloatRange completionTokens then
    .ok (estimateCost promptTokens completionTokens model provider)
  else .error ⟨"OverflowError", "int too large to convert to float"⟩

structure Usage where
  promptTokens : ℤ
  completionTokens : ℤ
  costUsd : ℚ

def Usage.zero : Usage := ⟨0, 0, 0⟩

def Usage.add (usage other : Usage) : Usage where
  promptTokens := usage.promptTokens + other.promptTokens
  completionTokens := usage.completionTokens + other.completionTokens
  costUsd := round (usage.costUsd + other.costUsd) 8

/-- `_encoding_for`: the encoding for a model, which counts the tokens of a text or raises. -/
abbrev EncodingFor := String → Option (String → Except Exc ℕ)

/-- `count_tokens`. -/
def countTokens (db : Runtime) (encodingFor : EncodingFor) (text model : String) :
    Except Exc ℕ :=
  if text = "" then .ok 0
  else
    match encodingFor model with
    | none => .ok (max 1 (wordCount db text.toList))
    | some encode => encode text

/-- What a `UsageCollector` has accumulated. -/
structure UsageCollector where
  promptTokens : ℤ
  completionTokens : ℤ
  llmCalls : ℕ

def UsageCollector.hasUsage (collector : UsageCollector) : Bool :=
  collector.promptTokens != 0 || collector.completionTokens != 0

end TicketWarden.Observability
