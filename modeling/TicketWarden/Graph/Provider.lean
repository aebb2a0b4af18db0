/- Module: TicketWarden/Graph/Provider
   source: apps/api/src/config.py, apps/api/src/graph/llm.py
   digest: The provider that the settings select, the chat model that is built for it, and what
   it costs. -/

import TicketWarden.Observability.Costing

set_option autoImplicit false
set_option relaxedAutoImplicit false

namespace TicketWarden.Graph

open Observability

/-- The settings of the provider. -/
structure ProviderSettings where
  llmProvider : String
  llmModel : String
  llmBaseUrl : Option String
  temperature : ℚ
  openaiApiKey : String
  groqApiKey : String
  googleApiKey : String
  nvidiaApiKey : String
  anthropicApiKey : String
  ollamaBaseUrl : String

/-- The keys of `.env.example`. -/
def placeholderKeys : List String := ["sk-...", "gsk_...", "nvapi-...", "sk-ant-..."]

namespace ProviderSettings

variable (settings : ProviderSettings)

/-- `settings.llm_provider.lower()`. Only ASCII names are looked up, so `lower` need only fold
ASCII letters. -/
def provider : String := settings.llmProvider.toLower

def apiKeys : List (String × String) :=
  [("openai", settings.openaiApiKey), ("groq", settings.groqApiKey),
    ("gemini", settings.googleApiKey), ("nvidia", settings.nvidiaApiKey),
    ("anthropic", settings.anthropicApiKey), ("ollama", "local")]

/-- `active_llm_api_key`. -/
def activeLlmApiKey : String :=
  let key := (settings.apiKeys.lookup settings.provider).getD ""
  if placeholderKeys.contains key then "" else key

/-- `has_llm_credentials`. -/
def hasLlmCredentials : Bool := settings.activeLlmApiKey != ""

end ProviderSettings

/-- The LangChain class of a chat model. -/
inductive ChatClass
  | openAI | anthropic | googleGenerativeAI
  deriving DecidableEq

/-- What a chat model is constructed with. -/
structure ChatModel where
  chatClass : ChatClass
  model : String
  temperature : ℚ
  baseUrl : Option String
  apiKey : String

/-- `_OPENAI_COMPATIBLE`. -/
def openaiCompatible : List (String × Option String) :=
  [("openai", none), ("groq", some "https://api.groq.com/openai/v1"),
    ("nvidia", some "https://integrate.api.nvidia.com/v1"), ("ollama", none)]

/-- `SUPPORTED_PROVIDERS`. -/
def supportedProviders : List String := openaiCompatible.map Prod.fst ++ ["anthropic", "gemini"]

def unsupportedError (settings : ProviderSettings) : Exc where
  type := "ValueError"
  message := "Unsupported LLM_PROVIDER '" ++ settings.llmProvider ++ "'. Supported: " ++
    ", ".intercalate supportedProviders

/-- `value or None` for text. -/
def nonEmpty (value : Option String) : Option String := value.filter fun s => s != ""

/-- `build_chat_model`. -/
def buildChatModel (settings : ProviderSettings) : Except Exc ChatModel :=
  let common (chatClass : ChatClass) (baseUrl : Option String) (apiKey : String) : ChatModel :=
    ⟨chatClass, settings.llmModel, settings.temperature, baseUrl, apiKey⟩
  match openaiCompatible.lookup settings.provider with
  | some default =>
    if settings.provider = "ollama" then
      .ok (common .openAI (some settings.ollamaBaseUrl) "ollama")
    else
      .ok (common .openAI ((nonEmpty settings.llmBaseUrl).or default) settings.activeLlmApiKey)
  | none =>
    if settings.provider = "anthropic" then .ok (common .anthropic none settings.activeLlmApiKey)
    else if settings.provider = "gemini" then
      .ok (common .googleGenerativeAI none settings.activeLlmApiKey)
    else .error (unsupportedError settings)

/-- `_KEY_ENV_VARS`. -/
def keyEnvVars : List (String × String) :=
  [("openai", "OPENAI_API_KEY"), ("groq", "GROQ_API_KEY"), ("gemini", "GOOGLE_API_KEY"),
    ("nvidia", "NVIDIA_API_KEY"), ("anthropic", "ANTHROPIC_API_KEY"),
    ("ollama", "(none — set OLLAMA_BASE_URL if not localhost)")]

def credentialsError (settings : ProviderSettings) : Exc where
  type := "RuntimeError"
  message := "LLM_PROVIDER='" ++ settings.llmProvider ++ "' selected but " ++
    (keyEnvVars.lookup settings.provider).getD "the provider API key" ++
    " is not configured. Set it in .env to run the live LLM flow, or inject a fake LLMClient " ++
    "(as the test suite does)."

/-- `build_llm_client`: the chat model of the client. -/
def buildLlmClient (settings : ProviderSettings) : Except Exc ChatModel :=
  if settings.hasLlmCredentials then buildChatModel settings
  else .error (credentialsError settings)

def ProviderSettings.ownKey (settings : ProviderSettings) : String :=
  (settings.apiKeys.lookup settings.provider).getD ""

/-- The key is one of the provider, not one of `.env.example`. -/
def ProviderSettings.RealKey (settings : ProviderSettings) : Prop :=
  settings.ownKey ≠ "" ∧ settings.ownKey ∉ placeholderKeys

instance (settings : ProviderSettings) : Decidable settings.RealKey :=
  inferInstanceAs (Decidable (_ ∧ _))

/-- A price of the provider's own: that of the model, or the one for its other models. -/
def PricedBy (provider model : String) (price : ℚ × ℚ) : Prop :=
  ∃ name, priceTable.lookup (provider, name) = some price ∧
    (name = model ∨ name = "*" ∧ priceTable.lookup (provider, model) = none)

/-- The chat model of a provider: what the settings say, with the provider's own key, at the
provider's own address unless the settings name another, and at the provider's own price. -/
structure Configured (settings : ProviderSettings) (model : ChatModel) : Prop where
  supported : settings.provider ∈ supportedProviders
  modelName : model.model = settings.llmModel
  temperature : model.temperature = settings.temperature
  key : model.apiKey = if settings.provider = "ollama" then "ollama" else settings.ownKey
  compatible : settings.provider ≠ "ollama" →
    ∀ default, openaiCompatible.lookup settings.provider = some default →
      model.chatClass = .openAI ∧ model.baseUrl = (nonEmpty settings.llmBaseUrl).or default
  hosted : openaiCompatible.lookup settings.provider = none →
    model.chatClass ≠ .openAI ∧ model.baseUrl = none
  ollama : settings.provider = "ollama" → model.baseUrl = some settings.ollamaBaseUrl
  priced : PricedBy settings.provider settings.llmModel
    (priceFor settings.llmModel settings.llmProvider)

section

variable {settings : ProviderSettings}

private theorem hasLlmCredentials_iff : settings.hasLlmCredentials = true ↔ settings.RealKey := by
  unfold ProviderSettings.hasLlmCredentials ProviderSettings.activeLlmApiKey
    ProviderSettings.RealKey ProviderSettings.ownKey
  by_cases h : (settings.apiKeys.lookup settings.provider).getD "" ∈ placeholderKeys
  · simp [h]
  · simp [h]

private theorem activeLlmApiKey_eq (h : settings.RealKey) :
    settings.activeLlmApiKey = settings.ownKey := by
  have hcontains : placeholderKeys.contains settings.ownKey = false := by simpa using h.2
  unfold ProviderSettings.activeLlmApiKey
  rw [← ProviderSettings.ownKey]
  simp only [hcontains, Bool.false_eq_true, if_false]

private theorem supported_of_realKey (h : settings.RealKey) :
    settings.provider ∈ supportedProviders := by
  by_contra hno
  apply h.1
  have hnames : ∀ name ∈ supportedProviders, (settings.provider == name) = false :=
    fun name hname => beq_eq_false_iff_ne.mpr fun heq => hno (heq ▸ hname)
  simp only [supportedProviders, openaiCompatible, List.map_cons, List.map_nil, List.cons_append,
    List.nil_append, List.forall_mem_cons] at hnames
  simp [ProviderSettings.ownKey, ProviderSettings.apiKeys, List.lookup_cons, hnames]

private theorem pricedBy_of_supported (h : settings.provider ∈ supportedProviders)
    (model : String) :
    PricedBy settings.provider model (priceFor model settings.llmProvider) := by
  have hrows : ∀ name ∈ supportedProviders, name ≠ "" ∧
      (priceTable.lookup (name, "*")).isSome = true := by decide +kernel
  obtain ⟨hne, hrow⟩ := hrows _ h
  have hprovider : (strOr (some settings.llmProvider) "openai").toLower = settings.provider := by
    have hnonempty : settings.llmProvider ≠ "" := by
      intro hempty
      apply hne
      rw [ProviderSettings.provider, hempty]
      decide +kernel
    rw [strOr, if_neg hnonempty]
    rfl
  obtain ⟨price, hprice⟩ := Option.isSome_iff_exists.mp hrow
  unfold priceFor PricedBy
  rw [hprovider]
  cases hmodel : priceTable.lookup (settings.provider, model) with
  | some own => exact ⟨model, by simp [hmodel], .inl rfl⟩
  | none => exact ⟨"*", by simp [hmodel, hprice], .inr ⟨rfl, rfl⟩⟩

private theorem configured_of_realKey (h : settings.RealKey) :
    ∃ model, buildChatModel settings = .ok model ∧ Configured settings model := by
  have hsupported := supported_of_realKey h
  have hpriced := pricedBy_of_supported hsupported settings.llmModel
  have hkey := activeLlmApiKey_eq h
  unfold buildChatModel
  rw [hkey]
  cases hlane : openaiCompatible.lookup settings.provider with
  | some default =>
    by_cases hollama : settings.provider = "ollama"
    · refine ⟨_, if_pos hollama, ?_⟩
      exact {
        supported := hsupported
        modelName := rfl
        temperature := rfl
        key := (if_pos hollama).symm
        compatible := fun hother => absurd hollama hother
        hosted := fun hnone => by cases hlane.symm.trans hnone
        ollama := fun _ => rfl
        priced := hpriced }
    · refine ⟨_, if_neg hollama, ?_⟩
      exact {
        supported := hsupported
        modelName := rfl
        temperature := rfl
        key := (if_neg hollama).symm
        compatible := fun _ default' hlane' => by
          cases hlane.symm.trans hlane'
          exact ⟨rfl, rfl⟩
        hosted := fun hnone => by cases hlane.symm.trans hnone
        ollama := fun hname => absurd hname hollama
        priced := hpriced }
  | none =>
    have hollama : settings.provider ≠ "ollama" := by
      intro hname
      rw [hname] at hlane
      cases hlane
    have hhosted : ∀ chatClass, chatClass ≠ ChatClass.openAI → Configured settings
        ⟨chatClass, settings.llmModel, settings.temperature, none, settings.ownKey⟩ :=
      fun chatClass hclass => {
        supported := hsupported
        modelName := rfl
        temperature := rfl
        key := (if_neg hollama).symm
        compatible := fun _ default hlane' => by cases hlane.symm.trans hlane'
        hosted := fun _ => ⟨hclass, rfl⟩
        ollama := fun hname => absurd hname hollama
        priced := hpriced }
    have hnames : settings.provider = "anthropic" ∨ settings.provider = "gemini" := by
      rcases List.mem_append.mp hsupported with hlisted | hrest
      · obtain ⟨lane, hmem, hname⟩ := List.mem_map.mp hlisted
        have hne := List.lookup_eq_none_iff.mp hlane lane hmem
        exact absurd hname.symm (bne_iff_ne.mp hne)
      · simpa using hrest
    rcases hnames with hname | hname
    · exact ⟨_, if_pos hname, hhosted .anthropic (by decide)⟩
    · have hother : settings.provider ≠ "anthropic" := by simp [hname]
      exact ⟨_, (if_neg hother).trans (if_pos hname), hhosted .googleGenerativeAI (by decide)⟩

theorem buildLlmClient_cases (settings : ProviderSettings) :
    (settings.RealKey ∧ ∃ model, buildLlmClient settings = .ok model ∧ Configured settings model) ∨
      (¬ settings.RealKey ∧ buildLlmClient settings = .error (credentialsError settings)) := by
  unfold buildLlmClient
  by_cases h : settings.RealKey
  · left
    rw [if_pos (hasLlmCredentials_iff.mpr h)]
    exact ⟨h, configured_of_realKey h⟩
  · right
    rw [if_neg (mt hasLlmCredentials_iff.mp h)]
    exact ⟨h, rfl⟩

end

end TicketWarden.Graph
