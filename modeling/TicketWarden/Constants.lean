/- Module: TicketWarden/Constants
   source: apps/api/src/constants.py, apps/api/src/config.py
   digest: The enumerations of the pipeline, its settings and its exceptions. -/

import TicketWarden.Python.Builtins

set_option autoImplicit false
set_option relaxedAutoImplicit false

namespace TicketWarden

inductive Decision
  | resolved | escalate | refuse
  deriving DecidableEq

def Decision.value : Decision → String
  | .resolved => "RESOLVED"
  | .escalate => "ESCALATE"
  | .refuse => "REFUSE"

inductive Category
  | order | product | refund | other
  deriving DecidableEq

def Category.value : Category → String
  | .order => "order"
  | .product => "product"
  | .refund => "refund"
  | .other => "other"

/-- `CATEGORIES`. -/
def categories : List String :=
  [Category.order, .product, .refund, .other].map Category.value

inductive ToolStatus
  | ok | error | blocked | sanitized
  deriving DecidableEq

def ToolStatus.value : ToolStatus → String
  | .ok => "ok"
  | .error => "error"
  | .blocked => "blocked"
  | .sanitized => "sanitized"

inductive SecurityEventType
  | injectionRefused | toolBlocked | toolOutputSanitized | outboundLeakBlocked
  deriving DecidableEq

def SecurityEventType.value : SecurityEventType → String
  | .injectionRefused => "injection_refused"
  | .toolBlocked => "tool_blocked"
  | .toolOutputSanitized => "tool_output_sanitized"
  | .outboundLeakBlocked => "outbound_leak_blocked"

/-- The settings the pipeline reads while it runs. -/
structure Settings where
  llmProvider : String
  llmModel : String
  maxReviewIterations : ℤ
  maxToolRounds : ℤ

/-- A raised exception: its type and `str(exc)`. -/
structure Exc where
  type : String
  message : String
  deriving DecidableEq

/-- `s or fallback` for a string that may be absent. -/
def strOr (s : Option String) (fallback : String) : String :=
  match s with
  | none => fallback
  | some s => if s = "" then fallback else s

@[simp] theorem strOr_none (fallback : String) : strOr none fallback = fallback := rfl

end TicketWarden
