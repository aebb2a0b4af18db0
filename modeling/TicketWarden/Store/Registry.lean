/- Module: TicketWarden/Store/Registry
   source: apps/api/src/store/registry.py
   digest: The tool allowlist and the dispatch of a request. -/

import TicketWarden.Graph.State

set_option autoImplicit false
set_option relaxedAutoImplicit false

namespace TicketWarden.Store

open TicketWarden.Graph Effects Python

/-- The names in `ALLOWLIST`. -/
def allowlist : List String := ["check_order_status", "get_product_details", "search_catalog"]

def isAllowed (name : String) : Bool := allowlist.contains name

def errorRecord (name : String) (args : Dict) (exc : Exc) : ToolRecord where
  toolName := name
  args := args
  result := .dict [("error", .str (if exc.type = "TypeError" then "bad_arguments"
    else "tool_exception")), ("detail", .str exc.message)]
  status := ToolStatus.error.value

def resultRecord (name : String) (args : Dict) (result : Json) : ToolRecord where
  toolName := name
  args := args
  result := result
  status :=
    if (result.get? "error").any Json.truthy then ToolStatus.error.value
    else ToolStatus.ok.value

/-- `dispatch_tool`: a name off the allowlist is recorded and never called. -/
def dispatchTool (name : String) (args : Dict) : GraphProgram ToolRecord :=
  if !isAllowed name then
    pure ⟨name, args, .dict [("error", .str "tool_not_allowlisted")], ToolStatus.blocked.value⟩
  else do
    match ← perform (.callTool name args) with
    | .error exc => pure (errorRecord name args exc)
    | .ok result => pure (resultRecord name args result)

end TicketWarden.Store
