/- Module: TicketWarden/Store/Lookup
   source: apps/api/src/store/catalog.py, apps/api/src/store/registry.py
   digest: The tools as they read the shop, how their arguments are bound, and what they
   answer. -/

import TicketWarden.Python.Numbers
import TicketWarden.Store.Registry
import TicketWarden.Store.Shop

set_option autoImplicit false
set_option relaxedAutoImplicit false

namespace TicketWarden.Store

open TicketWarden.Graph Effects Python Storage Tables

/-- The character database, `unicodedata.decimal`, the `str` of a float and of a container, the
text of the `TypeError` for arguments that do not fit, and a search for something other than
text. -/
structure Interpreter where
  db : Runtime
  decimal : Char → ℕ
  strOther : Json → Except Exc String
  argumentError : String → Dict → String
  searchOther : Shop → Json → Json → Except Exc Json

/-- `str(value)`. -/
def Interpreter.str (py : Interpreter) : Json → Except Exc String
  | .null => .ok "None"
  | .bool b => .ok (if b then "True" else "False")
  | .int n => strOfInt n
  | .str s => .ok s
  | value => py.strOther value

/-- `int(str(value).strip())`, or `none` where it raises. -/
def Interpreter.parseId (py : Interpreter) (value : Json) : Option ℤ :=
  match py.str value with
  | .ok text => intOfStr py.db py.decimal (String.ofList (strip py.db text.toList))
  | .error _ => none

/-- The integers that SQLite stores. -/
def IsInt64 (n : ℤ) : Prop := -2 ^ 63 ≤ n ∧ n < 2 ^ 63

instance (n : ℤ) : Decidable (IsInt64 n) := inferInstanceAs (Decidable (_ ∧ _))

/-- What `sqlite3` raises for any other integer. -/
def overflowError : Exc :=
  ⟨"OverflowError", "Python int too large to convert to SQLite INTEGER"⟩

/-- The words of a look-up by id: its parameter and its two errors. -/
structure IdWords where
  parameter : String
  invalid : String
  notFound : String

def lookupById (py : Interpreter) (words : IdWords) {ρ : Type} (find : ℤ → Option ρ)
    (describe : ℤ → ρ → Json) (value : Json) : Except Exc Json :=
  match py.parseId value with
  | none =>
    -- the report of a value without a text raises what its text raised
    (py.str value).map fun text =>
      .dict [("error", .str words.invalid), (words.parameter, .str text)]
  | some id =>
    if IsInt64 id then
      match find id with
      | none => .ok (.dict [("error", .str words.notFound), (words.parameter, .int id)])
      | some row => .ok (describe id row)
    else .error overflowError

/-- A column that may be `NULL`. -/
def columnJson : Option String → Json
  | none => .null
  | some s => .str s

def orderLines (shop : Shop) (orderId : ℤ) : List (OrderItemRow × Product) :=
  join Product.id OrderItemRow.productId
    (shop.orderItems.filter fun item => item.orderId == orderId) shop.products.rows

def lineJson (line : OrderItemRow × Product) : Json :=
  .dict [("title", .str line.2.title), ("price", .float line.2.price),
    ("quantity", .int line.1.quantity)]

def orderJson (shop : Shop) (orderId : ℤ) (order : OrderRow) : Json :=
  .dict [("order_id", .int orderId), ("status", .str order.status),
    ("customer_name", .str order.customerName), ("carrier", columnJson order.carrier),
    ("tracking_number", columnJson order.trackingNumber), ("placed_at", .str order.placedAt),
    ("items", .list ((orderLines shop orderId).map lineJson))]

def orderWords : IdWords := ⟨"order_id", "invalid_order_id", "order_not_found"⟩

/-- `check_order_status`. -/
def checkOrderStatus (py : Interpreter) (shop : Shop) (orderId : Json) : Except Exc Json :=
  lookupById py orderWords (findKey OrderRow.id shop.orders) (orderJson shop) orderId

/-- `dict(row)`. -/
def productJson (product : Product) : Json :=
  .dict [("id", .int product.id), ("title", .str product.title),
    ("category", .str product.category), ("price", .float product.price),
    ("description", columnJson product.description)]

def productWords : IdWords := ⟨"product_id", "invalid_product_id", "product_not_found"⟩

/-- `get_product_details`. -/
def getProductDetails (py : Interpreter) (shop : Shop) (productId : Json) : Except Exc Json :=
  lookupById py productWords (findKey Product.id shop.products.rows) (fun _ => productJson)
    productId

def hitJson (hit : SearchHit) : Json :=
  .dict [("id", .int hit.id), ("title", .str hit.title), ("category", .str hit.category),
    ("price", .float hit.price)]

def searchJson (result : SearchResult) : Json :=
  .dict [("query", .str result.query), ("category", columnJson result.category),
    ("count", .int result.count), ("results", .list (result.results.map hitJson))]

/-- `search_catalog`, of whatever the model asks it for. -/
def searchCatalogTool (py : Interpreter) (shop : Shop) : Json → Json → Except Exc Json
  | .str query, .null => .ok (searchJson (searchCatalog shop.products query none))
  | .str query, .str category =>
    .ok (searchJson (searchCatalog shop.products query (some category)))
  | query, category => py.searchOther shop query category

abbrev Parameter := String × Option Json

/-- The values that `func(**args)` gives to the parameters of a function. -/
def bindArguments (py : Interpreter) (name : String) (parameters : List Parameter)
    (args : Dict) : Except Exc (List Json) :=
  if args.all fun arg => parameters.any fun parameter => parameter.1 == arg.1 then
    match parameters.mapM fun parameter => (args.lookup parameter.1).or parameter.2 with
    | some values => .ok values
    | none => .error ⟨"TypeError", py.argumentError name args⟩
  else .error ⟨"TypeError", py.argumentError name args⟩

/-- `ALLOWLIST[name](**args)`. -/
def runTool (py : Interpreter) (shop : Shop) (name : String) (args : Dict) : Except Exc Json := do
  if name = "check_order_status" then
    match ← bindArguments py name [("order_id", none)] args with
    | [orderId] => checkOrderStatus py shop orderId
    | _ => .error ⟨"TypeError", py.argumentError name args⟩
  else if name = "get_product_details" then
    match ← bindArguments py name [("product_id", none)] args with
    | [productId] => getProductDetails py shop productId
    | _ => .error ⟨"TypeError", py.argumentError name args⟩
  else if name = "search_catalog" then
    match ← bindArguments py name [("query", some (.str "")), ("category", some .null)] args with
    | [query, category] => searchCatalogTool py shop query category
    | _ => .error ⟨"TypeError", py.argumentError name args⟩
  else .error ⟨"KeyError", name⟩

section Tools

variable (py : Interpreter) (shop : Shop) (args : Dict)

theorem runTool_checkOrderStatus :
    runTool py shop "check_order_status" args =
      (bindArguments py "check_order_status" [("order_id", none)] args).bind fun values =>
        match values with
        | [orderId] => checkOrderStatus py shop orderId
        | _ => .error ⟨"TypeError", py.argumentError "check_order_status" args⟩ := by
  rw [runTool, if_pos rfl]
  rfl

theorem runTool_getProductDetails :
    runTool py shop "get_product_details" args =
      (bindArguments py "get_product_details" [("product_id", none)] args).bind fun values =>
        match values with
        | [productId] => getProductDetails py shop productId
        | _ => .error ⟨"TypeError", py.argumentError "get_product_details" args⟩ := by
  rw [runTool, if_neg (by decide), if_pos rfl]
  rfl

theorem runTool_searchCatalog :
    runTool py shop "search_catalog" args =
      (bindArguments py "search_catalog" [("query", some (.str "")), ("category", some .null)]
        args).bind fun values =>
        match values with
        | [query, category] => searchCatalogTool py shop query category
        | _ => .error ⟨"TypeError", py.argumentError "search_catalog" args⟩ := by
  rw [runTool, if_neg (by decide), if_neg (by decide), if_pos rfl]
  rfl

end Tools

end TicketWarden.Store
