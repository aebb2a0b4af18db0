/- Module: TicketWarden/Store/Answers
   source: apps/api/src/store/catalog.py, apps/api/src/store/registry.py
   digest: For which arguments a look-up answers with a row of the shop, and what of the shop
   the answer shows. -/

import Mathlib.Data.List.Dedup
import TicketWarden.Graph.Ledger
import TicketWarden.Guardrails.Quarantine
import TicketWarden.Store.Lookup

set_option autoImplicit false
set_option relaxedAutoImplicit false

namespace TicketWarden.Store

open TicketWarden.Graph Effects Guardrails Python Storage Tables

section

variable {py : Interpreter} {shop : Shop} {args : Dict} {result : Json}

abbrev Stands (result : Json) : Prop := ¬ Failed (.ok result)

private theorem stands_iff : Stands result ↔ (result.get? "error").any Json.truthy = false := by
  rw [Stands, Failed, Bool.not_eq_true]

private theorem not_stands_report {error : String} (h : error ≠ "") (entries : Dict) :
    ¬ Stands (.dict (("error", .str error) :: entries)) := by
  simp [stands_iff, Json.get?, Json.truthy, h]

private theorem lookupById_stands_iff {words : IdWords} {ρ : Type} {find : ℤ → Option ρ}
    {describe : ℤ → ρ → Json} {value : Json} (hinvalid : words.invalid ≠ "")
    (hnotFound : words.notFound ≠ "") (hdescribe : ∀ id row, Stands (describe id row)) :
    lookupById py words find describe value = .ok result ∧ Stands result ↔
      ∃ id row, py.parseId value = some id ∧ IsInt64 id ∧ find id = some row ∧
        result = describe id row := by
  unfold lookupById
  cases hid : py.parseId value with
  | none =>
    refine iff_of_false ?_ (by simp)
    rintro ⟨hresult, hstands⟩
    cases htext : py.str value with
    | error exc =>
      rw [htext] at hresult
      cases hresult
    | ok text =>
      rw [htext] at hresult
      cases hresult
      exact not_stands_report hinvalid _ hstands
  | some id =>
    by_cases hint : IsInt64 id
    · simp only [if_pos hint]
      cases hrow : find id with
      | none =>
        refine iff_of_false ?_ (by simp [hrow])
        rintro ⟨hresult, hstands⟩
        cases hresult
        exact not_stands_report hnotFound _ hstands
      | some row =>
        constructor
        · rintro ⟨hresult, -⟩
          cases hresult
          exact ⟨id, row, rfl, hint, hrow, rfl⟩
        · rintro ⟨id', row', hid', -, hrow', rfl⟩
          cases hid'
          cases hrow.symm.trans hrow'
          exact ⟨rfl, hdescribe _ _⟩
    · simp only [if_neg hint]
      refine iff_of_false (by simp) ?_
      rintro ⟨id', row, hid', hint', -⟩
      cases hid'
      exact hint hint'

/-- The dictionary has the one key, with this value. -/
def OnlyArgument (key : String) (value : Json) (args : Dict) : Prop :=
  (∀ arg ∈ args, arg.1 = key) ∧ args.lookup key = some value

private theorem bindArguments_single_iff {name key : String} {values : List Json} :
    bindArguments py name [(key, none)] args = .ok values ↔
      ∃ value, OnlyArgument key value args ∧ values = [value] := by
  have hkeys : (args.all fun arg => [(key, none)].any fun parameter : Parameter =>
      parameter.1 == arg.1) = true ↔ ∀ arg ∈ args, arg.1 = key := by
    rw [List.all_eq_true]
    refine forall₂_congr fun arg _ => ?_
    rw [List.any_cons, List.any_nil, Bool.or_false, beq_iff_eq]
    exact eq_comm
  have hmap : ([(key, none)].mapM fun parameter : Parameter =>
      (args.lookup parameter.1).or parameter.2) = (args.lookup key).map fun value => [value] := by
    simp only [List.mapM_cons, List.mapM_nil, Option.or_none]
    cases args.lookup key <;> rfl
  unfold bindArguments OnlyArgument
  by_cases hall : ∀ arg ∈ args, arg.1 = key
  · rw [if_pos (hkeys.mpr hall), hmap]
    cases hvalue : args.lookup key with
    | none =>
      refine iff_of_false (by simp) ?_
      rintro ⟨value, ⟨-, hfound⟩, -⟩
      cases hfound
    | some value =>
      constructor
      · intro hvalues
        cases hvalues
        exact ⟨value, ⟨hall, rfl⟩, rfl⟩
      · rintro ⟨value', ⟨-, hfound⟩, rfl⟩
        cases hfound
        rfl
  · rw [if_neg (mt hkeys.mp hall)]
    refine iff_of_false (by simp) ?_
    rintro ⟨value, ⟨hkey, -⟩, -⟩
    exact hall hkey

private theorem bind_single_iff {name key : String} {f : Json → Except Exc Json} :
    ((bindArguments py name [(key, none)] args).bind fun values =>
        match values with
        | [value] => f value
        | _ => .error ⟨"TypeError", py.argumentError name args⟩) = .ok result ↔
      ∃ value, OnlyArgument key value args ∧ f value = .ok result := by
  cases hbound : bindArguments py name [(key, none)] args with
  | error exc =>
    refine iff_of_false (by simp [Except.bind]) ?_
    rintro ⟨value, hvalue, -⟩
    rw [bindArguments_single_iff.mpr ⟨value, hvalue, rfl⟩] at hbound
    cases hbound
  | ok values =>
    obtain ⟨value, hvalue, rfl⟩ := bindArguments_single_iff.mp hbound
    constructor
    · intro hresult
      exact ⟨value, hvalue, hresult⟩
    · rintro ⟨value', hvalue', hresult⟩
      cases hvalue.2.symm.trans hvalue'.2
      exact hresult

theorem lookup_answer_iff (name : String) (words : IdWords) {ρ : Type} {key : ρ → ℤ}
    {rows : List ρ} {describe : ℤ → ρ → Json} (hkey : (rows.map key).Nodup)
    (hinvalid : words.invalid ≠ "") (hnotFound : words.notFound ≠ "")
    (hdescribe : ∀ id row, Stands (describe id row)) :
    ((bindArguments py name [(words.parameter, none)] args).bind fun values =>
        match values with
        | [value] => lookupById py words (findKey key rows) describe value
        | _ => .error ⟨"TypeError", py.argumentError name args⟩) = .ok result ∧ Stands result ↔
      ∃ value, OnlyArgument words.parameter value args ∧ ∃ row ∈ rows,
        py.parseId value = some (key row) ∧ IsInt64 (key row) ∧
          result = describe (key row) row := by
  rw [bind_single_iff]
  constructor
  · rintro ⟨⟨value, hvalue, hresult⟩, hstands⟩
    obtain ⟨id, row, hid, hint, hfound, rfl⟩ :=
      (lookupById_stands_iff hinvalid hnotFound hdescribe).mp ⟨hresult, hstands⟩
    obtain ⟨hrow, rfl⟩ := (findKey_eq_some_iff key hkey).mp hfound
    exact ⟨value, hvalue, row, hrow, hid, hint, rfl⟩
  · rintro ⟨value, hvalue, row, hrow, hid, hint, rfl⟩
    have hfound := (findKey_eq_some_iff key hkey).mpr ⟨hrow, rfl⟩
    obtain ⟨hresult, hstands⟩ := (lookupById_stands_iff hinvalid hnotFound hdescribe).mpr
      ⟨_, row, hid, hint, hfound, rfl⟩
    exact ⟨⟨value, hvalue, hresult⟩, hstands⟩

theorem stands_orderJson (shop : Shop) (id : ℤ) (order : OrderRow) :
    Stands (orderJson shop id order) := by
  simp [stands_iff, orderJson, Json.get?, List.lookup_cons]

theorem stands_productJson (product : Product) : Stands (productJson product) := by
  simp [stands_iff, productJson, Json.get?, List.lookup_cons]

/-- The two look-ups of a shop. -/
theorem lookups_answer_iff :
    (runTool py shop "check_order_status" args = .ok result ∧ Stands result ↔
        ∃ value, OnlyArgument "order_id" value args ∧ ∃ order ∈ shop.orders,
          py.parseId value = some order.id ∧ IsInt64 order.id ∧
            result = orderJson shop order.id order) ∧
      (runTool py shop "get_product_details" args = .ok result ∧ Stands result ↔
        ∃ value, OnlyArgument "product_id" value args ∧ ∃ product ∈ shop.products.rows,
          py.parseId value = some product.id ∧ IsInt64 product.id ∧
            result = productJson product) := by
  rw [runTool_checkOrderStatus, runTool_getProductDetails]
  exact ⟨lookup_answer_iff "check_order_status" orderWords shop.orders_key (by decide) (by decide)
      (stands_orderJson shop),
    lookup_answer_iff "get_product_details" productWords shop.products.ids_nodup (by decide)
      (by decide) fun _ => stands_productJson⟩

theorem search_answer_iff :
    runTool py shop "search_catalog" args = .ok result ↔
      (∀ arg ∈ args, arg.1 = "query" ∨ arg.1 = "category") ∧
        searchCatalogTool py shop ((args.lookup "query").getD (.str ""))
          ((args.lookup "category").getD .null) = .ok result := by
  have hkeys : (args.all fun arg => [("query", some (.str "")), ("category", some .null)].any
      fun parameter : Parameter => parameter.1 == arg.1) = true ↔
        ∀ arg ∈ args, arg.1 = "query" ∨ arg.1 = "category" := by
    rw [List.all_eq_true]
    refine forall₂_congr fun arg _ => ?_
    simp only [List.any_cons, List.any_nil, Bool.or_false, Bool.or_eq_true, beq_iff_eq]
    exact or_congr eq_comm eq_comm
  have hmap : ([("query", some (.str "")), ("category", some .null)].mapM
      fun parameter : Parameter => (args.lookup parameter.1).or parameter.2) =
        some [(args.lookup "query").getD (.str ""), (args.lookup "category").getD .null] := by
    simp only [List.mapM_cons, List.mapM_nil]
    cases args.lookup "query" <;> cases args.lookup "category" <;> rfl
  rw [runTool_searchCatalog]
  unfold bindArguments
  by_cases hall : ∀ arg ∈ args, arg.1 = "query" ∨ arg.1 = "category"
  · rw [if_pos (hkeys.mpr hall), hmap]
    exact (and_iff_right hall).symm
  · rw [if_neg (mt hkeys.mp hall)]
    exact iff_of_false (by simp [Except.bind]) fun h => hall h.1

end

def productTexts (product : Product) : List String :=
  product.title :: product.category :: product.description.toList

def orderTexts (order : OrderRow) : List String :=
  order.status :: order.customerName :: order.placedAt ::
    (order.carrier.toList ++ order.trackingNumber.toList)

def Shop.texts (shop : Shop) : List String :=
  shop.products.rows.flatMap productTexts ++ shop.orders.flatMap orderTexts

private theorem strings_columnJson (column : Option String) :
    strings (columnJson column) = column.toList := by
  cases column <;> rfl

private theorem strings_productJson (product : Product) :
    strings (productJson product) = productTexts product := by
  simp [productJson, productTexts, strings, entryStrings, strings_columnJson]

section

variable {db : Runtime} {shop : Shop}

theorem unflagged_productJson (h : Unflagged db shop.texts) {product : Product}
    (hproduct : product ∈ shop.products.rows) : Unflagged db (strings (productJson product)) := by
  intro s hs
  rw [strings_productJson] at hs
  exact h s (List.mem_append_left _ (List.mem_flatMap.mpr ⟨product, hproduct, hs⟩))

private theorem unflagged_lines (h : Unflagged db shop.texts)
    {lines : List (OrderItemRow × Product)} (hlines : ∀ line ∈ lines, line.2 ∈ shop.products.rows) :
    Unflagged db (listStrings (lines.map lineJson)) := by
  induction lines with
  | nil => simp [listStrings, Unflagged]
  | cons line lines ih =>
    have hline : Unflagged db (strings (lineJson line)) := by
      intro s hs
      have htitle : s = line.2.title := by
        simpa [lineJson, strings, entryStrings] using hs
      rw [htitle]
      refine h _ (List.mem_append_left _ (List.mem_flatMap.mpr ⟨line.2, ?_, List.mem_cons_self⟩))
      exact hlines line List.mem_cons_self
    intro s hs
    rw [List.map_cons, listStrings] at hs
    rcases List.mem_append.mp hs with hs | hs
    · exact hline s hs
    · exact ih (fun line' hline' => hlines line' (List.mem_cons_of_mem _ hline')) s hs

theorem unflagged_orderJson (h : Unflagged db shop.texts) {order : OrderRow}
    (horder : order ∈ shop.orders) (id : ℤ) :
    Unflagged db (strings (orderJson shop id order)) := by
  have hlines : Unflagged db (listStrings ((orderLines shop id).map lineJson)) :=
    unflagged_lines h fun line hline => ((mem_join Product.id OrderItemRow.productId).mp hline).2.1
  have htexts : ∀ s ∈ orderTexts order, isInjection db s = false := fun s hs =>
    h s (List.mem_append_right _ (List.mem_flatMap.mpr ⟨order, horder, hs⟩))
  intro s hs
  have hcases : s ∈ orderTexts order ∨ s ∈ listStrings ((orderLines shop id).map lineJson) := by
    simp only [orderJson, strings, entryStrings, strings_columnJson, List.nil_append,
      List.append_nil, List.mem_append, List.mem_singleton] at hs
    simp only [orderTexts, List.mem_cons, List.mem_append]
    tauto
  exact hcases.elim (htexts s) (hlines s)

end

theorem unflagged_seeded (db : Runtime) : Unflagged db (seedCatalog .empty).texts := by
  have hall : ((seedCatalog .empty).texts.dedup.all fun s =>
      (s.toList.all fun c => decide (c.toNat < 128)) && !isInjection asciiData s) = true := by
    decide +kernel
  intro s hs
  have htext := List.all_eq_true.mp hall s (List.mem_dedup.mpr hs)
  obtain ⟨hascii, hclean⟩ := Bool.and_eq_true_iff.mp htext
  rw [isInjection_ascii db asciiData fun c hc =>
    of_decide_eq_true (List.all_eq_true.mp hascii c hc)]
  simpa using hclean

end TicketWarden.Store
