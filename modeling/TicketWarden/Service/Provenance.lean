/- Module: TicketWarden/Service/Provenance
   source: apps/api/src/main.py, apps/api/src/graph/nodes.py, apps/api/src/store/catalog.py,
   apps/api/src/store/registry.py
   digest: Every fact that a server hands to a model is what the shop says of it. -/

import TicketWarden.Service.Facts
import TicketWarden.Service.Lifetime
import TicketWarden.Store.Answers

set_option autoImplicit false
set_option relaxedAutoImplicit false

namespace TicketWarden.Service

open TicketWarden.Graph Effects Guardrails Python Storage Store

section

variable {G : Type}

def routeAnswer? (e : RouteEvent G) : Option Answer :=
  (callEvent? e).bind fun e => e.left?.bind answer?

private theorem answers_callEvents (tr : List (RouteEvent G)) :
    answers (callEvents tr) = tr.filterMap routeAnswer? := by
  rw [answers, graphEvents, callEvents, List.filterMap_filterMap, List.filterMap_filterMap]
  rfl

private theorem exists_no_answer (o : (routeSig G).Op) : ∃ r, routeAnswer? ⟨o, r⟩ = none := by
  obtain ⟨r⟩ := nonempty_routeReply o
  rcases o with (o | o) | o
  · exact ⟨r, rfl⟩
  · cases o with
    | callTool name args => exact ⟨.error ⟨"", ""⟩, rfl⟩
    | _ => exact ⟨r, rfl⟩
  · exact ⟨r, rfl⟩

section Requests

variable {ι : Type} [DecidableEq ι] {env : Env} {request : ι → ResolveRequest env.db}
  {tr : List (ι × RouteEvent G)}
  {pool' : ι → Program (routeSig G) Exc (Except HttpError ResolveResponse)}

private theorem handedFacts_of_interleaves
    (h : Interleaves (fun i => resolve env (fun _ => caseGraph env) (request i)) tr pool')
    (i : ι) :
    (∀ answer ∈ answers (callEvents (ownTrace i tr)), isAllowed answer.name = true) ∧
      ∀ facts ∈ handedFacts (callEvents (ownTrace i tr)),
        facts = (answers (callEvents (ownTrace i tr))).map (Answer.fact env.db) := by
  -- the rest of the request is run on replies that add no answer to those there are
  obtain ⟨rest, out, hexec, hnone⟩ :=
    (h.steps i).extends_by (P := fun e => routeAnswer? e = none) exists_no_answer
  obtain ⟨source, out', -, hcase, -⟩ := route_refines hexec
  have hanswers : answers (callEvents (ownTrace i tr ++ rest)) =
      answers (callEvents (ownTrace i tr)) := by
    rw [answers_callEvents, answers_callEvents, List.filterMap_append,
      List.filterMap_eq_nil_iff.mpr hnone, List.append_nil]
  have hhanded : ∀ facts ∈ handedFacts (callEvents (ownTrace i tr)),
      facts ∈ handedFacts (callEvents (ownTrace i tr ++ rest)) := by
    intro facts hfacts
    rw [handedFacts, graphEvents, callEvents, List.filterMap_append, List.filterMap_append,
      List.filterMap_append]
    exact List.mem_append_left _ hfacts
  rw [← hanswers]
  obtain ⟨_, _, _, _, ⟨_, _, hgraph, _⟩ | ⟨_, gout, hgraph, _⟩⟩ := exec_resolveCase hcase
  · refine ⟨by simp [answers, hgraph], fun facts hfacts => ?_⟩
    have hmem := hhanded facts hfacts
    rw [handedFacts, hgraph] at hmem
    cases hmem
  · cases source with
    | ok graph =>
      obtain ⟨hnames, hfacts, -⟩ := handedFacts_of_exec rfl hgraph
      exact ⟨hnames, fun facts hmem => hfacts facts (hhanded facts hmem)⟩
    | error exc =>
      obtain ⟨hnil, -⟩ := exec_fail_iff.mp hgraph
      refine ⟨by simp [answers, hnil], fun facts hfacts => ?_⟩
      have hmem := hhanded facts hfacts
      rw [handedFacts, hnil] at hmem
      cases hmem

end Requests

variable {tool : Shop → String → Dict → Except Exc Json} {s s' : Server G}

theorem shop_of_runs {tr : List (RouteEvent G)} (h : World.Runs (ServerStep tool) s tr s') :
    s'.file.shop = s.file.shop := by
  obtain ⟨ws, -, hfile⟩ := runs_file h
  rw [hfile, replay_shop]

theorem ServerStep.answered {e : RouteEvent G} {answer : Answer} (h : ServerStep tool s e s')
    (hanswer : routeAnswer? e = some answer) :
    tool s.file.shop answer.name answer.args = .ok answer.result ∧ Stands answer.result := by
  have hcall : ∀ name args reply, routeAnswer?
      (⟨.inl (.inr (.callTool name args)), reply⟩ : RouteEvent G) = some answer →
      answer.name = name ∧ answer.args = args ∧ reply = .ok answer.result ∧
        Stands answer.result := by
    intro name args reply hshown
    rcases reply with exc | result
    · cases hshown
    · change (if (result.get? "error").any Json.truthy then none else some _) = some answer
        at hshown
      split at hshown
      · cases hshown
      · rename_i hno
        cases hshown
        exact ⟨rfl, rfl, rfl, hno⟩
  cases h with
  | toolAnswered name args =>
    obtain ⟨rfl, rfl, hreply, hstands⟩ := hcall _ _ _ hanswer
    exact ⟨hreply, hstands⟩
  | toolFailed name args exc => cases hanswer
  | graphEvent e hno =>
    obtain ⟨o, r⟩ := e
    cases o with
    | callTool name args => exact absurd rfl (hno name args)
    | _ => cases hanswer
  | _ => cases hanswer

private theorem answered_of_runs {tr : List (RouteEvent G)}
    (h : World.Runs (ServerStep tool) s tr s')
    {answer : Answer} (hanswer : answer ∈ tr.filterMap routeAnswer?) :
    tool s.file.shop answer.name answer.args = .ok answer.result ∧ Stands answer.result := by
  obtain ⟨e, he, hshown⟩ := List.mem_filterMap.mp hanswer
  obtain ⟨before, after, rfl⟩ := List.append_of_mem he
  obtain ⟨mid, mid', hbefore, hstep, -⟩ := h.at_event
  rw [← shop_of_runs hbefore]
  exact hstep.answered hshown

/-- The facts there are of a shop: the order or the product that has the id asked for, as it is
stored, and the products that a search finds, where of what was searched for a flagged text is
replaced. A search for something other than text is answered by the interpreter. -/
inductive ShopFact (db : Runtime) (py : Interpreter) (shop : Shop) : Fact → Prop
  | order {args : Dict} {value : Json} {order : OrderRow} : OnlyArgument "order_id" value args →
      py.parseId value = some order.id → order ∈ shop.orders →
      ShopFact db py shop ⟨"check_order_status", args, orderJson shop order.id order⟩
  | product {args : Dict} {value : Json} {product : Product} :
      OnlyArgument "product_id" value args → py.parseId value = some product.id →
      product ∈ shop.products.rows →
      ShopFact db py shop ⟨"get_product_details", args, productJson product⟩
  | search {args : Dict} {query : String} {category : Option String} :
      (args.lookup "query").getD (.str "") = .str query →
      (args.lookup "category").getD .null = columnJson category →
      ShopFact db py shop ⟨"search_catalog", args,
        .dict [("query", (clean db (.str query)).2),
          ("category", (clean db (columnJson category)).2),
          ("count", .int (searchCatalog shop.products query category).count),
          ("results", .list ((searchCatalog shop.products query category).results.map hitJson))]⟩
  | searchOther {args : Dict} {query category result : Json} :
      (args.lookup "query").getD (.str "") = query →
      (args.lookup "category").getD .null = category →
      py.searchOther shop query category = .ok result →
      ShopFact db py shop ⟨"search_catalog", args, (clean db result).2⟩

variable {db : Runtime} {py : Interpreter} {shop : Shop}

private theorem unflagged_hits (h : Unflagged db shop.texts) {rows : List Product}
    (hrows : ∀ row ∈ rows, row ∈ shop.products.rows) :
    Unflagged db (listStrings ((rows.map Product.hit).map hitJson)) := by
  induction rows with
  | nil => simp [listStrings, Unflagged]
  | cons row rows ih =>
    have hrow : Unflagged db (strings (hitJson row.hit)) := by
      intro s hs
      have htext : s ∈ productTexts row := by
        simp only [hitJson, Product.hit, strings, entryStrings, List.nil_append, List.append_nil,
          List.mem_append, List.mem_singleton] at hs
        rcases hs with rfl | rfl
        · exact List.mem_cons_self
        · exact List.mem_cons_of_mem _ List.mem_cons_self
      exact h s (List.mem_append_left _
        (List.mem_flatMap.mpr ⟨row, hrows row List.mem_cons_self, htext⟩))
    intro s hs
    rw [List.map_cons, List.map_cons, listStrings] at hs
    rcases List.mem_append.mp hs with hs | hs
    · exact hrow s hs
    · exact ih (fun row' hrow' => hrows row' (List.mem_cons_of_mem _ hrow')) s hs

private theorem clean_searchJson (h : Unflagged db shop.texts) (query : String)
    (category : Option String) :
    (clean db (searchJson (searchCatalog shop.products query category))).2 =
      .dict [("query", (clean db (.str query)).2), ("category", (clean db (columnJson category)).2),
        ("count", .int (searchCatalog shop.products query category).count),
        ("results", .list ((searchCatalog shop.products query category).results.map hitJson))] := by
  have hhits : cleanList db ((searchCatalog shop.products query category).results.map hitJson) =
      (false, (searchCatalog shop.products query category).results.map hitJson) := by
    apply cleanList_of_unflagged
    exact unflagged_hits h fun row hrow => List.mem_of_mem_filter (List.mem_of_mem_take hrow)
  rw [searchJson]
  simp only [clean, cleanEntries]
  rw [hhits]
  rfl

private theorem shopFact_of_answer (h : Unflagged db shop.texts) {answer : Answer}
    (hallowed : isAllowed answer.name = true)
    (hresult : runTool py shop answer.name answer.args = .ok answer.result)
    (hstands : Stands answer.result) : ShopFact db py shop (answer.fact db) := by
  obtain ⟨name, args, result⟩ := answer
  dsimp only at hallowed hresult hstands
  have hnames : name = "check_order_status" ∨ name = "get_product_details" ∨
      name = "search_catalog" := by
    simpa [isAllowed, allowlist] using hallowed
  rcases hnames with rfl | rfl | rfl
  · obtain ⟨value, hargs, order, horder, hid, -, rfl⟩ :=
      (lookup_answer_iff _ orderWords shop.orders_key (by decide) (by decide)
        (stands_orderJson shop)).mp ⟨hresult, hstands⟩
    have hdata := clean_of_unflagged (unflagged_orderJson h horder order.id)
    rw [Answer.fact, hdata]
    exact .order hargs hid horder
  · obtain ⟨value, hargs, product, hproduct, hid, -, rfl⟩ :=
      (lookup_answer_iff _ productWords shop.products.ids_nodup (by decide) (by decide)
        fun _ => stands_productJson).mp ⟨hresult, hstands⟩
    have hdata := clean_of_unflagged (unflagged_productJson h hproduct)
    rw [Answer.fact, hdata]
    exact .product hargs hid hproduct
  · obtain ⟨-, hsearch⟩ := search_answer_iff.mp hresult
    show ShopFact db py shop ⟨"search_catalog", args, (clean db result).2⟩
    generalize hquery : (args.lookup "query").getD (.str "") = query at hsearch
    generalize hcategory : (args.lookup "category").getD .null = category at hsearch
    unfold searchCatalogTool at hsearch
    split at hsearch
    · rw [← Except.ok.inj hsearch, clean_searchJson h]
      exact .search hquery hcategory
    · rw [← Except.ok.inj hsearch, clean_searchJson h]
      exact .search hquery hcategory
    · exact .searchOther hquery hcategory hsearch

variable {ι : Type} [DecidableEq ι] {env : Env} {request : ι → ResolveRequest env.db}
  {tr : List (ι × RouteEvent G)}
  {pool' : ι → Program (routeSig G) Exc (Except HttpError ResolveResponse)}

/-- On a server whose file has no flagged text in its shop, whatever it has answered before and
answers at once, all that a request hands to the responder and the reviewer as a fact is what
the shop says of the arguments shown with it, in the very row they ask for. -/
theorem facts_from_shop {file : DatabaseFile}
    (hclean : Unflagged env.db (seedCatalog file.shop).texts)
    (hreach : Reaches env (fun _ => caseGraph env) (runTool py) (.start file) s)
    (hinter : Interleaves (fun i => resolve env (fun _ => caseGraph env) (request i)) tr pool')
    (hworld : World.Runs (ServerStep (runTool py)) s (tr.map Prod.snd) s') (i : ι) :
    ∀ facts ∈ handedFacts (callEvents (ownTrace i tr)), ∀ fact ∈ facts,
      ShopFact env.db py (seedCatalog file.shop) fact := by
  intro facts hfacts fact hfact
  obtain ⟨hnames, hhanded⟩ := handedFacts_of_interleaves hinter i
  rw [hhanded facts hfacts] at hfact
  obtain ⟨answer, hanswer, rfl⟩ := List.mem_map.mp hfact
  have hanswered : answer ∈ (tr.map Prod.snd).filterMap routeAnswer? := by
    rw [answers_callEvents] at hanswer
    obtain ⟨e, he, hshown⟩ := List.mem_filterMap.mp hanswer
    exact List.mem_filterMap.mpr ⟨e, List.mem_map_of_mem (mem_ownTrace.mp he), hshown⟩
  obtain ⟨hresult, hstands⟩ := answered_of_runs hworld hanswered
  rw [shop_of_reaches hreach] at hresult
  exact shopFact_of_answer hclean (hnames answer hanswer) hresult hstands

end

def asciiPy : Interpreter where
  db := asciiData
  decimal c := c.toNat - 48
  strOther _ := .ok ""
  argumentError name _ := name ++ "() got an unexpected keyword argument"
  searchOther _ _ _ := .ok (.list [])

def serveShop (llm : FakeLLM) (requests : List Bool) (s : Server Unit := .start .empty) :
    List (Bool × RouteEvent Unit) × Server Unit :=
  runAll (Server.handler llm (.ok ()) (runTool asciiPy)) twoRoutes requests s

private theorem interleaves_serveShop (llm : FakeLLM) {requests : List Bool}
    (hnodup : requests.Nodup)
    (s : Server Unit) : ∃ pool', Interleaves twoRoutes (serveShop llm requests s).1 pool' := by
  obtain ⟨pool', hinter, -⟩ := interleaves_runAll _ twoRoutes hnodup s
  exact ⟨pool', hinter⟩

private theorem runs_serveShop (llm : FakeLLM) (requests : List Bool) (s : Server Unit) :
    World.Runs (ServerStep (runTool asciiPy)) s ((serveShop llm requests s).1.map Prod.snd)
      (serveShop llm requests s).2 :=
  World.runs_runAll (step_handler llm (.ok ())) _ _ _

def orderLLM : FakeLLM where
  toolRequests := [⟨"check_order_status", some [("order_id", .str " 4 ")]⟩]

theorem facts_from_shop_serve :
    ((handedFacts (callEvents (ownTrace true (serveShop orderLLM [false, true]).1))).any
        fun facts => facts.any fun fact => fact.tool == "check_order_status") = true ∧
      ∀ facts ∈ handedFacts (callEvents (ownTrace true (serveShop orderLLM [false, true]).1)),
        ∀ fact ∈ facts,
          ShopFact asciiData asciiPy (seedCatalog DatabaseFile.empty.shop) fact := by
  refine ⟨by decide +kernel, ?_⟩
  have hclean : Unflagged testEnv.db (seedCatalog DatabaseFile.empty.shop).texts :=
    unflagged_seeded _
  obtain ⟨pool', hinter⟩ := interleaves_serveShop orderLLM (by decide : [false, true].Nodup)
    (.start .empty)
  exact facts_from_shop hclean .refl hinter (runs_serveShop _ _ _) true

end TicketWarden.Service
