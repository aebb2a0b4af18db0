/- Module: TicketWarden/Store/Catalog
   source: apps/api/src/store/catalog.py (search_catalog), apps/api/src/store/seed.py
   digest: The keyword search of the catalog, and the queries for which its pattern is one. -/

import Mathlib.Data.List.Nodup
import TicketWarden.Constants
import TicketWarden.Patterns.Wildcard

set_option autoImplicit false
set_option relaxedAutoImplicit false

namespace TicketWarden.Store

open Patterns

/-- A row of `products`. -/
structure Product where
  id : ℤ
  title : String
  category : String
  price : ℚ
  description : Option String

/-- The table `products`, its rows in the order they are visited. -/
structure ProductTable where
  rows : List Product
  ids_nodup : (rows.map Product.id).Nodup

def sameIgnoringCase (c d : Char) : Bool := c.toLower == d.toLower

def likeSymbol (c : Char) : Wild Char :=
  if c = '%' then .run else if c = '_' then .one else .sym c

/-- `text LIKE pattern`; a `NULL` matches nothing. Patterns are taken to have no NUL character and
less than 50000 bytes: SQLite reads one up to its first NUL and refuses longer ones. -/
def like (text : Option String) (pattern : String) : Bool :=
  text.any fun text => matchesWild sameIgnoringCase (pattern.toList.map likeSymbol) text.toList

/-- The columns of a row that are selected. -/
structure SearchHit where
  id : ℤ
  title : String
  category : String
  price : ℚ
  deriving DecidableEq

structure SearchResult where
  query : String
  category : Option String
  count : ℕ
  results : List SearchHit

def Product.hit (row : Product) : SearchHit := ⟨row.id, row.title, row.category, row.price⟩

/-- What an optional category adds to the `WHERE` clause. -/
def categoryConditions : Option String → List (Product → Bool)
  | none => []
  | some category => if category = "" then [] else [fun row => row.category == category]

def queryConditions (query : String) : List (Product → Bool) :=
  if query = "" then []
  else
    let pattern := "%" ++ query ++ "%"
    [fun row => like (some row.title) pattern || like row.description pattern]

def selected (query : String) (category : Option String) (row : Product) : Bool :=
  (categoryConditions category ++ queryConditions query).all fun condition => condition row

/-- `search_catalog`. -/
def searchCatalog (table : ProductTable) (query : String) (category : Option String) :
    SearchResult :=
  let rows := (table.rows.filter (selected query category)).take 10
  ⟨query, category, rows.length, rows.map Product.hit⟩

def contains (query text : String) : Bool :=
  decide (query.toList.map Char.toLower <:+: text.toList.map Char.toLower)

def inCategory (category : Option String) (row : Product) : Bool :=
  category.all fun category => category == "" || row.category == category

def wanted (query : String) (category : Option String) (row : Product) : Bool :=
  inCategory category row && (contains query row.title || row.description.any (contains query))

/-- The search returns rows that are wanted, none twice, and all of them if they are few. -/
structure KeywordSearch (table : ProductTable) (query : String) (category : Option String) :
    Prop where
  sound : ∀ hit ∈ (searchCatalog table query category).results,
    ∃ row ∈ table.rows, row.hit = hit ∧ wanted query category row = true
  distinct : ((searchCatalog table query category).results.map SearchHit.id).Nodup
  complete : table.rows.countP (wanted query category) ≤ 10 →
    (∀ row ∈ table.rows, wanted query category row = true →
      row.hit ∈ (searchCatalog table query category).results) ∧
      (searchCatalog table query category).count = table.rows.countP (wanted query category)

def falseHit (query : String) (category : Option String) (row : Product) : Bool :=
  inCategory category row && (like (some row.title) ("%" ++ query ++ "%") ||
    like row.description ("%" ++ query ++ "%")) && !wanted query category row

/-- Every such row comes after as many wanted rows as the search returns at most. -/
def FalseHitsLate (table : ProductTable) (query : String) (category : Option String) : Prop :=
  ∀ before row after, table.rows = before ++ row :: after →
    falseHit query category row = true → 10 ≤ before.countP (wanted query category)

section

variable {α : Type} {p w : α → Bool} {n : ℕ}

private theorem forall_take_filter_iff (hwp : ∀ x, w x = true → p x = true) (xs : List α) :
    (∀ x ∈ (xs.filter p).take n, w x = true) ↔
      ∀ before x after, xs = before ++ x :: after → p x = true → w x = false →
        n ≤ before.countP w := by
  have hfilter : ∀ ys : List α, (ys.filter p).countP w = ys.countP w := by
    intro ys
    rw [List.countP_filter]
    exact List.countP_congr fun y _ => by simpa using hwp y
  constructor
  · rintro h before x after rfl hp hw
    rw [List.filter_append, List.filter_cons_of_pos hp] at h
    by_cases hlen : n ≤ (before.filter p).length
    · rw [List.take_append_of_le_length hlen] at h
      have hcount := List.countP_eq_length.mpr h
      rw [List.length_take_of_le hlen] at hcount
      rw [← hfilter, ← hcount]
      exact (List.take_sublist n _).countP_le
    · exfalso
      have hmem : x ∈ (before.filter p ++ x :: after.filter p).take n := by
        rw [List.take_append, List.take_of_length_le (by omega)]
        obtain ⟨k, hk⟩ : ∃ k, n - (before.filter p).length = k + 1 :=
          Nat.exists_eq_succ_of_ne_zero (by omega)
        simp [hk]
      rw [h x hmem] at hw
      cases hw
  · intro h x hx
    by_contra hw
    obtain ⟨first, second, hsplit⟩ := List.append_of_mem hx
    have hlen := congrArg List.length hsplit
    rw [List.length_take, List.length_append, List.length_cons] at hlen
    have hall : xs.filter p = first ++ x :: (second ++ (xs.filter p).drop n) := by
      rw [← List.cons_append, ← List.append_assoc, ← hsplit, List.take_append_drop]
    obtain ⟨before, rest, rfl, hfirst, hrest⟩ := List.filter_eq_append_iff.mp hall
    obtain ⟨skipped, after, rfl, hskipped, hp, -⟩ := List.filter_eq_cons_iff.mp hrest
    have hlate := h (before ++ skipped) x after (by simp) hp (by simpa using hw)
    have hnone : skipped.countP w = 0 :=
      List.countP_eq_zero.mpr fun y hy hwy => hskipped y hy (hwp y hwy)
    have hfew : before.countP w ≤ before.countP p :=
      List.countP_mono_left fun y _ hy => hwp y hy
    have hcount : before.countP p = first.length := by
      rw [List.countP_eq_length_filter, hfirst]
    rw [List.countP_append, hnone] at hlate
    omega

private theorem take_filter_eq (hwp : ∀ x, w x = true → p x = true) {xs : List α}
    (h : ∀ x ∈ (xs.filter p).take n, w x = true) (hn : xs.countP w ≤ n) :
    (xs.filter p).take n = xs.filter w := by
  have hwanted : xs.filter w = (xs.filter p).filter w := by
    rw [List.filter_filter]
    refine List.filter_congr fun x _ => ?_
    cases hw : w x with
    | true => rw [hwp x hw, Bool.and_self]
    | false => rw [Bool.false_and]
  have hfirst : ((xs.filter p).take n).filter w = (xs.filter p).take n :=
    List.filter_eq_self.mpr h
  have hsplit := congrArg (List.filter w) (List.take_append_drop n (xs.filter p))
  rw [List.filter_append, hfirst, ← hwanted] at hsplit
  rw [List.countP_eq_length_filter, ← hsplit, List.length_append, List.length_take] at hn
  have hrest : ((xs.filter p).drop n).filter w = [] := by
    by_cases hlen : (xs.filter p).length ≤ n
    · rw [List.drop_eq_nil_of_le hlen, List.filter_nil]
    · exact List.eq_nil_of_length_eq_zero (by omega)
  rw [← hsplit, hrest, List.append_nil]

end

private theorem like_between {query text : String} :
    like (some text) ("%" ++ query ++ "%") = true ↔
      ∃ ys part zs, text.toList = ys ++ part ++ zs ∧
        matchesWild sameIgnoringCase (query.toList.map likeSymbol) part = true := by
  have hpattern : ("%" ++ query ++ "%").toList.map likeSymbol =
      .run :: (query.toList.map likeSymbol ++ [.run]) := by
    simp [likeSymbol]
  rw [like, Option.any_some, hpattern, matchesWild_between]

private theorem forall₂_same_iff {cs ds : List Char} :
    List.Forall₂ (fun c d => sameIgnoringCase c d = true) cs ds ↔
      cs.map Char.toLower = ds.map Char.toLower := by
  rw [← List.forall₂_eq_eq_eq, List.forall₂_map_left_iff, List.forall₂_map_right_iff]
  simp only [sameIgnoringCase, beq_iff_eq]

private theorem contains_iff {query text : String} :
    contains query text = true ↔
      ∃ ys part zs, text.toList = ys ++ part ++ zs ∧
        List.Forall₂ (fun c d => sameIgnoringCase c d = true) query.toList part := by
  simp only [contains, decide_eq_true_eq, forall₂_same_iff]
  constructor
  · rintro ⟨us, vs, h⟩
    obtain ⟨front, zs, htext, hfront, -⟩ := List.map_eq_append_iff.mp h.symm
    obtain ⟨ys, part, rfl, -, hpart⟩ := List.map_eq_append_iff.mp hfront
    exact ⟨ys, part, zs, htext, hpart.symm⟩
  · rintro ⟨ys, part, zs, htext, hpart⟩
    exact ⟨ys.map Char.toLower, zs.map Char.toLower, by
      rw [htext, hpart, List.map_append, List.map_append]⟩

private theorem like_of_contains {query text : String} (h : contains query text = true) :
    like (some text) ("%" ++ query ++ "%") = true := by
  obtain ⟨ys, part, zs, htext, hpart⟩ := contains_iff.mp h
  refine like_between.mpr ⟨ys, part, zs, htext, matchesWild_of_forall₂ ?_⟩
  rw [List.forall₂_map_left_iff]
  refine hpart.imp fun c d hsame => ?_
  unfold likeSymbol
  split
  · exact matchesWild_run.mpr ⟨[d], [], rfl, rfl⟩
  · split
    · exact matchesWild_one.mpr ⟨d, [], rfl, rfl⟩
    · exact matchesWild_sym.mpr ⟨d, [], rfl, hsame, rfl⟩

/-- A query without the two metacharacters. -/
def Plain (query : String) : Prop := ∀ c ∈ query.toList, c ≠ '%' ∧ c ≠ '_'

private theorem like_of_plain {query : String} (hquery : Plain query) (text : String) :
    like (some text) ("%" ++ query ++ "%") = contains query text := by
  have hsymbols : query.toList.map likeSymbol = query.toList.map .sym := by
    refine List.map_congr_left fun c hc => ?_
    obtain ⟨hrun, hone⟩ := hquery c hc
    rw [likeSymbol, if_neg hrun, if_neg hone]
  rw [Bool.eq_iff_iff, like_between, contains_iff, hsymbols]
  simp only [matchesWild_map_sym]

section

variable {table : ProductTable} {query : String} {category : Option String} {row : Product}

private theorem selected_eq : selected query category row =
    (inCategory category row && (like (some row.title) ("%" ++ query ++ "%") ||
      like row.description ("%" ++ query ++ "%"))) := by
  have hcategory : ((categoryConditions category).all fun condition => condition row) =
      inCategory category row := by
    cases category with
    | none => rfl
    | some category =>
      by_cases hempty : category = "" <;> simp [categoryConditions, inCategory, hempty]
  rw [selected, List.all_append, hcategory, queryConditions]
  by_cases hempty : query = ""
  · have hall : like (some row.title) ("%" ++ query ++ "%") = true := by
      subst hempty
      exact like_of_contains (by simp [contains])
    rw [if_pos hempty, hall]
    rfl
  · rw [if_neg hempty, List.all_cons, List.all_nil, Bool.and_true]

private theorem selected_of_wanted (h : wanted query category row = true) :
    selected query category row = true := by
  simp only [wanted, Bool.and_eq_true, Bool.or_eq_true] at h
  obtain ⟨hcategory, hcontains⟩ := h
  rw [selected_eq, hcategory, Bool.true_and, Bool.or_eq_true]
  rcases hcontains with htitle | hdescription
  · exact .inl (like_of_contains htitle)
  · cases hrow : row.description with
    | none => simp [hrow] at hdescription
    | some text =>
      rw [hrow, Option.any_some] at hdescription
      exact .inr (like_of_contains hdescription)

private theorem falseHit_eq :
    falseHit query category row = (selected query category row && !wanted query category row) := by
  rw [selected_eq, falseHit]

private theorem keywordSearch_iff_first :
    KeywordSearch table query category ↔
      ∀ row ∈ (table.rows.filter (selected query category)).take 10,
        wanted query category row = true := by
  constructor
  · intro h row hrow
    obtain ⟨row', hrow', hhit, hwanted⟩ := h.sound row.hit (List.mem_map_of_mem hrow)
    have hmem : row ∈ table.rows := List.mem_of_mem_filter (List.mem_of_mem_take hrow)
    -- the primary key tells which row a hit stands for
    have hsame : row' = row :=
      List.inj_on_of_nodup_map table.ids_nodup hrow' hmem (congrArg SearchHit.id hhit)
    rw [← hsame]
    exact hwanted
  · intro h
    constructor
    case sound =>
      intro hit hhit
      obtain ⟨row, hrow, rfl⟩ := List.mem_map.mp hhit
      have hmem : row ∈ table.rows := List.mem_of_mem_filter (List.mem_of_mem_take hrow)
      exact ⟨row, hmem, rfl, h row hrow⟩
    case distinct =>
      have hids : ((searchCatalog table query category).results.map SearchHit.id) =
          ((table.rows.filter (selected query category)).take 10).map Product.id := by
        rw [searchCatalog, List.map_map]
        rfl
      rw [hids]
      exact table.ids_nodup.sublist
        (((List.take_sublist 10 _).trans List.filter_sublist).map Product.id)
    case complete =>
      intro hfew
      have hall := take_filter_eq (fun _ => selected_of_wanted) h hfew
      constructor
      · intro row hrow hwanted
        refine List.mem_map_of_mem ?_
        rw [hall]
        exact List.mem_filter.mpr ⟨hrow, hwanted⟩
      · rw [searchCatalog, hall, List.countP_eq_length_filter]

private theorem falseHitsLate_iff_first :
    FalseHitsLate table query category ↔
      ∀ row ∈ (table.rows.filter (selected query category)).take 10,
        wanted query category row = true := by
  rw [forall_take_filter_iff fun _ => selected_of_wanted]
  simp only [FalseHitsLate, falseHit_eq, Bool.and_eq_true, Bool.not_eq_true', and_imp]

private theorem keywordSearch_iff :
    KeywordSearch table query category ↔ FalseHitsLate table query category :=
  keywordSearch_iff_first.trans falseHitsLate_iff_first.symm

private theorem falseHit_of_plain (hquery : Plain query) : falseHit query category row = false := by
  have hdescription : like row.description ("%" ++ query ++ "%") =
      row.description.any (contains query) := by
    cases row.description with
    | none => rfl
    | some text => exact like_of_plain hquery text
  rw [falseHit, wanted, like_of_plain hquery, hdescription]
  exact Bool.and_not_self _

end

def lookalike (query : List Char) : List Char :=
  query.filterMap fun c => if c = '%' then none else if c = '_' then some 'x' else some c

private theorem matches_lookalike (query : List Char) :
    matchesWild sameIgnoringCase (query.map likeSymbol) (lookalike query) = true := by
  induction query with
  | nil => rfl
  | cons c query ih =>
    unfold lookalike at ih ⊢
    rw [List.map_cons]
    by_cases hrun : c = '%'
    · subst hrun
      exact matchesWild_run.mpr ⟨[], _, rfl, ih⟩
    · by_cases hone : c = '_'
      · subst hone
        exact matchesWild_one.mpr ⟨'x', _, rfl, ih⟩
      · have hsymbol : likeSymbol c = .sym c := by
          rw [likeSymbol, if_neg hrun, if_neg hone]
        rw [hsymbol, List.filterMap_cons_some (by rw [if_neg hrun, if_neg hone])]
        exact matchesWild_sym.mpr ⟨c, _, rfl, by simp [sameIgnoringCase], ih⟩

private theorem mem_lookalike {query : List Char} {d : Char} (h : d ∈ lookalike query) :
    d ≠ '%' ∧ d ≠ '_' := by
  obtain ⟨c, -, hc⟩ := List.mem_filterMap.mp h
  split at hc
  · cases hc
  · split at hc
    · cases hc
      decide
    · rename_i hrun hone
      cases hc
      exact ⟨hrun, hone⟩

private theorem eq_of_toLower_eq {c d : Char} (hc : c = '%' ∨ c = '_') (h : d.toLower = c) :
    d = c := by
  unfold Char.toLower at h
  split at h
  · rename_i hupper
    exfalso
    have hval : d.val + 32 = c.val := congrArg Char.val h
    have hlow : 65 ≤ d.val := hupper.1
    have hhigh : d.val ≤ 90 := hupper.2
    rcases hc with rfl | rfl
    · have hpercent : d.val + 32 = 37 := hval
      grind
    · have hunderscore : d.val + 32 = 95 := hval
      grind
  · exact h

private theorem not_contains_lookalike {query : String} (h : ¬ Plain query) :
    contains query (String.ofList (lookalike query.toList)) = false := by
  by_contra hcontains
  obtain ⟨c, hc, hmeta⟩ : ∃ c ∈ query.toList, c = '%' ∨ c = '_' := by
    by_contra hnone
    exact h fun c hc => ⟨fun hrun => hnone ⟨c, hc, .inl hrun⟩,
      fun hone => hnone ⟨c, hc, .inr hone⟩⟩
  obtain ⟨ys, part, zs, htext, hpart⟩ := contains_iff.mp (by simpa using hcontains)
  have hfold : c.toLower ∈ part.map Char.toLower := by
    rw [← forall₂_same_iff.mp hpart]
    exact List.mem_map_of_mem hc
  obtain ⟨d, hd, hdc⟩ := List.mem_map.mp hfold
  have hlower : c.toLower = c := by
    rcases hmeta with rfl | rfl <;> decide
  have hmem : d ∈ lookalike query.toList := by
    rw [← String.toList_ofList (l := lookalike query.toList), htext]
    simp [hd]
  obtain ⟨hrun, hone⟩ := mem_lookalike hmem
  rw [eq_of_toLower_eq hmeta (hdc.trans hlower)] at hrun hone
  exact hmeta.elim hrun hone

def lookalikeTable (query : String) : ProductTable where
  rows := [⟨1, String.ofList (lookalike query.toList), "outdoor", 0, none⟩]
  ids_nodup := by simp

private theorem not_falseHitsLate_lookalike {query : String} (h : ¬ Plain query) :
    ¬ FalseHitsLate (lookalikeTable query) query none := by
  intro hlate
  have hno := not_contains_lookalike h
  have hlike : like (some (String.ofList (lookalike query.toList))) ("%" ++ query ++ "%") = true :=
    like_between.mpr ⟨[], _, [], by simp, matches_lookalike query.toList⟩
  have hfalse := hlate [] _ [] rfl (by simp [falseHit, wanted, inCategory, hno, hlike])
  simp at hfalse

/-- The search of a catalog is a search for the query exactly when every row that only the
wildcards of the query match comes after ten rows that contain it; that holds of every table
exactly when the query has no wildcard. -/
theorem searchCatalog_keywordSearch_iff (query : String) :
    (∀ table category, KeywordSearch table query category ↔ FalseHitsLate table query category) ∧
      ((∀ table category, KeywordSearch table query category) ↔
        ∀ c ∈ query.toList, c ≠ '%' ∧ c ≠ '_') := by
  refine ⟨fun _ _ => keywordSearch_iff, ?_⟩
  constructor
  · intro h
    by_contra hquery
    exact not_falseHitsLate_lookalike hquery (keywordSearch_iff.mp (h _ none))
  · intro hquery table category
    refine keywordSearch_iff.mpr fun before row after _ hhit => ?_
    rw [falseHit_of_plain hquery] at hhit
    cases hhit

/-- `PRODUCTS`. -/
def seededProducts : ProductTable where
  rows :=
    [⟨1, "Trailhead 45L Backpack", "outdoor", 129.99, some "Weatherproof multi-day hiking pack."⟩,
      ⟨2, "Summit Ridge 2-Person Tent", "outdoor", 189.50,
        some "Freestanding 3-season backpacking tent."⟩,
      ⟨3, "EmberCore Camp Stove", "outdoor", 54.00,
        some "Compact folding stove, isobutane canister."⟩,
      ⟨4, "AquaFlow Filter Bottle", "outdoor", 32.75,
        some "0.2-micron filter straw built into the cap."⟩,
      ⟨5, "NightSky 4-Season Sleeping Bag", "outdoor", 145.00,
        some "Rated to -6C, synthetic fill."⟩,
      ⟨6, "TrailBeam Headlamp 400", "electronics", 28.99,
        some "400-lumen rechargeable headlamp."⟩,
      ⟨7, "PowerCell 10K Solar Charger", "electronics", 45.50,
        some "10,000mAh panel-charged power bank."⟩,
      ⟨8, "RangeFinder GPS Compass", "electronics", 62.00,
        some "Handheld GPS unit with digital compass."⟩,
      ⟨9, "WeatherEye Handheld Anemometer", "electronics", 39.99,
        some "Wind speed/temperature meter."⟩,
      ⟨10, "Basecamp Fleece Pullover", "apparel", 58.00, some "Midweight fleece, half-zip."⟩,
      ⟨11, "TrailGuard Rain Shell", "apparel", 89.00,
        some "Packable waterproof-breathable shell."⟩,
      ⟨12, "Summit Wool Hiking Socks (3-pack)", "apparel", 18.50,
        some "Merino blend, cushioned sole."⟩]
  ids_nodup := by decide

theorem not_keywordSearch_percent : ¬ KeywordSearch seededProducts "45%" none := by
  intro h
  have hnone : ∀ row ∈ seededProducts.rows, wanted "45%" none row = false := by decide +kernel
  obtain ⟨row, hrow, -, hwanted⟩ := h.sound ⟨1, "Trailhead 45L Backpack", "outdoor", 129.99⟩
    (by decide +kernel)
  rw [hnone row hrow] at hwanted
  cases hwanted

end TicketWarden.Store
