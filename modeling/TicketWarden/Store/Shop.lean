/- Module: TicketWarden/Store/Shop
   source: apps/api/src/store/seed.py, apps/api/src/storage/db.py (_SCHEMA)
   digest: The tables of the shop with their keys, and the fixture they are seeded with. -/

import TicketWarden.Storage.Repo
import TicketWarden.Store.Catalog
import TicketWarden.Tables.Keyed

set_option autoImplicit false
set_option relaxedAutoImplicit false

namespace TicketWarden.Store

open Storage Tables

/-- The primary key of `order_items`. -/
def itemKey (item : OrderItemRow) : ℤ × ℤ := (item.orderId, item.productId)

/-- The tables `products`, `orders` and `order_items`. An `INTEGER PRIMARY KEY` is the place of
its row; the items of an order are found through an index, in the order they were inserted. -/
structure Shop where
  products : ProductTable
  orders : List OrderRow
  orderItems : List OrderItemRow
  products_ordered : Ordered Product.id products.rows
  orders_ordered : Ordered OrderRow.id orders
  orders_key : (orders.map OrderRow.id).Nodup
  orderItems_key : (orderItems.map itemKey).Nodup

/-- The tables after `CREATE TABLE`. -/
def Shop.empty : Shop where
  products := ⟨[], List.nodup_nil⟩
  orders := []
  orderItems := []
  products_ordered := List.Pairwise.nil
  orders_ordered := List.Pairwise.nil
  orders_key := List.nodup_nil
  orderItems_key := List.nodup_nil

/-- `ORDERS`. -/
def seededOrders : List OrderRow :=
  [⟨1, "J. Rodrigues", "delivered", some "UPS", some "1Z999AA10123456784", "2026-07-01"⟩,
    ⟨2, "M. Dmello", "in_transit", some "FedEx", some "784123456789", "2026-07-10"⟩,
    ⟨3, "R. Pereira", "processing", none, none, "2026-07-20"⟩,
    ⟨4, "S. Dbritto", "shipped", some "USPS", some "9400111899223197428506", "2026-07-15"⟩,
    ⟨5, "K. Dsouza", "returned", some "UPS", some "1Z999AA10123456785", "2026-06-25"⟩,
    ⟨6, "D. Tuscano", "delivered", some "FedEx", some "784123456790", "2026-06-18"⟩,
    ⟨7, "L. Dias", "in_transit", some "UPS", some "1Z999AA10123456786", "2026-07-22"⟩,
    ⟨8, "A. Correia", "processing", none, none, "2026-07-24"⟩,
    ⟨9, "E. Fernandez", "delivered", some "USPS", some "9400111899223197428507", "2026-06-05"⟩,
    ⟨10, "P. Lopes", "shipped", some "FedEx", some "784123456792", "2026-07-18"⟩]

/-- `ORDER_ITEMS`. -/
def seededOrderItems : List OrderItemRow :=
  [⟨1, 1, 1⟩, ⟨1, 6, 1⟩, ⟨2, 2, 1⟩, ⟨3, 3, 2⟩, ⟨3, 4, 1⟩, ⟨4, 5, 1⟩, ⟨5, 11, 1⟩, ⟨6, 7, 1⟩,
    ⟨6, 9, 1⟩, ⟨7, 8, 1⟩, ⟨8, 10, 1⟩, ⟨8, 12, 2⟩, ⟨9, 1, 1⟩, ⟨9, 5, 1⟩, ⟨10, 6, 2⟩, ⟨10, 4, 1⟩]

/-- `INSERT OR IGNORE` of some rows into each of the tables. -/
def Shop.insertFixture (shop : Shop) (products : List Product) (orders : List OrderRow)
    (orderItems : List OrderItemRow) : Shop where
  products := ⟨insertAllOrIgnore Product.id (byKey Product.id) shop.products.rows products,
    nodup_insertAllOrIgnore _ _ shop.products.ids_nodup _⟩
  orders := insertAllOrIgnore OrderRow.id (byKey OrderRow.id) shop.orders orders
  orderItems := insertAllOrIgnore itemKey (atEnd OrderItemRow) shop.orderItems orderItems
  products_ordered := ordered_insertAllOrIgnore shop.products_ordered _
  orders_ordered := ordered_insertAllOrIgnore shop.orders_ordered _
  orders_key := nodup_insertAllOrIgnore _ _ shop.orders_key _
  orderItems_key := nodup_insertAllOrIgnore _ _ shop.orderItems_key _

/-- `seed_catalog`. -/
def seedCatalog (shop : Shop) : Shop :=
  shop.insertFixture seededProducts.rows seededOrders seededOrderItems

/-- Every order item is one of an order and of a product; the connections enforce no foreign key. -/
structure Shop.Linked (shop : Shop) : Prop where
  order : ∀ item ∈ shop.orderItems, item.orderId ∈ shop.orders.map OrderRow.id
  product : ∀ item ∈ shop.orderItems, item.productId ∈ shop.products.rows.map Product.id

/-- A shop contains all rows of another, in their order. -/
structure Shop.Extends (shop old : Shop) : Prop where
  products : old.products.rows.Sublist shop.products.rows
  orders : old.orders.Sublist shop.orders
  orderItems : old.orderItems.Sublist shop.orderItems

section Fixture

variable (shop : Shop) (products : List Product) (orders : List OrderRow)
  (orderItems : List OrderItemRow)

private theorem insertFixture_extends :
    (shop.insertFixture products orders orderItems).Extends shop :=
  ⟨sublist_insertAllOrIgnore _ _ _ _, sublist_insertAllOrIgnore _ _ _ _,
    sublist_insertAllOrIgnore _ _ _ _⟩

theorem insertFixture_again :
    (shop.insertFixture products orders orderItems).insertFixture products orders orderItems =
      shop.insertFixture products orders orderItems := by
  simp only [Shop.insertFixture, insertAllOrIgnore_again]

variable {shop products orders orderItems}

private theorem Shop.Linked.insertFixture (h : shop.Linked)
    (horders : ∀ item ∈ orderItems, item.orderId ∈ orders.map OrderRow.id)
    (hproducts : ∀ item ∈ orderItems, item.productId ∈ products.map Product.id) :
    (shop.insertFixture products orders orderItems).Linked := by
  have hgrown := insertFixture_extends shop products orders orderItems
  constructor
  case order =>
    intro item hitem
    rcases mem_insertAllOrIgnore itemKey _ hitem with hold | hnew
    · exact (hgrown.orders.map OrderRow.id).subset (h.order item hold)
    · obtain ⟨order, horder, hid⟩ := List.mem_map.mp (horders item hnew)
      rw [← hid]
      exact key_mem_insertAllOrIgnore OrderRow.id _ shop.orders horder
  case product =>
    intro item hitem
    rcases mem_insertAllOrIgnore itemKey _ hitem with hold | hnew
    · exact (hgrown.products.map Product.id).subset (h.product item hold)
    · obtain ⟨product, hproduct, hid⟩ := List.mem_map.mp (hproducts item hnew)
      rw [← hid]
      exact key_mem_insertAllOrIgnore Product.id _ shop.products.rows hproduct

end Fixture

private theorem linked_fixture : (∀ item ∈ seededOrderItems,
      item.orderId ∈ seededOrders.map OrderRow.id) ∧
    ∀ item ∈ seededOrderItems, item.productId ∈ seededProducts.rows.map Product.id := by
  decide +kernel

theorem Shop.Linked.seedCatalog {shop : Shop} (h : shop.Linked) : (seedCatalog shop).Linked :=
  h.insertFixture linked_fixture.1 linked_fixture.2

end TicketWarden.Store
