import EndstoneExchange.GroupedRows
import EndstoneExchange.OrderMatching

/-!
# Order books

`orderBook` reads the levels of one book, `topOfBooks` the best levels of many books at
once. Both aggregate the resting orders of all markets that share a book.
-/
namespace EndstoneExchange.OrderBookQueries
open AutoIncrementTables ExchangeDomain OrderMatching GroupedRows

structure PriceLevel where
  priceCents : Cents
  quantity : ℤ
  deriving DecidableEq, Repr

structure OrderBook where
  bids : List PriceLevel := []
  asks : List PriceLevel := []
  lastPriceCents : Option Cents := none
  deriving DecidableEq, Repr

section Cells

/-- The greatest value of an `int`. -/
def maxInt : ℤ := 2147483647

/-- A result of the database as an `int`. -/
def cellInt (value : ℤ) : Except Error ℤ := do
  let value ← cellInt64 value
  if value < -maxInt - 1 ∨ value > maxInt then throw (.database "database integer is outside int range")
  else return value

end Cells

section Queries

/-- JOIN exchange_markets m ON m.id=market_id: the rows with their books. -/
def joinBooks {α : Type} (marketId : α → Id) (rows : List α) (db : Db) : List (Id × α) :=
  rows.filterMap fun row => (Db.bookOf db (marketId row)).map (·, row)

/-- The open limit orders of a side, with their books. -/
def openOrders (side : Side) (db : Db) : List (Id × OrderRow) :=
  (joinBooks (·.marketId) db.orders.rows db).filter fun e => e.2.side = side ∧ e.2.Resting

def restingOrders (side : Side) (bookId : Id) (db : Db) : List OrderRow :=
  ((openOrders side db).filter fun e => e.1 = bookId).map Prod.snd

def bookTrades (db : Db) : List (Id × Id × TradeRow) := joinBooks (·.2.marketId) db.trades.entries db

/-- SUM(o.remaining_qty). -/
def totalQuantity (orders : List OrderRow) : ℤ := (orders.map (·.remainingQty)).sum

/-- ORDER BY price_cents DESC for bids, ASC for asks. -/
def priceBefore : Side → Cents → Cents → Prop
  | .buy, a, b => a ≥ b
  | .sell, a, b => a ≤ b

instance (side : Side) : DecidableRel (priceBefore side) := fun a b =>
  match side with
  | .buy => inferInstanceAs (Decidable (a ≥ b))
  | .sell => inferInstanceAs (Decidable (a ≤ b))

def levelBefore (side : Side) (a b : Cents × ℤ) : Prop := priceBefore side a.1 b.1

instance (side : Side) : DecidableRel (levelBefore side) := fun a b =>
  inferInstanceAs (Decidable (priceBefore side a.1 b.1))

/-- SELECT o.price_cents,SUM(o.remaining_qty) .. GROUP BY o.price_cents ORDER BY price_cents. -/
def levels (side : Side) (bookId : Id) (db : Db) : List (Cents × ℤ) :=
  (groupBy (·.priceCents) totalQuantity (restingOrders side bookId db)).insertionSort (levelBefore side)

def readLevels : List (Cents × ℤ) → Except Error (List PriceLevel)
  | [] => return []
  | (priceCents, total) :: rows => do
    let quantity ← cellInt total
    let rest ← readLevels rows
    return { priceCents, quantity } :: rest

/-- ORDER BY t.id DESC. -/
def tradeAfter (a b : Id × TradeRow) : Prop := a.1 ≥ b.1

instance : DecidableRel tradeAfter := fun a b => inferInstanceAs (Decidable (a.1 ≥ b.1))

def lastTrade (bookId : Id) (db : Db) : Option (Id × TradeRow) :=
  ((((bookTrades db).filter fun e => e.1 = bookId).map Prod.snd).insertionSort tradeAfter).head?

def orderBook (marketId : Id) (depth : ℤ) (db : Db) : Except Error OrderBook := do
  if depth ≤ 0 ∨ depth > 50 then throw (.runtime "order-book depth must be between 1 and 50")
  else
    match Db.bookOf db marketId with
    | none => throw (.runtime "market does not exist")
    | some bookId =>
      let bids ← readLevels ((levels .buy bookId db).take depth.toNat)
      let asks ← readLevels ((levels .sell bookId db).take depth.toNat)
      return { bids, asks, lastPriceCents := (lastTrade bookId db).map (·.2.priceCents) }

end Queries

section Snapshots

/-- MAX(o2.price_cents) for bids, MIN for asks. -/
def bestPrice : Side → List Cents → Option Cents
  | .buy, prices => prices.max?
  | .sell, prices => prices.min?

/-- SELECT m2.book_id,MAX(o2.price_cents) .. WHERE m2.book_id IN (..) GROUP BY m2.book_id. -/
def bestPrices (side : Side) (bookIds : List Id) (db : Db) : List (Id × Option Cents) :=
  groupBy Prod.fst (fun rows => bestPrice side (rows.map (·.2.priceCents)))
    ((openOrders side db).filter fun e => e.1 ∈ bookIds)

/-- LEAST(SUM(o.remaining_qty),2147483647) of the orders at the best prices, GROUP BY m.book_id,o.price_cents. -/
def topLevels (side : Side) (bookIds : List Id) (db : Db) : List ((Id × Cents) × ℤ) :=
  groupBy (fun e => (e.1, e.2.priceCents)) (fun rows => min (totalQuantity (rows.map Prod.snd)) maxInt)
    ((openOrders side db).filter fun e => (e.1, some e.2.priceCents) ∈ bestPrices side bookIds db)

/-- SELECT m2.book_id,MAX(t2.id) .. GROUP BY m2.book_id. -/
def latestTrades (bookIds : List Id) (db : Db) : List (Id × Option Id) :=
  groupBy Prod.fst (fun rows => (rows.map (·.2.1)).max?) ((bookTrades db).filter fun e => e.1 ∈ bookIds)

/-- SELECT m.book_id,t.price_cents .. ON latest.trade_id=t.id. -/
def lastPrices (bookIds : List Id) (db : Db) : List (Id × Cents) :=
  ((bookTrades db).filter fun e => some e.2.1 ∈ (latestTrades bookIds db).map Prod.snd).map
    fun e => (e.1, e.2.2.priceCents)

/-- `std::unordered_map<Id, OrderBook>`. -/
abbrev Books := Id → Option OrderBook

/-- `by_book[id]` makes an empty book first. -/
def Books.modify (books : Books) (id : Id) (f : OrderBook → OrderBook) : Books := fun other =>
  if other = id then some (f ((books id).getD {})) else books other

def OrderBook.push (side : Side) (level : PriceLevel) (book : OrderBook) : OrderBook :=
  match side with
  | .buy => { book with bids := book.bids ++ [level] }
  | .sell => { book with asks := book.asks ++ [level] }

def pushLevels (side : Side) : List ((Id × Cents) × ℤ) → Books → Except Error Books
  | [], books => return books
  | ((bookId, priceCents), total) :: rows, books => do
    let quantity ← cellInt total
    pushLevels side rows (books.modify bookId (OrderBook.push side { priceCents, quantity }))

def setPrices : List (Id × Cents) → Books → Books
  | [], books => books
  | (bookId, price) :: rows, books =>
    setPrices rows (books.modify bookId fun book => { book with lastPriceCents := some price })

def topOfBooks (marketIds : List Id) (db : Db) : Except Error Books := do
  if marketIds = [] then return fun _ => none
  else
    let bookIds := (marketIds.filterMap (Db.bookOf db)).dedup
    if bookIds = [] then return fun id => if id ∈ marketIds then some {} else none
    else
      let byBook ← pushLevels .buy (topLevels .buy bookIds db) fun _ => none
      let byBook ← pushLevels .sell (topLevels .sell bookIds db) byBook
      let byBook := setPrices (lastPrices bookIds db) byBook
      return fun id => if id ∈ marketIds then some (((Db.bookOf db id).bind byBook).getD {}) else none

end Snapshots

end EndstoneExchange.OrderBookQueries
