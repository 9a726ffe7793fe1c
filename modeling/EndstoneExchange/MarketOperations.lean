import EndstoneExchange.ExchangeTransactions

/-!
# Markets

A market binds a world target to the order book of its item. Markets over the
same item share one book. A closed market can be resumed, a retired one cannot.
-/
namespace EndstoneExchange.MarketOperations
open AutoIncrementTables KeyedTables AtomicTransactions.Transaction DurablePrograms ExchangeDomain
  ExchangeTransactions

structure Market where
  id : Id := 0
  bookId : Id := 0
  targetKey : String
  targetKind : TargetKind
  dimensionName : String
  blockX : Option ℤ := none
  blockY : Option ℤ := none
  blockZ : Option ℤ := none
  actorId : Option ℤ := none
  item : ItemPrototype
  active : Bool := true
  createdBy : String
  deriving DecidableEq, Repr

def marketFromRow (id : Id) (row : MarketRow) : Market :=
  { id, bookId := row.bookId, targetKey := row.targetKey, targetKind := row.targetKind,
    dimensionName := row.dimensionName, blockX := row.blockX, blockY := row.blockY,
    blockZ := row.blockZ, actorId := row.actorId, item := row.item, active := row.active,
    createdBy := row.createdBy }

def findMarket (marketId : Id) : Tx (Option Market) :=
  select fun db => (db.markets.get? marketId).map (marketFromRow marketId)

/-- The fingerprint that identifies an order book. -/
def itemHash (settings : Settings) (item : ItemPrototype) : List UInt8 :=
  settings.sha2 ((toString item.type.length ++ ":" ++ item.type ++ ":" ++ toString item.data ++ ":" ++
    toString item.nbt.length ++ ":").toUTF8.toList ++ item.nbt)

def findBook (db : Db) (hash : List UInt8) : Option Id :=
  (db.books.entries.find? fun e => e.2.itemHash = hash).map Prod.fst

/-- INSERT .. ON DUPLICATE KEY UPDATE id=LAST_INSERT_ID(id). -/
def upsertBook (settings : Settings) (item : ItemPrototype) : Tx Id := do
  let existing ← select (findBook · (itemHash settings item))
  match existing with
  | some id => return id
  | none =>
    let id ← select (·.books.nextId)
    execute (Db.addBook · ⟨item.type, item.data, item.nbt, item.name, itemHash settings item⟩)
    return id

/-- `target_key` is the primary key of the bindings and `market_id` is unique. -/
def bindTarget (targetKey : String) (marketId : Id) : Tx PUnit := do
  let taken ← select fun db =>
    (db.targetBindings.find? targetKey).isSome || db.targetBindings.rows.any (·.2 = marketId)
  throwIf (taken = true) (.database "Duplicate entry")
  execute fun db => Db.setBindings db (db.targetBindings.insert targetKey marketId)

def unbindTarget (targetKey : String) (marketId : Id) : Tx PUnit :=
  execute fun db => Db.setBindings db
    (db.targetBindings.filter fun key id => ¬ (key = targetKey ∧ id = marketId))

def resumableMarket (db : Db) (market : Market) (bookId : Id) : Option Id :=
  ((db.markets.entries.filter fun e => e.2.targetKey = market.targetKey ∧
      e.2.targetKind = market.targetKind ∧ e.2.active = false ∧ e.2.reopenable = true ∧
      e.2.bookId = bookId).getLast?).map Prod.fst

def switchMarket (marketId : Id) (active reopenable : Bool) : Tx PUnit :=
  execute (Db.setMarket · marketId fun m => { m with active, reopenable })

/-- The id of the market, and whether it is a resumed one. -/
def activateMarketTx (settings : Settings) (market : Market) : Tx (Id × Bool) := do
  let existing ← select (·.targetBindings.find? market.targetKey)
  throwIf (existing.isSome = true) (.runtime "target already has an active market")
  let bookId ← upsertBook settings market.item
  let book ← selectOne (·.books.get? bookId) (.runtime "item order-book fingerprint collision")
  throwIf (book.itemType ≠ market.item.type ∨ book.itemData ≠ market.item.data ∨
    book.itemNbt ≠ market.item.nbt) (.runtime "item order-book fingerprint collision")
  let resumable ← select (resumableMarket · market bookId)
  match resumable with
  | some id =>
    switchMarket id true false
    bindTarget market.targetKey id
    return (id, true)
  | none =>
    let id ← select (·.markets.nextId)
    execute (Db.addMarket · { market with bookId, active := true, reopenable := false })
    bindTarget market.targetKey id
    return (id, false)

def activateMarket (settings : Settings) (market : Market) : Program Db Error Market := do
  if market.targetKey = "" ∨ market.dimensionName = "" ∨ market.item.type = "" ∨
      market.item.name = "" ∨ market.createdBy = "" then
    throw (Error.runtime "market activation data is incomplete")
  let (id, resumed) ← transaction (activateMarketTx settings market)
  let activated ← transaction (findMarket id)
  match activated with
  | some activated => return activated
  | none => throw (Error.runtime (if resumed then "resumed market could not be reloaded"
      else "activated market could not be reloaded"))

def closeMarketTx (marketId : Id) : Tx PUnit := do
  let market ← selectOne (·.markets.get? marketId) (.runtime "market does not exist")
  if market.active = false then
    execute fun db => Db.setBindings db (db.targetBindings.filter fun _ id => id ≠ marketId)
  else
    let bound ← select (·.targetBindings.find? market.targetKey)
    throwIf (bound ≠ some marketId) (.runtime "active market target binding is missing")
    unbindTarget market.targetKey marketId
    switchMarket marketId false true

def closeMarket (marketId : Id) : Program Db Error PUnit := transaction (closeMarketTx marketId)

/-- The resting orders of one market. The query has no ORDER BY; rows come in key order here. -/
def marketOrders (marketId : Id) (db : Db) : List (Id × OrderRow) :=
  db.orders.entries.filter fun e => e.2.marketId = marketId ∧ e.2.Resting

def closeOrders : List (Id × OrderRow) → Tx PUnit
  | [] => return ⟨⟩
  | (orderId, order) :: orders => do
    withdrawOrder orderId order .marketCloseRefund .marketClosed
    closeOrders orders

def retireMarketTx (marketId : Id) : Tx PUnit := do
  let identity ← selectOne (·.markets.get? marketId) (.runtime "market does not exist")
  let _ ← selectOne (·.books.get? identity.bookId) (.runtime "market order book does not exist")
  let market ← selectOne (·.markets.get? marketId) (.runtime "market does not exist")
  throwIf (market.bookId ≠ identity.bookId)
    (.runtime "market order-book identity changed unexpectedly")
  let orders ← select (marketOrders marketId)
  closeOrders orders
  let bound ← select (·.targetBindings.find? market.targetKey)
  unbindTarget market.targetKey marketId
  throwIf (market.active = true ∧ bound ≠ some marketId)
    (.runtime "active market target binding is missing")
  switchMarket marketId false false

def retireMarket (marketId : Id) : Program Db Error PUnit := transaction (retireMarketTx marketId)

end EndstoneExchange.MarketOperations
