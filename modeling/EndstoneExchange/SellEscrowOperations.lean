import EndstoneExchange.DeliveryOperations
import EndstoneExchange.OrderMatching

/-!
# Sell escrows

An escrow is prepared before the seller's items are tagged, becomes an order
once they are and is finished when the receipts left in their place are gone.
-/
namespace EndstoneExchange.SellEscrowOperations
open AutoIncrementTables AtomicTransactions.Transaction DurablePrograms ExchangeDomain
  ExchangeTransactions AccountOperations OrderMatching DeliveryOperations

structure SellEscrow where
  id : Id
  marketId : Id
  item : ItemPrototype
  playerUuid : String
  playerName : String
  orderType : ExchangeDomain.OrderType
  priceCents : Cents
  requestedQuantity : ℤ
  taggedQuantity : ℤ := 0
  receiptCount : ℤ := 0
  status : SellEscrowStatus := .prepared
  orderId : Option Id := none
  cleaned : Bool := false
  deriving DecidableEq, Repr

def sellEscrowFromRow (db : Db) (e : Id × SellEscrowRow) : Option SellEscrow :=
  (marketItem db e.2.marketId).map fun item =>
    { id := e.1, marketId := e.2.marketId, item, playerUuid := e.2.playerUuid,
      playerName := e.2.playerName, orderType := e.2.orderType, priceCents := e.2.priceCents,
      requestedQuantity := e.2.requestedQty, taggedQuantity := e.2.taggedQty,
      receiptCount := e.2.receiptCount, status := e.2.status, orderId := e.2.orderId,
      cleaned := e.2.cleaned }

def SellEscrowRow.Unfinished (e : SellEscrowRow) : Prop := e.status ≠ .canceled ∧ e.cleaned = false

instance (e : SellEscrowRow) : Decidable (SellEscrowRow.Unfinished e) :=
  inferInstanceAs (Decidable (_ ∧ _))

def unfinishedSellEscrows (playerUuid : String) : Tx (List SellEscrow) := select fun db =>
  (db.sellEscrows.entries.filter fun e => e.2.playerUuid = playerUuid ∧
    SellEscrowRow.Unfinished e.2).filterMap (sellEscrowFromRow db)

def findSellEscrow (escrowId : Id) (playerUuid : String) : Tx (Option SellEscrow) :=
  select fun db => do
    let escrow ← db.sellEscrows.get? escrowId
    if escrow.playerUuid = playerUuid then sellEscrowFromRow db (escrowId, escrow) else none

/-- The escrow row of a request; a market order records price 0. -/
def newEscrow (request : OrderRequest) : SellEscrowRow :=
  { marketId := request.marketId, playerUuid := request.playerUuid, playerName := request.playerName,
    orderType := request.type, priceCents := if request.type = .limit then request.priceCents else 0,
    requestedQty := request.quantity }

def prepareSellEscrowTx (request : OrderRequest) : Tx SellEscrow := do
  let market ← selectOne (·.markets.get? request.marketId) (.runtime "market is not active")
  throwIf (market.active = false) (.runtime "market is not active")
  -- The foreign key of `player_uuid`.
  let _ ← selectOne (·.accounts.find? request.playerUuid)
    (.database "Cannot add or update a child row: a foreign key constraint fails")
  let escrowId ← select (·.sellEscrows.nextId)
  execute (Db.addEscrow · (newEscrow request))
  return { id := escrowId, marketId := request.marketId, item := market.item,
           playerUuid := request.playerUuid, playerName := request.playerName,
           orderType := request.type,
           priceCents := if request.type = .limit then request.priceCents else 0,
           requestedQuantity := request.quantity }

def prepareSellEscrow (settings : Settings) (request : OrderRequest) : Program Db Error SellEscrow := do
  Program.ofExcept (validateRequest settings request)
  if request.side ≠ .sell then throw (Error.runtime "sell escrow requires a sell order")
  ensureAccount settings request.playerUuid request.playerName
  transaction (prepareSellEscrowTx request)

def markSellEscrowTaggedTx (escrowId : Id) (taggedQuantity receiptCount : ℤ) : Tx PUnit := do
  let escrow ← selectOne (·.sellEscrows.get? escrowId) (.runtime "sell escrow does not exist")
  throwIf (taggedQuantity < escrow.requestedQty)
    (.runtime "tagged sell quantity is smaller than the order")
  if escrow.status = .tagged ∧ escrow.taggedQty = taggedQuantity ∧
      escrow.receiptCount = receiptCount then
    return ⟨⟩
  else
    throwIf (escrow.status ≠ .prepared) (.runtime "sell escrow is not waiting for item tags")
    execute (Db.setEscrow · escrowId fun e =>
      { e with taggedQty := taggedQuantity, receiptCount, status := .tagged })

def markSellEscrowTagged (escrowId : Id) (taggedQuantity receiptCount : ℤ) :
    Program Db Error PUnit := do
  if taggedQuantity ≤ 0 ∨ receiptCount ≤ 0 then
    throw (Error.runtime "tagged sell escrow quantities must be positive")
  transaction (markSellEscrowTaggedTx escrowId taggedQuantity receiptCount)

/-- Quantity and value of the trades that sold from an order. -/
def soldQuantity (db : Db) (orderId : Id) : ℤ :=
  db.trades.sum fun t => if t.sellOrderId = orderId then t.quantity else 0

def soldValue (db : Db) (orderId : Id) : Cents :=
  db.trades.sum fun t => if t.sellOrderId = orderId then t.priceCents * t.quantity else 0

/-- The order an escrow asks for. -/
def escrowRequest (escrow : SellEscrowRow) : OrderRequest :=
  { marketId := escrow.marketId, playerUuid := escrow.playerUuid, playerName := escrow.playerName,
    side := .sell, type := escrow.orderType, priceCents := escrow.priceCents,
    quantity := escrow.requestedQty }

/-- The result of an escrow that already became an order. -/
def orderedEscrowResult (escrow : SellEscrowRow) : Tx ExecutionResult := do
  let orderId ← selectOne (fun _ => escrow.orderId) (.runtime "ordered sell escrow has no order")
  let order ← selectOne (·.orders.get? orderId) (.runtime "ordered sell escrow has no order")
  let filled ← select (soldQuantity · orderId)
  let gross ← select (soldValue · orderId)
  let finalBalance ← lockedBalance escrow.playerUuid
  return { orderId, requestedQuantity := order.originalQty, filledQuantity := filled,
           openQuantity := order.remainingQty, grossCents := gross, balanceCents := finalBalance }

def executeSellEscrowTx (escrowId : Id) : Tx ExecutionResult := do
  let escrow ← selectOne (·.sellEscrows.get? escrowId) (.runtime "sell escrow does not exist")
  if escrow.status = .ordered then orderedEscrowResult escrow
  else
    throwIf (escrow.status ≠ .tagged) (.runtime "sell escrow is not ready to become an order")
    let result ← placeSellLocked (escrowRequest escrow)
    -- Whole stacks are tagged; what exceeds the order goes back to the seller.
    addDelivery escrow.playerUuid escrow.marketId (escrow.taggedQty - escrow.requestedQty) .escrowExcess
    execute (Db.setEscrow · escrowId fun e =>
      { e with status := .ordered, orderId := some result.orderId })
    return result

def executeSellEscrow (escrowId : Id) : Program Db Error ExecutionResult :=
  transaction (executeSellEscrowTx escrowId)

def cancelSellEscrowTx (escrowId : Id) : Tx PUnit := do
  let escrow ← selectOne (·.sellEscrows.get? escrowId) (.runtime "sell escrow does not exist")
  if escrow.status = .canceled then return ⟨⟩
  else
    throwIf (escrow.status ≠ .prepared) (.runtime "only a prepared sell escrow can be canceled")
    execute (Db.setEscrow · escrowId fun e => { e with status := .canceled, cleaned := true })

def cancelSellEscrow (escrowId : Id) : Program Db Error PUnit :=
  transaction (cancelSellEscrowTx escrowId)

def markSellEscrowCleanedTx (escrowId : Id) : Tx PUnit := do
  let escrow ← selectOne (·.sellEscrows.get? escrowId) (.runtime "ordered sell escrow does not exist")
  throwIf (escrow.status ≠ .ordered) (.runtime "ordered sell escrow does not exist")
  execute (Db.setEscrow · escrowId fun e => { e with cleaned := true })

def markSellEscrowCleaned (escrowId : Id) : Program Db Error PUnit :=
  transaction (markSellEscrowCleanedTx escrowId)

end EndstoneExchange.SellEscrowOperations
