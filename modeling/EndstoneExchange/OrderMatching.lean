import EndstoneExchange.AccountOperations
import Mathlib.Data.List.Sort

/-!
# Placing and cancelling orders

`placeBuy` and `placeSellLocked` match an incoming order against the resting
orders of its book. The resting rows are read once, before the first trade.
-/
namespace EndstoneExchange.OrderMatching
open AutoIncrementTables KeyedTables AtomicTransactions.Transaction DurablePrograms ExchangeDomain
  ExchangeTransactions AccountOperations

section RestingOrders

/-- JOIN exchange_markets m ON m.id=o.market_id: the book an order rests in. -/
def Db.bookOf (db : Db) (marketId : Id) : Option Id := (db.markets.get? marketId).map (·.bookId)

/-- The counterparties of a request: resting orders of one side of the book that
belong to other players. -/
def counterparties (side : Side) (bookId : Id) (playerUuid : String) (db : Db) : List (Id × OrderRow) :=
  db.orders.entries.filter fun e => Db.bookOf db e.2.marketId = some bookId ∧ e.2.side = side ∧
    e.2.Resting ∧ e.2.playerUuid ≠ playerUuid

/-- ORDER BY o.price_cents ASC,o.id ASC. -/
def askBefore (a b : Id × OrderRow) : Prop :=
  a.2.priceCents < b.2.priceCents ∨ a.2.priceCents = b.2.priceCents ∧ a.1 ≤ b.1

/-- ORDER BY o.price_cents DESC,o.id ASC. -/
def bidBefore (a b : Id × OrderRow) : Prop :=
  a.2.priceCents > b.2.priceCents ∨ a.2.priceCents = b.2.priceCents ∧ a.1 ≤ b.1

instance : DecidableRel askBefore := fun _ _ => inferInstanceAs (Decidable (_ ∨ _))
instance : DecidableRel bidBefore := fun _ _ => inferInstanceAs (Decidable (_ ∨ _))

def matchingAsks (request : OrderRequest) (bookId : Id) (db : Db) : List (Id × OrderRow) :=
  ((counterparties .sell bookId request.playerUuid db).filter fun e =>
    request.type = .limit → e.2.priceCents ≤ request.priceCents).insertionSort askBefore

def matchingBids (request : OrderRequest) (bookId : Id) (db : Db) : List (Id × OrderRow) :=
  ((counterparties .buy bookId request.playerUuid db).filter fun e =>
    request.type = .limit → e.2.priceCents ≥ request.priceCents).insertionSort bidBefore

end RestingOrders

/-- The local variables of the two matching loops; only `placeBuy` tracks a balance. -/
structure Progress where
  remaining : ℤ
  filledTotal : ℤ := 0
  gross : Cents := 0
  availableBalance : Cents := 0
  deriving DecidableEq, Repr

/-- The row of a new order. A market order has price 0 and no reserve. -/
def newOrder (request : OrderRequest) (reserved : Cents) : OrderRow :=
  { marketId := request.marketId, playerUuid := request.playerUuid, side := request.side,
    orderType := request.type, priceCents := if request.type = .limit then request.priceCents else 0,
    originalQty := request.quantity, remainingQty := request.quantity, reservedCents := reserved,
    status := .opened }

/-- The status a finished request records for its own order. -/
def finalStatus (request : OrderRequest) (p : Progress) : OrderStatus :=
  match request.type with
  | .market =>
    if p.filledTotal = request.quantity then .filled
    else if p.filledTotal > 0 then .partlyFilled else .canceled
  | .limit => orderStatus p.remaining p.filledTotal

/-- The final row of an order that was matched; `placeBuy` also writes its reserve. -/
def soldOrder (request : OrderRequest) (p : Progress) (o : OrderRow) : OrderRow :=
  { o with
    remainingQty := if request.type = .limit then p.remaining else 0
    status := finalStatus request p }

def boughtOrder (request : OrderRequest) (p : Progress) (reserved : Cents) (o : OrderRow) : OrderRow :=
  { soldOrder request p o with reservedCents := reserved }

def executionResult (request : OrderRequest) (orderId : Id) (p : Progress) (balance : Cents) :
    ExecutionResult :=
  { orderId, requestedQuantity := request.quantity, filledQuantity := p.filledTotal,
    openQuantity := if request.type = .limit then p.remaining else 0, grossCents := p.gross,
    balanceCents := balance }

/-- The row of a resting order that a trade left with `after` units. -/
def restingAfter (after : ℤ) (o : OrderRow) : OrderRow :=
  { o with remainingQty := after, status := if after = 0 then .filled else .partlyFilled }

def restingBidAfter (after : ℤ) (reserved : Cents) (o : OrderRow) : OrderRow :=
  { restingAfter after o with reservedCents := reserved }

/-- What both loops record once the money has moved: the buyer's delivery and the trade. -/
def recordTrade (trade : TradeRow) : Tx PUnit := do
  addDelivery trade.buyerUuid trade.marketId trade.quantity .tradeBuy
  insertTrade trade

section Buying

def askFill (request : OrderRequest) (ask : OrderRow) (p : Progress) : ℤ :=
  let fill := min p.remaining ask.remainingQty
  match request.type with
  | .market => min fill (p.availableBalance.tdiv ask.priceCents)
  | .limit => fill

/-- The buyer's side of one trade. A market order pays the price now; a limit order
paid its own price in advance and gets the difference back. -/
def payForAsk (request : OrderRequest) (orderId : Id) (price : Cents) (fill : ℤ)
    (availableBalance : Cents) : Tx Cents := do
  match request.type with
  | .market =>
    let cost ← checkedProduct price fill
    debit request.playerUuid cost .marketBuyTrade (some (.order orderId))
    return availableBalance - cost
  | .limit =>
    let refund ← checkedProduct (request.priceCents - price) fill
    if refund > 0 then
      credit request.playerUuid refund .priceImprovementRefund (some (.order orderId))
      return availableBalance + refund
    else return availableBalance

def askTrade (request : OrderRequest) (orderId askId : Id) (ask : OrderRow) (fill : ℤ) : TradeRow :=
  { marketId := request.marketId, buyOrderId := orderId, sellOrderId := askId,
    buyerUuid := request.playerUuid, sellerUuid := ask.playerUuid, priceCents := ask.priceCents,
    quantity := fill }

/-- One iteration of the loop of `placeBuy` that is not cut short. -/
def takeAsk (request : OrderRequest) (orderId askId : Id) (ask : OrderRow) (fill : ℤ) (p : Progress) :
    Tx Progress := do
  let availableBalance ← payForAsk request orderId ask.priceCents fill p.availableBalance
  updateOrder askId (restingAfter (ask.remainingQty - fill))
  let cost ← checkedProduct ask.priceCents fill
  credit ask.playerUuid cost .tradeProceeds (some (.order askId))
  recordTrade (askTrade request orderId askId ask fill)
  return { remaining := p.remaining - fill, filledTotal := p.filledTotal + fill,
           gross := p.gross + cost, availableBalance }

def matchAsks (request : OrderRequest) (orderId : Id) : List (Id × OrderRow) → Progress → Tx Progress
  | [], p => return p
  | (askId, ask) :: asks, p => do
    if p.remaining = 0 then return p
    else if request.type = .market ∧ askFill request ask p ≤ 0 then return p
    else
      let p ← takeAsk request orderId askId ask (askFill request ask p) p
      matchAsks request orderId asks p

def buyReserve (request : OrderRequest) (availableBalance : Cents) : Tx Cents := do
  match request.type with
  | .market => return 0
  | .limit =>
    let reserved ← checkedProduct request.priceCents request.quantity
    throwIf (availableBalance < reserved) (.runtime "insufficient exchange balance")
    return reserved

def reserveFunds (request : OrderRequest) (orderId : Id) (reserved : Cents) : Tx PUnit :=
  if reserved > 0 then debit request.playerUuid reserved .buyOrderReserve (some (.order orderId))
  else return ⟨⟩

def finishBuy (request : OrderRequest) (orderId : Id) (p : Progress) : Tx ExecutionResult := do
  let currentReserved ← match request.type with
    | .limit => liftM (checkedProduct request.priceCents p.remaining)
    | .market => pure 0
  updateOrder orderId (boughtOrder request p currentReserved)
  let finalBalance ← lockedBalance request.playerUuid
  return executionResult request orderId p finalBalance

def placeBuy (request : OrderRequest) : Tx ExecutionResult := do
  let bookId ← lockActiveBook request.marketId
  let balance ← lockedBalance request.playerUuid
  let reserved ← buyReserve request balance
  let orderId ← insertOrder (newOrder request reserved)
  reserveFunds request orderId reserved
  let asks ← select (matchingAsks request bookId)
  let p ← matchAsks request orderId asks
    { remaining := request.quantity, availableBalance := balance - reserved }
  finishBuy request orderId p

end Buying

section Selling

def bidTrade (request : OrderRequest) (orderId bidId : Id) (bid : OrderRow) (fill : ℤ) : TradeRow :=
  { marketId := request.marketId, buyOrderId := bidId, sellOrderId := orderId,
    buyerUuid := bid.playerUuid, sellerUuid := request.playerUuid, priceCents := bid.priceCents,
    quantity := fill }

/-- One iteration of the loop of `placeSellLocked`. -/
def takeBid (request : OrderRequest) (orderId bidId : Id) (bid : OrderRow) (p : Progress) :
    Tx Progress := do
  let fill := min p.remaining bid.remainingQty
  let spent ← checkedProduct bid.priceCents fill
  let reservedAfter := bid.reservedCents - spent
  throwIf (reservedAfter < 0) (.runtime "buy-order reserve invariant failed")
  updateOrder bidId (restingBidAfter (bid.remainingQty - fill) reservedAfter)
  let proceeds ← checkedProduct bid.priceCents fill
  credit request.playerUuid proceeds .tradeProceeds (some (.order orderId))
  recordTrade (bidTrade request orderId bidId bid fill)
  return { p with remaining := p.remaining - fill, filledTotal := p.filledTotal + fill,
                  gross := p.gross + proceeds }

def matchBids (request : OrderRequest) (orderId : Id) : List (Id × OrderRow) → Progress → Tx Progress
  | [], p => return p
  | (bidId, bid) :: bids, p => do
    if p.remaining = 0 then return p
    else
      let p ← takeBid request orderId bidId bid p
      matchBids request orderId bids p

def finishSell (request : OrderRequest) (orderId : Id) (p : Progress) : Tx ExecutionResult := do
  if request.type = .market ∧ p.remaining > 0 then
    addDelivery request.playerUuid request.marketId p.remaining .marketRemainder
  updateOrder orderId (soldOrder request p)
  let finalBalance ← lockedBalance request.playerUuid
  return executionResult request orderId p finalBalance

def placeSellLocked (request : OrderRequest) : Tx ExecutionResult := do
  let bookId ← lockActiveBook request.marketId
  let _ ← lockedBalance request.playerUuid
  let orderId ← insertOrder (newOrder request 0)
  let bids ← select (matchingBids request bookId)
  let p ← matchBids request orderId bids { remaining := request.quantity }
  finishSell request orderId p

/-- The transaction of a direct sell order is `placeSellLocked` alone. -/
def placeSell (request : OrderRequest) : Tx ExecutionResult := placeSellLocked request

end Selling

def placeOrder (settings : Settings) (request : OrderRequest) : Program Db Error ExecutionResult := do
  Program.ofExcept (validateRequest settings request)
  ensureAccount settings request.playerUuid request.playerName
  match request.side with
  | .buy => transaction (placeBuy request)
  | .sell => transaction (placeSell request)

def cancelOrderTx (orderId : Id) (playerUuid : String) (administrator : Bool) : Tx PUnit := do
  let order ← selectOne (·.orders.get? orderId) (.runtime "order does not exist")
  throwIf (administrator = false ∧ order.playerUuid ≠ playerUuid)
    (.runtime "cannot cancel another player's order")
  throwIf (¬ order.Resting) (.runtime "order is not open")
  withdrawOrder orderId order .orderCancelRefund .orderCanceled

def cancelOrder (orderId : Id) (playerUuid : String) (administrator : Bool) : Program Db Error PUnit :=
  transaction (cancelOrderTx orderId playerUuid administrator)

end EndstoneExchange.OrderMatching
