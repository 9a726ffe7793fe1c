import EndstoneExchange.MarketOperations
import EndstoneExchange.SellEscrowOperations
import EndstoneExchange.EconomyTransferOperations

/-!
# The exchange as a clearing desk

Abstractly the exchange makes balanced steps: open an order, settle one trade
between a buyer and a seller, close an order, move money, change an escrow, a
transfer or a claim. Between the steps of one matching session the row of the
incoming order already shows what it has left, and the desk remembers which
order that is.
-/
namespace EndstoneExchange.ClearingSteps
open AutoIncrementTables KeyedTables ExchangeDomain ExchangeTransactions AccountOperations
  MarketOperations OrderMatching DeliveryOperations SellEscrowOperations

/-- What one unit of an order keeps reserved. -/
def unitReserve (o : OrderRow) : Cents := if o.side = .buy ∧ o.orderType = .limit then o.priceCents else 0

/-- The row of an order after `q` of its units were traded. -/
def traded (q : ℤ) (o : OrderRow) : OrderRow :=
  { o with
    remainingQty := o.remainingQty - q
    reservedCents := o.reservedCents - unitReserve o * q
    status := if o.remainingQty - q = 0 then .filled else .partlyFilled }

def canceledOrder (o : OrderRow) : OrderRow :=
  { o with remainingQty := 0, reservedCents := 0, status := .canceled }

/-- The row of a market order that stops matching. -/
def stoppedOrder (o : OrderRow) : OrderRow :=
  { o with remainingQty := 0, status := if o.status = .opened then .canceled else o.status }

section Effects
variable (db : Db)

def Db.openOrder (o : OrderRow) : Db :=
  Db.post (Db.addOrder db o) o.playerUuid (-o.reservedCents) .buyOrderReserve
    (some (.order db.orders.nextId))

/-- What the buyer's balance gains in a trade: the price improvement of a limit
order, or less the price paid by a market order. -/
def buyerDelta (buy : OrderRow) (price : Cents) (q : ℤ) : Cents :=
  if buy.orderType = .limit then (buy.priceCents - price) * q else -(price * q)

def buyerReason (buy : OrderRow) : LedgerReason :=
  if buy.orderType = .limit then .priceImprovementRefund else .marketBuyTrade

def Db.settleTrade (t : TradeRow) (buy : OrderRow) : Db :=
  let db := Db.post db t.buyerUuid (buyerDelta buy t.priceCents t.quantity) (buyerReason buy)
    (some (.order t.buyOrderId))
  let db := Db.setOrder (Db.setOrder db t.buyOrderId (traded t.quantity)) t.sellOrderId
    (traded t.quantity)
  let db := Db.post db t.sellerUuid (t.priceCents * t.quantity) .tradeProceeds
    (some (.order t.sellOrderId))
  Db.addTrade (Db.deliver db t.buyerUuid t.marketId t.quantity .tradeBuy) t

def Db.withdraw (orderId : Id) (o : OrderRow) (refund : LedgerReason) (returned : DeliveryReason) : Db :=
  let db := Db.post db o.playerUuid (if o.side = .buy then o.reservedCents else 0) refund
    (some (.order orderId))
  let db := Db.deliver db o.playerUuid o.marketId (if o.side = .buy then 0 else o.remainingQty) returned
  Db.setOrder db orderId canceledOrder

def Db.stop (orderId : Id) (o : OrderRow) : Db :=
  let db := Db.deliver db o.playerUuid o.marketId (if o.side = .buy then 0 else o.remainingQty)
    .marketRemainder
  Db.setOrder db orderId stoppedOrder

end Effects

/-- A nonzero amount is only posted to an account that exists and covers it. -/
def CanPost (db : Db) (playerUuid : String) (delta : Cents) : Prop :=
  delta ≠ 0 → ∃ a, db.accounts.find? playerUuid = some a ∧ (0 ≤ delta ∨ 0 ≤ a.balanceCents + delta)

theorem exists_account_post (db : Db) (playerUuid : String) (delta : Cents) (reason : LedgerReason)
    (reference : Option LedgerReference) {other : String} :
    (∃ a, (Db.post db playerUuid delta reason reference).accounts.find? other = some a) ↔
      ∃ a, db.accounts.find? other = some a := by
  simp only [Db.post_accounts]
  by_cases h : delta = 0
  · simp [h]
  · simp only [h, if_false, KeyedTable.exists_find?_update]

theorem CanPost.posted {db : Db} {playerUuid other : String} {delta delta' : Cents} {reason : LedgerReason}
    {reference : Option LedgerReference} (h : CanPost db other delta') (h0 : 0 ≤ delta') :
    CanPost (Db.post db playerUuid delta reason reference) other delta' := by
  intro hne
  obtain ⟨a, ha, -⟩ := h hne
  obtain ⟨b, hb⟩ := (exists_account_post db playerUuid delta reason reference).mpr ⟨a, ha⟩
  exact ⟨b, hb, .inl h0⟩

/-- Two markets of one order book. -/
def SameBook (db : Db) (m n : Id) : Prop := ∃ b, Db.bookOf db m = some b ∧ Db.bookOf db n = some b

/-- A resting order of the other side that a limit order could trade with. -/
def Crosses (o r : OrderRow) : Prop :=
  o.side = .buy ∧ r.side = .sell ∧ r.priceCents ≤ o.priceCents ∨
    o.side = .sell ∧ r.side = .buy ∧ o.priceCents ≤ r.priceCents

/-- The book holds nothing that another player's order could still trade with. -/
def Unmatched (db : Db) (o : OrderRow) : Prop :=
  ∀ i r, db.orders.get? i = some r → r.Resting → r.playerUuid ≠ o.playerUuid →
    SameBook db o.marketId r.marketId → ¬ Crosses o r

/-- The steps that some results allow and others exclude. -/
inductive Special
  | adjustBalance | retireMarket (marketId : Id) | openSell | tagEscrow (escrowId : Id)
  | orderEscrow (escrowId : Id) | changeMarkets | changeFrames

/-- The database and the order a matching session is working for. -/
structure Desk where
  db : Db
  taker : Option Id := none

/-- A resting or incoming order that a trade can draw on. -/
structure Tradable (db : Db) (taker : Option Id) (orderId : Id) (o : OrderRow) (q : ℤ) : Prop where
  row : db.orders.get? orderId = some o
  open_for : taker = some orderId ∨ o.Resting
  quantity : q ≤ o.remainingQty

/-- The conditions under which the exchange settles a trade. -/
structure Settles (db : Db) (taker : Option Id) (t : TradeRow) (buy sell : OrderRow) : Prop where
  buyOrder : Tradable db taker t.buyOrderId buy t.quantity
  sellOrder : Tradable db taker t.sellOrderId sell t.quantity
  sides : buy.side = .buy ∧ sell.side = .sell
  owners : t.buyerUuid = buy.playerUuid ∧ t.sellerUuid = sell.playerUuid
  strangers : t.buyerUuid ≠ t.sellerUuid
  quantity_pos : 0 < t.quantity
  price_pos : 0 < t.priceCents
  limits : (buy.orderType = .limit → t.priceCents ≤ buy.priceCents) ∧
    (sell.orderType = .limit → sell.priceCents ≤ t.priceCents)
  market : t.marketId = buy.marketId ∨ t.marketId = sell.marketId
  book : SameBook db buy.marketId sell.marketId
  buyer : CanPost db t.buyerUuid (buyerDelta buy t.priceCents t.quantity)
  seller : CanPost db t.sellerUuid (t.priceCents * t.quantity)

variable (settings : Settings) (allow : Special → Prop)

inductive Step : Desk → Desk → Prop
  | openAccount {db : Db} (playerUuid playerName : String) (h : db.accounts.find? playerUuid = none) :
      Step ⟨db, none⟩ ⟨Db.addLedger
        (Db.addAccount db playerUuid ⟨playerName, settings.initialBalanceCents⟩)
        ⟨playerUuid, settings.initialBalanceCents, .accountOpened, none⟩, none⟩
  | renameAccount {db : Db} (playerUuid playerName : String) :
      Step ⟨db, none⟩ ⟨Db.setAccount db playerUuid fun a => { a with playerName }, none⟩
  | adjustBalance {db : Db} {playerUuid : String} {delta : Cents} (ha : allow .adjustBalance)
      {a : AccountRow} (h : db.accounts.find? playerUuid = some a) (hd : 0 ≤ a.balanceCents + delta) :
      Step ⟨db, none⟩ ⟨Db.addLedger
        (Db.setAccount db playerUuid fun a => { a with balanceCents := a.balanceCents + delta })
        ⟨playerUuid, delta, .adminAdjustment, none⟩, none⟩
  | openBook {db : Db} (book : BookRow) (hs : allow .changeMarkets) :
      Step ⟨db, none⟩ ⟨Db.addBook db book, none⟩
  | openMarket {db : Db} {market : MarketRow} {book : BookRow}
      (hb : db.books.get? market.bookId = some book) (hi : book.itemType = market.item.type ∧
        book.itemData = market.item.data ∧ book.itemNbt = market.item.nbt) (ha : market.active)
      (hs : allow .changeMarkets) :
      Step ⟨db, none⟩ ⟨Db.addMarket db market, none⟩
  | switchMarket {db : Db} (marketId : Id) (active reopenable : Bool)
      (ha : active = false → reopenable = false → allow (.retireMarket marketId))
      (hs : allow .changeMarkets) :
      Step ⟨db, none⟩ ⟨Db.setMarket db marketId fun m => { m with active, reopenable }, none⟩
  | rebind {db : Db} (bindings : KeyedTable String Id) (hs : allow .changeMarkets) :
      Step ⟨db, none⟩ ⟨Db.setBindings db bindings, none⟩
  | openOrder {db : Db} {o : OrderRow} {m : MarketRow} (hm : db.markets.get? o.marketId = some m)
      (hs : o.status = .opened) (hq : 0 < o.originalQty) (hr : o.remainingQty = o.originalQty)
      (hp : (o.orderType = .limit → 0 < o.priceCents) ∧ (o.orderType = .market → o.priceCents = 0))
      (hv : o.reservedCents = unitReserve o * o.originalQty)
      (hc : CanPost db o.playerUuid (-o.reservedCents)) (ha : o.side = .sell → allow .openSell)
      (hw : ∃ a, db.accounts.find? o.playerUuid = some a) (hact : m.active) :
      Step ⟨db, none⟩ ⟨Db.openOrder db o, some db.orders.nextId⟩
  | settleTrade {db : Db} {taker : Option Id} {t : TradeRow} {buy sell : OrderRow}
      (h : Settles db taker t buy sell) :
      Step ⟨db, taker⟩ ⟨Db.settleTrade db t buy, taker⟩
  | closeLimit {db : Db} {orderId : Id} {o : OrderRow} (h : db.orders.get? orderId = some o)
      (ht : o.orderType = .limit) (hx : o.status.Live → Unmatched db o) : Step ⟨db, some orderId⟩ ⟨db, none⟩
  | closeMarket {db : Db} {orderId : Id} {o : OrderRow} (h : db.orders.get? orderId = some o)
      (ht : o.orderType = .market) : Step ⟨db, some orderId⟩ ⟨Db.stop db orderId o, none⟩
  | withdraw {db : Db} {orderId : Id} {o : OrderRow} {refund : LedgerReason}
      {returned : DeliveryReason} (h : db.orders.get? orderId = some o) (hr : o.Resting)
      (hf : refund = .orderCancelRefund ∨ refund = .marketCloseRefund)
      (hd : returned = .orderCanceled ∨ returned = .marketClosed)
      (ha : o.side = .buy → CanPost db o.playerUuid o.reservedCents) :
      Step ⟨db, none⟩ ⟨Db.withdraw db orderId o refund returned, none⟩
  | prepareClaim {db : Db} {deliveryId : Id} {d : DeliveryRow} {q : ℤ}
      (h : db.deliveries.get? deliveryId = some d) (hq : 0 < q)
      (hl : d.claimedQty + d.reservedQty + q ≤ d.quantity) :
      Step ⟨db, none⟩ ⟨Db.setDelivery
        (Db.addClaim db { deliveryId, playerUuid := d.playerUuid, quantity := q }) deliveryId fun d =>
          { d with reservedQty := d.reservedQty + q }, none⟩
  | settleClaim {db : Db} {claimId : Id} {c : DeliveryClaimRow} {q : ℤ}
      {d : DeliveryRow} (h : db.deliveryClaims.get? claimId = some c) (hs : c.status = .prepared)
      (hd : db.deliveries.get? c.deliveryId = some d) (hq : 0 ≤ q) (hl : q ≤ c.quantity) :
      Step ⟨db, none⟩ ⟨Db.setClaim (Db.setDelivery db c.deliveryId (settledDelivery q c.quantity))
        claimId (settledClaim q), none⟩
  | cleanClaim {db : Db} {claimId : Id} {c : DeliveryClaimRow}
      (h : db.deliveryClaims.get? claimId = some c) (hs : c.status = .applied) :
      Step ⟨db, none⟩ ⟨Db.setClaim db claimId fun c => { c with cleaned := true }, none⟩
  | prepareEscrow {db : Db} {e : SellEscrowRow} {m : MarketRow}
      (hm : db.markets.get? e.marketId = some m) (ha : m.active) (hq : 0 < e.requestedQty)
      (hs : e.status = .prepared ∧ e.taggedQty = 0 ∧ e.orderId = none)
      (hp : (e.orderType = .limit → 0 < e.priceCents) ∧ (e.orderType = .market → e.priceCents = 0))
      (hw : ∃ a, db.accounts.find? e.playerUuid = some a) :
      Step ⟨db, none⟩ ⟨Db.addEscrow db e, none⟩
  | tagEscrow {db : Db} {escrowId : Id} {e : SellEscrowRow} {tagged receipts : ℤ}
      (ha : allow (.tagEscrow escrowId)) (h : db.sellEscrows.get? escrowId = some e)
      (hs : e.status = .prepared) (hq : e.requestedQty ≤ tagged) :
      Step ⟨db, none⟩ ⟨Db.setEscrow db escrowId fun e =>
        { e with taggedQty := tagged, receiptCount := receipts, status := .tagged }, none⟩
  | orderEscrow {db : Db} {escrowId orderId : Id} {e : SellEscrowRow} {o : OrderRow}
      (ha : allow (.orderEscrow escrowId)) (h : db.sellEscrows.get? escrowId = some e) (hs : e.status = .tagged)
      (ho : db.orders.get? orderId = some o) (hside : o.side = .sell)
      (hm : o.marketId = e.marketId ∧ o.playerUuid = e.playerUuid ∧ o.originalQty = e.requestedQty) :
      Step ⟨db, none⟩ ⟨Db.setEscrow (Db.deliver db e.playerUuid e.marketId
        (e.taggedQty - e.requestedQty) .escrowExcess) escrowId fun e =>
          { e with status := .ordered, orderId := some orderId }, none⟩
  | cancelEscrow {db : Db} {escrowId : Id} {e : SellEscrowRow}
      (h : db.sellEscrows.get? escrowId = some e) (hs : e.status = .prepared) :
      Step ⟨db, none⟩ ⟨Db.setEscrow db escrowId fun e =>
        { e with status := .canceled, cleaned := true }, none⟩
  | cleanEscrow {db : Db} {escrowId : Id} {e : SellEscrowRow}
      (h : db.sellEscrows.get? escrowId = some e) (hs : e.status = .ordered) :
      Step ⟨db, none⟩ ⟨Db.setEscrow db escrowId fun e => { e with cleaned := true }, none⟩
  | prepareTransfer {db : Db} {t : EconomyTransferRow} (hs : t.status = .prepared)
      (hq : 0 < t.amountCents)
      (ha : t.direction = .withdraw → CanPost db t.playerUuid (-t.amountCents)) :
      Step ⟨db, none⟩ ⟨Db.post (Db.addTransfer db t) t.playerUuid
        (if t.direction = .withdraw then -t.amountCents else 0) .umoneyWithdrawReserved
        (some (.economyTransfer db.economyTransfers.nextId)), none⟩
  | switchTransfer {db : Db} {transferId : Id} {t : EconomyTransferRow} {s : EconomyTransferStatus}
      {f : EconomyTransferRow → EconomyTransferRow}
      (h : db.economyTransfers.get? transferId = some t) (ht : t.status = .prepared)
      (hs : s = .prepared ∨ s = .externalApplied ∨ s = .blocked)
      (hf : (f t).status = s ∧ (f t).direction = t.direction ∧ (f t).amountCents = t.amountCents ∧
        (f t).playerUuid = t.playerUuid) :
      Step ⟨db, none⟩ ⟨Db.setTransfer db transferId f, none⟩
  | completeTransfer {db : Db} {transferId : Id} {t : EconomyTransferRow}
      (h : db.economyTransfers.get? transferId = some t) (hs : t.status = .externalApplied)
      (ha : t.direction = .deposit → CanPost db t.playerUuid t.amountCents) :
      Step ⟨db, none⟩ ⟨Db.setTransfer (Db.post db t.playerUuid
        (if t.direction = .deposit then t.amountCents else 0) .umoneyDeposit
        (some (.economyTransfer transferId))) transferId fun t =>
          { t with status := .completed, lastError := none }, none⟩
  | failTransfer {db : Db} {transferId : Id} {t : EconomyTransferRow} {error : List UInt8}
      (h : db.economyTransfers.get? transferId = some t) (hs : t.status = .prepared)
      (ha : t.direction = .withdraw → CanPost db t.playerUuid t.amountCents) :
      Step ⟨db, none⟩ ⟨Db.setTransfer (Db.post db t.playerUuid
        (if t.direction = .withdraw then t.amountCents else 0) .umoneyWithdrawRefund
        (some (.economyTransfer transferId))) transferId fun t =>
          { t with status := .failed, attemptCount := t.attemptCount + 1, lastError := some error },
        none⟩
  | changeFrames {db : Db} (listings : Table FrameListingRow) (bindings : KeyedTable String Id)
      (ha : allow .changeFrames) :
      Step ⟨db, none⟩ ⟨{ db with frameListings := listings, frameListingBindings := bindings }, none⟩
  | payFrame {db : Db} {buyer seller : String} {price : Cents} {listingId : Id}
      (hb : CanPost db buyer (-price)) (hs : CanPost (Db.post db buyer (-price) .framePurchase
        (some (.frameListing listingId))) seller price) (ha : allow .changeFrames) :
      Step ⟨db, none⟩ ⟨Db.post (Db.post db buyer (-price) .framePurchase
        (some (.frameListing listingId))) seller price .frameSale (some (.frameListing listingId)), none⟩

/-- What is allowed may be extended. -/
theorem Step.mono {settings : Settings} {allow allow' : Special → Prop} {d d' : Desk}
    (h : Step settings allow d d') (ha : ∀ s, allow s → allow' s) : Step settings allow' d d' := by
  cases h with
  | openAccount _ _ h => exact .openAccount _ _ h
  | renameAccount => exact .renameAccount _ _
  | adjustBalance hs h hd => exact .adjustBalance (ha _ hs) h hd
  | openBook _ hs => exact .openBook _ (ha _ hs)
  | openMarket hb hi hact hs => exact .openMarket hb hi hact (ha _ hs)
  | switchMarket _ _ _ hr hs => exact .switchMarket _ _ _ (fun h h' => ha _ (hr h h')) (ha _ hs)
  | rebind _ hs => exact .rebind _ (ha _ hs)
  | openOrder hm hs hq hr hp hv hc hsell hw hact =>
    exact .openOrder hm hs hq hr hp hv hc (fun h => ha _ (hsell h)) hw hact
  | settleTrade h => exact .settleTrade h
  | closeLimit h ht hx => exact .closeLimit h ht hx
  | closeMarket h ht => exact .closeMarket h ht
  | withdraw h hr hf hd hb => exact .withdraw h hr hf hd hb
  | prepareClaim h hq hl => exact .prepareClaim h hq hl
  | settleClaim h hs hd hq hl => exact .settleClaim h hs hd hq hl
  | cleanClaim h hs => exact .cleanClaim h hs
  | prepareEscrow hm hact hq hs hp hw => exact .prepareEscrow hm hact hq hs hp hw
  | tagEscrow hs h hst hq => exact .tagEscrow (ha _ hs) h hst hq
  | orderEscrow hs h hst ho hside hm => exact .orderEscrow (ha _ hs) h hst ho hside hm
  | cancelEscrow h hs => exact .cancelEscrow h hs
  | cleanEscrow h hs => exact .cleanEscrow h hs
  | prepareTransfer hs hq hw => exact .prepareTransfer hs hq hw
  | switchTransfer h ht hs hf => exact .switchTransfer h ht hs hf
  | completeTransfer h hs hd => exact .completeTransfer h hs hd
  | failTransfer h hs hw => exact .failTransfer h hs hw
  | changeFrames _ _ hs => exact .changeFrames _ _ (ha _ hs)
  | payFrame hb hg hs => exact .payFrame hb hg (ha _ hs)

/-- Any number of steps. -/
abbrev Steps : Desk → Desk → Prop := Relation.ReflTransGen (Step settings allow)

end EndstoneExchange.ClearingSteps
