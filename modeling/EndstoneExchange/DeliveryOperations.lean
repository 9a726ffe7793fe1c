import EndstoneExchange.ExchangeTransactions

/-!
# Deliveries and their claims

A claim reserves part of a delivery, is settled with the quantity that reached
the inventory and is finished once its marker has been cleaned off the items.
-/
namespace EndstoneExchange.DeliveryOperations
open AutoIncrementTables AtomicTransactions.Transaction DurablePrograms ExchangeDomain
  ExchangeTransactions

structure Delivery where
  id : Id
  marketId : Id
  item : ItemPrototype
  quantity : ℤ
  claimedQuantity : ℤ
  reservedQuantity : ℤ
  reason : DeliveryReason
  deriving DecidableEq, Repr

structure DeliveryClaim where
  id : Id
  deliveryId : Id
  item : ItemPrototype
  quantity : ℤ
  appliedQuantity : ℤ := 0
  status : DeliveryClaimStatus := .prepared
  cleaned : Bool := false
  deriving DecidableEq, Repr

/-- JOIN exchange_markets m ON m.id=market_id. -/
def marketItem (db : Db) (marketId : Id) : Option ItemPrototype :=
  (db.markets.get? marketId).map (·.item)

def deliveryFromRow (db : Db) (e : Id × DeliveryRow) : Option Delivery :=
  (marketItem db e.2.marketId).map fun item =>
    { id := e.1, marketId := e.2.marketId, item, quantity := e.2.quantity,
      claimedQuantity := e.2.claimedQty, reservedQuantity := e.2.reservedQty, reason := e.2.reason }

def pendingDeliveries (playerUuid : String) : Tx (List Delivery) := select fun db =>
  (db.deliveries.entries.filter fun e => e.2.playerUuid = playerUuid ∧
    e.2.claimedQty + e.2.reservedQty < e.2.quantity).filterMap (deliveryFromRow db)

/-- JOIN exchange_deliveries and exchange_markets. -/
def deliveryClaimFromRow (db : Db) (e : Id × DeliveryClaimRow) : Option DeliveryClaim := do
  let delivery ← db.deliveries.get? e.2.deliveryId
  let item ← marketItem db delivery.marketId
  return { id := e.1, deliveryId := e.2.deliveryId, item, quantity := e.2.quantity,
           appliedQuantity := e.2.appliedQty, status := e.2.status, cleaned := e.2.cleaned }

/-- PREPARED, or APPLIED and not yet cleaned. -/
def DeliveryClaimRow.Unfinished (c : DeliveryClaimRow) : Prop :=
  c.status = .prepared ∨ c.status = .applied ∧ c.cleaned = false

instance (c : DeliveryClaimRow) : Decidable (DeliveryClaimRow.Unfinished c) :=
  inferInstanceAs (Decidable (_ ∨ _))

def unfinishedDeliveryClaims (playerUuid : String) : Tx (List DeliveryClaim) := select fun db =>
  (db.deliveryClaims.entries.filter fun e => e.2.playerUuid = playerUuid ∧
    DeliveryClaimRow.Unfinished e.2).filterMap (deliveryClaimFromRow db)

def findDeliveryClaim (claimId : Id) (playerUuid : String) : Tx (Option DeliveryClaim) :=
  select fun db => do
    let claim ← db.deliveryClaims.get? claimId
    if claim.playerUuid = playerUuid then deliveryClaimFromRow db (claimId, claim) else none

def prepareDeliveryClaimTx (deliveryId : Id) (playerUuid : String) (quantity : ℤ) :
    Tx DeliveryClaim := do
  let delivery ← selectOne (·.deliveries.get? deliveryId) (.runtime "delivery does not exist")
  let item ← selectOne (marketItem · delivery.marketId) (.runtime "delivery does not exist")
  throwIf (delivery.playerUuid ≠ playerUuid) (.runtime "delivery belongs to another player")
  let available := delivery.quantity - delivery.claimedQty - delivery.reservedQty
  throwIf (available ≤ 0) (.runtime "delivery has no unreserved quantity")
  let prepared := min quantity available
  let claimId ← select (·.deliveryClaims.nextId)
  execute (Db.addClaim · { deliveryId, playerUuid, quantity := prepared })
  execute (Db.setDelivery · deliveryId fun d => { d with reservedQty := d.reservedQty + prepared })
  return { id := claimId, deliveryId, item, quantity := prepared }

def prepareDeliveryClaim (deliveryId : Id) (playerUuid : String) (quantity : ℤ) :
    Program Db Error DeliveryClaim := do
  if quantity ≤ 0 ∨ playerUuid = "" then
    throw (Error.runtime "delivery claim data is incomplete")
  transaction (prepareDeliveryClaimTx deliveryId playerUuid quantity)

/-- The row of a claim that was settled with `delivered` items. -/
def settledClaim (delivered : ℤ) (c : DeliveryClaimRow) : DeliveryClaimRow :=
  if delivered = 0 then { c with appliedQty := 0, status := .canceled, cleaned := true }
  else { c with appliedQty := delivered, status := .applied }

/-- The row of a delivery whose claim on `prepared` items was settled with `delivered`. -/
def settledDelivery (delivered prepared : ℤ) (d : DeliveryRow) : DeliveryRow :=
  { d with claimedQty := d.claimedQty + delivered, reservedQty := d.reservedQty - prepared }

def completeDeliveryClaimTx (claimId : Id) (delivered : ℤ) : Tx PUnit := do
  let claim ← selectOne (·.deliveryClaims.get? claimId) (.runtime "delivery claim does not exist")
  if claim.status ≠ .prepared then
    throwIf (¬ (claim.status = .applied ∧ claim.appliedQty = delivered ∨
        claim.status = .canceled ∧ delivered = 0))
      (.runtime "delivery claim was already completed differently")
  else
    throwIf (delivered > claim.quantity) (.runtime "delivered quantity exceeds prepared claim")
    let delivery ← selectOne (·.deliveries.get? claim.deliveryId)
      (.runtime "delivery for claim does not exist")
    throwIf (delivery.reservedQty < claim.quantity ∨
        delivery.claimedQty + delivered > delivery.quantity)
      (.runtime "delivery reservation invariant failed")
    execute (Db.setDelivery · claim.deliveryId (settledDelivery delivered claim.quantity))
    execute (Db.setClaim · claimId (settledClaim delivered))

def completeDeliveryClaim (claimId : Id) (delivered : ℤ) : Program Db Error PUnit := do
  if delivered < 0 then throw (Error.runtime "delivered quantity must not be negative")
  transaction (completeDeliveryClaimTx claimId delivered)

def markDeliveryClaimCleanedTx (claimId : Id) : Tx PUnit := do
  let claim ← selectOne (·.deliveryClaims.get? claimId)
    (.runtime "applied delivery claim does not exist")
  throwIf (claim.status ≠ .applied) (.runtime "applied delivery claim does not exist")
  execute (Db.setClaim · claimId fun c => { c with cleaned := true })

def markDeliveryClaimCleaned (claimId : Id) : Program Db Error PUnit :=
  transaction (markDeliveryClaimCleanedTx claimId)

end EndstoneExchange.DeliveryOperations
