import EndstoneExchange.AutoIncrementTables
import EndstoneExchange.KeyedTables

/-!
# The exchange's data model

Rows follow the columns of the migrated schema. Timestamps are kept only where
a query tests them: `cleaned` stands for `cleaned_at IS NOT NULL`. Account and
target keys compare by equality, as canonical UUIDs and target keys do.
-/
namespace EndstoneExchange.ExchangeDomain
open AutoIncrementTables KeyedTables

abbrev Cents := ℤ
abbrev Id := ℕ

/-- `std::numeric_limits<Cents>::max()`, also the upper end of BIGINT. -/
def maxCents : Cents := 9223372036854775807

/-- `std::numeric_limits<std::int64_t>::min()`. -/
def minCents : Cents := -9223372036854775808

inductive TargetKind | block | actor deriving DecidableEq, Repr
inductive Side | buy | sell deriving DecidableEq, Repr
inductive OrderType | limit | market deriving DecidableEq, Repr

/-- `OPEN`, `PARTIAL`, `FILLED`, `CANCELED`. -/
inductive OrderStatus | opened | partlyFilled | filled | canceled deriving DecidableEq, Repr

inductive DeliveryClaimStatus | prepared | applied | canceled deriving DecidableEq, Repr
inductive SellEscrowStatus | prepared | tagged | ordered | canceled deriving DecidableEq, Repr
inductive EconomyTransferDirection | deposit | withdraw deriving DecidableEq, Repr

inductive EconomyTransferStatus | prepared | externalApplied | completed | failed | blocked
  deriving DecidableEq, Repr

inductive FrameListingStatus | active | paid | dropped | claimed | canceled
  deriving DecidableEq, Repr

/-- `TRADE_BUY`, `MARKET_REMAINDER`, `ORDER_CANCELED`, `MARKET_CLOSED`, `ESCROW_EXCESS`. -/
inductive DeliveryReason | tradeBuy | marketRemainder | orderCanceled | marketClosed | escrowExcess
  deriving DecidableEq, Repr

inductive LedgerReason
  | accountOpened | adminAdjustment | buyOrderReserve | marketBuyTrade | priceImprovementRefund
  | tradeProceeds | orderCancelRefund | marketCloseRefund | umoneyWithdrawReserved | umoneyDeposit
  | umoneyWithdrawRefund | framePurchase | frameSale
  deriving DecidableEq, Repr

/-- The `reference_type` and `reference_id` of a ledger row. -/
inductive LedgerReference
  | order (id : Id) | economyTransfer (id : Id) | frameListing (id : Id)
  deriving DecidableEq, Repr

structure ItemPrototype where
  type : String
  data : ℤ := 0
  nbt : List UInt8 := []
  name : String
  deriving DecidableEq, Repr

structure OrderRequest where
  marketId : Id
  playerUuid : String
  playerName : String
  side : Side
  type : OrderType
  priceCents : Cents := 0
  quantity : ℤ
  deriving DecidableEq, Repr

structure ExecutionResult where
  orderId : Id
  requestedQuantity : ℤ
  filledQuantity : ℤ
  openQuantity : ℤ
  grossCents : Cents
  balanceCents : Cents
  deriving DecidableEq, Repr

structure AccountRow where
  playerName : String
  balanceCents : Cents
  deriving DecidableEq, Repr

structure BookRow where
  itemType : String
  itemData : ℤ
  itemNbt : List UInt8
  itemName : String
  itemHash : List UInt8
  deriving DecidableEq, Repr

structure MarketRow where
  bookId : Id
  targetKey : String
  targetKind : TargetKind
  dimensionName : String
  blockX : Option ℤ
  blockY : Option ℤ
  blockZ : Option ℤ
  actorId : Option ℤ
  item : ItemPrototype
  active : Bool
  reopenable : Bool
  createdBy : String
  deriving DecidableEq, Repr

structure OrderRow where
  marketId : Id
  playerUuid : String
  side : Side
  orderType : OrderType
  priceCents : Cents
  originalQty : ℤ
  remainingQty : ℤ
  reservedCents : Cents := 0
  status : OrderStatus
  deriving DecidableEq, Repr

structure TradeRow where
  marketId : Id
  buyOrderId : Id
  sellOrderId : Id
  buyerUuid : String
  sellerUuid : String
  priceCents : Cents
  quantity : ℤ
  deriving DecidableEq, Repr

structure DeliveryRow where
  playerUuid : String
  marketId : Id
  quantity : ℤ
  claimedQty : ℤ := 0
  reservedQty : ℤ := 0
  reason : DeliveryReason
  deriving DecidableEq, Repr

structure DeliveryClaimRow where
  deliveryId : Id
  playerUuid : String
  quantity : ℤ
  appliedQty : ℤ := 0
  status : DeliveryClaimStatus := .prepared
  cleaned : Bool := false
  deriving DecidableEq, Repr

structure SellEscrowRow where
  marketId : Id
  playerUuid : String
  playerName : String
  orderType : OrderType
  priceCents : Cents
  requestedQty : ℤ
  taggedQty : ℤ := 0
  receiptCount : ℤ := 0
  status : SellEscrowStatus := .prepared
  orderId : Option Id := none
  cleaned : Bool := false
  deriving DecidableEq, Repr

structure LedgerRow where
  playerUuid : String
  deltaCents : Cents
  reason : LedgerReason
  reference : Option LedgerReference
  deriving DecidableEq, Repr

structure EconomyTransferRow where
  playerUuid : String
  playerName : String
  direction : EconomyTransferDirection
  amountCents : Cents
  amountUnits : ℤ
  status : EconomyTransferStatus := .prepared
  externalBalanceBeforeUnits : Option ℤ
  externalBalanceUnits : Option ℤ := none
  attemptCount : ℕ := 0
  lastError : Option (List UInt8) := none
  deriving DecidableEq, Repr

structure FrameListingRow where
  targetKey : String
  dimensionName : String
  blockX : ℤ
  blockY : ℤ
  blockZ : ℤ
  sellerUuid : String
  sellerName : String
  priceCents : Cents
  item : ItemPrototype
  status : FrameListingStatus := .active
  buyerUuid : Option String := none
  buyerName : Option String := none
  deriving DecidableEq, Repr

/-- The migrated database; every table starts empty. -/
structure Db where
  accounts : KeyedTable String AccountRow := .empty
  books : Table BookRow := {}
  markets : Table MarketRow := {}
  targetBindings : KeyedTable String Id := .empty
  orders : Table OrderRow := {}
  trades : Table TradeRow := {}
  deliveries : Table DeliveryRow := {}
  deliveryClaims : Table DeliveryClaimRow := {}
  sellEscrows : Table SellEscrowRow := {}
  balanceLedger : Table LedgerRow := {}
  economyTransfers : Table EconomyTransferRow := {}
  frameListings : Table FrameListingRow := {}
  frameListingBindings : KeyedTable String Id := .empty

/-- A `std::runtime_error` of the service or a `DatabaseError`. -/
inductive Error
  | runtime (what : String)
  | database (what : String)
  deriving DecidableEq, Repr

/-- A result of the database as 64 bits. -/
def cellInt64 (value : ℤ) : Except Error ℤ :=
  if value < -maxCents - 1 ∨ value > maxCents then throw (.runtime "stoll") else return value

theorem cellInt64_of_fits {value : ℤ} (h : -maxCents - 1 ≤ value) (h' : value ≤ maxCents) :
    cellInt64 value = .ok value := if_neg (not_or.mpr ⟨not_lt.mpr h, not_lt.mpr h'⟩)

theorem cellInt64_out_of_range {value : ℤ} (h : value < -maxCents - 1 ∨ value > maxCents) :
    cellInt64 value = .error (.runtime "stoll") := if_pos h

/-- The constructor arguments of the service, within the bounds the configuration
validates, and MySQL's `SHA2(_, 256)`. -/
structure Settings where
  initialBalanceCents : Cents
  maxOrderQuantity : ℤ
  sha2 : List UInt8 → List UInt8
  initialBalance_nonneg : 0 ≤ initialBalanceCents
  initialBalance_le : initialBalanceCents ≤ maxCents
  maxOrderQuantity_pos : 0 < maxOrderQuantity

namespace OrderStatus

/-- `status IN ('OPEN','PARTIAL')`. -/
def Live (s : OrderStatus) : Prop := s = .opened ∨ s = .partlyFilled

instance (s : OrderStatus) : Decidable s.Live := inferInstanceAs (Decidable (_ ∨ _))

@[simp] theorem live_opened : OrderStatus.opened.Live := .inl rfl
@[simp] theorem live_partlyFilled : OrderStatus.partlyFilled.Live := .inr rfl
@[simp] theorem not_live_filled : ¬ OrderStatus.filled.Live := by simp [Live]
@[simp] theorem not_live_canceled : ¬ OrderStatus.canceled.Live := by simp [Live]

end OrderStatus

/-- `orderStatus(remaining, filled)`. -/
def orderStatus (remaining filled : ℤ) : OrderStatus :=
  if remaining = 0 then .filled else if filled > 0 then .partlyFilled else .opened

/-- A resting order: `order_type='LIMIT' AND status IN ('OPEN','PARTIAL')`. -/
def OrderRow.Resting (o : OrderRow) : Prop := o.orderType = .limit ∧ o.status.Live

instance (o : OrderRow) : Decidable o.Resting := inferInstanceAs (Decidable (_ ∧ _))

end EndstoneExchange.ExchangeDomain
