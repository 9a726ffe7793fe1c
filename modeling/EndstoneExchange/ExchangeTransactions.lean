import EndstoneExchange.AtomicTransactions
import EndstoneExchange.DurablePrograms
import EndstoneExchange.ExchangeDomain
import Mathlib.Tactic.Simps.Basic
import Mathlib.Tactic.SplitIfs
import Mathlib.Tactic.Linarith

/-!
# Statements shared by the service's transactions

Each helper of the service is a transaction on the database with one inversion
lemma. `Db.post` is the common effect of a credit and a debit: a zero amount
writes nothing, any other moves the balance and appends a ledger row.
-/
namespace EndstoneExchange.ExchangeTransactions
open AutoIncrementTables KeyedTables AtomicTransactions AtomicTransactions.Transaction
  DurablePrograms ExchangeDomain

abbrev Tx : Type → Type := Transaction Db Error

/-- Begin, run the body, commit. A lost connection raises before or after the
commit took effect; so does a lost single statement. -/
def transaction {α : Type} (body : Tx α) : Program Db Error α :=
  Program.atomic (.database "lost connection to MySQL server") body

/-- Without a fault a transaction does what its body does. -/
theorem transaction_returned {α : Type} {body : Tx α} {db db' : Db} {a : α}
    (h : body db = .ok (a, db')) : transaction body [] db = (.returned a, [], db') :=
  Program.atomic_returned h

theorem transaction_cases {α : Type} (body : Tx α) (db : Db) :
    (∃ a db', body db = .ok (a, db') ∧ transaction body [] db = (.returned a, [], db')) ∨
      ∃ e, body db = .error e ∧ transaction body [] db = (.threw e, [], db) := by
  cases hb : body db with
  | error e => exact .inr ⟨e, rfl, Program.atomic_error hb⟩
  | ok r => exact .inl ⟨r.1, r.2, rfl, transaction_returned hb⟩

/-- `price * quantity`, refused where it would overflow. -/
def checkedProduct (price : Cents) (quantity : ℤ) : Except Error Cents :=
  if price < 0 ∨ quantity < 0 ∨ quantity ≠ 0 ∧ price > maxCents.tdiv quantity then
    .error (.runtime "price multiplied by quantity is too large")
  else .ok (price * quantity)

theorem checkedProduct_ok {price : Cents} {quantity : ℤ} {c : Cents} :
    checkedProduct price quantity = .ok c ↔
      0 ≤ price ∧ 0 ≤ quantity ∧ price * quantity ≤ maxCents ∧ price * quantity = c := by
  have hdiv : 0 < quantity → (price ≤ maxCents.tdiv quantity ↔ price * quantity ≤ maxCents) := by
    intro hq
    rw [Int.tdiv_eq_ediv_of_nonneg (by decide), Int.le_ediv_iff_mul_le hq]
  unfold checkedProduct
  split_ifs with h
  · simp only [false_iff]
    rintro ⟨hp, hq, hm, -⟩
    rcases h with h | h | ⟨hne, h⟩
    · exact absurd hp (not_le.mpr h)
    · exact absurd hq (not_le.mpr h)
    · exact absurd ((hdiv (lt_of_le_of_ne hq (Ne.symm hne))).mpr hm) (not_le.mpr h)
  · simp only [not_or, not_and, not_lt] at h
    obtain ⟨hp, hq, hm⟩ := h
    have hle : price * quantity ≤ maxCents := by
      by_cases h0 : quantity = 0
      · subst h0
        rw [mul_zero]
        decide
      · exact (hdiv (lt_of_le_of_ne hq (Ne.symm h0))).mp (hm h0)
    simp [hp, hq, hle]

theorem checkedProduct_eq {price : Cents} {quantity : ℤ} (hp : 0 ≤ price) (hq : 0 ≤ quantity)
    (h : price * quantity ≤ maxCents) : checkedProduct price quantity = .ok (price * quantity) :=
  checkedProduct_ok.mpr ⟨hp, hq, h, rfl⟩

/-! ### Statements: each writes one table -/
section Statements
variable (db : Db)

@[simps] def Db.addAccount (playerUuid : String) (a : AccountRow) : Db :=
  { db with accounts := db.accounts.insert playerUuid a }

@[simps] def Db.setAccount (playerUuid : String) (f : AccountRow → AccountRow) : Db :=
  { db with accounts := db.accounts.update playerUuid f }

@[simps] def Db.addLedger (row : LedgerRow) : Db :=
  { db with balanceLedger := db.balanceLedger.insert row }

@[simps] def Db.addBook (row : BookRow) : Db := { db with books := db.books.insert row }

@[simps] def Db.addMarket (row : MarketRow) : Db := { db with markets := db.markets.insert row }

@[simps] def Db.setMarket (marketId : Id) (f : MarketRow → MarketRow) : Db :=
  { db with markets := db.markets.update marketId f }

@[simps] def Db.setBindings (bindings : KeyedTable String Id) : Db :=
  { db with targetBindings := bindings }

@[simps] def Db.addOrder (row : OrderRow) : Db := { db with orders := db.orders.insert row }

@[simps] def Db.setOrder (orderId : Id) (f : OrderRow → OrderRow) : Db :=
  { db with orders := db.orders.update orderId f }

@[simps] def Db.addTrade (row : TradeRow) : Db := { db with trades := db.trades.insert row }

@[simps] def Db.addDeliveryRow (row : DeliveryRow) : Db :=
  { db with deliveries := db.deliveries.insert row }

@[simps] def Db.setDelivery (deliveryId : Id) (f : DeliveryRow → DeliveryRow) : Db :=
  { db with deliveries := db.deliveries.update deliveryId f }

@[simps] def Db.addClaim (row : DeliveryClaimRow) : Db :=
  { db with deliveryClaims := db.deliveryClaims.insert row }

@[simps] def Db.setClaim (claimId : Id) (f : DeliveryClaimRow → DeliveryClaimRow) : Db :=
  { db with deliveryClaims := db.deliveryClaims.update claimId f }

@[simps] def Db.addEscrow (row : SellEscrowRow) : Db :=
  { db with sellEscrows := db.sellEscrows.insert row }

@[simps] def Db.setEscrow (escrowId : Id) (f : SellEscrowRow → SellEscrowRow) : Db :=
  { db with sellEscrows := db.sellEscrows.update escrowId f }

@[simps] def Db.addTransfer (row : EconomyTransferRow) : Db :=
  { db with economyTransfers := db.economyTransfers.insert row }

@[simps] def Db.setTransfer (transferId : Id) (f : EconomyTransferRow → EconomyTransferRow) : Db :=
  { db with economyTransfers := db.economyTransfers.update transferId f }

@[simps] def Db.addListing (row : FrameListingRow) : Db :=
  { db with frameListings := db.frameListings.insert row }

@[simps] def Db.setListing (listingId : Id) (f : FrameListingRow → FrameListingRow) : Db :=
  { db with frameListings := db.frameListings.update listingId f }

@[simps] def Db.setListingBindings (bindings : KeyedTable String Id) : Db :=
  { db with frameListingBindings := bindings }

end Statements

section Accounts

/-- The effect of a credit or a debit; a zero amount writes nothing. -/
@[simps] def Db.post (db : Db) (playerUuid : String) (delta : Cents) (reason : LedgerReason)
    (reference : Option LedgerReference) : Db :=
  { db with
    accounts := if delta = 0 then db.accounts else
      db.accounts.update playerUuid fun a => { a with balanceCents := a.balanceCents + delta }
    balanceLedger := if delta = 0 then db.balanceLedger else
      db.balanceLedger.insert ⟨playerUuid, delta, reason, reference⟩ }

@[simp] theorem Db.post_zero (db : Db) (playerUuid : String) (reason : LedgerReason)
    (reference : Option LedgerReference) : Db.post db playerUuid 0 reason reference = db := rfl

/-- `UPDATE exchange_accounts SET balance_cents=balance_cents+delta`. -/
def addToBalance (playerUuid : String) (delta : Cents) : Tx PUnit :=
  execute (Db.setAccount · playerUuid fun a => { a with balanceCents := a.balanceCents + delta })

def recordBalanceChange (playerUuid : String) (delta : Cents) (reason : LedgerReason)
    (reference : Option LedgerReference) : Tx PUnit :=
  execute (Db.addLedger · ⟨playerUuid, delta, reason, reference⟩)

theorem Db.post_eq (db : Db) (playerUuid : String) {delta : Cents} (reason : LedgerReason)
    (reference : Option LedgerReference) (h : delta ≠ 0) : Db.post db playerUuid delta reason reference =
      Db.addLedger (Db.setAccount db playerUuid fun a =>
        { a with balanceCents := a.balanceCents + delta }) ⟨playerUuid, delta, reason, reference⟩ := by
  simp only [Db.post, h, if_false, Db.addLedger, Db.setAccount]

theorem find?_post (db : Db) (playerUuid : String) (delta : Cents) (reason : LedgerReason)
    (reference : Option LedgerReference) (other : String) :
    (Db.post db playerUuid delta reason reference).accounts.find? other =
      if other = playerUuid then (db.accounts.find? other).map fun a =>
        { a with balanceCents := a.balanceCents + delta } else db.accounts.find? other := by
  by_cases h0 : delta = 0
  · subst h0
    simp
  · rw [Db.post_accounts, if_neg h0, KeyedTable.find?_update]

def lockedBalance (playerUuid : String) : Tx Cents := do
  let account ← selectOne (·.accounts.find? playerUuid) (.runtime "exchange account does not exist")
  return account.balanceCents

/-- The UPDATE raises when the new balance leaves the range of BIGINT. -/
def credit (playerUuid : String) (amount : Cents) (reason : LedgerReason)
    (reference : Option LedgerReference) : Tx PUnit := do
  throwIf (amount < 0) (.runtime "cannot credit a negative amount")
  if amount = 0 then return ⟨⟩
  else
    let account ← selectOne (·.accounts.find? playerUuid)
      (.runtime "credit target account does not exist")
    throwIf (account.balanceCents + amount > maxCents) (.database "BIGINT value is out of range")
    addToBalance playerUuid amount
    recordBalanceChange playerUuid amount reason reference

def debit (playerUuid : String) (amount : Cents) (reason : LedgerReason)
    (reference : Option LedgerReference) : Tx PUnit := do
  throwIf (amount < 0) (.runtime "cannot debit a negative amount")
  if amount = 0 then return ⟨⟩
  else
    let account ← selectOne (·.accounts.find? playerUuid) (.runtime "insufficient exchange balance")
    throwIf (account.balanceCents < amount) (.runtime "insufficient exchange balance")
    addToBalance playerUuid (-amount)
    recordBalanceChange playerUuid (-amount) reason reference

/-- A credit goes through: a nonzero one needs an account and room below BIGINT's limit. -/
def Creditable (db : Db) (playerUuid : String) (amount : Cents) : Prop :=
  0 ≤ amount ∧ (amount ≠ 0 → ∃ a, db.accounts.find? playerUuid = some a ∧
    a.balanceCents + amount ≤ maxCents)

/-- A debit goes through: a nonzero one needs an account that covers it. -/
def Debitable (db : Db) (playerUuid : String) (amount : Cents) : Prop :=
  0 ≤ amount ∧ (amount ≠ 0 → ∃ a, db.accounts.find? playerUuid = some a ∧ amount ≤ a.balanceCents)

variable {db : Db} {playerUuid : String} {amount : Cents} {reason : LedgerReason}
  {reference : Option LedgerReference}

theorem lockedBalance_ok {p : Cents × Db} : lockedBalance playerUuid db = .ok p ↔
    ∃ a, db.accounts.find? playerUuid = some a ∧ (a.balanceCents, db) = p := by
  simp only [lockedBalance, bind_ok, selectOne_ok, pure_ok, exists_exists_and_eq_and]

theorem credit_ok {p : PUnit × Db} : credit playerUuid amount reason reference db = .ok p ↔
    Creditable db playerUuid amount ∧ (⟨⟩, Db.post db playerUuid amount reason reference) = p := by
  unfold credit Creditable
  by_cases h0 : amount = 0
  · simp [h0, throwIf_ok]
  · rw [Db.post_eq db playerUuid reason reference h0]
    simp only [h0, bind_ok, throwIf_ok, selectOne_ok, execute_ok, addToBalance, recordBalanceChange, if_false,
      not_lt, not_false_eq_true, forall_const, and_assoc, exists_and_left, exists_eq_left',
      exists_exists_and_eq_and, gt_iff_lt, ne_eq]
    constructor
    · rintro ⟨ha, a, hf, hm, hp⟩
      exact ⟨ha, ⟨a, hf, hm⟩, hp⟩
    · rintro ⟨ha, ⟨a, hf, hm⟩, hp⟩
      exact ⟨ha, a, hf, hm, hp⟩

theorem credit_raises {E : Error → Prop} (hnegative : E (.runtime "cannot credit a negative amount"))
    (hmissing : E (.runtime "credit target account does not exist"))
    (hlarge : E (.database "BIGINT value is out of range")) {playerUuid : String} {amount : Cents}
    {reason : LedgerReason} {reference : Option LedgerReference} :
    RaisesOnly E (credit playerUuid amount reason reference) db := by
  refine .bind (.throwIf fun _ => hnegative) fun _ _ _ => .ite (fun _ => .pure) fun _ => ?_
  refine .bind (.selectOne hmissing) fun _ _ _ => .bind (.throwIf fun _ => hlarge) fun _ _ _ => ?_
  exact .bind .execute fun _ _ _ => .execute

theorem debit_ok {p : PUnit × Db} : debit playerUuid amount reason reference db = .ok p ↔
    Debitable db playerUuid amount ∧ (⟨⟩, Db.post db playerUuid (-amount) reason reference) = p := by
  unfold debit Debitable
  by_cases h0 : amount = 0
  · simp [h0, throwIf_ok]
  · rw [Db.post_eq db playerUuid reason reference (neg_ne_zero.mpr h0)]
    simp only [h0, bind_ok, throwIf_ok, selectOne_ok, execute_ok, addToBalance, recordBalanceChange, if_false,
      not_lt, not_false_eq_true, forall_const, and_assoc, exists_and_left, exists_eq_left',
      exists_exists_and_eq_and, ne_eq]
    constructor
    · rintro ⟨ha, a, hf, hm, hp⟩
      exact ⟨ha, ⟨a, hf, hm⟩, hp⟩
    · rintro ⟨ha, ⟨a, hf, hm⟩, hp⟩
      exact ⟨ha, a, hf, hm, hp⟩

end Accounts

section Deliveries

/-- What `addDelivery` leaves behind: nothing unless the quantity is positive. -/
@[simps] def Db.deliver (db : Db) (playerUuid : String) (marketId : Id) (quantity : ℤ)
    (reason : DeliveryReason) : Db :=
  { db with
    deliveries := if quantity ≤ 0 then db.deliveries else
      db.deliveries.insert { playerUuid, marketId, quantity, reason } }

def addDelivery (playerUuid : String) (marketId : Id) (quantity : ℤ) (reason : DeliveryReason) :
    Tx PUnit :=
  if quantity ≤ 0 then return ⟨⟩
  else execute (Db.addDeliveryRow · { playerUuid, marketId, quantity, reason })

theorem addDelivery_ok {playerUuid : String} {marketId : Id} {quantity : ℤ} {reason : DeliveryReason}
    {db : Db} {p : PUnit × Db} : addDelivery playerUuid marketId quantity reason db = .ok p ↔
      (⟨⟩, Db.deliver db playerUuid marketId quantity reason) = p := by
  unfold addDelivery Db.deliver
  by_cases h : quantity ≤ 0 <;> simp [h, pure_ok, execute_ok, Db.addDeliveryRow]

end Deliveries

section Orders

/-- The two CHECK constraints of `exchange_trades` hold of every row it accepts. -/
def insertTrade (trade : TradeRow) : Tx PUnit := do
  throwIf (trade.priceCents ≤ 0) (.database "CHECK constraint on price_cents is violated")
  throwIf (trade.quantity ≤ 0) (.database "CHECK constraint on quantity is violated")
  execute (Db.addTrade · trade)

def updateOrder (orderId : Id) (f : OrderRow → OrderRow) : Tx PUnit :=
  execute (Db.setOrder · orderId f)

/-- Append an order and return its key, `LAST_INSERT_ID()`. -/
def insertOrder (order : OrderRow) : Tx Id := do
  let orderId ← select (·.orders.nextId)
  execute (Db.addOrder · order)
  return orderId

/-- Close a resting order: a buyer's reserve is refunded, a seller's items are
returned. Cancellation and retirement differ in the recorded reasons only. -/
def withdrawOrder (orderId : Id) (order : OrderRow) (refund : LedgerReason)
    (returned : DeliveryReason) : Tx PUnit := do
  if order.side = .buy then
    credit order.playerUuid order.reservedCents refund (some (.order orderId))
  else if order.remainingQty > 0 then
    addDelivery order.playerUuid order.marketId order.remainingQty returned
  updateOrder orderId fun o => { o with remainingQty := 0, reservedCents := 0, status := .canceled }

/-- The book of an active market, locked for the rest of the transaction. -/
def lockActiveBook (marketId : Id) : Tx Id := do
  let identity ← selectOne (·.markets.get? marketId) (.runtime "market does not exist")
  let _ ← selectOne (·.books.get? identity.bookId) (.runtime "market order book does not exist")
  let market ← selectOne (·.markets.get? marketId) (.runtime "market is not active")
  throwIf (market.active = false) (.runtime "market is not active")
  throwIf (market.bookId ≠ identity.bookId)
    (.runtime "market order-book identity changed unexpectedly")
  return identity.bookId

theorem lockActiveBook_ok {db : Db} {marketId : Id} {p : Id × Db} :
    lockActiveBook marketId db = .ok p ↔
      ∃ m b, db.markets.get? marketId = some m ∧ db.books.get? m.bookId = some b ∧ m.active ∧
        (m.bookId, db) = p := by
  simp only [lockActiveBook, bind_ok, selectOne_ok, throwIf_ok, pure_ok, exists_exists_and_eq_and,
    exists_and_left, exists_eq_left', not_not, and_assoc, Bool.not_eq_false]
  constructor
  · rintro ⟨m, hm, b, hb, m', hm', ha, -, hp⟩
    obtain rfl : m = m' := Option.some.inj (hm.symm.trans hm')
    exact ⟨m, hm, b, hb, ha, hp⟩
  · rintro ⟨m, hm, b, hb, ha, hp⟩
    exact ⟨m, hm, b, hb, m, hm, ha, rfl, hp⟩

end Orders

section Requests

def validateRequest (settings : Settings) (request : OrderRequest) : Except Error PUnit :=
  if request.marketId = 0 ∨ request.playerUuid = "" ∨ request.playerName = "" then
    .error (.runtime "order identity is incomplete")
  else if request.quantity ≤ 0 ∨ request.quantity > settings.maxOrderQuantity then
    .error (.runtime "order quantity is outside the configured range")
  else if request.type = .limit ∧ request.priceCents ≤ 0 then
    .error (.runtime "limit-order price must be positive")
  else if request.type = .limit then do
    let _ ← checkedProduct request.priceCents request.quantity
  else .ok ⟨⟩

/-- The requests `validateRequest` lets through. -/
structure ValidRequest (settings : Settings) (request : OrderRequest) : Prop where
  market : request.marketId ≠ 0
  uuid : request.playerUuid ≠ ""
  name : request.playerName ≠ ""
  quantity_pos : 0 < request.quantity
  quantity_le : request.quantity ≤ settings.maxOrderQuantity
  price_pos : request.type = .limit → 0 < request.priceCents
  value_le : request.type = .limit → request.priceCents * request.quantity ≤ maxCents

private theorem product_discarded {price : Cents} {quantity : ℤ} {u : PUnit} :
    (do let _ ← checkedProduct price quantity) = .ok u ↔
      0 ≤ price ∧ 0 ≤ quantity ∧ price * quantity ≤ maxCents := by
  have h := @checkedProduct_ok price quantity
  rcases hc : checkedProduct price quantity with e | c
  · have hn := (h (c := price * quantity)).not.mp (by simp [hc])
    simp only [and_true] at hn
    simp [hn]
  · obtain ⟨hp, hq, hm, -⟩ := h.mp hc
    exact iff_of_true rfl ⟨hp, hq, hm⟩

theorem validateRequest_ok {settings : Settings} {request : OrderRequest} {u : PUnit} :
    validateRequest settings request = .ok u ↔ ValidRequest settings request := by
  unfold validateRequest
  split_ifs with h1 h2 h3 h4
  · exact iff_of_false (by simp) fun h => h1.elim h.market fun h' => h'.elim h.uuid h.name
  · exact iff_of_false (by simp) fun h => h2.elim (not_le.mpr h.quantity_pos) (not_lt.mpr h.quantity_le)
  · exact iff_of_false (by simp) fun h => not_le.mpr (h.price_pos h3.1) h3.2
  all_goals
    simp only [not_or, not_and, not_le, not_lt] at h1 h2 h3
    obtain ⟨hm, hu, hn⟩ := h1
    obtain ⟨hq, hl⟩ := h2
  · rw [product_discarded]
    constructor
    · rintro ⟨-, -, hv⟩
      exact ⟨hm, hu, hn, hq, hl, h3, fun _ => hv⟩
    · intro h
      exact ⟨(h3 h4).le, hq.le, h.value_le h4⟩
  · exact iff_of_true rfl ⟨hm, hu, hn, hq, hl, fun h => absurd h h4, fun h => absurd h h4⟩

end Requests

end EndstoneExchange.ExchangeTransactions
