import EndstoneExchange.RowHistories
import EndstoneExchange.ServiceRuns

/-!
# Orders, trades, reserves and the ledger agree

Each order is the account of one player at one market: what its trades moved,
what it keeps reserved and what the ledger booked under its key must agree. The
incoming order of a session is an open account whatever its type.
-/
namespace EndstoneExchange.OrderReconciliation
open AutoIncrementTables KeyedTables AtomicTransactions.Transaction DurablePrograms ExchangeDomain
  ExchangeTransactions AccountOperations OrderMatching SellEscrowOperations ClearingSteps
  MatchingRefinement ClearingRefinement RowHistories ServiceRuns

section Columns
variable (db : Db) (orderId : Id)

/-- The quantity of the trades that reference an order. -/
def tradedQuantity : ℤ :=
  db.trades.sum fun t => if t.buyOrderId = orderId ∨ t.sellOrderId = orderId then t.quantity else 0

/-- The price of everything an order bought. -/
def boughtValue : Cents :=
  db.trades.sum fun t => if t.buyOrderId = orderId then t.priceCents * t.quantity else 0

/-- What the ledger booked under an order's key. -/
def ledgerOf : Cents :=
  db.balanceLedger.sum fun l => if l.reference = some (.order orderId) then l.deltaCents else 0

/-- What the trades of an order of one side owe to its owner. -/
def orderValue (side : Side) : Cents :=
  match side with
  | .buy => -boughtValue db orderId
  | .sell => soldValue db orderId

end Columns

section Bookings
variable (db : Db) (id : Id)

theorem ledgerOf_post (playerUuid : String) (delta : Cents) (reason : LedgerReason)
    (reference : Option LedgerReference) : ledgerOf (Db.post db playerUuid delta reason reference) id =
      ledgerOf db id + if reference = some (.order id) then delta else 0 := by
  by_cases h : delta = 0
  · simp [h]
  · simp [ledgerOf, h]

private theorem ledgerOf_settleTrade (t : TradeRow) (buy : OrderRow) :
    ledgerOf (Db.settleTrade db t buy) id = ledgerOf db id +
      (if t.buyOrderId = id then buyerDelta buy t.priceCents t.quantity else 0) +
      (if t.sellOrderId = id then t.priceCents * t.quantity else 0) := by
  have h : ledgerOf (Db.settleTrade db t buy) id =
      ledgerOf (Db.post (Db.post db t.buyerUuid (buyerDelta buy t.priceCents t.quantity) (buyerReason buy)
        (some (.order t.buyOrderId))) t.sellerUuid (t.priceCents * t.quantity) .tradeProceeds
          (some (.order t.sellOrderId))) id := rfl
  rw [h, ledgerOf_post, ledgerOf_post]
  simp only [Option.some.injEq, LedgerReference.order.injEq]

private theorem tradedQuantity_settleTrade (t : TradeRow) (buy : OrderRow) :
    tradedQuantity (Db.settleTrade db t buy) id = tradedQuantity db id +
      if t.buyOrderId = id ∨ t.sellOrderId = id then t.quantity else 0 :=
  Table.sum_insert _ _ _

private theorem boughtValue_settleTrade (t : TradeRow) (buy : OrderRow) :
    boughtValue (Db.settleTrade db t buy) id = boughtValue db id +
      if t.buyOrderId = id then t.priceCents * t.quantity else 0 :=
  Table.sum_insert _ _ _

private theorem soldValue_settleTrade (t : TradeRow) (buy : OrderRow) :
    soldValue (Db.settleTrade db t buy) id = soldValue db id +
      if t.sellOrderId = id then t.priceCents * t.quantity else 0 :=
  Table.sum_insert _ _ _

end Bookings

/-- A trade and the two orders it settled. -/
structure BetweenOrders (db : Db) (t : TradeRow) (buy sell : OrderRow) : Prop where
  rows : db.orders.get? t.buyOrderId = some buy ∧ db.orders.get? t.sellOrderId = some sell
  sides : buy.side = .buy ∧ sell.side = .sell
  owners : t.buyerUuid = buy.playerUuid ∧ t.sellerUuid = sell.playerUuid
  quantity_pos : 0 < t.quantity

def TradesOwned (db : Db) : Prop :=
  ∀ i t, db.trades.get? i = some t → ∃ buy sell, BetweenOrders db t buy sell

/-- Ledger rows under an order's key belong to the owner of the order. -/
def LedgerOwned (db : Db) : Prop :=
  ∀ i l id, db.balanceLedger.get? i = some l → l.reference = some (.order id) →
    ∃ o, db.orders.get? id = some o ∧ o.playerUuid = l.playerUuid

/-- The books of one order. An order that may still trade accounts for all its
units; any other has none left. -/
structure OrderBalanced (db : Db) (inFlight : Prop) (id : Id) (o : OrderRow) : Prop where
  original_pos : 0 < o.originalQty
  remaining_nonneg : 0 ≤ o.remainingQty
  traded_nonneg : 0 ≤ tradedQuantity db id
  reserve : o.reservedCents = unitReserve o * o.remainingQty
  accounted : o.orderType = .limit ∧ o.status ≠ .canceled ∨ inFlight →
    tradedQuantity db id + o.remainingQty = o.originalQty ∧
      o.status = orderStatus o.remainingQty (tradedQuantity db id)
  finished : ¬ (o.orderType = .limit ∧ o.status ≠ .canceled ∨ inFlight) →
    o.remainingQty = 0 ∧ tradedQuantity db id ≤ o.originalQty
  ledger : ledgerOf db id = orderValue db id o.side - o.reservedCents

structure Reconciled (d : Desk) : Prop where
  trades : TradesOwned d.db
  ledger : LedgerOwned d.db
  orders : ∀ id o, d.db.orders.get? id = some o → OrderBalanced d.db (d.taker = some id) id o

variable {settings : Settings} {allow : Special → Prop} {d d' : Desk} {db db' : Db}

section Ownership

theorem trades_cases (h : Step settings allow d d') : d'.db.trades = d.db.trades ∨
    ∃ t buy sell, Settles d.db d.taker t buy sell ∧ d'.db.trades = d.db.trades.insert t := by
  cases h with
  | settleTrade h => exact .inr ⟨_, _, _, h, rfl⟩
  | _ => exact .inl rfl

theorem BetweenOrders.step {t : TradeRow} {buy sell : OrderRow} (h : Step settings allow d d')
    (ht : BetweenOrders d.db t buy sell) : ∃ buy sell, BetweenOrders d'.db t buy sell := by
  obtain ⟨buy', hb, sb⟩ := order_kept h ht.rows.1
  obtain ⟨sell', hs, ss⟩ := order_kept h ht.rows.2
  exact ⟨buy', sell', ⟨hb, hs⟩, ⟨sb.side.trans ht.sides.1, ss.side.trans ht.sides.2⟩,
    ⟨ht.owners.1.trans sb.player.symm, ht.owners.2.trans ss.player.symm⟩, ht.quantity_pos⟩

private theorem tradesOwned_step (h : Step settings allow d d') (hI : TradesOwned d.db) : TradesOwned d'.db := by
  intro i t ht
  rcases trades_cases h with he | ⟨t', buy, sell, hs, he⟩ <;> rw [he] at ht
  · obtain ⟨buy, sell, hb⟩ := hI i t ht
    exact hb.step h
  · rcases Table.get?_insert_cases ht with ⟨-, rfl⟩ | ⟨-, ht⟩
    · have hb : BetweenOrders d.db t buy sell :=
        ⟨⟨hs.buyOrder.row, hs.sellOrder.row⟩, hs.sides, hs.owners, hs.quantity_pos⟩
      exact hb.step h
    · obtain ⟨buy, sell, hb⟩ := hI i t ht
      exact hb.step h

theorem LedgerOwned.mono (hI : LedgerOwned db) (hl : db'.balanceLedger = db.balanceLedger)
    (ho : ∀ id o, db.orders.get? id = some o → ∃ o', db'.orders.get? id = some o' ∧ SameTerms o o') :
    LedgerOwned db' := by
  intro i l id hi hr
  obtain ⟨o, hget, howner⟩ := hI i l id (hl ▸ hi) hr
  obtain ⟨o', ho', hs⟩ := ho id o hget
  exact ⟨o', ho', hs.player.trans howner⟩

theorem LedgerOwned.addLedger (hI : LedgerOwned db) {row : LedgerRow}
    (h : ∀ id, row.reference = some (.order id) →
      ∃ o, db.orders.get? id = some o ∧ o.playerUuid = row.playerUuid) :
    LedgerOwned (Db.addLedger db row) := by
  intro i l id hi hr
  rcases Table.get?_insert_cases hi with ⟨-, rfl⟩ | ⟨-, hi⟩
  · exact h id hr
  · exact hI i l id hi hr

theorem LedgerOwned.post (hI : LedgerOwned db) {playerUuid : String} {delta : Cents}
    {reason : LedgerReason} {reference : Option LedgerReference}
    (h : ∀ id, reference = some (.order id) →
      ∃ o, db.orders.get? id = some o ∧ o.playerUuid = playerUuid) :
    LedgerOwned (Db.post db playerUuid delta reason reference) := by
  by_cases h0 : delta = 0
  · rwa [h0, Db.post_zero]
  · rw [Db.post_eq db playerUuid reason reference h0]
    exact (@LedgerOwned.addLedger (Db.setAccount db playerUuid _)) hI h

private theorem ledgerOwned_step (h : Step settings allow d d') (hI : LedgerOwned d.db) : LedgerOwned d'.db := by
  have hkept := fun id o => @order_kept _ _ _ _ h id o
  have hown : ∀ {db : Db} {orderId : Id} {o : OrderRow}, db.orders.get? orderId = some o →
      ∀ id, some (LedgerReference.order orderId) = some (.order id) →
        ∃ o', db.orders.get? id = some o' ∧ o'.playerUuid = o.playerUuid := by
    rintro db orderId o ho id ⟨⟩
    exact ⟨o, ho, rfl⟩
  cases h with
  | openAccount => exact LedgerOwned.addLedger (hI.mono rfl hkept) fun _ => nofun
  | adjustBalance => exact LedgerOwned.addLedger (hI.mono rfl hkept) fun _ => nofun
  | @openOrder db o =>
    have hadded : LedgerOwned (Db.addOrder db o) :=
      hI.mono rfl fun id o ho => ⟨o, Table.get?_insert_old _ ho, .refl o⟩
    exact hadded.post (hown (Table.get?_insert_self _ _))
  | @settleTrade db taker t buy sell hs =>
    have hbuyer := hown hs.buyOrder.row
    have hseller := hown hs.sellOrder.row
    rw [← hs.owners.1] at hbuyer
    rw [← hs.owners.2] at hseller
    exact ((hI.post hbuyer).post hseller).mono rfl hkept
  | withdraw h => exact (hI.post (hown h)).mono rfl hkept
  | @prepareTransfer db t =>
    have hadded : LedgerOwned (Db.addTransfer db t) := hI.mono rfl hkept
    exact hadded.post (by simp)
  | completeTransfer => exact (hI.post (by simp)).mono rfl hkept
  | failTransfer => exact (hI.post (by simp)).mono rfl hkept
  | payFrame => exact (hI.post (by simp)).post (by simp)
  | _ => exact hI.mono rfl hkept

end Ownership
section Balances
variable {inFlight inFlight' : Prop} {id : Id} {o : OrderRow}

/-- What `OrderBalanced` sees of a database. -/
theorem OrderBalanced.frame (h : OrderBalanced db inFlight id o) (hf : inFlight ↔ inFlight')
    (ht : tradedQuantity db' id = tradedQuantity db id)
    (hv : ∀ side, orderValue db' id side = orderValue db id side)
    (hl : ledgerOf db' id = ledgerOf db id) : OrderBalanced db' inFlight' id o := by
  obtain ⟨hpos, hrem, hnn, hres, hacc, hfin, hled⟩ := h
  rw [← ht] at hnn hacc hfin
  rw [hf] at hacc hfin
  exact ⟨hpos, hrem, hnn, hres, hacc, hfin, by rw [hl, hv, hled]⟩

/-- A trade moves `q` units and the same value in the ledger. -/
theorem OrderBalanced.traded (h : OrderBalanced db inFlight id o) {q : ℤ} {value delta : Cents}
    (hopen : inFlight ∨ o.Resting) (hq : 0 < q) (hle : q ≤ o.remainingQty)
    (ht : tradedQuantity db' id = tradedQuantity db id + q)
    (hv : orderValue db' id o.side = orderValue db id o.side + value)
    (hl : ledgerOf db' id = ledgerOf db id + delta) (hd : delta = value + unitReserve o * q) :
    OrderBalanced db' inFlight id (traded q o) := by
  have hlive : o.orderType = .limit ∧ o.status ≠ .canceled ∨ inFlight :=
    hopen.elim .inr fun hr => .inl ⟨hr.1, fun hc => OrderStatus.not_live_canceled (hc ▸ hr.2)⟩
  have hstatus : (ClearingSteps.traded q o).status ≠ .canceled := by
    unfold ClearingSteps.traded
    split_ifs <;> simp
  have hlive' : o.orderType = .limit ∧ (ClearingSteps.traded q o).status ≠ .canceled ∨ inFlight :=
    hlive.imp_left fun hl => ⟨hl.1, hstatus⟩
  have hunit : unitReserve (ClearingSteps.traded q o) = unitReserve o := rfl
  obtain ⟨htotal, -⟩ := h.accounted hlive
  have hnn := h.traded_nonneg
  refine ⟨h.original_pos, sub_nonneg.mpr hle, by omega, ?_, fun _ => ⟨?_, ?_⟩,
    fun hn => absurd hlive' hn, ?_⟩
  · rw [hunit]
    simp only [ClearingSteps.traded, h.reserve, mul_sub]
  · rw [ht]
    simp only [ClearingSteps.traded]
    omega
  · have hpos : 0 < tradedQuantity db id + q := by omega
    rw [ht]
    simp only [ClearingSteps.traded, orderStatus, gt_iff_lt, hpos, if_true]
  · have hled := h.ledger
    have hside : orderValue db' id (ClearingSteps.traded q o).side = orderValue db id o.side + value := hv
    rw [hl, hside, hd, hled]
    simp only [ClearingSteps.traded]
    ring

/-- A limit order leaves the session with its account open. -/
theorem OrderBalanced.closeLimit (h : OrderBalanced db True id o) (ht : o.orderType = .limit) :
    OrderBalanced db False id o := by
  obtain ⟨htotal, hstatus⟩ := h.accounted (.inr trivial)
  have hlive : o.orderType = .limit ∧ o.status ≠ .canceled := by
    refine ⟨ht, fun hc => ?_⟩
    rw [hc] at hstatus
    unfold orderStatus at hstatus
    split_ifs at hstatus
  exact ⟨h.original_pos, h.remaining_nonneg, h.traded_nonneg, h.reserve, fun _ => ⟨htotal, hstatus⟩,
    fun hn => absurd (.inl hlive) hn, h.ledger⟩

/-- An order that gives up what remains keeps what it traded. -/
theorem OrderBalanced.close (h : OrderBalanced db inFlight id o)
    (hlive : o.orderType = .limit ∧ o.status ≠ .canceled ∨ inFlight) {o' : OrderRow}
    (hterms : SameTerms o o') (hrem : o'.remainingQty = 0) (hres : o'.reservedCents = 0)
    (hdone : ¬ (o'.orderType = .limit ∧ o'.status ≠ .canceled))
    (htraded : tradedQuantity db' id = tradedQuantity db id)
    (hvalue : ∀ side, orderValue db' id side = orderValue db id side)
    (hl : ledgerOf db' id = ledgerOf db id + o.reservedCents) : OrderBalanced db' False id o' := by
  obtain ⟨htotal, -⟩ := h.accounted hlive
  have hnn := h.remaining_nonneg
  refine ⟨hterms.original ▸ h.original_pos, hrem.ge, htraded ▸ h.traded_nonneg, ?_, fun hn => ?_,
    fun _ => ⟨hrem, ?_⟩, ?_⟩
  · rw [hres, hrem, mul_zero]
  · exact (hn.elim hdone False.elim).elim
  · rw [htraded, hterms.original]
    omega
  · rw [hl, hvalue, hterms.side, h.ledger, hres]
    ring

private theorem fresh_order (ht : TradesOwned db) (hl : LedgerOwned db) :
    tradedQuantity db db.orders.nextId = 0 ∧ (∀ side, orderValue db db.orders.nextId side = 0) ∧
      ledgerOf db db.orders.nextId = 0 := by
  have hids : ∀ i t, db.trades.get? i = some t →
      t.buyOrderId ≠ db.orders.nextId ∧ t.sellOrderId ≠ db.orders.nextId := by
    intro i t hi
    obtain ⟨buy, sell, hb⟩ := ht i t hi
    exact ⟨Table.ne_nextId hb.rows.1, Table.ne_nextId hb.rows.2⟩
  refine ⟨Table.sum_eq_zero fun i t hi => ?_, fun side => ?_, Table.sum_eq_zero fun i l hi => ?_⟩
  · simp [hids i t hi]
  · cases side with
    | buy =>
      rw [orderValue, boughtValue, Table.sum_eq_zero fun i t hi => if_neg (hids i t hi).1, neg_zero]
    | sell => exact Table.sum_eq_zero fun i t hi => if_neg (hids i t hi).2
  · refine if_neg fun hr => ?_
    obtain ⟨o, ho, -⟩ := hl i l _ hi hr
    exact Table.ne_nextId ho rfl

private theorem openOrder_balanced (ht : TradesOwned db) (hl : LedgerOwned db) (hq : 0 < o.originalQty)
    (hs : o.status = .opened) (hr : o.remainingQty = o.originalQty)
    (hv : o.reservedCents = unitReserve o * o.originalQty) (hf : inFlight) :
    OrderBalanced (Db.openOrder db o) inFlight db.orders.nextId o := by
  obtain ⟨htraded, hvalue, hledger⟩ := fresh_order ht hl
  have hbooked : ledgerOf (Db.openOrder db o) db.orders.nextId = -o.reservedCents := by
    have hpost := ledgerOf_post (Db.addOrder db o) db.orders.nextId o.playerUuid (-o.reservedCents)
      .buyOrderReserve (some (.order db.orders.nextId))
    have hold : ledgerOf (Db.addOrder db o) db.orders.nextId = 0 := hledger
    rw [hold, if_pos rfl, zero_add] at hpost
    exact hpost
  have htraded' : tradedQuantity (Db.openOrder db o) db.orders.nextId = 0 := htraded
  have hvalue' : orderValue (Db.openOrder db o) db.orders.nextId o.side = 0 := hvalue o.side
  refine ⟨hq, hr ▸ hq.le, htraded'.ge, by rw [hv, hr], fun _ => ⟨?_, ?_⟩,
    fun hn => absurd (.inr hf) hn, ?_⟩
  · rw [htraded', hr, zero_add]
  · rw [htraded', hs, hr]
    simp [orderStatus, hq.ne']
  · rw [hbooked, hvalue', zero_sub]

private theorem settleTrade_balanced {taker : Option Id} {t : TradeRow} {buy sell : OrderRow}
    (hs : Settles db taker t buy sell)
    (hI : ∀ id o, db.orders.get? id = some o → OrderBalanced db (taker = some id) id o)
    (ho : (Db.settleTrade db t buy).orders.get? id = some o) :
    OrderBalanced (Db.settleTrade db t buy) (taker = some id) id o := by
  have hled := ledgerOf_settleTrade db id t buy
  have htraded := tradedQuantity_settleTrade db id t buy
  have hbought := boughtValue_settleTrade db id t buy
  have hsold := soldValue_settleTrade db id t buy
  obtain ⟨rfl, hne, rfl⟩ | ⟨rfl, hne, rfl⟩ | ⟨hb, hne, ho⟩ := settleTrade_row hs ho
  · simp only [hne.symm, or_false, if_true, if_false, add_zero] at hled htraded hbought
    refine (hI _ _ hs.buyOrder.row).traded hs.buyOrder.open_for hs.quantity_pos hs.buyOrder.quantity
      htraded (show _ = _ + -(t.priceCents * t.quantity) from ?_) hled ?_
    · simp only [orderValue, hs.sides.1, hbought, neg_add]
    · cases ht : buy.orderType with
      | limit =>
        simp only [buyerDelta, unitReserve, ht, hs.sides.1, and_self, if_true]
        ring
      | market => simp [buyerDelta, unitReserve, ht]
  · simp only [hne.symm, or_true, if_true, if_false, add_zero] at hled htraded hsold
    refine (hI _ _ hs.sellOrder.row).traded hs.sellOrder.open_for hs.quantity_pos
      hs.sellOrder.quantity htraded (show _ = _ + t.priceCents * t.quantity from ?_) hled ?_
    · simp only [orderValue, hs.sides.2, hsold]
    · simp [unitReserve, hs.sides.2]
  · simp only [Ne.symm hb, Ne.symm hne, or_self, if_false, add_zero] at hled htraded hbought hsold
    refine (hI id o ho).frame .rfl htraded (fun side => ?_) hled
    cases side <;> simp only [orderValue, hbought, hsold]

end Balances

section Runs

theorem reconciled_step (h : Step settings allow d d') (hI : Reconciled d) : Reconciled d' := by
  refine ⟨tradesOwned_step h hI.trades, ledgerOwned_step h hI.ledger, fun id o ho => ?_⟩
  have hbooked : ∀ {db : Db} {playerUuid : String} {delta : Cents} {reason : LedgerReason}
      {reference : Option LedgerReference}, reference ≠ some (.order id) →
        ledgerOf (Db.post db playerUuid delta reason reference) id = ledgerOf db id := by
    intro db playerUuid delta reason reference hne
    rw [ledgerOf_post, if_neg hne, add_zero]
  cases h with
  | openAccount => exact (hI.orders id o ho).frame .rfl rfl (fun _ => rfl) (by simp [ledgerOf])
  | adjustBalance => exact (hI.orders id o ho).frame .rfl rfl (fun _ => rfl) (by simp [ledgerOf])
  | @openOrder db o' m hm hs hq hr hp hv =>
    rcases Table.get?_insert_cases ho with ⟨rfl, rfl⟩ | ⟨hne, ho⟩
    · exact openOrder_balanced hI.trades hI.ledger hq hs hr hv rfl
    · have hne' : some db.orders.nextId ≠ some id := fun he => hne (Option.some.inj he).symm
      refine (hI.orders id o ho).frame (by simp [hne']) rfl (fun _ => rfl) ?_
      exact @hbooked (Db.addOrder db o') _ _ _ _ fun he => hne' (by simpa using he)
  | settleTrade hs => exact settleTrade_balanced hs hI.orders ho
  | @closeLimit db orderId o' h ht =>
    by_cases hid : id = orderId
    · subst hid
      obtain rfl : o = o' := Option.some.inj (ho.symm.trans h)
      have hopen : OrderBalanced db True id o := (hI.orders id o h).frame (by simp) rfl (fun _ => rfl) rfl
      exact (hopen.closeLimit ht).frame (by simp) rfl (fun _ => rfl) rfl
    · exact (hI.orders id o ho).frame (by simp [Ne.symm hid]) rfl (fun _ => rfl) rfl
  | @closeMarket db orderId o' h ht =>
    rcases Table.get?_update_cases ho with ⟨rfl, o₁, ho₁, rfl⟩ | ⟨hne, ho⟩
    · obtain rfl : o₁ = o' := Option.some.inj (ho₁.symm.trans h)
      have hopen := hI.orders id o₁ h
      have hres : o₁.reservedCents = 0 := by simp [hopen.reserve, unitReserve, ht]
      have hclosed : OrderBalanced (Db.stop db id o₁) False id (stoppedOrder o₁) :=
        hopen.close (.inr rfl) ⟨rfl, rfl, rfl, rfl, rfl, rfl⟩ rfl hres (by simp [stoppedOrder, ht])
          rfl (fun _ => rfl) (by rw [hres, add_zero]; rfl)
      exact hclosed.frame (by simp) rfl (fun _ => rfl) rfl
    · exact (hI.orders id o ho).frame (by simp [Ne.symm hne]) rfl (fun _ => rfl) rfl
  | @withdraw db orderId o' refund returned h hr =>
    have hpost := ledgerOf_post db id o'.playerUuid (if o'.side = .buy then o'.reservedCents else 0)
      refund (some (.order orderId))
    rcases Table.get?_update_cases ho with ⟨rfl, o₁, ho₁, rfl⟩ | ⟨hne, ho⟩
    · obtain rfl : o₁ = o' := Option.some.inj (ho₁.symm.trans h)
      have hopen := hI.orders id o₁ h
      have hlive : o₁.status ≠ .canceled := fun hc => OrderStatus.not_live_canceled (hc ▸ hr.2)
      have hrefund : (if o₁.side = .buy then o₁.reservedCents else 0) = o₁.reservedCents := by
        split_ifs with hside
        · rfl
        · simp [hopen.reserve, unitReserve, hside]
      rw [if_pos rfl, hrefund] at hpost
      have hclosed : OrderBalanced (Db.withdraw db id o₁ refund returned) False id (canceledOrder o₁) :=
        hopen.close (.inl ⟨hr.1, hlive⟩) ⟨rfl, rfl, rfl, rfl, rfl, rfl⟩ rfl rfl
          (by simp [canceledOrder]) rfl (fun _ => rfl) (by rw [← hpost, ← hrefund]; rfl)
      exact hclosed.frame (by simp) rfl (fun _ => rfl) rfl
    · refine (hI.orders id o ho).frame .rfl rfl (fun _ => rfl) ?_
      exact hbooked fun he => hne (by simpa using he.symm)
  | @prepareTransfer db t =>
    exact (hI.orders id o ho).frame .rfl rfl (fun _ => rfl) (@hbooked (Db.addTransfer db t) _ _ _ _ (by simp))
  | completeTransfer => exact (hI.orders id o ho).frame .rfl rfl (fun _ => rfl) (hbooked (by simp))
  | failTransfer => exact (hI.orders id o ho).frame .rfl rfl (fun _ => rfl) (hbooked (by simp))
  | @payFrame db buyer seller price listingId =>
    have hpaid : ledgerOf (Db.post db buyer (-price) .framePurchase (some (.frameListing listingId))) id =
      ledgerOf db id := hbooked (by simp)
    exact (hI.orders id o ho).frame .rfl rfl (fun _ => rfl) ((hbooked (by simp)).trans hpaid)
  | _ => exact (hI.orders id o ho).frame .rfl rfl (fun _ => rfl) rfl

theorem reachable_reconciled (h : Reachable settings db) : Reconciled ⟨db, none⟩ :=
  h.induct ⟨fun i t ht => by simp at ht, fun i l id hl => by simp at hl, fun id o ho => by simp at ho⟩
    reconciled_step

end Runs

/-! ### The reserve of a buy order always covers a trade -/
section Reserves

/-- What `placeSellLocked` raises when a resting bid's reserve is short. -/
def reserveFailure : Error := .runtime "buy-order reserve invariant failed"

/-- Resting bids keep their price for each remaining unit. -/
def BidsCovered (db : Db) : Prop := ∀ id o, db.orders.get? id = some o → o.side = .buy →
  o.orderType = .limit → o.reservedCents = o.priceCents * o.remainingQty

theorem Reconciled.bidsCovered (h : Reconciled d) : BidsCovered d.db := by
  intro id o ho hside ht
  rw [(h.orders id o ho).reserve, unitReserve, if_pos ⟨hside, ht⟩]

theorem checkedProduct_raises {price : Cents} {quantity : ℤ} :
    ∀ e, checkedProduct price quantity = .error e → e ≠ reserveFailure := by
  unfold checkedProduct
  split_ifs with h
  · rintro e ⟨⟩
    decide
  · intro e he
    cases he

theorem debit_raises {playerUuid : String} {amount : Cents} {reason : LedgerReason}
    {reference : Option LedgerReference} :
    RaisesOnly (· ≠ reserveFailure) (debit playerUuid amount reason reference) db := by
  refine .bind (.throwIf fun _ => by decide) fun _ _ _ => .ite (fun _ => .pure) fun _ => ?_
  refine .bind (.selectOne (by decide)) fun _ _ _ => .bind (.throwIf fun _ => by decide) fun _ _ _ => ?_
  exact .bind .execute fun _ _ _ => .execute

theorem addDelivery_raises {playerUuid : String} {marketId : Id} {quantity : ℤ}
    {reason : DeliveryReason} :
    RaisesOnly (· ≠ reserveFailure) (addDelivery playerUuid marketId quantity reason) db :=
  .ite (fun _ => .pure) fun _ => .execute

theorem recordTrade_raises {t : TradeRow} : RaisesOnly (· ≠ reserveFailure) (recordTrade t) db := by
  refine .bind addDelivery_raises fun _ _ _ => .bind (.throwIf fun _ => by decide) fun _ _ _ => ?_
  exact .bind (.throwIf fun _ => by decide) fun _ _ _ => .execute

theorem lockActiveBook_raises {marketId : Id} :
    RaisesOnly (· ≠ reserveFailure) (lockActiveBook marketId) db := by
  refine .bind (.selectOne (by decide)) fun _ _ _ => .bind (.selectOne (by decide)) fun _ _ _ => ?_
  refine .bind (.selectOne (by decide)) fun _ _ _ => .bind (.throwIf fun _ => by decide) fun _ _ _ => ?_
  exact .bind (.throwIf fun _ => by decide) fun _ _ _ => .pure

theorem lockedBalance_raises {playerUuid : String} :
    RaisesOnly (· ≠ reserveFailure) (lockedBalance playerUuid) db :=
  .bind (.selectOne (by decide)) fun _ _ _ => .pure

theorem insertOrder_raises {o : OrderRow} : RaisesOnly (· ≠ reserveFailure) (insertOrder o) db :=
  .bind .select fun _ _ _ => .bind .execute fun _ _ _ => .pure

private theorem finishSell_raises {request : OrderRequest} {orderId : Id} {p : Progress} :
    RaisesOnly (· ≠ reserveFailure) (finishSell request orderId p) db := by
  have hrest : ∀ db, RaisesOnly (· ≠ reserveFailure) (do
      updateOrder orderId (soldOrder request p)
      let finalBalance ← lockedBalance request.playerUuid
      return executionResult request orderId p finalBalance) db := fun _ =>
    .bind .execute fun _ _ _ => .bind lockedBalance_raises fun _ _ _ => .pure
  exact .ite (fun _ => .bind addDelivery_raises fun _ _ _ => hrest _) fun _ => hrest _

private theorem orderedEscrowResult_raises {escrow : SellEscrowRow} :
    RaisesOnly (· ≠ reserveFailure) (orderedEscrowResult escrow) db := by
  refine .bind (.selectOne (by decide)) fun _ _ _ => .bind (.selectOne (by decide)) fun _ _ _ => ?_
  refine .bind .select fun _ _ _ => .bind .select fun _ _ _ => ?_
  exact .bind lockedBalance_raises fun _ _ _ => .pure

private theorem takeBid_raises {request : OrderRequest} {orderId bidId : Id} {bid : OrderRow} {p : Progress}
    (h : bid.reservedCents = bid.priceCents * bid.remainingQty) :
    RaisesOnly (· ≠ reserveFailure) (takeBid request orderId bidId bid p) db := by
  refine .bind (.liftM checkedProduct_raises) fun spent db₁ hspent => ?_
  obtain ⟨c, hc, hp⟩ := liftM_ok.mp hspent
  obtain ⟨rfl, rfl⟩ := Prod.mk.inj hp
  obtain ⟨hprice, -, -, rfl⟩ := checkedProduct_ok.mp hc
  refine .bind (.throwIf fun hlt => ?_) fun _ _ _ => ?_
  · have hle : bid.priceCents * min p.remaining bid.remainingQty ≤ bid.priceCents * bid.remainingQty :=
      mul_le_mul_of_nonneg_left (min_le_right _ _) hprice
    rw [h] at hlt
    exact absurd hlt (not_lt.mpr (sub_nonneg.mpr hle))
  · refine .bind .execute fun _ _ _ => .bind (.liftM checkedProduct_raises) fun _ _ _ => ?_
    refine .bind (credit_raises (by decide) (by decide) (by decide)) fun _ _ _ => ?_
    exact .bind recordTrade_raises fun _ _ _ => .pure

private theorem matchBids_raises {request : OrderRequest} {orderId : Id} {es : List (Id × OrderRow)}
    {p : Progress} (h : ∀ e ∈ es, e.2.reservedCents = e.2.priceCents * e.2.remainingQty) :
    RaisesOnly (· ≠ reserveFailure) (matchBids request orderId es p) db := by
  induction es generalizing p db with
  | nil => exact .pure
  | cons e es ih =>
    refine .ite (fun _ => .pure) fun _ => .bind (takeBid_raises (h e (List.mem_cons_self ..))) ?_
    exact fun _ _ _ => ih fun e' he' => h e' (List.mem_cons_of_mem _ he')

private theorem matchingBids_covered {request : OrderRequest} {bookId : Id} {o : OrderRow} (h : BidsCovered db)
    (ho : o.playerUuid = request.playerUuid) :
    ∀ e ∈ matchingBids request bookId (Db.addOrder db o),
      e.2.reservedCents = e.2.priceCents * e.2.remainingQty := by
  intro e he
  rw [matchingBids, List.mem_insertionSort] at he
  have hmem := (List.mem_filter.mp he).1
  simp only [counterparties, List.mem_filter, decide_eq_true_eq] at hmem
  obtain ⟨hrow, -, hside, hrest, hne⟩ := hmem
  rcases Table.get?_insert_cases (Table.mem_entries.mp hrow) with ⟨-, heq⟩ | ⟨-, hold⟩
  · exact absurd (heq ▸ ho) hne
  · exact h e.1 e.2 hold hside hrest.1

theorem placeSellLocked_raises {request : OrderRequest} (h : BidsCovered db) :
    RaisesOnly (· ≠ reserveFailure) (placeSellLocked request) db := by
  refine .bind lockActiveBook_raises fun bookId db₁ hbook => ?_
  obtain ⟨m, b, hm, hb, ha, hp⟩ := lockActiveBook_ok.mp hbook
  obtain ⟨-, rfl⟩ := Prod.mk.inj hp
  refine .bind lockedBalance_raises fun balance db₁ hbalance => ?_
  obtain ⟨a, ha, hp⟩ := lockedBalance_ok.mp hbalance
  obtain ⟨-, rfl⟩ := Prod.mk.inj hp
  refine .bind insertOrder_raises fun orderId db₁ horder => ?_
  obtain ⟨-, rfl⟩ := Prod.mk.inj (insertOrder_ok.mp horder)
  refine .bind .select fun bids db₁ hbids => ?_
  obtain ⟨rfl, -⟩ := Prod.mk.inj (select_ok.mp hbids)
  exact .bind (matchBids_raises (matchingBids_covered h rfl)) fun _ _ _ => finishSell_raises

private theorem payForAsk_raises {request : OrderRequest} {orderId : Id} {price : Cents} {fill available : ℤ} :
    RaisesOnly (· ≠ reserveFailure) (payForAsk request orderId price fill available) db := by
  unfold payForAsk
  cases request.type with
  | market =>
    exact .bind (.liftM checkedProduct_raises) fun _ _ _ => .bind debit_raises fun _ _ _ => .pure
  | limit =>
    refine .bind (.liftM checkedProduct_raises) fun _ _ _ => .ite (fun _ => ?_) fun _ => .pure
    exact .bind (credit_raises (by decide) (by decide) (by decide)) fun _ _ _ => .pure

private theorem matchAsks_raises {request : OrderRequest} {orderId : Id} {es : List (Id × OrderRow)}
    {p : Progress} : RaisesOnly (· ≠ reserveFailure) (matchAsks request orderId es p) db := by
  induction es generalizing p db with
  | nil => exact .pure
  | cons e es ih =>
    refine .ite (fun _ => .pure) fun _ => .ite (fun _ => .pure) fun _ => .bind ?_ fun _ _ _ => ih
    refine .bind payForAsk_raises fun _ _ _ => .bind .execute fun _ _ _ => ?_
    refine .bind (.liftM checkedProduct_raises) fun _ _ _ => ?_
    refine .bind (credit_raises (by decide) (by decide) (by decide)) fun _ _ _ => ?_
    exact .bind recordTrade_raises fun _ _ _ => .pure

private theorem finishBuy_raises {request : OrderRequest} {orderId : Id} {p : Progress} :
    RaisesOnly (· ≠ reserveFailure) (finishBuy request orderId p) db := by
  have hrest : ∀ reserved db, RaisesOnly (· ≠ reserveFailure) (do
      updateOrder orderId (boughtOrder request p reserved)
      let finalBalance ← lockedBalance request.playerUuid
      return executionResult request orderId p finalBalance) db := fun _ _ =>
    .bind .execute fun _ _ _ => .bind lockedBalance_raises fun _ _ _ => .pure
  unfold finishBuy
  cases request.type with
  | limit => exact .bind (.liftM checkedProduct_raises) fun _ _ _ => hrest _ _
  | market => exact .bind .pure fun _ _ _ => hrest _ _

private theorem placeBuy_raises {request : OrderRequest} :
    RaisesOnly (· ≠ reserveFailure) (placeBuy request) db := by
  have hreserve : ∀ balance db, RaisesOnly (· ≠ reserveFailure) (buyReserve request balance) db := by
    intro balance db
    unfold buyReserve
    cases request.type with
    | limit =>
      refine .bind (.liftM checkedProduct_raises) fun _ _ _ => ?_
      exact .bind (.throwIf fun _ => by decide) fun _ _ _ => .pure
    | market => exact .pure
  refine .bind lockActiveBook_raises fun _ _ _ => .bind lockedBalance_raises fun _ _ _ => ?_
  refine .bind (hreserve _ _) fun _ _ _ => .bind insertOrder_raises fun _ _ _ => ?_
  refine .bind (.ite (fun _ => debit_raises) fun _ => .pure) fun _ _ _ => .bind .select fun _ _ _ => ?_
  exact .bind matchAsks_raises fun _ _ _ => finishBuy_raises

private theorem executeSellEscrowTx_raises {escrowId : Id} (h : BidsCovered db) :
    RaisesOnly (· ≠ reserveFailure) (executeSellEscrowTx escrowId) db := by
  refine .bind (.selectOne (by decide)) fun escrow db₁ hescrow => ?_
  obtain ⟨e, -, hp⟩ := selectOne_ok.mp hescrow
  obtain ⟨-, rfl⟩ := Prod.mk.inj hp
  refine .ite (fun _ => orderedEscrowResult_raises) fun _ => ?_
  refine .bind (.throwIf fun _ => by decide) fun u db₁ hthrow => ?_
  obtain ⟨-, rfl⟩ := Prod.mk.inj (throwIf_ok.mp hthrow).2
  refine .bind (placeSellLocked_raises h) fun _ _ _ => ?_
  exact .bind addDelivery_raises fun _ _ _ => .bind .execute fun _ _ _ => .pure

private theorem validateRequest_raises {request : OrderRequest} :
    ∀ e, validateRequest settings request = .error e → e ≠ reserveFailure := by
  unfold validateRequest
  split_ifs with h1 h2 h3 h4
  · rintro e ⟨⟩
    decide
  · rintro e ⟨⟩
    decide
  · rintro e ⟨⟩
    decide
  · intro e he
    cases hc : checkedProduct request.priceCents request.quantity with
    | error e' =>
      rw [hc] at he
      obtain rfl : e' = e := Except.error.inj he
      exact checkedProduct_raises _ hc
    | ok c =>
      rw [hc] at he
      cases he
  · intro e he
    cases he

/-- A program of clearing steps whose transactions raise other errors only. -/
def Spares {α : Type} (settings : Settings) (start : Db) (x : Program Db Error α) : Prop :=
  Triple (Follows settings (fun _ => True) start) x (fun _ => Follows settings (fun _ => True) start)
    (fun e _ => e ≠ reserveFailure) (fun _ => True)

theorem transaction_spares {α : Type} {start : Db} {body : Tx α} (hstart : Reconciled ⟨start, none⟩)
    (hk : Keeps (Follows settings (fun _ => True) start) (transaction body))
    (hr : ∀ db, BidsCovered db → RaisesOnly (· ≠ reserveFailure) body db) :
    Spares settings start (transaction body) := by
  refine Triple.atomic (fun _ _ => trivial) (fun _ _ => by decide)
    (fun db a db' hf hb => ⟨?_, by decide⟩) fun db e hf hb => ?_
  · exact hk.body hf hb
  · exact hr db (Steps.induct reconciled_step hf.1 hstart).bidsCovered e hb

private theorem ensureAccount_spares {start : Db} (hstart : Reconciled ⟨start, none⟩)
    {playerUuid playerName : String} : Spares settings start (ensureAccount settings playerUuid playerName) := by
  refine Triple.guard (fun _ _ _ => by decide) fun _ => ?_
  refine transaction_spares hstart
    (transaction_follows fun _ _ _ _ => ensureAccountTx_steps) fun db _ => ?_
  refine .bind .select fun _ _ _ => .ite (fun _ => ?_) fun _ => .execute
  exact .bind .execute fun _ _ _ => .execute

private theorem placeOrder_spares {start : Db} (hstart : Reconciled ⟨start, none⟩) (request : OrderRequest) :
    Spares settings start (placeOrder settings request) := by
  cases hv : validateRequest settings request with
  | error e =>
    simp only [placeOrder, hv]
    exact Triple.bind (R := fun _ _ => False) (Triple.throw fun _ _ => validateRequest_raises e hv)
      fun _ _ _ h => h.elim
  | ok u =>
    simp only [placeOrder, hv]
    refine Triple.bind (Triple.pure fun _ hf => hf) fun _ => Triple.bind (ensureAccount_spares hstart)
      fun _ => ?_
    cases hside : request.side with
    | buy =>
      exact transaction_spares hstart (placeBuy_follows (placeable_of_checked hv) hside)
        fun _ _ => placeBuy_raises
    | sell =>
      exact transaction_spares hstart (placeSell_follows (placeable_of_checked hv) hside trivial)
        fun _ h => placeSellLocked_raises h

private theorem executeSellEscrow_spares {start : Db} (hstart : Reconciled ⟨start, none⟩) (escrowId : Id) :
    Spares settings start (executeSellEscrow escrowId) :=
  transaction_spares hstart (executeSellEscrow_follows trivial trivial)
    fun _ h => executeSellEscrowTx_raises h

theorem Spares.outcome {α : Type} {start : Db} {x : Program Db Error α} (h : Spares settings start x)
    (hp : EscrowsPlaceable start) (faults : List Fault) :
    (x faults start).1 ≠ .threw reserveFailure := by
  intro hthrew
  have hx := h faults start ⟨.refl, hp⟩
  simp only [Ends, hthrew] at hx
  exact hx rfl

end Reserves

/-- The tables agree on one order. -/
structure OrderReconciles (db : Db) (id : Id) (o : OrderRow) : Prop where
  reserve : o.reservedCents =
    if o.side = .buy ∧ o.orderType = .limit then o.priceCents * o.remainingQty else 0
  limit : o.orderType = .limit → o.status ≠ .canceled →
    tradedQuantity db id = o.originalQty - o.remainingQty ∧
    (o.status = .opened ↔ tradedQuantity db id = 0) ∧ (o.status = .filled ↔ o.remainingQty = 0) ∧
    (o.status = .partlyFilled ↔ tradedQuantity db id ≠ 0 ∧ o.remainingQty ≠ 0)
  finished : o.orderType = .market ∨ o.status = .canceled →
    tradedQuantity db id ≤ o.originalQty ∧ o.remainingQty = 0
  owner : ∀ i l, db.balanceLedger.get? i = some l → l.reference = some (.order id) →
    l.playerUuid = o.playerUuid
  ledger : ledgerOf db id = match o.side with
    | .buy => -boughtValue db id - o.reservedCents
    | .sell => soldValue db id

theorem OrderBalanced.reconciles {id : Id} {o : OrderRow} (h : OrderBalanced db False id o)
    (ho : db.orders.get? id = some o) (hl : LedgerOwned db) : OrderReconciles db id o := by
  obtain ⟨hpos, hrem, hnn, hres, hacc, hfin, hled⟩ := h
  refine ⟨?_, fun ht hs => ?_, fun hdone => ?_, fun i l hi hr => ?_, ?_⟩
  · rw [hres, unitReserve]
    split_ifs <;> simp
  · obtain ⟨htotal, hstatus⟩ := hacc (.inl ⟨ht, hs⟩)
    refine ⟨by omega, ?_⟩
    rw [hstatus, orderStatus]
    split_ifs with h0 h1 <;> simp <;> omega
  · refine (hfin ?_).symm
    rintro (⟨ht, hs⟩ | hf)
    · exact hdone.elim (fun hm => by simp [hm] at ht) hs
    · exact hf
  · obtain ⟨o', ho', howner⟩ := hl i l id hi hr
    obtain rfl : o' = o := Option.some.inj (ho'.symm.trans ho)
    exact howner.symm
  · cases hside : o.side with
    | buy => simp [hled, orderValue, hside]
    | sell => simp [hled, orderValue, hside, hres, unitReserve]

/-- Orders, trades, reserves and the ledger reconcile in every reachable state, and no
order ever finds a resting bid's reserve short. -/
theorem orders_reconcile (h : Reachable settings db) :
    (∀ id o, db.orders.get? id = some o → OrderReconciles db id o) ∧
    (∀ request faults, (placeOrder settings request faults db).1 ≠ .threw reserveFailure) ∧
    ∀ escrowId faults, (executeSellEscrow escrowId faults db).1 ≠ .threw reserveFailure := by
  have hI := reachable_reconciled h
  have hp := h.escrowsPlaceable
  refine ⟨fun id o ho => ?_, fun request => (placeOrder_spares hI request).outcome hp,
    fun escrowId => ((@executeSellEscrow_spares settings) hI escrowId).outcome hp⟩
  exact ((hI.orders id o ho).frame (by simp) rfl (fun _ => rfl) rfl).reconciles ho hI.ledger

/-- A limit buy that another player's sell filled in part. -/
theorem orders_reconcile_partlyFilled :
    let db := afterCalls sampleSettings [.activateMarket (diamondMarket "block"),
      .placeOrder (diamondOrder "alice" .buy .limit 500 10),
      .placeOrder (diamondOrder "bob" .sell .limit 400 4)]
    ∃ o, db.orders.get? 1 = some o ∧ o.reservedCents = 3000 ∧ o.status = .partlyFilled ∧
      OrderReconciles db 1 o := by
  intro db
  have hrow : db.orders.get? 1 = some
      { marketId := 1, playerUuid := "alice", side := .buy, orderType := .limit, priceCents := 500,
        originalQty := 10, remainingQty := 6, reservedCents := 3000, status := .partlyFilled } := rfl
  exact ⟨_, hrow, rfl, rfl, (orders_reconcile (reachable_afterCalls _ _)).1 1 _ hrow⟩
end EndstoneExchange.OrderReconciliation
