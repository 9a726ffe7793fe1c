import EndstoneExchange.DeliveryOrigins

/-!
# Items are conserved in every book

Every unit of an item enters a book with a sell order and leaves it in a
delivery. `stock` compares the two sides; `outside` is what entered other than
through an escrow. A step changes neither, but for the one that opens a sale.
-/
namespace EndstoneExchange.ItemConservation
open AutoIncrementTables KeyedTables AtomicTransactions.Transaction DurablePrograms ExchangeDomain
  ExchangeTransactions AccountOperations OrderMatching DeliveryOperations SellEscrowOperations
  ClearingSteps MatchingRefinement ClearingRefinement RowHistories ServiceRuns OrderReconciliation
  DeliveryOrigins

section Columns
variable (db : Db) (bookId : Id)

/-- A quantity counts for a book when its market belongs to the book. -/
def inBook (marketId : Id) (quantity : ℤ) : ℤ :=
  if Db.bookOf db marketId = some bookId then quantity else 0

/-- The tagged quantity of the ORDERED escrows of a book. -/
def taggedQuantity : ℤ :=
  db.sellEscrows.sum fun e => inBook db bookId e.marketId (if e.status = .ordered then e.taggedQty else 0)

/-- What remains of the resting sell orders of a book. -/
def restingQuantity : ℤ :=
  db.orders.sum fun o => inBook db bookId o.marketId
    (if o.side = .sell ∧ o.Resting then o.remainingQty else 0)

def deliveredQuantity : ℤ := db.deliveries.sum fun r => inBook db bookId r.marketId r.quantity

def requestedQuantity : ℤ :=
  db.sellEscrows.sum fun e =>
    inBook db bookId e.marketId (if e.status = .ordered then e.requestedQty else 0)

def offeredQuantity : ℤ :=
  db.orders.sum fun o => inBook db bookId o.marketId (if o.side = .sell then o.originalQty else 0)

def unsoldQuantity : ℤ :=
  db.orders.sum fun o => inBook db bookId o.marketId (if o.side = .sell then o.remainingQty else 0)

/-- What sell orders offered other than through an escrow. -/
def outside : ℤ := offeredQuantity db bookId - requestedQuantity db bookId

def stock : ℤ :=
  taggedQuantity db bookId + outside db bookId - unsoldQuantity db bookId -
    deliveredQuantity db bookId

end Columns

section InBook
variable (db : Db) (bookId : Id)

@[simp] theorem inBook_zero (marketId : Id) : inBook db bookId marketId 0 = 0 := ite_self 0

theorem inBook_sub (marketId : Id) (p q : ℤ) :
    inBook db bookId marketId (p - q) = inBook db bookId marketId p - inBook db bookId marketId q := by
  unfold inBook
  split_ifs <;> simp

private theorem inBook_congr {db db' : Db} (h : db'.markets = db.markets) (bookId marketId : Id) (q : ℤ) :
    inBook db' bookId marketId q = inBook db bookId marketId q := by
  unfold inBook Db.bookOf
  rw [h]

theorem SameBook.inBook_eq {db : Db} {m n : Id} (h : SameBook db m n) (bookId : Id) (q : ℤ) :
    inBook db bookId m q = inBook db bookId n q := by
  obtain ⟨b, hm, hn⟩ := h
  simp only [inBook, hm, hn]

end InBook

variable {settings : Settings} {allow : Special → Prop} {d d' : Desk} {db db' : Db} {bookId : Id}

section Writes

theorem stock_deliver {playerUuid : String} {marketId : Id} {q : ℤ} {reason : DeliveryReason}
    (hq : 0 ≤ q) : stock (Db.deliver db playerUuid marketId q reason) bookId =
      stock db bookId - inBook db bookId marketId q := by
  have hrest : taggedQuantity (Db.deliver db playerUuid marketId q reason) bookId =
      taggedQuantity db bookId ∧ outside (Db.deliver db playerUuid marketId q reason) bookId =
        outside db bookId ∧ unsoldQuantity (Db.deliver db playerUuid marketId q reason) bookId =
          unsoldQuantity db bookId := ⟨rfl, rfl, rfl⟩
  have hdelivered : deliveredQuantity (Db.deliver db playerUuid marketId q reason) bookId =
      deliveredQuantity db bookId + inBook db bookId marketId q := by
    rcases hq.eq_or_lt with rfl | hpos
    · rw [inBook_zero, add_zero]
      rfl
    · have hrows : (Db.deliver db playerUuid marketId q reason).deliveries =
          db.deliveries.insert { playerUuid, marketId, quantity := q, reason } := if_neg (not_le.mpr hpos)
      rw [deliveredQuantity, hrows]
      exact Table.sum_insert _ _ _
  rw [stock, hrest.1, hrest.2.1, hrest.2.2, hdelivered, stock]
  ring

/-- A rewritten order that keeps its terms. -/
theorem offered_setOrder {id : Id} {f : OrderRow → OrderRow} (hf : ∀ o, SameTerms o (f o)) :
    offeredQuantity (Db.setOrder db id f) bookId = offeredQuantity db bookId := by
  refine Table.sum_update_of_eq _ _ _ _ fun o _ => ?_
  have hs := hf o
  rw [hs.market, hs.side, hs.original]

theorem stock_setOrder {id : Id} {o : OrderRow} (ho : db.orders.get? id = some o)
    {f : OrderRow → OrderRow} (hf : ∀ o, SameTerms o (f o)) :
    stock (Db.setOrder db id f) bookId = stock db bookId +
      inBook db bookId o.marketId (if o.side = .sell then o.remainingQty - (f o).remainingQty else 0) := by
  have hrest : taggedQuantity (Db.setOrder db id f) bookId = taggedQuantity db bookId ∧
      requestedQuantity (Db.setOrder db id f) bookId = requestedQuantity db bookId ∧
        deliveredQuantity (Db.setOrder db id f) bookId = deliveredQuantity db bookId := ⟨rfl, rfl, rfl⟩
  have hunsold : unsoldQuantity (Db.setOrder db id f) bookId = unsoldQuantity db bookId -
      inBook db bookId o.marketId (if o.side = .sell then o.remainingQty - (f o).remainingQty else 0) := by
    have hsum := Table.sum_update (fun o => inBook db bookId o.marketId
      (if o.side = .sell then o.remainingQty else 0)) f ho
    refine hsum.trans ?_
    rw [(hf o).market, (hf o).side]
    split_ifs
    · rw [inBook_sub]
      exact (add_sub_assoc _ _ _).symm.trans (by rw [sub_sub_eq_add_sub]; rfl)
    · simp only [inBook_zero, sub_zero, add_zero]
      rfl
  rw [stock, outside, offered_setOrder hf, hrest.1, hrest.2.1, hrest.2.2, hunsold, stock, outside]
  ring

private theorem stock_addOrder {o : OrderRow} (hr : o.remainingQty = o.originalQty) :
    stock (Db.addOrder db o) bookId = stock db bookId := by
  have hrest : taggedQuantity (Db.addOrder db o) bookId = taggedQuantity db bookId ∧
      requestedQuantity (Db.addOrder db o) bookId = requestedQuantity db bookId ∧
        deliveredQuantity (Db.addOrder db o) bookId = deliveredQuantity db bookId := ⟨rfl, rfl, rfl⟩
  have hoffered : offeredQuantity (Db.addOrder db o) bookId = offeredQuantity db bookId +
    inBook db bookId o.marketId (if o.side = .sell then o.originalQty else 0) := Table.sum_insert _ _ _
  have hunsold : unsoldQuantity (Db.addOrder db o) bookId = unsoldQuantity db bookId +
    inBook db bookId o.marketId (if o.side = .sell then o.remainingQty else 0) := Table.sum_insert _ _ _
  rw [stock, outside, hrest.1, hrest.2.1, hrest.2.2, hoffered, hunsold, hr, stock, outside]
  ring

/-- An escrow that is not ORDERED before and after holds nothing of the book. -/
theorem escrows_unordered {id : Id} {e : SellEscrowRow} (he : db.sellEscrows.get? id = some e)
    (hs : e.status ≠ .ordered) {f : SellEscrowRow → SellEscrowRow} (hf : (f e).status ≠ .ordered) :
    stock (Db.setEscrow db id f) bookId = stock db bookId ∧
      outside (Db.setEscrow db id f) bookId = outside db bookId := by
  have hsame : ∀ w : SellEscrowRow → ℤ, (∀ e, e.status ≠ .ordered → w e = 0) →
      (db.sellEscrows.update id f).sum w = db.sellEscrows.sum w := fun w hw =>
    Table.sum_update_of_eq _ _ _ _ fun e' he' => by
      obtain rfl : e' = e := Option.some.inj (he'.symm.trans he)
      rw [hw _ hf, hw _ hs]
  have htagged : taggedQuantity (Db.setEscrow db id f) bookId = taggedQuantity db bookId :=
    hsame _ fun e h => by rw [if_neg h, inBook_zero]
  have hrequested : requestedQuantity (Db.setEscrow db id f) bookId = requestedQuantity db bookId :=
    hsame _ fun e h => by rw [if_neg h, inBook_zero]
  have houtside : outside (Db.setEscrow db id f) bookId = outside db bookId := by
    rw [outside, hrequested]
    rfl
  refine ⟨?_, houtside⟩
  rw [stock, houtside, htagged]
  rfl

end Writes

section Steps

/-- A tagged escrow holds at least what it asks to sell. -/
def EscrowsTagged (db : Db) : Prop :=
  ∀ i e, db.sellEscrows.get? i = some e → e.status = .tagged → e.requestedQty ≤ e.taggedQty

private theorem escrowsTagged_step (h : Step settings allow d d') (hI : EscrowsTagged d.db) :
    EscrowsTagged d'.db := by
  have hset : ∀ {db : Db} {id : Id} {f : SellEscrowRow → SellEscrowRow}, EscrowsTagged db →
      (∀ e, db.sellEscrows.get? id = some e → (f e).status = .tagged →
        (f e).requestedQty ≤ (f e).taggedQty) → EscrowsTagged (Db.setEscrow db id f) := by
    intro db id f hI hf i e he hs
    rcases Table.get?_update_cases he with ⟨-, e', he', rfl⟩ | ⟨-, he'⟩
    · exact hf e' he' hs
    · exact hI i e he' hs
  cases h with
  | prepareEscrow _ _ _ hp =>
    intro i e he hs
    rcases Table.get?_insert_cases he with ⟨-, rfl⟩ | ⟨-, he⟩
    · exact absurd (hp.1.symm.trans hs) (by decide)
    · exact hI i e he hs
  | tagEscrow ha h hs hq =>
    refine hset hI fun e he _ => ?_
    obtain rfl := Option.some.inj (he.symm.trans h)
    exact hq
  | orderEscrow => exact hset hI fun e _ hs => absurd hs (by simp)
  | cancelEscrow => exact hset hI fun e _ hs => absurd hs (by simp)
  | cleanEscrow h hs => exact hset hI fun e he hs' => hI _ e he hs'
  | _ => exact hI

/-- Sums over the rows of existing markets do not see a change of the markets. -/
theorem sums_markets (hm : MarketsExist db)
    (hk : ∀ id m, db.markets.get? id = some m → ∃ m', db'.markets.get? id = some m' ∧ SamePlace m m')
    (ho : db'.orders = db.orders) (hd : db'.deliveries = db.deliveries)
    (he : db'.sellEscrows = db.sellEscrows) :
    stock db' bookId = stock db bookId ∧ outside db' bookId = outside db bookId := by
  have hbook : ∀ {id : Id} {q : ℤ}, (∃ m, db.markets.get? id = some m) →
      inBook db' bookId id q = inBook db bookId id q := by
    rintro id q ⟨m, hget⟩
    obtain ⟨m', hget', hs⟩ := hk id m hget
    simp only [inBook, Db.bookOf, hget, hget', Option.map_some, hs.book]
  have hoffered : offeredQuantity db' bookId = offeredQuantity db bookId := by
    rw [offeredQuantity, ho]
    exact Table.sum_congr fun i o h => hbook (hm.orders i o h)
  have hunsold : unsoldQuantity db' bookId = unsoldQuantity db bookId := by
    rw [unsoldQuantity, ho]
    exact Table.sum_congr fun i o h => hbook (hm.orders i o h)
  have hdelivered : deliveredQuantity db' bookId = deliveredQuantity db bookId := by
    rw [deliveredQuantity, hd]
    exact Table.sum_congr fun i r h => hbook (hm.deliveries i r h)
  have htagged : taggedQuantity db' bookId = taggedQuantity db bookId := by
    rw [taggedQuantity, he]
    exact Table.sum_congr fun i e h => hbook (hm.sellEscrows i e h)
  have hrequested : requestedQuantity db' bookId = requestedQuantity db bookId := by
    rw [requestedQuantity, he]
    exact Table.sum_congr fun i e h => hbook (hm.sellEscrows i e h)
  simp only [stock, outside, hoffered, hunsold, hdelivered, htagged, hrequested, and_self]

private theorem stock_settleTrade {taker : Option Id} {t : TradeRow} {buy sell : OrderRow}
    (h : Settles db taker t buy sell) : stock (Db.settleTrade db t buy) bookId = stock db bookId := by
  have hterms := fun o => sameTerms_traded t.quantity o
  have hbook : SameBook db t.marketId sell.marketId := by
    obtain ⟨b, hb, hs⟩ := h.book
    rcases h.market with hm | hm <;> rw [hm]
    · exact ⟨b, hb, hs⟩
    · exact ⟨b, hs, hs⟩
  have hrow : (Db.setOrder db t.buyOrderId (traded t.quantity)).orders.get? t.sellOrderId = some sell := by
    rw [Db.setOrder_orders, Table.get?_update_ne _ _ (trade_orders_ne h).symm]
    exact h.sellOrder.row
  have hbought := (@stock_setOrder _ bookId) h.buyOrder.row hterms
  have hsold := (@stock_setOrder _ bookId) hrow hterms
  have hdelivered := @stock_deliver (Db.setOrder (Db.setOrder db t.buyOrderId (traded t.quantity))
    t.sellOrderId (traded t.quantity)) bookId t.buyerUuid t.marketId _ .tradeBuy h.quantity_pos.le
  have hsettled : stock (Db.settleTrade db t buy) bookId = stock (Db.deliver (Db.setOrder (Db.setOrder db
      t.buyOrderId (traded t.quantity)) t.sellOrderId (traded t.quantity)) t.buyerUuid t.marketId
        t.quantity .tradeBuy) bookId := rfl
  have hsame : ∀ q, inBook (Db.setOrder (Db.setOrder db t.buyOrderId (traded t.quantity)) t.sellOrderId
      (traded t.quantity)) bookId t.marketId q = inBook db bookId sell.marketId q :=
    fun q => SameBook.inBook_eq hbook bookId q
  rw [hsettled, hdelivered, hsame, hsold, hbought]
  have hunits : sell.remainingQty - (traded t.quantity sell).remainingQty = t.quantity := by
    simp [traded]
  have hplace : inBook (Db.setOrder db t.buyOrderId (traded t.quantity)) bookId sell.marketId t.quantity =
    inBook db bookId sell.marketId t.quantity := rfl
  simp only [h.sides.1, h.sides.2, if_true, reduceCtorEq, if_false, inBook_zero, hunits, hplace]
  ring

/-- An order that gives up its units hands them over as a delivery. -/
theorem stock_close {id : Id} {o : OrderRow} {reason : DeliveryReason} (ho : db.orders.get? id = some o)
    (hrem : 0 ≤ o.remainingQty) {f : OrderRow → OrderRow} (hf : ∀ o, SameTerms o (f o))
    (hzero : (f o).remainingQty = 0) :
    stock (Db.setOrder (Db.deliver db o.playerUuid o.marketId
      (if o.side = .buy then 0 else o.remainingQty) reason) id f) bookId = stock db bookId := by
  have hq : 0 ≤ if o.side = .buy then 0 else o.remainingQty := by split_ifs <;> omega
  have hdelivered := (@stock_deliver db bookId o.playerUuid o.marketId _ reason) hq
  refine ((@stock_setOrder (Db.deliver db o.playerUuid o.marketId _ reason)) ho hf).trans ?_
  have hplace : ∀ q, inBook (Db.deliver db o.playerUuid o.marketId
    (if o.side = .buy then 0 else o.remainingQty) reason) bookId o.marketId q =
      inBook db bookId o.marketId q := fun _ => rfl
  rw [hdelivered, hplace, hzero, sub_zero]
  cases o.side <;> simp

/-- Escrows that are rewritten without a change of status or quantities. -/
theorem escrows_kept {id : Id} {f : SellEscrowRow → SellEscrowRow}
    (hf : ∀ e, (f e).marketId = e.marketId ∧ (f e).status = e.status ∧ (f e).taggedQty = e.taggedQty ∧
      (f e).requestedQty = e.requestedQty) :
    stock (Db.setEscrow db id f) bookId = stock db bookId ∧
      outside (Db.setEscrow db id f) bookId = outside db bookId := by
  have htagged : taggedQuantity (Db.setEscrow db id f) bookId = taggedQuantity db bookId := by
    refine Table.sum_update_of_eq _ _ _ _ fun e _ => ?_
    rw [(hf e).1, (hf e).2.1, (hf e).2.2.1]
  have hrequested : requestedQuantity (Db.setEscrow db id f) bookId = requestedQuantity db bookId := by
    refine Table.sum_update_of_eq _ _ _ _ fun e _ => ?_
    rw [(hf e).1, (hf e).2.1, (hf e).2.2.2]
  have houtside : outside (Db.setEscrow db id f) bookId = outside db bookId := by
    rw [outside, hrequested]
    rfl
  refine ⟨?_, houtside⟩
  rw [stock, houtside, htagged]
  rfl

theorem delivered_kept {id : Id} {f : DeliveryRow → DeliveryRow}
    (hf : ∀ r, (f r).marketId = r.marketId ∧ (f r).quantity = r.quantity) :
    stock (Db.setDelivery db id f) bookId = stock db bookId := by
  have hdelivered : deliveredQuantity (Db.setDelivery db id f) bookId = deliveredQuantity db bookId := by
    refine Table.sum_update_of_eq _ _ _ _ fun r _ => ?_
    rw [(hf r).1, (hf r).2]
  rw [stock, hdelivered]
  rfl

theorem addEscrow_kept {e : SellEscrowRow} (he : e.status = .prepared) :
    stock (Db.addEscrow db e) bookId = stock db bookId ∧
      outside (Db.addEscrow db e) bookId = outside db bookId := by
  have hne : e.status ≠ .ordered := by simp [he]
  have htagged : taggedQuantity (Db.addEscrow db e) bookId = taggedQuantity db bookId :=
    (Table.sum_insert _ _ _).trans (by rw [if_neg hne, inBook_zero, add_zero]; rfl)
  have hrequested : requestedQuantity (Db.addEscrow db e) bookId = requestedQuantity db bookId :=
    (Table.sum_insert _ _ _).trans (by rw [if_neg hne, inBook_zero, add_zero]; rfl)
  have houtside : outside (Db.addEscrow db e) bookId = outside db bookId := by
    rw [outside, hrequested]
    rfl
  refine ⟨?_, houtside⟩
  rw [stock, houtside, htagged]
  rfl

/-- The escrow becomes an order for what it asked; the excess is delivered back. -/
theorem orderEscrow_sums {id : Id} {e : SellEscrowRow} (he : db.sellEscrows.get? id = some e)
    (hs : e.status = .tagged) (hq : e.requestedQty ≤ e.taggedQty) (orderId : Option Id) :
    stock (Db.setEscrow (Db.deliver db e.playerUuid e.marketId (e.taggedQty - e.requestedQty)
      .escrowExcess) id fun e => { e with status := .ordered, orderId }) bookId = stock db bookId ∧
    outside (Db.setEscrow (Db.deliver db e.playerUuid e.marketId (e.taggedQty - e.requestedQty)
      .escrowExcess) id fun e => { e with status := .ordered, orderId }) bookId =
        outside db bookId - inBook db bookId e.marketId e.requestedQty := by
  have hne : e.status ≠ .ordered := by simp [hs]
  generalize hdb : Db.deliver db e.playerUuid e.marketId (e.taggedQty - e.requestedQty) .escrowExcess = db₁
  have hplace : ∀ q, inBook db₁ bookId e.marketId q = inBook db bookId e.marketId q := fun q => by
    rw [← hdb]
    rfl
  have hrow : db₁.sellEscrows.get? id = some e := by rw [← hdb]; exact he
  have hdelivered : stock db₁ bookId =
      stock db bookId - inBook db bookId e.marketId (e.taggedQty - e.requestedQty) := by
    rw [← hdb]
    exact stock_deliver (sub_nonneg.mpr hq)
  have houtside₁ : outside db₁ bookId = outside db bookId := by
    rw [← hdb]
    rfl
  have htagged : taggedQuantity (Db.setEscrow db₁ id fun e => { e with status := .ordered, orderId }) bookId =
      taggedQuantity db₁ bookId + inBook db bookId e.marketId e.taggedQty := by
    refine (Table.sum_update _ _ hrow).trans ?_
    rw [if_neg hne, if_pos rfl, inBook_zero, sub_zero, ← hplace]
    rfl
  have hrequested : requestedQuantity (Db.setEscrow db₁ id fun e => { e with status := .ordered, orderId })
      bookId = requestedQuantity db₁ bookId + inBook db bookId e.marketId e.requestedQty := by
    refine (Table.sum_update _ _ hrow).trans ?_
    rw [if_neg hne, if_pos rfl, inBook_zero, sub_zero, ← hplace]
    rfl
  have houtside : outside (Db.setEscrow db₁ id fun e => { e with status := .ordered, orderId }) bookId =
      outside db bookId - inBook db bookId e.marketId e.requestedQty := by
    rw [← houtside₁, outside, hrequested, outside]
    exact (sub_add_eq_sub_sub _ _ _).trans rfl
  refine ⟨?_, houtside⟩
  have hstock : stock (Db.setEscrow db₁ id fun e => { e with status := .ordered, orderId }) bookId =
      stock db₁ bookId + inBook db bookId e.marketId e.taggedQty -
        inBook db bookId e.marketId e.requestedQty := by
    have hrest : unsoldQuantity (Db.setEscrow db₁ id fun e => { e with status := .ordered, orderId }) bookId =
      unsoldQuantity db₁ bookId ∧ deliveredQuantity (Db.setEscrow db₁ id fun e =>
        { e with status := .ordered, orderId }) bookId = deliveredQuantity db₁ bookId := ⟨rfl, rfl⟩
    rw [stock, htagged, houtside, ← houtside₁, hrest.1, hrest.2, stock]
    ring
  rw [hstock, hdelivered, inBook_sub]
  ring

private theorem stock_step (h : Step settings allow d d') (hI : Reconciled d) (hm : MarketsExist d.db)
    (ht : EscrowsTagged d.db) : stock d'.db bookId = stock d.db bookId := by
  have hkept := fun id m => @market_kept _ _ _ _ h id m
  cases h with
  | openMarket => exact (sums_markets hm hkept rfl rfl rfl).1
  | switchMarket => exact (sums_markets hm hkept rfl rfl rfl).1
  | @openOrder db o m _ _ _ hr =>
    have hposted : stock (Db.openOrder db o) bookId = stock (Db.addOrder db o) bookId := rfl
    exact hposted.trans (stock_addOrder hr)
  | settleTrade h => exact stock_settleTrade h
  | @closeMarket db orderId o h =>
    exact (@stock_close db) (f := stoppedOrder) h (hI.orders _ _ h).remaining_nonneg
      (fun _ => ⟨rfl, rfl, rfl, rfl, rfl, rfl⟩) rfl
  | @withdraw db orderId o refund returned h =>
    exact (@stock_close (Db.post db o.playerUuid _ refund _)) (f := canceledOrder) h
      (hI.orders _ _ h).remaining_nonneg
      (fun _ => ⟨rfl, rfl, rfl, rfl, rfl, rfl⟩) rfl
  | @prepareClaim db deliveryId r q => exact (@delivered_kept (Db.addClaim db _)) fun _ => ⟨rfl, rfl⟩
  | @settleClaim db claimId c q r =>
    exact (@delivered_kept db bookId c.deliveryId) (f := settledDelivery q c.quantity) fun _ => ⟨rfl, rfl⟩
  | prepareEscrow _ _ _ hs => exact (addEscrow_kept hs.1).1
  | tagEscrow _ h hs => exact (escrows_unordered h (by simp [hs]) (by simp)).1
  | orderEscrow _ h hs => exact (orderEscrow_sums h hs (ht _ _ h hs) _).1
  | cancelEscrow h hs => exact (escrows_unordered h (by simp [hs]) (by simp)).1
  | cleanEscrow =>
    exact (escrows_kept (f := fun e => { e with cleaned := true }) fun _ => ⟨rfl, rfl, rfl, rfl⟩).1
  | _ => rfl

/-- Steps that open no sale and turn no escrow into an order. -/
def Quiet : Special → Prop
  | .openSell => False
  | .orderEscrow _ => False
  | _ => True

theorem outside_step (h : Step settings Quiet d d') (hm : MarketsExist d.db) :
    outside d'.db bookId = outside d.db bookId := by
  have hkept := fun id m => @market_kept _ _ _ _ h id m
  have horders : ∀ {db db' : Db}, offeredQuantity db' bookId = offeredQuantity db bookId →
      db'.sellEscrows = db.sellEscrows → db'.markets = db.markets →
        outside db' bookId = outside db bookId := by
    intro db db' ho he hm
    have hrequested : requestedQuantity db' bookId = requestedQuantity db bookId := by
      rw [requestedQuantity, he]
      exact Table.sum_congr fun _ _ _ => inBook_congr hm _ _ _
    rw [outside, ho, hrequested, outside]
  cases h with
  | openMarket => exact (sums_markets hm hkept rfl rfl rfl).2
  | switchMarket => exact (sums_markets hm hkept rfl rfl rfl).2
  | @openOrder db o m _ _ _ _ _ _ _ ha =>
    have hbuy : o.side ≠ .sell := fun hs => ha hs
    refine horders ((Table.sum_insert _ _ _).trans ?_) rfl rfl
    rw [if_neg hbuy, inBook_zero, add_zero]
    rfl
  | @settleTrade db taker t buy sell h =>
    have hterms := fun o => sameTerms_traded t.quantity o
    exact horders ((offered_setOrder hterms).trans ((@offered_setOrder db) hterms)) rfl rfl
  | @closeMarket db orderId o h ht =>
    exact horders ((@offered_setOrder db) fun _ => ⟨rfl, rfl, rfl, rfl, rfl, rfl⟩) rfl rfl
  | @withdraw db orderId o =>
    exact horders ((@offered_setOrder db) fun _ => ⟨rfl, rfl, rfl, rfl, rfl, rfl⟩) rfl rfl
  | prepareEscrow _ _ _ hs => exact (addEscrow_kept hs.1).2
  | tagEscrow _ h hs => exact (escrows_unordered h (by simp [hs]) (by simp)).2
  | orderEscrow ha => exact ha.elim
  | cancelEscrow h hs => exact (escrows_unordered h (by simp [hs]) (by simp)).2
  | cleanEscrow =>
    exact (escrows_kept (f := fun e => { e with cleaned := true }) fun _ => ⟨rfl, rfl, rfl, rfl⟩).2
  | _ => rfl

end Steps
section Sales

/-- What a call sold directly: the quantity of a placed sell order that was recorded. -/
def Event.directSale (bookId : Id) (e : Event) : ℤ :=
  match e.call with
  | .placeOrder request =>
    if request.side = .sell ∧ e.after.orders.nextId ≠ e.before.orders.nextId then
      inBook e.after bookId request.marketId request.quantity
    else 0
  | _ => 0

/-- A sale in progress: what it offered is outside, and its market keeps its book. -/
structure Selling (start : Db) (bookId marketId : Id) (quantity : ℤ) (db : Db) : Prop where
  markets : MarketsExist db
  outside : outside db bookId = outside start bookId + inBook start bookId marketId quantity
  book : inBook db bookId marketId quantity = inBook start bookId marketId quantity

theorem placeSellLocked_outside {request : OrderRequest} {r : ExecutionResult} (hm : MarketsExist db)
    (hp : Placeable request) (hside : request.side = .sell)
    (h : placeSellLocked request db = .ok (r, db')) :
    db'.orders.nextId ≠ db.orders.nextId ∧ db'.sellEscrows = db.sellEscrows ∧
      Selling db bookId request.marketId request.quantity db' := by
  obtain ⟨m, -, -, -, hget, -⟩ := placeSellLocked_ok.mp h
  obtain ⟨hopen, hrest, -, hescrows, p, hrow⟩ :=
    (@placeSellLocked_steps _ _ _ sampleSettings (fun _ => True)) hp hside h
  refine ⟨fun heq => ?_, hescrows, ?_⟩
  · exact absurd (Table.lt_nextId hrow).2 (by rw [heq]; exact lt_irrefl _)
  · have hbooks : ∀ {d : Desk}, (∃ m', d.db.markets.get? request.marketId = some m' ∧ SamePlace m m') →
        inBook d.db bookId request.marketId request.quantity =
          inBook db bookId request.marketId request.quantity := by
      rintro d ⟨m', hm', hs⟩
      simp only [inBook, Db.bookOf, hm', hget, Option.map_some, hs.book]
    have hoffered : outside (Db.openOrder db (newOrder request 0)) bookId =
        outside db bookId + inBook db bookId request.marketId request.quantity := by
      have hsum : offeredQuantity (Db.openOrder db (newOrder request 0)) bookId =
          offeredQuantity db bookId + inBook db bookId request.marketId request.quantity := by
        refine (Table.sum_insert _ _ _).trans ?_
        rw [if_pos (show (newOrder request 0).side = .sell from hside)]
        rfl
      have hrequested : requestedQuantity (Db.openOrder db (newOrder request 0)) bookId =
        requestedQuantity db bookId := rfl
      rw [outside, hsum, hrequested, outside]
      ring
    have hkept := Steps.induct (I := fun d => MarketsExist d.db ∧
      outside d.db bookId = outside (Db.openOrder db (newOrder request 0)) bookId ∧
      ∃ m', d.db.markets.get? request.marketId = some m' ∧ SamePlace m m') (fun hs hI => ?_)
      (hrest Quiet) ⟨marketsExist_step (hopen trivial) hm, rfl, m, hget, .refl m⟩
    · exact ⟨hkept.1, hkept.2.1.trans hoffered, hbooks hkept.2.2⟩
    · obtain ⟨hm, ho, m', hm', hp⟩ := hI
      obtain ⟨m'', hm'', hp'⟩ := market_kept hs hm'
      exact ⟨marketsExist_step hs hm, (outside_step hs hm).trans ho, m'', hm'',
        ⟨hp'.book.trans hp.book, hp'.item.trans hp.item⟩⟩

/-- The states in which a direct sale ends: not recorded, or recorded as a whole. -/
def SaleEnds (start : Db) (bookId : Id) (request : OrderRequest) (db : Db) : Prop :=
  (db.orders.nextId = start.orders.nextId ∧ outside db bookId = outside start bookId) ∨
  (db.orders.nextId ≠ start.orders.nextId ∧ outside db bookId =
    outside start bookId + inBook db bookId request.marketId request.quantity)

/-- The states before the transaction of a direct sale. -/
def SaleWaits (start : Db) (bookId : Id) (db : Db) : Prop :=
  db.orders = start.orders ∧ outside db bookId = outside start bookId ∧ MarketsExist db

private theorem ensureAccount_waits {start : Db} {playerUuid playerName : String} :
    Keeps (SaleWaits start bookId) (ensureAccount settings playerUuid playerName) := by
  refine Keeps.guard fun _ => Keeps.atomic fun db u db' hw hb => ?_
  obtain ⟨-, rfl⟩ := Prod.mk.inj (ensureAccountTx_ok.mp hb)
  obtain ⟨ho, hs, hm⟩ := hw
  unfold Db.ensured
  cases db.accounts.find? playerUuid with
  | none => exact ⟨ho, hs, ⟨hm.orders, hm.deliveries, hm.sellEscrows⟩⟩
  | some a => exact ⟨ho, hs, ⟨hm.orders, hm.deliveries, hm.sellEscrows⟩⟩

private theorem placeSell_ends {start : Db} {request : OrderRequest} (hp : Placeable request)
    (hside : request.side = .sell) : Triple (SaleWaits start bookId) (transaction (placeSell request))
      (fun _ => SaleEnds start bookId request) (fun _ => SaleEnds start bookId request)
      (SaleEnds start bookId request) := by
  have hskip : ∀ db, SaleWaits start bookId db → SaleEnds start bookId request db := fun db hw =>
    .inl ⟨by rw [hw.1], hw.2.1⟩
  refine Triple.atomic hskip hskip (fun db r db' hw hb => ?_) fun db e hw _ => hskip db hw
  obtain ⟨ho, hs, hm⟩ := hw
  obtain ⟨hid, -, hsold⟩ := (@placeSellLocked_outside _ _ bookId) hm hp hside hb
  have hends : SaleEnds start bookId request db' := by
    refine .inr ⟨by rw [← ho]; exact hid, ?_⟩
    rw [hsold.outside, hs, hsold.book]
  exact ⟨hends, hends⟩

private theorem placeOrder_ends {start : Db} {request : OrderRequest} (hside : request.side = .sell) :
    Triple (SaleWaits start bookId) (placeOrder settings request)
      (fun _ => SaleEnds start bookId request) (fun _ => SaleEnds start bookId request)
      (SaleEnds start bookId request) := by
  have hskip : ∀ db, SaleWaits start bookId db → SaleEnds start bookId request db := fun db hw =>
    .inl ⟨by rw [hw.1], hw.2.1⟩
  cases hv : validateRequest settings request with
  | error e =>
    simp only [placeOrder, hv]
    exact Triple.bind (R := fun _ _ => False) (Triple.throw hskip) fun _ _ _ h => h.elim
  | ok u =>
    simp only [placeOrder, hv, hside]
    refine Triple.bind (R := fun _ => SaleWaits start bookId) (Triple.pure fun _ h => h) fun _ => ?_
    refine Triple.bind (Triple.conseq ensureAccount_waits (fun _ h => h) (fun _ _ h => h)
      (fun _ => hskip) hskip) fun _ => ?_
    exact placeSell_ends (placeable_of_checked hv) hside

private theorem placeOrder_sale {request : OrderRequest} (hside : request.side = .sell) (hm : MarketsExist db)
    (faults : List Fault) :
    SaleEnds db bookId request ((Call.placeOrder request).leaves settings faults db) := by
  have hrun : Triple (SaleWaits db bookId) ((Call.placeOrder request).run settings)
      (fun _ => SaleEnds db bookId request) (fun _ => SaleEnds db bookId request)
      (SaleEnds db bookId request) :=
    Triple.bind (placeOrder_ends hside) fun _ => Triple.pure fun _ h => h
  exact hrun.final faults ⟨rfl, rfl, hm⟩

/-- An escrow that is executed sells what it had already brought in. -/
theorem executeSellEscrow_outside {escrowId : Id} (hm : MarketsExist db) (ht : EscrowsTagged db)
    (hp : EscrowsPlaceable db) (faults : List Fault) :
    outside ((Call.executeSellEscrow escrowId).leaves settings faults db) bookId =
      outside db bookId := by
  have hrun : Triple (· = db) ((Call.executeSellEscrow escrowId).run settings)
      (fun _ db' => outside db' bookId = outside db bookId)
      (fun _ db' => outside db' bookId = outside db bookId)
      (fun db' => outside db' bookId = outside db bookId) := by
    have hskip : ∀ db', db' = db → outside db' bookId = outside db bookId := fun _ h => by rw [h]
    refine Triple.bind (R := fun _ db' => outside db' bookId = outside db bookId) ?_
      fun _ => Triple.pure fun _ h => h
    refine Triple.atomic hskip hskip (fun db₀ r db' hdb hb => ?_) fun db' e hdb _ => hskip db' hdb
    obtain rfl : db₀ = db := hdb
    obtain ⟨e, he, ⟨-, hr⟩ | ⟨hs, db₁, hplace, hr⟩⟩ := executeSellEscrowTx_ok hb
    · obtain rfl : db' = db₀ := hr
      exact ⟨rfl, rfl⟩
    · obtain ⟨-, hescrows, hsold⟩ := (@placeSellLocked_outside _ _ bookId) hm (hp escrowId e he)
        rfl hplace
      have he₁ : db₁.sellEscrows.get? escrowId = some e := by rw [hescrows, he]
      obtain ⟨-, hordered⟩ := (@orderEscrow_sums _ bookId) he₁ hs (ht _ e he hs)
        (some r.orderId)
      have hsame : outside db' bookId = outside db₀ bookId := by
        have hdb' : db' = _ := hr
        have hbook : inBook db₁ bookId e.marketId e.requestedQty =
          inBook db₀ bookId e.marketId e.requestedQty := hsold.book
        have hopened : outside db₁ bookId =
          outside db₀ bookId + inBook db₀ bookId e.marketId e.requestedQty := hsold.outside
        rw [hdb', hordered, hopened, hbook, add_sub_cancel_right]
      exact ⟨hsame, hsame⟩
  exact hrun.final faults rfl

/-- What a whole run sold directly. -/
def directSales (bookId : Id) (history : List Event) : ℤ := (history.map (Event.directSale bookId)).sum

private theorem call_outside (hm : MarketsExist db) (ht : EscrowsTagged db) (hp : EscrowsPlaceable db) (c : Call)
    (faults : List Fault) : outside (c.leaves settings faults db) bookId =
      outside db bookId + Event.directSale bookId ⟨c, db, c.leaves settings faults db⟩ := by
  have hquiet : (∀ s, c.Allows s → Quiet s) →
      outside (c.leaves settings faults db) bookId = outside db bookId := by
    intro hq
    have hsteps := (@Call.leaves_follows settings _ c faults hp).1
    refine (Steps.induct (I := fun d => MarketsExist d.db ∧ outside d.db bookId = outside db bookId)
      (fun hs hI => ?_) hsteps ⟨hm, rfl⟩).2
    have hs' := hs.mono hq
    exact ⟨marketsExist_step hs' hI.1, (outside_step hs' hI.1).trans hI.2⟩
  cases c with
  | placeOrder request =>
    by_cases hside : request.side = .sell
    · rcases (@placeOrder_sale settings _ bookId) hside hm faults with
        ⟨hid, hs⟩ | ⟨hid, hs⟩
      · rw [hs]
        simp [Event.directSale, hid]
      · rw [hs]
        simp [Event.directSale, hid, hside]
    · rw [hquiet fun s hs => ?_]
      · simp [Event.directSale, hside]
      · cases s <;> first | exact absurd hs hside | trivial
  | executeSellEscrow id =>
    rw [executeSellEscrow_outside hm ht hp faults]
    exact (add_zero _).symm
  | _ =>
    refine (hquiet fun s hs => ?_).trans (add_zero _).symm
    cases s <;> first | exact hs.elim | trivial

end Sales

section Runs

/-- What the sums of a book rest on. -/
structure Stocked (d : Desk) : Prop where
  reconciled : Reconciled d
  markets : MarketsExist d.db
  tagged : EscrowsTagged d.db
  items : ItemsOfBooks d.db
  origins : ∀ i r, d.db.deliveries.get? i = some r → Origin d.db r
  purchases : d.db.deliveries.collect boughtItems = d.db.trades.collect tradedItems
  stock : ∀ bookId, stock d.db bookId = 0

private theorem stocked_start : Stocked ⟨{}, none⟩ := by
  refine ⟨reachable_reconciled ⟨[], (@Run.start sampleSettings)⟩, ⟨?_, ?_, ?_⟩, ?_, ?_, ?_,
    rfl, fun _ => rfl⟩
  all_goals
    intro i a ha
    simp at ha

private theorem stocked_step (h : Step settings allow d d') (hI : Stocked d) : Stocked d' :=
  ⟨reconciled_step h hI.reconciled, marketsExist_step h hI.markets, escrowsTagged_step h hI.tagged,
    itemsOfBooks_step h hI.items, origins_step h hI.origins, purchases_step h hI.purchases,
    fun bookId => (stock_step h hI.reconciled hI.markets hI.tagged).trans (hI.stock bookId)⟩

theorem reachable_stocked (h : Reachable settings db) : Stocked ⟨db, none⟩ :=
  h.induct stocked_start stocked_step

theorem run_outside {history : List Event} (h : Run settings history db) :
    outside db bookId = directSales bookId history := by
  induction h with
  | start => rfl
  | @call history db h c faults ih =>
    have hI := reachable_stocked ⟨history, h⟩
    rw [call_outside hI.markets hI.tagged h.escrowsPlaceable, ih]
    simp [directSales]

/-- Between calls only resting sell orders have units left. -/
theorem restingQuantity_eq (hI : Reconciled ⟨db, none⟩) :
    restingQuantity db bookId = unsoldQuantity db bookId := by
  refine Table.sum_congr fun id o ho => ?_
  have hb := hI.orders id o ho
  by_cases hside : o.side = .sell
  · by_cases hrest : o.Resting
    · simp [hside, hrest]
    · have hzero : o.remainingQty = 0 := by
        by_cases ht : o.orderType = .limit ∧ o.status ≠ .canceled
        · obtain ⟨-, hstatus⟩ := hb.accounted (.inl ht)
          by_contra hne
          refine hrest ⟨ht.1, ?_⟩
          rw [hstatus, orderStatus, if_neg hne]
          split_ifs <;> simp
        · exact (hb.finished fun h => h.elim ht fun h => by simp at h).1
      simp [hrest, hzero]
  · simp [hside]

end Runs

/-- In every book what came in, through escrows and direct sales, is what rests and what was
delivered, and every delivery is over the item of the order it was made for. -/
theorem items_conserved {history : List Event} (h : Run settings history db) :
    (∀ bookId, taggedQuantity db bookId + directSales bookId history =
      restingQuantity db bookId + deliveredQuantity db bookId) ∧
    (∀ i r, db.deliveries.get? i = some r → ∃ id o m n, MadeFor db r id o ∧
      db.markets.get? r.marketId = some m ∧ db.markets.get? o.marketId = some n ∧
      SameItem m.item n.item) ∧
    db.deliveries.collect boughtItems = db.trades.collect tradedItems := by
  have hI := reachable_stocked ⟨history, h⟩
  refine ⟨fun bookId => ?_, fun i r hr => (hI.origins i r hr).madeFor hI.markets hI.items, hI.purchases⟩
  have hstock : stock db bookId = 0 := hI.stock bookId
  rw [stock, run_outside h] at hstock
  rw [restingQuantity_eq hI.reconciled]
  omega

/-- A direct sale of four diamonds, half of them bought, and an escrow with an excess of one. -/
theorem items_conserved_sales :
    let calls : List Call := [.activateMarket (diamondMarket "block"),
      .placeOrder (diamondOrder "alice" .buy .limit 500 2),
      .placeOrder (diamondOrder "bob" .sell .limit 400 4),
      .prepareSellEscrow (diamondOrder "bob" .sell .limit 900 5), .markSellEscrowTagged 1 6 1,
      .executeSellEscrow 1]
    let db := afterCalls sampleSettings calls
    ∃ history, history.map Event.call = calls ∧ directSales 1 history = 4 ∧
      taggedQuantity db 1 = 6 ∧ 6 + directSales 1 history = restingQuantity db 1 + deliveredQuantity db 1 ∧
      restingQuantity db 1 = 7 ∧ deliveredQuantity db 1 = 3 := by
  intro calls db
  obtain ⟨history, h, hcalls⟩ := run_afterCalls sampleSettings calls
  have hconserved := (items_conserved h).1 1
  have htagged : taggedQuantity db 1 = 6 := rfl
  have hresting : restingQuantity db 1 = 7 := rfl
  have hdelivered : deliveredQuantity db 1 = 3 := rfl
  rw [htagged] at hconserved
  refine ⟨history, hcalls, ?_, htagged, hconserved, hresting, hdelivered⟩
  rw [hresting, hdelivered] at hconserved
  omega
end EndstoneExchange.ItemConservation
