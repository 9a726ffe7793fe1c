import EndstoneExchange.ClearingSteps

/-!
# What the steps of the desk never change

The terms of an order, the book and item of a market and the item of a book
are written once. Orders and markets are never removed.
-/
namespace EndstoneExchange.RowHistories
open AutoIncrementTables KeyedTables ExchangeDomain ExchangeTransactions OrderMatching ClearingSteps

/-- Two rows of one order. -/
structure SameTerms (o o' : OrderRow) : Prop where
  market : o'.marketId = o.marketId
  player : o'.playerUuid = o.playerUuid
  side : o'.side = o.side
  type : o'.orderType = o.orderType
  price : o'.priceCents = o.priceCents
  original : o'.originalQty = o.originalQty

theorem SameTerms.refl (o : OrderRow) : SameTerms o o := ⟨rfl, rfl, rfl, rfl, rfl, rfl⟩

theorem SameTerms.trans {o o' o'' : OrderRow} (h : SameTerms o o') (h' : SameTerms o' o'') :
    SameTerms o o'' :=
  ⟨h'.market.trans h.market, h'.player.trans h.player, h'.side.trans h.side, h'.type.trans h.type,
    h'.price.trans h.price, h'.original.trans h.original⟩

/-- Two rows of one market. -/
structure SamePlace (m m' : MarketRow) : Prop where
  book : m'.bookId = m.bookId
  item : m'.item = m.item

theorem SamePlace.refl (m : MarketRow) : SamePlace m m := ⟨rfl, rfl⟩

variable {settings : Settings} {allow : Special → Prop} {d d' : Desk}

theorem sameTerms_traded (q : ℤ) (o : OrderRow) : SameTerms o (traded q o) :=
  ⟨rfl, rfl, rfl, rfl, rfl, rfl⟩

theorem order_kept (h : Step settings allow d d') {id : Id} {o : OrderRow}
    (ho : d.db.orders.get? id = some o) : ∃ o', d'.db.orders.get? id = some o' ∧ SameTerms o o' := by
  cases h with
  | openOrder => exact ⟨o, Table.get?_insert_old _ ho, .refl o⟩
  | settleTrade =>
    obtain ⟨o₁, ho₁, hs₁⟩ := Table.exists_get?_update .refl (sameTerms_traded _) ho _
    obtain ⟨o₂, ho₂, hs₂⟩ := Table.exists_get?_update .refl (sameTerms_traded _) ho₁ _
    exact ⟨o₂, ho₂, hs₁.trans hs₂⟩
  | closeMarket =>
    exact Table.exists_get?_update (f := stoppedOrder) .refl (fun _ => ⟨rfl, rfl, rfl, rfl, rfl, rfl⟩) ho _
  | withdraw =>
    exact Table.exists_get?_update (f := canceledOrder) .refl (fun _ => ⟨rfl, rfl, rfl, rfl, rfl, rfl⟩) ho _
  | _ => exact ⟨o, ho, .refl o⟩

theorem market_kept (h : Step settings allow d d') {id : Id} {m : MarketRow}
    (hm : d.db.markets.get? id = some m) : ∃ m', d'.db.markets.get? id = some m' ∧ SamePlace m m' := by
  cases h with
  | openMarket => exact ⟨m, Table.get?_insert_old _ hm, .refl m⟩
  | switchMarket => exact Table.exists_get?_update .refl (fun _ => ⟨rfl, rfl⟩) hm _
  | _ => exact ⟨m, hm, .refl m⟩

theorem book_kept (h : Step settings allow d d') {id : Id} {b : BookRow}
    (hb : d.db.books.get? id = some b) : d'.db.books.get? id = some b := by
  cases h with
  | openBook => exact Table.get?_insert_old _ hb
  | _ => exact hb

/-- Two rows of one delivery. -/
structure SameDelivery (r r' : DeliveryRow) : Prop where
  player : r'.playerUuid = r.playerUuid
  market : r'.marketId = r.marketId
  quantity : r'.quantity = r.quantity
  reason : r'.reason = r.reason

theorem SameDelivery.refl (r : DeliveryRow) : SameDelivery r r := ⟨rfl, rfl, rfl, rfl⟩

theorem delivery_deliver {db : Db} {id : Id} {r : DeliveryRow} (h : db.deliveries.get? id = some r)
    (playerUuid : String) (marketId : Id) (q : ℤ) (reason : DeliveryReason) :
    ∃ r', (Db.deliver db playerUuid marketId q reason).deliveries.get? id = some r' ∧ SameDelivery r r' := by
  rw [Db.deliver_deliveries]
  split_ifs
  · exact ⟨r, h, .refl r⟩
  · exact ⟨r, Table.get?_insert_old _ h, .refl r⟩

theorem delivery_kept (h : Step settings allow d d') {id : Id} {r : DeliveryRow}
    (hr : d.db.deliveries.get? id = some r) :
    ∃ r', d'.db.deliveries.get? id = some r' ∧ SameDelivery r r' := by
  cases h with
  | settleTrade => exact delivery_deliver hr _ _ _ _
  | closeMarket => exact delivery_deliver hr _ _ _ _
  | withdraw => exact delivery_deliver hr _ _ _ _
  | orderEscrow => exact delivery_deliver hr _ _ _ _
  | prepareClaim => exact Table.exists_get?_update .refl (fun _ => ⟨rfl, rfl, rfl, rfl⟩) hr _
  | settleClaim => exact Table.exists_get?_update .refl (fun _ => ⟨rfl, rfl, rfl, rfl⟩) hr _
  | _ => exact ⟨r, hr, .refl r⟩

theorem trade_orders_ne {db : Db} {taker : Option Id} {t : TradeRow} {buy sell : OrderRow}
    (h : Settles db taker t buy sell) : t.buyOrderId ≠ t.sellOrderId := by
  intro he
  have hbuy := h.buyOrder.row
  have hsides := h.sides
  rw [he, h.sellOrder.row] at hbuy
  rw [Option.some.inj hbuy] at hsides
  exact absurd (hsides.1.symm.trans hsides.2) (by decide)

/-- The rows of the orders after a trade. -/
theorem settleTrade_row {db : Db} {taker : Option Id} {t : TradeRow} {buy sell : OrderRow}
    (h : Settles db taker t buy sell) {id : Id} {o : OrderRow}
    (ho : (Db.settleTrade db t buy).orders.get? id = some o) :
    (id = t.buyOrderId ∧ id ≠ t.sellOrderId ∧ o = traded t.quantity buy) ∨
    (id = t.sellOrderId ∧ id ≠ t.buyOrderId ∧ o = traded t.quantity sell) ∨
    (id ≠ t.buyOrderId ∧ id ≠ t.sellOrderId ∧ db.orders.get? id = some o) := by
  have hbuy := h.buyOrder.row
  have hsell := h.sellOrder.row
  have hne := trade_orders_ne h
  rcases Table.get?_update_cases ho with ⟨rfl, o₁, ho₁, rfl⟩ | ⟨hid, ho₁⟩
  · obtain ⟨he, -⟩ | ⟨-, ho₁⟩ := Table.get?_update_cases ho₁
    · exact absurd he.symm hne
    · obtain rfl : o₁ = sell := Option.some.inj (ho₁.symm.trans hsell)
      exact .inr (.inl ⟨rfl, hne.symm, rfl⟩)
  · rcases Table.get?_update_cases ho₁ with ⟨rfl, o₂, ho₂, rfl⟩ | ⟨hid', ho₂⟩
    · obtain rfl : o₂ = buy := Option.some.inj (ho₂.symm.trans hbuy)
      exact .inl ⟨rfl, hid, rfl⟩
    · exact .inr (.inr ⟨hid', hid, ho₂⟩)

end EndstoneExchange.RowHistories
